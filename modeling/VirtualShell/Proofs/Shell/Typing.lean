import VirtualShell.Proofs.Path.Characters
import VirtualShell.Proofs.Run.FirstStart
import VirtualShell.Proofs.Session.Verdict
import VirtualShell.Proofs.Shell.Erasure
import VirtualShell.Proofs.Shell.InputLines

/-!
# What can be made by typing

Sessions that share a store are started and given command lines, while commits fail at any time and
the clock is set as one likes.  A line is cut at its blanks, so that no blank ever comes into a
path: everything that is stored, and every working directory, is without blanks.
-/

namespace VirtualShell

open Text (Unbroken)

/-! ### Words and paths -/

/-- The words of a line are without blanks. -/
theorem Line.unbroken_of_parse {line : String} {invocation : Invocation}
    (hline : Line.parse line = some invocation) :
    ∀ word ∈ invocation.name :: invocation.args, Unbroken word :=
  fun word hword => (of_mem_parse hline word hword).1.2

theorem Text.unbroken_root : Unbroken Path.root := by decide

theorem Text.Unbroken.of_resolve {raw cwd path : String} (hraw : Unbroken raw)
    (hcwd : Unbroken cwd) (hresolve : Path.resolve raw cwd = .ok path) : Unbroken path := by
  intro c hc
  rcases Path.mem_of_resolve hresolve hc with rfl | rfl | hc | hc
  · decide
  · decide
  · exact hraw c hc
  · exact hcwd c hc

/-! ### Effects -/

/-- The path that a deed was done at. -/
def Deed.path : Deed → String
  | .wrote path _ _ _ | .made path _ | .deleted path => path

/-- A deed is done where its operation says. -/
theorem Operation.resolve_of_mem_deeds {operation : Operation} {s : Scene}
    {result : Except StorageError Reply} {deed : Deed} (hdeed : deed ∈ operation.deeds s result) :
    ∃ raw, operation.target? = some raw ∧ Path.resolve raw s.cursor = .ok deed.path := by
  have hat {raw : String} {make : String → Deed} (hmake : ∀ path, (make path).path = path)
      (hmem : deed ∈ s.deedAt raw make) : Path.resolve raw s.cursor = .ok deed.path := by
    rw [Scene.deedAt] at hmem
    cases hresolve : Path.resolve raw s.cursor with
    | error e =>
        rw [hresolve] at hmem
        cases hmem
    | ok path =>
        rw [hresolve] at hmem
        rw [List.mem_singleton.mp hmem, hmake]
  unfold Operation.deeds at hdeed
  split at hdeed
  · exact ⟨_, rfl, hat (fun _ => rfl) hdeed⟩
  · exact ⟨_, rfl, hat (fun _ => rfl) hdeed⟩
  · exact ⟨_, rfl, hat (fun _ => rfl) hdeed⟩
  · exact ⟨_, rfl, hat (fun _ => rfl) hdeed⟩
  · cases hdeed

/-- All paths under which something is stored are without blanks. -/
def Contents.Unbroken (nodes : Contents) : Prop :=
  ∀ path, (nodes.find? path).isSome → Text.Unbroken path

theorem Contents.Unbroken.bare : Contents.bare.Unbroken := by
  intro path hstored
  rw [Contents.find?_bare] at hstored
  split at hstored
  · rename_i hpath
    exact hpath ▸ Text.unbroken_root
  · cases hstored

section

variable {now : Timestamp} {nodes nodes' : Contents} {cursor cursor' : String} {deeds : List Deed}

theorem Contents.Unbroken.plant {node : Node} {parent : String} (hnodes : nodes.Unbroken)
    (htree : nodes.Tree) (hplant : Contents.Plantable nodes node parent)
    (hpath : Text.Unbroken node.path) : (nodes.plant node).Unbroken := by
  intro path hstored
  rw [Contents.isSome_find?_plant htree hplant] at hstored
  rcases hstored with rfl | hstored
  · exact hpath
  · exact hnodes path hstored

/-- An effect of deeds at paths without blanks brings none in. -/
theorem Effect.unbroken (heffect : Effect now nodes cursor deeds nodes' cursor')
    (htree : nodes.Tree) (hnodes : nodes.Unbroken) (hcursor : Text.Unbroken cursor)
    (hdeeds : ∀ deed ∈ deeds, Text.Unbroken deed.path) :
    nodes'.Unbroken ∧ Text.Unbroken cursor' := by
  -- only planting adds a path, and it is that of the deed
  cases heffect with
  | idle | touched hdirectory | kept hdirectory => exact ⟨hnodes, hcursor⟩
  | moved hdirectory => exact ⟨hnodes, hnodes _ (Contents.isSome_find?_of_kind? hdirectory)⟩
  | wrote hplant =>
      exact ⟨hnodes.plant htree hplant (hdeeds _ (List.mem_singleton_self _)), hcursor⟩
  | made hplant hfree =>
      exact ⟨hnodes.plant htree hplant (hdeeds _ (List.mem_singleton_self _)), hcursor⟩
  | deleted hprune =>
      refine ⟨fun path hstored => ?_, ?_⟩
      · exact hnodes path ((Contents.isSome_find?_prune htree hprune path).mp hstored).2
      · split
        · exact hnodes _ (Contents.isSome_find?_of_kind? (hprune.directory htree))
        · exact hcursor

theorem Effects.unbroken (heffects : Effects now cursor nodes deeds nodes') (htree : nodes.Tree)
    (hnodes : nodes.Unbroken) (hcursor : Text.Unbroken cursor)
    (hdeeds : ∀ deed ∈ deeds, Text.Unbroken deed.path) : nodes'.Unbroken := by
  induction heffects with
  | nil => exact hnodes
  | cons hfirst hrest ih =>
      rw [List.forall_mem_append] at hdeeds
      exact ih (hfirst.tree htree) (hfirst.unbroken htree hnodes hcursor hdeeds.1).1 hdeeds.2

end

/-- The paths of the first tree are without blanks. -/
theorem Seed.unbroken_deeds (now : Timestamp) : ∀ deed ∈ deeds now, Text.Unbroken deed.path := by
  have hall : ∀ path ∈ Path.root :: shapes.map (·.1), Text.Unbroken path := by decide +kernel
  intro deed hdeed
  obtain ⟨node, hnode, rfl⟩ := List.mem_map.mp hdeed
  have hpath : (Deed.ofNode node).path = node.path := by cases node <;> rfl
  rw [hpath]
  exact hall _ ((paths_tree_sublist now).subset (List.mem_map_of_mem (List.mem_of_mem_tail hnode)))

/-! ### Commands -/

/-- The store holds a tree, and neither its paths nor the cursor have blanks. -/
def Scene.Tidy (s : Scene) : Prop :=
  ∃ nodes : Contents, s.store.Holds nodes ∧ nodes.Tree ∧ nodes.Unbroken ∧
    Path.Canonical s.cursor ∧ Unbroken s.cursor

/-- The action leaves things tidy. -/
def Action.Tidies {α : Type} (action : Action α) : Prop :=
  ∀ s : Scene, s.Tidy → (action.play s).2.Tidy

namespace Action

variable {α β : Type}

theorem Quiet.tidies {action : Action α} (haction : Quiet action) : action.Tidies := by
  intro s hs
  rwa [haction s]

theorem Tidies.bind {action : Action α} {f : α → Action β} (haction : action.Tidies)
    (hf : ∀ value, (f value).Tidies) : (action >>= f).Tidies := by
  intro s hs
  have hmiddle := haction s hs
  rw [play_bind]
  cases hplay : action.play s with
  | mk result s' =>
      rw [hplay] at hmiddle
      cases result with
      | error e => exact hmiddle
      | ok value => exact hf value s' hmiddle

/-- What an operation does at a path without blanks leaves things tidy. -/
theorem tidies_of_operation (options : SessionOptions) (operation : Operation)
    {action : Action Bool}
    (hperform : operation.perform options = do return Reply.truth (← action))
    (htarget : ∀ raw ∈ operation.target?, Unbroken raw) : action.Tidies := by
  intro s ⟨nodes, hholds, htree, hnodes, hcanonical, hcursor⟩
  -- how the answer is worded does not matter for what is left
  have hsame : ((operation.perform options).play s).2 = (action.play s).2 := by
    rw [hperform, play_bind]
    cases action.play s with
    | mk result s' => cases result <;> rfl
  obtain ⟨nodes', hholds', heffect⟩ := operation.effect options hholds htree hcanonical
  rw [hsame] at hholds' heffect
  obtain ⟨hnodes', hcursor'⟩ := heffect.unbroken htree hnodes hcursor fun deed hdeed => by
    obtain ⟨raw, hraw, hresolve⟩ := operation.resolve_of_mem_deeds hdeed
    exact (htarget raw hraw).of_resolve hcursor hresolve
  exact ⟨nodes', hholds', heffect.tree htree, hnodes', heffect.canonical htree hcanonical, hcursor'⟩

end Action

namespace Command

open VirtualShell.Action

variable (palette : Palette) (options : SessionOptions)

theorem tidies_withOperand (usage : String) {args : List String}
    (hargs : ∀ arg ∈ args, Unbroken arg) {next : String → Action CommandStatus}
    (hnext : ∀ operand, Unbroken operand → (next operand).Tidies) :
    (withOperand palette usage args next).Tidies := by
  unfold withOperand
  split
  · exact hnext _ (hargs _ (List.mem_singleton_self _))
  · exact ((quiet_writeError _ _).bind fun _ => quiet_pure _).tidies

/-- A command that asks for a change at a path without blanks. -/
theorem tidies_doneOr (complaint : String) (operation : Operation) {action : Action Bool}
    (hperform : operation.perform options = do return Reply.truth (← action)) {path : String}
    (htarget : operation.target? = some path) (hpath : Unbroken path) :
    Tidies (do doneOr palette complaint (← action)) := by
  have hargument : ∀ raw ∈ operation.target?, Unbroken raw := by
    rw [htarget]
    simpa using hpath
  refine (tidies_of_operation options operation hperform hargument).bind fun done => ?_
  cases done with
  | true => exact (quiet_pure _).tidies
  | false => exact ((quiet_writeError _ _).bind fun _ => quiet_pure _).tidies

/-- A command with arguments without blanks leaves things tidy. -/
theorem tidies_run {args : List String} (hargs : ∀ arg ∈ args, Unbroken arg) (command : Command) :
    (run palette options args command).Tidies := by
  cases hreads : command.readsOnly with
  | true => exact (quiet_run palette options args hreads).tidies
  | false =>
      cases command with
      | cd =>
          have hcd : (Session.changeDirectory (args.headD Path.root)).Tidies :=
            tidies_of_operation options (.changeDirectory _) rfl (by simp [Operation.target?])
          refine hcd.bind fun changed => Action.Quiet.tidies ?_
          cases changed with
          | true =>
              exact quiet_cursor.bind fun _ => (quiet_writeLine _).bind fun _ => quiet_pure _
          | false =>
              exact (quiet_writeError _ _).bind fun _ =>
                quiet_cursor.bind fun _ => (quiet_writeLine _).bind fun _ => quiet_pure _
      | mkdir =>
          exact tidies_withOperand palette _ hargs fun path hpath =>
            tidies_doneOr palette options _ (.createDirectory path) rfl rfl hpath
      | touch =>
          exact tidies_withOperand palette _ hargs fun path hpath =>
            tidies_doneOr palette options _ (.touch path) rfl rfl hpath
      | rm =>
          exact tidies_withOperand palette _ hargs fun path hpath =>
            tidies_doneOr palette options _ (.delete path) rfl rfl hpath
      | _ => cases hreads

end Command

/-- A line leaves things tidy. -/
theorem Shell.tidy_execute (shell : Shell) (line : String) {s : Scene} (hs : s.Tidy) :
    ((shell.execute line).play s).2.Tidy := by
  rw [execute]
  cases hline : Line.parse line with
  | none => exact hs
  | some invocation =>
      have hwords := Line.unbroken_of_parse hline
      rw [List.forall_mem_cons] at hwords
      cases hcommand : shell.registry.find? invocation.name with
      | none =>
          show ((shell.perform invocation).play s).2.Tidy
          rw [perform, hcommand]
          exact hs
      | some command =>
          show ((shell.perform invocation).play s).2.Tidy
          rw [play_perform shell hcommand]
          exact command.tidies_run shell.palette shell.options hwords.2 s hs

/-! ### Terminals on a store -/

/-- What can happen where sessions are given nothing but command lines. -/
inductive Happening where
  | start (seeded : Bool) (options : SessionOptions)
  | line (number : Nat) (shell : Shell) (text : String)
  | refuse (on : Bool)
  | change (medium : Medium)
  | tick (now : Timestamp)

namespace Shared

/-- A line given to a shell at a cursor: its report, and the world it leaves. -/
def typed (s : Shared) (cursor : String) (shell : Shell) (text : String) : LineReport × World :=
  shell.runLine ⟨text, s.now, s.medium⟩ (s.world cursor)

/-- The state after something happened. A line is given to the session with a number. -/
def happen (s : Shared) : Happening → Shared
  | .start seeded options => s.step (.start seeded options)
  | .line number shell text =>
    match s.clients[number]? with
    | none => s
    | some client =>
      let (_, w) := s.typed client.cursor shell text
      { s with
        store := w.store
        clients := s.clients.set number { client with cursor := w.cursor } }
  | .refuse on => s.step (.refuse on)
  | .change medium => s.step (.change medium)
  | .tick now => s.step (.tick now)

/-- The state can come about by sessions that are started and given lines. -/
def Typed (s : Shared) : Prop :=
  ∃ backend now happenings, s = List.foldl happen (fresh backend now) happenings

/-- A sound state without blanks in any path. -/
structure Tidy (s : Shared) (nodes : Contents) : Prop extends s.Sound nodes where
  nodes : nodes.Unbroken
  cursors {client : Client} (hclient : client ∈ s.clients) : Unbroken client.cursor

variable {s : Shared} {nodes : Contents}

theorem Tidy.scene (htidy : s.Tidy nodes) {client : Client} (hclient : client ∈ s.clients) :
    (s.scene client.cursor).Tidy :=
  ⟨nodes, htidy.holds, htidy.tree, htidy.nodes, htidy.canonical hclient, htidy.cursors hclient⟩

/-- The scene that a line leaves. -/
theorem scene_typed (s : Shared) (cursor : String) (shell : Shell) (text : String) :
    (s.typed cursor shell text).2.scene s.medium =
      ((shell.execute text).play (s.scene cursor)).2 :=
  congrArg Prod.snd ((shell.execute text).run_upon_scene s.medium (s.world cursor))

/-- On a tidy store, whatever happens leaves things tidy. -/
theorem Tidy.happen (htidy : s.Tidy nodes) (happening : Happening) :
    ∃ nodes', (s.happen happening).Tidy nodes' := by
  cases happening with
  | start seeded options =>
      refine ⟨nodes, ?_⟩
      rw [Shared.happen, (htidy.step_start seeded options).1]
      refine ⟨⟨htidy.holds, htidy.tree, fun hclient => ?_⟩, htidy.nodes, fun hclient => ?_⟩
      · rcases List.mem_append.mp hclient with hclient | hclient
        · exact htidy.canonical hclient
        · exact List.mem_singleton.mp hclient ▸ .atRoot
      · rcases List.mem_append.mp hclient with hclient | hclient
        · exact htidy.cursors hclient
        · exact List.mem_singleton.mp hclient ▸ Text.unbroken_root
  | line number shell text =>
      rw [Shared.happen]
      cases hclient : s.clients[number]? with
      | none => exact ⟨nodes, htidy⟩
      | some client =>
          have hmem := List.mem_of_getElem? hclient
          obtain ⟨nodes', hholds, htree, hnodes, hcanonical, hcursor⟩ :=
            shell.tidy_execute text (htidy.scene hmem)
          -- what the line leaves is what its session finds next; all others stand where they stood
          rw [← scene_typed] at hholds hcanonical hcursor
          refine ⟨nodes', ⟨hholds, htree, fun hother => ?_⟩, hnodes, fun hother => ?_⟩
          · rcases List.mem_or_eq_of_mem_set hother with hother | rfl
            · exact htidy.canonical hother
            · exact hcanonical
          · rcases List.mem_or_eq_of_mem_set hother with hother | rfl
            · exact htidy.cursors hother
            · exact hcursor
  | refuse on =>
      exact ⟨nodes, ⟨htidy.holds.refusing on, htidy.tree, htidy.canonical⟩, htidy.nodes,
        htidy.cursors⟩
  | change medium | tick now =>
      exact ⟨nodes, ⟨htidy.holds, htidy.tree, htidy.canonical⟩, htidy.nodes, htidy.cursors⟩

/-- Whatever happens first leaves an empty store empty, or tidy. -/
theorem Blank.happen (hblank : s.Blank) (happening : Happening) :
    (s.happen happening).Blank ∨ ∃ nodes, (s.happen happening).Tidy nodes := by
  cases happening with
  | start seeded options =>
      rcases hblank.step (.start seeded options) with
        ⟨hblank', -⟩ | ⟨nodes, hsound, hroot, heffects⟩
      · exact .inl hblank'
      · have hdeeds : ∀ deed ∈ s.deeds (.start seeded options), Unbroken deed.path := by
          rw [deeds_start]
          split
          · exact Seed.unbroken_deeds s.now
          · simp
        have hnodes := heffects.unbroken .bare .bare Text.unbroken_root hdeeds
        exact .inr ⟨nodes, hsound, hnodes, fun hclient => hroot _ hclient ▸ Text.unbroken_root⟩
  | line number shell text =>
      have hnobody : s.clients[number]? = none := by simp [hblank.nobody]
      rw [Shared.happen, hnobody]
      exact .inl hblank
  | refuse on => exact .inl ⟨hblank.holds.refusing on, hblank.nobody⟩
  | change medium | tick now => exact .inl ⟨hblank.holds, hblank.nobody⟩

/-- Empty or tidy stores stay so, whatever happens. -/
theorem blank_or_tidy_foldl (hs : s.Blank ∨ ∃ nodes, s.Tidy nodes) (happenings : List Happening) :
    (List.foldl happen s happenings).Blank ∨
      ∃ nodes, (List.foldl happen s happenings).Tidy nodes := by
  induction happenings generalizing s with
  | nil => exact hs
  | cons happening happenings ih =>
      rcases hs with hblank | ⟨nodes, htidy⟩
      · exact ih (hblank.happen happening)
      · exact ih (.inr (htidy.happen happening))

/-- What came about by typing is empty or tidy. -/
theorem Typed.blank_or_tidy (htyped : s.Typed) : s.Blank ∨ ∃ nodes, s.Tidy nodes := by
  obtain ⟨backend, now, happenings, rfl⟩ := htyped
  exact blank_or_tidy_foldl (.inl (blank_fresh backend now)) happenings

/-- Where a session has been started, what came about by typing is tidy. -/
theorem Typed.tidy (htyped : s.Typed) (hstarted : s.clients ≠ []) : ∃ nodes, s.Tidy nodes := by
  rcases htyped.blank_or_tidy with hblank | htidy
  · exact absurd hblank.nobody hstarted
  · exact htidy

end Shared
end VirtualShell
