import VirtualShell.Proofs.Run.Sound
import VirtualShell.Proofs.Store.Usage

/-!
# What a quota allows

Before a node is put, the bytes in use and the stored text of the node are held against the quota.
What else a new node takes is left out: its path, and its name in the directory above.  So a store
in memory can come to use more than the quota, by so many bytes and no more.
-/

namespace VirtualShell

/-! ### Stores stay of their kind -/

/-- The kind of a store. -/
def Store.backend : Store → Backend
  | .memory _ => .memory
  | .durable _ => .durable

namespace Store

theorem backend_apply (s : Store) (change : Change) : (s.apply change).backend = s.backend := by
  cases s <;> rfl

theorem backend_foldl_apply (s : Store) (changes : List Change) :
    (changes.foldl apply s).backend = s.backend := by
  induction changes generalizing s with
  | nil => rfl
  | cons change changes ih => rw [List.foldl_cons, ih, backend_apply]

/-- A store in memory uses the bytes of its nodes. -/
theorem Holds.usage {s : Store} {nodes : Contents} (hs : s.Holds nodes)
    (hmemory : s.backend = .memory) : s.usage = nodes.usage := by
  cases s with
  | memory s =>
      obtain rfl : s.nodes = nodes := hs
      rfl
  | durable s => cases hmemory

end Store

theorem Action.backend_play {α : Type} (action : Action α) (s : Scene) :
    (action.play s).2.store.backend = s.store.backend := by
  obtain ⟨changes, hchanges⟩ := Routine.exists_changes (ExceptT.run action) s
  rw [Action.play, hchanges, Store.backend_foldl_apply]

/-! ### What the check has found -/

/-- Whether an operation can bring something into the store. -/
def Operation.creates : Operation → Bool
  | .createFile _ _ | .touch _ | .createDirectory _ => true
  | _ => false

namespace Session

variable {options : SessionOptions} {s s' : Scene} {nodes : Contents}

/-- A node that was put has passed the check. -/
theorem le_quota_of_insert {path : String} {node : Node}
    (hplay : (insert options path node).play s = (.ok true, s')) :
    s.medium.used.getD s.store.usage + node.encode.utf8ByteSize ≤ options.quotaBytes := by
  rw [insert] at hplay
  split at hplay
  · cases hplay
  · obtain ⟨found, -, hplay⟩ := exists_of_get_bind hplay
    split at hplay
    · obtain ⟨_, middle, hquota, -⟩ := Action.play_bind_eq_ok hplay
      rw [checkQuota, Action.play_bind, Action.play_usage] at hquota
      dsimp only at hquota
      split at hquota
      · cases hquota
      · omega
    · cases hplay

/-- What an operation has put that said yes. -/
structure Puts (options : SessionOptions) (s s' : Scene) (nodes : Contents) (node : Node)
    (parent : String) : Prop where
  plantable : Contents.Plantable nodes node parent
  holds : s'.store.Holds (nodes.plant node)
  allowed : s.medium.used.getD s.store.usage + node.encode.utf8ByteSize ≤ options.quotaBytes

variable (hs : s.store.Holds nodes)

include hs

theorem createFile_puts {raw content : String} (hcursor : Path.Canonical s.cursor)
    (hplay : (createFile options raw content).play s = (.ok true, s')) :
    ∃ node parent, Puts options s s' nodes node parent := by
  obtain ⟨path, found, hresolve, hget, hfree, hinsert⟩ := createFile_true hplay
  rw [← hs.find?_of_get hget] at hinsert hfree
  obtain ⟨parent, hplant, hholds, -⟩ := insert_plants hs
    (.file path content (createdAt (nodes.find? path) s.now) s.now)
    (hcursor.of_resolve hresolve) hfree rfl (by rintro _ _ _ ⟨⟩) hinsert
  exact ⟨_, parent, hplant, hholds, le_quota_of_insert hinsert⟩

theorem touch_puts {raw : String} (hcursor : Path.Canonical s.cursor)
    (hplay : (touch options raw).play s = (.ok true, s')) :
    s' = s ∨ ∃ node parent, Puts options s s' nodes node parent := by
  obtain ⟨path, -, ⟨own, name, children, -, hsame⟩ | hcreate⟩ := touch_true hplay
  · exact .inl hsame
  · exact .inr (createFile_puts hs hcursor hcreate)

theorem createDirectory_puts {raw : String} (hcursor : Path.Canonical s.cursor)
    (hplay : (createDirectory options raw).play s = (.ok true, s')) :
    s' = s ∨ ∃ node parent, Puts options s s' nodes node parent := by
  obtain ⟨path, hresolve, ⟨own, name, children, -, hsame⟩ | ⟨hget, hinsert⟩⟩ :=
    createDirectory_true hplay
  · exact .inl hsame
  · have hfree : nodes.kind? path ≠ some .directory := by
      rw [Contents.kind?, hs.find?_of_get hget]
      simp
    obtain ⟨parent, hplant, hholds, -⟩ := insert_plants hs
      (.emptyDirectory path (Path.name path)) (hcursor.of_resolve hresolve) hfree rfl
      (by rintro _ _ _ ⟨⟩; rfl) hinsert
    exact .inr ⟨_, parent, hplant, hholds, le_quota_of_insert hinsert⟩

end Session

/-- An operation that said yes has left everything as it was, or has put one node. -/
theorem Operation.puts {options : SessionOptions} {s s' : Scene} {nodes : Contents}
    {operation : Operation} (hcreates : operation.creates = true) (hs : s.store.Holds nodes)
    (hcursor : Path.Canonical s.cursor)
    (hplay : (operation.perform options).play s = (.ok (.truth true), s')) :
    s' = s ∨ ∃ node parent, Session.Puts options s s' nodes node parent := by
  have htrue {action : Action Bool}
      (hreply : (do return Reply.truth (← action) : Action Reply).play s =
        (.ok (.truth true), s')) : action.play s = (.ok true, s') := by
    obtain ⟨done, middle, haction, hdone⟩ := Action.play_bind_eq_ok hreply
    cases hdone
    exact haction
  cases operation with
  | createFile raw content => exact .inr (Session.createFile_puts hs hcursor (htrue hplay))
  | touch raw => exact Session.touch_puts hs hcursor (htrue hplay)
  | createDirectory raw => exact Session.createDirectory_puts hs hcursor (htrue hplay)
  | _ => cases hcreates

/-! ### Runs -/

/-- Whether a step leaves it to the store to say how many bytes are in use. -/
def Step.honest : Step → Bool
  | .change medium => medium.used.isNone
  | .start _ _ | .operate _ _ | .refuse _ | .tick _ => true

namespace Shared

theorem backend_step (s : Shared) (step : Step) :
    (s.step step).store.backend = s.store.backend := by
  cases step with
  | start seeded options =>
      have hplay := ((Request.start seeded).perform options).backend_play (s.scene Path.root)
      rw [step_start]
      cases hresult : ((Request.start seeded).perform options).play (s.scene Path.root) with
      | mk result s' =>
          rw [hresult] at hplay
          cases result <;> exact hplay
  | operate number operation =>
      cases hclient : s.clients[number]? with
      | none => rw [Shared.step, hclient]
      | some client =>
          rw [step_operate hclient]
          exact (operation.perform client.options).backend_play (s.scene client.cursor)
  | refuse on => rw [Shared.step]; cases s.store <;> rfl
  | change medium => rfl
  | tick now => rfl

theorem used_step (s : Shared) {step : Step} (hstep : step.honest = true)
    (hused : s.medium.used = none) : (s.step step).medium.used = none := by
  cases step with
  | start seeded options =>
      rw [step_start]
      split <;> exact hused
  | operate number operation =>
      cases hclient : s.clients[number]? with
      | none =>
          rw [Shared.step, hclient]
          exact hused
      | some client =>
          rw [step_operate hclient]
          exact hused
  | refuse on => exact hused
  | change medium => exact Option.isNone_iff_eq_none.mp hstep
  | tick now => exact hused

theorem backend_run (s : Shared) (steps : List Step) :
    (s.run steps).store.backend = s.store.backend := by
  induction steps generalizing s with
  | nil => rfl
  | cons step steps ih => exact (ih _).trans (backend_step s step)

theorem used_run {s : Shared} {steps : List Step} (hsteps : ∀ step ∈ steps, step.honest = true)
    (hused : s.medium.used = none) : (s.run steps).medium.used = none := by
  induction steps generalizing s with
  | nil => exact hused
  | cons step steps ih =>
      rw [List.forall_mem_cons] at hsteps
      exact ih hsteps.2 (used_step s hsteps.1 hused)

/-- What an operation of a session on a store in memory does to the bytes in use, if it brings
something into the store. -/
theorem Sound.usage_operate {s s' : Shared} {nodes : Contents} (hsound : s.Sound nodes)
    (hmemory : s.store.backend = .memory) (hused : s.medium.used = none) {number : Nat}
    {client : Client} {operation : Operation} (hclient : s.clients[number]? = some client)
    (hcreates : operation.creates = true)
    (hyes : s.answer? (.operate number operation) = some (.ok (.truth true)))
    (hstep : s.step (.operate number operation) = s') (hchanged : s'.store ≠ s.store) :
    ∃ node : Node, s'.store.get node.path = .ok (some node) ∧
      s.store.usage + node.encode.utf8ByteSize ≤ client.options.quotaBytes ∧
      s'.store.usage + nodes.recordSize node.path =
        s.store.usage + node.encode.utf8ByteSize + nodes.overhead node.path := by
  have hmemory' : s'.store.backend = .memory := by
    rw [← hstep, backend_step, hmemory]
  rw [answer?, hclient, Option.map_some, result_request, Option.some.injEq] at hyes
  rw [Shared.step_operate hclient] at hstep
  cases hplay : (operation.perform client.options).play (s.scene client.cursor) with
  | mk result scene =>
      have hstore : s'.store = scene.store := by rw [← hstep, hplay]
      obtain rfl : result = .ok (.truth true) := by
        rw [Request.perform, hplay] at hyes
        exact hyes
      have hcursor := hsound.canonical (List.mem_of_getElem? hclient)
      rcases Operation.puts hcreates (s := s.scene client.cursor) hsound.holds hcursor hplay with
        hsame | ⟨node, parent, hputs⟩
      · exact absurd (hstore.trans (congrArg Scene.store hsame)) hchanged
      · have hholds : s'.store.Holds (nodes.plant node) := hstore ▸ hputs.holds
        have hfind := Contents.find?_plant hsound.tree hputs.plantable node.path
        rw [if_pos rfl] at hfind
        have hown : (s.scene client.cursor).medium.used = none := hused
        have hallowed := hputs.allowed
        rw [hown, Option.getD_none] at hallowed
        refine ⟨node, ?_, hallowed, ?_⟩
        · rw [hholds.get, hfind]
        · rw [hholds.usage hmemory', hsound.holds.usage hmemory]
          exact Contents.usage_plant hsound.tree hputs.plantable

/-- After any run on a store in memory, an operation that brings something into the store and says
yes has passed the check with the bytes in use and the stored text of one node. Besides this text
the store then uses the overhead of the path, less the text that is replaced. So it may come to use
more than the quota where something new is made, but by no more than the overhead. -/
theorem usage_creates {now : Timestamp} {steps : List Step} {s s' : Shared} {number : Nat}
    {client : Client} {operation : Operation} (hsteps : ∀ step ∈ steps, step.honest = true)
    (hrun : (fresh .memory now).run steps = s) (hclient : s.clients[number]? = some client)
    (hcreates : operation.creates = true)
    (hyes : s.answer? (.operate number operation) = some (.ok (.truth true)))
    (hstep : s.step (.operate number operation) = s') (hchanged : s'.store ≠ s.store) :
    ∃ (nodes : Contents) (node : Node), s.store.Holds nodes ∧
      s'.store.get node.path = .ok (some node) ∧
      s.store.usage + node.encode.utf8ByteSize ≤ client.options.quotaBytes ∧
      s'.store.usage + nodes.recordSize node.path =
        s.store.usage + node.encode.utf8ByteSize + nodes.overhead node.path ∧
      s'.store.usage ≤ client.options.quotaBytes + nodes.overhead node.path := by
  subst hrun
  have hstarted : ((fresh .memory now).run steps).clients ≠ [] := by
    intro hnobody
    rw [hnobody] at hclient
    cases hclient
  obtain ⟨nodes, hsound⟩ := sound_run .memory now hstarted
  have hmemory : ((fresh .memory now).run steps).store.backend = .memory :=
    backend_run (fresh .memory now) steps
  have hused : ((fresh .memory now).run steps).medium.used = none :=
    used_run (s := fresh .memory now) hsteps rfl
  obtain ⟨node, hget, hquota, hexact⟩ :=
    hsound.usage_operate hmemory hused hclient hcreates hyes hstep hchanged
  exact ⟨nodes, node, hsound.holds, hget, hquota, hexact, by omega⟩

/-- A session on a bare root with a quota of a hundred and fifteen bytes, of which the root takes
fifty-seven. -/
def tightRun : List Step :=
  [.start false ⟨115, false⟩]

theorem usage_creates_tightRun :
    ∃ (nodes : Contents) (node : Node), ((fresh .memory 0).run tightRun).store.Holds nodes ∧
      (((fresh .memory 0).run tightRun).step (.operate 0 (.createDirectory "a"))).store.get
        node.path = .ok (some node) ∧
      ((fresh .memory 0).run tightRun).store.usage + node.encode.utf8ByteSize ≤ 115 ∧
      (((fresh .memory 0).run tightRun).step (.operate 0 (.createDirectory "a"))).store.usage +
          nodes.recordSize node.path =
        ((fresh .memory 0).run tightRun).store.usage + node.encode.utf8ByteSize +
          nodes.overhead node.path ∧
      (((fresh .memory 0).run tightRun).step (.operate 0 (.createDirectory "a"))).store.usage ≤
        115 + nodes.overhead node.path := by
  have hchanged : (((fresh .memory 0).run tightRun).step
      (.operate 0 (.createDirectory "a"))).store ≠ ((fresh .memory 0).run tightRun).store := by
    intro hsame
    have husage := congrArg Store.usage hsame
    revert husage
    decide +kernel
  have hclient : ((fresh .memory 0).run tightRun).clients[0]? =
      some ⟨Path.root, ⟨115, false⟩⟩ := by decide +kernel
  exact usage_creates (by decide) rfl hclient rfl (by decide +kernel) rfl hchanged

/-- The directory is made, and then the store uses more than the quota. -/
theorem quota_exceeded_tightRun :
    ((fresh .memory 0).run tightRun).answer? (.operate 0 (.createDirectory "a")) =
        some (.ok (.truth true)) ∧
      ((fresh .memory 0).run tightRun).store.usage = 57 ∧
      115 < (((fresh .memory 0).run tightRun).step
        (.operate 0 (.createDirectory "a"))).store.usage := by
  decide +kernel

end Shared
end VirtualShell
