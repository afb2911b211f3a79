import VirtualShell.Proofs.Path.Composition
import VirtualShell.Proofs.Run.FirstStart
import VirtualShell.Proofs.Run.Quota
import VirtualShell.Proofs.Session.Verdict

/-!
# Operations apart from each other commute

Two operations of a session that change something, at paths of which neither lies within the other,
can be done in either order.  What the one looks at is not what the other changes, so that each
answers and does the same first or second; and their edits commute.  Only if both bring something
into being in one directory do the last two names there come in the other order.
-/

namespace VirtualShell

open Contents (Fits)

/-! ### Stores that differ in nothing, or in an order of names -/

/-- The contents differ in the order of the last two names that a directory lists. -/
def Contents.Swapped (nodes nodes' : Contents) (directory name name' : String) : Prop :=
  ∃ names, nodes.find? directory =
      some (.directory directory (Path.name directory) (names ++ [name, name'])) ∧
    nodes' = MemoryStore.applyChange nodes
      (.put (.directory directory (Path.name directory) (names ++ [name', name])))

/-- The stores differ in the order of the last two names that a directory lists. -/
def Store.Swapped (s t : Store) (directory name name' : String) : Prop :=
  ∃ names, s.get directory =
      .ok (some (.directory directory (Path.name directory) (names ++ [name, name']))) ∧
    t = s.apply (.put (.directory directory (Path.name directory) (names ++ [name', name])))

/-- A store is known by its kind, by whether it refuses writes, and by the nodes it keeps. -/
theorem Store.Holds.eq {s t : Store} {nodes : Contents} (hs : s.Holds nodes) (ht : t.Holds nodes)
    (hbackend : s.backend = t.backend) (hrefuses : s.refuses = t.refuses) : s = t := by
  cases s with
  | memory s =>
      cases t with
      | memory t =>
          obtain ⟨snodes, srefuses⟩ := s
          obtain ⟨tnodes, trefuses⟩ := t
          obtain rfl : snodes = nodes := hs
          obtain rfl : tnodes = snodes := ht
          obtain rfl : srefuses = trefuses := hrefuses
          rfl
      | durable t => cases hbackend
  | durable s =>
      cases t with
      | memory t => cases hbackend
      | durable t =>
          obtain rfl : s = DurableStore.ofNodes nodes := hs
          obtain rfl : t = DurableStore.ofNodes nodes := ht
          rfl

theorem Store.Holds.swapped {s t : Store} {nodes nodes' : Contents} (hs : s.Holds nodes)
    (ht : t.Holds nodes') (hbackend : s.backend = t.backend) (hrefuses : s.refuses = t.refuses)
    {directory name name' : String} (hswapped : nodes.Swapped nodes' directory name name') :
    s.Swapped t directory name name' := by
  obtain ⟨names, hfind, rfl⟩ := hswapped
  refine ⟨names, by rw [hs.get, hfind], ht.eq (hs.apply _) ?_ ?_⟩
  · rw [Store.backend_apply, hbackend]
  · rw [Store.refuses_apply, hrefuses]

/-! ### Two operations on one tree -/

namespace Operation

section

variable {operation : Operation} {now : Timestamp} {nodes nodes' : Contents} {path path' : String}

theorem edit?_congr (hfind : nodes'.find? path = nodes.find? path)
    (hhouses : nodes'.houses path = nodes.houses path) :
    operation.edit? now nodes' path = operation.edit? now nodes path := by
  rw [edit?, edit?, hfind, hhouses]

theorem answer_congr (hfind : nodes'.find? path = nodes.find? path)
    (hhouses : nodes'.houses path = nodes.houses path) :
    operation.answer nodes' path = operation.answer nodes path := by
  rw [answer, answer, hfind, hhouses]

/-- An edit leaves alone whether there is a directory above a path apart from it. -/
theorem houses_edit {parent : String} {e : Edit} (htree : nodes.Tree)
    (hfits : Fits nodes path parent e) (hpath' : Path.Canonical path')
    (hapart' : ¬ Path.isWithin path' path = true) :
    (nodes.edit path e).houses path' = nodes.houses path' := by
  rw [Contents.houses, Contents.houses]
  cases hparent' : Path.parent? path' with
  | none => rfl
  | some parent' =>
      have houtside : ¬ Path.isWithin parent' path = true := fun hwithin =>
        hapart' (hpath'.isWithin_of_parent? hparent' hwithin)
      rw [Option.bind_some, Option.bind_some, Contents.kind?_edit htree hfits houtside]

end

/-- Two paths in a tree of which neither lies within the other. -/
structure Apart (nodes : Contents) (path path' : String) : Prop where
  tree : nodes.Tree
  canonical : Path.Canonical path
  canonical' : Path.Canonical path'
  apart : ¬ Path.isWithin path path' = true
  apart' : ¬ Path.isWithin path' path = true

section

variable {nodes : Contents} {path path' : String}

theorem Apart.symm (hapart : Apart nodes path path') : Apart nodes path' path :=
  ⟨hapart.tree, hapart.canonical', hapart.canonical, hapart.apart', hapart.apart⟩

/-- What is done at one path is not seen from the other. -/
theorem Apart.unseen (hapart : Apart nodes path path') (operation : Operation) (time : Timestamp) :
    (nodes.amend path (operation.edit? time nodes path)).find? path' = nodes.find? path' ∧
      (nodes.amend path (operation.edit? time nodes path)).houses path' =
        nodes.houses path' := by
  cases hedit : operation.edit? time nodes path with
  | none => exact ⟨rfl, rfl⟩
  | some e =>
      obtain ⟨parent, -, hfits⟩ := exists_fits hapart.canonical hedit
      exact ⟨hfits.find?_apart hapart.tree hapart.apart hapart.apart',
        houses_edit hapart.tree hfits hapart.canonical' hapart.apart'⟩

/-- The second operation does the same as if it were the first. -/
theorem Apart.edit?_amend (hapart : Apart nodes path path') (first second : Operation)
    (time time' : Timestamp) :
    second.edit? time' (nodes.amend path (first.edit? time nodes path)) path' =
      second.edit? time' nodes path' :=
  edit?_congr (hapart.unseen first time).1 (hapart.unseen first time).2

theorem Apart.tree_amend (hapart : Apart nodes path path') (operation : Operation)
    (time : Timestamp) : (nodes.amend path (operation.edit? time nodes path)).Tree := by
  cases hedit : operation.edit? time nodes path with
  | none => exact hapart.tree
  | some e =>
      obtain ⟨parent, -, hfits⟩ := exists_fits hapart.canonical hedit
      exact hapart.tree.edit hfits

/-- The edit that an operation makes fits, whether it is the first or the second. -/
theorem Apart.exists_fits (hapart : Apart nodes path path') {first second : Operation}
    {time time' : Timestamp} {e e' : Edit} (hedit : first.edit? time nodes path = some e)
    (hedit' : second.edit? time' nodes path' = some e') :
    ∃ parent', Path.parent? path' = some parent' ∧ Fits nodes path' parent' e' ∧
      Fits (nodes.edit path e) path' parent' e' := by
  obtain ⟨parent', hparent', hfits'⟩ := Operation.exists_fits hapart.canonical' hedit'
  have hsecond := hapart.edit?_amend first second time time'
  rw [hedit, hedit'] at hsecond
  obtain ⟨parent'', hparent'', hafter⟩ := Operation.exists_fits hapart.canonical' hsecond
  obtain rfl : parent' = parent'' := Option.some.inj (hparent'.symm.trans hparent'')
  exact ⟨parent', hparent', hfits', hafter⟩

theorem Apart.carry_comm (hapart : Apart nodes path path') (first second : Operation)
    (time time' : Timestamp) (cursor : String) :
    Edit.carry path' (Edit.carry path cursor (first.edit? time nodes path))
        (second.edit? time' nodes path') =
      Edit.carry path (Edit.carry path' cursor (second.edit? time' nodes path'))
        (first.edit? time nodes path) := by
  cases hedit : first.edit? time nodes path with
  | none => rfl
  | some e =>
      cases hedit' : second.edit? time' nodes path' with
      | none => rfl
      | some e' =>
          obtain ⟨parent, hparent, hfits⟩ := Operation.exists_fits hapart.canonical hedit
          obtain ⟨parent', hparent', hfits'⟩ := Operation.exists_fits hapart.canonical' hedit'
          simp only [Edit.carry, hparent, hparent', Option.getD_some]
          exact hfits.move_comm hapart.tree hapart.apart hapart.apart' hfits' cursor

/-- The operation brings something into being under a path. -/
def Brings (operation : Operation) (time : Timestamp) (nodes : Contents) (path : String) : Prop :=
  nodes.find? path = none ∧ ∃ node, operation.edit? time nodes path = some (.put node)

/-- The same is left in either order, but for the order of two new names in one directory. -/
theorem Apart.amend_comm (hapart : Apart nodes path path') (first second : Operation)
    (time time' : Timestamp) :
    (nodes.amend path (first.edit? time nodes path)).amend path'
          (second.edit? time' nodes path') =
        (nodes.amend path' (second.edit? time' nodes path')).amend path
          (first.edit? time nodes path) ∨
      ∃ parent, Path.parent? path = some parent ∧ Path.parent? path' = some parent ∧
        first.Brings time nodes path ∧ second.Brings time' nodes path' ∧
        Contents.Swapped
          ((nodes.amend path (first.edit? time nodes path)).amend path'
            (second.edit? time' nodes path'))
          ((nodes.amend path' (second.edit? time' nodes path')).amend path
            (first.edit? time nodes path)) parent (Path.name path) (Path.name path') := by
  cases hedit : first.edit? time nodes path with
  | none => exact .inl rfl
  | some e =>
      cases hedit' : second.edit? time' nodes path' with
      | none => exact .inl rfl
      | some e' =>
          obtain ⟨parent', hparent', hfits', hafter⟩ := hapart.exists_fits hedit hedit'
          obtain ⟨parent, hparent, hfits, hafter'⟩ := hapart.symm.exists_fits hedit' hedit
          by_cases hnew : parent = parent' ∧ (∃ node, e = .put node) ∧ (∃ node, e' = .put node) ∧
              nodes.find? path = none ∧ nodes.find? path' = none
          · obtain ⟨rfl, ⟨node, he⟩, ⟨node', he'⟩, hfind, hfind'⟩ := hnew
            refine .inr ⟨parent, hparent, hparent', ⟨hfind, node, ?_⟩, ⟨hfind', node', ?_⟩,
              nodes.names parent, ?_⟩
            · rw [hedit, he]
            · rw [hedit', he']
            · exact hfits.edit_swap hapart.tree hapart.apart hapart.apart' he he' hfits' hafter
                hafter' hfind hfind'
          · refine .inl (hfits.edit_comm hapart.tree hapart.apart hapart.apart' hfits' hafter
              hafter' fun hsame node node' he he' => ?_)
            by_contra hnone
            rw [not_or, Bool.not_eq_true, Bool.not_eq_true, Option.isSome_eq_false_iff,
              Option.isSome_eq_false_iff, Option.isNone_iff_eq_none,
              Option.isNone_iff_eq_none] at hnone
            exact hnew ⟨hsame, ⟨node, he⟩, ⟨node', he'⟩, hnone.1, hnone.2⟩

end

/-- What an operation brings into being, a deed tells. -/
theorem Brings.exists_deed {operation : Operation} {s : Scene} {nodes : Contents} {path : String}
    {time : Timestamp} (hbrings : operation.Brings time nodes path)
    (hs : s.store.Holds nodes) {raw : String} (htarget : operation.target? = some raw)
    (hresolve : Path.resolve raw s.cursor = .ok path) :
    ∃ deed ∈ operation.deeds s (.ok (.truth (operation.answer nodes path))), deed.Births path := by
  obtain ⟨hfind, node, hedit⟩ := hbrings
  have hwanted : (operation.wants (nodes.find? path) && nodes.houses path) = true := by
    by_contra hrefused
    rw [edit?, if_neg hrefused] at hedit
    cases hedit
  rw [edit?, if_pos hwanted, Option.some.injEq] at hedit
  have hlacks : s.store.lacks path = true := by
    rw [hs.lacks, hfind]
    rfl
  rw [answer, hwanted, Bool.true_or]
  cases operation with
  | createFile raw' content | touch raw' | createDirectory raw' =>
      obtain rfl := Option.some.inj htarget
      rw [deeds, Scene.deedAt_of_resolve hresolve]
      exact ⟨_, List.mem_singleton_self _, rfl, hlacks⟩
  | delete raw' => cases hedit
  | _ => cases htarget

end Operation

/-! ### Two operations of a session -/

/-- An operation of a session at a time. -/
def Step.turn (number : Nat) (time : Timestamp) (operation : Operation) : List Step :=
  [.tick time, .operate number operation]

namespace Shared

open Step (turn)

section

variable {s : Shared} {nodes : Contents} {number : Nat} {client : Client} {operation : Operation}
  {path raw : String} {time : Timestamp}

/-- What an operation of a session comes to at a path. -/
structure Operated (s : Shared) (nodes : Contents) (number : Nat) (client : Client)
    (operation : Operation) (path : String) : Prop where
  answer : s.answer? (.operate number operation) =
    some (.ok (.truth (operation.answer nodes path)))
  holds : (s.step (.operate number operation)).store.Holds
    (nodes.amend path (operation.edit? s.now nodes path))
  clients : (s.step (.operate number operation)).clients = s.clients.set number { client with
    cursor := Edit.carry path client.cursor (operation.edit? s.now nodes path) }
  medium : (s.step (.operate number operation)).medium = s.medium
  backend : (s.step (.operate number operation)).store.backend = s.store.backend
  refuses : (s.step (.operate number operation)).store.refuses = s.store.refuses
  born : operation.Brings s.now nodes path →
    ∃ deed ∈ s.deeds (.operate number operation), deed.Births path

theorem operated (hholds : s.store.Holds nodes) (htree : nodes.Tree) (hrefusal : s.refusal = none)
    (hclient : s.clients[number]? = some client) (htarget : operation.target? = some raw)
    (hresolve : Path.resolve raw client.cursor = .ok path) (hpath : Path.Canonical path)
    (hquota : ∀ answer ∈ s.answer? (.operate number operation), ¬ Bitten answer) :
    s.Operated nodes number client operation path := by
  have hanswer : s.answer? (.operate number operation) =
      some ((operation.perform client.options).play (s.scene client.cursor)).1 := by
    rw [answer?, hclient, Option.map_some, result_request]
    rfl
  have hwilling : (s.scene client.cursor).refusal = none := hrefusal
  have hverdict : Bitten ((operation.perform client.options).play (s.scene client.cursor)).1 ∨
      operation.Obeys client.options (s.scene client.cursor) nodes path :=
    operation.obeys client.options hholds htree hwilling htarget hresolve hpath
  have hobeys := hverdict.resolve_left (hquota _ hanswer)
  have hstep := step_operate hclient operation
  obtain ⟨changes, hchanges⟩ := Routine.exists_changes
    (ExceptT.run (operation.perform client.options)) (s.scene client.cursor)
  constructor
  · rw [hanswer, hobeys.answer]
  · rw [hstep]
    exact hobeys.holds
  · rw [hstep, hobeys.cursor]
    rfl
  · rw [hstep]
  · rw [hstep]
    exact (congrArg Store.backend hchanges).trans (Store.backend_foldl_apply s.store changes)
  · rw [hstep]
    exact (congrArg Store.refuses hchanges).trans (Store.refuses_foldl_apply s.store changes)
  · intro hbrings
    rw [deeds_operate hclient, hobeys.answer]
    exact hbrings.exists_deed hholds htarget hresolve

end

theorem refusal_congr {s s' : Shared} (hmedium : s'.medium = s.medium)
    (hrefuses : s'.store.refuses = s.store.refuses) : s'.refusal = s.refusal := by
  show Scene.refusal _ = Scene.refusal _
  rw [Scene.refusal, Scene.refusal]
  simp only [scene, World.scene, world, hmedium, hrefuses]
  rfl

theorem answers_turn (s : Shared) (number : Nat) (time : Timestamp) (operation : Operation) :
    s.answers (turn number time operation) =
      ((s.step (.tick time)).answer? (.operate number operation)).toList := by
  simp [turn, answers, answer?]

theorem history_turn (s : Shared) (number : Nat) (time : Timestamp) (operation : Operation) :
    s.history (turn number time operation) =
      (s.step (.tick time)).deeds (.operate number operation) := by
  simp [turn, history, deeds]

/-! ### Two operations of a session -/

/-- What two operations come to, one after the other, if each does what it would do first. -/
structure InTurn (s : Shared) (nodes : Contents) (number : Nat) (client : Client)
    (time time' : Timestamp) (first second : Operation) (path path' : String) : Prop where
  answers : s.answers (turn number time first ++ turn number time' second) =
    [.ok (.truth (first.answer nodes path)), .ok (.truth (second.answer nodes path'))]
  holds : (s.run (turn number time first ++ turn number time' second)).store.Holds
    ((nodes.amend path (first.edit? time nodes path)).amend path'
      (second.edit? time' nodes path'))
  clients : (s.run (turn number time first ++ turn number time' second)).clients =
    s.clients.set number { client with
      cursor := Edit.carry path' (Edit.carry path client.cursor (first.edit? time nodes path))
        (second.edit? time' nodes path') }
  backend : (s.run (turn number time first ++ turn number time' second)).store.backend =
    s.store.backend
  refuses : (s.run (turn number time first ++ turn number time' second)).store.refuses =
    s.store.refuses
  born : first.Brings time nodes path →
    ∃ deed ∈ s.history (turn number time first), deed.Births path

section

variable {s : Shared} {nodes : Contents} {number : Nat} {client : Client}
  {first second : Operation} {path path' raw raw' : String}

theorem inTurn (hholds : s.store.Holds nodes) (hapart : Operation.Apart nodes path path')
    (hrefusal : s.refusal = none) (hclient : s.clients[number]? = some client)
    (hfirst : first.target? = some raw) (hsecond : second.target? = some raw')
    (habsolute' : Path.IsAbsolute raw') (hresolve : Path.resolve raw client.cursor = .ok path)
    (hresolve' : Path.resolve raw' client.cursor = .ok path') {time time' : Timestamp}
    (hquota : ∀ answer ∈ s.answers (turn number time first ++ turn number time' second),
      ¬ Bitten answer) :
    s.InTurn nodes number client time time' first second path path' := by
  obtain ⟨hlength, -⟩ := List.getElem?_eq_some_iff.mp hclient
  rw [answers_append, answers_turn, answers_turn, List.forall_mem_append] at hquota
  simp only [Option.mem_toList] at hquota
  have hone : (s.step (.tick time)).Operated nodes number client first path :=
    operated hholds hapart.tree hrefusal hclient hfirst hresolve hapart.canonical hquota.1
  obtain ⟨s', hs'⟩ : ∃ s', s.run (turn number time first) = s' := ⟨_, rfl⟩
  have hstep : (s.step (.tick time)).step (.operate number first) = s' := hs'
  rw [hs'] at hquota
  -- the second operation finds what it would find first, from wherever the cursor has gone
  obtain ⟨hfind, hhouses⟩ := hapart.unseen first time
  have hsecondAnswer := second.answer_congr hfind hhouses
  have hsecondEdit : second.edit? time' _ path' = second.edit? time' nodes path' :=
    second.edit?_congr hfind hhouses
  have htwo : (s'.step (.tick time')).Operated (nodes.amend path (first.edit? time nodes path))
      number { client with cursor := Edit.carry path client.cursor (first.edit? time nodes path) }
      second path' := by
    refine operated (hstep ▸ hone.holds) (hapart.tree_amend first time) ?_ ?_ hsecond ?_
      hapart.canonical' hquota.2
    · rw [← hrefusal]
      exact refusal_congr (hstep ▸ hone.medium) (hstep ▸ hone.refuses)
    · rw [show (s'.step (.tick time')).clients = s'.clients from rfl, ← hstep, hone.clients]
      exact List.getElem?_set_self hlength
    · rw [habsolute'.resolve_eq _ client.cursor, hresolve']
  have hrun : s.run (turn number time first ++ turn number time' second) =
      (s'.step (.tick time')).step (.operate number second) := by
    rw [← hs']
    exact List.foldl_append
  constructor
  · rw [answers_append, answers_turn, hone.answer, hs', answers_turn, htwo.answer, hsecondAnswer]
    rfl
  · rw [hrun, ← hsecondEdit]
    exact htwo.holds
  · have hclients : (s'.step (.tick time')).clients = s'.clients := rfl
    rw [hrun, ← hsecondEdit, htwo.clients, hclients, ← hstep, hone.clients, List.set_set]
    rfl
  · rw [hrun, htwo.backend]
    exact hstep ▸ hone.backend
  · rw [hrun, htwo.refuses]
    exact hstep ▸ hone.refuses
  · rw [history_turn]
    exact hone.born

end

/-! ### Both orders -/

/-- A state that some run comes to. -/
def Reachable (s : Shared) : Prop :=
  ∃ backend now steps, s = (fresh backend now).run steps

/-- Two operations of a session at two paths come to the same in either order: they are answered
alike, and leave the same cursors and the same store, but for the order of two names that come into
being in one directory. -/
structure Commute (s : Shared) (one other : List Step) (path path' : String) : Prop where
  answers : ∃ answer answer', s.answers (one ++ other) = [answer, answer'] ∧
    s.answers (other ++ one) = [answer', answer]
  clients : (s.run (one ++ other)).clients = (s.run (other ++ one)).clients
  store : (s.run (one ++ other)).store = (s.run (other ++ one)).store ∨
    ∃ parent, Path.parent? path = some parent ∧ Path.parent? path' = some parent ∧
      (∃ deed ∈ s.history one, deed.Births path) ∧
      (∃ deed ∈ s.history other, deed.Births path') ∧
      (s.run (one ++ other)).store.Swapped (s.run (other ++ one)).store parent (Path.name path)
        (Path.name path')

/-- In every state that a run comes to, two operations that change something at paths of which
neither lies within the other come to the same in either order, while commits work and the quota
stops neither. -/
theorem orders_agree {s : Shared} (hs : s.Reachable) (hworking : s.refusal = none) {number : Nat}
    {client : Client} (hclient : s.clients[number]? = some client) {first second : Operation}
    {raw raw' path path' : String} (hfirst : first.target? = some raw)
    (hsecond : second.target? = some raw') (habsolute : Path.IsAbsolute raw)
    (habsolute' : Path.IsAbsolute raw') (hresolve : Path.resolve raw client.cursor = .ok path)
    (hresolve' : Path.resolve raw' client.cursor = .ok path')
    (hapart : ¬ Path.isWithin path path' = true) (hapart' : ¬ Path.isWithin path' path = true)
    {time time' : Timestamp}
    (hquota : ∀ answer ∈ s.answers (turn number time first ++ turn number time' second) ++
      s.answers (turn number time' second ++ turn number time first), ¬ Bitten answer) :
    s.Commute (turn number time first) (turn number time' second) path path' := by
  obtain ⟨backend, now, steps, rfl⟩ := hs
  have hmem := List.mem_of_getElem? hclient
  obtain ⟨nodes, hsound⟩ := sound_run backend now (List.ne_nil_of_mem hmem)
  generalize (fresh backend now).run steps = s at *
  have hcursor := hsound.canonical hmem
  have hpaths : Operation.Apart nodes path path' :=
    ⟨hsound.tree, hcursor.of_resolve hresolve, hcursor.of_resolve hresolve', hapart, hapart'⟩
  rw [List.forall_mem_append] at hquota
  have hone := inTurn hsound.holds hpaths hworking hclient hfirst hsecond habsolute' hresolve
    hresolve' hquota.1
  have hother := inTurn hsound.holds hpaths.symm hworking hclient hsecond hfirst habsolute hresolve'
    hresolve hquota.2
  have hbackend := hone.backend.trans hother.backend.symm
  have hrefuses := hone.refuses.trans hother.refuses.symm
  refine ⟨⟨_, _, hone.answers, hother.answers⟩, ?_, ?_⟩
  · rw [hone.clients, hother.clients, hpaths.carry_comm]
  · rcases hpaths.amend_comm first second time time' with
      hsame | ⟨parent, hparent, hparent', hbrings, hbrings', hswapped⟩
    · exact .inl (hone.holds.eq (hsame ▸ hother.holds) hbackend hrefuses)
    · exact .inr ⟨parent, hparent, hparent', hone.born hbrings, hother.born hbrings',
        hone.holds.swapped hother.holds hbackend hrefuses hswapped⟩

/-- A session stands in the directory that it is to remove. -/
def standingRun : List Step :=
  [.start false ⟨defaultQuotaBytes, false⟩, .operate 0 (.createDirectory "a"),
    .operate 0 (.createDirectory "a/b"), .operate 0 (.changeDirectory "a/b")]

theorem orders_agree_standingRun :
    ((fresh .memory 0).run standingRun).clients[0]? =
        some ⟨"~/a/b", ⟨defaultQuotaBytes, false⟩⟩ ∧
      ((fresh .memory 0).run standingRun).Commute
        (turn 0 1 (.delete "~/a/./b")) (turn 0 2 (.createFile "/a/c" "text"))
        "~/a/b" "~/a/c" := by
  have hclient : ((fresh .memory 0).run standingRun).clients[0]? =
      some ⟨"~/a/b", ⟨defaultQuotaBytes, false⟩⟩ := by decide +kernel
  exact ⟨hclient, orders_agree ⟨.memory, 0, standingRun, rfl⟩ (by decide +kernel) hclient rfl rfl
    (.inr (.inr (by decide))) (.inr (.inl (by decide))) (by decide +kernel) (by decide +kernel)
    (by decide +kernel) (by decide +kernel) (by decide +kernel)⟩

end Shared
end VirtualShell
