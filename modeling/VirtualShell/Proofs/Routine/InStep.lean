import VirtualShell.Proofs.Routine.Medium
import VirtualShell.Proofs.Routine.Output
import VirtualShell.Proofs.Store.Contents

/-!
# Two routines in step

Two routines go in step if they make the same calls as long as they are given the same answers, and
end with the same value; only what they put out may differ.  An accord says how, and of which
characters the texts are that they exchange with the store.  Run from worlds that differ in what was
put out only, such routines leave worlds that differ in what was put out only, and as the accord
says.
-/

namespace VirtualShell

/-- Which characters stand in texts, and which outputs go together.  Only the character that starts
the codes of a terminal may be left out, and an event goes with itself. -/
structure Accord where
  allowed : Char → Prop
  pairs : Output → Output → Prop
  allowed_of_ne (c : Char) (hc : c ≠ '\x1b') : allowed c
  pairs_event (e : Log.Event) : pairs (.event e) (.event e)

namespace Accord

variable (A : Accord)

/-- The text has allowed characters only. -/
def Allows (s : String) : Prop :=
  ∀ c ∈ s.toList, A.allowed c

/-- All texts in a node are allowed. -/
def AllowsNode : Node → Prop
  | .directory path name children =>
    A.Allows path ∧ A.Allows name ∧ ∀ child ∈ children, A.Allows child
  | .file path content _ _ => A.Allows path ∧ A.Allows content

/-- What routines in step may ask for. What they put out is left to them. -/
def Asks : Call → Prop
  | .commit changes => ∀ change ∈ changes, ∀ node ∈ change.result, A.AllowsNode node
  | .moveCursor path => A.Allows path
  | .emit _ => False
  | .get _ | .usage | .flush | .clock | .cursor => True

/-- What routines in step are answered. -/
def Answers : (c : Call) → c.Answer → Prop
  | .get _, .ok (some node) => A.AllowsNode node
  | .get _, .error e => A.Allows e.message
  | .commit _, .error e => A.Allows e.message
  | .cursor, path => A.Allows path
  | _, _ => True

/-- The texts in the store and the cursor are allowed, and so is what the store complains of. -/
structure Trusts (w : World) : Prop where
  get (path : String) : A.Answers (.get path) (w.store.get path)
  cursor : A.Allows w.cursor

/-- What a medium complains of is allowed. -/
def TrustsMedium (medium : Medium) : Prop :=
  ∀ e, medium.failure = some e → A.Allows e.message

/-- The worlds differ in what was put out only, and there as agreed. -/
structure Joins (w w' : World) : Prop where
  silent : w.silent = w'.silent
  output : List.Forall₂ A.pairs w.output w'.output

section

variable {A}

/-- A text without the character that starts codes is allowed. -/
theorem allows_of_notMem {s : String} (hs : '\x1b' ∉ s.toList) : A.Allows s :=
  fun c hc => A.allowed_of_ne c fun heq => hs (heq ▸ hc)

theorem allows_append {s t : String} (hs : A.Allows s) (ht : A.Allows t) : A.Allows (s ++ t) := by
  intro c hc
  rw [String.toList_append, List.mem_append] at hc
  exact hc.elim (hs c) (ht c)

theorem answers_get_apply {store : Store} {change : Change}
    (hstore : ∀ path, A.Answers (.get path) (store.get path))
    (hchange : ∀ node ∈ change.result, A.AllowsNode node) (path : String) :
    A.Answers (.get path) ((store.apply change).get path) := by
  rw [Store.get_apply]
  split
  · cases hresult : change.result with
    | none => trivial
    | some node => exact hchange node hresult
  · exact hstore path

theorem answers_get_foldl_apply {store : Store} {changes : List Change}
    (hstore : ∀ path, A.Answers (.get path) (store.get path))
    (hchanges : ∀ change ∈ changes, ∀ node ∈ change.result, A.AllowsNode node) (path : String) :
    A.Answers (.get path) ((changes.foldl Store.apply store).get path) := by
  induction changes generalizing store with
  | nil => exact hstore path
  | cons change changes ih =>
      rw [List.forall_mem_cons] at hchanges
      exact ih (answers_get_apply hstore hchanges.1) hchanges.2

/-- What is asked for as agreed is answered as agreed, and goes on being so. -/
theorem Trusts.answer {w : World} (hw : A.Trusts w) {c : Call} (hc : A.Asks c) :
    A.Answers c (w.answer c).1 ∧ A.Trusts (w.answer c).2 := by
  cases c with
  | get path => exact ⟨hw.get path, hw⟩
  | commit changes =>
      rw [World.answer, World.commit, Store.commit_eq]
      by_cases hrefuses : w.store.refuses
      · rw [if_pos hrefuses]
        exact ⟨allows_of_notMem (by decide), hw⟩
      · rw [if_neg hrefuses]
        have hget := answers_get_foldl_apply hw.get hc
        generalize changes.foldl Store.apply w.store = store at hget ⊢
        cases store <;> exact ⟨trivial, hget, hw.cursor⟩
  | moveCursor path => exact ⟨trivial, hw.get, hc⟩
  | cursor => exact ⟨hw.cursor, hw⟩
  | emit output => cases hc
  | usage | flush | clock => exact ⟨trivial, hw⟩

/-- Where all characters are allowed, everything is trusted. -/
theorem trusts_of_forall (hall : ∀ c, A.allowed c) (w : World) : A.Trusts w where
  get path := by
    rcases w.store.get path with e | _ | ⟨own, name, children⟩ | ⟨own, content, created, modified⟩
    · exact fun c _ => hall c
    · trivial
    · exact ⟨fun c _ => hall c, fun c _ => hall c, fun _ _ c _ => hall c⟩
    · exact ⟨fun c _ => hall c, fun c _ => hall c⟩
  cursor c _ := hall c

theorem Trusts.emit {w : World} (hw : A.Trusts w) (output : Output) : A.Trusts (w.emit output) :=
  ⟨hw.get, hw.cursor⟩

theorem Joins.emit {w w' : World} (hjoins : A.Joins w w') {output output' : Output}
    (hpair : A.pairs output output') : A.Joins (w.emit output) (w'.emit output') :=
  ⟨hjoins.silent, List.rel_append hjoins.output (.cons hpair .nil)⟩

/-- Joined worlds answer alike, and stay joined. -/
theorem Joins.answer {w w' : World} (hjoins : A.Joins w w') {c : Call} (hc : A.Asks c) :
    (w.answer c).1 = (w'.answer c).1 ∧ A.Joins (w.answer c).2 (w'.answer c).2 := by
  obtain ⟨hstore, hcursor, hnow⟩ := World.silent_eq_iff.mp hjoins.silent
  cases c with
  | get path => exact ⟨congrArg (Store.get · path) hstore, hjoins⟩
  | commit changes =>
      rw [World.answer, World.answer, World.commit, World.commit, ← hstore]
      cases w.store.commit changes with
      | error e => exact ⟨rfl, hjoins⟩
      | ok store =>
          have hafter : A.Joins { w with store } { w' with store } :=
            ⟨World.silent_eq_iff.mpr ⟨rfl, hcursor, hnow⟩, hjoins.output⟩
          cases store with
          | memory s => exact ⟨rfl, hafter⟩
          | durable s => exact ⟨rfl, hafter.emit (A.pairs_event _)⟩
  | usage => exact ⟨congrArg Store.usage hstore, hjoins⟩
  | flush => exact ⟨rfl, hjoins⟩
  | clock => exact ⟨hnow, hjoins⟩
  | cursor => exact ⟨hcursor, hjoins⟩
  | moveCursor path =>
      exact ⟨rfl, World.silent_eq_iff.mpr ⟨hstore, rfl, hnow⟩, hjoins.output⟩
  | emit output => cases hc

end

end Accord

namespace Routine

variable {A : Accord} {α β : Type}

/-- The routines make the same calls if they are answered the same, but for what they put out, and
end with the same value. -/
inductive InStep (A : Accord) (post : α → Prop) : Routine α → Routine α → Prop
  | done {value : α} (hpost : post value) : InStep A post (.done value) (.done value)
  | emit {output output' : Output} {next next' : Unit → Routine α} (hpair : A.pairs output output')
    (hnext : InStep A post (next ()) (next' ())) :
    InStep A post (.call (.emit output) next) (.call (.emit output') next')
  | call {c : Call} {next next' : c.Answer → Routine α} (hc : A.Asks c)
    (hnext : ∀ answer, A.Answers c answer → InStep A post (next answer) (next' answer)) :
    InStep A post (.call c next) (.call c next')
  | walk {pending found : List String} {next next' : List String → Routine α}
    (hnext : ∀ paths, InStep A post (next paths) (next' paths)) :
    InStep A post (.walk pending found next) (.walk pending found next')

theorem InStep.mono {post post' : α → Prop} {routine routine' : Routine α}
    (hstep : InStep A post routine routine') (hpost : ∀ value, post value → post' value) :
    InStep A post' routine routine' := by
  induction hstep with
  | done hvalue => exact .done (hpost _ hvalue)
  | emit hpair _ ih => exact .emit hpair ih
  | call hc _ ih => exact .call hc ih
  | walk _ ih => exact .walk ih

theorem InStep.bind {post : α → Prop} {post' : β → Prop} {routine routine' : Routine α}
    (hstep : InStep A post routine routine') {f f' : α → Routine β}
    (hf : ∀ value, post value → InStep A post' (f value) (f' value)) :
    InStep A post' (routine.bind f) (routine'.bind f') := by
  induction hstep with
  | done hvalue => exact hf _ hvalue
  | emit hpair _ ih => exact .emit hpair ih
  | call hc _ ih => exact .call hc ih
  | walk _ ih => exact .walk ih

/-- What the medium answers itself is left out of both. -/
theorem InStep.upon {post : α → Prop} {routine routine' : Routine α}
    (hstep : InStep A post routine routine') {medium : Medium} (hmedium : A.TrustsMedium medium) :
    InStep A post (routine.upon medium) (routine'.upon medium) := by
  induction hstep with
  | done hvalue => exact .done hvalue
  | emit hpair _ ih => exact .emit hpair ih
  | @call c next next' hc _ ih =>
      rw [Routine.upon, Routine.upon]
      cases hanswer : medium.answer? c with
      | none => exact .call hc ih
      | some answer =>
          refine ih answer ?_
          cases c with
          | commit changes =>
              obtain ⟨e, hfailure, rfl⟩ := Option.map_eq_some_iff.mp hanswer
              exact hmedium e hfailure
          | usage => trivial
          | _ => cases hanswer
  | walk _ ih => exact .walk ih

/-- Routines in step, run from joined worlds, end with one value and leave joined worlds. -/
theorem InStep.run {post : α → Prop} {routine routine' : Routine α}
    (hstep : InStep A post routine routine') {w w' : World} (hjoins : A.Joins w w')
    (hw : A.Trusts w) :
    (routine.run w).1 = (routine'.run w').1 ∧ post (routine.run w).1 ∧
      A.Joins (routine.run w).2 (routine'.run w').2 ∧ A.Trusts (routine.run w).2 := by
  induction hstep generalizing w w' with
  | done hvalue => exact ⟨rfl, hvalue, hjoins, hw⟩
  | emit hpair _ ih => exact ih (hjoins.emit hpair) (hw.emit _)
  | call hc _ ih =>
      obtain ⟨hanswer, hafter⟩ := hjoins.answer hc
      obtain ⟨hanswers, htrusts⟩ := hw.answer hc
      rw [Routine.run, Routine.run, ← hanswer]
      exact ih _ hanswers hafter htrusts
  | walk _ ih =>
      obtain ⟨hstore, -, -⟩ := World.silent_eq_iff.mp hjoins.silent
      rw [Routine.run, Routine.run, ← hstore]
      exact ih _ hjoins hw

end Routine

namespace Action

variable {A : Accord} {α β : Type}

/-- The actions go in step, and what they fail with is allowed. -/
def InStep (A : Accord) (post : α → Prop) (action action' : Action α) : Prop :=
  Routine.InStep A
    (fun result => match result with
      | .ok value => post value
      | .error e => A.Allows e.message)
    (ExceptT.run action) (ExceptT.run action')

/-- The action goes in step with itself. -/
abbrev Steady (A : Accord) (post : α → Prop) (action : Action α) : Prop :=
  InStep A post action action

theorem InStep.bind {post : α → Prop} {post' : β → Prop} {action action' : Action α}
    (hstep : InStep A post action action') {f f' : α → Action β}
    (hf : ∀ value, post value → InStep A post' (f value) (f' value)) :
    InStep A post' (action >>= f) (action' >>= f') := by
  refine Routine.InStep.bind hstep fun result hresult => ?_
  cases result with
  | ok value => exact hf value hresult
  | error e => exact .done hresult

theorem InStep.mono {post post' : α → Prop} {action action' : Action α}
    (hstep : InStep A post action action') (hpost : ∀ value, post value → post' value) :
    InStep A post' action action' :=
  Routine.InStep.mono hstep fun result hresult => by
    cases result with
    | ok value => exact hpost value hresult
    | error e => exact hresult

/-- A routine that cannot fail. -/
theorem inStep_lift {post : α → Prop} {routine routine' : Routine α}
    (hstep : routine.InStep A post routine') :
    InStep A post (routine : Action α) (routine' : Action α) :=
  Routine.InStep.bind hstep fun _ hvalue => .done hvalue

/-! ### Calls -/

theorem steady_pure {post : α → Prop} {value : α} (hvalue : post value) :
    Steady A post (pure value) :=
  .done hvalue

theorem steady_throw {post : α → Prop} {e : StorageError} (he : A.Allows e.message) :
    Steady A post (throw e) :=
  .done he

theorem steady_get (path : String) :
    Steady A (fun found => ∀ node ∈ found, A.AllowsNode node) (Action.get path) := by
  refine .call trivial fun answer hanswer => .done ?_
  rcases answer with e | _ | node
  · exact hanswer
  · simp
  · rintro _ ⟨⟩
    exact hanswer

theorem steady_commit {changes : List Change}
    (hchanges : ∀ change ∈ changes, ∀ node ∈ change.result, A.AllowsNode node) :
    Steady A (fun _ => True) (Action.commit changes) := by
  refine .call hchanges fun answer hanswer => .done ?_
  cases answer with
  | ok done => trivial
  | error e => exact hanswer

theorem steady_subtree (path : String) : Steady A (fun _ => True) (Action.subtree path) :=
  .walk fun _ => .done trivial

theorem steady_usage : Steady A (fun _ => True) Action.usage :=
  .call trivial fun _ _ => .done trivial

theorem steady_flush : Steady A (fun _ => True) Action.flush :=
  .call trivial fun _ _ => .done trivial

theorem steady_clock : Steady A (fun _ => True) Action.clock :=
  .call trivial fun _ _ => .done trivial

theorem steady_cursor : Steady A A.Allows Action.cursor :=
  .call trivial fun _ hanswer => .done hanswer

theorem steady_moveCursor {path : String} (hpath : A.Allows path) :
    Steady A (fun _ => True) (Action.moveCursor path) :=
  .call hpath fun _ _ => .done trivial

theorem steady_log (event : Log.Event) : Steady A (fun _ => True) (Action.log event) :=
  .emit (A.pairs_event event) (.done trivial)

end Action
end VirtualShell
