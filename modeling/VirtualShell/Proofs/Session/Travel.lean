import VirtualShell.Proofs.Path.Composition
import VirtualShell.Proofs.Session.Outcome

/-!
# Going somewhere in two steps

A change of the working directory looks up one path and changes nothing but the cursor.  So going
to a first place and from there on to a second one comes to the same as going to both names in one,
once the first place is a directory.
-/

namespace VirtualShell
namespace Session

/-- The cursor goes to where a text means, if a directory is stored there. -/
theorem play_changeDirectory {s : Scene} {raw path : String}
    (hresolve : Path.resolve raw s.cursor = .ok path) :
    (changeDirectory raw).play s =
      match s.store.get path with
      | .error e => (.error e, s)
      | .ok found =>
        if found.map Node.kind = some .directory then (.ok true, { s with cursor := path })
        else (.ok false, s) := by
  rw [changeDirectory, play_resolve_bind hresolve]
  dsimp only
  rw [Action.play_bind, Action.play_get]
  cases s.store.get path with
  | error e => rfl
  | ok found =>
      cases found with
      | none => rfl
      | some node => cases node <;> rfl

/-- A change of the working directory succeeds where a directory is stored, and then the session
stands there.  The store stays as it is. -/
theorem run_changeDirectory {w : World} {raw path : String}
    (hresolve : Path.resolve raw w.cursor = .ok path) :
    ((changeDirectory raw).run w).1 =
        (w.store.get path).map (fun found => decide (found.map Node.kind = some .directory)) ∧
      ((changeDirectory raw).run w).2.store = w.store ∧
      (((changeDirectory raw).run w).1 = .ok true →
        ((changeDirectory raw).run w).2.cursor = path) := by
  have hplay := play_changeDirectory (s := w.scene .intact) hresolve
  rw [show (w.scene .intact).store = w.store from rfl] at hplay
  cases hget : w.store.get path with
  | error e =>
      rw [hget] at hplay
      obtain ⟨hanswer, hstore, -⟩ := Action.run_of_play hplay
      exact ⟨hanswer, hstore, fun hyes => by rw [hanswer] at hyes; cases hyes⟩
  | ok found =>
      rw [hget] at hplay
      dsimp only at hplay
      by_cases hdirectory : found.map Node.kind = some .directory
      · rw [if_pos hdirectory] at hplay
        obtain ⟨hanswer, hstore, hcursor⟩ := Action.run_of_play hplay
        rw [hanswer, Except.map, decide_eq_true hdirectory]
        exact ⟨rfl, hstore, fun _ => hcursor⟩
      · rw [if_neg hdirectory] at hplay
        obtain ⟨hanswer, hstore, -⟩ := Action.run_of_play hplay
        rw [hanswer, Except.map, decide_eq_false hdirectory]
        exact ⟨rfl, hstore, fun hyes => by cases hyes⟩

/-- A text that is not named from the root means, behind a separator, what it means at the place
that the text before it means, from every working directory.  So where the first of two changes of
the working directory succeeds, the second one is answered as both names in one are answered from
where the session stood; and if they succeed, they lead to the same place. -/
theorem changeDirectory_composes {raw rest : String}
    (hcontrol : ∀ c ∈ raw.toList, Text.isControl c = false)
    (hcontrol' : ∀ c ∈ rest.toList, Text.isControl c = false) (hempty : rest ≠ "")
    (hrelative : ¬ Path.IsAbsolute rest) :
    (∀ cwd, ∃ path, Path.resolve raw cwd = .ok path ∧
      Path.resolve (raw ++ "/" ++ rest) cwd = Path.resolve rest path) ∧
    ∀ w w' : World, ((changeDirectory raw).run w).1 = .ok true →
      ((changeDirectory raw).run w).2 = w' →
      ((changeDirectory rest).run w').1 = ((changeDirectory (raw ++ "/" ++ rest)).run w).1 ∧
        (((changeDirectory rest).run w').1 = .ok true →
          ((changeDirectory rest).run w').2.cursor =
            ((changeDirectory (raw ++ "/" ++ rest)).run w).2.cursor) ∧
        ((changeDirectory rest).run w').2.store = w.store ∧
        ((changeDirectory (raw ++ "/" ++ rest)).run w).2.store = w.store := by
  refine ⟨Path.resolve_append hcontrol hcontrol' hempty hrelative, ?_⟩
  rintro w w' hfirst rfl
  obtain ⟨path, hresolve, hboth⟩ :=
    Path.resolve_append hcontrol hcontrol' hempty hrelative w.cursor
  obtain ⟨-, hstore, hmoved⟩ := run_changeDirectory hresolve
  -- the second change starts at the first place, in the same store
  have hrest : Path.resolve rest ((changeDirectory raw).run w).2.cursor =
      .ok (Path.ofComponents (Path.landing rest path)) := by
    rw [hmoved hfirst, Path.resolve_eq_ok hcontrol']
  obtain ⟨hsecond, hstore', hmoved'⟩ := run_changeDirectory hrest
  obtain ⟨hlong, hstore'', hmoved''⟩ :=
    run_changeDirectory (hboth.trans (Path.resolve_eq_ok hcontrol' path))
  have hanswer : ((changeDirectory rest).run ((changeDirectory raw).run w).2).1 =
      ((changeDirectory (raw ++ "/" ++ rest)).run w).1 := by
    rw [hsecond, hlong, hstore]
  refine ⟨hanswer, fun hyes => ?_, hstore'.trans hstore, hstore''⟩
  rw [hmoved' hyes, hmoved'' (hanswer ▸ hyes)]

/-- Two directories, one below the other, and a file. -/
def travelled : MemoryStore where
  nodes := [Node.directory Path.root "~" ["a"], .directory "~/a" "a" ["~", "b"],
      .emptyDirectory "~/a/~" "~", .file "~/a/b" "text" 1 2].foldl
    (fun nodes node => nodes.insert node.path node) .empty
  refusesWrites := false

/-- Going up too far on the way, and down again into a directory that is named like the root. -/
theorem changeDirectory_composes_upward :
    (∃ path, Path.resolve "../.././.." "~/a/~" = .ok path ∧
      Path.resolve "../.././../.././/a/~" "~/a/~" = Path.resolve ".././/a/~" path) ∧
    ((changeDirectory ".././/a/~").run
        ((changeDirectory "../.././..").run ⟨.memory travelled, "~/a/~", 9, []⟩).2).1 =
      ((changeDirectory "../.././../.././/a/~").run ⟨.memory travelled, "~/a/~", 9, []⟩).1 ∧
    ((changeDirectory ".././/a/~").run
        ((changeDirectory "../.././..").run ⟨.memory travelled, "~/a/~", 9, []⟩).2).1 = .ok true ∧
    ((changeDirectory "../.././../.././/a/~").run ⟨.memory travelled, "~/a/~", 9, []⟩).2.cursor =
      "~/a/~" := by
  have hcontrol : ∀ c ∈ "../.././..".toList, Text.isControl c = false := by
    simp [Text.isControl]
  have hcontrol' : ∀ c ∈ ".././/a/~".toList, Text.isControl c = false := by
    simp [Text.isControl]
  have hrelative : ¬ Path.IsAbsolute ".././/a/~" := by
    rw [Path.IsAbsolute]
    decide
  obtain ⟨hresolve, htravel⟩ :=
    changeDirectory_composes hcontrol hcontrol' (by decide) hrelative
  have hfirst : ((changeDirectory "../.././..").run ⟨.memory travelled, "~/a/~", 9, []⟩).1 =
      .ok true := by decide +kernel
  have hsecond : ((changeDirectory ".././/a/~").run
      ((changeDirectory "../.././..").run ⟨.memory travelled, "~/a/~", 9, []⟩).2).1 =
        .ok true := by decide +kernel
  obtain ⟨hanswer, hcursor, -⟩ := htravel _ _ hfirst rfl
  exact ⟨hresolve "~/a/~", hanswer, hsecond, (hcursor hsecond).symm.trans (by decide +kernel)⟩

end Session
end VirtualShell
