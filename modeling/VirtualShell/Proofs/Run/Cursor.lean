import VirtualShell.Proofs.Run.Sound

/-!
# The working directory is there

A session that is the only one to write always stands in a directory that is stored: only `cd` and
`rm` move the cursor, the one to a directory it has just seen, the other to the directory above what
it has removed.  Other sessions may start and read as they like.
-/

namespace VirtualShell

/-! ### Operations that do not write -/

theorem Operation.store_play (options : SessionOptions) {operation : Operation}
    (hreads : operation.writes = false) (s : Scene) :
    ((operation.perform options).play s).2.store = s.store := by
  cases operation with
  | resolve raw => exact congrArg Scene.store ((Session.quiet_resolve raw).reply _ s)
  | pathExists raw => exact congrArg Scene.store ((Session.quiet_pathExists raw).reply _ s)
  | listDirectory raw => exact congrArg Scene.store ((Session.quiet_listDirectory raw).reply _ s)
  | fileText raw => exact congrArg Scene.store ((Session.quiet_fileText raw).reply _ s)
  | usage => exact congrArg Scene.store ((Session.quiet_usage options).reply _ s)
  | changeDirectory raw =>
      rcases Session.refused_or_true (Session.changeDirectory raw) s with
        hfails | ⟨s', hplay, htrue⟩
      · exact congrArg Scene.store
          ((Operation.changeDirectory raw).atomic_perform options s hfails)
      · obtain ⟨path, own, name, children, -, -, rfl⟩ := Session.changeDirectory_true hplay
        rw [perform, htrue]
  | createFile raw content => cases hreads
  | touch raw => cases hreads
  | createDirectory raw => cases hreads
  | delete raw => cases hreads

/-! ### Where one effect leaves the cursor -/

/-- An effect leaves the cursor of its session at a stored directory. -/
theorem Effect.kind?_cursor {now : Timestamp} {nodes nodes' : Contents} {cursor cursor' : String}
    {deeds : List Deed} (heffect : Effect now nodes cursor deeds nodes' cursor')
    (htree : nodes.Tree) (hcursor : nodes.kind? cursor = some .directory) :
    nodes'.kind? cursor' = some .directory := by
  cases heffect with
  | idle => exact hcursor
  | moved hdirectory => exact hdirectory
  | touched hdirectory => exact hcursor
  | kept hdirectory => exact hcursor
  | wrote hplant =>
      rw [Contents.kind?_plant htree hplant, if_neg, hcursor]
      rintro rfl
      exact hplant.free hcursor
  | made hplant hfree =>
      rw [Contents.kind?_plant htree hplant, if_neg, hcursor]
      rintro rfl
      exact hplant.free hcursor
  | deleted hprune =>
      rw [Contents.kind?_prune htree hprune]
      split
      · rw [if_neg (hprune.not_isWithin htree), hprune.directory htree]
      · exact hcursor

/-- The session that a step writes for, if it can write. -/
def Step.writer? : Step → Option Nat
  | .operate number operation => if operation.writes then some number else none
  | _ => none

namespace Shared

/-- The session with a number, if it has started, stands in a stored directory. -/
def Stands (s : Shared) (nodes : Contents) (number : Nat) : Prop :=
  ∀ client, s.clients[number]? = some client → nodes.kind? client.cursor = some .directory

section

variable {s : Shared} {nodes : Contents} {number : Nat}

/-- Whoever stands in a stored directory still does after a session has started. -/
theorem Stands.start (hstands : s.Stands nodes number) (hsound : s.Sound nodes) (seeded : Bool)
    (options : SessionOptions) : (s.step (.start seeded options)).Stands nodes number := by
  rw [(hsound.step_start seeded options).1]
  intro client hclient
  by_cases hnumber : number < s.clients.length
  · rw [List.getElem?_append_left hnumber] at hclient
    exact hstands client hclient
  · rw [List.getElem?_append_right (by omega)] at hclient
    rw [List.mem_singleton.mp (List.mem_of_getElem? hclient)]
    exact hsound.tree.root

/-- What another session reads changes nothing. -/
theorem Stands.read (hstands : s.Stands nodes number) (hsound : s.Sound nodes) {actor : Nat}
    (hactor : actor ≠ number) {operation : Operation} (hreads : operation.writes = false) :
    (s.step (.operate actor operation)).Stands nodes number ∧
      (s.step (.operate actor operation)).store.Holds nodes := by
  cases hclient : s.clients[actor]? with
  | none =>
      rw [Shared.step, hclient]
      exact ⟨hstands, hsound.holds⟩
  | some client =>
      rw [Shared.step_operate hclient]
      constructor
      · intro other hother
        rw [List.getElem?_set_ne hactor] at hother
        exact hstands other hother
      · rw [operation.store_play client.options hreads (s.scene client.cursor)]
        exact hsound.holds

/-- What the session itself does leaves it in a stored directory. -/
theorem Stands.act (hstands : s.Stands nodes number) (hsound : s.Sound nodes)
    (operation : Operation) :
    ∃ nodes', (s.step (.operate number operation)).store.Holds nodes' ∧
      (s.step (.operate number operation)).Stands nodes' number := by
  cases hclient : s.clients[number]? with
  | none =>
      rw [Shared.step, hclient]
      exact ⟨nodes, hsound.holds, hstands⟩
  | some client =>
      obtain ⟨nodes', cursor', hholds, heffect, hclients⟩ := hsound.step_operate hclient operation
      refine ⟨nodes', hholds, fun other hother => ?_⟩
      rw [hclients, List.getElem?_set_self (List.getElem?_eq_some_iff.mp hclient).1] at hother
      obtain rfl := Option.some.inj hother
      exact heffect.kind?_cursor hsound.tree (hstands client hclient)

/-- A step that nobody else writes in keeps the session in a stored directory. -/
theorem Stands.step (hstands : s.Stands nodes number) (hsound : s.Sound nodes) {step : Step}
    (halone : ∀ other, step.writer? = some other → other = number) :
    ∃ nodes', (s.step step).Sound nodes' ∧ (s.step step).Stands nodes' number := by
  obtain ⟨nodes', _, _, hsound', -⟩ := hsound.step step
  refine ⟨nodes', hsound', ?_⟩
  cases step with
  | start seeded options =>
      have hstep := (hsound.step_start seeded options).1
      obtain rfl := hsound.holds.unique (hstep ▸ hsound'.holds)
      exact hstands.start hsound seeded options
  | operate actor operation =>
      by_cases hactor : actor = number
      · subst hactor
        obtain ⟨nodes'', hholds, hstands'⟩ := hstands.act hsound operation
        obtain rfl := hholds.unique hsound'.holds
        exact hstands'
        -- whoever else acts does not write
      · have hreads : operation.writes = false := by
          by_contra hwrites
          rw [Bool.not_eq_false] at hwrites
          exact hactor (halone actor (by rw [Step.writer?, if_pos hwrites]))
        obtain ⟨hstands', hholds⟩ := hstands.read hsound hactor hreads
        obtain rfl := hholds.unique hsound'.holds
        exact hstands'
  | refuse on =>
      obtain rfl := (hsound.holds.refusing on).unique hsound'.holds
      exact hstands
  | change medium | tick now =>
      obtain rfl := hsound.holds.unique hsound'.holds
      exact hstands

theorem Stands.run (hstands : s.Stands nodes number) (hsound : s.Sound nodes) {steps : List Step}
    (halone : ∀ step ∈ steps, ∀ other, step.writer? = some other → other = number) :
    ∃ nodes', (s.run steps).Sound nodes' ∧ (s.run steps).Stands nodes' number := by
  induction steps generalizing s nodes with
  | nil => exact ⟨nodes, hsound, hstands⟩
  | cons step steps ih =>
      rw [List.forall_mem_cons] at halone
      obtain ⟨nodes', hsound', hstands'⟩ := hstands.step hsound halone.1
      exact ih hstands' hsound' halone.2

theorem Blank.stands_run (hblank : s.Blank) {steps : List Step}
    (halone : ∀ step ∈ steps, ∀ other, step.writer? = some other → other = number) :
    (s.run steps).Blank ∨
      ∃ nodes, (s.run steps).Sound nodes ∧ (s.run steps).Stands nodes number := by
  induction steps generalizing s with
  | nil => exact .inl hblank
  | cons step steps ih =>
      rw [List.forall_mem_cons] at halone
      rcases hblank.step step with ⟨hblank', -⟩ | ⟨nodes', hsound', hroot, -⟩
      · exact ih hblank' halone.2
      · have hstands : (s.step step).Stands nodes' number := by
          intro client hclient
          rw [hroot client (List.mem_of_getElem? hclient)]
          exact hsound'.tree.root
        exact .inr (hstands.run hsound' halone.2)

end

/-- However a session that is alone in writing has been used, its cursor is a canonical path that
names a stored directory, and listing `.` there finds it. -/
theorem cursor_run (backend : Backend) (now : Timestamp) {steps : List Step} (number : Nat)
    (client : Client) (halone : ∀ step ∈ steps, ∀ other, step.writer? = some other → other = number)
    (hclient : ((fresh backend now).run steps).clients[number]? = some client) :
    Path.Canonical client.cursor ∧
      (∃ path name children, ((fresh backend now).run steps).store.get client.cursor =
        .ok (some (.directory path name children))) ∧
      ∃ entries, (((fresh backend now).run steps).request client.cursor client.options
        (.operate (.listDirectory "."))).1 = .ok (.listing (some entries)) := by
  rcases (blank_fresh backend now).stands_run halone with hblank | ⟨nodes, hsound, hstands⟩
  · rw [hblank.nobody] at hclient
    cases hclient
  · have hcanonical := hsound.canonical (List.mem_of_getElem? hclient)
    have hfind := hsound.tree.find?_directory (hstands client hclient)
    refine ⟨hcanonical, ⟨_, _, _, by rw [hsound.holds.get, hfind]⟩, ?_⟩
    exact ⟨_, hsound.request_listDirectory client.options hcanonical.resolve_dot
      (hstands client hclient)⟩

/-- A session goes into a directory and removes it from there. -/
def leavingRun : List Step :=
  [.start false ⟨defaultQuotaBytes, false⟩, .operate 0 (.createDirectory "a"),
    .operate 0 (.changeDirectory "a"), .operate 0 (.delete "~/a")]

theorem cursor_leavingRun :
    Path.Canonical "~" ∧
      (∃ path name children, ((fresh .memory 0).run leavingRun).store.get "~" =
        .ok (some (.directory path name children))) ∧
      ∃ entries, (((fresh .memory 0).run leavingRun).request "~" ⟨defaultQuotaBytes, false⟩
        (.operate (.listDirectory "."))).1 = .ok (.listing (some entries)) :=
  cursor_run .memory 0 0 ⟨"~", ⟨defaultQuotaBytes, false⟩⟩
    (by simp [leavingRun, Step.writer?, Operation.writes]) (by decide +kernel)

end Shared
end VirtualShell
