import VirtualShell.Proofs.History.Remembered

/-!
# The times of a file

The contents remember the deed that a file was last born by and the one that it was last written by.
Deeds bear the time of the clock, so while the clock is never set back their times come in order;
with this the times that a file is stored with are read off the history, and are in order, too.
-/

namespace VirtualShell

open History (OccursAt LastAt)

/-- The time that a step sets the clock to, if it does. -/
def Step.reading? : Step → Option Timestamp
  | .tick now => some now
  | .start _ _ | .operate _ _ | .refuse _ | .change _ => none

/-- The times at which files were written, in order. -/
def History.times (h : List Deed) : List Timestamp :=
  h.filterMap Deed.time?

/-! ### Deeds bear the time of the clock -/

section

variable {now : Timestamp} {nodes nodes' : Contents} {cursor cursor' : String} {deeds : List Deed}

theorem Effect.eq_of_mem_times (heffect : Effect now nodes cursor deeds nodes' cursor')
    {time : Timestamp} (htime : time ∈ History.times deeds) : time = now := by
  cases heffect with
  | touched hdirectory | wrote hplant => simpa [History.times, Deed.time?] using htime
  | idle | moved hdirectory | kept hdirectory | made hplant hfree | deleted hprune =>
      simp [History.times, Deed.time?] at htime

theorem Effects.eq_of_mem_times (heffects : Effects now cursor nodes deeds nodes')
    {time : Timestamp} (htime : time ∈ History.times deeds) : time = now := by
  induction heffects with
  | nil => cases htime
  | cons hfirst hrest ih =>
      rw [History.times, List.filterMap_append, List.mem_append] at htime
      exact htime.elim hfirst.eq_of_mem_times ih

/-! ### What keeps a file -/

/-- A file keeps the time at which it was created, unless something removes it. -/
theorem Effect.created_eq (heffect : Effect now nodes cursor deeds nodes' cursor')
    (htree : nodes.Tree) {path own content : String} {created modified : Timestamp}
    (hfile : nodes.find? path = some (.file own content created modified))
    (hkept : ∀ deed ∈ deeds, ¬ deed.Removes path) :
    ∃ content' modified', nodes'.find? path = some (.file own content' created modified') := by
  have hplanted {node : Node} {parent : String} (hplant : Contents.Plantable nodes node parent)
      (hpath : path ≠ node.path) :
      (nodes.plant node).find? path = some (.file own content created modified) := by
    have hparent : path ≠ parent := by
      rintro rfl
      have hdirectory := hplant.directory
      rw [Contents.kind?, hfile] at hdirectory
      cases hdirectory
    rw [Contents.find?_plant htree hplant, if_neg hpath, if_neg hparent, hfile]
  cases heffect with
  | idle | moved hdirectory | touched hdirectory | kept hdirectory => exact ⟨_, _, hfile⟩
  | @wrote path' content' parent hplant =>
      by_cases hpath : path = path'
      · subst hpath
        refine ⟨content', now, ?_⟩
        obtain rfl : own = path := htree.path_eq hfile
        rw [Contents.find?_plant htree hplant, Node.path_file, if_pos rfl, hfile]
        rfl
      · exact ⟨_, _, hplanted hplant hpath⟩
  | @made path' parent hplant hfree =>
      refine ⟨_, _, hplanted hplant fun hpath => ?_⟩
      rw [hpath, show nodes.find? (Node.emptyDirectory path' (Path.name path')).path = none from
        hfree] at hfile
      cases hfile
  | @deleted path' parent hprune =>
      have houtside : ¬ Path.isWithin path path' = true := hkept _ (List.mem_singleton_self _)
      have hparent : path ≠ parent := by
        rintro rfl
        have hdirectory := hprune.directory htree
        rw [Contents.kind?, hfile] at hdirectory
        cases hdirectory
      refine ⟨content, modified, ?_⟩
      rw [Contents.find?_prune htree hprune, if_neg houtside, if_neg hparent, hfile]

end

namespace Shared

variable {s : Shared}

/-! ### Histories under a clock that is never set back -/

/-- Nobody has started yet, or the store holds a tree. -/
def Settled (s : Shared) : Prop :=
  s.Blank ∨ ∃ nodes, s.Sound nodes

theorem Settled.step (hs : s.Settled) (step : Step) :
    (s.step step).Settled ∧ ∀ time ∈ History.times (s.deeds step), time = s.now := by
  rcases hs with hblank | ⟨nodes, hsound⟩
  · rcases hblank.step step with ⟨hblank', hdeeds⟩ | ⟨nodes', hsound', -, heffects⟩
    · rw [hdeeds]
      exact ⟨.inl hblank', by simp [History.times]⟩
    · exact ⟨.inr ⟨nodes', hsound'⟩, fun _ => heffects.eq_of_mem_times⟩
  · obtain ⟨nodes', _, _, hsound', heffect⟩ := hsound.step step
    exact ⟨.inr ⟨nodes', hsound'⟩, fun _ => heffect.eq_of_mem_times⟩

/-- Only a reading changes what the clock shows. -/
theorem now_step (s : Shared) (step : Step) : (s.step step).now = step.reading?.getD s.now := by
  cases step with
  | start seeded options =>
      rw [step_start]
      split <;> rfl
  | operate number operation =>
      cases hclient : s.clients[number]? with
      | none =>
          rw [Shared.step, hclient]
          rfl
      | some client =>
          rw [step_operate hclient]
          rfl
  | refuse on | change medium | tick now => rfl

/-- While the clock is never set back, the times of the history are in order, between what the clock
showed at first and what it shows at last. -/
theorem Settled.pairwise_times (hs : s.Settled) {steps : List Step}
    (hclock : (s.now :: steps.filterMap Step.reading?).Pairwise (· ≤ ·)) :
    (s.now :: (History.times (s.history steps) ++ [(s.run steps).now])).Pairwise (· ≤ ·) := by
  induction steps generalizing s with
  | nil => exact List.pairwise_pair.mpr (Int64.le_refl s.now)
  | cons step steps ih =>
      obtain ⟨hsettled, htimes⟩ := hs.step step
      have hreading : s.now ≤ (s.step step).now ∧
          ((s.step step).now :: steps.filterMap Step.reading?).Pairwise (· ≤ ·) := by
        rw [now_step]
        cases hread : step.reading? with
        | none =>
            rw [List.filterMap_cons_none hread] at hclock
            exact ⟨Int64.le_refl _, hclock⟩
        | some now =>
            rw [List.filterMap_cons_some hread] at hclock
            exact ⟨List.rel_of_pairwise_cons hclock List.mem_cons_self, hclock.of_cons⟩
      have hrest := ih hsettled hreading.2
      have hlater : ∀ time ∈ History.times ((s.step step).history steps) ++
          [((s.step step).run steps).now], s.now ≤ time := fun time htime =>
        Int64.le_trans hreading.1 (List.rel_of_pairwise_cons hrest htime)
      -- what the first step did bears the time that the clock showed then
      have hfirst : ∀ time ∈ s.now :: History.times (s.deeds step), time = s.now :=
        fun time htime =>
        (List.mem_cons.mp htime).elim id (htimes time)
      rw [history, History.times, List.filterMap_append, List.append_assoc, ← List.cons_append]
      refine List.pairwise_append.mpr ⟨List.Pairwise.imp_of_mem (R := fun _ _ => True) ?_ ?_,
        hrest.of_cons, ?_⟩
      · intro time other htime hother _
        rw [hfirst time htime, hfirst other hother]
        exact Int64.le_refl _
      · exact List.pairwise_of_forall fun _ _ => trivial
      · intro time htime other hother
        rw [hfirst time htime]
        exact hlater other hother

end Shared

/-! ### The times that a file is stored with -/

namespace History

variable {h : List Deed} {i j : Nat}

/-- When times come in order, what was done later bears a later time. -/
theorem le_of_pairwise_times (htimes : (times h).Pairwise (· ≤ ·)) {time later : Timestamp}
    (hi : OccursAt h (fun deed => deed.time? = some time) i)
    (hj : OccursAt h (fun deed => deed.time? = some later) j) (hle : i ≤ j) : time ≤ later := by
  obtain ⟨first, hfirst, htime⟩ := hi
  obtain ⟨second, hsecond, hlater⟩ := hj
  rcases Nat.lt_or_eq_of_le hle with hlt | rfl
  · obtain ⟨_, rfl⟩ := List.getElem?_eq_some_iff.mp hfirst
    obtain ⟨_, rfl⟩ := List.getElem?_eq_some_iff.mp hsecond
    rw [times, List.pairwise_filterMap, List.pairwise_iff_getElem] at htimes
    exact htimes i j _ _ hlt time htime later hlater
  · obtain rfl : first = second := Option.some.inj (hfirst.symm.trans hsecond)
    obtain rfl : time = later := Option.some.inj (htime.symm.trans hlater)
    exact Int64.le_refl _

theorem OccursAt.mem_times {time : Timestamp}
    (hi : OccursAt h (fun deed => deed.time? = some time) i) : time ∈ times h := by
  obtain ⟨deed, hdeed, htime⟩ := hi
  exact List.mem_filterMap.mpr ⟨deed, List.mem_of_getElem? hdeed, htime⟩

theorem OccursAt.imp {p q : Deed → Prop} (hi : OccursAt h p i) (hpq : ∀ deed, p deed → q deed) :
    OccursAt h q i := by
  obtain ⟨deed, hdeed, hp⟩ := hi
  exact ⟨deed, hdeed, hpq deed hp⟩

/-- Nothing removed what is alive since it was last born. -/
theorem LastAt.not_removed {path : String} (hi : LastAt h (Deed.Births path) i)
    (halive : Alive h path) (hroot : path ≠ Path.root) (hij : i < j) :
    ¬ OccursAt h (Deed.Removes path) j := by
  obtain ⟨k, hk, hlater⟩ := halive.resolve_left hroot
  have hki : k ≤ i := by
    by_contra hlt
    exact hi.2 k (by omega) hk
  exact hlater j (by omega)

end History

namespace Shared

/-- What the history tells of the times of a file.  It was created at the time at which it was last
born, since when nothing removed it, and modified at the time at which it was last written. -/
structure TellsTimes (h : List Deed) (path : String) (created modified : Timestamp) : Prop where
  created : ∃ i, LastAt h (Deed.Births path) i ∧
    OccursAt h (fun deed => deed.time? = some created) i ∧
    ∀ j, i < j → ¬ OccursAt h (Deed.Removes path) j
  modified : ∃ j, LastAt h (Deed.Writes path) j ∧
    OccursAt h (fun deed => deed.time? = some modified) j

/-- Whatever steps follow, a file that nothing removes stays one, and keeps the time at which it was
created. -/
theorem Sound.created_run {s : Shared} {nodes : Contents} (hsound : s.Sound nodes)
    {path own content : String} {created modified : Timestamp}
    (hfile : nodes.find? path = some (.file own content created modified)) {later : List Step}
    (hkept : ∀ deed ∈ s.history later, ¬ deed.Removes path) :
    ∃ content' modified',
      (s.run later).store.get path = .ok (some (.file own content' created modified')) := by
  have hP : Preserved fun reached deeds => (∀ deed ∈ deeds, ¬ deed.Removes path) →
      ∃ content' modified', reached.find? path = some (.file own content' created modified') := by
    intro now before cursor deeds after cursor' earlier htree heffect hbefore hall
    rw [List.forall_mem_append] at hall
    obtain ⟨content', modified', hfile'⟩ := hbefore hall.1
    exact heffect.created_eq htree hfile' hall.2
  have hnone : (∀ deed ∈ ([] : List Deed), ¬ deed.Removes path) → ∃ content' modified',
      nodes.find? path = some (.file own content' created modified') :=
    fun _ => ⟨content, modified, hfile⟩
  obtain ⟨reached, hreached, hlasting⟩ := hP.run_of_sound hsound hnone later
  obtain ⟨content', modified', hfile'⟩ := hlasting hkept
  exact ⟨content', modified', by rw [hreached.holds.get, hfile']⟩

/-- In every run in which the clock is never set back, the times that a file is stored with are in
order and not later than what the clock shows; the history tells them; and the time at which the
file was created stays the same in whatever follows, until something removes the file. -/
theorem timestamps_run (backend : Backend) (now : Timestamp) {steps : List Step}
    (hclock : (now :: steps.filterMap Step.reading?).Pairwise (· ≤ ·))
    {path own content : String} {created modified : Timestamp}
    (hget : ((fresh backend now).run steps).store.get path =
      .ok (some (.file own content created modified))) :
    created ≤ modified ∧ modified ≤ ((fresh backend now).run steps).now ∧
      TellsTimes ((fresh backend now).history steps) path created modified ∧
      ∀ later, (∀ deed ∈ ((fresh backend now).run steps).history later, ¬ deed.Removes path) →
        ∃ content' modified', ((fresh backend now).run (steps ++ later)).store.get path =
          .ok (some (.file own content' created modified')) := by
  have hsettled : (fresh backend now).Settled := .inl (blank_fresh backend now)
  have hpairwise := hsettled.pairwise_times hclock
  rcases History.preserved_remembers.run_of_blank History.remembers_bare
    (blank_fresh backend now) steps with ⟨hblank, -⟩ | ⟨nodes, hsound, hnodes⟩
  · rw [hblank.holds.get, SortedMap.find?_empty] at hget
    cases hget
  · have hfile : nodes.find? path = some (.file own content created modified) := by
      rw [hsound.holds.get] at hget
      exact Except.ok.inj hget
    obtain ⟨i, j, hi, hborn, hle, hj, hwrote⟩ := hnodes.file hfile
    have hcreated := hborn.imp fun deed hdeed => hdeed.2
    have hmodified := hwrote.imp fun deed hdeed => hdeed.2
    have htimes := List.pairwise_append.mp hpairwise.of_cons
    have hroot : path ≠ Path.root := by
      rintro rfl
      have hdirectory := hsound.tree.root
      rw [Contents.kind?, hfile] at hdirectory
      cases hdirectory
    have halive : History.Alive ((fresh backend now).history steps) path :=
      (hnodes.alive path).mp (by rw [hfile]; rfl)
    refine ⟨History.le_of_pairwise_times htimes.1 hcreated hmodified hle,
      htimes.2.2 modified hmodified.mem_times _ (List.mem_singleton_self _),
      ⟨⟨i, hi, hcreated, fun _ hij => hi.not_removed halive hroot hij⟩, j, hj, hmodified⟩,
      fun later hkept => ?_⟩
    rw [run, List.foldl_append]
    exact hsound.created_run hfile hkept

/-- A file is written twice, with a refused write in between, and then removed and made anew. -/
def rewritingRun : List Step :=
  [.start false ⟨defaultQuotaBytes, false⟩, .tick 3, .operate 0 (.createFile "a" "text"), .tick 4,
    .refuse true, .operate 0 (.touch "a"), .refuse false, .tick 5, .operate 0 (.delete "a"),
    .tick 7, .operate 0 (.touch "a"), .start true ⟨defaultQuotaBytes, true⟩, .tick 7, .tick 9,
    .operate 1 (.createFile "~/a" "more")]

theorem timestamps_rewritingRun :
    ((fresh .memory 1).run rewritingRun).store.get "~/a" = .ok (some (.file "~/a" "more" 7 9)) ∧
      TellsTimes ((fresh .memory 1).history rewritingRun) "~/a" 7 9 := by
  have hget : ((fresh .memory 1).run rewritingRun).store.get "~/a" =
      .ok (some (.file "~/a" "more" 7 9)) := by decide +kernel
  exact ⟨hget, (timestamps_run .memory 1 (by decide) hget).2.2.1⟩

end Shared
end VirtualShell
