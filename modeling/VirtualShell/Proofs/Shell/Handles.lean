import Mathlib.Data.List.GetD
import Mathlib.Data.List.Induction
import VirtualShell.Shell.Buffer

/-!
# Handles that share a buffer

Every handle descends by copying from a handle that was created, its original.  Handles of one
original show the same, and those of different ones have nothing to do with each other.  What is
written through the handles of an original is what was taken and cleared through them, in this order,
and then what they still show: nothing is lost on the way, and nothing comes twice.

The account of a run is kept beside it.  It goes by the originals of handles, which are found in the
steps alone, and not by the numbers of their buffers.
-/

namespace VirtualShell

/-- The original of each handle, by number. -/
abbrev Lineage := List Nat

namespace Lineage

/-- One handle, which is no copy. -/
def single : Lineage :=
  [0]

/-- The original of a handle.  As with buffers, a number without a handle means the first one. -/
def origin (l : Lineage) (handle : Nat) : Nat :=
  l.getD handle 0

/-- The originals after a step: a copy has that of the handle it was made of, and a new handle is
its own. -/
def extend (l : Lineage) : HandleStep → Lineage
  | .copy handle => l ++ [l.origin handle]
  | .create => l ++ [l.length]
  | .write _ _ | .clear _ | .take _ => l

theorem origin_concat (l : Lineage) (original handle : Nat) :
    origin (l ++ [original]) handle = if handle = l.length then original else l.origin handle := by
  rw [origin, origin, List.getD_eq_getElem?_getD, List.getD_eq_getElem?_getD]
  rcases Nat.lt_trichotomy handle l.length with hlt | rfl | hgt
  · rw [if_neg (Nat.ne_of_lt hlt), List.getElem?_append_left hlt]
  · simp
  · rw [if_neg (Nat.ne_of_gt hgt), List.getElem?_eq_none (Nat.le_of_lt hgt),
      List.getElem?_eq_none (by simpa)]

theorem origin_single (handle : Nat) : single.origin handle = 0 := by
  cases handle <;> rfl

/-- The handle is no copy. -/
def IsOriginal (l : Lineage) (handle : Nat) : Prop :=
  handle < l.length ∧ l.origin handle = handle

/-- A handle that is added is an original if it is its own, and the others stay what they are. -/
theorem isOriginal_concat_iff {l : Lineage} {original handle : Nat} :
    IsOriginal (l ++ [original]) handle ↔
      l.IsOriginal handle ∨ handle = l.length ∧ original = l.length := by
  rw [IsOriginal, IsOriginal, origin_concat, List.length_append, List.length_singleton]
  by_cases hlast : handle = l.length
  · subst hlast
    simp
  · rw [if_neg hlast]
    constructor
    · rintro ⟨hlt, horigin⟩
      exact .inl ⟨by omega, horigin⟩
    · rintro (⟨hlt, horigin⟩ | ⟨heq, -⟩)
      · exact ⟨by omega, horigin⟩
      · exact absurd heq hlast

end Lineage

namespace HandleStep

/-- The handle that a step is made through. -/
def through? : HandleStep → Option Nat
  | .write handle _ | .clear handle | .take handle | .copy handle => some handle
  | .create => none

/-- The text that a step adds. -/
def written : HandleStep → String
  | .write _ s => s
  | .clear _ | .take _ | .copy _ | .create => ""

/-- The text that a step hands out or throws away. -/
def released (h : Handles) : HandleStep → String
  | .take handle => (h.apply (.take handle)).2.getD ""
  | .clear handle => (h.buffer handle).text
  | .write _ _ | .copy _ | .create => ""

/-- The number of clears that a step is. -/
def clears : HandleStep → Nat
  | .clear _ => 1
  | .write _ _ | .take _ | .copy _ | .create => 0

/-- What a step does to the buffer of its handle. -/
def effect : HandleStep → Buffer → Buffer
  | .write _ s, b => b.write s
  | .clear _, b => b.clear
  | .take _, b => b.take.2
  | .copy _, b | .create, b => b

end HandleStep

/-- The original of the handle that a step is made through. -/
def Lineage.concerned? (l : Lineage) (step : HandleStep) : Option Nat :=
  step.through?.map l.origin

/-- What went through the handles of one original. -/
structure Account where
  written : String
  released : String
  clears : Nat
  deriving DecidableEq, Repr

/-- The account after a step through one of the handles. -/
def Account.book (a : Account) (h : Handles) (step : HandleStep) : Account where
  written := a.written ++ step.written
  released := a.released ++ step.released h
  clears := a.clears + step.clears

/-- A run so far: the handles, the original of each, and the account of every original. -/
structure Tracked where
  handles : Handles
  lineage : Lineage
  account : Nat → Account

namespace Tracked

/-- One handle, through which nothing was done. -/
def single : Tracked where
  handles := .single
  lineage := .single
  account _ := ⟨"", "", 0⟩

/-- The run after one more step, which goes on the account of the original it concerns. -/
def step (t : Tracked) (step : HandleStep) : Tracked where
  handles := (t.handles.apply step).1
  lineage := t.lineage.extend step
  account original :=
    if t.lineage.concerned? step = some original then (t.account original).book t.handles step
    else t.account original

/-- The run that some steps make up. -/
def run (steps : List HandleStep) : Tracked :=
  steps.foldl step single

end Tracked

namespace Handles

variable (h : Handles)

theorem target_concat (buffers : List Buffer) (target handle : Nat) :
    (⟨buffers, h.targets ++ [target]⟩ : Handles).target handle =
      if handle = h.targets.length then target else h.target handle :=
  Lineage.origin_concat h.targets target handle

theorem target_update (k : Nat) (f : Buffer → Buffer) (handle : Nat) :
    (h.update k f).target handle = h.target handle := rfl

theorem buffer_update {k : Nat} (hbound : h.target k < h.buffers.length) (f : Buffer → Buffer)
    (handle : Nat) :
    (h.update k f).buffer handle =
      if h.target handle = h.target k then f (h.buffer handle) else h.buffer handle := by
  rw [buffer, buffer, target_update, update, List.getD_eq_getElem?_getD,
    List.getD_eq_getElem?_getD, List.getElem?_modify]
  by_cases hsame : h.target handle = h.target k
  · simp [hsame, hbound]
  · simp [hsame, Ne.symm hsame]

theorem buffer_of_target_eq {i j : Nat} (hsame : h.target i = h.target j) :
    h.buffer i = h.buffer j := by
  rw [buffer, buffer, hsame]

/-- What a step takes out of the buffer of its handle, and what it leaves there, is what was there
before and what it adds. -/
theorem released_append_effect (step : HandleStep) {k : Nat} (hthrough : step.through? = some k) :
    step.released h ++ (step.effect (h.buffer k)).text = (h.buffer k).text ++ step.written := by
  cases step with
  | write handle s =>
      obtain rfl : handle = k := Option.some.inj hthrough
      simp [HandleStep.released, HandleStep.effect, HandleStep.written, Buffer.write]
  | clear handle =>
      obtain rfl : handle = k := Option.some.inj hthrough
      simp [HandleStep.released, HandleStep.effect, HandleStep.written, Buffer.clear]
  | take handle =>
      obtain rfl : handle = k := Option.some.inj hthrough
      simp [HandleStep.released, HandleStep.effect, HandleStep.written, Buffer.take, apply]
  | copy handle => simp [HandleStep.released, HandleStep.effect, HandleStep.written]
  | create => cases hthrough

theorem clears_effect (step : HandleStep) (b : Buffer) :
    (step.effect b).clears = b.clears + step.clears := by
  cases step <;> rfl

end Handles

/-! ### Buffers go by originals -/

/-- Every handle has an original, which is no copy, and handles stand for the same buffer exactly if
they have the same original. -/
structure Handles.Follow (h : Handles) (l : Lineage) : Prop where
  count : h.targets.length = l.length
  bound : ∀ handle, h.target handle < h.buffers.length
  original : ∀ handle, l.IsOriginal (l.origin handle)
  same : ∀ i j, h.target i = h.target j ↔ l.origin i = l.origin j

namespace Handles

theorem target_single (handle : Nat) : single.target handle = 0 :=
  Lineage.origin_single handle

theorem follow_single : single.Follow .single where
  count := rfl
  bound handle := target_single handle ▸ Nat.zero_lt_one
  original handle := by
    rw [Lineage.origin_single]
    exact ⟨Nat.zero_lt_one, rfl⟩
  same _ _ := Iff.rfl

namespace Follow

variable {h : Handles} {l : Lineage} (hfollow : h.Follow l)

include hfollow

theorem update (k : Nat) (f : Buffer → Buffer) : (h.update k f).Follow l where
  count := hfollow.count
  bound handle := by
    rw [target_update, Handles.update, List.length_modify]
    exact hfollow.bound handle
  original := hfollow.original
  same := hfollow.same

/-- One more handle keeps the others' buffers and originals apart as they were, if it has the buffer
of just those that have its original. -/
theorem concat {buffers : List Buffer} (hbuffers : h.buffers <+: buffers) {target original : Nat}
    (htarget : target < buffers.length) (horiginal : Lineage.IsOriginal (l ++ [original]) original)
    (hsame : ∀ i, h.target i = target ↔ l.origin i = original) :
    (⟨buffers, h.targets ++ [target]⟩ : Handles).Follow (l ++ [original]) := by
  have htargets (handle : Nat) : (⟨buffers, h.targets ++ [target]⟩ : Handles).target handle =
      if handle = l.length then target else h.target handle := by
    rw [target_concat, hfollow.count]
  refine ⟨?_, fun handle => ?_, fun handle => ?_, fun i j => ?_⟩
  · simp [hfollow.count]
  · rw [htargets]
    split
    · exact htarget
    · exact Nat.lt_of_lt_of_le (hfollow.bound handle) hbuffers.length_le
  · rw [Lineage.origin_concat]
    split
    · exact horiginal
    · exact Lineage.isOriginal_concat_iff.mpr (.inl (hfollow.original handle))
  · rw [htargets, htargets, Lineage.origin_concat, Lineage.origin_concat]
    split <;> split
    · simp
    · rw [eq_comm, hsame, eq_comm]
    · exact hsame i
    · exact hfollow.same i j

/-- A step keeps the buffers in line with the originals. -/
theorem step (step : HandleStep) : (h.apply step).1.Follow (l.extend step) := by
  cases step with
  | write handle s => exact hfollow.update handle _
  | clear handle => exact hfollow.update handle _
  | take handle => exact hfollow.update handle _
  | copy handle =>
      exact hfollow.concat List.prefix_rfl (hfollow.bound handle)
        (Lineage.isOriginal_concat_iff.mpr (.inl (hfollow.original handle)))
        fun i => hfollow.same i handle
  | create =>
      refine hfollow.concat (List.prefix_append _ _) (by simp) ?_ fun i => ?_
      · exact Lineage.isOriginal_concat_iff.mpr (.inr ⟨rfl, rfl⟩)
      · -- nobody has a buffer or an original that comes after all others
        exact iff_of_false (Nat.ne_of_lt (hfollow.bound i)) (Nat.ne_of_lt (hfollow.original i).1)

end Follow

/-! ### What a step shows -/

section Shown

variable {h : Handles} {l : Lineage} (hfollow : h.Follow l)

include hfollow

/-- A step shows in the handles of the original that it concerns, and nowhere else. -/
theorem buffer_apply (step : HandleStep) {handle : Nat} (hhandle : handle < l.length) :
    (h.apply step).1.buffer handle =
      if l.concerned? step = some (l.origin handle) then step.effect (h.buffer handle)
      else h.buffer handle := by
  have hupdate (k : Nat) (f : Buffer → Buffer) : (h.update k f).buffer handle =
      if some (l.origin k) = some (l.origin handle) then f (h.buffer handle)
      else h.buffer handle := by
    have hconcerned : some (l.origin k) = some (l.origin handle) ↔
        h.target handle = h.target k := by
      rw [Option.some.injEq, hfollow.same, eq_comm]
    simp only [h.buffer_update (hfollow.bound k), hconcerned]
  have hadd (buffers : List Buffer) (target : Nat) :
      (⟨h.buffers ++ buffers, h.targets ++ [target]⟩ : Handles).buffer handle =
        h.buffer handle := by
    have hne : handle ≠ h.targets.length := by
      rw [hfollow.count]
      exact Nat.ne_of_lt hhandle
    rw [buffer, target_concat, if_neg hne, List.getD_append _ _ _ _ (hfollow.bound handle), buffer]
  cases step with
  | write k s => exact hupdate k _
  | clear k => exact hupdate k _
  | take k => exact hupdate k _
  | copy k =>
      have hcopy := hadd [] (h.target k)
      rw [List.append_nil] at hcopy
      exact hcopy.trans (ite_self _).symm
  | create => exact hadd [.empty] h.buffers.length

end Shown

end Handles

/-! ### The account of a run -/

/-- The accounts of the originals are even with what they show, and nothing was booked for a handle
that does not exist yet. -/
structure Tracked.Even (t : Tracked) : Prop where
  follow : t.handles.Follow t.lineage
  fresh : ∀ original, t.lineage.length ≤ original → t.account original = ⟨"", "", 0⟩
  text : ∀ original, t.lineage.IsOriginal original →
    (t.account original).released ++ (t.handles.buffer original).text =
      (t.account original).written
  clears : ∀ original, t.lineage.IsOriginal original →
    (t.handles.buffer original).clears = (t.account original).clears

namespace Tracked

theorem even_single : single.Even where
  follow := Handles.follow_single
  fresh _ _ := rfl
  text original horiginal := by
    obtain rfl : original = 0 := Nat.lt_one_iff.mp horiginal.1
    rfl
  clears original horiginal := by
    obtain rfl : original = 0 := Nat.lt_one_iff.mp horiginal.1
    rfl

/-- Handles of one original show the same text and the same number of clears. A step through one
shows in all handles of its original, and changes nothing that a handle of another original shows;
who takes gets what was shown. What was taken and cleared through the handles of an original, in the
order of the steps, and then what they show, is what was written through them, and they show as many
clears as were made through them. -/
structure Conserving (t : Tracked) : Prop where
  shared : ∀ i j, t.lineage.origin i = t.lineage.origin j → t.handles.buffer i = t.handles.buffer j
  together : ∀ step, ∀ i < t.handles.targets.length,
    t.lineage.concerned? step = some (t.lineage.origin i) →
      (t.handles.apply step).1.buffer i = step.effect (t.handles.buffer i)
  separate : ∀ step, ∀ i < t.handles.targets.length,
    t.lineage.concerned? step ≠ some (t.lineage.origin i) →
      (t.handles.apply step).1.buffer i = t.handles.buffer i
  taken : ∀ i, (t.handles.apply (.take i)).2 = some (t.handles.buffer i).text
  text : ∀ i, (t.account (t.lineage.origin i)).released ++ (t.handles.buffer i).text =
    (t.account (t.lineage.origin i)).written
  clears : ∀ i, (t.handles.buffer i).clears = (t.account (t.lineage.origin i)).clears

section Step

variable {t : Tracked} (heven : t.Even)

include heven

theorem Even.account_step_of_le (step : HandleStep) {original : Nat}
    (hlast : t.lineage.length ≤ original) : (t.step step).account original = ⟨"", "", 0⟩ := by
  have hother : t.lineage.concerned? step ≠ some original := by
    rw [Lineage.concerned?, Ne, Option.map_eq_some_iff]
    rintro ⟨handle, -, rfl⟩
    exact absurd (heven.follow.original handle).1 (Nat.not_lt.mpr hlast)
  exact (if_neg hother).trans (heven.fresh original hlast)

/-- What is written and what comes out through an original is booked as its buffer shows it. -/
theorem Even.step_of_isOriginal (step : HandleStep) {original : Nat}
    (horiginal : t.lineage.IsOriginal original) :
    ((t.step step).account original).released ++ ((t.step step).handles.buffer original).text =
        ((t.step step).account original).written ∧
      ((t.step step).handles.buffer original).clears = ((t.step step).account original).clears := by
  have htext := heven.text original horiginal
  have hclears := heven.clears original horiginal
  have hbuffer := Handles.buffer_apply heven.follow step horiginal.1
  rw [horiginal.2] at hbuffer
  rw [Tracked.step]
  dsimp only
  by_cases hconcerned : t.lineage.concerned? step = some original
  · rw [hbuffer, if_pos hconcerned, if_pos hconcerned]
    obtain ⟨handle, hthrough, horigin⟩ := Option.map_eq_some_iff.mp hconcerned
    have hsame : t.handles.buffer handle = t.handles.buffer original :=
      t.handles.buffer_of_target_eq
        ((heven.follow.same handle original).mpr (horigin.trans horiginal.2.symm))
    have heffect := t.handles.released_append_effect step hthrough
    rw [hsame] at heffect
    constructor
    · rw [Account.book, String.append_assoc, heffect, ← String.append_assoc, htext]
    · rw [Account.book, Handles.clears_effect, hclears]
  · rw [hbuffer, if_neg hconcerned, if_neg hconcerned]
    exact ⟨htext, hclears⟩

/-- A handle that a step creates shows nothing, and nothing went through it. -/
theorem Even.step_of_created {step : HandleStep} {original : Nat}
    (hnew : ¬ t.lineage.IsOriginal original)
    (horiginal : (t.lineage.extend step).IsOriginal original) :
    (t.step step).account original = ⟨"", "", 0⟩ ∧
      (t.step step).handles.buffer original = .empty := by
  cases step with
  | write handle s => exact absurd horiginal hnew
  | clear handle => exact absurd horiginal hnew
  | take handle => exact absurd horiginal hnew
  | copy handle =>
      -- what a copy is made of was there before
      rcases Lineage.isOriginal_concat_iff.mp horiginal with hold | ⟨-, hlast⟩
      · exact absurd hold hnew
      · exact absurd hlast (Nat.ne_of_lt (heven.follow.original handle).1)
  | create =>
      obtain ⟨rfl, -⟩ := (Lineage.isOriginal_concat_iff.mp horiginal).resolve_left hnew
      refine ⟨heven.account_step_of_le .create (Nat.le_refl _), ?_⟩
      have htarget : (t.step .create).handles.target t.lineage.length =
          t.handles.buffers.length := by
        rw [← heven.follow.count]
        exact (t.handles.target_concat _ _ _).trans (if_pos rfl)
      rw [Handles.buffer, htarget]
      show (t.handles.buffers ++ [Buffer.empty]).getD t.handles.buffers.length .empty = .empty
      rw [List.getD_append_right _ _ _ _ (Nat.le_refl _), Nat.sub_self]
      rfl

theorem Even.step (step : HandleStep) : (t.step step).Even where
  follow := heven.follow.step step
  fresh original hlast := by
    refine heven.account_step_of_le step (Nat.le_trans ?_ hlast)
    cases step <;> simp [Tracked.step, Lineage.extend]
  text original horiginal := by
    by_cases hold : t.lineage.IsOriginal original
    · exact (heven.step_of_isOriginal step hold).1
    · obtain ⟨haccount, hbuffer⟩ := heven.step_of_created hold horiginal
      rw [haccount, hbuffer]
      rfl
  clears original horiginal := by
    by_cases hold : t.lineage.IsOriginal original
    · exact (heven.step_of_isOriginal step hold).2
    · obtain ⟨haccount, hbuffer⟩ := heven.step_of_created hold horiginal
      rw [haccount, hbuffer]
      rfl

theorem Even.conserving : t.Conserving := by
  have horigin (i : Nat) : t.handles.buffer i = t.handles.buffer (t.lineage.origin i) :=
    t.handles.buffer_of_target_eq
      ((heven.follow.same _ _).mpr (heven.follow.original i).2.symm)
  refine ⟨fun i j hsame => ?_, fun step i hi hsame => ?_, fun step i hi hother => ?_,
    fun i => rfl, fun i => ?_, fun i => ?_⟩
  · rw [horigin i, horigin j, hsame]
  · rw [heven.follow.count] at hi
    rw [Handles.buffer_apply heven.follow step hi, if_pos hsame]
  · rw [heven.follow.count] at hi
    rw [Handles.buffer_apply heven.follow step hi, if_neg hother]
  · rw [horigin i]
    exact heven.text _ (heven.follow.original i)
  · rw [horigin i]
    exact heven.clears _ (heven.follow.original i)

end Step

theorem even_run (steps : List HandleStep) : (run steps).Even := by
  induction steps using List.reverseRecOn with
  | nil => exact even_single
  | append_singleton steps last ih =>
      rw [run, List.foldl_append]
      exact ih.step last

/-- Keeping the account beside a run does not change the run. -/
theorem run_eq (steps : List HandleStep) :
    (run steps).handles = steps.foldl (fun h step => (h.apply step).1) .single ∧
      (run steps).lineage = steps.foldl .extend .single := by
  induction steps using List.reverseRecOn with
  | nil => exact ⟨rfl, rfl⟩
  | append_singleton steps last ih =>
      rw [run, List.foldl_append, List.foldl_append, List.foldl_append, ← ih.1, ← ih.2]
      exact ⟨rfl, rfl⟩

/-- After any steps over a growing list of handles, texts and clears are conserved: nothing that was
written is lost, comes twice or shows elsewhere. -/
theorem conserving_run (steps : List HandleStep) :
    (run steps).handles = steps.foldl (fun h step => (h.apply step).1) .single ∧
      (run steps).lineage = steps.foldl .extend .single ∧ (run steps).Conserving :=
  ⟨(run_eq steps).1, (run_eq steps).2, (even_run steps).conserving⟩

-- the copy of a copy writes, the first handle takes, and a handle created between them stays silent
example :
    let steps := [.copy 0, .create, .copy 1, .write 3 "a", .write 2 "b", .take 0, .write 1 "c",
      .clear 3, .write 0 "d"]
    (run steps).lineage = [0, 0, 2, 0] ∧
      (run steps).account 0 = ⟨"acd", "ac", 1⟩ ∧ (run steps).account 2 = ⟨"b", "", 0⟩ ∧
      (run steps).handles.shown = [⟨"d", 1⟩, ⟨"d", 1⟩, ⟨"b", 0⟩, ⟨"d", 1⟩] := by
  decide +kernel

end Tracked
end VirtualShell
