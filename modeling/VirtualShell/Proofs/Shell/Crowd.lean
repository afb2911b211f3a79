import Mathlib.Data.List.Induction
import VirtualShell.Proofs.Shell.Gate

/-!
# Who is at a gate, and in what order

Entrants come, go and are told to go by their names, which several may share.  Who is live is read
off the steps alone: those who entered and whom no later step made leave.  After every step the
crowd is the one in which the first of the live entrants is inside and the others wait in the order
they came; the gate counts as in use exactly if there is such a first one; and the list behind the
gate has what was pushed while somebody was live.
-/

namespace VirtualShell

/-! ### What the steps tell -/

namespace CrowdStep

/-- Those who enter and whom no later step makes leave, each with the number of the entry. -/
def live : Nat → List CrowdStep → List (Nat × Int)
  | _, [] => []
  | number, .enter name :: later =>
    if .leave name ∈ later then live (number + 1) later
    else (number, name) :: live (number + 1) later
  | number, .leave _ :: later => live number later
  | number, .push _ :: later => live number later

/-- How many enter. -/
def entries : List CrowdStep → Nat
  | [] => 0
  | .enter _ :: later => entries later + 1
  | .leave _ :: later => entries later
  | .push _ :: later => entries later

/-- What is pushed while somebody is live, after the steps before. -/
def pushed (before : List CrowdStep) : List CrowdStep → List Int
  | [] => []
  | .push value :: later =>
    if live 0 before = [] then pushed (before ++ [.push value]) later
    else value :: pushed (before ++ [.push value]) later
  | step :: later => pushed (before ++ [step]) later

theorem live_append_enter (number : Nat) (steps : List CrowdStep) (name : Int) :
    live number (steps ++ [.enter name]) =
      live number steps ++ [(number + entries steps, name)] := by
  induction steps generalizing number with
  | nil => simp [live, entries]
  | cons step later ih =>
      cases step with
      | enter other =>
          -- entering makes nobody leave
          have hleave : .leave other ∈ later ++ [CrowdStep.enter name] ↔ .leave other ∈ later := by
            simp
          have hnumber : number + 1 + entries later = number + (entries later + 1) := by omega
          by_cases hother : CrowdStep.leave other ∈ later <;>
            simp [live, entries, ih, hleave, hother, hnumber]
      | leave other => simp [live, entries, ih]
      | push value => simp [live, entries, ih]

theorem live_append_leave (number : Nat) (steps : List CrowdStep) (name : Int) :
    live number (steps ++ [.leave name]) = (live number steps).filter (·.2 ≠ name) := by
  induction steps generalizing number with
  | nil => rfl
  | cons step later ih =>
      cases step with
      | enter other =>
          have hleave : .leave other ∈ later ++ [CrowdStep.leave name] ↔
              .leave other ∈ later ∨ other = name := by
            simp
          by_cases hlater : CrowdStep.leave other ∈ later
          · simp [live, ih, hlater]
          · by_cases hname : other = name
            · subst hname
              simp [live, ih, hleave, hlater]
            · simp [live, ih, hleave, hlater, hname]
      | leave other => simp [live, ih]
      | push value => simp [live, ih]

theorem live_append_push (number : Nat) (steps : List CrowdStep) (value : Int) :
    live number (steps ++ [.push value]) = live number steps := by
  induction steps generalizing number with
  | nil => rfl
  | cons step later ih => cases step <;> simp [live, ih]

theorem entries_append (steps later : List CrowdStep) :
    entries (steps ++ later) = entries steps + entries later := by
  induction steps with
  | nil => simp [entries]
  | cons step steps ih => cases step <;> simp [entries, ih, Nat.add_right_comm]

theorem pushed_append (before steps later : List CrowdStep) :
    pushed before (steps ++ later) = pushed before steps ++ pushed (before ++ steps) later := by
  induction steps generalizing before with
  | nil => simp [pushed]
  | cons step steps ih =>
      cases step with
      | push value =>
          by_cases hnobody : live 0 before = [] <;> simp [pushed, ih, hnobody]
      | enter name => simp [pushed, ih]
      | leave name => simp [pushed, ih]

/-- The numbers of the live entrants are those of entries that were made, each once. -/
theorem number_lt_of_mem_live {number : Nat} {steps : List CrowdStep} {entrant : Nat × Int}
    (hentrant : entrant ∈ live number steps) :
    number ≤ entrant.1 ∧ entrant.1 < number + entries steps := by
  induction steps generalizing number with
  | nil => cases hentrant
  | cons step later ih =>
      cases step with
      | enter name =>
          rw [live] at hentrant
          rw [entries]
          by_cases hleave : CrowdStep.leave name ∈ later
          · rw [if_pos hleave] at hentrant
            have hbounds := ih hentrant
            omega
          · rw [if_neg hleave] at hentrant
            rcases List.mem_cons.mp hentrant with rfl | hentrant
            · dsimp only
              omega
            · have hbounds := ih hentrant
              omega
      | leave name => exact ih hentrant
      | push value => exact ih hentrant

theorem nodup_live (number : Nat) (steps : List CrowdStep) :
    ((live number steps).map (·.1)).Nodup := by
  induction steps generalizing number with
  | nil => exact .nil
  | cons step later ih =>
      cases step with
      | enter name =>
          rw [live]
          by_cases hleave : CrowdStep.leave name ∈ later
          · rw [if_pos hleave]
            exact ih _
          · rw [if_neg hleave, List.map_cons, List.nodup_cons]
            refine ⟨?_, ih _⟩
            intro hmem
            obtain ⟨entrant, hentrant, hnumber⟩ := List.mem_map.mp hmem
            have hlater := (number_lt_of_mem_live hentrant).1
            omega
      | leave name => exact ih _
      | push value => exact ih _

end CrowdStep

/-! ### The crowd of some live entrants -/

/-- Somebody who waits. -/
def Entrant.waiting (entrant : Nat × Int) : Entrant where
  number := entrant.1
  name := entrant.2
  stage := .waiting

/-- Somebody inside. -/
def Entrant.inside (entrant : Nat × Int) : Entrant where
  number := entrant.1
  name := entrant.2
  stage := .inside

namespace Crowd

/-- The first is inside and the others wait. -/
def placed : List (Nat × Int) → List Entrant
  | [] => []
  | first :: rest => .inside first :: rest.map .waiting

/-- The crowd of those who are live. -/
def ofLive (value : List Int) (live : List (Nat × Int)) (next : Nat) : Crowd where
  gate := .ofLine value (!live.isEmpty) (live.map (·.1))
  entrants := placed live
  next := next

/-! ### Looking whether one may come in -/

theorem pollAll_append (gate : Gate (List Int)) (entrants later : List Entrant) :
    pollAll gate (entrants ++ later) =
      ((pollAll (pollAll gate entrants).1 later).1,
        (pollAll gate entrants).2 ++ (pollAll (pollAll gate entrants).1 later).2) := by
  induction entrants generalizing gate with
  | nil => rfl
  | cons entrant entrants ih => simp [pollAll, ih]

section Poll

variable (value : List Int)

/-- Who waits behind somebody else goes on waiting. -/
theorem pollAll_waiting (inUse : Bool) {first : Nat} (line : List Nat)
    {entrants : List (Nat × Int)} (hfirst : first ∉ entrants.map (·.1)) :
    pollAll (.ofLine value inUse (first :: line)) (entrants.map .waiting) =
      (.ofLine value inUse (first :: line), entrants.map .waiting) := by
  induction entrants with
  | nil => rfl
  | cons entrant entrants ih =>
      rw [List.map_cons, List.mem_cons, not_or] at hfirst
      have hpoll : pollEntrant (.ofLine value inUse (first :: line)) (.waiting entrant) =
          (.ofLine value inUse (first :: line), .waiting entrant) := by
        simp [pollEntrant, Entrant.waiting,
          Gate.admits_ofLine_of_ne value inUse line (Ne.symm hfirst.1)]
      rw [List.map_cons, pollAll, hpoll]
      dsimp only
      rw [ih hfirst.2]

/-- Where the first is inside, nobody moves. -/
theorem pollAll_placed {live : List (Nat × Int)} (hnodup : (live.map (·.1)).Nodup)
    (inUse : Bool) :
    pollAll (.ofLine value inUse (live.map (·.1))) (placed live) =
      (.ofLine value inUse (live.map (·.1)), placed live) := by
  cases live with
  | nil => rfl
  | cons first rest =>
      rw [List.map_cons, List.nodup_cons] at hnodup
      have hpoll : pollEntrant (.ofLine value inUse (first.1 :: rest.map (·.1)))
          (.inside first) = (.ofLine value inUse (first.1 :: rest.map (·.1)), .inside first) := by
        simp [pollEntrant, Entrant.inside]
      rw [placed, List.map_cons, pollAll, hpoll]
      dsimp only
      rw [pollAll_waiting value inUse _ hnodup.1]

/-- Where nobody is inside, the first comes in. -/
theorem pollAll_map_waiting {live : List (Nat × Int)} (hnodup : (live.map (·.1)).Nodup) :
    pollAll (.ofLine value false (live.map (·.1))) (live.map .waiting) =
      (.ofLine value (!live.isEmpty) (live.map (·.1)), placed live) := by
  cases live with
  | nil => rfl
  | cons first rest =>
      rw [List.map_cons, List.nodup_cons] at hnodup
      have hpoll : pollEntrant (.ofLine value false (first.1 :: rest.map (·.1)))
          (.waiting first) = (.ofLine value true (first.1 :: rest.map (·.1)), .inside first) := by
        simp [pollEntrant, Entrant.waiting, Entrant.inside]
      rw [List.map_cons, List.map_cons, pollAll, hpoll]
      dsimp only
      rw [pollAll_waiting value true _ hnodup.1]
      rfl

/-- Somebody who has just started goes to the end of the line, and comes in if it was empty. -/
theorem poll_started {live : List (Nat × Int)} {next : Nat} (name : Int)
    (hnodup : (live.map (·.1)).Nodup) (hnext : next ∉ live.map (·.1)) :
    pollAll (.ofLine value (!live.isEmpty) (live.map (·.1)))
        (placed live ++ [⟨next, name, .started⟩]) =
      (.ofLine value (!(live ++ [(next, name)]).isEmpty) ((live ++ [(next, name)]).map (·.1)),
        placed (live ++ [(next, name)])) := by
  rw [pollAll_append, pollAll_placed value hnodup]
  cases live with
  | nil => simp [pollAll, pollEntrant, placed, Entrant.inside]
  | cons first rest =>
      rw [List.map_cons, List.mem_cons, not_or] at hnext
      simp [pollAll, pollEntrant, placed, Entrant.waiting,
        Gate.admits_ofLine_of_ne value true _ hnext.1]

end Poll

/-! ### Leaving -/

/-- Those who give up one after the other are taken out of the line. -/
theorem foldl_dropEntrant_waiting (value : List Int) (inUse : Bool) {line : List Nat}
    (hnodup : line.Nodup) (leaving : List (Nat × Int)) :
    (leaving.map Entrant.waiting).foldl dropEntrant (.ofLine value inUse line) =
      .ofLine value inUse (line.filter (· ∉ leaving.map (·.1))) := by
  induction leaving generalizing line with
  | nil => simp
  | cons entrant leaving ih =>
      have hdrop : dropEntrant (.ofLine value inUse line) (.waiting entrant) =
          .ofLine value inUse (line.erase entrant.1) := by
        simp [dropEntrant, Entrant.waiting]
      rw [List.map_cons, List.foldl_cons, hdrop, ih (hnodup.erase _), hnodup.erase_eq_filter,
        List.filter_filter]
      congr 2
      funext number
      rw [Bool.eq_iff_iff]
      simp [and_comm]

/-- Taking the numbers of those with a name out of the line leaves those with other names. -/
theorem filter_numbers {live : List (Nat × Int)} (hnodup : (live.map (·.1)).Nodup) (name : Int) :
    (live.map (·.1)).filter (· ∉ (live.filter (·.2 = name)).map (·.1)) =
      (live.filter (·.2 ≠ name)).map (·.1) := by
  rw [List.filter_map]
  congr 1
  refine List.filter_congr fun entrant hentrant => ?_
  -- no two have the same number, so the number tells the name
  have hleaves : entrant.1 ∈ (live.filter (·.2 = name)).map (·.1) ↔ entrant.2 = name := by
    constructor
    · intro hmem
      obtain ⟨other, hother, hnumber⟩ := List.mem_map.mp hmem
      obtain ⟨hlive, hname⟩ := List.mem_filter.mp hother
      have hsame : other = entrant :=
        List.inj_on_of_nodup_map hnodup hlive hentrant hnumber
      rw [← hsame]
      exact of_decide_eq_true hname
    · intro hname
      exact List.mem_map_of_mem (List.mem_filter.mpr ⟨hentrant, decide_eq_true hname⟩)
  rw [Function.comp_apply, decide_eq_decide, not_iff_not]
  exact hleaves

theorem insideFirst_waiting (waiting : List (Nat × Int)) :
    insideFirst (waiting.map .waiting) = waiting.map .waiting := by
  simp [insideFirst, Entrant.waiting, List.filter_map, Function.comp_def]

theorem insideFirst_inside (first : Nat × Int) (waiting : List (Nat × Int)) :
    insideFirst (.inside first :: waiting.map .waiting) =
      .inside first :: waiting.map .waiting := by
  simp [insideFirst, Entrant.inside, Entrant.waiting, List.filter_map, Function.comp_def]

theorem filter_name_waiting (waiting : List (Nat × Int)) (p : Int → Bool) :
    (waiting.map Entrant.waiting).filter (fun entrant => p entrant.name) =
      (waiting.filter fun entrant => p entrant.2).map .waiting := by
  rw [List.filter_map]
  rfl

section Leave

variable (value : List Int) {first : Nat × Int} {rest : List (Nat × Int)} (next : Nat)
  (hnodup : ((first :: rest).map (·.1)).Nodup) {name : Int}

include hnodup

/-- If the one inside leaves, nobody is inside until somebody looks. -/
theorem act_leave_first (hname : first.2 = name) :
    (ofLive value (first :: rest) next).act (.leave name) =
      { gate := .ofLine value false ((rest.filter (·.2 ≠ name)).map (·.1))
        entrants := (rest.filter (·.2 ≠ name)).map .waiting
        next := next } := by
  have hrest : (rest.map (·.1)).Nodup := (List.nodup_cons.mp hnodup).2
  have hgoing : (placed (first :: rest)).filter (·.name = name) =
      .inside first :: (rest.filter (·.2 = name)).map .waiting := by
    rw [placed, List.filter_cons, filter_name_waiting rest (· = name)]
    simp [Entrant.inside, hname]
  have hstaying : (placed (first :: rest)).filter (·.name ≠ name) =
      (rest.filter (·.2 ≠ name)).map .waiting := by
    rw [placed, List.filter_cons, filter_name_waiting rest (· ≠ name)]
    simp [Entrant.inside, hname]
  have hleave : dropEntrant (.ofLine value true ((first :: rest).map (·.1))) (.inside first) =
      .ofLine value false (rest.map (·.1)) := rfl
  rw [act, ofLive]
  dsimp only
  rw [hgoing, hstaying, insideFirst_inside, List.foldl_cons]
  show Crowd.mk (List.foldl dropEntrant (dropEntrant (.ofLine value true _) _) _) _ _ = _
  rw [hleave, foldl_dropEntrant_waiting value false hrest, filter_numbers hrest]

/-- If the one inside stays, it stays inside, and the others close up. -/
theorem act_leave_other (hname : first.2 ≠ name) :
    (ofLive value (first :: rest) next).act (.leave name) =
      ofLive value (first :: rest.filter (·.2 ≠ name)) next := by
  have hgoing : (placed (first :: rest)).filter (·.name = name) =
      (rest.filter (·.2 = name)).map .waiting := by
    rw [placed, List.filter_cons, filter_name_waiting rest (· = name)]
    simp [Entrant.inside, hname]
  have hstaying : (placed (first :: rest)).filter (·.name ≠ name) =
      placed (first :: rest.filter (·.2 ≠ name)) := by
    rw [placed, List.filter_cons, filter_name_waiting rest (· ≠ name)]
    simp [Entrant.inside, hname, placed]
  have hnames : (first :: rest).filter (·.2 = name) = rest.filter (·.2 = name) :=
    List.filter_cons_of_neg (by simpa using hname)
  have hothers : (first :: rest).filter (·.2 ≠ name) = first :: rest.filter (·.2 ≠ name) :=
    List.filter_cons_of_pos (by simpa using hname)
  rw [act, ofLive]
  dsimp only
  rw [hgoing, hstaying, insideFirst_waiting, foldl_dropEntrant_waiting value _ hnodup, ← hnames,
    filter_numbers hnodup, hothers]
  rfl

end Leave

/-! ### One step and a whole run -/

section Step

variable (value : List Int) {live : List (Nat × Int)} (hnodup : (live.map (·.1)).Nodup)
  (next : Nat)

include hnodup

theorem step_enter (name : Int) (hnext : next ∉ live.map (·.1)) :
    (ofLive value live next).step (.enter name) =
      ofLive value (live ++ [(next, name)]) (next + 1) := by
  have hpoll := poll_started value name hnodup hnext
  rw [step, act, poll, ofLive]
  dsimp only
  rw [hpoll]
  rfl

theorem step_leave (name : Int) :
    (ofLive value live next).step (.leave name) =
      ofLive value (live.filter (·.2 ≠ name)) next := by
  have hstay : ((live.filter (·.2 ≠ name)).map (·.1)).Nodup :=
    hnodup.sublist (List.filter_sublist.map _)
  cases live with
  | nil => rfl
  | cons first rest =>
      by_cases hname : first.2 = name
      · have hothers : (first :: rest).filter (·.2 ≠ name) = rest.filter (·.2 ≠ name) :=
          List.filter_cons_of_neg (by simpa using hname)
        rw [hothers] at hstay ⊢
        rw [step, act_leave_first value next hnodup hname, poll]
        dsimp only
        rw [pollAll_map_waiting value hstay]
        rfl
      · have hothers : (first :: rest).filter (·.2 ≠ name) =
            first :: rest.filter (·.2 ≠ name) :=
          List.filter_cons_of_pos (by simpa using hname)
        rw [hothers] at hstay ⊢
        rw [step, act_leave_other value next hnodup hname, poll, ofLive]
        dsimp only
        rw [pollAll_placed value hstay]

theorem step_push (pushed : Int) :
    (ofLive value live next).step (.push pushed) =
      ofLive (if live = [] then value else value ++ [pushed]) live next := by
  have hpoll := pollAll_placed (if live = [] then value else value ++ [pushed]) hnodup
    (!live.isEmpty)
  have hact : (ofLive value live next).act (.push pushed) =
      ofLive (if live = [] then value else value ++ [pushed]) live next := by
    cases live with
    | nil => rfl
    | cons first rest => simp [act, ofLive, placed, Entrant.inside, Gate.ofLine]
  rw [step, hact, poll, ofLive]
  dsimp only
  rw [hpoll]

end Step

/-- After any steps the crowd is that of the live entrants. -/
theorem foldl_step_empty (steps : List CrowdStep) :
    steps.foldl step empty =
      ofLive (CrowdStep.pushed [] steps) (CrowdStep.live 0 steps) (CrowdStep.entries steps) := by
  induction steps using List.reverseRecOn with
  | nil => rfl
  | append_singleton steps last ih =>
      have hnodup := CrowdStep.nodup_live 0 steps
      rw [List.foldl_append, ih, List.foldl_cons, List.foldl_nil, CrowdStep.pushed_append,
        CrowdStep.entries_append]
      cases last with
      | enter name =>
          have hnext : CrowdStep.entries steps ∉ (CrowdStep.live 0 steps).map (·.1) := by
            intro hmem
            obtain ⟨entrant, hentrant, hnumber⟩ := List.mem_map.mp hmem
            have hbound := (CrowdStep.number_lt_of_mem_live hentrant).2
            omega
          rw [step_enter _ hnodup _ name hnext, CrowdStep.live_append_enter]
          simp [CrowdStep.pushed, CrowdStep.entries]
      | leave name =>
          rw [step_leave _ hnodup, CrowdStep.live_append_leave]
          simp [CrowdStep.pushed, CrowdStep.entries]
      | push value =>
          rw [step_push _ hnodup, CrowdStep.live_append_push]
          by_cases hnobody : CrowdStep.live 0 steps = [] <;>
            simp [CrowdStep.pushed, CrowdStep.entries, hnobody]

/-- The crowd is in order: the first of the live entrants, and nobody else, is inside and has
access, the others wait in the order they came, the gate counts as in use exactly if somebody is
inside, and the list is as it was pushed. -/
structure Orderly (c : Crowd) (live : List (Nat × Int)) (pushed : List Int) : Prop where
  inside : c.entrants.filter (·.stage = .inside) = (live.take 1).map .inside
  waiting : c.entrants.filter (·.stage ≠ .inside) = (live.drop 1).map .waiting
  holder : c.gate.holder = live.head?.map (·.1)
  queue : c.gate.queue = (live.drop 1).map (·.1)
  held : c.held = (live.take 1).map (·.2)
  queued : c.waiting = (live.drop 1).map (·.2)
  executing : c.gate.state = .executing ↔ c.held ≠ []
  value : c.gate.value = pushed

theorem orderly_ofLive (value : List Int) (live : List (Nat × Int)) (next : Nat) :
    (ofLive value live next).Orderly live value := by
  have hinside : (ofLive value live next).entrants.filter (·.stage = .inside) =
      (live.take 1).map .inside := by
    cases live with
    | nil => rfl
    | cons first rest =>
        simp [ofLive, placed, Entrant.inside, Entrant.waiting, List.filter_map,
          Function.comp_def]
  have hwaiting : (ofLive value live next).entrants.filter (·.stage ≠ .inside) =
      (live.drop 1).map .waiting := by
    cases live with
    | nil => rfl
    | cons first rest =>
        simp [ofLive, placed, Entrant.inside, Entrant.waiting, List.filter_map,
          Function.comp_def]
  have hheld : (ofLive value live next).held = (live.take 1).map (·.2) := by
    rw [held, hinside, List.map_map]
    rfl
  have hqueued : (ofLive value live next).waiting = (live.drop 1).map (·.2) := by
    rw [Crowd.waiting, hwaiting, List.map_map]
    rfl
  have hholder : (ofLive value live next).gate.holder = live.head?.map (·.1) := by
    cases live <;> rfl
  have hqueue : (ofLive value live next).gate.queue = (live.drop 1).map (·.1) := by
    cases live <;> rfl
  refine ⟨hinside, hwaiting, hholder, hqueue, hheld, hqueued, ?_, rfl⟩
  rw [hheld, ofLive, Gate.state_ofLine]
  cases live <;> simp

/-- After every sequence of steps, with names that may be shared, at most one entrant is inside: the
one that entered first of those that were not made to leave, if there is any. The others wait in the
order they entered, the gate counts as in use exactly while somebody is inside, and the list behind
it has exactly what was pushed while somebody was there. -/
theorem orderly_run (steps : List CrowdStep) :
    (steps.foldl step empty).Orderly (CrowdStep.live 0 steps) (CrowdStep.pushed [] steps) := by
  rw [foldl_step_empty]
  exact orderly_ofLive _ _ _

-- two share a name, and the one of them that is inside leaves together with the one that waits
example :
    CrowdStep.live 0 [.enter 1, .enter 2, .push 7, .enter 1, .leave 1, .push 8] = [(1, 2)] ∧
      CrowdStep.pushed [] [.enter 1, .enter 2, .push 7, .enter 1, .leave 1, .push 8] = [7, 8] := by
  decide

end Crowd
end VirtualShell
