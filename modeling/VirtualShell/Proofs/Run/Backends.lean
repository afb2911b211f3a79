import VirtualShell.Proofs.Run.Sound
import VirtualShell.Proofs.Session.Twins

/-!
# The two kinds of stores do the same

A memory store and a durable one that start empty and take the same commits answer every look-up
and every scan alike, however often the durable one is closed and opened again.  So sessions that
share a store cannot tell which kind it is, as long as they do not ask for the bytes in use and no
quota stops them.
-/

namespace VirtualShell

/-- Whether a step leaves the writes and the medium alone and does not ask for the bytes in use. -/
def Step.plain : Step → Bool
  | .start _ _ | .tick _ => true
  | .operate _ operation => operation != .usage
  | .refuse _ | .change _ => false

namespace Shared

/-- The steps on a medium that says before each of them how many bytes are in use. -/
def measured (script : List (Nat × Step)) : List Step :=
  script.flatMap fun entry => [.change ⟨none, some entry.1⟩, entry.2]

/-- The same sessions at the same time, on stores that keep the same nodes and refuse nothing. -/
structure Twin (s t : Shared) (nodes : SortedMap String Node) : Prop where
  left : s.store.Serves nodes
  right : t.store.Serves nodes
  soundLeft : s.medium.failure = none
  soundRight : t.medium.failure = none
  now : s.now = t.now
  clients : s.clients = t.clients

variable {s t : Shared} {nodes : SortedMap String Node}

theorem Twin.scene (htwin : s.Twin t nodes) (cursor : String) :
    (s.scene cursor).Twin (t.scene cursor) :=
  .keeping nodes htwin.left htwin.right htwin.soundLeft htwin.soundRight rfl htwin.now

theorem Twin.measure (htwin : s.Twin t nodes) (used : Nat) :
    s.Twin (t.step (.change ⟨none, some used⟩)) nodes :=
  ⟨htwin.left, htwin.right, htwin.soundLeft, rfl, htwin.now, htwin.clients⟩

/-- What a request answers and leaves on twins. -/
theorem Twin.request (htwin : s.Twin t nodes) (cursor : String) (options : SessionOptions)
    {request : Request} (hrequest : request ≠ .operate .usage) :
    Bitten (s.request cursor options request).1 ∨ Bitten (t.request cursor options request).1 ∨
      ((s.request cursor options request).1 = (t.request cursor options request).1 ∧
        ((request.perform options).play (s.scene cursor)).2.Twin
          ((request.perform options).play (t.scene cursor)).2) := by
  rw [result_request, result_request]
  exact request.agrees options hrequest _ _ (htwin.scene cursor)

/-- Twins answer a step alike and stay twins. -/
def Alike (s t : Shared) (step : Step) : Prop :=
  s.answer? step = t.answer? step ∧ ∃ nodes, (s.step step).Twin (t.step step) nodes

theorem Twin.start (htwin : s.Twin t nodes) (seeded : Bool) (options : SessionOptions)
    (hleft : ¬ Bitten (s.request Path.root options (.start seeded)).1)
    (hright : ¬ Bitten (t.request Path.root options (.start seeded)).1) :
    s.Alike t (.start seeded options) := by
  obtain ⟨hsame, hscene⟩ :=
    ((htwin.request Path.root options Request.noConfusion).resolve_left hleft).resolve_left hright
  refine ⟨congrArg some hsame, ?_⟩
  rw [result_request, result_request] at hsame
  rw [step_start, step_start]
  cases hs : ((Request.start seeded).perform options).play (s.scene Path.root) with
  | mk result s' =>
      cases ht : ((Request.start seeded).perform options).play (t.scene Path.root) with
      | mk result' t' =>
          rw [hs, ht] at hsame hscene
          obtain rfl : result = result' := hsame
          obtain ⟨nodes', hserves, hserves', -, -, hcursor, -⟩ := hscene
          refine ⟨nodes', ?_⟩
          cases result with
          | error e =>
              exact ⟨hserves, hserves', htwin.soundLeft, htwin.soundRight, htwin.now,
                htwin.clients⟩
          | ok reply =>
              have hclients : s.clients ++ [⟨s'.cursor, options⟩] =
                  t.clients ++ [⟨t'.cursor, options⟩] := by
                rw [htwin.clients, hcursor]
              exact ⟨hserves, hserves', htwin.soundLeft, htwin.soundRight, htwin.now, hclients⟩

theorem Twin.operate (htwin : s.Twin t nodes) {number : Nat} {client : Client}
    (hclient : s.clients[number]? = some client) {operation : Operation}
    (hoperation : operation ≠ .usage)
    (hleft : ¬ Bitten (s.request client.cursor client.options (.operate operation)).1)
    (hright : ¬ Bitten (t.request client.cursor client.options (.operate operation)).1) :
    s.Alike t (.operate number operation) := by
  have hclient' : t.clients[number]? = some client := by rw [← htwin.clients, hclient]
  have hrequest : Request.operate operation ≠ .operate .usage :=
    fun heq => hoperation (Request.operate.inj heq)
  obtain ⟨hsame, hscene⟩ :=
    ((htwin.request client.cursor client.options hrequest).resolve_left hleft).resolve_left hright
  obtain ⟨nodes', hserves, hserves', -, -, hcursor, -⟩ := hscene
  rw [Alike, step_operate hclient, step_operate hclient', answer?, answer?, hclient, hclient']
  refine ⟨congrArg some hsame, nodes', hserves, hserves', htwin.soundLeft, htwin.soundRight,
    htwin.now, ?_⟩
  show s.clients.set number _ = t.clients.set number _
  rw [htwin.clients]
  exact congrArg (fun cursor => t.clients.set number { client with cursor }) hcursor

/-- A step on twins is answered alike and leaves twins, unless a quota stops it. -/
theorem Twin.step (htwin : s.Twin t nodes) {step : Step} (hplain : step.plain = true)
    (hfree : ∀ answer ∈ (s.answer? step).toList ++ (t.answer? step).toList, ¬ Bitten answer) :
    s.Alike t step := by
  cases step with
  | start seeded options =>
      exact htwin.start seeded options (hfree _ (by simp [answer?])) (hfree _ (by simp [answer?]))
  | operate number operation =>
      cases hclient : s.clients[number]? with
      | none =>
          have hclient' : t.clients[number]? = none := by rw [← htwin.clients, hclient]
          rw [Alike, answer?, answer?, Shared.step, Shared.step, hclient, hclient']
          exact ⟨rfl, nodes, htwin⟩
      | some client =>
          have hclient' : t.clients[number]? = some client := by rw [← htwin.clients, hclient]
          refine htwin.operate hclient ?_ (hfree _ (by simp [answer?, hclient]))
            (hfree _ (by simp [answer?, hclient']))
          rintro rfl
          cases hplain
  | refuse on => cases hplain
  | change medium => cases hplain
  | tick now =>
      exact ⟨rfl, nodes, htwin.left, htwin.right, htwin.soundLeft, htwin.soundRight, rfl,
        htwin.clients⟩

theorem Twin.run {nodes : SortedMap String Node} (htwin : s.Twin t nodes)
    {script : List (Nat × Step)} (hplain : ∀ entry ∈ script, entry.2.plain = true)
    (hfree : ∀ answer ∈ s.answers (script.map (·.2)) ++ t.answers (measured script),
      ¬ Bitten answer) :
    s.answers (script.map (·.2)) = t.answers (measured script) ∧
      (s.run (script.map (·.2))).clients = (t.run (measured script)).clients := by
  induction script generalizing s t nodes with
  | nil => exact ⟨rfl, htwin.clients⟩
  | cons entry script ih =>
      obtain ⟨used, step⟩ := entry
      have hmeasured := htwin.measure used
      generalize ht' : t.step (.change ⟨none, some used⟩) = t' at hmeasured
      have hright : t.answers (measured ((used, step) :: script)) =
          (t'.answer? step).toList ++ (t'.step step).answers (measured script) := by
        rw [← ht']
        rfl
      have hrun : t.run (measured ((used, step) :: script)) =
          (t'.step step).run (measured script) := by
        rw [← ht']
        rfl
      rw [hright] at hfree ⊢
      rw [hrun]
      rw [List.map_cons, answers] at hfree ⊢
      have hstep : s.Alike t' step := by
        refine hmeasured.step (hplain (used, step) List.mem_cons_self) fun answer hanswer => ?_
        refine hfree answer ?_
        simp only [List.mem_append] at hanswer ⊢
        exact hanswer.imp .inl .inl
      obtain ⟨hsame, nodes', hnext⟩ := hstep
      have hrest := ih hnext (fun entry hentry => hplain entry (List.mem_cons_of_mem _ hentry))
        fun answer hanswer => hfree answer (by
          simp only [List.mem_append] at hanswer ⊢
          exact hanswer.imp .inr .inr)
      refine ⟨?_, hrest.2⟩
      rw [hsame, hrest.1]

theorem twin_fresh (now : Timestamp) : (fresh .memory now).Twin (fresh .durable now) .empty :=
  ⟨⟨Store.holds_empty .memory, rfl⟩, ⟨Store.holds_empty .durable, rfl⟩, rfl, rfl, rfl, rfl⟩

/-- Whatever commits are made, and however often the durable store is opened again in its directory,
both kinds of stores find the same under every path and below every path. And whatever sessions do
that share a store, on either kind they are given the same answers and stand at the same cursors, if
they do not ask for the bytes in use, writes are not refused, and no quota stops them, whatever the
durable store says that it uses. -/
theorem backends_agree {disk : Disk} {directory : String}
    (hdirectory : disk.leadsToDirectory directory = true) :
    (∀ steps : List StoreStep, ∃ memory durable,
      (Store.empty .memory).takeAll disk directory steps = .ok memory ∧
      (Store.empty .durable).takeAll disk directory steps = .ok durable ∧
      ∀ path, memory.get path = durable.get path ∧ memory.children path = durable.children path) ∧
    ∀ (now : Timestamp) (script : List (Nat × Step)),
      (∀ entry ∈ script, entry.2.plain = true) →
      (∀ answer ∈ (fresh .memory now).answers (script.map (·.2)) ++
        (fresh .durable now).answers (measured script), ¬ Bitten answer) →
      (fresh .memory now).answers (script.map (·.2)) =
          (fresh .durable now).answers (measured script) ∧
        ((fresh .memory now).run (script.map (·.2))).clients =
          ((fresh .durable now).run (measured script)).clients := by
  refine ⟨fun steps => ?_, fun now script hplain hfree => (twin_fresh now).run hplain hfree⟩
  have hleft : (Store.empty .memory).Serves .empty := ⟨Store.holds_empty .memory, rfl⟩
  have hright : (Store.empty .durable).Serves .empty := ⟨Store.holds_empty .durable, rfl⟩
  obtain ⟨memory, hmemory, hservesLeft⟩ := hleft.takeAll hdirectory steps
  obtain ⟨durable, hdurable, hservesRight⟩ := hright.takeAll hdirectory steps
  refine ⟨memory, durable, hmemory, hdurable, fun path => ⟨?_, ?_⟩⟩
  · rw [hservesLeft.holds.get, hservesRight.holds.get]
  · rw [hservesLeft.holds.children, hservesRight.holds.children]

/-- A disk with one directory. -/
def plainDisk : Disk :=
  { Disk.empty [] with root := .directory [("store", .directory [])] }

/-- A session starts, makes a directory, goes there and puts a file into it, while the bytes in use
go up and down. -/
def measuredScript : List (Nat × Step) :=
  [(0, .start false ⟨defaultQuotaBytes, true⟩), (600, .operate 0 (.createDirectory "a")),
    (100, .tick 5), (100, .operate 0 (.changeDirectory "a")),
    (700, .operate 0 (.createFile "b" "text"))]

theorem backends_agree_measuredScript :
    plainDisk.leadsToDirectory "/store" = true ∧
    (fresh .memory 0).answers (measuredScript.map (·.2)) =
      (fresh .durable 0).answers (measured measuredScript) ∧
    ((fresh .memory 0).run (measuredScript.map (·.2))).clients =
      ((fresh .durable 0).run (measured measuredScript)).clients := by
  have hdirectory : plainDisk.leadsToDirectory "/store" = true := by decide +kernel
  exact ⟨hdirectory, (backends_agree hdirectory).2 0 measuredScript (by decide +kernel)
    (by decide +kernel)⟩

end Shared
end VirtualShell
