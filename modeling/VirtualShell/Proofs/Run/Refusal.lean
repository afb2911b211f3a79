import VirtualShell.Proofs.Run.Quota
import VirtualShell.Proofs.Session.Creation

/-!
# What a quota refuses

The check adds the stored text of a node to the bytes in use, and does not take off the text that
the node replaces.  So it refuses nothing new that would fit.  But where a file is written again it
refuses whatever would fit by less than the old text, even if less is stored than before.
-/

namespace VirtualShell

open Contents (Plantable)

namespace Operation

theorem exists_raw_of_creates {operation : Operation} (hcreates : operation.creates = true) :
    ∃ raw, (∃ content, operation = .createFile raw content) ∨ operation = .touch raw ∨
      operation = .createDirectory raw := by
  cases operation with
  | createFile raw content => exact ⟨raw, .inl ⟨content, rfl⟩⟩
  | touch raw => exact ⟨raw, .inr (.inl rfl)⟩
  | createDirectory raw => exact ⟨raw, .inr (.inr rfl)⟩
  | _ => cases hcreates

/-- What is accepted where no directory stands can be put there. -/
theorem Accepts.plantable {operation : Operation} {nodes : Contents} {path : String} {node : Node}
    {now : Timestamp} (haccepts : operation.Accepts nodes path)
    (hfree : nodes.kind? path ≠ some .directory) (hpath : Path.Canonical path)
    (hedit : operation.edit now path (nodes.find? path) = .put node) :
    node.path = path ∧ ∃ parent, Plantable nodes node parent := by
  have hwanted : operation.wants (nodes.find? path) = true ∧ nodes.houses path = true := by
    cases operation with
    | createFile raw content => exact ⟨decide_eq_true hfree, haccepts.2.2⟩
    | touch raw => exact ⟨decide_eq_true hfree, (haccepts.resolve_left hfree).2.2⟩
    | createDirectory raw =>
        obtain ⟨-, hnone, hhouses⟩ := haccepts.resolve_left hfree
        exact ⟨Option.isNone_iff_eq_none.mpr hnone, hhouses⟩
    | _ => cases haccepts
  have hput := edit?_of_wants operation now hwanted.1 hwanted.2
  rw [hedit] at hput
  obtain ⟨parent, -, hfits⟩ := exists_fits hpath hput
  cases hfits with
  | put hnode hplant => exact ⟨hnode, parent, hplant⟩

variable {operation : Operation} {s : Scene} {m : MemoryStore} {raw path : String}

/-- The quota only decides whether a node is put, not which one. -/
theorem play_perform_creates (hcreates : (∃ content, operation = .createFile raw content) ∨
      operation = .touch raw ∨ operation = .createDirectory raw)
    (hs : s.store = .memory m) (htree : Contents.Tree m.nodes) (hrefusal : s.refusal = none)
    (hused : s.medium.used = none) (hpath : Path.Canonical path)
    (hresolve : Path.resolve raw s.cursor = .ok path) :
    (∃ answer, ∀ options, (operation.perform options).play s = (.ok (.truth answer), s)) ∨
      ∃ node parent, Plantable m.nodes node parent ∧ ∀ options,
        (operation.perform options).play s =
          if options.quotaBytes < m.usage + node.encode.utf8ByteSize then
            (.error (.quotaExceeded m.usage options.quotaBytes), s)
          else
            (.ok (.truth true),
              { s with store := .memory { m with nodes := Contents.plant m.nodes node } }) := by
  have hkeyed : MemoryStore.Keyed m.nodes := fun hfind => htree.path_eq hfind
  have hsame : { s with store := .memory m } = s := by rw [← hs]
  have houtcome (options : SessionOptions) := Session.exists_creates options hs hkeyed hrefusal
    hused hpath hcreates hresolve
  by_cases haccepts : operation.Accepts m.nodes path
  · by_cases hstands : Contents.kind? m.nodes path = some .directory
    · refine .inl ⟨true, fun options => ?_⟩
      obtain ⟨node, -, reply, m', hplay, hcreation⟩ := houtcome options
      cases hcreation with
      | standing => rw [hplay, hsame]
      | rejected hrejected => exact absurd haccepts hrejected
      | overQuota _ hfree | done _ hfree => exact absurd hstands hfree
    · obtain ⟨node, hedit, -⟩ := houtcome ⟨0, false⟩
      obtain ⟨hnode, parent, hplant⟩ := haccepts.plantable hstands hpath hedit
      have habove := htree.find?_directory hplant.directory
      refine .inr ⟨node, parent, hplant, fun options => ?_⟩
      obtain ⟨node', hedit', reply, m', hplay, hcreation⟩ := houtcome options
      obtain rfl : node = node' := Edit.put.inj (hedit.symm.trans hedit')
      cases hcreation with
      | rejected hrejected => exact absurd haccepts hrejected
      | standing _ hdirectory => exact absurd hdirectory hstands
      | overQuota _ _ hquota => rw [hplay, hsame, if_pos hquota]
      | @done _ _ hquota nodes' hfind =>
          have hplanted : nodes' = Contents.plant m.nodes node := by
            rw [Contents.plant_eq_foldl hplant.parent_eq habove]
            refine SortedMap.ext_find? fun key => ?_
            rw [hfind, ← hnode,
              Contents.find?_insertion_relist hplant.canonical hplant.parent_eq habove]
          rw [hplay, hplanted, if_neg (Nat.not_lt_of_le hquota)]
  · refine .inl ⟨false, fun options => ?_⟩
    obtain ⟨node, -, reply, m', hplay, hcreation⟩ := houtcome options
    cases hcreation with
    | rejected => rw [hplay, hsame]
    | standing haccepted | overQuota haccepted | done haccepted => exact absurd haccepted haccepts

end Operation

namespace Shared

variable {s : Shared} {nodes : Contents} {client : Client} {operation : Operation}

/-- What is asked of a session comes to what it comes to on the scene. -/
theorem request_of_play {cursor : String} {options : SessionOptions}
    {result : Except StorageError Reply} {scene : Scene}
    (hplay : (operation.perform options).play (s.scene cursor) = (result, scene)) :
    (s.request cursor options (.operate operation)).1 = result ∧
      (s.request cursor options (.operate operation)).2.store = scene.store := by
  have hresult := (operation.perform options).result_run s.medium (s.world cursor)
  have hscene := (operation.perform options).scene_run s.medium (s.world cursor)
  exact ⟨hresult.trans (congrArg Prod.fst hplay),
    congrArg Scene.store (hscene.trans (congrArg Prod.snd hplay))⟩

/-- An operation would put a node and leave a grown store.  What would then be in use, with the
text that is replaced and without the overhead of the path, is held against the quota. -/
structure Weighs (s : Shared) (cursor : String) (operation : Operation) (nodes : Contents)
    (node : Node) (grown : Store) : Prop where
  holds : s.store.Holds nodes
  get : grown.get node.path = .ok (some node)
  usage : grown.usage + nodes.recordSize node.path =
    s.store.usage + node.encode.utf8ByteSize + nodes.overhead node.path
  refused (options : SessionOptions) (hquota : options.quotaBytes + nodes.overhead node.path <
      grown.usage + nodes.recordSize node.path) :
    (s.request cursor options (.operate operation)).1 =
        .error (.quotaExceeded s.store.usage options.quotaBytes) ∧
      (s.request cursor options (.operate operation)).2.store = s.store
  allowed (options : SessionOptions) (hquota : grown.usage + nodes.recordSize node.path ≤
      options.quotaBytes + nodes.overhead node.path) :
    (s.request cursor options (.operate operation)).1 = .ok (.truth true) ∧
      (s.request cursor options (.operate operation)).2.store = grown

/-- Something new that fits is put. -/
theorem Weighs.allowed_of_new {cursor : String} {node : Node} {grown : Store}
    (hweighs : s.Weighs cursor operation nodes node grown) (hnew : nodes.find? node.path = none)
    {options : SessionOptions} (hfits : grown.usage ≤ options.quotaBytes) :
    (s.request cursor options (.operate operation)).1 = .ok (.truth true) := by
  refine (hweighs.allowed options ?_).1
  have hnothing : nodes.recordSize node.path = 0 := by
    rw [Contents.recordSize, hnew]
    rfl
  omega

/-- What is written again has to fit together with the old text. -/
theorem Weighs.allowed_iff_of_stored {cursor : String} {node old : Node} {grown : Store}
    (hweighs : s.Weighs cursor operation nodes node grown)
    (hold : nodes.find? node.path = some old) (options : SessionOptions) :
    (s.request cursor options (.operate operation)).1 = .ok (.truth true) ↔
      grown.usage + old.encode.utf8ByteSize ≤ options.quotaBytes := by
  have hsize : nodes.recordSize node.path = old.encode.utf8ByteSize := by
    rw [Contents.recordSize, hold]
    rfl
  have hstored : nodes.overhead node.path = 0 := by
    rw [Contents.overhead, hold]
    rfl
  constructor
  · intro hdone
    by_contra hlarge
    have hrefused := (hweighs.refused options (by omega)).1
    rw [hdone] at hrefused
    cases hrefused
  · exact fun hfits => (hweighs.allowed options (by omega)).1

/-- An operation of a session on a store in memory, if it brings something into the store, either
does nothing under any quota, or is weighed against it. -/
theorem Sound.weighs (hsound : s.Sound nodes) (hmemory : s.store.backend = .memory)
    (hused : s.medium.used = none) (hclient : client ∈ s.clients)
    (hcreates : operation.creates = true) (hrefusal : (s.scene client.cursor).refusal = none) :
    (∃ answer, ∀ options,
      (s.request client.cursor options (.operate operation)).1 = .ok (.truth answer) ∧
        (s.request client.cursor options (.operate operation)).2.store = s.store) ∨
      ∃ node grown, s.Weighs client.cursor operation nodes node grown := by
  obtain ⟨raw, hraw⟩ := Operation.exists_raw_of_creates hcreates
  cases hresolve : Path.resolve raw client.cursor with
  | error e =>
      exact .inl ⟨false, fun options => request_of_play
        (Session.play_perform_of_malformed (s := s.scene client.cursor) options hraw hresolve)⟩
  | ok path =>
      cases hstore : s.store with
      | durable d =>
          rw [hstore] at hmemory
          cases hmemory
      | memory m =>
          obtain rfl : m.nodes = nodes := by
            have hholds := hsound.holds
            rw [hstore] at hholds
            exact hholds
          rcases Operation.play_perform_creates (s := s.scene client.cursor) hraw hstore
            hsound.tree hrefusal hused ((hsound.canonical hclient).of_resolve hresolve) hresolve
            with ⟨answer, hplay⟩ | ⟨node, parent, hplant, hplay⟩
          · refine .inl ⟨answer, fun options => ?_⟩
            rw [← hstore]
            exact request_of_play (hplay options)
          · right
            have husage : (Contents.plant m.nodes node).usage +
                  Contents.recordSize m.nodes node.path =
                m.usage + node.encode.utf8ByteSize + Contents.overhead m.nodes node.path :=
              Contents.usage_plant hsound.tree hplant
            have hfind := Contents.find?_plant hsound.tree hplant node.path
            rw [if_pos rfl] at hfind
            refine ⟨node, .memory { m with nodes := Contents.plant m.nodes node },
              hstore ▸ hsound.holds, congrArg Except.ok hfind, ?_, ?_, ?_⟩
            · rw [hstore]
              exact husage
            · intro options hquota
              have hlarge := Nat.lt_of_add_lt_add_right (hquota.trans_eq husage)
              have hbytes : m.usage = s.store.usage := by
                rw [hstore]
                rfl
              have hasked := hplay options
              rw [if_pos hlarge, hbytes] at hasked
              exact request_of_play hasked
            · intro options hquota
              have hsmall := Nat.le_of_add_le_add_right (husage.symm.trans_le hquota)
              have hasked := hplay options
              rw [if_neg (Nat.not_lt_of_le hsmall)] at hasked
              exact request_of_play hasked

/-- After any run on a store in memory, and while commits are made, an operation that brings
something into the store either does nothing under any quota, or would put a node and leave a store
with so many bytes in use.  If there is something under the path of the node, it is put if the
quota holds what would be in use together with the text that is replaced, and refused otherwise; if
there is nothing, it is put whenever the quota holds what would be in use. -/
theorem refusal_exact {now : Timestamp} {steps : List Step} {number : Nat}
    (hsteps : ∀ step ∈ steps, step.honest = true) (hrun : (fresh .memory now).run steps = s)
    (hclient : s.clients[number]? = some client) (hcreates : operation.creates = true)
    (hrefusal : (s.scene client.cursor).refusal = none) :
    (∃ answer, ∀ options,
      (s.request client.cursor options (.operate operation)).1 = .ok (.truth answer) ∧
        (s.request client.cursor options (.operate operation)).2.store = s.store) ∨
      ∃ nodes node grown, s.Weighs client.cursor operation nodes node grown ∧ ∀ options,
        (nodes.find? node.path = none → grown.usage ≤ options.quotaBytes →
          (s.request client.cursor options (.operate operation)).1 = .ok (.truth true)) ∧
        ∀ old, nodes.find? node.path = some old →
          ((s.request client.cursor options (.operate operation)).1 = .ok (.truth true) ↔
            grown.usage + old.encode.utf8ByteSize ≤ options.quotaBytes) := by
  subst hrun
  have hmember := List.mem_of_getElem? hclient
  obtain ⟨nodes, hsound⟩ := sound_run .memory now (List.ne_nil_of_mem hmember)
  have hmemory : ((fresh .memory now).run steps).store.backend = .memory :=
    backend_run (fresh .memory now) steps
  have hused : ((fresh .memory now).run steps).medium.used = none :=
    used_run (s := fresh .memory now) hsteps rfl
  rcases hsound.weighs hmemory hused hmember hcreates hrefusal with hidle | ⟨node, grown, hweighs⟩
  · exact .inl hidle
  · exact .inr ⟨nodes, node, grown, hweighs, fun options =>
      ⟨fun hnew hfits => hweighs.allowed_of_new hnew hfits,
        fun old hold => hweighs.allowed_iff_of_stored hold options⟩⟩

/-- A session with a quota of two hundred bytes has written a file, and uses a hundred and
fifty-eight of them. -/
def snugRun : List Step :=
  [.start false ⟨200, false⟩, .operate 0 (.createFile "a" "hello")]

/-- The store after the file was written. -/
def snug : Shared :=
  (fresh .memory 1700000000000).run snugRun

/-- Under a wider quota the file is emptied, and takes five bytes less.  Under this one it is not,
because its old text is counted too. -/
theorem refusal_exact_snugRun :
    ∃ nodes node grown, snug.Weighs "~" (.touch "a") nodes node grown ∧ grown.usage = 153 ∧
      200 + nodes.overhead node.path < grown.usage + nodes.recordSize node.path := by
  have hsteps : ∀ step ∈ snugRun, step.honest = true := by decide
  have hcreates : (Operation.touch "a").creates = true := rfl
  have hrun : (fresh .memory 1700000000000).run snugRun = snug := rfl
  -- one evaluation for all that is to be known of the store
  have hsnug : snug.clients[0]? = some ⟨"~", ⟨200, false⟩⟩ ∧ (snug.scene "~").refusal = none ∧
      (snug.request "~" ⟨200, false⟩ (.operate (.touch "a"))).1 =
        .error (.quotaExceeded 158 200) ∧
      (snug.request "~" ⟨1000, false⟩ (.operate (.touch "a"))).1 = .ok (.truth true) ∧
      (snug.request "~" ⟨1000, false⟩ (.operate (.touch "a"))).2.store.usage = 153 := by
    decide +kernel
  obtain ⟨hclient, hrefusal, hbitten, hdone, husage⟩ := hsnug
  rcases refusal_exact hsteps hrun hclient hcreates hrefusal with
    ⟨answer, hidle⟩ | ⟨nodes, node, grown, hweighs, -⟩
  · cases hbitten.symm.trans (hidle ⟨200, false⟩).1
  · replace hweighs : snug.Weighs "~" (.touch "a") nodes node grown := hweighs
    refine ⟨nodes, node, grown, hweighs, ?_, Nat.lt_of_not_le fun hfits => ?_⟩
    · have hfits : grown.usage + nodes.recordSize node.path ≤ 1000 + nodes.overhead node.path := by
        refine Nat.le_of_not_lt fun hlarge => ?_
        cases hdone.symm.trans (hweighs.refused ⟨1000, false⟩ hlarge).1
      rw [← (hweighs.allowed ⟨1000, false⟩ hfits).2, husage]
    · cases hbitten.symm.trans (hweighs.allowed ⟨200, false⟩ hfits).1

/-- The file is not emptied, although less would be in use afterwards than is now, and that is not
much. -/
theorem refused_within_quota :
    snug.answer? (.operate 0 (.touch "a")) = some (.error (.quotaExceeded 158 200)) ∧
      (snug.scene "~").refusal = none ∧ snug.store.usage = 158 ∧
      (snug.request "~" ⟨1000, false⟩ (.operate (.touch "a"))).1 = .ok (.truth true) ∧
      (snug.request "~" ⟨1000, false⟩ (.operate (.touch "a"))).2.store.usage = 153 := by
  decide +kernel

end Shared
end VirtualShell
