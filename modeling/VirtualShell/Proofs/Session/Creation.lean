import VirtualShell.Proofs.Session.Verdict

/-!
# What a creation comes to

Writing a file, touching one and making a directory look for a directory above the path and at what
is there already.  From these two, and from the quota, it follows what they answer and what a store
in memory then keeps.  The names that the directories list need not be those of what is stored.
-/

namespace VirtualShell

open Contents (enlist)

/-! ### The outcome -/

/-- Whether a file can be written under a path. -/
def Contents.AdmitsFile (nodes : Contents) (path : String) : Prop :=
  path ≠ Path.root ∧ nodes.kind? path ≠ some .directory ∧ nodes.houses path = true

/-- Whether something can be created under a path, or need not be. -/
def Operation.Accepts (nodes : Contents) (path : String) : Operation → Prop
  | .createFile _ _ => nodes.AdmitsFile path
  | .touch _ => nodes.kind? path = some .directory ∨ nodes.AdmitsFile path
  | .createDirectory _ => nodes.kind? path = some .directory ∨
      (path ≠ Path.root ∧ nodes.find? path = none ∧ nodes.houses path = true)
  | _ => False

/-- What is answered, and what a store in memory then keeps, when an operation is to create a node
under a path. -/
inductive Operation.Creation (options : SessionOptions) (operation : Operation) (s : MemoryStore)
    (path : String) (node : Node) : Except StorageError Reply → MemoryStore → Prop
  | rejected (hrejected : ¬ operation.Accepts s.nodes path) :
      Creation options operation s path node (.ok (.truth false)) s
  | standing (haccepts : operation.Accepts s.nodes path)
      (hstands : Contents.kind? s.nodes path = some .directory) :
      Creation options operation s path node (.ok (.truth true)) s
  | overQuota (haccepts : operation.Accepts s.nodes path)
      (hfree : Contents.kind? s.nodes path ≠ some .directory)
      (hquota : options.quotaBytes < s.usage + node.encode.utf8ByteSize) :
      Creation options operation s path node
        (.error (.quotaExceeded s.usage options.quotaBytes)) s
  | done (haccepts : operation.Accepts s.nodes path)
      (hfree : Contents.kind? s.nodes path ≠ some .directory)
      (hquota : s.usage + node.encode.utf8ByteSize ≤ options.quotaBytes) {nodes' : Contents}
      (hfind : ∀ key, nodes'.find? key =
        if key = path then some node
        else if Path.parent? path = some key then
          (s.nodes.find? key).map (Node.relist (enlist · (Path.name path)))
        else s.nodes.find? key) :
      Creation options operation s path node (.ok (.truth true)) { s with nodes := nodes' }

/-- There is one outcome only. -/
theorem Operation.Creation.unique {options : SessionOptions} {operation : Operation}
    {s s₁ s₂ : MemoryStore} {path : String} {node : Node}
    {reply₁ reply₂ : Except StorageError Reply}
    (h₁ : operation.Creation options s path node reply₁ s₁)
    (h₂ : operation.Creation options s path node reply₂ s₂) : reply₁ = reply₂ ∧ s₁ = s₂ := by
  cases h₁ with
  | rejected hrejected =>
      cases h₂ with
      | rejected => exact ⟨rfl, rfl⟩
      | standing haccepts | overQuota haccepts | done haccepts => exact absurd haccepts hrejected
  | standing haccepts hstands =>
      cases h₂ with
      | rejected hrejected => exact absurd haccepts hrejected
      | standing => exact ⟨rfl, rfl⟩
      | overQuota _ hfree | done _ hfree => exact absurd hstands hfree
  | overQuota haccepts hfree hquota =>
      cases h₂ with
      | rejected hrejected => exact absurd haccepts hrejected
      | standing _ hstands => exact absurd hstands hfree
      | overQuota => exact ⟨rfl, rfl⟩
      | done _ _ hquota' => omega
  | done haccepts hfree hquota hfind =>
      cases h₂ with
      | rejected hrejected => exact absurd haccepts hrejected
      | standing _ hstands => exact absurd hstands hfree
      | overQuota _ _ hquota' => omega
      | done _ _ _ hfind' =>
          have hnodes := SortedMap.ext_find? fun key => (hfind key).trans (hfind' key).symm
          rw [hnodes]
          exact ⟨rfl, rfl⟩

/-- What is found after a node was put below a directory that knows its path. -/
theorem Contents.find?_insertion_relist {nodes : Contents} {node : Node}
    (hpath : Path.Canonical node.path) {parent name : String} {children : List String}
    (hparent : Path.parent? node.path = some parent)
    (habove : nodes.find? parent = some (.directory parent name children)) (key : String) :
    ((Session.insertion node (Path.name node.path) parent name children).foldl
        MemoryStore.applyChange nodes).find? key =
      if key = node.path then some node
      else if Path.parent? node.path = some key then
        (nodes.find? key).map (Node.relist (enlist · (Path.name node.path)))
      else nodes.find? key := by
  obtain ⟨-, -, hjoin⟩ := hpath.of_parent? hparent
  have hne : parent ≠ node.path := by
    rw [hjoin]
    exact Path.join_ne_self.symm
  rw [find?_insertion hne habove]
  by_cases hkey : key = parent
  · subst hkey
    simp [hparent, habove, Node.relist]
  · simp [hparent, hkey, Ne.symm hkey]

/-! ### Operations -/

/-- An operation has the outcome in a scene. -/
def Operation.Creates (options : SessionOptions) (operation : Operation) (s : Scene)
    (m : MemoryStore) (path : String) (node : Node) : Prop :=
  ∃ reply m', (operation.perform options).play s = (reply, { s with store := .memory m' }) ∧
    operation.Creation options m path node reply m'

namespace Session

variable (options : SessionOptions) {operation : Operation} {action : Action Bool} {s : Scene}
  {m : MemoryStore} {raw path : String} {node : Node}
  (hperform : operation.perform options = do return Reply.truth (← action))

include hperform

theorem creates_of_play {result : Except StorageError Bool} {reply : Except StorageError Reply}
    {m' : MemoryStore} (hplay : action.play s = (result, { s with store := .memory m' }))
    (hreply : result.map Reply.truth = reply)
    (hcreation : operation.Creation options m path node reply m') :
    operation.Creates options s m path node := by
  refine ⟨reply, m', ?_, hcreation⟩
  rw [hperform, play_truth hplay, hreply]

variable (hs : s.store = .memory m)

include hs

/-- What leaves the scene as it was changes nothing. -/
theorem creates_of_play_same {result : Except StorageError Bool} {reply : Except StorageError Reply}
    (hplay : action.play s = (result, s)) (hreply : result.map Reply.truth = reply)
    (hcreation : operation.Creation options m path node reply m) :
    operation.Creates options s m path node :=
  creates_of_play options hperform (by rw [hplay, ← hs]) hreply hcreation

variable (hkeyed : MemoryStore.Keyed m.nodes) (hrefusal : s.refusal = none)
  (hused : s.medium.used = none)

include hkeyed hrefusal hused

/-- What is put under a path is put if there is a directory above and the quota allows it. -/
theorem creates_of_insert (hpath : Path.Canonical path) (hnode : node.path = path)
    (hfree : Contents.kind? m.nodes path ≠ some .directory)
    (haccepts : operation.Accepts m.nodes path ↔
      path ≠ Path.root ∧ Contents.houses m.nodes path = true)
    (hplay : action.play s = (insert options path node).play s) :
    operation.Creates options s m path node := by
  have hshows : s.store.Shows m.nodes := hs ▸ Store.shows_memory m
  cases hhouses : Contents.houses m.nodes path with
  | false =>
      have hnowhere : (Path.parent? path).bind (Contents.kind? m.nodes) ≠ some .directory :=
        of_decide_eq_false hhouses
      refine creates_of_play_same options hperform hs
        (hplay.trans (play_insert_nowhere options hshows node hnowhere)) rfl (.rejected ?_)
      rw [haccepts, hhouses]
      simp
  | true =>
      obtain ⟨parent, hparent, hdirectory⟩ := Contents.houses_iff.mp hhouses
      obtain ⟨above, habove, hkind⟩ := Option.map_eq_some_iff.mp hdirectory
      have haccepted : operation.Accepts m.nodes path := by
        refine haccepts.mpr ⟨?_, hhouses⟩
        rintro rfl
        cases hparent
      cases above with
      | file own content created modified => cases hkind
      | directory own name children =>
          -- the directory knows its path, so that it is written back where it was found
          obtain rfl : own = parent := hkeyed habove
          have hinsert := play_insert options hshows hrefusal node hparent habove
          rw [hused, Option.getD_none, show s.store.usage = m.usage by rw [hs]; rfl] at hinsert
          by_cases hquota : options.quotaBytes < m.usage + node.encode.utf8ByteSize
          · rw [if_pos hquota] at hinsert
            exact creates_of_play_same options hperform hs (hplay.trans hinsert) rfl
              (.overQuota haccepted hfree hquota)
          · rw [if_neg hquota, hs, Store.foldl_apply_memory] at hinsert
            subst hnode
            exact creates_of_play options hperform (hplay.trans hinsert) rfl
              (.done haccepted hfree (Nat.le_of_not_lt hquota)
                (Contents.find?_insertion_relist hpath hparent habove))

omit hperform

variable (hpath : Path.Canonical path) (hresolve : Path.resolve raw s.cursor = .ok path)

include hpath hresolve

theorem createFile_creates (content : String) :
    (Operation.createFile raw content).Creates options s m path
      (.file path content (createdAt (m.nodes.find? path) s.now) s.now) := by
  have hshows : s.store.Shows m.nodes := hs ▸ Store.shows_memory m
  have hplay := play_createFile options hshows content hresolve
  by_cases hkind : Contents.kind? m.nodes path = some .directory
  · rw [if_pos hkind] at hplay
    exact creates_of_play_same options rfl hs hplay rfl
      (.rejected fun haccepts => haccepts.2.1 hkind)
  · rw [if_neg hkind] at hplay
    refine creates_of_insert options rfl hs hkeyed hrefusal hused hpath rfl hkind ?_ hplay
    exact and_congr_right fun _ => and_iff_right hkind

theorem touch_creates :
    (Operation.touch raw).Creates options s m path
      (.file path "" (createdAt (m.nodes.find? path) s.now) s.now) := by
  have hshows : s.store.Shows m.nodes := hs ▸ Store.shows_memory m
  have hplay := play_touch options hshows hpath hresolve
  by_cases hkind : Contents.kind? m.nodes path = some .directory
  · rw [if_pos hkind] at hplay
    exact creates_of_play_same options rfl hs hplay rfl (.standing (.inl hkind) hkind)
  · rw [if_neg hkind] at hplay
    refine creates_of_insert options rfl hs hkeyed hrefusal hused hpath rfl hkind ?_ hplay
    rw [Operation.Accepts, or_iff_right hkind]
    exact and_congr_right fun _ => and_iff_right hkind

theorem createDirectory_creates :
    (Operation.createDirectory raw).Creates options s m path
      (.emptyDirectory path (Path.name path)) := by
  have hshows : s.store.Shows m.nodes := hs ▸ Store.shows_memory m
  have hplay := play_createDirectory options hshows hresolve
  cases hkind : Contents.kind? m.nodes path with
  | none =>
      have hfind : m.nodes.find? path = none := Option.map_eq_none_iff.mp hkind
      rw [hkind] at hplay
      have hfree : Contents.kind? m.nodes path ≠ some .directory := by
        rw [hkind]
        simp
      refine creates_of_insert options rfl hs hkeyed hrefusal hused hpath rfl hfree ?_ hplay
      rw [Operation.Accepts, or_iff_right hfree]
      exact and_congr_right fun _ => and_iff_right hfind
  | some kind =>
      rw [hkind] at hplay
      cases kind with
      | directory =>
          exact creates_of_play_same options rfl hs hplay rfl (.standing (.inl hkind) hkind)
      | file =>
          refine creates_of_play_same options rfl hs hplay rfl (.rejected ?_)
          rintro (hdirectory | ⟨-, hnone, -⟩)
          · rw [hkind] at hdirectory
            cases hdirectory
          · rw [Contents.kind?, hnone] at hkind
            cases hkind

omit hresolve

/-- Each of the three operations puts its node as the outcome says. -/
theorem exists_creates
    (hcreates : (∃ content, operation = .createFile raw content) ∨ operation = .touch raw ∨
      operation = .createDirectory raw) (hresolve : Path.resolve raw s.cursor = .ok path) :
    ∃ node, operation.edit s.now path (m.nodes.find? path) = .put node ∧
      operation.Creates options s m path node := by
  rcases hcreates with ⟨content, rfl⟩ | rfl | rfl
  · exact ⟨_, rfl, createFile_creates options hs hkeyed hrefusal hused hpath hresolve content⟩
  · exact ⟨_, rfl, touch_creates options hs hkeyed hrefusal hused hpath hresolve⟩
  · exact ⟨_, rfl, createDirectory_creates options hs hkeyed hrefusal hused hpath hresolve⟩

omit hs hkeyed hrefusal hused hpath

theorem play_perform_of_malformed
    (hcreates : (∃ content, operation = .createFile raw content) ∨ operation = .touch raw ∨
      operation = .createDirectory raw) {e : PathError}
    (hresolve : Path.resolve raw s.cursor = .error e) :
    (operation.perform options).play s = (.ok (.truth false), s) := by
  rcases hcreates with ⟨content, rfl⟩ | rfl | rfl
  · have hplay : (createFile options raw content).play s = (.ok false, s) :=
      play_of_malformed rfl hresolve
    exact play_truth hplay
  · have hplay : (touch options raw).play s = (.ok false, s) := play_of_malformed rfl hresolve
    exact play_truth hplay
  · have hplay : (createDirectory options raw).play s = (.ok false, s) :=
      play_of_malformed rfl hresolve
    exact play_truth hplay

end Session

/-- A file, an empty file or a directory is created as the outcome says, on whatever commits have
written to a store in memory.  What names no path is refused, and the cursor stays. -/
theorem Operation.creation_exact {changes : List Change} {s : MemoryStore}
    (hwritten : MemoryStore.empty.commit changes = .ok s) {w : World}
    (hstore : w.store = .memory s) (hcursor : Path.Canonical w.cursor) (options : SessionOptions)
    {operation : Operation} {raw : String}
    (hcreates : (∃ content, operation = .createFile raw content) ∨ operation = .touch raw ∨
      operation = .createDirectory raw) :
    ((operation.perform options).run w).2.cursor = w.cursor ∧
    ((∃ c ∈ raw.toList, Text.isControl c = true) →
      ((operation.perform options).run w).1 = .ok (.truth false) ∧
        ((operation.perform options).run w).2.store = .memory s) ∧
    ((∀ c ∈ raw.toList, Text.isControl c = false) →
      ∃ path node s', Path.resolve raw w.cursor = .ok path ∧
        operation.edit w.now path (s.nodes.find? path) = .put node ∧
        ((operation.perform options).run w).2.store = .memory s' ∧
        operation.Creation options s path node ((operation.perform options).run w).1 s') := by
  obtain ⟨hwrites, hkeyed⟩ := MemoryStore.exists_commit_iff.mp ⟨changes, hwritten⟩
  have hs : (w.scene .intact).store = .memory s := hstore
  have hused : (w.scene .intact).medium.used = none := rfl
  have hrefusal : (w.scene .intact).refusal = none := by
    rw [w.refusal_scene rfl, hstore, Store.refuses, hwrites]
    rfl
  cases hresolve : Path.resolve raw w.cursor with
  | error e =>
      obtain ⟨c, hc, hcontrol⟩ := List.any_eq_true.mp (Path.resolve_eq_error_iff.mp hresolve).1
      obtain ⟨hreply, hsame, hstays⟩ := Action.run_of_play
        (Session.play_perform_of_malformed (s := w.scene .intact) options hcreates hresolve)
      refine ⟨hstays, fun _ => ⟨hreply, hsame.trans hstore⟩, fun hnone => ?_⟩
      rw [hnone c hc] at hcontrol
      cases hcontrol
  | ok path =>
      obtain ⟨node, hedit, reply, s', hplay, hcreation⟩ := Session.exists_creates options hs hkeyed
        hrefusal hused (hcursor.of_resolve hresolve) hcreates hresolve
      obtain ⟨hreply, hkept, hstays⟩ := Action.run_of_play hplay
      refine ⟨hstays, fun hcontrol => ?_, fun _ => ⟨path, node, s', rfl, hedit, hkept, ?_⟩⟩
      · have herror : Path.resolve raw w.cursor = .error (.controlCharacter raw) :=
          Path.resolve_eq_error_iff.mpr ⟨List.any_eq_true.mpr hcontrol, rfl⟩
        rw [hresolve] at herror
        cases herror
      · rw [hreply]
        exact hcreation

/-- A tree that lists a file that is not there, and does not list the one that is. -/
def unlistedChanges : List Change :=
  [.put (.directory Path.root "~" ["ghost"]), .put (.file "~/a" "old" 1 2)]

/-- The store that the changes leave. -/
def unlisted : MemoryStore where
  nodes := unlistedChanges.foldl MemoryStore.applyChange .empty
  refusesWrites := false

/-- A file that is written again keeps the time it was created, and is listed from then on. -/
theorem Operation.creation_exact_unlisted :
    ∃ nodes' : Contents,
      (((Operation.createFile "a" "new").perform ⟨defaultQuotaBytes, true⟩).run
        ⟨.memory unlisted, Path.root, 9, []⟩).1 = .ok (.truth true) ∧
      (((Operation.createFile "a" "new").perform ⟨defaultQuotaBytes, true⟩).run
        ⟨.memory unlisted, Path.root, 9, []⟩).2.store = .memory ⟨nodes', false⟩ ∧
      nodes'.find? "~/a" = some (.file "~/a" "new" 1 9) ∧
      nodes'.find? Path.root = some (.directory Path.root "~" ["ghost", "a"]) ∧
      nodes'.find? "~/ghost" = none := by
  have hwritten : MemoryStore.empty.commit unlistedChanges = .ok unlisted := rfl
  have hcreates : Operation.createFile "a" "new" = .createFile "a" "new" := rfl
  obtain ⟨-, -, hmade⟩ := Operation.creation_exact hwritten
    (w := ⟨.memory unlisted, Path.root, 9, []⟩) rfl .atRoot ⟨defaultQuotaBytes, true⟩
    (.inl ⟨"new", hcreates⟩)
  obtain ⟨path, node, s', hresolve, hnode, hstore, hcreation⟩ :=
    hmade (by simp [Text.isControl])
  obtain rfl : path = "~/a" := Except.ok.inj (hresolve.symm.trans (by decide +kernel))
  obtain rfl : node = .file "~/a" "new" 1 9 := (Edit.put.inj hnode).symm
  rw [hstore]
  generalize (((Operation.createFile "a" "new").perform ⟨defaultQuotaBytes, true⟩).run
    ⟨.memory unlisted, Path.root, 9, []⟩).1 = reply at hcreation ⊢
  have haccepts : "~/a" ≠ Path.root ∧ Contents.kind? unlisted.nodes "~/a" ≠ some .directory ∧
      Contents.houses unlisted.nodes "~/a" = true := by decide +kernel
  cases hcreation with
  | rejected hrejected => exact absurd haccepts hrejected
  | standing _ hstands => exact absurd hstands haccepts.2.1
  | overQuota _ _ hquota => exact absurd hquota (by decide +kernel)
  | done _ _ _ hfind =>
      refine ⟨_, rfl, rfl, ?_, ?_, ?_⟩ <;> rw [hfind] <;> decide +kernel

end VirtualShell
