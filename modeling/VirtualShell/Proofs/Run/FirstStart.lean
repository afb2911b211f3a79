import VirtualShell.Proofs.Run.Sound

/-!
# Only the first start makes a tree

However often a start is refused, a store on which nobody has started stays empty.  The first start
that is not refused leaves the first tree, or the root alone, and tells which of the two.  From then
on there is a root that no operation removes, so that every start finds it, tells that nothing was
seeded and changes nothing.  What was deleted or overwritten stays so until a session makes it anew.
-/

namespace VirtualShell

/-! ### What a start puts into an empty store -/

namespace Seed

/-- The nodes that a start puts into an empty store. -/
def nodes (seeded : Bool) (now : Timestamp) : List Node :=
  if seeded then tree now else [.emptyDirectory Path.root Path.root]

theorem changes_eq_map_nodes (seeded : Bool) (now : Timestamp) :
    changes seeded now = (nodes seeded now).map .put := by
  cases seeded <;> rfl

/-- Attaching a node adds its path at the end, or nothing. -/
theorem paths_attach_sublist (ns : List Node) (node : Node) :
    ((attach ns node).map Node.path).Sublist (ns.map Node.path ++ [node.path]) := by
  rw [attach]
  split
  · exact List.sublist_append_left _ _
  · split
    · exact List.sublist_append_left _ _
    · rename_i hadd
      rw [List.map_append, paths_addChild hadd]
      exact List.Sublist.refl _

theorem paths_foldl_attach_sublist (added ns : List Node) :
    ((added.foldl attach ns).map Node.path).Sublist
      (ns.map Node.path ++ added.map Node.path) := by
  induction added generalizing ns with
  | nil => simp
  | cons node added ih =>
      have hfirst := (paths_attach_sublist ns node).append_right (added.map Node.path)
      rw [List.append_assoc, List.singleton_append] at hfirst
      exact (ih (attach ns node)).trans hfirst

/-- The first tree has no other paths than its shapes. -/
theorem paths_tree_sublist (now : Timestamp) :
    ((tree now).map Node.path).Sublist (Path.root :: shapes.map (·.1)) := by
  have hsublist := paths_foldl_attach_sublist (additions now)
    [.emptyDirectory Path.root Path.root]
  have hpaths : (additions now).map Node.path = shapes.map (·.1) := by
    rw [← map_additions now, List.map_map]
    rfl
  rwa [← tree_eq, hpaths] at hsublist

theorem nodup_paths_nodes (seeded : Bool) (now : Timestamp) :
    ((nodes seeded now).map Node.path).Nodup := by
  cases seeded with
  | false => exact List.nodup_singleton _
  | true =>
      have hshapes : (Path.root :: shapes.map (·.1)).Nodup := by decide +kernel
      exact (paths_tree_sublist now).nodup hshapes

end Seed

/-- The store keeps some nodes, each under its own path, and nothing else. -/
def Store.HoldsExactly (store : Store) (ns : List Node) : Prop :=
  ∃ nodes : Contents, store.Holds nodes ∧
    ∀ path node, nodes.find? path = some node ↔ node ∈ ns ∧ node.path = path

theorem Contents.firstAt_eq_some_iff {ns : List Node} (hnodup : (ns.map Node.path).Nodup)
    {path : String} {node : Node} :
    firstAt ns path = some node ↔ node ∈ ns ∧ node.path = path := by
  constructor
  · intro hfirst
    have hpath := List.find?_some hfirst
    exact ⟨List.mem_of_find?_eq_some hfirst, of_decide_eq_true hpath⟩
  · rintro ⟨hmem, rfl⟩
    rw [firstAt]
    cases hfound : ns.find? fun other => other.path = node.path with
    | none =>
        rw [List.find?_eq_none] at hfound
        exact absurd (decide_eq_true rfl) (hfound node hmem)
    | some found =>
        have hpath := List.find?_some hfound
        rw [decide_eq_true_eq] at hpath
        rw [List.inj_on_of_nodup_map hnodup (List.mem_of_find?_eq_some hfound) hmem hpath]

theorem Store.Holds.holdsExactly_foldl_put {store : Store} (hs : store.Holds .empty)
    {ns : List Node} (hnodup : (ns.map Node.path).Nodup) :
    ((ns.map .put).foldl Store.apply store).HoldsExactly ns := by
  refine ⟨Contents.ofNodes ns, hs.foldl_apply (ns.map .put), fun path node => ?_⟩
  rw [Contents.find?_ofNodes hnodup, Contents.firstAt_eq_some_iff hnodup]

/-! ### What an operation leaves alone -/

/-- The deed writes or makes what is under a path, or removes it. -/
def Deed.Concerns (path : String) : Deed → Prop
  | .wrote own _ _ _ => own = path
  | .made own _ => own = path
  | .deleted own => Path.isWithin path own = true

namespace Contents

/-- What stands under a path, if anything does: a file with its content, or a directory, which has
none. -/
def standing (nodes : Contents) (path : String) : Option (Option String) :=
  (nodes.find? path).map Node.content?

variable {nodes : Contents}

theorem standing_directory {path : String} (htree : nodes.Tree)
    (hkind : nodes.kind? path = some .directory) : nodes.standing path = some none := by
  rw [standing, htree.find?_directory hkind]
  rfl

theorem standing_plant {node : Node} {parent : String} (htree : nodes.Tree)
    (hplant : Plantable nodes node parent) {path : String} (hne : path ≠ node.path) :
    (nodes.plant node).standing path = nodes.standing path := by
  rw [standing, find?_plant htree hplant, if_neg hne]
  -- the directory above lists one more name, and stays a directory
  by_cases hparent : path = parent
  · rw [if_pos hparent, hparent, standing_directory htree hplant.directory]
    rfl
  · rw [if_neg hparent, standing]

theorem standing_prune {path parent : String} (htree : nodes.Tree)
    (hprune : Prunable nodes path parent) {key : String}
    (houtside : ¬ Path.isWithin key path = true) :
    (nodes.prune path).standing key = nodes.standing key := by
  rw [standing, find?_prune htree hprune, if_neg houtside]
  by_cases hparent : key = parent
  · rw [if_pos hparent, hparent, standing_directory htree (hprune.directory htree)]
    rfl
  · rw [if_neg hparent, standing]

end Contents

/-- An effect changes what stands under a path only by a deed that concerns the path. -/
theorem Effect.standing_eq {now : Timestamp} {nodes nodes' : Contents} {cursor cursor' : String}
    {deeds : List Deed} (heffect : Effect now nodes cursor deeds nodes' cursor')
    (htree : nodes.Tree) {path : String} (hdeeds : ∀ deed ∈ deeds, ¬ deed.Concerns path) :
    nodes'.standing path = nodes.standing path := by
  cases heffect with
  | idle | moved hdirectory | touched hdirectory | kept hdirectory => rfl
  | wrote hplant =>
      have hne := hdeeds _ (List.mem_singleton_self _)
      exact Contents.standing_plant htree hplant (Ne.symm hne)
  | made hplant hfree =>
      have hne := hdeeds _ (List.mem_singleton_self _)
      exact Contents.standing_plant htree hplant (Ne.symm hne)
  | deleted hprune =>
      have houtside := hdeeds _ (List.mem_singleton_self _)
      exact Contents.standing_prune htree hprune houtside

namespace Shared

/-! ### Starts among the steps of a run -/

/-- What commits fail with at the moment, if they do. -/
def refusal (s : Shared) : Option StorageError :=
  (s.scene Path.root).refusal

/-- Whether a step is a start that is successful. -/
def starts (s : Shared) : Step → Bool
  | .start seeded options => (s.request Path.root options (.start seeded)).1.isOk
  | _ => false

/-- Whether there is a successful start among some steps. -/
def hasStarted (s : Shared) : List Step → Bool
  | [] => false
  | step :: steps => s.starts step || (s.step step).hasStarted steps

section Blank

variable {s : Shared} (hblank : s.Blank) (seeded : Bool) (options : SessionOptions)

include hblank

/-- On an empty store a start is what its commit is. -/
theorem Blank.play_start :
    ((Request.start seeded).perform options).play (s.scene Path.root) =
      match (s.scene Path.root).commit (Seed.changes seeded s.now) with
      | (.error e, scene) => (.error e, scene)
      | (.ok _, scene) => (.ok (.started seeded), scene) := by
  have hnone : (s.scene Path.root).store.get Path.root = .ok none := hblank.holds.get Path.root
  rw [Request.play_start, hnone]
  rfl

/-- A start that is refused leaves everything as it is. -/
theorem Blank.start_of_refusal {e : StorageError} (hrefusal : s.refusal = some e) :
    s.answer? (.start seeded options) = some (.error e) ∧ s.step (.start seeded options) = s := by
  have hplay := hblank.play_start seeded options
  rw [Scene.commit, show (s.scene Path.root).refusal = some e from hrefusal] at hplay
  rw [answer?, result_request, step_start, hplay]
  exact ⟨rfl, rfl⟩

/-- The first start that is not refused puts its nodes there. -/
theorem Blank.start_of_no_refusal (hrefusal : s.refusal = none) :
    s.answer? (.start seeded options) = some (.ok (.started seeded)) ∧
      (s.step (.start seeded options)).store.HoldsExactly (Seed.nodes seeded s.now) := by
  have hplay := hblank.play_start seeded options
  rw [Scene.commit, show (s.scene Path.root).refusal = none from hrefusal] at hplay
  have hholds := hblank.holds.holdsExactly_foldl_put (Seed.nodup_paths_nodes seeded s.now)
  rw [answer?, result_request, step_start, hplay]
  refine ⟨rfl, ?_⟩
  rw [← Seed.changes_eq_map_nodes] at hholds
  exact hholds

omit seeded options in
/-- Until somebody has started, everything stays blank. -/
theorem Blank.step_of_not_starts {step : Step} (hstarts : s.starts step = false) :
    (s.step step).Blank := by
  rcases hblank.step step with ⟨hblank', -⟩ | ⟨nodes, hsound, -, -⟩
  · exact hblank'
  · cases step with
    | start seeded options =>
        -- the start answers with an error, so it was refused
        cases hrefusal : s.refusal with
        | some e =>
            rw [(hblank.start_of_refusal seeded options hrefusal).2]
            exact hblank
        | none =>
            have hanswer := (hblank.start_of_no_refusal seeded options hrefusal).1
            rw [answer?, Option.some.injEq] at hanswer
            rw [starts, hanswer] at hstarts
            cases hstarts
    | operate number operation =>
        have hnobody : s.clients[number]? = none := by simp [hblank.nobody]
        rw [Shared.step, hnobody]
        exact hblank
    | refuse on => exact ⟨hblank.holds.refusing on, hblank.nobody⟩
    | change medium | tick now => exact ⟨hblank.holds, hblank.nobody⟩

omit seeded options in
/-- A successful start leaves a tree. -/
theorem Blank.step_of_starts {step : Step} (hstarts : s.starts step = true) :
    ∃ nodes, (s.step step).Sound nodes := by
  rcases hblank.step step with ⟨hblank', -⟩ | ⟨nodes, hsound, -, -⟩
  · cases step with
    | start seeded options =>
        -- a session that has started is somebody
        have hnobody := hblank'.nobody
        rw [Shared.step] at hnobody
        rw [starts] at hstarts
        cases hrequest : s.request Path.root options (.start seeded) with
        | mk result w =>
            rw [hrequest] at hnobody hstarts
            cases result with
            | error e => cases hstarts
            | ok reply => simp at hnobody
    | _ => cases hstarts
  · exact ⟨nodes, hsound⟩

end Blank

/-- A sound state stays sound in every run. -/
theorem Sound.run {s : Shared} {nodes : Contents} (hsound : s.Sound nodes) (steps : List Step) :
    ∃ nodes', (s.run steps).Sound nodes' := by
  induction steps generalizing s nodes with
  | nil => exact ⟨nodes, hsound⟩
  | cons step steps ih =>
      obtain ⟨reached, _, _, hreached, -⟩ := hsound.step step
      exact ih hreached

/-- What the steps of a run leave depends on whether there is a successful start among them. -/
theorem Blank.run {s : Shared} (hblank : s.Blank) (steps : List Step) :
    (s.hasStarted steps = false → (s.run steps).Blank) ∧
      (s.hasStarted steps = true → ∃ nodes, (s.run steps).Sound nodes) := by
  induction steps generalizing s with
  | nil => exact ⟨fun _ => hblank, fun hstarted => by cases hstarted⟩
  | cons step steps ih =>
      rw [hasStarted]
      cases hstarts : s.starts step with
      | false => exact ih (hblank.step_of_not_starts hstarts)
      | true =>
          obtain ⟨nodes, hsound⟩ := hblank.step_of_starts hstarts
          refine ⟨fun hfalse => ?_, fun _ => hsound.run steps⟩
          cases hfalse

/-! ### After the first start -/

/-- What stands under a path changes only by deeds that concern it. -/
theorem Sound.standing_run {s : Shared} {nodes nodes' : Contents} (hsound : s.Sound nodes)
    {later : List Step} (hholds : (s.run later).store.Holds nodes') {path : String}
    (hdeeds : ∀ deed ∈ s.history later, ¬ deed.Concerns path) :
    nodes'.standing path = nodes.standing path := by
  have hP : Preserved fun reached deeds => (∀ deed ∈ deeds, ¬ deed.Concerns path) →
      reached.standing path = nodes.standing path := by
    intro now before cursor deeds after cursor' earlier htree heffect hbefore hall
    rw [List.forall_mem_append] at hall
    rw [heffect.standing_eq htree hall.2, hbefore hall.1]
  have hnone : (∀ deed ∈ ([] : List Deed), ¬ deed.Concerns path) →
      nodes.standing path = nodes.standing path := fun _ => rfl
  obtain ⟨reached, hreached, hstanding⟩ := hP.run_of_sound hsound hnone later
  rw [← hreached.holds.unique hholds]
  exact hstanding hdeeds

/-- What starting comes to, by whether there was a successful start before.  If there was none, the
store is empty, and a start is refused and leaves it so, or it tells what was asked for and leaves
exactly its nodes.  Otherwise every start is successful, tells that nothing was seeded and leaves
the store as it is; and whatever steps follow, a path changes only by what a session does to it. -/
structure StartsOnce (s : Shared) (started : Bool) : Prop where
  empty (hstarted : started = false) : s.store.HoldsExactly []
  refused (hstarted : started = false) {e : StorageError} (hrefusal : s.refusal = some e)
    (seeded : Bool) (options : SessionOptions) :
    s.answer? (.start seeded options) = some (.error e) ∧
      (s.step (.start seeded options)).store = s.store
  first (hstarted : started = false) (hrefusal : s.refusal = none) (seeded : Bool)
    (options : SessionOptions) :
    s.answer? (.start seeded options) = some (.ok (.started seeded)) ∧
      (s.step (.start seeded options)).store.HoldsExactly (Seed.nodes seeded s.now)
  again (hstarted : started = true) (seeded : Bool) (options : SessionOptions) :
    s.answer? (.start seeded options) = some (.ok (.started false)) ∧
      (s.step (.start seeded options)).store = s.store
  lasting (hstarted : started = true) {later : List Step} {nodes nodes' : Contents}
    (hholds : s.store.Holds nodes) (hholds' : (s.run later).store.Holds nodes') {path : String}
    (hdeeds : ∀ deed ∈ s.history later, ¬ deed.Concerns path) :
    nodes'.standing path = nodes.standing path

/-- Before the first successful start. -/
theorem Blank.startsOnce {s : Shared} (hblank : s.Blank) : s.StartsOnce false where
  empty _ := ⟨.empty, hblank.holds, fun path node => by simp⟩
  refused _ _ hrefusal seeded options := by
    obtain ⟨hanswer, hstep⟩ := hblank.start_of_refusal seeded options hrefusal
    exact ⟨hanswer, congrArg Shared.store hstep⟩
  first _ hrefusal seeded options := hblank.start_of_no_refusal seeded options hrefusal
  again hstarted := by cases hstarted
  lasting hstarted := by cases hstarted

/-- After the first successful start. -/
theorem Sound.startsOnce {s : Shared} {nodes : Contents} (hsound : s.Sound nodes) :
    s.StartsOnce true where
  empty hstarted := by cases hstarted
  refused hstarted := by cases hstarted
  first hstarted := by cases hstarted
  again _ seeded options := by
    obtain ⟨root, hroot⟩ :=
      Option.isSome_iff_exists.mp (Contents.isSome_find?_of_kind? hsound.tree.root)
    have hget : (s.scene Path.root).store.get Path.root = .ok (some root) := by
      rw [← hroot]
      exact hsound.holds.get Path.root
    have hstep := (hsound.step_start seeded options).1
    rw [answer?, result_request, Request.play_start, hget, hstep]
    exact ⟨rfl, rfl⟩
  lasting _ later nodes₀ nodes' hholds hholds' path hdeeds := by
    rw [hholds.unique hsound.holds]
    exact hsound.standing_run hholds' hdeeds

/-- In every run from an empty store, whoever starts, works or is refused in whatever order, only
the first successful start changes the store. -/
theorem startsOnce_run (backend : Backend) (now : Timestamp) (steps : List Step) :
    ((fresh backend now).run steps).StartsOnce ((fresh backend now).hasStarted steps) := by
  obtain ⟨hblank, hsound⟩ := (blank_fresh backend now).run steps
  cases hstarted : (fresh backend now).hasStarted steps with
  | false => exact (hblank hstarted).startsOnce
  | true =>
      obtain ⟨nodes, hsound⟩ := hsound hstarted
      exact hsound.startsOnce

/-- A start is refused, the next one seeds, and what was deleted is not there after a third. -/
example :
    let options : SessionOptions := ⟨defaultQuotaBytes, true⟩
    (fresh .memory 0).answers [.refuse true, .start true options, .refuse false,
      .start true options, .operate 0 (.delete "etc"), .start true options,
      .operate 1 (.pathExists "etc")] =
      [.error (.system .simulatedWriteFailure), .ok (.started true), .ok (.truth true),
        .ok (.started false), .ok (.truth false)] := by
  decide +kernel

end Shared
end VirtualShell
