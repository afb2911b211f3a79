import VirtualShell.Proofs.Session.Effect

/-!
# The first tree grows node by node

The nodes of the first tree are put there at once.  What comes of it is what would have come of
putting them there one after the other, each into a directory that is there already.  So everything
that single steps preserve holds of a store with the first tree, too.
-/

namespace VirtualShell

/-- Effects one after the other, with a cursor that stays. -/
inductive Effects (now : Timestamp) (cursor : String) : Contents → List Deed → Contents → Prop
  | nil {nodes : Contents} : Effects now cursor nodes [] nodes
  | cons {nodes nodes' nodes'' : Contents} {deeds rest : List Deed}
    (hfirst : Effect now nodes cursor deeds nodes' cursor)
    (hrest : Effects now cursor nodes' rest nodes'') :
    Effects now cursor nodes (deeds ++ rest) nodes''

namespace Contents

/-- The contents with nothing but the root. -/
def bare : Contents :=
  MemoryStore.applyChange .empty (.put (.emptyDirectory Path.root Path.root))

theorem find?_bare (key : String) :
    bare.find? key = if key = Path.root then some (.emptyDirectory Path.root Path.root) else none :=
  MemoryStore.find?_put .empty _ key

theorem kind?_bare (key : String) :
    bare.kind? key = if key = Path.root then some .directory else none := by
  rw [kind?, find?_bare]
  split <;> rfl

theorem names_bare (key : String) : bare.names key = [] := by
  rw [names, find?_bare]
  split <;> rfl

/-- The root alone is a tree. -/
theorem Tree.bare : bare.Tree where
  root := by rw [kind?_bare, if_pos rfl]
  placed {key node} hfind := by
    rw [find?_bare] at hfind
    split at hfind
    · rename_i hkey
      subst hkey
      cases hfind
      exact .directory .atRoot []
    · cases hfind
  nodup path := by simp [names_bare]
  isComponent hname := by simp [names_bare] at hname
  mem_names {path name} hname := by
    rw [names_bare, find?_bare, if_neg (Path.Canonical.join_ne_root hname)]
    simp

/-! ### Lists of nodes as contents -/

/-- What comes of putting some nodes into an empty store. -/
def ofNodes (ns : List Node) : Contents :=
  (ns.map .put).foldl MemoryStore.applyChange .empty

/-- The first node with a path. -/
def firstAt (ns : List Node) (key : String) : Option Node :=
  ns.find? fun node => node.path = key

theorem firstAt_eq_none {ns : List Node} {key : String} (hkey : key ∉ ns.map Node.path) :
    firstAt ns key = none := by
  rw [firstAt, List.find?_eq_none]
  intro node hnode hpath
  exact hkey (of_decide_eq_true hpath ▸ List.mem_map_of_mem hnode)

theorem find?_ofNodes {ns : List Node} (hnodup : (ns.map Node.path).Nodup) (key : String) :
    (ofNodes ns).find? key = firstAt ns key := by
  have hfold : ∀ nodes : Contents, ((ns.map .put).foldl MemoryStore.applyChange nodes).find? key =
      (firstAt ns key).or (nodes.find? key) := by
    induction ns with
    | nil => intro nodes; rfl
    | cons node ns ih =>
        intro nodes
        rw [List.map_cons, List.nodup_cons] at hnodup
        rw [List.map_cons, List.foldl_cons, ih hnodup.2, MemoryStore.find?_put]
        by_cases hkey : key = node.path
        · rw [firstAt_eq_none (hkey ▸ hnodup.1), if_pos hkey, firstAt, hkey]
          simp
        · rw [if_neg hkey, firstAt, firstAt, List.find?_cons_of_neg]
          simpa using Ne.symm hkey
  rw [ofNodes, hfold]
  simp

/-- Adding a name rewrites the directory that it is added to. -/
theorem firstAt_addChild {ns : List Node} {parent own : String} {children : List String}
    (name : String) (hparent : firstAt ns parent = some (.directory parent own children)) :
    ∃ ns', Seed.addChild parent name ns = some ns' ∧ ∀ key, firstAt ns' key =
      if key = parent then some (.directory parent own (children ++ [name]))
      else firstAt ns key := by
  induction ns with
  | nil => cases hparent
  | cons node ns ih =>
      by_cases hpath : node.path = parent
      · rw [firstAt, List.find?_cons_of_pos (by simpa using hpath)] at hparent
        cases hparent
        refine ⟨_, by rw [Seed.addChild, if_pos rfl], fun key => ?_⟩
        by_cases hkey : key = parent
        · simp [firstAt, hkey]
        · simp [firstAt, hkey, Ne.symm hkey]
      · rw [firstAt, List.find?_cons_of_neg (by simpa using hpath)] at hparent
        obtain ⟨ns', hadd, hfirst⟩ := ih hparent
        refine ⟨node :: ns', ?_, fun key => ?_⟩
        · rw [Seed.addChild_cons_of_ne ns hpath, hadd, Option.map_some]
        · by_cases hkey : node.path = key
          · have hne : key ≠ parent := fun heq => hpath (hkey.trans heq)
            simp [firstAt, hkey, hne]
          · rw [firstAt, firstAt, List.find?_cons_of_neg (by simpa using hkey),
              List.find?_cons_of_neg (by simpa using hkey)]
            exact hfirst key

/-- Attaching a new node to a list plants it in the contents. -/
theorem ofNodes_attach {ns : List Node} {node : Node} {parent : String}
    (hnodup : (ns.map Node.path).Nodup) (htree : (ofNodes ns).Tree)
    (hplant : Plantable (ofNodes ns) node parent) (hnew : (ofNodes ns).find? node.path = none) :
    ((Seed.attach ns node).map Node.path).Nodup ∧
      (Seed.attach ns node).map Deed.ofNode = ns.map Deed.ofNode ++ [.ofNode node] ∧
      ofNodes (Seed.attach ns node) = (ofNodes ns).plant node := by
  have hparent := htree.find?_directory hplant.directory
  rw [find?_ofNodes hnodup] at hparent
  obtain ⟨ns', hadd, hfirst⟩ := firstAt_addChild (Path.name node.path) hparent
  have hattach : Seed.attach ns node = ns' ++ [node] := by
    simp only [Seed.attach, hplant.parent_eq, hadd]
  have hfresh : node.path ∉ ns'.map Node.path := by
    rw [Seed.paths_addChild hadd]
    rw [find?_ofNodes hnodup, firstAt, List.find?_eq_none] at hnew
    intro hmem
    obtain ⟨other, hother, hpath⟩ := List.mem_map.mp hmem
    exact hnew other hother (decide_eq_true hpath)
  have hnodup' : ((ns' ++ [node]).map Node.path).Nodup := by
    rw [List.map_append, List.map_singleton, ← List.concat_eq_append, List.nodup_concat]
    exact ⟨hfresh, by rwa [Seed.paths_addChild hadd]⟩
  -- the name is new to the directory, because nothing is stored under the path
  have hunlisted : ¬ (names (ofNodes ns) parent).contains (Path.name node.path) = true := by
    obtain ⟨-, hname, hpath⟩ := hplant.canonical.of_parent? hplant.parent_eq
    rw [List.contains_iff_mem, htree.mem_names hname, ← hpath, hnew]
    simp
  rw [hattach]
  refine ⟨hnodup', ?_, SortedMap.ext_find? fun key => ?_⟩
  · rw [List.map_append, List.map_singleton, Seed.map_addChild (fun _ _ _ _ => rfl) hadd]
  · have hlast : firstAt (ns' ++ [node]) key =
        if key = node.path then some node else firstAt ns' key := by
      rw [firstAt, List.find?_append, ← firstAt]
      by_cases hkey : key = node.path
      · rw [hkey, firstAt_eq_none hfresh]
        simp
      · simp [hkey, Ne.symm hkey]
    rw [find?_ofNodes hnodup', hlast, hfirst, find?_plant htree hplant, enlist,
      if_neg hunlisted, find?_ofNodes hnodup]

end Contents

namespace Seed

/-- The nodes that are attached to the root, in order. -/
def additions (now : Timestamp) : List Node :=
  (directories.map fun directory => .emptyDirectory (Path.join Path.root directory)
      (Path.name (Path.join Path.root directory))) ++
    files.map fun file => .file (Path.join Path.root file.1) file.2 now now

theorem tree_eq (now : Timestamp) :
    tree now = (additions now).foldl attach [.emptyDirectory Path.root Path.root] := by
  rw [additions, List.foldl_append, List.foldl_map, List.foldl_map]
  rfl

/-- Whether paths of some kinds can be put below the root one after the other: each is canonical and
new, and the one above it is a directory that is there already. -/
def fits (placed : List (String × NodeKind)) : List (String × NodeKind) → Bool
  | [] => true
  | (path, kind) :: rest =>
    decide (Path.resolve path Path.root = .ok path) &&
      decide ((Path.parent? path).bind (List.lookup · placed) = some .directory) &&
      (List.lookup path placed).isNone && fits ((path, kind) :: placed) rest

/-- The paths of the additions, with their kinds. -/
def shapes : List (String × NodeKind) :=
  (directories.map fun directory => (Path.join Path.root directory, .directory)) ++
    files.map fun file => (Path.join Path.root file.1, .file)

theorem fits_shapes : fits [(Path.root, .directory)] shapes = true := by decide +kernel

theorem map_additions (now : Timestamp) :
    (additions now).map (fun node => (node.path, node.kind)) = shapes := by
  rw [additions, shapes, List.map_append, List.map_map, List.map_map]
  rfl

/-- A node as it is when it comes into being. -/
def IsNew (now : Timestamp) (node : Node) : Prop :=
  node = .emptyDirectory node.path (Path.name node.path) ∨
    ∃ content, node = .file node.path content now now

theorem isNew_of_mem_additions {now : Timestamp} {node : Node} (hnode : node ∈ additions now) :
    IsNew now node := by
  rcases List.mem_append.mp hnode with hnode | hnode
  · obtain ⟨directory, -, rfl⟩ := List.mem_map.mp hnode
    exact .inl rfl
  · obtain ⟨file, -, rfl⟩ := List.mem_map.mp hnode
    exact .inr ⟨file.2, rfl⟩

open Contents (Plantable ofNodes)

/-- A new node that is planted is born. -/
theorem effect_of_isNew {now : Timestamp} {nodes : Contents} {node : Node} {parent : String}
    (cursor : String) (hnode : IsNew now node) (hplant : Plantable nodes node parent)
    (hfree : nodes.find? node.path = none) :
    Effect now nodes cursor [.ofNode node] (nodes.plant node) cursor := by
  rcases hnode with hnode | ⟨content, hnode⟩
  · generalize node.path = path at hnode hfree
    subst hnode
    exact .made hplant hfree
  · generalize node.path = path at hnode hfree
    subst hnode
    have hwrote : Effect now nodes cursor [.wrote path content now (nodes.find? path).isNone]
        (nodes.plant (.file path content (Session.createdAt (nodes.find? path) now) now)) cursor :=
      .wrote (by rw [hfree]; exact hplant)
    rw [hfree] at hwrote
    exact hwrote

/-- Attaching what fits is a row of births. -/
theorem effects_foldl_attach (now : Timestamp) (cursor : String) {added : List Node}
    (hadded : ∀ node ∈ added, IsNew now node) (ns : List Node)
    {placed : List (String × NodeKind)} (hnodup : (ns.map Node.path).Nodup)
    (htree : (ofNodes ns).Tree) (hplaced : ∀ key, (ofNodes ns).kind? key = List.lookup key placed)
    (hfits : fits placed (added.map fun node => (node.path, node.kind)) = true) :
    (added.foldl attach ns).map Deed.ofNode = ns.map Deed.ofNode ++ added.map Deed.ofNode ∧
      Effects now cursor (ofNodes ns) (added.map Deed.ofNode)
        (ofNodes (added.foldl attach ns)) := by
  induction added generalizing ns placed with
  | nil => exact ⟨by simp, .nil⟩
  | cons node added ih =>
      rw [List.forall_mem_cons] at hadded
      simp only [List.map_cons, fits, Bool.and_eq_true, decide_eq_true_eq] at hfits
      obtain ⟨⟨⟨hcanonical, habove⟩, hfree⟩, hfits⟩ := hfits
      obtain ⟨parent, hparent, hdirectory⟩ := Option.bind_eq_some_iff.mp habove
      have hnone : (ofNodes ns).find? node.path = none := by
        rw [← hplaced, Contents.kind?, Option.isNone_map] at hfree
        exact Option.isNone_iff_eq_none.mp hfree
      -- what fits has a directory above it and nothing in its way
      have hplant : Plantable (ofNodes ns) node parent := by
        refine ⟨Path.Canonical.atRoot.of_resolve hcanonical, hparent, ?_, ?_, ?_, ?_⟩
        · rw [hplaced, hdirectory]
        · rw [Contents.kind?, hnone]
          simp
        · rcases hadded.1 with hnode | ⟨content, hnode⟩ <;> rw [hnode] <;> rfl
        · intro path name children hnode
          rcases hadded.1 with hnew | ⟨content, hnew⟩
          · rw [hnode, Node.emptyDirectory, Node.directory.injEq] at hnew
            exact hnew.2.1
          · rw [hnode] at hnew
            cases hnew
      obtain ⟨hnodup', hdeeds, hcontents⟩ :=
        Contents.ofNodes_attach hnodup htree hplant hnone
      have hplaced' : ∀ key, (ofNodes (attach ns node)).kind? key =
          List.lookup key ((node.path, node.kind) :: placed) := by
        intro key
        rw [hcontents, Contents.kind?_plant htree hplant, lookup_cons_ite, hplaced]
      have htree' : (ofNodes (attach ns node)).Tree := hcontents ▸ htree.plant hplant
      obtain ⟨hdeeds', heffects⟩ := ih hadded.2 _ hnodup' htree' hplaced' hfits
      rw [hdeeds, List.append_assoc] at hdeeds'
      refine ⟨hdeeds', ?_⟩
      have hfirst := effect_of_isNew cursor hadded.1 hplant hnone
      rw [← hcontents] at hfirst
      exact .cons hfirst heffects

/-- Putting the first tree into an empty store comes to the births that seeding goes by. -/
theorem effects_tree (now : Timestamp) (cursor : String) :
    Effects now cursor Contents.bare (Seed.deeds now) (ofNodes (tree now)) := by
  have hplaced : ∀ key, Contents.bare.kind? key =
      List.lookup key [(Path.root, NodeKind.directory)] := by
    intro key
    rw [Contents.kind?_bare, lookup_cons_ite]
    rfl
  obtain ⟨hdeeds, heffects⟩ := effects_foldl_attach now cursor
    (fun node hnode => isNew_of_mem_additions hnode) [.emptyDirectory Path.root Path.root]
    (List.nodup_singleton _) Contents.Tree.bare
    hplaced (by rw [map_additions]; exact fits_shapes)
  rw [← tree_eq] at hdeeds heffects
  have htail : Seed.deeds now = (additions now).map Deed.ofNode := by
    rw [Seed.deeds, List.map_tail, hdeeds]
    rfl
  rw [htail]
  exact heffects

end Seed
end VirtualShell
