import VirtualShell.Node.Encoding

/-!
# The fields of a node in any order

A JSON value describes a node if it has the node's fields: as the entries of an object, in any order
and with other entries between them, or as the elements of a list, in their own order.  Either way a
directory without children may leave its list of children out.  `ofJson` makes the node of every
value that describes it.
-/

namespace VirtualShell
namespace Node

/-- The fields of a node in their order, of which the tag is the first. -/
inductive Fields : Node → List (String × Json) → Prop
  | directory (path name : String) (children : List String) :
      Fields (.directory path name children)
        [("type", .text "directory"), ("path", .text path), ("name", .text name),
          ("children", .list (children.map .text))]
  | childless (path name : String) :
      Fields (.directory path name [])
        [("type", .text "directory"), ("path", .text path), ("name", .text name)]
  | file (path content : String) (created modified : Timestamp) :
      Fields (.file path content created modified)
        [("type", .text "file"), ("path", .text path), ("content", .text content),
          ("created", .integer created.toInt), ("modified", .integer modified.toInt)]

/-- The keys of the fields of a node, besides that of the tag. -/
def fieldKeys : NodeKind → List String
  | .directory => ["path", "name", "children"]
  | .file => ["path", "content", "created", "modified"]

/-- The value has the fields of a node, as entries in any order or as elements in their own. -/
inductive Describes (node : Node) : Json → Prop
  | object {known others entries : List (String × Json)} (hknown : Fields node known)
      (hothers : ∀ entry ∈ others, entry.1 ≠ "type" ∧ entry.1 ∉ fieldKeys node.kind)
      (hentries : entries.Perm (known ++ others)) : Describes node (.object entries)
  | list {known : List (String × Json)} (hknown : Fields node known) :
      Describes node (.list (known.map Prod.snd))

/-! ### Entries in any order -/

/-- A fold whose steps can change places succeeds in every order or in none. -/
theorem foldlM_perm {F E : Type} {add : F → E → Except String F} {R : E → E → Prop}
    (hsymm : ∀ x y, R x y → R y x)
    (hcomm : ∀ x y, R x y → ∀ f g, (add f x >>= fun h => add h y) = .ok g →
      (add f y >>= fun h => add h x) = .ok g)
    {xs ys : List E} (hperm : xs.Perm ys) (hxs : xs.Pairwise R) {f g : F}
    (hfold : xs.foldlM add f = .ok g) : ys.foldlM add f = .ok g := by
  induction hperm generalizing f with
  | nil => exact hfold
  | @cons x xs ys _ ih =>
      rw [List.foldlM_cons] at hfold ⊢
      cases hadd : add f x with
      | error message =>
          rw [hadd] at hfold
          cases hfold
      | ok h =>
          rw [hadd] at hfold
          exact ih (List.pairwise_cons.mp hxs).2 hfold
  | @swap x y zs =>
      -- the two steps come to the same in the other order, or the fold has failed in them
      have hxy := (List.pairwise_cons.mp hxs).1 x List.mem_cons_self
      have hmove := hcomm y x hxy f
      simp only [List.foldlM_cons] at hfold ⊢
      rw [← bind_assoc] at hfold ⊢
      cases hadd : (add f y >>= fun h => add h x) with
      | error message =>
          rw [hadd] at hfold
          cases hfold
      | ok h =>
          rw [hadd] at hfold
          rw [hmove h hadd]
          exact hfold
  | @trans xs ys zs hxy _ ih ih' => exact ih' (hxy.pairwise hxs (hsymm _ _)) (ih hxs hfold)

/-- Entries that can change places: they have different keys, or one that is nobody's. -/
def Apart (keys : List String) (x y : String × Json) : Prop :=
  x.1 = y.1 → x.1 ∉ keys

theorem Apart.symm {keys : List String} (x y : String × Json) (hapart : Apart keys x y) :
    Apart keys y x := by
  intro heq
  rw [heq]
  exact hapart heq.symm

theorem DirectoryFields.add_comm {x y : String × Json}
    (hapart : Apart (fieldKeys .directory) x y) (f g : DirectoryFields)
    (hadd : (f.add x.1 x.2 >>= fun h => h.add y.1 y.2) = .ok g) :
    (f.add y.1 y.2 >>= fun h => h.add x.1 x.2) = .ok g := by
  obtain ⟨xk, xv⟩ := x
  obtain ⟨yk, yv⟩ := y
  obtain ⟨p, n, c⟩ := f
  simp only [Apart, fieldKeys, List.mem_cons, List.not_mem_nil, or_false, not_or] at hapart
  simp only [DirectoryFields.add, fill, bind, Except.bind, pure, Except.pure, Except.map] at hadd ⊢
  grind

theorem FileFields.add_comm {x y : String × Json}
    (hapart : Apart (fieldKeys .file) x y) (f g : FileFields)
    (hadd : (f.add x.1 x.2 >>= fun h => h.add y.1 y.2) = .ok g) :
    (f.add y.1 y.2 >>= fun h => h.add x.1 x.2) = .ok g := by
  obtain ⟨xk, xv⟩ := x
  obtain ⟨yk, yv⟩ := y
  obtain ⟨p, n, c, m⟩ := f
  simp only [Apart, fieldKeys, List.mem_cons, List.not_mem_nil, or_false, not_or] at hapart
  simp only [FileFields.add, fill, bind, Except.bind, pure, Except.pure, Except.map] at hadd ⊢
  -- by the field that the first entry fills, if it fills one
  by_cases hpath : xk = "path"
  · grind
  by_cases hcontent : xk = "content"
  · grind
  by_cases hcreated : xk = "created"
  · grind
  by_cases hmodified : xk = "modified"
  · grind
  · grind

theorem DirectoryFields.add_of_notMem (fields : DirectoryFields) {entry : String × Json}
    (hentry : entry.1 ∉ fieldKeys .directory) : fields.add entry.1 entry.2 = .ok fields := by
  simp only [fieldKeys, List.mem_cons, List.not_mem_nil, or_false, not_or] at hentry
  rw [DirectoryFields.add, if_neg hentry.1, if_neg hentry.2.1, if_neg hentry.2.2]

theorem FileFields.add_of_notMem (fields : FileFields) {entry : String × Json}
    (hentry : entry.1 ∉ fieldKeys .file) : fields.add entry.1 entry.2 = .ok fields := by
  simp only [fieldKeys, List.mem_cons, List.not_mem_nil, or_false, not_or] at hentry
  rw [FileFields.add, if_neg hentry.1, if_neg hentry.2.1, if_neg hentry.2.2.1,
    if_neg hentry.2.2.2]

theorem pairwise_apart {keys : List String} {fields others : List (String × Json)}
    (hfields : (fields.map Prod.fst).Nodup) (hothers : ∀ entry ∈ others, entry.1 ∉ keys) :
    (fields ++ others).Pairwise (Apart keys) := by
  have hapart : ∀ y ∈ others, ∀ x : String × Json, Apart keys x y := by
    intro y hy x heq
    rw [heq]
    exact hothers y hy
  rw [List.pairwise_append]
  refine ⟨?_, ?_, fun x _ y hy => hapart y hy x⟩
  · exact (List.pairwise_map.mp hfields).imp fun hne heq => absurd heq hne
  · exact List.pairwise_of_forall_mem_list fun x _ y hy => hapart y hy x

/-- Fields fill the same slots in any order and with other entries between them. -/
theorem foldlM_entries {F : Type} {add : F → String × Json → Except String F}
    {keys : List String}
    (hcomm : ∀ x y, Apart keys x y → ∀ f g, (add f x >>= fun h => add h y) = .ok g →
      (add f y >>= fun h => add h x) = .ok g)
    (hskip : ∀ f entry, entry.1 ∉ keys → add f entry = .ok f)
    {fields others entries : List (String × Json)} (hfields : (fields.map Prod.fst).Nodup)
    (hothers : ∀ entry ∈ others, entry.1 ∉ keys) (hentries : entries.Perm (fields ++ others))
    {f g : F} (hfold : fields.foldlM add f = .ok g) : entries.foldlM add f = .ok g := by
  have hskipped : ∀ others : List (String × Json), (∀ entry ∈ others, entry.1 ∉ keys) →
      others.foldlM add g = .ok g := by
    intro others hothers
    induction others with
    | nil => rfl
    | cons entry others ih =>
        rw [List.forall_mem_cons] at hothers
        rw [List.foldlM_cons, hskip g entry hothers.1]
        exact ih hothers.2
  have hall : (fields ++ others).foldlM add f = .ok g := by
    rw [List.foldlM_append, hfold]
    exact hskipped others hothers
  exact foldlM_perm Apart.symm hcomm hentries.symm (pairwise_apart hfields hothers) hall

/-! ### The tag -/

theorem takeTag_of_notMem {kind : NodeKind} {entries : List (String × Json)}
    (hentries : ∀ entry ∈ entries, entry.1 ≠ "type") :
    takeTag (some kind) entries = .ok (kind, entries) := by
  induction entries with
  | nil => rfl
  | cons entry entries ih =>
      rw [List.forall_mem_cons] at hentries
      rw [takeTag, if_neg hentries.1, ih hentries.2]
      rfl

theorem takeTag_of_filter {value : Json} {kind : NodeKind} (hkind : kindOfValue value = .ok kind)
    {entries : List (String × Json)}
    (hentries : entries.filter (fun entry => entry.1 = "type") = [("type", value)]) :
    takeTag none entries = .ok (kind, entries.filter fun entry => entry.1 ≠ "type") := by
  induction entries with
  | nil => cases hentries
  | cons entry entries ih =>
      by_cases hentry : entry.1 = "type"
      · rw [List.filter_cons_of_pos (by simpa using hentry)] at hentries
        obtain ⟨rfl, hnone⟩ := List.cons.inj hentries
        rw [List.filter_eq_nil_iff] at hnone
        have hothers : ∀ entry ∈ entries, entry.1 ≠ "type" := fun entry hmem => by
          simpa using hnone entry hmem
        rw [takeTag, if_pos rfl, hkind, List.filter_cons_of_neg (by simp),
          List.filter_eq_self.mpr (by simpa using hothers)]
        exact takeTag_of_notMem hothers
      · rw [List.filter_cons_of_neg (by simpa using hentry)] at hentries
        rw [takeTag, if_neg hentry, ih hentries, List.filter_cons_of_pos (by simpa using hentry)]
        rfl

/-- A tag that is there once is found wherever it stands, and the other entries are left. -/
theorem takeTag_perm {value : Json} {kind : NodeKind} (hkind : kindOfValue value = .ok kind)
    {entries others : List (String × Json)} (hothers : ∀ entry ∈ others, entry.1 ≠ "type")
    (hentries : entries.Perm (("type", value) :: others)) :
    ∃ rest, takeTag none entries = .ok (kind, rest) ∧ rest.Perm others := by
  have hnone : others.filter (fun entry => entry.1 = "type") = [] := by
    simpa [List.filter_eq_nil_iff] using hothers
  have hkept : others.filter (fun entry => entry.1 ≠ "type") = others := by
    simpa [List.filter_eq_self] using hothers
  have htag := hentries.filter fun entry => decide (entry.1 = "type")
  have hrest := hentries.filter fun entry => decide (entry.1 ≠ "type")
  rw [List.filter_cons_of_pos (by simp), hnone, List.perm_singleton] at htag
  rw [List.filter_cons_of_neg (by simp), hkept] at hrest
  exact ⟨_, takeTag_of_filter hkind htag, hrest⟩

/-! ### Values that describe a node -/

section Entries

variable {fields others entries : List (String × Json)} {node : Node}

/-- What is made of the filled slots is the same in any order, too. -/
theorem make_of_entries {F : Type} {add : F → String × Json → Except String F}
    {make : F → Except String Node} {keys : List String}
    (hcomm : ∀ x y, Apart keys x y → ∀ f g, (add f x >>= fun h => add h y) = .ok g →
      (add f y >>= fun h => add h x) = .ok g)
    (hskip : ∀ f entry, entry.1 ∉ keys → add f entry = .ok f)
    (hfields : (fields.map Prod.fst).Nodup) (hothers : ∀ entry ∈ others, entry.1 ∉ keys)
    (hentries : entries.Perm (fields ++ others)) {f : F}
    (hnode : fields.foldlM add f >>= make = .ok node) :
    entries.foldlM add f >>= make = .ok node := by
  cases hfold : fields.foldlM add f with
  | error message =>
      rw [hfold] at hnode
      cases hnode
  | ok filled =>
      rw [foldlM_entries hcomm hskip hfields hothers hentries hfold]
      rw [hfold] at hnode
      exact hnode

/-- The fields of a node make it in any order. -/
theorem ofBody_perm {kind : NodeKind} (hfields : (fields.map Prod.fst).Nodup)
    (hothers : ∀ entry ∈ others, entry.1 ∉ fieldKeys kind)
    (hentries : entries.Perm (fields ++ others))
    (hnode : ofBody kind (.entries fields) = .ok node) :
    ofBody kind (.entries entries) = .ok node := by
  cases kind with
  | directory =>
      exact make_of_entries (fun x y hapart f g => DirectoryFields.add_comm hapart f g)
        (fun f entry => f.add_of_notMem) hfields hothers hentries hnode
  | file =>
      exact make_of_entries (fun x y hapart f g => FileFields.add_comm hapart f g)
        (fun f entry => f.add_of_notMem) hfields hothers hentries hnode

end Entries

theorem readTextList_texts (texts : List String) :
    readTextList (texts.map .text) = .ok texts := by
  induction texts with
  | nil => rfl
  | cons s texts ih =>
      rw [List.map_cons, readTextList, ih]
      rfl

theorem readTimestamp_integer (time : Timestamp) :
    readTimestamp (.integer time.toInt) = .ok time := by
  have hle : time.toInt ≤ Int64.maxValue.toInt := Int64.toInt_le time
  rw [readTimestamp, if_pos hle, Int64.ofInt_toInt]

theorem kindOfTag_word (kind : NodeKind) : kindOfTag kind.word = .ok kind := by
  cases kind <;> rfl

/-- Behind the tag stand fields that make the node, by their keys or by their places. -/
structure Makes (node : Node) (fields : List (String × Json)) : Prop where
  nodup : (fields.map Prod.fst).Nodup
  ne_type : ∀ field ∈ fields, field.1 ≠ "type"
  entries : ofBody node.kind (.entries fields) = .ok node
  items : ofBody node.kind (.items (fields.map Prod.snd)) = .ok node

theorem Fields.exists_eq_cons {node : Node} {known : List (String × Json)}
    (hknown : Fields node known) :
    ∃ fields, known = ("type", .text node.kind.word) :: fields ∧ Makes node fields := by
  cases hknown with
  | directory path name children =>
      refine ⟨_, rfl, by simp, by simp, ?_, ?_⟩
      · simp [kind, ofBody, directoryOfEntries, DirectoryFields.add, fill, readText, readTexts,
          readTextList_texts, require, bind, Except.bind, pure, Except.pure, Except.map]
      · simp [kind, ofBody, directoryOfItems, requireItem, readText, readTexts,
          readTextList_texts, refuseMore, bind, Except.bind, pure, Except.pure]
  | childless path name =>
      refine ⟨_, rfl, by simp, by simp, ?_, ?_⟩
      · simp [kind, ofBody, directoryOfEntries, DirectoryFields.add, fill, readText, require, bind,
          Except.bind, pure, Except.pure, Except.map]
      · simp [kind, ofBody, directoryOfItems, requireItem, readText, refuseMore, bind, Except.bind,
          pure, Except.pure]
  | file path content created modified =>
      refine ⟨_, rfl, by simp, by simp, ?_, ?_⟩
      · simp [kind, ofBody, fileOfEntries, FileFields.add, fill, readText, readTimestamp_integer,
          require, bind, Except.bind, pure, Except.pure, Except.map]
      · simp [kind, ofBody, fileOfItems, requireItem, readText, readTimestamp_integer, refuseMore,
          bind, Except.bind, pure, Except.pure]

/-- A value that describes a node stands for it. -/
theorem ofJson_of_describes {node : Node} {value : Json} (hvalue : Describes node value) :
    ofJson value = .ok node := by
  cases hvalue with
  | @object known others entries hknown hothers hentries =>
      obtain ⟨fields, rfl, hmakes⟩ := hknown.exists_eq_cons
      have hkind : kindOfValue (.text node.kind.word) = .ok node.kind := kindOfTag_word node.kind
      have hnotTag : ∀ entry ∈ fields ++ others, entry.1 ≠ "type" :=
        List.forall_mem_append.mpr ⟨hmakes.ne_type, fun entry hentry => (hothers entry hentry).1⟩
      obtain ⟨rest, htake, hrest⟩ := takeTag_perm hkind hnotTag hentries
      rw [ofJson, htake]
      exact ofBody_perm hmakes.nodup (fun entry hentry => (hothers entry hentry).2) hrest
        hmakes.entries
  | list hknown =>
      obtain ⟨fields, rfl, hmakes⟩ := hknown.exists_eq_cons
      rw [List.map_cons, ofJson, show kindOfValue (.text node.kind.word) = .ok node.kind from
        kindOfTag_word node.kind]
      exact hmakes.items

end Node
end VirtualShell
