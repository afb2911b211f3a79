import VirtualShell.Proofs.History.Remembered

/-!
# Every answer can be read off the history

After any run, what a session answers about a canonical path is told by the deeds of all sessions
so far: whether anything is there, what a file holds, and what a directory lists, in which order.
-/

namespace VirtualShell
namespace History

variable {nodes : Contents} {h : List Deed} {path : String}

theorem OccursAt.both {p q : Deed → Prop} {i : Nat} (hp : OccursAt h p i) (hq : OccursAt h q i) :
    ∃ deed, p deed ∧ q deed := by
  obtain ⟨deed, hdeed, hp⟩ := hp
  obtain ⟨deed', hdeed', hq⟩ := hq
  obtain rfl : deed = deed' := Option.some.inj (hdeed.symm.trans hdeed')
  exact ⟨deed, hp, hq⟩

/-- What is stored was last born as what it is. -/
theorem Remembers.exists_kind (hnodes : Remembers nodes h) {kind : NodeKind}
    (hkind : nodes.kind? path = some kind) (hroot : path ≠ Path.root) :
    ∃ i, LastAt h (Deed.Births path) i ∧ OccursAt h (fun deed => deed.kind? = some kind) i := by
  obtain ⟨node, hfind, rfl⟩ := Option.map_eq_some_iff.mp hkind
  cases node with
  | directory own name children => exact hnodes.directory hkind hroot
  | file own content created modified =>
      obtain ⟨i, -, hi, ⟨deed, hdeed, hfile, -⟩, -⟩ := hnodes.file hfind
      exact ⟨i, hi, deed, hdeed, hfile⟩

/-- The history tells directories from files. -/
theorem Remembers.kind?_iff (hnodes : Remembers nodes h) (htree : nodes.Tree) (path : String)
    (kind : NodeKind) : nodes.kind? path = some kind ↔ AliveAs h path kind := by
  constructor
  · intro hkind
    by_cases hroot : path = Path.root
    · rw [hroot, htree.root, Option.some.injEq] at hkind
      exact .inl ⟨hroot, hkind.symm⟩
    · refine .inr ⟨hroot, ?_, hnodes.exists_kind hkind hroot⟩
      exact (hnodes.alive path).mp (Contents.isSome_find?_of_kind? hkind)
  · rintro (⟨rfl, rfl⟩ | ⟨hroot, halive, i, hi, hborn⟩)
    · exact htree.root
    · obtain ⟨node, hfind⟩ := Option.isSome_iff_exists.mp ((hnodes.alive path).mpr halive)
      have hkind : nodes.kind? path = some node.kind := by rw [Contents.kind?, hfind]; rfl
      obtain ⟨j, hj, hborn'⟩ := hnodes.exists_kind hkind hroot
      obtain ⟨deed, hone, hother⟩ := hborn.both (hi.unique hj ▸ hborn')
      rw [hkind, ← hother, hone]

/-- The history tells what a file holds. -/
theorem Remembers.content_iff (hnodes : Remembers nodes h) (htree : nodes.Tree)
    (path content : String) :
    (nodes.find? path).bind Node.content? = some content ↔ HasContent h path content := by
  constructor
  · intro hcontent
    obtain ⟨node, hfind, hnode⟩ := Option.bind_eq_some_iff.mp hcontent
    cases node with
    | directory own name children => cases hnode
    | file own content' created modified =>
        cases hnode
        have hkind : nodes.kind? path = some .file := by rw [Contents.kind?, hfind]; rfl
        obtain ⟨i, j, hi, -, hle, hj, ⟨deed, hdeed, hwrote, -⟩⟩ := hnodes.file hfind
        exact ⟨(hnodes.kind?_iff htree path .file).mp hkind, i, j, hi, hle, hj, deed, hdeed, hwrote⟩
  · rintro ⟨halive, i, j, hi, hle, hj, hwrote⟩
    have hkind := (hnodes.kind?_iff htree path .file).mpr halive
    obtain ⟨node, hfind, hnode⟩ := Option.map_eq_some_iff.mp hkind
    cases node with
    | directory own name children => cases hnode
    | file own content' created modified =>
        obtain ⟨i', j', -, -, -, hj', hwrote'⟩ := hnodes.file hfind
        obtain ⟨deed, hone, hother, -⟩ := hwrote.both (hj.unique hj' ▸ hwrote')
        rw [hfind, Option.bind_some, Node.content?, ← hother, hone]

/-- A listing has the live children of the directory, in the order of their last births. -/
theorem Remembers.mem_listing (hnodes : Remembers nodes h) (htree : nodes.Tree) (path : String)
    (entry : Entry) :
    entry ∈ nodes.listing path (nodes.names path) ↔
      ∃ child, Path.parent? child = some path ∧ Path.name child = entry.name ∧
        AliveAs h child entry.kind := by
  simp only [Contents.listing, List.mem_filterMap, Option.map_eq_some_iff]
  constructor
  · rintro ⟨name, hname, kind, hkind, rfl⟩
    have hcomponent := htree.isComponent hname
    exact ⟨Path.join path name, Path.parent?_join hcomponent.noSeparator,
      Path.name_join hcomponent.noSeparator, (hnodes.kind?_iff htree _ _).mp hkind⟩
  · rintro ⟨child, hparent, hname, halive⟩
    have hkind := (hnodes.kind?_iff htree child entry.kind).mpr halive
    obtain ⟨node, hfind, -⟩ := Option.map_eq_some_iff.mp hkind
    obtain ⟨-, -, hchild⟩ := (htree.canonical hfind).of_parent? hparent
    refine ⟨Path.name child, htree.name_mem_names hfind hparent, entry.kind, ?_, ?_⟩
    · rw [← hchild, hkind]
    · rw [hname]

theorem Remembers.pairwise_listing (hnodes : Remembers nodes h) (path : String) :
    (nodes.listing path (nodes.names path)).Pairwise fun a b =>
      BornBefore h (Path.join path a.name) (Path.join path b.name) := by
  refine (hnodes.ordered path).filterMap _ fun name other hborn entry hentry entry' hentry' => ?_
  obtain ⟨kind, -, rfl⟩ := Option.map_eq_some_iff.mp hentry
  obtain ⟨kind', -, rfl⟩ := Option.map_eq_some_iff.mp hentry'
  exact hborn

end History

namespace Shared

open History

/-- What a session at a cursor answers about a path is told by a history: there is something exactly
if the path is alive; a file holds what was last written since its last birth, and what is no live
file holds nothing; and a directory lists its live children, those first that were last born
first. -/
structure Recalls (s : Shared) (h : List Deed) (cursor : String) (options : SessionOptions)
    (path : String) : Prop where
  pathExists : ∃ found, (s.request cursor options (.operate (.pathExists path))).1 =
    .ok (.truth found) ∧ (found = true ↔ Alive h path)
  fileText : ∃ text, (s.request cursor options (.operate (.fileText path))).1 =
    .ok (.content text) ∧ (∀ content, text = some content ↔ HasContent h path content) ∧
      (text = none ↔ ¬ Alive h path ∨ AliveAs h path .directory)
  listDirectory (hdirectory : AliveAs h path .directory) :
    ∃ entries, (s.request cursor options (.operate (.listDirectory path))).1 =
      .ok (.listing (some entries)) ∧
      (∀ entry, entry ∈ entries ↔ ∃ child, Path.parent? child = some path ∧
        Path.name child = entry.name ∧ AliveAs h child entry.kind) ∧
      entries.Pairwise fun a b => BornBefore h (Path.join path a.name) (Path.join path b.name)

/-- A store that remembers a history answers from it. -/
theorem Sound.recalls {s : Shared} {nodes : Contents} {h : List Deed} (hsound : s.Sound nodes)
    (hnodes : Remembers nodes h) (cursor : String) (options : SessionOptions) {path : String}
    (hpath : Path.Canonical path) : s.Recalls h cursor options path where
  pathExists :=
    ⟨_, hsound.request_pathExists options (hpath.resolve_self cursor), hnodes.alive path⟩
  fileText := by
    refine ⟨_, hsound.request_fileText options (hpath.resolve_self cursor),
      hnodes.content_iff hsound.tree path, ?_⟩
    rw [← hnodes.alive, ← hnodes.kind?_iff hsound.tree, Contents.kind?]
    cases nodes.find? path with
    | none => simp
    | some node => cases node <;> simp [Node.content?, Node.kind]
  listDirectory hdirectory := by
    have hkind := (hnodes.kind?_iff hsound.tree path .directory).mpr hdirectory
    exact ⟨_, hsound.request_listDirectory options (hpath.resolve_self cursor) hkind,
      hnodes.mem_listing hsound.tree path, hnodes.pairwise_listing path⟩

/-- After every run, every answer about a canonical path can be read off the history. -/
theorem recalls_run (backend : Backend) (now : Timestamp) {steps : List Step}
    (hstarted : ((fresh backend now).run steps).clients ≠ []) (cursor : String)
    (options : SessionOptions) {path : String} (hpath : Path.Canonical path) :
    ((fresh backend now).run steps).Recalls ((fresh backend now).history steps) cursor options
      path := by
  obtain ⟨nodes, hsound, hnodes⟩ :=
    preserved_remembers.run remembers_bare backend now hstarted
  exact hsound.recalls hnodes cursor options hpath

/-- A session writes a file, and another one removes it. -/
def sharedRun : List Step :=
  [.start false ⟨defaultQuotaBytes, false⟩, .start true ⟨defaultQuotaBytes, false⟩,
    .operate 0 (.createFile "a" "text"), .operate 1 (.delete "~/a")]

theorem recalls_sharedRun :
    ((fresh .memory 0).run sharedRun).Recalls ((fresh .memory 0).history sharedRun) Path.root
      ⟨defaultQuotaBytes, false⟩ "~/a" :=
  recalls_run .memory 0 (by decide +kernel) Path.root ⟨defaultQuotaBytes, false⟩
    (Path.Canonical.atRoot.of_resolve
      (by decide +kernel : Path.resolve "~/a" Path.root = .ok "~/a"))

end Shared
end VirtualShell
