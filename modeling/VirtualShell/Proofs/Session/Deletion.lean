import VirtualShell.Proofs.Session.Outcome
import VirtualShell.Proofs.Tree.Editing

/-!
# What a deletion takes away

A deletion takes away what is stored at and below its path, and nothing else: not what only begins
with the same letters, and no less where the directories list other names than they should.  From
the directory above it takes the name of the path, however often it stands there.
-/

namespace VirtualShell

/-- What is found after the changes that remove a stored path with all that lies below it. -/
theorem Contents.Grounded.find?_removal {nodes : Contents} (hgrounded : nodes.Grounded) {s : Store}
    (hs : s.Shows nodes) {path parent : String} (hparent : Path.parent? path = some parent)
    {node : Node} (hfind : nodes.find? path = some node) (key : String) :
    ((Session.removal (Session.doomed s path node.kind) (Path.name path)
        (nodes.find? parent)).foldl MemoryStore.applyChange nodes).find? key =
      if Path.isWithin key path then none
      else if key = parent then
        (nodes.find? key).map (Node.relist (List.filter (· ≠ Path.name path)))
      else nodes.find? key := by
  obtain ⟨own, children, habove⟩ := hgrounded.exists_parent hfind hparent
  obtain ⟨-, -, hjoin⟩ := (hgrounded.canonical hfind).of_parent? hparent
  have houtside : ¬ Path.isWithin parent path = true := by
    rw [hjoin]
    exact Path.not_isWithin_join
  rw [Contents.find?_removal habove houtside (hgrounded.mem_doomed hs hfind)]
  split
  · rfl
  · split
    · rename_i hkey
      rw [hkey, habove]
      rfl
    · rfl

namespace Session

/-- Where the paths are in order, a deletion takes away the stored paths at and below its own, and
the name from the directory above; a cursor among them goes to that directory.  Where there is
nothing stored below the root there is nothing to delete, and nothing changes. -/
theorem delete_takes_subtree {w : World} {nodes : Contents} (hs : w.store.Shows nodes)
    (hgrounded : nodes.Grounded) (hwilling : w.store.refuses = false) (options : SessionOptions)
    (raw : String) :
    (∀ path, Path.resolve raw w.cursor = .ok path → path ≠ Path.root →
      (nodes.find? path).isSome →
      ∃ parent nodes', Path.parent? path = some parent ∧
        ((delete options raw).run w).1 = .ok true ∧
        ((delete options raw).run w).2.store.Shows nodes' ∧
        (∀ key, nodes'.find? key =
          if Path.isWithin key path then none
          else if key = parent then
            (nodes.find? key).map (Node.relist (List.filter (· ≠ Path.name path)))
          else nodes.find? key) ∧
        ((delete options raw).run w).2.cursor =
          if Path.isWithin w.cursor path then parent else w.cursor) ∧
    ((∀ path, Path.resolve raw w.cursor = .ok path →
        path = Path.root ∨ nodes.find? path = none) →
      ((delete options raw).run w).1 = .ok false ∧
        ((delete options raw).run w).2.store = w.store ∧
        ((delete options raw).run w).2.cursor = w.cursor) := by
  have hscene : (w.scene .intact).store.Shows nodes := hs
  constructor
  · intro path hresolve hroot hstored
    obtain ⟨node, hfind⟩ := Option.isSome_iff_exists.mp hstored
    have hcanonical := hgrounded.canonical hfind
    obtain ⟨parent, hparent, -⟩ := hcanonical.cases_parent.resolve_left hroot
    have hrefusal : (w.scene .intact).refusal = none := by
      rw [w.refusal_scene rfl, hwilling]
      rfl
    obtain ⟨hresult, hstore, hcursor⟩ := Action.run_of_play
      (play_delete options hscene hrefusal hresolve hparent hfind)
    refine ⟨parent, _, hparent, hresult, ?_, hgrounded.find?_removal hs hparent hfind, hcursor⟩
    rw [hstore]
    exact hscene.foldl_apply _
  · intro hnothing
    refine Action.run_of_play (s := w.scene .intact) ?_
    cases hresolve : Path.resolve raw w.cursor with
    | error e => exact play_of_malformed rfl hresolve
    | ok path =>
        refine play_delete_nothing options hscene hresolve ?_
        rcases hnothing path hresolve with rfl | hnone
        · exact .inl Path.parent?_root
        · exact .inr hnone

/-- A tree whose directories list other names than they should: one twice, one under which nothing
is stored, and none for what lies below `~/a`. -/
def mislisted : MemoryStore where
  nodes := [Node.directory Path.root "~" ["a", "ghost", "a"], .emptyDirectory "~/a" "a",
      .emptyDirectory "~/a/b" "b", .file "~/a/b/c" "text" 1 2, .file "~/ab" "" 3 3,
      .file "~/a!" "" 4 4].foldl (fun nodes node => nodes.insert node.path node) .empty
  refusesWrites := false

/-- What is not listed goes too, both listed names go, and the cursor comes up. -/
theorem delete_takes_subtree_mislisted :
    ∃ nodes' : Contents,
      ((delete ⟨defaultQuotaBytes, true⟩ "../../a").run ⟨.memory mislisted, "~/a/b", 9, []⟩).1 =
        .ok true ∧
      ((delete ⟨defaultQuotaBytes, true⟩ "../../a").run
        ⟨.memory mislisted, "~/a/b", 9, []⟩).2.store.Shows nodes' ∧
      nodes'.find? "~/a" = none ∧ nodes'.find? "~/a/b" = none ∧ nodes'.find? "~/a/b/c" = none ∧
      nodes'.find? Path.root = some (.directory Path.root "~" ["ghost"]) ∧
      nodes'.find? "~/ab" = some (.file "~/ab" "" 3 3) ∧
      nodes'.find? "~/a!" = some (.file "~/a!" "" 4 4) ∧
      ((delete ⟨defaultQuotaBytes, true⟩ "../../a").run
        ⟨.memory mislisted, "~/a/b", 9, []⟩).2.cursor = Path.root := by
  have hgrounded : Contents.Grounded mislisted.nodes := by decide +kernel
  obtain ⟨parent, nodes', hparent, hreply, hshows, hfind, hcursor⟩ :=
    (delete_takes_subtree (w := ⟨.memory mislisted, "~/a/b", 9, []⟩)
      (Store.shows_memory mislisted) hgrounded rfl ⟨defaultQuotaBytes, true⟩ "../../a").1
      "~/a" (by decide +kernel) (by decide) (by decide +kernel)
  obtain rfl : Path.root = parent := Option.some.inj hparent
  refine ⟨nodes', hreply, hshows, ?_, ?_, ?_, ?_, ?_, ?_, hcursor⟩ <;> rw [hfind]
  all_goals decide +kernel

end Session
end VirtualShell
