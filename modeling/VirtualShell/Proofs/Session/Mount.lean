import VirtualShell.Proofs.Routine.Play
import VirtualShell.Proofs.Session.Operation

/-!
# Starting on a store

What starting a session comes to, on any store: it reads the root, and only if there is none does it
make its one commit.  After the first tree is in, the root is there, so that nothing is done twice.
-/

namespace VirtualShell

namespace Session

variable (s : Scene)

@[simp]
theorem play_report (level : Log.Level) (message : String) (fields : List (String × Log.Value)) :
    (report level message fields).play s = (.ok (), s) := rfl

@[simp]
theorem play_flushIfWanted (options : SessionOptions) :
    (flushIfWanted options).play s = (.ok (), s) := by
  rw [flushIfWanted]
  split <;> simp

/-- Starting on a bare store puts the root there. -/
theorem play_mount (options : SessionOptions) :
    (mount options).play s =
      match s.store.get Path.root with
      | .error e => (.error e, s)
      | .ok (some _) => (.ok (), s)
      | .ok none => s.commit [.put (.emptyDirectory Path.root Path.root)] := by
  rw [mount, Action.play_bind, Action.play_get]
  cases s.store.get Path.root with
  | error e => rfl
  | ok found =>
      cases found with
      | some node => rfl
      | none =>
          simp only [Option.isNone_none, if_true, Action.play_bind, Action.play_commit,
            Scene.commit]
          cases s.refusal with
          | none => simp
          | some e => rfl

end Session

namespace Seed

theorem addChild_cons_of_ne {parent name : String} {node : Node} (nodes : List Node)
    (hpath : node.path ≠ parent) :
    addChild parent name (node :: nodes) = (addChild parent name nodes).map (node :: ·) := by
  cases node with
  | directory path own children => exact if_neg hpath
  | file path content created modified => rfl

/-- Adding a name changes nothing that does not depend on the names. -/
theorem map_addChild {α : Type} {f : Node → α}
    (hf : ∀ path name children children',
      f (.directory path name children) = f (.directory path name children'))
    {parent name : String} {nodes nodes' : List Node}
    (hadd : addChild parent name nodes = some nodes') : nodes'.map f = nodes.map f := by
  induction nodes generalizing nodes' with
  | nil => cases hadd
  | cons node nodes ih =>
      by_cases hhead : ∃ own children, node = .directory parent own children
      · obtain ⟨own, children, rfl⟩ := hhead
        rw [addChild, if_pos rfl] at hadd
        cases hadd
        rw [List.map_cons, List.map_cons, hf]
      · have hskip : addChild parent name (node :: nodes) =
            (addChild parent name nodes).map (node :: ·) := by
          cases node with
          | directory path own children =>
              refine if_neg fun heq => hhead ⟨own, children, ?_⟩
              rw [heq]
          | file path content created modified => rfl
        rw [hskip] at hadd
        obtain ⟨rest, hrest, rfl⟩ := Option.map_eq_some_iff.mp hadd
        rw [List.map_cons, List.map_cons, ih hrest]

theorem paths_addChild {parent name : String} {nodes nodes' : List Node}
    (hadd : addChild parent name nodes = some nodes') :
    nodes'.map Node.path = nodes.map Node.path :=
  map_addChild (fun _ _ _ _ => rfl) hadd

/-- Attaching a node removes none. -/
theorem mem_paths_attach {path : String} {nodes : List Node} (node : Node)
    (hpath : path ∈ nodes.map Node.path) : path ∈ (attach nodes node).map Node.path := by
  rw [attach]
  split
  · exact hpath
  · split
    · exact hpath
    · rename_i hadd
      rw [List.map_append, paths_addChild hadd]
      exact List.mem_append_left _ hpath

theorem root_mem_paths_tree (now : Timestamp) : Path.root ∈ (tree now).map Node.path := by
  have hfold : ∀ {α : Type} (items : List α) (node : α → Node) (nodes : List Node),
      Path.root ∈ nodes.map Node.path →
      Path.root ∈
        (items.foldl (fun nodes item => attach nodes (node item)) nodes).map Node.path := by
    intro α items node nodes hroot
    induction items generalizing nodes with
    | nil => exact hroot
    | cons item items ih => exact ih _ (mem_paths_attach _ hroot)
  exact hfold _ _ _ (hfold _ _ _ (List.mem_singleton_self _))

/-- Starting on a bare store puts the first tree there, with the root. -/
theorem play_mount (options : SessionOptions) (s : Scene) :
    (mount options).play s =
      match s.store.get Path.root with
      | .error e => (.error e, s)
      | .ok (some _) => (.ok false, s)
      | .ok none =>
        match s.commit ((tree s.now).map .put) with
        | (.error e, s) => (.error e, s)
        | (.ok _, s) => (.ok true, s) := by
  rw [mount, Action.play_bind, Action.play_get]
  cases hget : s.store.get Path.root with
  | error e => rfl
  | ok found =>
      cases found with
      | some node =>
          simp [Action.play_bind, Session.play_mount, hget]
      | none =>
          -- the root is there afterwards, so that starting once more finds it
          obtain ⟨root, hroot⟩ := Store.get_foldl_put s.store
            (.inr (List.mem_map.mp (root_mem_paths_tree s.now)))
          simp only [Option.isNone_none, if_true, Action.play_bind, Action.play_clock,
            Action.play_commit, Scene.commit]
          cases s.refusal with
          | none => simp [Session.play_mount, hroot]
          | some e => rfl

/-- The changes that a start makes on a bare store. -/
def changes (seeded : Bool) (now : Timestamp) : List Change :=
  if seeded then (tree now).map .put else [.put (.emptyDirectory Path.root Path.root)]

end Seed

/-- Whether seeded or not, a start reads the root and then makes its changes or none. -/
theorem Request.play_start (options : SessionOptions) (seeded : Bool) (s : Scene) :
    ((Request.start seeded).perform options).play s =
      match s.store.get Path.root with
      | .error e => (.error e, s)
      | .ok (some _) => (.ok (.started false), s)
      | .ok none =>
        match s.commit (Seed.changes seeded s.now) with
        | (.error e, s) => (.error e, s)
        | (.ok _, s) => (.ok (.started seeded), s) := by
  cases seeded with
  | true =>
      rw [Request.perform, Action.play_bind, Seed.play_mount, Scene.commit, Scene.commit]
      cases s.store.get Path.root with
      | error e => rfl
      | ok found =>
          cases found with
          | some node => rfl
          | none => cases s.refusal <;> rfl
  | false =>
      rw [Request.perform, Action.play_bind, Session.play_mount, Scene.commit, Scene.commit]
      cases s.store.get Path.root with
      | error e => rfl
      | ok found =>
          cases found with
          | some node => rfl
          | none => cases s.refusal <;> rfl

end VirtualShell
