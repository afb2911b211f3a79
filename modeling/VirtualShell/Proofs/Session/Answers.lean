import VirtualShell.Proofs.Session.Success
import VirtualShell.Proofs.Tree.Invariant

/-!
# What the reading operations answer

On a store that holds nodes, the reading operations never fail, and what they answer is read off
the nodes.
-/

namespace VirtualShell

/-- The content of a file. -/
def Node.content? : Node → Option String
  | .directory _ _ _ => none
  | .file _ content _ _ => some content

/-- The entries for those of some names under which something is stored. -/
def Contents.listing (nodes : Contents) (directory : String) (names : List String) :
    List Entry :=
  names.filterMap fun name => (nodes.kind? (Path.join directory name)).map (Entry.mk name)

namespace Session

variable {s : Scene} {nodes : Contents} (hs : s.store.Holds nodes)

include hs

theorem play_entries (directory : String) (names : List String) :
    (entries directory names).play s = (.ok (nodes.listing directory names), s) := by
  induction names with
  | nil => rfl
  | cons name names ih =>
      rw [entries, Action.play_bind, Action.play_get, hs.get]
      cases hfind : nodes.find? (Path.join directory name) with
      | none => simp [Action.play_bind, ih, Contents.listing, Contents.kind?, hfind]
      | some node => simp [Action.play_bind, ih, Contents.listing, Contents.kind?, hfind]

section

variable {raw path : String} (hresolve : Path.resolve raw s.cursor = .ok path)

include hresolve

theorem play_pathExists : (pathExists raw).play s = (.ok (nodes.find? path).isSome, s) := by
  rw [pathExists, Action.play_bind, play_resolve, hresolve]
  show (Action.get path >>= fun found => pure found.isSome : Action Bool).play s = _
  rw [Action.play_bind, Action.play_get, hs.get]
  rfl

theorem play_fileText :
    (fileText raw).play s = (.ok ((nodes.find? path).bind Node.content?), s) := by
  rw [fileText, Action.play_bind, play_resolve, hresolve]
  simp only [Except.toOption, Action.play_bind, Action.play_get, hs.get]
  cases nodes.find? path with
  | none => rfl
  | some node => cases node <;> rfl

theorem play_listDirectory (hdirectory : nodes.kind? path = some .directory) :
    (listDirectory raw).play s = (.ok (some (nodes.listing path (nodes.names path))), s) := by
  rw [listDirectory, Action.play_bind, play_resolve, hresolve]
  simp only [Except.toOption, Action.play_bind, Action.play_get, hs.get]
  obtain ⟨node, hfind, hnode⟩ := Option.map_eq_some_iff.mp hdirectory
  cases node with
  | directory own name children =>
      rw [hfind, Contents.names_of_find? hfind]
      simp only [Action.play_bind, play_entries hs]
      rfl
  | file own content created modified => cases hnode

end

end Session
end VirtualShell
