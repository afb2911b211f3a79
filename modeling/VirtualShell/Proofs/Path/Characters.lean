import VirtualShell.Proofs.Path.Containment

/-!
# The characters of a path

Resolution writes the root and separators, and takes all other characters from what was typed and
from the working directory.  Parents and names take theirs from the path.
-/

namespace VirtualShell
namespace Path

theorem mem_of_mem_components {path : String} {part : List Char} (hpart : part ∈ components path)
    {c : Char} (hc : c ∈ part) : c ∈ path.toList :=
  (of_mem_split (mem_split_of_mem_components hpart).1).2 c hc

theorem mem_of_mem_start (raw cwd : String) :
    (∀ part ∈ (start raw cwd).1, ∀ c ∈ part, c ∈ cwd.toList) ∧
      ∀ c ∈ (start raw cwd).2, c ∈ raw.toList := by
  rw [start]
  split
  · rename_i hraw
    exact ⟨by simp, fun c hc => by simp [hraw, hc]⟩
  · rename_i hraw
    exact ⟨by simp, fun c hc => by simp [hraw, hc]⟩
  · exact ⟨fun part hpart c hc => mem_of_mem_components hpart hc, fun c hc => hc⟩

/-- Every character of what a text means comes from the text or the working directory, or is one
that canonical paths are written with. -/
theorem mem_of_resolve {raw cwd path : String} (hresolve : resolve raw cwd = .ok path) {c : Char}
    (hc : c ∈ path.toList) : c = '~' ∨ c = separator ∨ c ∈ raw.toList ∨ c ∈ cwd.toList := by
  rw [resolve] at hresolve
  split at hresolve
  · cases hresolve
  · split at hresolve
    · cases hresolve
      exact .inl (List.mem_singleton.mp hc)
    · cases hresolve
      obtain ⟨hposition, hrest⟩ := mem_of_mem_start raw cwd
      rw [toList_ofComponents, List.mem_cons, List.mem_flatMap] at hc
      rcases hc with rfl | ⟨part, hpart, hc⟩
      · exact .inl rfl
      · rcases List.mem_cons.mp hc with rfl | hc
        · exact .inr (.inl rfl)
        · rcases of_mem_foldl_follow hpart with hpart | ⟨hpart, -⟩
          · exact .inr (.inr (.inr (hposition part hpart c hc)))
          · exact .inr (.inr (.inl (hrest c ((of_mem_split hpart).2 c hc))))

theorem mem_of_parent? {path parent : String} (hparent : parent? path = some parent) {c : Char}
    (hc : c ∈ parent.toList) : c ∈ path.toList := by
  rw [parent?] at hparent
  split at hparent
  · cases hparent
  · rename_i first rest hdrop
    obtain rfl := Option.some.inj hparent
    rw [String.toList_ofList, List.mem_reverse] at hc
    have hrest : c ∈ path.toList.reverse.dropWhile (· ≠ separator) :=
      hdrop ▸ List.mem_cons_of_mem first hc
    exact List.mem_reverse.mp ((List.dropWhile_sublist _).subset hrest)

theorem mem_of_mem_name {path : String} {c : Char} (hc : c ∈ (Path.name path).toList) :
    c ∈ path.toList := by
  rw [Path.name, String.toList_ofList, List.mem_reverse] at hc
  exact List.mem_reverse.mp ((List.takeWhile_sublist _).subset hc)

end Path
end VirtualShell
