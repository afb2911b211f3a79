import Mathlib.Data.List.Basic
import Mathlib.Logic.Relation
import VirtualShell.Store

/-!
# What the walk finds

The walk below some paths finds these paths and whatever is reached from them by going from a path
to one of its children.  Nothing is assumed of the store.
-/

namespace VirtualShell
namespace Store

/-- A path is reached from another one by going to children any number of times. -/
def Reaches (s : Store) : String → String → Prop :=
  Relation.ReflTransGen fun path child => child ∈ s.children path

theorem reaches_iff (s : Store) (path target : String) :
    s.Reaches path target ↔ path = target ∨ ∃ child ∈ s.children path, s.Reaches child target := by
  rw [Reaches, Relation.ReflTransGen.cases_head_iff]

/-- What is reached from a path is no shorter. -/
theorem Reaches.length_le {s : Store} {path target : String} (hreaches : s.Reaches path target) :
    path.length ≤ target.length := by
  induction hreaches with
  | refl => exact Nat.le_refl _
  | tail _ hchild ih => exact Nat.le_trans ih (Nat.le_of_lt (length_lt_of_mem_children hchild))

/-- The walk finds what is reached from the pending paths, and forgets nothing. -/
theorem mem_walk (s : Store) (pending found : List String) (target : String) :
    target ∈ s.walk pending found ↔
      target ∈ found ∨ ∃ path ∈ pending, s.Reaches path target := by
  induction pending, found using Store.walk.induct s with
  | case1 found =>
      rw [walk]
      simp
  | case2 found path rest ih =>
      rw [walk, ih, List.exists_mem_cons_iff]
      have hsplit : (∃ p ∈ (s.children path).reverse ++ rest, s.Reaches p target) ↔
          (∃ p ∈ s.children path, s.Reaches p target) ∨ ∃ p ∈ rest, s.Reaches p target := by
        simp [or_and_right, exists_or]
      have hfound : target ∈ path :: found ↔ path = target ∨ target ∈ found := by
        rw [List.mem_cons, eq_comm]
      rw [hsplit, hfound, reaches_iff s path target]
      simp only [or_assoc, or_left_comm]

end Store
end VirtualShell
