import Mathlib.Data.List.Basic

/-!
# FirstIndex — a table of first positions

`firstIndices bound absent xs` maps every number below `bound` to its first position in `xs`, and to
`absent` if it is not in the list.  When an element is appended, the table stays as it is or changes
in one place, depending on whether the list has had the element already.
-/

namespace Gobble
namespace Lib

def firstIndices (bound absent : Nat) (xs : List Nat) : List Nat :=
  (List.range bound).map fun x => if x ∈ xs then xs.idxOf x else absent

variable {bound absent x : Nat} {xs : List Nat}

@[simp] theorem length_firstIndices : (firstIndices bound absent xs).length = bound := by
  simp [firstIndices]

theorem firstIndices_nil : firstIndices bound absent [] = List.replicate bound absent := by
  simp [firstIndices]

theorem getElem?_firstIndices (hx : x < bound) :
    (firstIndices bound absent xs)[x]? = some (if x ∈ xs then xs.idxOf x else absent) := by
  simp [firstIndices, hx]

theorem getElem?_firstIndices_of_mem (hx : x < bound) (hmem : x ∈ xs) :
    (firstIndices bound absent xs)[x]? = some (xs.idxOf x) := by
  rw [getElem?_firstIndices hx, if_pos hmem]

/-- An element that the list has already does not change the table. -/
theorem firstIndices_concat_of_mem (hmem : x ∈ xs) :
    firstIndices bound absent (xs ++ [x]) = firstIndices bound absent xs := by
  apply List.map_congr_left
  intro y _
  have hiff : y ∈ xs ++ [x] ↔ y ∈ xs := by
    rw [List.mem_append, List.mem_singleton]
    constructor
    · rintro (hy | rfl)
      · exact hy
      · exact hmem
    · exact Or.inl
  by_cases hy : y ∈ xs
  · rw [if_pos (hiff.mpr hy), if_pos hy, List.idxOf_append_of_mem hy]
  · rw [if_neg (mt hiff.mp hy), if_neg hy]

/-- A new element gets the next position. -/
theorem firstIndices_concat_of_not_mem (hmem : x ∉ xs) :
    firstIndices bound absent (xs ++ [x]) = (firstIndices bound absent xs).set x xs.length := by
  refine List.ext_getElem? fun y => ?_
  rw [List.getElem?_set, length_firstIndices]
  by_cases hy : y < bound
  · rw [getElem?_firstIndices hy, getElem?_firstIndices hy]
    by_cases heq : x = y
    · subst heq
      rw [if_pos (by simp), if_pos rfl, if_pos hy, List.idxOf_append_of_notMem hmem]
      simp
    · have hiff : y ∈ xs ++ [x] ↔ y ∈ xs := by simp [Ne.symm heq]
      rw [if_neg heq]
      by_cases hin : y ∈ xs
      · rw [if_pos (hiff.mpr hin), if_pos hin, List.idxOf_append_of_mem hin]
      · rw [if_neg (mt hiff.mp hin), if_neg hin]
  · have hnone : ∀ ys, (firstIndices bound absent ys)[y]? = none := fun ys =>
      List.getElem?_eq_none (by rw [length_firstIndices]; omega)
    rw [hnone, hnone]
    split
    · rename_i heq
      rw [if_neg (by omega)]
    · rfl

end Lib
end Gobble
