import Mathlib.Data.List.Basic

/-!
# Trace — the part of a history after the last event of a kind

Trace specifications speak about "the events since the last reset".  `sinceLast p xs` is the longest
suffix of `xs` without an event satisfying `p`; the lemma `sinceLast_concat` says how it changes
when one event is appended, which is the only fact an induction over histories needs.
-/

namespace Gobble
namespace Lib

variable {α : Type}

/-- The events after the last one that satisfies `p`. -/
def sinceLast (p : α → Bool) (xs : List α) : List α :=
  (xs.reverse.takeWhile fun x => !p x).reverse

@[simp] theorem sinceLast_nil (p : α → Bool) : sinceLast p [] = [] :=
  rfl

@[simp] theorem sinceLast_concat (p : α → Bool) (xs : List α) (x : α) :
    sinceLast p (xs ++ [x]) = if p x then [] else sinceLast p xs ++ [x] := by
  unfold sinceLast
  rw [List.reverse_append]
  cases hx : p x with
  | true => simp [hx]
  | false => simp [hx]

theorem sinceLast_subset (p : α → Bool) (xs : List α) : ∀ x ∈ sinceLast p xs, x ∈ xs := by
  intro x hx
  unfold sinceLast at hx
  have htake : x ∈ xs.reverse.takeWhile fun x => !p x := List.mem_reverse.mp hx
  exact List.mem_reverse.mp ((List.takeWhile_sublist _).subset htake)

/-- What stands in a list stands there in every extension of the list. -/
theorem getElem?_mono {xs ys : List α} (h : xs <+: ys) {i : Nat} {x : α}
    (hx : xs[i]? = some x) : ys[i]? = some x := by
  obtain ⟨more, rfl⟩ := h
  rw [List.getElem?_append_left (List.getElem?_eq_some_iff.mp hx).1]
  exact hx

/-- An event of a history that has just been appended to is an old one or the new one. -/
theorem getElem?_concat_eq_some_iff {xs : List α} {x y : α} {i : Nat} :
    (xs ++ [x])[i]? = some y ↔ xs[i]? = some y ∨ i = xs.length ∧ x = y := by
  rw [List.getElem?_append]
  split
  · rename_i hlt
    simp [Nat.ne_of_lt hlt]
  · rename_i hge
    have hnone : xs[i]? = none := List.getElem?_eq_none (Nat.le_of_not_lt hge)
    rw [hnone, List.getElem?_singleton]
    constructor
    · intro h
      split at h
      · rename_i hzero
        exact Or.inr ⟨by omega, Option.some.inj h⟩
      · cases h
    · rintro (h | ⟨rfl, rfl⟩)
      · cases h
      · rw [Nat.sub_self, if_pos rfl]

end Lib
end Gobble
