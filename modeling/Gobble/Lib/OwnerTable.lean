import Mathlib.Data.List.Perm.Basic
import Mathlib.Data.List.ReduceOption

/-!
# OwnerTable — the elements of a list and their owners

An owner table names for each element of a list its owner, if it has one, and names nobody twice.  When
an element is replaced and something happens to its owner only, the table stays a table.
-/

namespace Gobble
namespace Lib

theorem forall₂_getElem? {α β : Type} {R : α → β → Prop} {as : List α} {bs : List β}
    (h : List.Forall₂ R as bs) {i : Nat} {a : α} (ha : as[i]? = some a) :
    ∃ b, bs[i]? = some b ∧ R a b := by
  obtain ⟨hi, rfl⟩ := List.getElem?_eq_some_iff.mp ha
  have hi' : i < bs.length := h.length_eq ▸ hi
  exact ⟨bs.get ⟨i, hi'⟩, List.getElem?_eq_getElem hi', h.get hi hi'⟩

/-- Every element is related to its owner, or to none, and no two elements have one owner. -/
structure OwnerTable {α β : Type} (R : α → Option β → Prop) (xs : List α) (owners : List (Option β)) :
    Prop where
  each : List.Forall₂ R xs owners
  once : owners.reduceOption.Nodup

namespace OwnerTable

variable {α β : Type} {R R' : α → Option β → Prop} {xs : List α} {owners : List (Option β)}

/-- An owner stands in the table at one place. -/
theorem index_eq (h : OwnerTable R xs owners) {i j : Nat} {b : β} (hi : owners[i]? = some (some b))
    (hj : owners[j]? = some (some b)) : i = j := by
  have hpairwise := List.pairwise_iff_getElem.mp (List.pairwise_filterMap.mp h.once)
  obtain ⟨hilt, hi⟩ := List.getElem?_eq_some_iff.mp hi
  obtain ⟨hjlt, hj⟩ := List.getElem?_eq_some_iff.mp hj
  rcases Nat.lt_trichotomy i j with hlt | heq | hgt
  · exact absurd rfl (hpairwise i j hilt hjlt hlt b hi b hj)
  · exact heq
  · exact absurd rfl (hpairwise j i hjlt hilt hgt b hj b hi)

/-- One element is replaced.  The others have other owners, or none. -/
theorem set (h : OwnerTable R xs owners) {i : Nat} {o : Option β} (ho : owners[i]? = some o) {x' : α}
    (hnew : R' x' o) (hothers : ∀ y p, R y p → (∀ b, p = some b → o ≠ some b) → R' y p) :
    OwnerTable R' (xs.set i x') owners := by
  obtain ⟨hlength, hrelated⟩ := List.forall₂_iff_get.mp h.each
  refine ⟨List.forall₂_iff_get.mpr ⟨by rw [List.length_set, hlength], fun j hj hj' => ?_⟩, h.once⟩
  have howner : owners[j]? = some (owners.get ⟨j, hj'⟩) := List.getElem?_eq_getElem hj'
  rw [List.length_set] at hj
  rw [List.get_eq_getElem, List.getElem_set]
  by_cases hij : i = j
  · subst hij
    rw [if_pos rfl, Option.some.inj (howner.symm.trans ho)]
    exact hnew
  · rw [if_neg hij]
    refine hothers _ _ (hrelated j hj hj') fun b hb hsame => hij ?_
    rw [hb] at howner
    rw [hsame] at ho
    exact h.index_eq ho howner

/-- Elements without an owner are put in front. -/
theorem append_left (h : OwnerTable R xs owners) {added : List α} (hadded : ∀ x ∈ added, R x none) :
    OwnerTable R (added ++ xs) (List.replicate added.length none ++ owners) := by
  constructor
  · refine List.rel_append (List.forall₂_iff_get.mpr ⟨(List.length_replicate ..).symm, ?_⟩) h.each
    intro i hi hi'
    rw [List.get_eq_getElem, List.get_eq_getElem, List.getElem_replicate]
    exact hadded _ (List.getElem_mem hi)
  · rw [List.reduceOption_append, List.reduceOption_replicate_none, List.nil_append]
    exact h.once

theorem perm (h : OwnerTable R xs owners) {ys : List α} (hperm : ys.Perm xs) :
    ∃ owners', OwnerTable R ys owners' ∧ owners'.Perm owners := by
  obtain ⟨owners', heach, howners⟩ := List.perm_comp_forall₂ hperm h.each
  exact ⟨owners', ⟨heach, (howners.filterMap id).nodup_iff.mpr h.once⟩, howners⟩

end OwnerTable

end Lib
end Gobble
