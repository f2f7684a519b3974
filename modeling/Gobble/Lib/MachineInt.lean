import Mathlib.Data.BitVec

/-!
# MachineInt — unsigned 64-bit arithmetic with explicit overflow behaviour

`BitVec` addition wraps.  Systems code mixes wrapping, *saturating* and *checked* operations on the
same type, and a proof about such code has to know which one was used.  This file defines the
saturating and checked variants on `U64` and gives each of them one lemma about `toNat`, so that a
later proof can move to natural numbers and finish with `omega`.
-/

namespace Gobble
namespace Lib

/-- An unsigned 64-bit machine word. -/
abbrev U64 := BitVec 64

/-- The largest `U64`. -/
def u64Max : Nat := 2 ^ 64 - 1

namespace U64

/-- Addition that stops at the largest word. -/
def saturatingAdd (a b : U64) : U64 :=
  if a.toNat + b.toNat ≤ u64Max then a + b else BitVec.allOnes 64

/-- Subtraction that stops at zero. -/
def saturatingSub (a b : U64) : U64 :=
  if b.toNat ≤ a.toNat then a - b else 0

/-- Multiplication that stops at the largest word. -/
def saturatingMul (a b : U64) : U64 :=
  if a.toNat * b.toNat ≤ u64Max then a * b else BitVec.allOnes 64

/-- Addition that reports overflow. -/
def checkedAdd (a b : U64) : Option U64 :=
  if a.toNat + b.toNat ≤ u64Max then some (a + b) else none

@[simp] theorem toNat_saturatingAdd (a b : U64) :
    (saturatingAdd a b).toNat = min (a.toNat + b.toNat) u64Max := by
  unfold saturatingAdd u64Max
  split
  · rename_i h
    rw [BitVec.toNat_add]
    omega
  · rename_i h
    rw [BitVec.toNat_allOnes]
    omega

@[simp] theorem toNat_saturatingSub (a b : U64) :
    (saturatingSub a b).toNat = a.toNat - b.toNat := by
  unfold saturatingSub
  split
  · rename_i h
    exact BitVec.toNat_sub_of_le (BitVec.le_def.mpr h)
  · rename_i h
    have hzero : (0 : U64).toNat = 0 := rfl
    rw [hzero]
    omega

@[simp] theorem toNat_saturatingMul (a b : U64) :
    (saturatingMul a b).toNat = min (a.toNat * b.toNat) u64Max := by
  unfold saturatingMul
  split
  · rename_i h
    have hlt : a.toNat * b.toNat < 2 ^ 64 := by
      unfold u64Max at h
      omega
    rw [BitVec.toNat_mul, Nat.mod_eq_of_lt hlt]
    omega
  · rename_i h
    rw [BitVec.toNat_allOnes]
    unfold u64Max at h ⊢
    omega

theorem checkedAdd_eq_some_iff {a b c : U64} :
    checkedAdd a b = some c ↔ a.toNat + b.toNat ≤ u64Max ∧ c.toNat = a.toNat + b.toNat := by
  unfold checkedAdd
  split
  · rename_i h
    have hsum : (a + b).toNat = a.toNat + b.toNat := by
      rw [BitVec.toNat_add]
      unfold u64Max at h
      omega
    constructor
    · intro hc
      cases hc
      exact ⟨h, hsum⟩
    · rintro ⟨-, hc⟩
      have : a + b = c := BitVec.eq_of_toNat_eq (by rw [hsum, hc])
      rw [this]
  · rename_i h
    constructor
    · intro hc
      cases hc
    · rintro ⟨hle, -⟩
      exact absurd hle h

theorem toNat_le_u64Max (a : U64) : a.toNat ≤ u64Max := by
  have h := a.isLt
  unfold u64Max
  omega

theorem toNat_ofNat {n : Nat} (h : n ≤ u64Max) : (BitVec.ofNat 64 n).toNat = n := by
  unfold u64Max at h
  rw [BitVec.toNat_ofNat, Nat.mod_eq_of_lt (by omega)]

/-- An offset that stays in the address space. -/
theorem toNat_add_ofNat {a : U64} {n : Nat} (h : a.toNat + n ≤ u64Max) :
    (a + BitVec.ofNat 64 n).toNat = a.toNat + n := by
  unfold u64Max at h
  rw [BitVec.toNat_add, BitVec.toNat_ofNat, Nat.add_mod_mod, Nat.mod_eq_of_lt (by omega)]

end U64

/-! ## Masks -/

/-- A mask of high bits keeps the multiple of `2 ^ shift` below a word. -/
theorem toNat_and_allOnes_shiftLeft {w : Nat} (x : BitVec w) (shift : Nat) :
    (x &&& (BitVec.allOnes w <<< shift)).toNat = x.toNat / 2 ^ shift * 2 ^ shift := by
  rw [← Nat.shiftRight_eq_div_pow, ← Nat.shiftLeft_eq]
  apply Nat.eq_of_testBit_eq
  intro i
  rw [BitVec.testBit_toNat, Nat.testBit_shiftLeft, Nat.testBit_shiftRight, BitVec.testBit_toNat]
  by_cases hlow : i < shift
  · simp [hlow]
  · have hback : shift + (i - shift) = i := by omega
    by_cases hw : i < w
    · simp [hlow, hback, hw, Nat.not_lt.mp hlow]
    · simp [hback, hw, BitVec.getLsbD_of_ge x i (Nat.not_lt.mp hw)]

/-- The complement of such a mask keeps the rest. -/
theorem toNat_and_not_allOnes_shiftLeft {w : Nat} (x : BitVec w) (shift : Nat) :
    (x &&& ~~~(BitVec.allOnes w <<< shift)).toNat = x.toNat % 2 ^ shift := by
  apply Nat.eq_of_testBit_eq
  intro i
  rw [BitVec.testBit_toNat, Nat.testBit_mod_two_pow, BitVec.testBit_toNat]
  by_cases hw : i < w
  · by_cases hlow : i < shift
    · simp [hlow, hw]
    · simp [hlow, hw]
  · simp [hw, BitVec.getLsbD_of_ge x i (Nat.not_lt.mp hw)]

/-! ## Signed words as integers -/

def i64Min : Int := -2 ^ 63
def i64Max : Int := 2 ^ 63 - 1

/-- The result of a saturating signed operation whose exact value is `x`. -/
def clampI64 (x : Int) : Int := max i64Min (min x i64Max)

theorem clampI64_eq {x : Int} (hlo : i64Min ≤ x) (hhi : x ≤ i64Max) : clampI64 x = x := by
  unfold clampI64
  omega

/-- `i64::checked_div`, which rounds towards zero. -/
def checkedDivI64 (a b : Int) : Option Int :=
  if b = 0 ∨ (a = i64Min ∧ b = -1) then none else some (a.tdiv b)

/-- `as i64` of an unsigned number. -/
def asI64 (n : Nat) : Int := (BitVec.ofNat 64 n).toInt

end Lib
end Gobble
