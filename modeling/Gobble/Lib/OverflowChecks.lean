import Gobble.Lib.MachineInt
import Gobble.Lib.Outcome

/-!
# OverflowChecks — arithmetic of a build with overflow checks

Rust has two meanings of `+` on machine words.  A debug build computes the exact result and panics if
it does not fit into the word; a release build wraps around.  This file is the first of the two.  A
chain of checked operations that only grows is one checked operation (`ofNatOrPanic_bind`), so a
function made of them has one equation in natural numbers.
-/

namespace Gobble
namespace Lib
namespace U64

variable {ε : Type}

/-- The word that holds the number; a panic if there is none. -/
def ofNatOrPanic (n : Nat) : Outcome ε U64 :=
  if n ≤ u64Max then .ok (BitVec.ofNat 64 n) else Outcome.panic

def addOrPanic (a b : U64) : Outcome ε U64 :=
  ofNatOrPanic (a.toNat + b.toNat)

def mulOrPanic (a b : U64) : Outcome ε U64 :=
  ofNatOrPanic (a.toNat * b.toNat)

theorem ofNatOrPanic_eq_ok_iff {n : Nat} {c : U64} :
    (ofNatOrPanic n : Outcome ε U64) = .ok c ↔ n ≤ u64Max ∧ c.toNat = n := by
  unfold ofNatOrPanic
  split
  · rename_i hfits
    constructor
    · intro h
      cases h
      exact ⟨hfits, toNat_ofNat hfits⟩
    · rintro ⟨-, rfl⟩
      rw [BitVec.ofNat_toNat, BitVec.setWidth_eq]
  · rename_i hbig
    constructor
    · intro h
      cases h
    · rintro ⟨hfits, -⟩
      exact absurd hfits hbig

/-- Two checked operations in a row, the second of which does not decrease its argument. -/
theorem ofNatOrPanic_bind {n : Nat} {f : U64 → Outcome ε U64} {g : Nat → Nat}
    (hf : ∀ c : U64, f c = ofNatOrPanic (g c.toNat)) (hg : n ≤ g n) :
    ofNatOrPanic n >>= f = ofNatOrPanic (g n) := by
  by_cases hfits : n ≤ u64Max
  · have hn : (ofNatOrPanic n : Outcome ε U64) = .ok (BitVec.ofNat 64 n) := if_pos hfits
    calc ofNatOrPanic n >>= f = f (BitVec.ofNat 64 n) := by rw [hn]; rfl
      _ = ofNatOrPanic (g n) := by rw [hf, toNat_ofNat hfits]
  · -- The first operation panics, and the exact result of both does not fit either.
    have hn : (ofNatOrPanic n : Outcome ε U64) = Outcome.panic := if_neg hfits
    have hgn : (ofNatOrPanic (g n) : Outcome ε U64) = Outcome.panic := if_neg (by omega)
    rw [hn, hgn]
    rfl

end U64
end Lib
end Gobble
