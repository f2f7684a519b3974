import Gobble.Lib.OverflowChecks

/-!
# AddrRange — ranges of machine words, and how they are moved

The detector turns ranges of instruction data into ranges of the sysvar, and the runtime turns those
into ranges of VM addresses.  Both add a base to each end.  The additions are those of the debug
build, which is the one that the project's manual builds: they panic on overflow.
-/

namespace Gobble
namespace Sbpf

open Lib

/-- A half-open range of machine words, `start..stop`. -/
structure AddrRange where
  start : U64
  stop : U64
  deriving DecidableEq, Repr

namespace AddrRange

/-- `Range::is_empty`. -/
def isEmpty (r : AddrRange) : Bool :=
  !decide (r.start < r.stop)

/-- `x` is one of the addresses of the range. -/
def Contains (r : AddrRange) (x : Nat) : Prop :=
  r.start.toNat ≤ x ∧ x < r.stop.toNat

instance (r : AddrRange) (x : Nat) : Decidable (r.Contains x) :=
  inferInstanceAs (Decidable (_ ∧ _))

theorem isEmpty_eq_false_iff (r : AddrRange) :
    r.isEmpty = false ↔ r.start.toNat < r.stop.toNat := by
  unfold isEmpty
  rw [Bool.not_eq_false', decide_eq_true_iff, BitVec.lt_def]

end AddrRange

section Shift

variable {ε : Type}

def shiftRange (base : U64) (r : AddrRange) : Outcome ε AddrRange := do
  let start ← U64.addOrPanic base r.start
  let stop ← U64.addOrPanic base r.stop
  return ⟨start, stop⟩

/-- The ranges in unbounded integers, moved by `base`. -/
def movedBy (base : Nat) (ranges : List AddrRange) : List (Nat × Nat) :=
  ranges.map fun r => (base + r.start.toNat, base + r.stop.toNat)

variable {base : U64} {r r' : AddrRange} {ranges moved : List AddrRange}

theorem shiftRange_exact (h : (shiftRange base r : Outcome ε AddrRange) = .ok r') :
    r'.start.toNat = base.toNat + r.start.toNat ∧ r'.stop.toNat = base.toNat + r.stop.toNat := by
  obtain ⟨start, hstart, h⟩ := bind_eq_ok h
  obtain ⟨stop, hstop, h⟩ := bind_eq_ok h
  cases h
  exact ⟨(U64.ofNatOrPanic_eq_ok_iff.mp hstart).2, (U64.ofNatOrPanic_eq_ok_iff.mp hstop).2⟩

theorem shiftRange_ok (hstart : base.toNat + r.start.toNat ≤ u64Max)
    (hstop : base.toNat + r.stop.toNat ≤ u64Max) :
    ∃ r', (shiftRange base r : Outcome ε AddrRange) = .ok r' := by
  refine ⟨⟨BitVec.ofNat 64 (base.toNat + r.start.toNat),
    BitVec.ofNat 64 (base.toNat + r.stop.toNat)⟩, ?_⟩
  simp only [shiftRange, U64.addOrPanic, U64.ofNatOrPanic, if_pos hstart, if_pos hstop]
  rfl

theorem mapM_shiftRange_exact
    (h : (ranges.mapM (shiftRange base) : Outcome ε (List AddrRange)) = .ok moved) :
    movedBy 0 moved = movedBy base.toNat ranges := by
  induction ranges generalizing moved with
  | nil =>
      cases h
      rfl
  | cons r rest ih =>
      obtain ⟨r', rest', hr, hrest, rfl⟩ := mapM_cons_eq_ok.mp h
      obtain ⟨hstart, hstop⟩ := shiftRange_exact hr
      have htail := ih hrest
      unfold movedBy at htail ⊢
      rw [List.map_cons, List.map_cons, htail, hstart, hstop, Nat.zero_add, Nat.zero_add]

theorem mapM_shiftRange_ok
    (h : ∀ r ∈ ranges, base.toNat + r.start.toNat ≤ u64Max ∧ base.toNat + r.stop.toNat ≤ u64Max) :
    ∃ moved, (ranges.mapM (shiftRange base) : Outcome ε (List AddrRange)) = .ok moved := by
  induction ranges with
  | nil => exact ⟨[], rfl⟩
  | cons r rest ih =>
      rcases h r (List.mem_cons_self ..) with ⟨hstart, hstop⟩
      rcases shiftRange_ok (ε := ε) hstart hstop with ⟨r', hr⟩
      rcases ih fun s hs => h s (List.mem_cons_of_mem r hs) with ⟨rest', hrest⟩
      exact ⟨r' :: rest', mapM_cons_eq_ok.mpr ⟨r', rest', hr, hrest, rfl⟩⟩

/-- Where a moved range comes from. -/
theorem exists_of_movedBy {b : Nat} (h : movedBy 0 moved = movedBy b ranges) {m : AddrRange}
    (hm : m ∈ moved) :
    ∃ r ∈ ranges, m.start.toNat = b + r.start.toNat ∧ m.stop.toNat = b + r.stop.toNat := by
  have hmem : (0 + m.start.toNat, 0 + m.stop.toNat) ∈ movedBy b ranges := by
    rw [← h]
    exact List.mem_map_of_mem hm
  obtain ⟨r, hr, heq⟩ := List.mem_map.mp hmem
  rw [Prod.mk.injEq] at heq
  exact ⟨r, hr, by omega, by omega⟩

/-- Every range has been moved somewhere. -/
theorem exists_movedBy {b : Nat} (h : movedBy 0 moved = movedBy b ranges) (hr : r ∈ ranges) :
    ∃ m ∈ moved, m.start.toNat = b + r.start.toNat ∧ m.stop.toNat = b + r.stop.toNat := by
  have hmem : (b + r.start.toNat, b + r.stop.toNat) ∈ movedBy 0 moved := by
    rw [h]
    exact List.mem_map_of_mem hr
  obtain ⟨m, hm, heq⟩ := List.mem_map.mp hmem
  rw [Prod.mk.injEq] at heq
  exact ⟨m, hm, by omega, by omega⟩

/-- The moved ranges cover the moved positions. -/
theorem movedBy_contains {b : Nat} (h : movedBy 0 moved = movedBy b ranges) (v : Nat) :
    (∃ m ∈ moved, m.Contains v) ↔ ∃ r ∈ ranges, ∃ k, r.Contains k ∧ v = b + k := by
  constructor
  · rintro ⟨m, hm, hlo, hhi⟩
    obtain ⟨r, hr, hstart, hstop⟩ := exists_of_movedBy h hm
    exact ⟨r, hr, v - b, ⟨by omega, by omega⟩, by omega⟩
  · rintro ⟨r, hr, k, ⟨hlo, hhi⟩, rfl⟩
    obtain ⟨m, hm, hstart, hstop⟩ := exists_movedBy h hr
    exact ⟨m, hm, by omega, by omega⟩

end Shift

end Sbpf
end Gobble
