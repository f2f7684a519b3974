import Gobble.Sbpf.AccessTracker
import Gobble.Sbpf.Basic
import Mathlib.Data.List.Pairwise
import Mathlib.Data.Set.Lattice
import Mathlib.Order.CompletePartialOrder

/-!
# MemoryRegion — bounds checks and address translation of one region

Model of `MemoryRegion` in `sbpf/src/memory_region.rs`.  A region is a window of host memory seen
at a VM address.  In a *gapped* region (the stack of early versions) frames of `2 ^ vmGapShift`
bytes alternate with unmapped gaps of the same size; `vmGapShift = 63` means a continuous region.
-/

namespace Gobble
namespace Sbpf

open Lib

/-- Upper half of a pointer is the region index. -/
def virtualAddressBits : Nat := 32

def mmRegionSize : U64 := 0x100000000
def mmBytecodeStart : U64 := 0x100000000
def mmStackStart : U64 := 0x200000000
def mmHeapStart : U64 := 0x300000000
def mmInputStart : U64 := 0x400000000

structure MemoryRegion where
  /-- Start host address. -/
  hostAddr : U64
  /-- Start virtual address. -/
  vmAddr : U64
  /-- Length in bytes. -/
  len : U64
  /-- Size of regular gaps as bit shift (63 means this region is continuous). -/
  vmGapShift : UInt8
  /-- Is `AccessType.store` allowed without triggering an access violation. -/
  writable : Bool
  /-- User defined payload for the access violation handler. -/
  accessViolationHandlerPayload : Option UInt16
  deriving DecidableEq, Repr

namespace MemoryRegion

/-- `u64::leading_zeros`. -/
def leadingZeros (x : U64) : Nat :=
  if x = 0 then 64 else 63 - x.toNat.log2

/-- The constructor from a host slice, given by its address and length. -/
def new (hostAddr len vmAddr vmGapSize : U64) (writable : Bool) : MemoryRegion :=
  { hostAddr
    vmAddr
    len
    vmGapShift := if vmGapSize > 0 then UInt8.ofNat (63 - leadingZeros vmGapSize) else 63
    writable
    accessViolationHandlerPayload := none }

def newReadonly (hostAddr len vmAddr : U64) : MemoryRegion :=
  new hostAddr len vmAddr 0 false

def newWritable (hostAddr len vmAddr : U64) : MemoryRegion :=
  new hostAddr len vmAddr 0 true

def newWritableGapped (hostAddr len vmAddr vmGapSize : U64) : MemoryRegion :=
  new hostAddr len vmAddr vmGapSize true

/-- The VM address space covered by the region. -/
def vmAddrRange (r : MemoryRegion) : AddrRange :=
  if r.vmGapShift = 63 then
    ⟨r.vmAddr, U64.saturatingAdd r.vmAddr r.len⟩
  else
    ⟨r.vmAddr, U64.saturatingAdd r.vmAddr (U64.saturatingMul r.len 2)⟩

/-- `u64::checked_shr(..).unwrap_or(0)`. -/
def checkedShr (x : U64) (shift : Nat) : U64 :=
  if shift < 64 then x >>> shift else 0

/-- `i64::checked_shl(..).unwrap_or(0)`, on the bits. -/
def checkedShl (x : U64) (shift : Nat) : U64 :=
  if shift < 64 then x <<< shift else 0

/-- Does the offset into the region fall into a gap. -/
def isInGap (r : MemoryRegion) (beginOffset : U64) : Bool :=
  checkedShr beginOffset r.vmGapShift.toNat &&& 1 == 1

/-- The offset into the host memory: the gap bit is squeezed out. -/
def gappedOffset (r : MemoryRegion) (beginOffset : U64) : U64 :=
  let gapMask := checkedShl (BitVec.allOnes 64) r.vmGapShift.toNat
  checkedShr (beginOffset &&& gapMask) 1 ||| (beginOffset &&& ~~~gapMask)

/-- Convert a virtual machine address into a host address. -/
def vmToHost (r : MemoryRegion) (accessType : AccessType) (vmAddr len : U64) : Option U64 :=
  if accessType = .store ∧ !r.writable then
    none
  else if vmAddr < r.vmAddr then
    none
  else
    let beginOffset := U64.saturatingSub vmAddr r.vmAddr
    if r.vmGapShift = 63 then
      -- fast path for non-gapped regions
      match U64.checkedAdd beginOffset len with
      | some endOffset =>
          if endOffset ≤ r.len then some (U64.saturatingAdd r.hostAddr beginOffset) else none
      | none => none
    else
      let gappedOffset := r.gappedOffset beginOffset
      match U64.checkedAdd gappedOffset len with
      | some endOffset =>
          if endOffset ≤ r.len ∧ !r.isInGap beginOffset then
            some (U64.saturatingAdd r.hostAddr gappedOffset)
          else
            none
      | none => none

/-! ## What a successful translation says -/

/-- The region's host bytes are an interval of the host address space, as those of every slice. -/
def HostFits (r : MemoryRegion) : Prop :=
  r.hostAddr.toNat + r.len.toNat ≤ u64Max

instance (r : MemoryRegion) : Decidable r.HostFits :=
  inferInstanceAs (Decidable (_ ≤ _))

/-- The host addresses of the region's bytes. -/
def hostBytes (r : MemoryRegion) : Set Nat :=
  { a | r.hostAddr.toNat ≤ a ∧ a < r.hostAddr.toNat + r.len.toNat }

/-- The VM address `v` is a byte of the region, which is continuous, and `h` is the host address of
that byte. -/
def MapsTo (r : MemoryRegion) (v h : Nat) : Prop :=
  r.vmGapShift = 63 ∧ r.vmAddr.toNat ≤ v ∧ v < r.vmAddr.toNat + r.len.toNat ∧
    h = r.hostAddr.toNat + (v - r.vmAddr.toNat)

instance (r : MemoryRegion) (v h : Nat) : Decidable (r.MapsTo v h) :=
  inferInstanceAs (Decidable (_ ∧ _ ∧ _ ∧ _))

theorem MapsTo.mem_hostBytes {r : MemoryRegion} {v h : Nat} (hmaps : r.MapsTo v h) :
    h ∈ r.hostBytes := by
  rcases hmaps with ⟨-, hlo, hhi, rfl⟩
  exact ⟨by omega, by omega⟩

/-- A host byte is seen at one address of a region. -/
theorem MapsTo.injective {r : MemoryRegion} {v v' h : Nat} (hmaps : r.MapsTo v h)
    (hmaps' : r.MapsTo v' h) : v = v' := by
  rcases hmaps with ⟨-, hlo, hhi, rfl⟩
  rcases hmaps' with ⟨-, hlo', hhi', heq⟩
  omega

/-- Two regions with a host byte in common are the same region, if regions do not overlap. -/
theorem eq_of_mem_hostBytes {regions : List MemoryRegion}
    (hapart : regions.Pairwise fun r r' => Disjoint r.hostBytes r'.hostBytes)
    {r r' : MemoryRegion} (hr : r ∈ regions) (hr' : r' ∈ regions) {a : Nat}
    (ha : a ∈ r.hostBytes) (ha' : a ∈ r'.hostBytes) : r = r' := by
  by_contra hne
  have : Std.Symm fun r r' : MemoryRegion => Disjoint r.hostBytes r'.hostBytes :=
    ⟨fun _ _ h => h.symm⟩
  have hdisj : Disjoint r.hostBytes r'.hostBytes := hapart.forall hr hr' hne
  exact Set.disjoint_left.mp hdisj ha ha'

/-- In a continuous region, byte `vmAddr + i` of the access is byte `vmAddr + i - r.vmAddr` of the
host memory. -/
theorem vmToHost_continuous {r : MemoryRegion} {accessType : AccessType} {vmAddr len h : U64}
    (hfits : r.HostFits) (hgap : r.vmGapShift = 63)
    (heq : r.vmToHost accessType vmAddr len = some h) :
    r.vmAddr.toNat ≤ vmAddr.toNat ∧ vmAddr.toNat + len.toNat ≤ r.vmAddr.toNat + r.len.toNat ∧
      h.toNat = r.hostAddr.toNat + (vmAddr.toNat - r.vmAddr.toNat) := by
  unfold vmToHost at heq
  split_ifs at heq with hperm hbelow
  cases hadd : U64.checkedAdd (U64.saturatingSub vmAddr r.vmAddr) len with
  | none => simp [hadd] at heq
  | some endOffset =>
      simp only [hadd, Option.ite_none_right_eq_some, Option.some.injEq] at heq
      rcases heq with ⟨hend, rfl⟩
      rcases U64.checkedAdd_eq_some_iff.mp hadd with ⟨-, hsum⟩
      rw [BitVec.lt_def] at hbelow
      rw [BitVec.le_def] at hend
      rw [U64.toNat_saturatingSub] at hsum
      unfold HostFits at hfits
      rw [U64.toNat_saturatingAdd, U64.toNat_saturatingSub]
      omega

/-- Every translation stays inside the host memory of the region. -/
theorem vmToHost_mem_hostBytes {r : MemoryRegion} {accessType : AccessType} {vmAddr len h : U64}
    (hfits : r.HostFits) (heq : r.vmToHost accessType vmAddr len = some h) {i : Nat}
    (hi : i < len.toNat) : h.toNat + i ∈ r.hostBytes := by
  by_cases hgap : r.vmGapShift = 63
  · rcases vmToHost_continuous hfits hgap heq with ⟨hlo, hhi, hh⟩
    exact ⟨by omega, by omega⟩
  · unfold vmToHost at heq
    rw [if_neg hgap] at heq
    split_ifs at heq with hperm hbelow
    dsimp only at heq
    generalize r.gappedOffset (U64.saturatingSub vmAddr r.vmAddr) = offset at heq
    cases hadd : U64.checkedAdd offset len with
    | none => simp [hadd] at heq
    | some endOffset =>
        simp only [hadd, Option.ite_none_right_eq_some, Option.some.injEq] at heq
        rcases heq with ⟨⟨hend, -⟩, rfl⟩
        rcases U64.checkedAdd_eq_some_iff.mp hadd with ⟨-, hsum⟩
        rw [BitVec.le_def] at hend
        unfold HostFits at hfits
        have hh : (U64.saturatingAdd r.hostAddr offset).toNat =
            r.hostAddr.toNat + offset.toNat := by
          rw [U64.toNat_saturatingAdd]
          omega
        exact ⟨by omega, by omega⟩

end MemoryRegion

end Sbpf
end Gobble
