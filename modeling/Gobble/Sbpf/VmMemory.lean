import Gobble.Lib.Bytes
import Gobble.Lib.EffectTree
import Gobble.Sbpf.MemoryMapping
import Mathlib.Data.List.Pairwise
import Mathlib.Data.Set.Basic

/-!
# VmMemory — a mapping together with the host memory behind it

The memory operations that running code can perform: `MemoryMapping::load` and `store` of the
interpreter, and the translate-then-dereference steps of the syscalls.  They form the interface
`MemOp`; everything that executes in the VM is an `EffectTree` over it.

The main result, `memHandler_related`, is about a set `W` of host bytes behind watched VM
addresses: an operation that records no forbidden access behaves the same in two memories that
differ only in `W`.  All the reasoning about regions, straddling accesses and the overlap test
happens here, once per operation, and not once per instruction.
-/

namespace Gobble
namespace Sbpf

open Lib

/-- The type parameter of `load::<T>` and `store::<T>`. -/
inductive AccessSize where
  | u8
  | u16
  | u32
  | u64
  deriving DecidableEq, Repr

/-- `size_of::<T>()`. -/
def AccessSize.bytes : AccessSize → Nat
  | .u8 => 1
  | .u16 => 2
  | .u32 => 4
  | .u64 => 8

structure VmMemory where
  mapping : MemoryMapping
  host : ByteMemory

namespace VmMemory

def getForbiddenAccesses (s : VmMemory) : List (U64 × U64) :=
  s.mapping.getForbiddenAccesses

/-- Loads `size.bytes` bytes from the given address. -/
def load (s : VmMemory) (size : AccessSize) (vmAddr : U64) : ProgramResult × VmMemory :=
  let len := BitVec.ofNat 64 size.bytes
  let m := s.mapping.checkAccess vmAddr len
  let (result, m) := m.mapWithAccessViolationHandler .load vmAddr len
  (result.map fun hostAddr =>
      BitVec.ofNat 64 (leNat (s.host.readBytes hostAddr.toNat len.toNat)),
    { s with mapping := m })

/-- Stores the low `size.bytes` bytes of `value` at the given address. -/
def store (s : VmMemory) (size : AccessSize) (value vmAddr : U64) : ProgramResult × VmMemory :=
  let len := BitVec.ofNat 64 size.bytes
  let (result, m) := s.mapping.mapWithAccessViolationHandler .store vmAddr len
  match result with
  | .ok hostAddr =>
      (.ok hostAddr,
        { mapping := m
          host := s.host.writeBytes hostAddr.toNat (leBytes size.bytes value.toNat) })
  | .error err => (.error err, { s with mapping := m })

end VmMemory

/-! ## The operations -/

inductive MemOp where
  | load (size : AccessSize) (vmAddr : U64)
  | store (size : AccessSize) (value vmAddr : U64)
  /-- `map_with_access_violation_handler`, called for its effect on the region. -/
  | touch (accessType : AccessType) (vmAddr len : U64)
  /-- `map`, whose answer is used as a pointer to write through. -/
  | map (accessType : AccessType) (vmAddr len : U64)
  /-- `map(AccessType::Load, ..)` followed by reading the translated slice. -/
  | readSlice (vmAddr len : U64)
  /-- A write through a translated pointer. -/
  | write (hostAddr : U64) (bytes : List UInt8)

abbrev MemRet : MemOp → Type
  | .load _ _ => ProgramResult
  | .store _ _ _ => ProgramResult
  | .touch _ _ _ => ProgramResult
  | .map _ _ _ => ProgramResult
  | .readSlice _ _ => Except EbpfError (U64 × List UInt8)
  | .write _ _ => Unit

abbrev VmProgram := EffectTree MemOp MemRet

def memHandler : EffectTree.Handler MemOp MemRet VmMemory
  | .load size vmAddr, s => s.load size vmAddr
  | .store size value vmAddr, s => s.store size value vmAddr
  | .touch accessType vmAddr len, s =>
      let (result, m) := s.mapping.mapWithAccessViolationHandler accessType vmAddr len
      (result, { s with mapping := m })
  | .map accessType vmAddr len, s =>
      let (result, m) := s.mapping.map accessType vmAddr len
      (result, { s with mapping := m })
  | .readSlice vmAddr len, s =>
      let (result, m) := s.mapping.map .load vmAddr len
      (result.map fun hostAddr => (hostAddr, s.host.readBytes hostAddr.toNat len.toNat),
        { s with mapping := m })
  | .write hostAddr bytes, s => ((), { s with host := s.host.writeBytes hostAddr.toNat bytes })

/-! ## Host bytes behind watched addresses -/

namespace CommonMemoryMapping

/-- The VM address `v` is a byte of a continuous region, and `h` is the host address of that
byte. -/
def MapsTo (c : CommonMemoryMapping) (v h : Nat) : Prop :=
  ∃ r ∈ c.regions, r.MapsTo v h

/-- `v` lies in a watched range. -/
def Watches (c : CommonMemoryMapping) (v : Nat) : Prop :=
  ∃ range ∈ c.accessTracker.watchedRanges, range.Contains v

/-- What hides the bytes in `W`, however violations are handled: the tracker is in a state its methods
can produce, regions are backed by disjoint host slices, and the bytes in `W` are backing watched
addresses. -/
structure Shields (c : CommonMemoryMapping) (W : Set Nat) : Prop where
  tracker : c.accessTracker.WellFormed
  fits : ∀ r ∈ c.regions, r.HostFits
  disjoint : c.regions.Pairwise fun r r' => Disjoint r.hostBytes r'.hostBytes
  watched : ∀ h ∈ W, ∃ v, c.Watches v ∧ c.MapsTo v h

/-- Everything the confinement argument needs of a mapping: in addition, violations are not
repaired. -/
structure Confines (c : CommonMemoryMapping) (W : Set Nat) : Prop extends c.Shields W where
  handler : c.accessViolationHandler = defaultAccessViolationHandler

variable {c : CommonMemoryMapping} {W : Set Nat}

theorem Confines.checkAccess (hc : c.Confines W) (vmAddr len : U64) :
    (c.checkAccess vmAddr len).Confines W where
  handler := hc.handler
  tracker := MemoryAccessTracker.checkAccess_wellFormed hc.tracker vmAddr len
  fits := hc.fits
  disjoint := hc.disjoint
  watched := by
    intro h hh
    rcases hc.watched h hh with ⟨v, hv, hmaps⟩
    refine ⟨v, ?_, hmaps⟩
    simpa only [Watches, CommonMemoryMapping.checkAccess,
      MemoryAccessTracker.checkAccess_watched] using hv

/-- An access of a region that touches a byte of `W` touches it through a watched address. -/
theorem Shields.watches (hc : c.Shields W) {accessType : AccessType} {vmAddr len : U64}
    {r : MemoryRegion} (hr : r ∈ c.regions) {host : U64}
    (hhost : r.vmToHost accessType vmAddr len = some host) {i : Nat} (hi : i < len.toNat)
    (hmem : host.toNat + i ∈ W) : c.Watches (vmAddr.toNat + i) := by
  rcases hc.watched _ hmem with ⟨v, hv, r', hr', hgap, hlo, hhi, hback⟩
  have hbyte : host.toNat + i ∈ r.hostBytes :=
    MemoryRegion.vmToHost_mem_hostBytes (hc.fits r hr) hhost hi
  have hbyte' : host.toNat + i ∈ r'.hostBytes := ⟨by omega, by omega⟩
  have hsame : r = r' := MemoryRegion.eq_of_mem_hostBytes hc.disjoint hr hr' hbyte hbyte'
  subst hsame
  -- In a continuous region the host byte determines the VM address, so `v` was accessed.
  have hcont := MemoryRegion.vmToHost_continuous (hc.fits r hr) hgap hhost
  have hv_eq : vmAddr.toNat + i = v := by omega
  rwa [hv_eq]

/-- An unrecorded access of a region touches no byte of `W`. -/
theorem Shields.misses (hc : c.Shields W) {vmAddr len : U64}
    (hquiet : (c.checkAccess vmAddr len).accessTracker.forbiddenAccesses.length =
      c.accessTracker.forbiddenAccesses.length)
    {accessType : AccessType} {r : MemoryRegion} (hr : r ∈ c.regions) {host : U64}
    (hhost : r.vmToHost accessType vmAddr len = some host) :
    ∀ i, i < len.toNat → host.toNat + i ∉ W := by
  intro i hi hmem
  have hshare : MemoryAccessTracker.SharesByte vmAddr len c.accessTracker.watchedRanges := by
    rcases hc.watches hr hhost hi hmem with ⟨range, hrange, hcontains⟩
    exact ⟨range, hrange, vmAddr.toNat + i, by omega, by omega, hcontains⟩
  have hpos : 0 < len.toNat := by omega
  rw [CommonMemoryMapping.checkAccess,
    MemoryAccessTracker.checkAccess_eq hc.tracker hpos] at hquiet
  simp [hshare] at hquiet

end CommonMemoryMapping

/-! ## Counting the recorded accesses -/

namespace VmMemory

/-- The regions of a memory, if addresses are translated at all. -/
def regions? (m : VmMemory) : Option (List MemoryRegion) :=
  m.mapping.common?.map CommonMemoryMapping.regions

/-- Number of forbidden accesses recorded so far. -/
def recorded (s : VmMemory) : Nat := s.getForbiddenAccesses.length

theorem recorded_eq {s : VmMemory} {c : CommonMemoryMapping} (hc : s.mapping.common? = some c) :
    s.recorded = c.accessTracker.forbiddenAccesses.length := by
  simp [recorded, getForbiddenAccesses, MemoryMapping.getForbiddenAccesses,
    MemoryMapping.getAccessTracker, hc]

end VmMemory

namespace MemoryMapping

theorem getForbiddenAccesses_congr {m m' : MemoryMapping}
    (h : m'.getAccessTracker = m.getAccessTracker) :
    m'.getForbiddenAccesses = m.getForbiddenAccesses := by
  simp [getForbiddenAccesses, h]

theorem checkAccess_tracker (m : MemoryMapping) (vmAddr len : U64) :
    (m.checkAccess vmAddr len).getAccessTracker =
      m.getAccessTracker.map fun t => t.checkAccess vmAddr len := by
  cases m <;> rfl

theorem map_tracker (m : MemoryMapping) (accessType : AccessType) (vmAddr len : U64) :
    (m.map accessType vmAddr len).2.getAccessTracker =
      if accessType = .load then m.getAccessTracker.map fun t => t.checkAccess vmAddr len
      else m.getAccessTracker := by
  rw [getAccessTracker, map_common]
  split
  · cases m <;> rfl
  · rfl

end MemoryMapping

/-- The tracker sees an operation as one read or not at all, whatever the handler. -/
theorem memHandler_tracker (op : MemOp) (s : VmMemory) :
    (memHandler op s).2.mapping.getAccessTracker = s.mapping.getAccessTracker ∨
      ∃ vmAddr len, (memHandler op s).2.mapping.getAccessTracker =
        s.mapping.getAccessTracker.map fun t => t.checkAccess vmAddr len := by
  cases op with
  | load size vmAddr =>
      refine .inr ⟨vmAddr, BitVec.ofNat 64 size.bytes, ?_⟩
      simp only [memHandler, VmMemory.load, MemoryMapping.mapWithAccessViolationHandler_tracker,
        MemoryMapping.checkAccess_tracker]
  | store size value vmAddr =>
      refine .inl ?_
      simp only [memHandler, VmMemory.store]
      split <;> rw [MemoryMapping.mapWithAccessViolationHandler_tracker]
  | touch accessType vmAddr len =>
      exact .inl (MemoryMapping.mapWithAccessViolationHandler_tracker ..)
  | map accessType vmAddr len =>
      have htracker := s.mapping.map_tracker accessType vmAddr len
      split at htracker
      · exact .inr ⟨vmAddr, len, htracker⟩
      · exact .inl htracker
  | readSlice vmAddr len => exact .inr ⟨vmAddr, len, s.mapping.map_tracker .load vmAddr len⟩
  | write hostAddr bytes => exact .inl rfl

/-- No operation removes a recorded access. -/
theorem memHandler_grows (op : MemOp) (s : VmMemory) :
    s.getForbiddenAccesses <+: (memHandler op s).2.getForbiddenAccesses := by
  unfold VmMemory.getForbiddenAccesses
  rcases memHandler_tracker op s with hsame | ⟨vmAddr, len, hread⟩
  · rw [MemoryMapping.getForbiddenAccesses_congr hsame]
  · unfold MemoryMapping.getForbiddenAccesses
    rw [hread]
    cases s.mapping.getAccessTracker with
    | none => exact List.prefix_rfl
    | some tracker => exact tracker.checkAccess_grows vmAddr len

theorem memHandler_recorded_mono (op : MemOp) (s : VmMemory) :
    s.recorded ≤ (memHandler op s).2.recorded :=
  (memHandler_grows op s).length_le

/-! ## Two memories that differ only in `W` -/

namespace VmMemory

structure Related (W : Set Nat) (s₁ s₂ : VmMemory) : Prop where
  mapping : s₁.mapping = s₂.mapping
  confined : ∃ c, s₁.mapping.common? = some c ∧ c.Confines W
  agree : ByteMemory.AgreeOutside W s₁.host s₂.host

end VmMemory

section TwoMemories

variable {W : Set Nat} {m : MemoryMapping} {c : CommonMemoryMapping} {host₁ host₂ : ByteMemory}

theorem load_related (hc : m.common? = some c) (hconf : c.Confines W)
    (hagree : ByteMemory.AgreeOutside W host₁ host₂) (size : AccessSize) (vmAddr : U64)
    (hquiet : (VmMemory.load ⟨m, host₁⟩ size vmAddr).2.recorded =
      VmMemory.recorded ⟨m, host₁⟩) :
    (VmMemory.load ⟨m, host₁⟩ size vmAddr).1 = (VmMemory.load ⟨m, host₂⟩ size vmAddr).1 ∧
      VmMemory.Related W (VmMemory.load ⟨m, host₁⟩ size vmAddr).2
        (VmMemory.load ⟨m, host₂⟩ size vmAddr).2 := by
  unfold VmMemory.load at hquiet ⊢
  dsimp only at hquiet ⊢
  generalize hlen : BitVec.ofNat 64 size.bytes = len at hquiet ⊢
  have hc' : (m.checkAccess vmAddr len).common? = some (c.checkAccess vmAddr len) := by
    rw [MemoryMapping.checkAccess_common, hc]
    rfl
  have hconf' := hconf.checkAccess vmAddr len
  have hafter := MemoryMapping.mapWithAccessViolationHandler_common hc' hconf'.handler .load
    vmAddr len
  rw [VmMemory.recorded_eq (s := ⟨m, host₁⟩) hc, VmMemory.recorded_eq hafter] at hquiet
  refine ⟨?_, rfl, ⟨_, hafter, hconf'⟩, hagree⟩
  cases hresult : ((m.checkAccess vmAddr len).mapWithAccessViolationHandler .load vmAddr len).1 with
  | error err => rfl
  | ok h =>
      obtain ⟨r, hr, hhost⟩ :=
        MemoryMapping.mapWithAccessViolationHandler_ok hc' hconf'.handler hresult
      have hmiss := hconf.toShields.misses hquiet hr hhost
      simp only [Except.map, hagree.readBytes hmiss]

/-- This does not depend on the access violation handler. -/
theorem readSlice_answer (hc : m.common? = some c) (hshields : c.Shields W)
    (hagree : ByteMemory.AgreeOutside W host₁ host₂) (vmAddr len : U64)
    (hquiet : (memHandler (.readSlice vmAddr len) ⟨m, host₁⟩).2.recorded =
      VmMemory.recorded ⟨m, host₁⟩) :
    (memHandler (.readSlice vmAddr len) ⟨m, host₁⟩).1 =
      (memHandler (.readSlice vmAddr len) ⟨m, host₂⟩).1 := by
  have hafter : (m.map .load vmAddr len).2.common? = some (c.checkAccess vmAddr len) := by
    rw [MemoryMapping.map_common, hc]
    rfl
  unfold memHandler at hquiet ⊢
  dsimp only at hquiet ⊢
  rw [VmMemory.recorded_eq (s := ⟨m, host₁⟩) hc, VmMemory.recorded_eq hafter] at hquiet
  cases hresult : (m.map .load vmAddr len).1 with
  | error err => rfl
  | ok h =>
      obtain ⟨r, hr, hhost⟩ := MemoryMapping.map_ok hc hresult
      have hmiss := hshields.misses hquiet hr hhost
      simp only [Except.map, hagree.readBytes hmiss]

theorem readSlice_related (hc : m.common? = some c) (hconf : c.Confines W)
    (hagree : ByteMemory.AgreeOutside W host₁ host₂) (vmAddr len : U64)
    (hquiet : (memHandler (.readSlice vmAddr len) ⟨m, host₁⟩).2.recorded =
      VmMemory.recorded ⟨m, host₁⟩) :
    (memHandler (.readSlice vmAddr len) ⟨m, host₁⟩).1 =
        (memHandler (.readSlice vmAddr len) ⟨m, host₂⟩).1 ∧
      VmMemory.Related W (memHandler (.readSlice vmAddr len) ⟨m, host₁⟩).2
        (memHandler (.readSlice vmAddr len) ⟨m, host₂⟩).2 := by
  have hafter : (m.map .load vmAddr len).2.common? = some (c.checkAccess vmAddr len) := by
    rw [MemoryMapping.map_common, hc]
    rfl
  refine ⟨readSlice_answer hc hconf.toShields hagree vmAddr len hquiet, rfl, ?_, hagree⟩
  exact ⟨_, hafter, hconf.checkAccess vmAddr len⟩

theorem store_related (hc : m.common? = some c) (hconf : c.Confines W)
    (hagree : ByteMemory.AgreeOutside W host₁ host₂) (size : AccessSize) (value vmAddr : U64) :
    (VmMemory.store ⟨m, host₁⟩ size value vmAddr).1 =
        (VmMemory.store ⟨m, host₂⟩ size value vmAddr).1 ∧
      VmMemory.Related W (VmMemory.store ⟨m, host₁⟩ size value vmAddr).2
        (VmMemory.store ⟨m, host₂⟩ size value vmAddr).2 := by
  unfold VmMemory.store
  dsimp only
  have hafter := MemoryMapping.mapWithAccessViolationHandler_common hc hconf.handler .store vmAddr
    (BitVec.ofNat 64 size.bytes)
  split
  · exact ⟨rfl, rfl, ⟨c, hafter, hconf⟩, hagree.writeBytes _ _⟩
  · exact ⟨rfl, rfl, ⟨c, hafter, hconf⟩, hagree⟩

/-- An operation that records nothing is answered alike in memories that differ only in `W`, and
leaves memories that differ only in `W`. -/
theorem memHandler_related (op : MemOp) (s₁ s₂ : VmMemory) (hrel : VmMemory.Related W s₁ s₂)
    (hquiet : (memHandler op s₁).2.recorded = s₁.recorded) :
    (memHandler op s₁).1 = (memHandler op s₂).1 ∧
      VmMemory.Related W (memHandler op s₁).2 (memHandler op s₂).2 := by
  rcases s₁ with ⟨m, host₁⟩
  rcases s₂ with ⟨m', host₂⟩
  obtain rfl : m = m' := hrel.mapping
  obtain ⟨c, hc, hconf⟩ := hrel.confined
  have hagree := hrel.agree
  cases op with
  | load size vmAddr => exact load_related hc hconf hagree size vmAddr hquiet
  | store size value vmAddr => exact store_related hc hconf hagree size value vmAddr
  | touch accessType vmAddr len =>
      have hafter := MemoryMapping.mapWithAccessViolationHandler_common hc hconf.handler
        accessType vmAddr len
      exact ⟨rfl, rfl, ⟨c, hafter, hconf⟩, hagree⟩
  | map accessType vmAddr len =>
      have hafter := MemoryMapping.map_common m accessType vmAddr len
      rw [hc] at hafter
      refine ⟨rfl, rfl, ?_, hagree⟩
      split at hafter
      · exact ⟨_, hafter, hconf.checkAccess vmAddr len⟩
      · exact ⟨c, hafter, hconf⟩
  | readSlice vmAddr len => exact readSlice_related hc hconf hagree vmAddr len hquiet
  | write hostAddr bytes => exact ⟨rfl, rfl, ⟨c, hc, hconf⟩, hagree.writeBytes _ _⟩

/-- A VM program whose run records no forbidden access does not depend on the bytes in `W`. -/
theorem run_noninterference {α : Type} (t : VmProgram α) (s₁ s₂ : VmMemory)
    (hrel : VmMemory.Related W s₁ s₂) (hquiet : (t.run memHandler s₁).2.recorded = s₁.recorded) :
    (t.run memHandler s₁).1 = (t.run memHandler s₂).1 ∧
      VmMemory.Related W (t.run memHandler s₁).2 (t.run memHandler s₂).2 :=
  EffectTree.run_related memHandler_related t s₁ s₂ hrel
    (EffectTree.along_of_run_eq VmMemory.recorded memHandler_recorded_mono t s₁ hquiet)

end TwoMemories

end Sbpf
end Gobble
