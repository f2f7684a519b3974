import Gobble.Lib.Outcome
import Gobble.Sbpf.MemoryRegion
import Mathlib.Data.List.Sort

/-!
# MemoryMapping — from VM addresses to host addresses

Model of `MemoryMapping` and its two variants in `sbpf/src/memory_region.rs`.  Looking up a region
changes the lookup cache of an unaligned mapping and a read changes the access tracker, so every
operation returns the mapping it leaves behind.

`get_unchecked` is modelled by an optional lookup; a lookup that failed would be undefined
behaviour in the source.
-/

namespace Gobble
namespace Sbpf

open Lib

/-- Callback executed before `generate_access_violation`: given the region, the largest length it
may grow to, and the access, it returns the region to use instead. -/
abbrev AccessViolationHandler :=
  MemoryRegion → U64 → AccessType → U64 → U64 → MemoryRegion

/-- Fail always. -/
def defaultAccessViolationHandler : AccessViolationHandler :=
  fun region _regionMaxLen _accessType _vmAddr _len => region

/-! ## Common parts -/

structure CommonMemoryMapping where
  regions : List MemoryRegion
  accessViolationHandler : AccessViolationHandler
  allowMemoryRegionZero : Bool
  maxCallDepth : Int
  stackFrameSize : Int
  sbpfVersion : SBPFVersion
  accessTracker : MemoryAccessTracker

namespace CommonMemoryMapping

def new (regions : List MemoryRegion) (config : Config) (sbpfVersion : SBPFVersion)
    (accessViolationHandler : AccessViolationHandler) : CommonMemoryMapping :=
  { regions
    accessViolationHandler
    allowMemoryRegionZero := config.allowMemoryRegionZero
    maxCallDepth := asI64 config.maxCallDepth
    stackFrameSize := asI64 config.stackFrameSize
    sbpfVersion
    accessTracker := MemoryAccessTracker.new }

def regionName (vmAddr : U64) : String :=
  let base := vmAddr &&& ~~~(U64.saturatingSub mmBytecodeStart 1)
  if base = mmBytecodeStart then "program"
  else if base = mmStackStart then "stack"
  else if base = mmHeapStart then "heap"
  else if base = mmInputStart then "input"
  else "unknown"

def generateAccessViolation (c : CommonMemoryMapping) (accessType : AccessType)
    (vmAddr len : U64) : EbpfError :=
  let stackFrame :=
    (checkedDivI64 (clampI64 (vmAddr.toInt - mmStackStart.toInt)) c.stackFrameSize).getD 0
  if !c.sbpfVersion.manualStackFrameBump ∧
      (-1 ≤ stackFrame ∧ stackFrame < clampI64 (c.maxCallDepth + 1)) then
    .stackAccessViolation accessType vmAddr len stackFrame
  else
    .accessViolation accessType vmAddr len (regionName vmAddr)

def checkAccess (c : CommonMemoryMapping) (vmAddr len : U64) : CommonMemoryMapping :=
  { c with accessTracker := c.accessTracker.checkAccess vmAddr len }

end CommonMemoryMapping

/-! ## The lookup cache -/

/-- Fast, small linear cache used to speed up unaligned memory mapping. -/
structure MappingCache where
  /-- The cached entries. -/
  entries : List (AddrRange × Nat)
  /-- Index of the last accessed memory region. -/
  head : Nat
  deriving DecidableEq, Repr

namespace MappingCache

def size : Nat := 4

def new : MappingCache :=
  { entries := List.replicate size (⟨0, 0⟩, 0), head := 0 }

def find (c : MappingCache) (vmAddr : U64) : Option Nat :=
  (List.range size).findSome? fun i =>
    (c.entries[(c.head + i) % size]?).bind fun entry =>
      if entry.1.start ≤ vmAddr ∧ vmAddr < entry.1.stop then some entry.2 else none

/-- New entries are written backwards, so that `find` can always scan forward. -/
def insert (c : MappingCache) (vmRange : AddrRange) (regionIndex : Nat) : MappingCache :=
  let head := (c.head + (size - 1)) % size
  { entries := c.entries.set head (vmRange, regionIndex), head }

def flush (_c : MappingCache) : MappingCache := new

end MappingCache

/-! ## Unaligned mapping: Eytzinger search -/

structure UnalignedMemoryMapping where
  common : CommonMemoryMapping
  /-- The `vmAddr` fields of the regions in Eytzinger order. -/
  regionAddresses : List U64
  /-- Converts the Eytzinger order back to the original order. -/
  regionIndexLookup : List Nat
  cache : MappingCache

namespace UnalignedMemoryMapping

/-- Fills the Eytzinger slots below `outIndex` with the regions from `inIndex` on and returns the
next region.  `fuel` bounds the depth of the recursion; a tree over `n` regions has depth at most
`n`. -/
def constructEytzingerOrder : (fuel inIndex outIndex : Nat) → UnalignedMemoryMapping →
    Outcome EbpfError (Nat × UnalignedMemoryMapping)
  | 0, _, _, _ => .panic
  | fuel + 1, inIndex, outIndex, m =>
      if outIndex ≥ m.common.regions.length then
        pure (inIndex, m)
      else do
        let (inIndex, m) ← constructEytzingerOrder fuel inIndex (outIndex * 2 + 1) m
        let region ← Outcome.unwrap m.common.regions[inIndex]?
        let m := { m with
          regionAddresses := m.regionAddresses.set outIndex region.vmAddr
          regionIndexLookup := m.regionIndexLookup.set outIndex inIndex }
        constructEytzingerOrder fuel (inIndex + 1) (outIndex * 2 + 2) m

/-- The first index whose region starts before the previous one ends. -/
def firstOverlap : (index : Nat) → List MemoryRegion → Option Nat
  | index, first :: second :: rest =>
      if first.vmAddrRange.stop > second.vmAddr then some index
      else firstOverlap (index + 1) (second :: rest)
  | _, _ => none

/-- `regions.sort()`: regions are ordered by `vmAddr`, and the sort is stable. -/
def sortRegions (regions : List MemoryRegion) : List MemoryRegion :=
  regions.insertionSort fun a b => a.vmAddr ≤ b.vmAddr

def newWithAccessViolationHandler (regions : List MemoryRegion) (config : Config)
    (sbpfVersion : SBPFVersion) (accessViolationHandler : AccessViolationHandler) :
    Outcome EbpfError UnalignedMemoryMapping := do
  let regions := sortRegions regions
  let numberOfRegions := regions.length
  match firstOverlap 1 regions with
  | some index => .err (.invalidMemoryRegion index)
  | none =>
      let result : UnalignedMemoryMapping :=
        { common := CommonMemoryMapping.new regions config sbpfVersion accessViolationHandler
          regionAddresses := List.replicate numberOfRegions 0
          regionIndexLookup := List.replicate numberOfRegions 0
          cache := MappingCache.new }
      let (_, result) ← constructEytzingerOrder (numberOfRegions + 1) 0 0 result
      pure result

/-- The descent `while index <= len`.  Every turn at least doubles the index, so `len + 1` turns
are enough. -/
def descend (regionAddresses : List U64) (vmAddr : U64) : (fuel index : Nat) → Nat
  | 0, index => index
  | fuel + 1, index =>
      if index ≤ regionAddresses.length then
        descend regionAddresses vmAddr fuel
          (index * 2 + if regionAddresses.getD (index - 1) 0 ≤ vmAddr then 1 else 0)
      else
        index

/-- `usize::trailing_zeros`. -/
def trailingZeros : (fuel index : Nat) → Nat
  | 0, _ => 0
  | fuel + 1, index => if index % 2 = 0 then trailingZeros fuel (index / 2) + 1 else 0

/-- The region which may contain the given address. -/
def findRegion (m : UnalignedMemoryMapping) (vmAddr : U64) :
    Option (Nat × MemoryRegion) × UnalignedMemoryMapping :=
  match m.cache.find vmAddr with
  | some index => (m.common.regions[index]?.map fun region => (index, region), m)
  | none =>
      let index := descend m.regionAddresses vmAddr (m.regionAddresses.length + 1) 1
      let index := index >>> (trailingZeros 64 index + 1)
      if index = 0 then
        (none, m)
      else
        match m.regionIndexLookup[index - 1]? with
        | none => (none, m)
        | some index =>
            match m.common.regions[index]? with
            | none => (none, m)
            | some region =>
                (some (index, region),
                  { m with cache := m.cache.insert region.vmAddrRange index })

def replaceRegion (m : UnalignedMemoryMapping) (index : Nat) (region : MemoryRegion) :
    Except EbpfError UnalignedMemoryMapping :=
  .ok { m with
    common := { m.common with regions := m.common.regions.set index region }
    cache := m.cache.flush }

end UnalignedMemoryMapping

/-! ## Aligned mapping: the upper half of an address is the region index -/

structure AlignedMemoryMapping where
  common : CommonMemoryMapping

namespace AlignedMemoryMapping

/-- The upper half of an address. -/
def slot (vmAddr : U64) : Nat := (vmAddr >>> virtualAddressBits).toNat

/-- An empty region in front of the first used slot. -/
def filler (index : Nat) : MemoryRegion :=
  MemoryRegion.newReadonly 1 0 (U64.saturatingMul (BitVec.ofNat 64 index) mmRegionSize)

/-- Inserts empty regions until every region stands at the index of its slot. -/
def fillSlots : (expectedRegionIndex : Nat) → List MemoryRegion →
    Outcome EbpfError (List MemoryRegion)
  | _, [] => pure []
  | expected, region :: rest => do
      let actual := slot region.vmAddr
      if actual > expected then
        let rest ← fillSlots (actual + 1) rest
        pure ((List.range' expected (actual - expected)).map filler ++ region :: rest)
      else if actual < expected then
        .err (.invalidMemoryRegion actual)
      else
        let rest ← fillSlots (expected + 1) rest
        pure (region :: rest)

/-- The first index whose region is not in the slot of that index. -/
def firstMisplaced : (index : Nat) → List MemoryRegion → Option Nat
  | _, [] => none
  | index, region :: rest =>
      if slot region.vmAddr ≠ index then some index else firstMisplaced (index + 1) rest

def newWithAccessViolationHandler (regions : List MemoryRegion) (config : Config)
    (sbpfVersion : SBPFVersion) (accessViolationHandler : AccessViolationHandler) :
    Outcome EbpfError AlignedMemoryMapping := do
  let regions ←
    if config.allowMemoryRegionZero then
      fillSlots 0 (UnalignedMemoryMapping.sortRegions regions)
    else
      let regions :=
        UnalignedMemoryMapping.sortRegions (MemoryRegion.newReadonly 1 0 0 :: regions)
      match firstMisplaced 0 regions with
      | some index => .err (.invalidMemoryRegion index)
      | none => pure regions
  pure { common := CommonMemoryMapping.new regions config sbpfVersion accessViolationHandler }

def findRegion (m : AlignedMemoryMapping) (vmAddr : U64) : Option (Nat × MemoryRegion) :=
  let index := slot vmAddr
  if index < m.common.regions.length ∧ (index > 0 ∨ m.common.allowMemoryRegionZero) then
    m.common.regions[index]?.map fun region => (index, region)
  else
    none

def replaceRegion (m : AlignedMemoryMapping) (index : Nat) (region : MemoryRegion) :
    Except EbpfError AlignedMemoryMapping :=
  let beginIndex := slot region.vmAddr
  let endIndex := slot (U64.saturatingAdd region.vmAddr (U64.saturatingSub region.len 1))
  if beginIndex ≠ index ∨ endIndex ≠ index then
    .error (.invalidMemoryRegion index)
  else
    .ok { m with common := { m.common with regions := m.common.regions.set index region } }

end AlignedMemoryMapping

/-! ## The mapping -/

inductive MemoryMapping where
  /-- Used when address translation is disabled. -/
  | identity
  | aligned (m : AlignedMemoryMapping)
  | unaligned (m : UnalignedMemoryMapping)

namespace MemoryMapping

def newWithAccessViolationHandler (regions : List MemoryRegion) (config : Config)
    (sbpfVersion : SBPFVersion) (accessViolationHandler : AccessViolationHandler) :
    Outcome EbpfError MemoryMapping := do
  if SBPFVersion.v4.rank ≤ sbpfVersion.rank ∨ config.alignedMemoryMapping then
    let m ← AlignedMemoryMapping.newWithAccessViolationHandler regions config sbpfVersion
      accessViolationHandler
    pure (aligned m)
  else
    let m ← UnalignedMemoryMapping.newWithAccessViolationHandler regions config sbpfVersion
      accessViolationHandler
    pure (unaligned m)

/-- The common parts, if addresses are translated at all. -/
def common? : MemoryMapping → Option CommonMemoryMapping
  | identity => none
  | aligned m => some m.common
  | unaligned m => some m.common

/-- Change the common parts. -/
def modifyCommon (m : MemoryMapping) (f : CommonMemoryMapping → CommonMemoryMapping) :
    MemoryMapping :=
  match m with
  | identity => identity
  | aligned m => aligned { m with common := f m.common }
  | unaligned m => unaligned { m with common := f m.common }

@[simp] theorem modifyCommon_common (m : MemoryMapping)
    (f : CommonMemoryMapping → CommonMemoryMapping) :
    (m.modifyCommon f).common? = m.common?.map f := by
  cases m <;> rfl

def getRegions (m : MemoryMapping) : List MemoryRegion :=
  match m.common? with
  | none => []
  | some common => common.regions

def getAccessTracker (m : MemoryMapping) : Option MemoryAccessTracker :=
  m.common?.map CommonMemoryMapping.accessTracker

/-- The list of forbidden accesses recorded so far. -/
def getForbiddenAccesses (m : MemoryMapping) : List (U64 × U64) :=
  match m.getAccessTracker with
  | none => []
  | some tracker => tracker.forbiddenAccesses

/-- `check_access` of the tracker of the mapping. -/
def checkAccess (m : MemoryMapping) (vmAddr len : U64) : MemoryMapping :=
  match m with
  | identity => identity
  | aligned m => aligned { m with common := m.common.checkAccess vmAddr len }
  | unaligned m => unaligned { m with common := m.common.checkAccess vmAddr len }

def findRegion (m : MemoryMapping) (vmAddr : U64) :
    Option (Nat × MemoryRegion) × MemoryMapping :=
  match m with
  | identity => (none, identity)
  | aligned m => (m.findRegion vmAddr, aligned m)
  | unaligned m => ((m.findRegion vmAddr).1, unaligned (m.findRegion vmAddr).2)

def replaceRegion (m : MemoryMapping) (index : Nat) (region : MemoryRegion) :
    Except EbpfError MemoryMapping :=
  let regions := m.getRegions
  let nextRegionStart :=
    (regions[index + 1]?.map MemoryRegion.vmAddr).getD (BitVec.allOnes 64)
  match regions[index]? with
  | none => .error (.invalidMemoryRegion index)
  | some old =>
      if old.vmAddr ≠ region.vmAddr ∨ region.vmAddrRange.stop > nextRegionStart then
        .error (.invalidMemoryRegion index)
      else
        match m with
        | identity => .error (.invalidMemoryRegion index)
        | aligned m => (m.replaceRegion index region).map aligned
        | unaligned m => (m.replaceRegion index region).map unaligned

/-- The answer when no region translates the access. -/
def untranslated (m : MemoryMapping) (accessType : AccessType) (vmAddr len : U64) :
    ProgramResult :=
  match m.common? with
  | none => .ok vmAddr
  | some common => .error (common.generateAccessViolation accessType vmAddr len)

/-- Map virtual memory to host memory. -/
def map (m : MemoryMapping) (accessType : AccessType) (vmAddr len : U64) :
    ProgramResult × MemoryMapping :=
  -- Reads are tracked before the region is looked up.
  let m := if accessType = .load then m.checkAccess vmAddr len else m
  let (found, m) := m.findRegion vmAddr
  match found.bind fun (_, region) => region.vmToHost accessType vmAddr len with
  | some hostAddr => (.ok hostAddr, m)
  | none => (m.untranslated accessType vmAddr len, m)

/-- Map virtual memory to host memory and potentially call the access violation handler. -/
def mapWithAccessViolationHandler (m : MemoryMapping) (accessType : AccessType)
    (vmAddr len : U64) : ProgramResult × MemoryMapping :=
  match m.common? with
  | none => (.ok vmAddr, m)
  | some common =>
      let (found, m) := m.findRegion vmAddr
      match found with
      | none => (m.untranslated accessType vmAddr len, m)
      | some (index, region) =>
          match region.vmToHost accessType vmAddr len with
          | some hostAddr => (.ok hostAddr, m)
          | none =>
              let maxLen := U64.saturatingSub
                ((m.getRegions[index + 1]?.map MemoryRegion.vmAddr).getD (BitVec.allOnes 64))
                region.vmAddr
              let region := common.accessViolationHandler region maxLen accessType vmAddr len
              match region.vmToHost accessType vmAddr len with
              | some hostAddr =>
                  match m.replaceRegion index region with
                  | .error err => (.error err, m)
                  | .ok m => (.ok hostAddr, m)
              | none => (m.untranslated accessType vmAddr len, m)

theorem constructEytzingerOrder_common (fuel inIndex outIndex : Nat) (m : UnalignedMemoryMapping) :
    Ends (fun r => r.2.common = m.common) (fun _ => True)
      (UnalignedMemoryMapping.constructEytzingerOrder fuel inIndex outIndex m) := by
  induction fuel generalizing inIndex outIndex m with
  | zero => trivial
  | succ fuel ih =>
      unfold UnalignedMemoryMapping.constructEytzingerOrder
      split
      · exact rfl
      · refine (ih inIndex (outIndex * 2 + 1) m).bind fun ⟨inIndex', m'⟩ hm' => ?_
        refine .bind_any (fun region => ?_) fun _ => trivial
        exact (ih _ _ _).mono (fun r hr => hr.trans hm') fun _ => id

/-- A new mapping has a new tracker. -/
theorem new_tracker (regions : List MemoryRegion) (config : Config) (sbpfVersion : SBPFVersion)
    (handler : AccessViolationHandler) :
    Ends (fun m => m.getAccessTracker = some MemoryAccessTracker.new) (fun _ => True)
      (newWithAccessViolationHandler regions config sbpfVersion handler) := by
  unfold newWithAccessViolationHandler
  split
  · refine .bind (P := fun m => m.common.accessTracker = MemoryAccessTracker.new) ?_
      fun m hm => congrArg some hm
    unfold AlignedMemoryMapping.newWithAccessViolationHandler
    dsimp only
    split
    · exact .bind_any (fun regions => rfl) fun _ => trivial
    · split
      · trivial
      · exact rfl
  · unfold UnalignedMemoryMapping.newWithAccessViolationHandler
    dsimp only
    split
    · trivial
    · refine .bind (P := fun m => m.common.accessTracker = MemoryAccessTracker.new) ?_
        fun m hm => congrArg some hm
      exact (constructEytzingerOrder_common _ _ _ _).bind fun r hr =>
        congrArg CommonMemoryMapping.accessTracker hr

/-! ## What the operations keep

A lookup changes nothing but the cache, a read adds at most an entry to the tracker. -/

@[simp] theorem findRegion_common (m : MemoryMapping) (vmAddr : U64) :
    (m.findRegion vmAddr).2.common? = m.common? := by
  cases m with
  | identity => rfl
  | aligned m => rfl
  | unaligned m =>
      show some (m.findRegion vmAddr).2.common = some m.common
      unfold UnalignedMemoryMapping.findRegion
      dsimp only
      split
      · rfl
      · split
        · rfl
        · split
          · rfl
          · split <;> rfl

theorem findRegion_mem {m : MemoryMapping} {c : CommonMemoryMapping} (hc : m.common? = some c)
    {vmAddr : U64} {index : Nat} {region : MemoryRegion}
    (hfound : (m.findRegion vmAddr).1 = some (index, region)) :
    c.regions[index]? = some region := by
  cases m with
  | identity => cases hc
  | aligned m =>
      cases hc
      simp only [findRegion, AlignedMemoryMapping.findRegion, Option.ite_none_right_eq_some,
        Option.map_eq_some_iff, Prod.mk.injEq] at hfound
      rcases hfound with ⟨-, region', hget, rfl, rfl⟩
      exact hget
  | unaligned m =>
      cases hc
      change (m.findRegion vmAddr).1 = some (index, region) at hfound
      unfold UnalignedMemoryMapping.findRegion at hfound
      dsimp only at hfound
      split at hfound
      · simp only [Option.map_eq_some_iff, Prod.mk.injEq] at hfound
        rcases hfound with ⟨region', hget, rfl, rfl⟩
        exact hget
      · split at hfound
        · cases hfound
        · split at hfound
          · cases hfound
          · split at hfound
            · cases hfound
            · rename_i hget
              cases hfound
              exact hget

@[simp] theorem checkAccess_common (m : MemoryMapping) (vmAddr len : U64) :
    (m.checkAccess vmAddr len).common? =
      m.common?.map fun c => c.checkAccess vmAddr len := by
  cases m <;> rfl

theorem map_common (m : MemoryMapping) (accessType : AccessType) (vmAddr len : U64) :
    (m.map accessType vmAddr len).2.common? =
      if accessType = .load then m.common?.map fun c => c.checkAccess vmAddr len
      else m.common? := by
  unfold map
  dsimp only
  split <;> (rw [findRegion_common]; split <;> simp)

/-- A translated address comes from one of the regions. -/
theorem map_ok {m : MemoryMapping} {c : CommonMemoryMapping} (hc : m.common? = some c)
    {accessType : AccessType} {vmAddr len h : U64}
    (hok : (m.map accessType vmAddr len).1 = .ok h) :
    ∃ region ∈ c.regions, region.vmToHost accessType vmAddr len = some h := by
  unfold map at hok
  dsimp only at hok
  obtain ⟨m', hm', hc'⟩ : ∃ m' : MemoryMapping,
      (if accessType = .load then m.checkAccess vmAddr len else m) = m' ∧
        ∃ c', m'.common? = some c' ∧ c'.regions = c.regions := by
    refine ⟨_, rfl, ?_⟩
    split
    · exact ⟨c.checkAccess vmAddr len, by rw [checkAccess_common, hc]; rfl, rfl⟩
    · exact ⟨c, hc, rfl⟩
  rcases hc' with ⟨c', hc', hregions⟩
  rw [hm'] at hok
  split at hok
  · rename_i hostAddr hfound
    cases hok
    rcases Option.bind_eq_some_iff.mp hfound with ⟨⟨index, region⟩, hget, hhost⟩
    have hmem : c'.regions[index]? = some region := findRegion_mem hc' hget
    exact ⟨region, hregions ▸ List.mem_of_getElem? hmem, hhost⟩
  · unfold untranslated at hok
    rw [findRegion_common, hc'] at hok
    cases hok

theorem replaceRegion_tracker {m m' : MemoryMapping} {index : Nat} {region : MemoryRegion}
    (hok : m.replaceRegion index region = .ok m') :
    m'.getAccessTracker = m.getAccessTracker := by
  unfold replaceRegion at hok
  dsimp only at hok
  split at hok
  · cases hok
  · split at hok
    · cases hok
    · cases m with
      | identity => cases hok
      | aligned m =>
          simp only [AlignedMemoryMapping.replaceRegion] at hok
          split at hok
          · cases hok
          · cases hok
            rfl
      | unaligned m =>
          cases hok
          rfl

/-- Whatever the handler does to a region, the tracker stays. -/
theorem mapWithAccessViolationHandler_tracker (m : MemoryMapping) (accessType : AccessType)
    (vmAddr len : U64) :
    (m.mapWithAccessViolationHandler accessType vmAddr len).2.getAccessTracker =
      m.getAccessTracker := by
  have hfind : (m.findRegion vmAddr).2.getAccessTracker = m.getAccessTracker := by
    simp [getAccessTracker]
  unfold mapWithAccessViolationHandler
  dsimp only
  split
  · rfl
  · split
    · exact hfind
    · split
      · exact hfind
      · split
        · split
          · exact hfind
          · rename_i hok
            rw [replaceRegion_tracker hok, hfind]
        · exact hfind

section DefaultHandler

variable {m : MemoryMapping} {c : CommonMemoryMapping}

/-- The default handler never makes a second attempt succeed. -/
theorem mapWithAccessViolationHandler_default (hc : m.common? = some c)
    (hdefault : c.accessViolationHandler = defaultAccessViolationHandler)
    (accessType : AccessType) (vmAddr len : U64) :
    m.mapWithAccessViolationHandler accessType vmAddr len =
      match (m.findRegion vmAddr).1.bind fun (_, region) =>
        region.vmToHost accessType vmAddr len with
      | some hostAddr => (.ok hostAddr, (m.findRegion vmAddr).2)
      | none =>
          (.error (c.generateAccessViolation accessType vmAddr len), (m.findRegion vmAddr).2) := by
  have hun : (m.findRegion vmAddr).2.untranslated accessType vmAddr len =
      .error (c.generateAccessViolation accessType vmAddr len) := by
    unfold untranslated
    rw [findRegion_common, hc]
  unfold mapWithAccessViolationHandler
  rw [hc]
  dsimp only
  cases hfound : (m.findRegion vmAddr).1 with
  | none => simp [hun]
  | some found =>
      rcases found with ⟨index, region⟩
      cases hhost : region.vmToHost accessType vmAddr len with
      | some hostAddr => simp [hhost]
      | none => simp [hhost, hdefault, defaultAccessViolationHandler, hun]

theorem mapWithAccessViolationHandler_common (hc : m.common? = some c)
    (hdefault : c.accessViolationHandler = defaultAccessViolationHandler)
    (accessType : AccessType) (vmAddr len : U64) :
    (m.mapWithAccessViolationHandler accessType vmAddr len).2.common? = some c := by
  rw [mapWithAccessViolationHandler_default hc hdefault]
  split <;> rw [findRegion_common, hc]

theorem mapWithAccessViolationHandler_ok (hc : m.common? = some c)
    (hdefault : c.accessViolationHandler = defaultAccessViolationHandler)
    {accessType : AccessType} {vmAddr len h : U64}
    (hok : (m.mapWithAccessViolationHandler accessType vmAddr len).1 = .ok h) :
    ∃ region ∈ c.regions, region.vmToHost accessType vmAddr len = some h := by
  rw [mapWithAccessViolationHandler_default hc hdefault] at hok
  split at hok
  · rename_i hostAddr hfound
    cases hok
    rcases Option.bind_eq_some_iff.mp hfound with ⟨⟨index, region⟩, hget, hhost⟩
    exact ⟨region, List.mem_of_getElem? (findRegion_mem hc hget), hhost⟩
  · cases hok

end DefaultHandler

end MemoryMapping

end Sbpf
end Gobble
