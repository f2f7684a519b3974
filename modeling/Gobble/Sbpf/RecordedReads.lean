import Gobble.Sbpf.MappingRuns

/-!
# RecordedReads — which accesses the tracker reports

The tracker is asked before an address is translated.  So it also records accesses that fail: the
program is stopped with an access violation and has not read a byte, but the report says that it did.
An access of length zero reads no byte either, and is recorded when its address is inside of a watched
range.  This file says for which accesses the record is right.
-/

namespace Gobble
namespace Sbpf

open Lib

/-! ## Reads -/

/-- The two operations that read. -/
inductive ReadCall where
  | load (size : AccessSize) (vmAddr : U64)
  | map (vmAddr len : U64)

namespace ReadCall

def vmAddr : ReadCall → U64
  | load _ vmAddr => vmAddr
  | map vmAddr _ => vmAddr

def len : ReadCall → U64
  | load size _ => BitVec.ofNat 64 size.bytes
  | map _ len => len

def apply (call : ReadCall) (s : VmMemory) : ProgramResult × VmMemory :=
  match call with
  | load size vmAddr => s.load size vmAddr
  | map vmAddr len =>
      let (result, mapping) := s.mapping.map .load vmAddr len
      (result, { s with mapping })

end ReadCall

/-- The ranges that are watched; nothing is watched if addresses are not translated. -/
def MemoryMapping.watchedRanges (m : MemoryMapping) : List AddrRange :=
  match m.getAccessTracker with
  | none => []
  | some tracker => tracker.watchedRanges

/-- At least one byte of the access is watched. -/
def ReadCall.TouchesWatched (call : ReadCall) (s : VmMemory) : Prop :=
  MemoryAccessTracker.SharesByte call.vmAddr call.len s.mapping.watchedRanges

/-- The record is right: there is a new entry if and only if the call returns and one of the bytes is
watched, and a call that fails or reads no byte leaves the record as it was. -/
structure ReadCall.ReportedRight (call : ReadCall) (s : VmMemory) : Prop where
  appended : (∃ entry, (call.apply s).2.getForbiddenAccesses = s.getForbiddenAccesses ++ [entry]) ↔
    (∃ value, (call.apply s).1 = .ok value) ∧ call.TouchesWatched s
  unchanged : ((∃ err, (call.apply s).1 = .error err) ∨ call.len = 0) →
    (call.apply s).2.getForbiddenAccesses = s.getForbiddenAccesses

/-! ## When an access succeeds -/

namespace MemoryMapping

/-- The region at the address translates the access. -/
def Translates (m : MemoryMapping) (vmAddr len : U64) : Prop :=
  ∃ entry, (m.findRegion vmAddr).1 = some entry ∧ (entry.2.vmToHost .load vmAddr len).isSome

/-- What the access violation handler makes of a region. -/
def repaired (m : MemoryMapping) (c : CommonMemoryMapping) (index : Nat) (region : MemoryRegion)
    (vmAddr len : U64) : MemoryRegion :=
  c.accessViolationHandler region
    (U64.saturatingSub
      ((m.getRegions[index + 1]?.map MemoryRegion.vmAddr).getD (BitVec.allOnes 64)) region.vmAddr)
    .load vmAddr len

/-- The region at the address does not translate the access, but what the handler makes of it does,
and may take its place. -/
def Repairs (m : MemoryMapping) (vmAddr len : U64) : Prop :=
  ∃ c entry, m.common? = some c ∧ (m.findRegion vmAddr).1 = some entry ∧
    ((m.repaired c entry.1 entry.2 vmAddr len).vmToHost .load vmAddr len).isSome ∧
    (m.replaceRegion entry.1 (m.repaired c entry.1 entry.2 vmAddr len)).isOk

end MemoryMapping

/-- The call returns a value: decided by the regions and the handler before the call. -/
def ReadCall.Succeeds : ReadCall → VmMemory → Prop
  | call@(load _ _), s =>
      s.mapping.Translates call.vmAddr call.len ∨ s.mapping.Repairs call.vmAddr call.len
  | call@(map _ _), s => s.mapping.Translates call.vmAddr call.len

/-- The condition for a right record, on the state before the call. -/
structure ReadCall.Harmless (call : ReadCall) (s : VmMemory) : Prop where
  /-- An access to watched bytes succeeds. -/
  succeeds : call.TouchesWatched s → call.Succeeds s
  /-- An access of length zero is not strictly inside of a watched range. -/
  outside : call.len = 0 →
    ¬ ∃ r ∈ s.mapping.watchedRanges, r.start < call.vmAddr ∧ call.vmAddr < r.stop

namespace MemoryMapping

variable {m m' : MemoryMapping}

/-- Lookups do not depend on the tracker. -/
theorem findRegion_checkAccess (m : MemoryMapping) (vmAddr len vmAddr' : U64) :
    ((m.checkAccess vmAddr len).findRegion vmAddr').1 = (m.findRegion vmAddr').1 := by
  cases m with
  | identity => rfl
  | aligned m => rfl
  | unaligned m =>
      show (UnalignedMemoryMapping.findRegion
        { m with common := m.common.checkAccess vmAddr len } vmAddr').1 = (m.findRegion vmAddr').1
      unfold UnalignedMemoryMapping.findRegion
      dsimp only [CommonMemoryMapping.checkAccess]
      split
      · rfl
      · split
        · rfl
        · split
          · rfl
          · split <;> rfl

/-- Whether a region may be replaced depends on the regions only. -/
theorem replaceRegion_isOk_congr (hkind : m.kind = m'.kind) (hregions : m.getRegions = m'.getRegions)
    (index : Nat) (region : MemoryRegion) :
    (m.replaceRegion index region).isOk = (m'.replaceRegion index region).isOk := by
  have haligned : ∀ a : AlignedMemoryMapping, ((a.replaceRegion index region).map aligned).isOk =
      !(decide (AlignedMemoryMapping.slot region.vmAddr ≠ index ∨ AlignedMemoryMapping.slot
        (U64.saturatingAdd region.vmAddr (U64.saturatingSub region.len 1)) ≠ index)) := by
    intro a
    unfold AlignedMemoryMapping.replaceRegion
    dsimp only
    split
    · rename_i hbad
      rw [decide_eq_true hbad]
      rfl
    · rename_i hgood
      rw [decide_eq_false hgood]
      rfl
  unfold replaceRegion
  dsimp only
  rw [hregions]
  cases m'.getRegions[index]? with
  | none => rfl
  | some old =>
      dsimp only
      split
      · rfl
      · cases m with
        | identity =>
            cases m' with
            | identity => rfl
            | aligned a' => cases hkind
            | unaligned u' => cases hkind
        | aligned a =>
            cases m' with
            | identity => cases hkind
            | aligned a' => exact (haligned a).trans (haligned a').symm
            | unaligned u' => cases hkind
        | unaligned u =>
            cases m' with
            | identity => cases hkind
            | aligned a' => cases hkind
            | unaligned u' => rfl

theorem translates_checkAccess (vmAddr len : U64) :
    (m.checkAccess vmAddr len).Translates vmAddr len ↔ m.Translates vmAddr len := by
  unfold Translates
  rw [findRegion_checkAccess]

theorem repairs_checkAccess (vmAddr len : U64) :
    (m.checkAccess vmAddr len).Repairs vmAddr len ↔ m.Repairs vmAddr len := by
  have hokay : ∀ index region, ((m.checkAccess vmAddr len).replaceRegion index region).isOk =
      (m.replaceRegion index region).isOk :=
    replaceRegion_isOk_congr (m.checkAccess_evolves vmAddr len).kind
      (m.getRegions_checkAccess vmAddr len)
  unfold Repairs repaired
  rw [findRegion_checkAccess, getRegions_checkAccess, checkAccess_common]
  simp only [hokay]
  constructor
  · rintro ⟨c', entry, hc', hrest⟩
    obtain ⟨c, hc, rfl⟩ := Option.map_eq_some_iff.mp hc'
    exact ⟨c, entry, hc, hrest⟩
  · rintro ⟨c, entry, hc, hrest⟩
    exact ⟨c.checkAccess vmAddr len, entry, by rw [hc]; rfl, hrest⟩

theorem untranslated_eq_error {c : CommonMemoryMapping} (hc : m.common? = some c)
    (accessType : AccessType) (vmAddr len : U64) :
    ∃ err, m.untranslated accessType vmAddr len = .error err := by
  unfold untranslated
  rw [hc]
  exact ⟨_, rfl⟩

/-- A read by `map` returns if and only if the region translates it. -/
theorem map_returns_iff {c : CommonMemoryMapping} (hc : m.common? = some c) (vmAddr len : U64) :
    (∃ hostAddr, (m.map .load vmAddr len).1 = .ok hostAddr) ↔ m.Translates vmAddr len := by
  have hc' : ((m.checkAccess vmAddr len).findRegion vmAddr).2.common? =
      some (c.checkAccess vmAddr len) := by
    rw [findRegion_common, checkAccess_common, hc]
    rfl
  obtain ⟨err, herr⟩ := untranslated_eq_error hc' .load vmAddr len
  rw [← translates_checkAccess]
  unfold map Translates
  rw [if_pos rfl]
  dsimp only
  cases hfound : ((m.checkAccess vmAddr len).findRegion vmAddr).1 with
  | none => simp [herr]
  | some entry =>
      cases hhost : entry.2.vmToHost .load vmAddr len with
      | some hostAddr => simp [hhost]
      | none => simp [hhost, herr]

section Handler

variable {c : CommonMemoryMapping} {vmAddr len : U64} {index : Nat} {region : MemoryRegion}

theorem repairs_iff (hc : m.common? = some c)
    (hfound : (m.findRegion vmAddr).1 = some (index, region)) :
    m.Repairs vmAddr len ↔
      ((m.repaired c index region vmAddr len).vmToHost .load vmAddr len).isSome ∧
        (m.replaceRegion index (m.repaired c index region vmAddr len)).isOk := by
  constructor
  · rintro ⟨c', entry, hc', hentry, hrest⟩
    rw [hc] at hc'
    rw [hfound] at hentry
    cases hc'
    cases hentry
    exact hrest
  · intro hrest
    exact ⟨c, (index, region), hc, hfound, hrest⟩

/-- The handler gets a second chance. -/
theorem mapWithAccessViolationHandler_of_none (hc : m.common? = some c)
    (hfound : (m.findRegion vmAddr).1 = some (index, region))
    (hnone : region.vmToHost .load vmAddr len = none) :
    (m.mapWithAccessViolationHandler .load vmAddr len).1 =
      match (m.repaired c index region vmAddr len).vmToHost .load vmAddr len,
        (m.findRegion vmAddr).2.replaceRegion index (m.repaired c index region vmAddr len) with
      | some _, .error err => .error err
      | some hostAddr, .ok _ => .ok hostAddr
      | none, _ => (m.findRegion vmAddr).2.untranslated .load vmAddr len := by
  unfold mapWithAccessViolationHandler
  rw [hc]
  dsimp only
  rw [hfound]
  dsimp only
  rw [hnone]
  dsimp only
  rw [getRegions_findRegion]
  generalize hrepaired : m.repaired c index region vmAddr len = repaired
  unfold MemoryMapping.repaired at hrepaired
  rw [hrepaired]
  cases repaired.vmToHost .load vmAddr len with
  | none => rfl
  | some hostAddr => cases (m.findRegion vmAddr).2.replaceRegion index repaired <;> rfl

theorem mapWithAccessViolationHandler_returns_iff (hc : m.common? = some c) (vmAddr len : U64) :
    (∃ hostAddr, (m.mapWithAccessViolationHandler .load vmAddr len).1 = .ok hostAddr) ↔
      m.Translates vmAddr len ∨ m.Repairs vmAddr len := by
  have hc' : (m.findRegion vmAddr).2.common? = some c := by rw [findRegion_common, hc]
  obtain ⟨err, herr⟩ := untranslated_eq_error hc' .load vmAddr len
  cases hfound : (m.findRegion vmAddr).1 with
  | none =>
      unfold mapWithAccessViolationHandler Translates Repairs
      simp [hc, hfound, herr]
  | some entry =>
      obtain ⟨index, region⟩ := entry
      cases hhost : region.vmToHost .load vmAddr len with
      | some hostAddr =>
          unfold mapWithAccessViolationHandler Translates
          simp [hc, hfound, hhost]
      | none =>
          have hnot : ¬ m.Translates vmAddr len := by
            rintro ⟨entry, hentry, hsome⟩
            rw [hfound] at hentry
            cases hentry
            rw [hhost] at hsome
            cases hsome
          have hokay := replaceRegion_isOk_congr (m.findRegion_evolves vmAddr).kind
            (m.getRegions_findRegion vmAddr) index (m.repaired c index region vmAddr len)
          rw [mapWithAccessViolationHandler_of_none hc hfound hhost, or_iff_right hnot,
            repairs_iff hc hfound, ← hokay]
          generalize m.repaired c index region vmAddr len = repaired
          cases repaired.vmToHost .load vmAddr len with
          | none => simp [herr]
          | some hostAddr =>
              cases (m.findRegion vmAddr).2.replaceRegion index repaired with
              | error err => simp [Except.isOk, Except.toBool]
              | ok m' => simp [Except.isOk, Except.toBool]

end Handler

end MemoryMapping

theorem returns_map_iff {α β : Type} (f : α → β) (x : Except EbpfError α) :
    (∃ value, x.map f = .ok value) ↔ ∃ value, x = .ok value := by
  cases x <;> simp [Except.map]

namespace ReadCall

variable {call : ReadCall} {s : VmMemory}

/-- The tracker is told of the call, and of nothing else. -/
theorem apply_tracker (call : ReadCall) (s : VmMemory) :
    (call.apply s).2.mapping.getAccessTracker =
      s.mapping.getAccessTracker.map fun t => t.checkAccess call.vmAddr call.len := by
  cases call with
  | load size vmAddr =>
      show ((s.mapping.checkAccess _ _).mapWithAccessViolationHandler _ _ _).2.getAccessTracker = _
      rw [MemoryMapping.mapWithAccessViolationHandler_tracker, MemoryMapping.checkAccess_tracker]
      rfl
  | map vmAddr len =>
      show (s.mapping.map _ _ _).2.getAccessTracker = _
      rw [MemoryMapping.map_tracker, if_pos rfl]
      rfl

theorem returns_iff {c : CommonMemoryMapping} (hc : s.mapping.common? = some c) :
    (∃ value, (call.apply s).1 = .ok value) ↔ call.Succeeds s := by
  cases call with
  | load size vmAddr =>
      have hc' : (s.mapping.checkAccess vmAddr (BitVec.ofNat 64 size.bytes)).common? =
          some (c.checkAccess vmAddr (BitVec.ofNat 64 size.bytes)) := by
        rw [MemoryMapping.checkAccess_common, hc]
        rfl
      have hiff := MemoryMapping.mapWithAccessViolationHandler_returns_iff hc' vmAddr
        (BitVec.ofNat 64 size.bytes)
      rw [MemoryMapping.translates_checkAccess, MemoryMapping.repairs_checkAccess] at hiff
      -- The value is what is read at the translated address.
      exact (returns_map_iff _ _).trans hiff
  | map vmAddr len => exact MemoryMapping.map_returns_iff hc vmAddr len

section Record

variable (call : ReadCall)
  (hwell : ∀ tracker, s.mapping.getAccessTracker = some tracker → tracker.WellFormed)

include hwell

/-- The entry that the call adds to the record. -/
theorem apply_forbiddenAccesses :
    (call.apply s).2.getForbiddenAccesses =
      if MemoryAccessTracker.Marks call.vmAddr call.len s.mapping.watchedRanges then
        s.getForbiddenAccesses ++ [(call.vmAddr, call.len)]
      else
        s.getForbiddenAccesses := by
  have hafter := call.apply_tracker s
  unfold VmMemory.getForbiddenAccesses MemoryMapping.getForbiddenAccesses
    MemoryMapping.watchedRanges
  cases htracker : s.mapping.getAccessTracker with
  | none =>
      rw [htracker] at hafter
      rw [hafter]
      -- Nothing is watched.
      exact (if_neg fun ⟨_, hr, _⟩ => List.not_mem_nil hr).symm
  | some tracker =>
      rw [htracker, Option.map_some,
        MemoryAccessTracker.checkAccess_marks (hwell tracker htracker)] at hafter
      rw [hafter]

theorem watchedRanges_nonempty : ∀ r ∈ s.mapping.watchedRanges, r.isEmpty = false := by
  intro r hr
  unfold MemoryMapping.watchedRanges at hr
  cases htracker : s.mapping.getAccessTracker with
  | none =>
      rw [htracker] at hr
      cases hr
  | some tracker =>
      rw [htracker] at hr
      exact (hwell tracker htracker).nonempty r hr

theorem exists_entry_iff :
    (∃ entry, (call.apply s).2.getForbiddenAccesses = s.getForbiddenAccesses ++ [entry]) ↔
      MemoryAccessTracker.Marks call.vmAddr call.len s.mapping.watchedRanges := by
  rw [apply_forbiddenAccesses call hwell]
  split
  · rename_i hmarks
    exact iff_of_true ⟨_, rfl⟩ hmarks
  · rename_i hmarks
    refine iff_of_false ?_ hmarks
    rintro ⟨entry, hentry⟩
    have hlength := congrArg List.length hentry
    simp at hlength

theorem same_entries_iff :
    (call.apply s).2.getForbiddenAccesses = s.getForbiddenAccesses ↔
      ¬ MemoryAccessTracker.Marks call.vmAddr call.len s.mapping.watchedRanges := by
  rw [apply_forbiddenAccesses call hwell]
  split
  · rename_i hmarks
    refine iff_of_false ?_ (not_not_intro hmarks)
    intro hsame
    have hlength := congrArg List.length hsame
    simp at hlength
  · rename_i hmarks
    exact iff_of_true rfl hmarks

end Record

theorem TouchesWatched.len_pos (h : call.TouchesWatched s) : 0 < call.len.toNat := by
  obtain ⟨r, -, x, hge, hlt, -⟩ := h
  omega

/-- Where something is watched, addresses are translated. -/
theorem TouchesWatched.returns_iff (h : call.TouchesWatched s) :
    (∃ value, (call.apply s).1 = .ok value) ↔ call.Succeeds s := by
  cases hc : s.mapping.common? with
  | none =>
      have hnothing : s.mapping.watchedRanges = [] := by
        rw [MemoryMapping.watchedRanges, MemoryMapping.getAccessTracker, hc]
        rfl
      obtain ⟨r, hr, -⟩ := h
      rw [hnothing] at hr
      cases hr
  | some c => exact ReadCall.returns_iff hc

/-- The record of a read is right if and only if the read is not a failing access to watched bytes,
and not one of length zero inside of a watched range. -/
theorem reportedRight_iff (call : ReadCall) (s : VmMemory)
    (hwell : ∀ tracker, s.mapping.getAccessTracker = some tracker → tracker.WellFormed) :
    call.ReportedRight s ↔ call.Harmless s := by
  have hnonempty := watchedRanges_nonempty hwell
  constructor
  · rintro ⟨happended, hunchanged⟩
    rw [exists_entry_iff call hwell] at happended
    rw [same_entries_iff call hwell] at hunchanged
    refine ⟨?_, ?_⟩
    · intro htouches
      have hmarks : MemoryAccessTracker.Marks call.vmAddr call.len s.mapping.watchedRanges :=
        (MemoryAccessTracker.marks_iff_sharesByte htouches.len_pos hnonempty).mpr htouches
      exact htouches.returns_iff.mp (happended.mp hmarks).1
    · intro hzero hinside
      have hlen : call.len.toNat = 0 := by rw [hzero]; rfl
      exact hunchanged (.inr hzero) ((MemoryAccessTracker.marks_zero_iff hlen).mpr hinside)
  · rintro ⟨hsucceeds, houtside⟩
    -- The test of the tracker says that a watched byte is read.
    have hmarks : MemoryAccessTracker.Marks call.vmAddr call.len s.mapping.watchedRanges ↔
        (∃ value, (call.apply s).1 = .ok value) ∧ call.TouchesWatched s := by
      by_cases hlen : 0 < call.len.toNat
      · rw [MemoryAccessTracker.marks_iff_sharesByte hlen hnonempty]
        constructor
        · intro (htouches : call.TouchesWatched s)
          exact ⟨htouches.returns_iff.mpr (hsucceeds htouches), htouches⟩
        · rintro ⟨-, htouches⟩
          exact htouches
      · have hzero : call.len.toNat = 0 := by omega
        rw [MemoryAccessTracker.marks_zero_iff hzero]
        constructor
        · intro hinside
          exact absurd hinside (houtside (BitVec.eq_of_toNat_eq hzero))
        · rintro ⟨-, htouches⟩
          exact absurd htouches.len_pos hlen
    refine ⟨?_, ?_⟩
    · rw [exists_entry_iff call hwell]
      exact hmarks
    · rw [same_entries_iff call hwell, hmarks]
      rintro (⟨err, herr⟩ | hzero) ⟨⟨value, hvalue⟩, htouches⟩
      · rw [herr] at hvalue
        cases hvalue
      · have hpos := htouches.len_pos
        rw [hzero] at hpos
        cases hpos

/-- Eight bytes of input. -/
def shortInput : List MemoryRegion :=
  [.newReadonly 0x1000 8 mmInputStart]

/-- The last four of them are watched. -/
def lastFour : MemoryAccessTracker :=
  MemoryAccessTracker.new.addWatchedRange ⟨mmInputStart + 4, mmInputStart + 8⟩

/-- A load of eight bytes from the middle of the input fails, and is reported. -/
theorem straddling_load_is_reported :
    ∃ m, MemoryMapping.newWithAccessViolationHandler shortInput {} .v0
        defaultAccessViolationHandler = .ok m ∧
      ¬ ReportedRight (.load .u64 (mmInputStart + 4)) ⟨m.withTracker lastFour, fun _ => 0⟩ := by
  refine ⟨_, rfl, ?_⟩
  intro hright
  have hsame := hright.unchanged (.inl ⟨_, rfl⟩)
  exact absurd hsame (by decide +kernel)

/-- The same load is one that the equivalence speaks of. -/
theorem straddling_load_reportedRight_iff :
    ∃ m, MemoryMapping.newWithAccessViolationHandler shortInput {} .v0
        defaultAccessViolationHandler = .ok m ∧
      (ReportedRight (.load .u64 (mmInputStart + 4)) ⟨m.withTracker lastFour, fun _ => 0⟩ ↔
        Harmless (.load .u64 (mmInputStart + 4)) ⟨m.withTracker lastFour, fun _ => 0⟩) := by
  refine ⟨_, rfl, reportedRight_iff _ _ ?_⟩
  intro tracker htracker
  cases htracker
  exact ⟨by decide +kernel, by decide +kernel⟩

end ReadCall

end Sbpf
end Gobble
