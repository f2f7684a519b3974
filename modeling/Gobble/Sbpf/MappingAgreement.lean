import Gobble.Sbpf.MappingRuns

/-!
# MappingAgreement — aligned and unaligned mappings translate alike

A feature of the runtime decides which of the two mappings a program gets.  One takes the upper half
of an address as the index of its region, the other searches for the last region that starts below the
address.  They may well find different regions: in front of the first byte of a region, in a slot
without a region, or past the end of the last one.  In these cases none of the two regions has the
address, so that the access fails either way, and with the same error.
-/

namespace Gobble
namespace Sbpf

open Lib

/-! ## Regions inside of their slots -/

namespace MemoryRegion

/-- The region ends in the slot in which it starts. -/
def InSlot (r : MemoryRegion) : Prop :=
  r.vmAddrRange.stop.toNat ≤ (AlignedMemoryMapping.slot r.vmAddr + 1) * 2 ^ 32

instance (r : MemoryRegion) : Decidable r.InSlot :=
  inferInstanceAs (Decidable (_ ≤ _))

theorem vmToHost_eq_none_of_not_admits {r : MemoryRegion} {accessType : AccessType}
    {vmAddr len : U64} (h : ¬ r.Admits accessType vmAddr len) :
    r.vmToHost accessType vmAddr len = none := by
  by_contra hsome
  obtain ⟨host, hhost⟩ := Option.ne_none_iff_exists'.mp hsome
  exact h (vmToHost_eq_some_iff_min.mp hhost).1

/-- Offsets of frames are at most twice as large as the offsets in the host memory. -/
theorem le_two_mul_hostOffset {r : MemoryRegion} {offset : Nat} (h : r.FrameOffset offset) :
    if r.vmGapShift = 63 then offset = r.hostOffset offset else offset ≤ 2 * r.hostOffset offset := by
  by_cases hgap : r.vmGapShift = 63
  · rw [if_pos hgap, hostOffset, if_pos hgap]
  · rw [if_neg hgap, hostOffset, if_neg hgap]
    obtain ⟨k, hk⟩ := Nat.dvd_of_mod_eq_zero (h.resolve_left hgap)
    have hdiv := Nat.div_add_mod offset r.frameSize
    rw [hk] at hdiv ⊢
    rw [Nat.mul_div_cancel_left _ (by decide)]
    rw [Nat.mul_left_comm] at hdiv
    omega

end MemoryRegion

namespace AlignedMemoryMapping

theorem slot_eq (vmAddr : U64) : slot vmAddr = vmAddr.toNat / 2 ^ 32 := by
  unfold slot virtualAddressBits
  rw [BitVec.toNat_ushiftRight, Nat.shiftRight_eq_div_pow]

theorem slot_mono {vmAddr vmAddr' : U64} (h : vmAddr ≤ vmAddr') : slot vmAddr ≤ slot vmAddr' := by
  rw [slot_eq, slot_eq]
  exact Nat.div_le_div_right h

end AlignedMemoryMapping

open AlignedMemoryMapping (slot)

/-- A region does not translate addresses of later slots. -/
theorem MemoryRegion.InSlot.vmToHost_later {r : MemoryRegion} (h : r.InSlot)
    (accessType : AccessType) {vmAddr len : U64} (hlen : 1 ≤ len.toNat)
    (hlater : slot r.vmAddr < slot vmAddr) : r.vmToHost accessType vmAddr len = none := by
  apply vmToHost_eq_none_of_not_admits
  intro hadmits
  have hlast := AlignedMemoryMapping.slot_lt vmAddr
  have hroom := hadmits.room
  have hoffset := le_two_mul_hostOffset hadmits.starts
  have habove := hadmits.above
  have hstop := r.toNat_vmAddrRange_stop
  have hslot := AlignedMemoryMapping.slot_eq vmAddr
  have htop := U64.toNat_le_u64Max vmAddr
  unfold InSlot at h
  unfold u64Max at hstop htop
  -- The address would be below the end of the region, which is not after the end of the slot.
  split at hoffset
  all_goals
    rename_i hgap
    simp only [hgap, if_true, if_false] at hstop
    omega

/-- An empty region translates nothing. -/
theorem MemoryRegion.vmToHost_empty {r : MemoryRegion} (h : r.len = 0) (accessType : AccessType)
    (vmAddr : U64) {len : U64} (hlen : 1 ≤ len.toNat) :
    r.vmToHost accessType vmAddr len = none := by
  apply vmToHost_eq_none_of_not_admits
  intro hadmits
  have hroom := hadmits.room
  have hzero : r.len.toNat = 0 := by rw [h]; rfl
  omega

/-! ## The regions of an aligned mapping -/

/-- How the regions of an aligned mapping come from those it was made of: they stand at the indices of
their slots, the rest are empty, and slot zero is only used if that is allowed. -/
structure Fills (allowZero : Bool) (regions slots : List MemoryRegion) : Prop where
  placed : ∀ (i : Nat) (r : MemoryRegion), slots[i]? = some r → slot r.vmAddr = i
  kept : regions.Subperm slots
  added : ∀ r ∈ slots, r ∈ regions ∨ r.len = 0
  zero : allowZero = false → ∀ r ∈ regions, slot r.vmAddr ≠ 0

/-- Every region is found at the index of its slot. -/
theorem Fills.getElem? {allowZero : Bool} {regions slots : List MemoryRegion}
    (h : Fills allowZero regions slots) {r : MemoryRegion} (hr : r ∈ regions) :
    slots[slot r.vmAddr]? = some r := by
  obtain ⟨i, hi⟩ := List.mem_iff_getElem?.mp (h.kept.subset hr)
  rw [h.placed i r hi]
  exact hi

/-- The order of the regions does not matter. -/
theorem Fills.perm {allowZero : Bool} {regions regions' slots : List MemoryRegion}
    (h : Fills allowZero regions slots) (hperm : regions'.Perm regions) :
    Fills allowZero regions' slots where
  placed := h.placed
  kept := hperm.subperm.trans h.kept
  added := fun r hr => (h.added r hr).imp_left hperm.mem_iff.mpr
  zero := fun hallow r hr => h.zero hallow r (hperm.mem_iff.mp hr)

namespace AlignedMemoryMapping

theorem fillSlots_mem (expected : Nat) (regions : List MemoryRegion) :
    Ends (fun filled => regions.Sublist filled ∧ ∀ r ∈ filled, r ∈ regions ∨ r.len = 0)
      (fun _ => True) (fillSlots expected regions) := by
  induction regions generalizing expected with
  | nil => exact ⟨List.Sublist.refl _, by simp⟩
  | cons region rest ih =>
      -- Whatever stands in front of the region is empty.
      have hcons : ∀ (fillers filled : List MemoryRegion), (∀ r ∈ fillers, r.len = 0) →
          (rest.Sublist filled ∧ ∀ r ∈ filled, r ∈ rest ∨ r.len = 0) →
          (region :: rest).Sublist (fillers ++ region :: filled) ∧
            ∀ r ∈ fillers ++ region :: filled, r ∈ region :: rest ∨ r.len = 0 := by
        rintro fillers filled hempty ⟨hkept, hadded⟩
        constructor
        · exact (hkept.cons_cons region).trans (List.sublist_append_right fillers _)
        · intro r hr
          rcases List.mem_append.mp hr with hr | hr
          · exact .inr (hempty r hr)
          · rcases List.mem_cons.mp hr with rfl | hr
            · exact .inl List.mem_cons_self
            · exact (hadded r hr).imp_left (List.mem_cons_of_mem _)
      rw [fillSlots]
      split
      · refine (ih _).bind fun filled hfilled => hcons _ filled ?_ hfilled
        intro r hr
        obtain ⟨index, -, rfl⟩ := List.mem_map.mp hr
        rfl
      · split
        · trivial
        · exact (ih _).bind fun filled hfilled => hcons [] filled (by simp) hfilled

/-- With slot zero allowed, the slots between the regions are filled up. -/
theorem fills_of_fillSlots {regions slots : List MemoryRegion}
    (h : fillSlots 0 (UnalignedMemoryMapping.sortRegions regions) = .ok slots) :
    Fills true regions slots := by
  have hperm : (UnalignedMemoryMapping.sortRegions regions).Perm regions :=
    List.perm_insertionSort _ regions
  have hslots := fillSlots_slot 0 (UnalignedMemoryMapping.sortRegions regions)
  have hmem := fillSlots_mem 0 (UnalignedMemoryMapping.sortRegions regions)
  rw [h] at hslots hmem
  refine ⟨?_, ?_, ?_, ?_⟩
  · intro i r hr
    rw [hslots i r hr, Nat.zero_add]
  · exact hperm.symm.subperm.trans hmem.1.subperm
  · intro r hr
    exact (hmem.2 r hr).imp_left hperm.mem_iff.mp
  · intro hforbidden
    cases hforbidden

/-- Without it, an empty region is put there. -/
theorem fills_of_firstMisplaced {regions : List MemoryRegion}
    (h : firstMisplaced 0
      (UnalignedMemoryMapping.sortRegions (MemoryRegion.newReadonly 1 0 0 :: regions)) = none) :
    Fills false regions
      (UnalignedMemoryMapping.sortRegions (MemoryRegion.newReadonly 1 0 0 :: regions)) := by
  have hperm : (UnalignedMemoryMapping.sortRegions (MemoryRegion.newReadonly 1 0 0 :: regions)).Perm
      (MemoryRegion.newReadonly 1 0 0 :: regions) := List.perm_insertionSort _ _
  have hplaced : ∀ (i : Nat) (r : MemoryRegion),
      (UnalignedMemoryMapping.sortRegions (MemoryRegion.newReadonly 1 0 0 :: regions))[i]? =
        some r → slot r.vmAddr = i := by
    intro i r hr
    rw [slot_of_firstMisplaced h hr, Nat.zero_add]
  -- Regions at different indices are in different slots, so none occurs twice.
  have hnodup : (UnalignedMemoryMapping.sortRegions
      (MemoryRegion.newReadonly 1 0 0 :: regions)).Nodup := by
    rw [List.nodup_iff_getElem?_ne_getElem?]
    intro i j hij hj heq
    have hget := List.getElem?_eq_getElem hj
    have hi := hplaced i _ (heq.trans hget)
    have hj' := hplaced j _ hget
    omega
  have hfresh := List.nodup_cons.mp (hperm.nodup_iff.mp hnodup)
  refine ⟨hplaced, ?_, ?_, ?_⟩
  · exact (List.sublist_cons_self _ regions).subperm.trans hperm.symm.subperm
  · intro r hr
    rcases List.mem_cons.mp (hperm.mem_iff.mp hr) with rfl | hr
    · exact .inr rfl
    · exact .inl hr
  · intro _ r hr hzero
    -- The region in slot zero is the one that was added, and it was not there before.
    obtain ⟨i, hi⟩ := List.mem_iff_getElem?.mp (hperm.mem_iff.mpr (List.mem_cons_of_mem _ hr))
    obtain ⟨j, hj⟩ := List.mem_iff_getElem?.mp (hperm.mem_iff.mpr List.mem_cons_self)
    have hi' := hplaced i r hi
    have hj' : j = 0 := (hplaced j _ hj).symm
    rw [hzero] at hi'
    subst hi' hj'
    rw [hi] at hj
    cases hj
    exact hfresh.1 hr

theorem newWithAccessViolationHandler_fills (regions : List MemoryRegion) (config : Config)
    (sbpfVersion : SBPFVersion) (handler : AccessViolationHandler) :
    Ends (fun m => ∃ slots, Fills config.allowMemoryRegionZero regions slots ∧
        m.common = CommonMemoryMapping.new slots config sbpfVersion handler)
      (fun _ => True) (newWithAccessViolationHandler regions config sbpfVersion handler) := by
  unfold newWithAccessViolationHandler
  dsimp only
  cases hallow : config.allowMemoryRegionZero with
  | true =>
      rw [if_pos rfl]
      cases hfill : fillSlots 0 (UnalignedMemoryMapping.sortRegions regions) with
      | error fault => trivial
      | ok slots => exact ⟨slots, fills_of_fillSlots hfill, rfl⟩
  | false =>
      rw [if_neg Bool.false_ne_true]
      split
      · trivial
      · rename_i hnone
        exact ⟨_, fills_of_firstMisplaced hnone, rfl⟩

end AlignedMemoryMapping

/-! ## The regions of a new mapping -/

theorem MemoryRegion.hostBytes_empty {r : MemoryRegion} (h : r.len = 0) : r.hostBytes = ∅ := by
  refine Set.eq_empty_of_forall_notMem ?_
  rintro a ⟨hlo, hhi⟩
  have hzero : r.len.toNat = 0 := by rw [h]; rfl
  omega

/-- Regions that fill up the slots have no host bytes. -/
theorem Fills.disjoint {allowZero : Bool} {regions slots : List MemoryRegion}
    (h : Fills allowZero regions slots)
    (hapart : regions.Pairwise fun r r' => Disjoint r.hostBytes r'.hostBytes) :
    slots.Pairwise fun r r' => Disjoint r.hostBytes r'.hostBytes := by
  have : Std.Symm fun r r' : MemoryRegion => Disjoint r.hostBytes r'.hostBytes :=
    ⟨fun _ _ h => h.symm⟩
  refine List.pairwise_iff_getElem.mpr ?_
  intro i j hi hj hij
  rcases h.added _ (List.getElem_mem hi) with hr | hempty
  · rcases h.added _ (List.getElem_mem hj) with hr' | hempty'
    · refine hapart.forall hr hr' fun heq => ?_
      have hslot := h.placed i _ (List.getElem?_eq_getElem hi)
      have hslot' := h.placed j _ (List.getElem?_eq_getElem hj)
      rw [heq] at hslot
      omega
    · rw [MemoryRegion.hostBytes_empty hempty']
      exact Set.disjoint_empty _
  · rw [MemoryRegion.hostBytes_empty hempty]
    exact Set.empty_disjoint _

/-- A new mapping of either kind has the given regions and maybe empty ones. -/
structure MemoryMapping.MadeOf (regions : List MemoryRegion) (c : CommonMemoryMapping) : Prop where
  tracker : c.accessTracker = MemoryAccessTracker.new
  added : ∀ r ∈ c.regions, r ∈ regions ∨ r.len = 0
  kept : ∀ r ∈ regions, r ∈ c.regions
  disjoint : regions.Pairwise (fun r r' => Disjoint r.hostBytes r'.hostBytes) →
    c.regions.Pairwise fun r r' => Disjoint r.hostBytes r'.hostBytes

theorem MemoryMapping.new_madeOf (regions : List MemoryRegion) (config : Config)
    (sbpfVersion : SBPFVersion) (handler : AccessViolationHandler) :
    Ends (fun m => ∃ c, m.common? = some c ∧ MadeOf regions c) (fun _ => True)
      (newWithAccessViolationHandler regions config sbpfVersion handler) := by
  unfold newWithAccessViolationHandler
  split
  · refine (AlignedMemoryMapping.newWithAccessViolationHandler_fills ..).bind ?_
    rintro m ⟨slots, hfills, hcommon⟩
    refine ⟨m.common, rfl, ?_⟩
    rw [hcommon]
    exact ⟨rfl, hfills.added, hfills.kept.subset, hfills.disjoint⟩
  · refine .bind ((UnalignedMemoryMapping.newWithAccessViolationHandler_searchable ..).mono
      (fun m hm => hm.2) fun _ _ => trivial) ?_
    intro m hcommon
    refine ⟨m.common, rfl, ?_⟩
    rw [hcommon]
    have hperm : (UnalignedMemoryMapping.sortRegions regions).Perm regions :=
      List.perm_insertionSort _ regions
    refine ⟨rfl, fun r hr => .inl (hperm.mem_iff.mp hr), fun r hr => hperm.mem_iff.mpr hr, ?_⟩
    intro hapart
    exact hapart.perm hperm.symm fun {r r'} (h : Disjoint r.hostBytes r'.hostBytes) => h.symm

/-- The given regions in some order, and regions that carry no index. -/
def Completes (regions completed : List MemoryRegion) : Prop :=
  ∃ fillers : List MemoryRegion, completed.Perm (fillers ++ regions) ∧
    ∀ r ∈ fillers, r.accessViolationHandlerPayload = none

theorem Completes.cons {regions completed : List MemoryRegion} (h : Completes regions completed)
    (region : MemoryRegion) : Completes (region :: regions) (region :: completed) := by
  obtain ⟨fillers, hperm, hnone⟩ := h
  exact ⟨fillers, (hperm.cons region).trans List.perm_middle.symm, hnone⟩

theorem Completes.append_left {regions completed : List MemoryRegion} (h : Completes regions completed)
    {added : List MemoryRegion} (hadded : ∀ r ∈ added, r.accessViolationHandlerPayload = none) :
    Completes regions (added ++ completed) := by
  obtain ⟨fillers, hperm, hnone⟩ := h
  refine ⟨added ++ fillers, ?_, ?_⟩
  · rw [List.append_assoc]
    exact hperm.append_left added
  · intro r hr
    rcases List.mem_append.mp hr with hr | hr
    · exact hadded r hr
    · exact hnone r hr

theorem AlignedMemoryMapping.fillSlots_completes (expected : Nat) (regions : List MemoryRegion) :
    Ends (Completes regions) (fun _ => True) (fillSlots expected regions) := by
  induction regions generalizing expected with
  | nil => exact ⟨[], .refl _, by simp⟩
  | cons region rest ih =>
      rw [fillSlots]
      split
      · refine (ih _).bind fun filled hfilled => (hfilled.cons region).append_left ?_
        intro r hr
        obtain ⟨index, -, rfl⟩ := List.mem_map.mp hr
        rfl
      · split
        · trivial
        · exact (ih _).bind fun filled hfilled => hfilled.cons region

theorem MemoryMapping.new_completes (regions : List MemoryRegion) (config : Config)
    (sbpfVersion : SBPFVersion) (handler : AccessViolationHandler) :
    Ends (fun m => Completes regions m.getRegions) (fun _ => True)
      (newWithAccessViolationHandler regions config sbpfVersion handler) := by
  unfold newWithAccessViolationHandler
  split
  · refine .bind (P := fun m : AlignedMemoryMapping => Completes regions m.common.regions) ?_
      fun m hm => hm
    unfold AlignedMemoryMapping.newWithAccessViolationHandler
    dsimp only
    split
    · refine (AlignedMemoryMapping.fillSlots_completes 0 _).bind ?_
      rintro filled ⟨fillers, hperm, hnone⟩
      exact ⟨fillers, hperm.trans ((List.perm_insertionSort _ regions).append_left fillers), hnone⟩
    · split
      · trivial
      · exact ⟨[MemoryRegion.newReadonly 1 0 0], List.perm_insertionSort _ _, by
          simp [MemoryRegion.newReadonly, MemoryRegion.new]⟩
  · refine ((UnalignedMemoryMapping.newWithAccessViolationHandler_searchable ..).mono
      (fun m hm => hm.2) fun _ _ => trivial).bind fun m hcommon => ?_
    change Completes regions m.common.regions
    rw [hcommon]
    exact ⟨[], List.perm_insertionSort _ regions, by simp⟩

/-! ## The same translation -/

/-- The host address that a lookup leads to. -/
def translation (found : Option (Nat × MemoryRegion)) (accessType : AccessType) (vmAddr len : U64) :
    Option U64 :=
  found.bind fun entry => entry.2.vmToHost accessType vmAddr len

section Translation

variable {allowZero : Bool} {regions slots sorted : List MemoryRegion} {accessType : AccessType}
  {vmAddr len : U64}

/-- A predecessor search leads to the region in the slot of the address, if there is one that has the
address. -/
theorem IsPredecessor.translation_eq {found : Option (Nat × MemoryRegion)}
    (h : IsPredecessor sorted vmAddr found) (hsorted : Ordered sorted)
    (hin : ∀ r ∈ sorted, r.InSlot)
    (hunique : ∀ r ∈ sorted, ∀ r' ∈ sorted, slot r.vmAddr = slot r'.vmAddr → r = r')
    (hlen : 1 ≤ len.toNat) {region : MemoryRegion} (hregion : region ∈ sorted)
    (hslot : slot region.vmAddr = slot vmAddr) :
    translation found accessType vmAddr len = region.vmToHost accessType vmAddr len := by
  have hbelow : vmAddr < region.vmAddr → region.vmToHost accessType vmAddr len = none := by
    intro hlt
    apply MemoryRegion.vmToHost_eq_none_of_not_admits
    intro hadmits
    exact absurd hadmits.above (Nat.not_le.mpr hlt)
  rcases found with _ | ⟨i, q⟩
  · rw [hbelow (h region hregion)]
    rfl
  · obtain ⟨hq, hle, hlast⟩ := h
    have hmem := List.mem_of_getElem? hq
    rcases Nat.eq_or_lt_of_le (AlignedMemoryMapping.slot_mono hle) with heq | hlt
    · rw [hunique region hregion q hmem (hslot.trans heq.symm)]
      rfl
    · -- The predecessor is in an earlier slot, so the region starts above the address.
      have habove : vmAddr < region.vmAddr := by
        obtain ⟨j, hj⟩ := List.mem_iff_getElem?.mp hregion
        rcases Nat.lt_trichotomy i j with hij | rfl | hji
        · exact hlast j region hij hj
        · rw [hq] at hj
          cases hj
          omega
        · have hstop := hsorted.stop_le hji hj hq
          have hslots := AlignedMemoryMapping.slot_mono
            (BitVec.le_trans region.vmAddr_le_stop hstop)
          omega
      rw [hbelow habove]
      exact (hin q hmem).vmToHost_later accessType hlen hlt

/-- Without a region in the slot of the address it leads nowhere. -/
theorem IsPredecessor.translation_eq_none {found : Option (Nat × MemoryRegion)}
    (h : IsPredecessor sorted vmAddr found) (hin : ∀ r ∈ sorted, r.InSlot)
    (hlen : 1 ≤ len.toNat) (hnone : ∀ r ∈ sorted, slot r.vmAddr ≠ slot vmAddr) :
    translation found accessType vmAddr len = none := by
  rcases found with _ | ⟨i, q⟩
  · rfl
  · have hmem := List.mem_of_getElem? h.1
    have hle := AlignedMemoryMapping.slot_mono h.2.1
    exact (hin q hmem).vmToHost_later accessType hlen (Nat.lt_of_le_of_ne hle (hnone q hmem))

end Translation

/-- A call of `map`, after some lookups that leave their traces in the cache. -/
structure MapCall where
  lookups : List U64
  accessType : AccessType
  vmAddr : U64
  len : U64

namespace MemoryMapping

/-- The mapping after some lookups. -/
def afterLookups (m : MemoryMapping) (lookups : List U64) : MemoryMapping :=
  lookups.foldl (fun m vmAddr => (m.findRegion vmAddr).2) m

/-- The results of the calls, one after the other, and the mapping that they leave behind. -/
def mapAll (m : MemoryMapping) : List MapCall → List ProgramResult × MemoryMapping
  | [] => ([], m)
  | call :: calls =>
      let (result, m) := (m.afterLookups call.lookups).map call.accessType call.vmAddr call.len
      let (results, m) := m.mapAll calls
      (result :: results, m)

end MemoryMapping

/-- The two mappings were made of the same regions, and their trackers have seen the same. -/
structure Agree (a : AlignedMemoryMapping) (u : UnalignedMemoryMapping) : Prop where
  fills : Fills a.common.allowMemoryRegionZero u.common.regions a.common.regions
  inSlot : ∀ r ∈ u.common.regions, r.InSlot
  searchable : u.Searchable
  common : { a.common with regions := u.common.regions } = u.common

namespace Agree

variable {a : AlignedMemoryMapping} {u : UnalignedMemoryMapping}

theorem unique (h : Agree a u) : ∀ r ∈ u.common.regions, ∀ r' ∈ u.common.regions,
    slot r.vmAddr = slot r'.vmAddr → r = r' := by
  intro r hr r' hr' heq
  have hget := h.fills.getElem? hr
  rw [heq, h.fills.getElem? hr'] at hget
  exact (Option.some.inj hget).symm

/-- There are not more regions than slots. -/
theorem small (h : Agree a u) : u.common.regions.length < 2 ^ 63 := by
  have hle := h.fills.kept.length_le
  rcases hslots : a.common.regions.length with _ | n
  · omega
  · have hlast := List.getElem?_eq_getElem (l := a.common.regions) (i := n) (by omega)
    have hplaced := h.fills.placed n _ hlast
    have hlt := AlignedMemoryMapping.slot_lt (a.common.regions[n]).vmAddr
    omega

theorem translation_eq (h : Agree a u) (accessType : AccessType) (vmAddr : U64) {len : U64}
    (hlen : 1 ≤ len.toNat) :
    translation (a.findRegion vmAddr) accessType vmAddr len =
      translation (u.findRegion vmAddr).1 accessType vmAddr len := by
  have hpredecessor := (h.searchable.findRegion h.small vmAddr).1
  by_cases hex : ∃ r ∈ u.common.regions, slot r.vmAddr = slot vmAddr
  · obtain ⟨r, hr, hslot⟩ := hex
    have hget := h.fills.getElem? hr
    rw [hslot] at hget
    have hallowed : slot vmAddr > 0 ∨ a.common.allowMemoryRegionZero = true := by
      by_contra hnot
      push Not at hnot
      exact h.fills.zero (by simpa using hnot.2) r hr (by omega)
    have hfound : a.findRegion vmAddr = some (slot vmAddr, r) := by
      unfold AlignedMemoryMapping.findRegion
      dsimp only
      rw [if_pos ⟨(List.getElem?_eq_some_iff.mp hget).1, hallowed⟩, hget]
      rfl
    rw [hfound, hpredecessor.translation_eq h.searchable.ordered h.inSlot h.unique hlen hr hslot]
    rfl
  · push Not at hex
    rw [hpredecessor.translation_eq_none h.inSlot hlen hex]
    -- What stands in the slot is empty.
    unfold AlignedMemoryMapping.findRegion
    dsimp only
    split
    · cases hget : a.common.regions[slot vmAddr]? with
      | none => rfl
      | some r =>
          have hslot := h.fills.placed _ r hget
          rcases h.fills.added r (List.mem_of_getElem? hget) with hr | hempty
          · exact absurd hslot (hex r hr)
          · exact MemoryRegion.vmToHost_empty hempty accessType vmAddr hlen
    · rfl

theorem checkAccess (h : Agree a u) (vmAddr len : U64) :
    Agree { a with common := a.common.checkAccess vmAddr len }
      { u with common := u.common.checkAccess vmAddr len } := by
  refine ⟨h.fills, h.inSlot, { h.searchable with }, ?_⟩
  have hcommon := congrArg (CommonMemoryMapping.checkAccess · vmAddr len) h.common
  exact hcommon

/-- A lookup changes the cache of the unaligned mapping and nothing else. -/
theorem afterFind (h : Agree a u) (vmAddr : U64) : Agree a (u.findRegion vmAddr).2 := by
  have hcommon : (u.findRegion vmAddr).2.common = u.common :=
    Option.some.inj (MemoryMapping.findRegion_common (.unaligned u) vmAddr)
  refine ⟨?_, ?_, h.searchable.afterFind vmAddr, ?_⟩
  · rw [hcommon]
    exact h.fills
  · rw [hcommon]
    exact h.inSlot
  · rw [hcommon]
    exact h.common

theorem untranslated_eq (h : Agree a u) (accessType : AccessType) (vmAddr len : U64) :
    (MemoryMapping.aligned a).untranslated accessType vmAddr len =
      (MemoryMapping.unaligned u).untranslated accessType vmAddr len := by
  show Except.error (a.common.generateAccessViolation accessType vmAddr len) =
    Except.error (u.common.generateAccessViolation accessType vmAddr len)
  rw [← h.common]
  rfl

/-- One translation: the same result, and the mappings agree again. -/
theorem map (h : Agree a u) (accessType : AccessType) (vmAddr : U64) {len : U64}
    (hlen : 1 ≤ len.toNat) :
    ∃ result a' u', (MemoryMapping.aligned a).map accessType vmAddr len = (result, .aligned a') ∧
      (MemoryMapping.unaligned u).map accessType vmAddr len = (result, .unaligned u') ∧
      Agree a' u' := by
  -- A read is shown to both trackers.
  obtain ⟨a', u', ha, hu, h'⟩ : ∃ a' u',
      (if accessType = .load then (MemoryMapping.aligned a).checkAccess vmAddr len
        else .aligned a) = .aligned a' ∧
      (if accessType = .load then (MemoryMapping.unaligned u).checkAccess vmAddr len
        else .unaligned u) = .unaligned u' ∧ Agree a' u' := by
    by_cases hload : accessType = .load
    · rw [if_pos hload, if_pos hload]
      exact ⟨_, _, rfl, rfl, h.checkAccess vmAddr len⟩
    · rw [if_neg hload, if_neg hload]
      exact ⟨a, u, rfl, rfl, h⟩
  have htranslation := h'.translation_eq accessType vmAddr hlen
  have hafter := h'.afterFind vmAddr
  unfold MemoryMapping.map
  rw [ha, hu]
  dsimp only [MemoryMapping.findRegion]
  unfold translation at htranslation
  rw [htranslation]
  cases (u'.findRegion vmAddr).1.bind fun entry => entry.2.vmToHost accessType vmAddr len with
  | some hostAddr => exact ⟨.ok hostAddr, a', (u'.findRegion vmAddr).2, rfl, rfl, hafter⟩
  | none =>
      refine ⟨_, a', (u'.findRegion vmAddr).2, rfl, ?_, hafter⟩
      rw [hafter.untranslated_eq]

theorem afterLookups (h : Agree a u) (lookups : List U64) :
    ∃ u', (MemoryMapping.aligned a).afterLookups lookups = .aligned a ∧
      (MemoryMapping.unaligned u).afterLookups lookups = .unaligned u' ∧ Agree a u' := by
  induction lookups generalizing u with
  | nil => exact ⟨u, rfl, rfl, h⟩
  | cons vmAddr lookups ih => exact ih (h.afterFind vmAddr)

theorem mapAll (h : Agree a u) (calls : List MapCall) (hlen : ∀ call ∈ calls, 1 ≤ call.len.toNat) :
    ∃ results a' u', (MemoryMapping.aligned a).mapAll calls = (results, .aligned a') ∧
      (MemoryMapping.unaligned u).mapAll calls = (results, .unaligned u') ∧ Agree a' u' := by
  induction calls generalizing a u with
  | nil => exact ⟨[], a, u, rfl, rfl, h⟩
  | cons call calls ih =>
      obtain ⟨u₁, ha₁, hu₁, h₁⟩ := h.afterLookups call.lookups
      obtain ⟨result, a₂, u₂, ha₂, hu₂, h₂⟩ :=
        h₁.map call.accessType call.vmAddr (hlen call List.mem_cons_self)
      obtain ⟨results, a₃, u₃, ha₃, hu₃, h₃⟩ :=
        ih h₂ fun call' hcall' => hlen call' (List.mem_cons_of_mem _ hcall')
      refine ⟨result :: results, a₃, u₃, ?_, ?_, h₃⟩
      · rw [MemoryMapping.mapAll, ha₁, ha₂]
        dsimp only
        rw [ha₃]
      · rw [MemoryMapping.mapAll, hu₁, hu₂]
        dsimp only
        rw [hu₃]

theorem forbiddenAccesses_eq (h : Agree a u) :
    (MemoryMapping.aligned a).getForbiddenAccesses =
      (MemoryMapping.unaligned u).getForbiddenAccesses :=
  congrArg (fun c => c.accessTracker.forbiddenAccesses) h.common

end Agree

/-- Mappings that were made of the same regions agree, whatever they are told to watch. -/
theorem Agree.of_new {regions : List MemoryRegion} {config : Config} {sbpfVersion : SBPFVersion}
    {handler : AccessViolationHandler} {a : AlignedMemoryMapping} {u : UnalignedMemoryMapping}
    (ha : AlignedMemoryMapping.newWithAccessViolationHandler regions config sbpfVersion handler =
      .ok a)
    (hu : UnalignedMemoryMapping.newWithAccessViolationHandler regions config sbpfVersion handler =
      .ok u)
    (hin : ∀ r ∈ regions, r.InSlot) (tracker : MemoryAccessTracker) :
    Agree { a with common := { a.common with accessTracker := tracker } }
      { u with common := { u.common with accessTracker := tracker } } := by
  have hfills := AlignedMemoryMapping.newWithAccessViolationHandler_fills regions config sbpfVersion
    handler
  have hsearchable := UnalignedMemoryMapping.newWithAccessViolationHandler_searchable regions config
    sbpfVersion handler
  rw [ha] at hfills
  rw [hu] at hsearchable
  obtain ⟨slots, hfills, hcommon⟩ := hfills
  obtain ⟨hsearchable, hcommon'⟩ := hsearchable
  have hperm := List.perm_insertionSort (fun r r' : MemoryRegion => r.vmAddr ≤ r'.vmAddr) regions
  refine ⟨?_, ?_, { hsearchable with }, ?_⟩
  · rw [hcommon, hcommon']
    exact hfills.perm hperm
  · rw [hcommon']
    intro r hr
    exact hin r (hperm.mem_iff.mp hr)
  · rw [hcommon, hcommon']
    rfl

/-- An aligned and an unaligned mapping of the same regions, each of which stays in its slot, watch
the same ranges.  Then every sequence of calls has the same results on both, errors included, and
leaves the same accesses recorded. -/
theorem aligned_unaligned_agree (regions : List MemoryRegion) (config : Config)
    (sbpfVersion : SBPFVersion) (handler : AccessViolationHandler) {a : AlignedMemoryMapping}
    {u : UnalignedMemoryMapping}
    (ha : AlignedMemoryMapping.newWithAccessViolationHandler regions config sbpfVersion handler =
      .ok a)
    (hu : UnalignedMemoryMapping.newWithAccessViolationHandler regions config sbpfVersion handler =
      .ok u)
    (hin : ∀ r ∈ regions, r.InSlot) (tracker : MemoryAccessTracker) (calls : List MapCall)
    (hlen : ∀ call ∈ calls, 1 ≤ call.len.toNat) :
    (((MemoryMapping.aligned a).withTracker tracker).mapAll calls).1 =
        (((MemoryMapping.unaligned u).withTracker tracker).mapAll calls).1 ∧
      (((MemoryMapping.aligned a).withTracker tracker).mapAll calls).2.getForbiddenAccesses =
        (((MemoryMapping.unaligned u).withTracker tracker).mapAll calls).2.getForbiddenAccesses := by
  obtain ⟨results, a', u', hmapA, hmapU, hagree⟩ := (Agree.of_new ha hu hin tracker).mapAll calls hlen
  have hA : ((MemoryMapping.aligned a).withTracker tracker).mapAll calls = (results, .aligned a') :=
    hmapA
  have hU : ((MemoryMapping.unaligned u).withTracker tracker).mapAll calls =
      (results, .unaligned u') := hmapU
  rw [hA, hU]
  exact ⟨rfl, hagree.forbiddenAccesses_eq⟩

/-- A load from the heap, one from the slot between the program and the heap, and one from the heap
again, when its region is in the cache. -/
def threeLoads : List MapCall :=
  [⟨[], .load, mmHeapStart, 8⟩, ⟨[mmHeapStart], .load, mmStackStart, 8⟩,
    ⟨[mmBytecodeStart], .load, mmHeapStart + 16, 4⟩]

/-- The program and the heap are mapped alike. -/
theorem twoRegions_agree :
    ∃ a u, AlignedMemoryMapping.newWithAccessViolationHandler UnalignedMemoryMapping.twoRegions {}
        .v3 defaultAccessViolationHandler = .ok a ∧
      UnalignedMemoryMapping.newWithAccessViolationHandler UnalignedMemoryMapping.twoRegions {}
        .v3 defaultAccessViolationHandler = .ok u ∧
      (((MemoryMapping.aligned a).withTracker .new).mapAll threeLoads).1 =
        (((MemoryMapping.unaligned u).withTracker .new).mapAll threeLoads).1 ∧
      (((MemoryMapping.aligned a).withTracker .new).mapAll threeLoads).2.getForbiddenAccesses =
        (((MemoryMapping.unaligned u).withTracker .new).mapAll threeLoads).2.getForbiddenAccesses :=
  ⟨_, _, rfl, rfl, aligned_unaligned_agree UnalignedMemoryMapping.twoRegions {} .v3
    defaultAccessViolationHandler rfl rfl (by decide +kernel) .new threeLoads (by decide +kernel)⟩

end Sbpf
end Gobble
