import Gobble.Sbpf.RegionSearch
import Gobble.Sbpf.VmMemory

/-!
# MappingRuns — what a mapping keeps over a whole execution

While a program runs, regions are looked up, replaced by the access violation handler when an account
grows, and replaced after a cross-program invocation.  This file shows what survives every sequence of
such calls: the start addresses of the regions, their order, the watched ranges and the recorded
accesses.  The handler is any function of its arguments, and another one at each call if the caller
likes, as the handler of the runtime depends on the state of the accounts.
-/

namespace Gobble
namespace Sbpf

open Lib Eytzinger

/-! ## Calls -/

inductive MappingOp where
  | findRegion (vmAddr : U64)
  | map (accessType : AccessType) (vmAddr len : U64)
  | mapWithAccessViolationHandler (accessType : AccessType) (vmAddr len : U64)
  | load (size : AccessSize) (vmAddr : U64)
  | store (size : AccessSize) (value vmAddr : U64)
  | replaceRegion (index : Nat) (region : MemoryRegion)

namespace MappingOp

/-- The call, and whether it returns an error. -/
def apply : MappingOp → VmMemory → Except EbpfError Unit × VmMemory
  | findRegion vmAddr, s => (.ok (), { s with mapping := (s.mapping.findRegion vmAddr).2 })
  | map accessType vmAddr len, s =>
      let (result, mapping) := s.mapping.map accessType vmAddr len
      (result.map fun _ => (), { s with mapping })
  | mapWithAccessViolationHandler accessType vmAddr len, s =>
      let (result, mapping) := s.mapping.mapWithAccessViolationHandler accessType vmAddr len
      (result.map fun _ => (), { s with mapping })
  | load size vmAddr, s =>
      let (result, s) := s.load size vmAddr
      (result.map fun _ => (), s)
  | store size value vmAddr, s =>
      let (result, s) := s.store size value vmAddr
      (result.map fun _ => (), s)
  | replaceRegion index region, s =>
      match s.mapping.replaceRegion index region with
      | .ok mapping => (.ok (), { s with mapping })
      | .error err => (.error err, s)

end MappingOp

/-- A call, and the handler at that time. -/
structure MappingCall where
  handler : AccessViolationHandler
  op : MappingOp

def MemoryMapping.withHandler (m : MemoryMapping) (handler : AccessViolationHandler) :
    MemoryMapping :=
  m.modifyCommon fun c => { c with accessViolationHandler := handler }

def MappingCall.apply (call : MappingCall) (s : VmMemory) : Except EbpfError Unit × VmMemory :=
  call.op.apply { s with mapping := s.mapping.withHandler call.handler }

/-- The memory after some calls. -/
def VmMemory.afterCalls (s : VmMemory) (calls : List MappingCall) : VmMemory :=
  calls.foldl (fun s call => (call.apply s).2) s

/-! ## What a call keeps -/

/-- The three ways to translate addresses. -/
inductive MappingKind where
  | identity
  | aligned
  | unaligned
  deriving DecidableEq

namespace MemoryMapping

def kind : MemoryMapping → MappingKind
  | identity => .identity
  | aligned _ => .aligned
  | unaligned _ => .unaligned

/-- The invariant of each kind of mapping. -/
def WellFormed : MemoryMapping → Prop
  | identity => True
  | aligned m => ∀ (i : Nat) (region : MemoryRegion), m.common.regions[i]? = some region →
      AlignedMemoryMapping.slot region.vmAddr = i
  | unaligned m => m.Searchable

/-- What holds between a mapping and what becomes of it. -/
structure Evolves (m m' : MemoryMapping) : Prop where
  kind : m'.kind = m.kind
  wellFormed : m.WellFormed → m'.WellFormed
  addresses : m'.getRegions.map MemoryRegion.vmAddr = m.getRegions.map MemoryRegion.vmAddr
  watched : m'.getAccessTracker.map MemoryAccessTracker.watchedRanges =
    m.getAccessTracker.map MemoryAccessTracker.watchedRanges
  recorded : m.getForbiddenAccesses <+: m'.getForbiddenAccesses
  regionZero : m'.common?.map CommonMemoryMapping.allowMemoryRegionZero =
    m.common?.map CommonMemoryMapping.allowMemoryRegionZero

namespace Evolves

variable {m m' m'' : MemoryMapping}

theorem refl (m : MemoryMapping) : Evolves m m :=
  ⟨rfl, id, rfl, rfl, List.prefix_rfl, rfl⟩

theorem trans (h : Evolves m m') (h' : Evolves m' m'') : Evolves m m'' where
  kind := h'.kind.trans h.kind
  wellFormed := h'.wellFormed ∘ h.wellFormed
  addresses := h'.addresses.trans h.addresses
  watched := h'.watched.trans h.watched
  recorded := h.recorded.trans h'.recorded
  regionZero := h'.regionZero.trans h.regionZero

end Evolves

variable (m : MemoryMapping)

theorem withHandler_evolves (handler : AccessViolationHandler) :
    Evolves m (m.withHandler handler) := by
  cases m with
  | identity => exact .refl _
  | aligned m => exact ⟨rfl, id, rfl, rfl, List.prefix_rfl, rfl⟩
  | unaligned m => exact ⟨rfl, fun h => { h with }, rfl, rfl, List.prefix_rfl, rfl⟩

@[simp] theorem getRegions_withHandler (handler : AccessViolationHandler) :
    (m.withHandler handler).getRegions = m.getRegions := by
  cases m <;> rfl

theorem checkAccess_evolves (vmAddr len : U64) : Evolves m (m.checkAccess vmAddr len) := by
  cases m with
  | identity => exact .refl _
  | aligned m =>
      refine ⟨rfl, id, rfl, ?_, MemoryAccessTracker.checkAccess_grows .., rfl⟩
      exact congrArg some (MemoryAccessTracker.checkAccess_watched ..)
  | unaligned m =>
      refine ⟨rfl, fun h => { h with }, rfl, ?_, MemoryAccessTracker.checkAccess_grows .., rfl⟩
      exact congrArg some (MemoryAccessTracker.checkAccess_watched ..)

@[simp] theorem getRegions_checkAccess (vmAddr len : U64) :
    (m.checkAccess vmAddr len).getRegions = m.getRegions := by
  cases m <;> rfl

@[simp] theorem getRegions_findRegion (vmAddr : U64) :
    (m.findRegion vmAddr).2.getRegions = m.getRegions := by
  simp [getRegions]

theorem findRegion_evolves (vmAddr : U64) : Evolves m (m.findRegion vmAddr).2 where
  kind := by cases m <;> rfl
  wellFormed := by
    intro h
    cases m with
    | identity => exact h
    | aligned m => exact h
    | unaligned m => exact UnalignedMemoryMapping.Searchable.afterFind h vmAddr
  addresses := by rw [getRegions_findRegion]
  watched := by simp [getAccessTracker]
  recorded := by simp [getForbiddenAccesses, getAccessTracker]
  regionZero := by rw [findRegion_common]

/-! ## Replacing a region -/

variable {m : MemoryMapping}

/-- The conditions under which a region is replaced, and the result. -/
theorem replaceRegion_ok {m' : MemoryMapping} {index : Nat} {region : MemoryRegion}
    (h : m.replaceRegion index region = .ok m') :
    ∃ old, m.getRegions[index]? = some old ∧ old.vmAddr = region.vmAddr ∧
      (∀ next, m.getRegions[index + 1]? = some next → region.vmAddrRange.stop ≤ next.vmAddr) ∧
      ((∃ a, m = aligned a ∧ AlignedMemoryMapping.slot region.vmAddr = index ∧
          m' = aligned { a with
            common := { a.common with regions := a.common.regions.set index region } }) ∨
        ∃ u, m = unaligned u ∧
          m' = unaligned { u with
            common := { u.common with regions := u.common.regions.set index region }
            cache := u.cache.flush }) := by
  unfold replaceRegion at h
  dsimp only at h
  cases hold : m.getRegions[index]? with
  | none =>
      rw [hold] at h
      cases h
  | some old =>
      rw [hold] at h
      dsimp only at h
      split at h
      · cases h
      · rename_i hcond
        push Not at hcond
        obtain ⟨haddr, hstop⟩ := hcond
        refine ⟨old, rfl, haddr, ?_, ?_⟩
        · intro next hnext
          rw [hnext] at hstop
          exact BitVec.not_lt.mp hstop
        · cases m with
          | identity => cases h
          | unaligned u =>
              cases h
              exact .inr ⟨u, rfl, rfl⟩
          | aligned a =>
              unfold AlignedMemoryMapping.replaceRegion at h
              dsimp only at h
              split at h
              · cases h
              · rename_i hslot
                push Not at hslot
                cases h
                exact .inl ⟨a, rfl, hslot.1, rfl⟩

theorem replaceRegion_getRegions {m' : MemoryMapping} {index : Nat} {region : MemoryRegion}
    (h : m.replaceRegion index region = .ok m') : m'.getRegions = m.getRegions.set index region := by
  obtain ⟨_, _, _, _, ⟨_, rfl, _, rfl⟩ | ⟨_, rfl, rfl⟩⟩ := replaceRegion_ok h
  · rfl
  · rfl

theorem replaceRegion_evolves {m' : MemoryMapping} {index : Nat} {region : MemoryRegion}
    (h : m.replaceRegion index region = .ok m') : Evolves m m' := by
  obtain ⟨old, hold, haddr, hnext, hkind⟩ := replaceRegion_ok h
  -- The start addresses stay, in both kinds of mapping.
  have hmap : (m.getRegions.set index region).map MemoryRegion.vmAddr =
      m.getRegions.map MemoryRegion.vmAddr := by
    obtain ⟨hlt, rfl⟩ := List.getElem?_eq_some_iff.mp hold
    have hlt' : index < (m.getRegions.map MemoryRegion.vmAddr).length := by simpa using hlt
    rw [List.map_set, ← haddr, ← List.getElem_map MemoryRegion.vmAddr (h := hlt')]
    exact List.set_getElem_self hlt'
  rcases hkind with ⟨a, rfl, hslot, rfl⟩ | ⟨u, rfl, rfl⟩
  · refine ⟨rfl, ?_, hmap, rfl, List.prefix_rfl, rfl⟩
    intro hwell i r hr
    by_cases hindex : i = index
    · subst hindex
      have hlt : i < a.common.regions.length := (List.getElem?_eq_some_iff.mp hold).1
      change (a.common.regions.set i region)[i]? = some r at hr
      rw [List.getElem?_set_self hlt] at hr
      cases hr
      exact hslot
    · change (a.common.regions.set index region)[i]? = some r at hr
      rw [List.getElem?_set_ne (Ne.symm hindex)] at hr
      exact hwell i r hr
  · refine ⟨rfl, ?_, hmap, rfl, List.prefix_rfl, rfl⟩
    intro hwell
    have haddress : ∀ i, UnalignedMemoryMapping.addressAt (u.common.regions.set index region) i =
        UnalignedMemoryMapping.addressAt u.common.regions i := by
      intro i
      unfold UnalignedMemoryMapping.addressAt
      rw [← List.getElem?_map, ← List.getElem?_map]
      exact congrArg (fun l : List U64 => l[i]?.getD 0) hmap
    have hlength : (u.common.regions.set index region).length = u.common.regions.length :=
      List.length_set
    exact {
      addresses_length := hwell.addresses_length.trans hlength.symm
      lookup_length := hwell.lookup_length.trans hlength.symm
      addresses := by
        intro i node hnode
        dsimp only at hnode ⊢
        rw [hlength] at hnode
        rw [haddress]
        exact hwell.addresses i node hnode
      lookup := by
        intro i node hnode
        dsimp only at hnode
        rw [hlength] at hnode
        exact hwell.lookup i node hnode
      ordered := hwell.ordered.set hold haddr hnext
      cache := by
        intro entry hentry
        left
        exact congrArg Prod.fst (List.eq_of_mem_replicate hentry) }

/-! ## Translating -/

theorem map_mapping (m : MemoryMapping) (accessType : AccessType) (vmAddr len : U64) :
    (m.map accessType vmAddr len).2 =
      ((if accessType = .load then m.checkAccess vmAddr len else m).findRegion vmAddr).2 := by
  unfold map
  dsimp only
  generalize (if accessType = .load then m.checkAccess vmAddr len else m) = m'
  split <;> rfl

/-- The handler had an effect, or the mapping is as after a lookup. -/
theorem mapWithAccessViolationHandler_cases (m : MemoryMapping) (accessType : AccessType)
    (vmAddr len : U64) :
    (m.mapWithAccessViolationHandler accessType vmAddr len).2 = (m.findRegion vmAddr).2 ∨
      ∃ index region hostAddr m', (m.findRegion vmAddr).2.replaceRegion index region = .ok m' ∧
        m.mapWithAccessViolationHandler accessType vmAddr len = (.ok hostAddr, m') := by
  unfold mapWithAccessViolationHandler
  dsimp only
  split
  · rename_i hnone
    cases m with
    | identity => exact .inl rfl
    | aligned m => cases hnone
    | unaligned m => cases hnone
  · split
    · exact .inl rfl
    · split
      · exact .inl rfl
      · split
        · rename_i hostAddr hhost
          split
          · exact .inl rfl
          · rename_i m' hreplace
            exact .inr ⟨_, _, hostAddr, m', hreplace, rfl⟩
        · exact .inl rfl

theorem map_evolves (m : MemoryMapping) (accessType : AccessType) (vmAddr len : U64) :
    Evolves m (m.map accessType vmAddr len).2 := by
  rw [map_mapping]
  split
  · exact (m.checkAccess_evolves vmAddr len).trans (findRegion_evolves _ vmAddr)
  · exact m.findRegion_evolves vmAddr

theorem mapWithAccessViolationHandler_evolves (m : MemoryMapping) (accessType : AccessType)
    (vmAddr len : U64) :
    Evolves m (m.mapWithAccessViolationHandler accessType vmAddr len).2 := by
  rcases m.mapWithAccessViolationHandler_cases accessType vmAddr len with
    heq | ⟨index, region, hostAddr, m', hreplace, heq⟩
  · rw [heq]
    exact m.findRegion_evolves vmAddr
  · rw [heq]
    exact (m.findRegion_evolves vmAddr).trans (replaceRegion_evolves hreplace)

theorem mapWithAccessViolationHandler_error {accessType : AccessType} {vmAddr len : U64}
    {err : EbpfError} (h : (m.mapWithAccessViolationHandler accessType vmAddr len).1 = .error err) :
    (m.mapWithAccessViolationHandler accessType vmAddr len).2.getRegions = m.getRegions := by
  rcases m.mapWithAccessViolationHandler_cases accessType vmAddr len with
    heq | ⟨index, region, hostAddr, m', hreplace, heq⟩
  · rw [heq, getRegions_findRegion]
  · rw [heq] at h
    cases h

end MemoryMapping

/-! ## Calls and sequences of calls -/

theorem VmMemory.load_mapping (s : VmMemory) (size : AccessSize) (vmAddr : U64) :
    (s.load size vmAddr).2.mapping =
      ((s.mapping.checkAccess vmAddr (BitVec.ofNat 64 size.bytes)).mapWithAccessViolationHandler
        .load vmAddr (BitVec.ofNat 64 size.bytes)).2 :=
  rfl

theorem VmMemory.store_mapping (s : VmMemory) (size : AccessSize) (value vmAddr : U64) :
    (s.store size value vmAddr).2.mapping =
      (s.mapping.mapWithAccessViolationHandler .store vmAddr (BitVec.ofNat 64 size.bytes)).2 := by
  unfold VmMemory.store
  dsimp only
  split <;> rfl

theorem MappingOp.apply_evolves (op : MappingOp) (s : VmMemory) :
    s.mapping.Evolves (op.apply s).2.mapping := by
  cases op with
  | findRegion vmAddr => exact s.mapping.findRegion_evolves vmAddr
  | map accessType vmAddr len => exact s.mapping.map_evolves accessType vmAddr len
  | mapWithAccessViolationHandler accessType vmAddr len =>
      exact s.mapping.mapWithAccessViolationHandler_evolves accessType vmAddr len
  | load size vmAddr =>
      exact (s.mapping.checkAccess_evolves vmAddr _).trans
        (MemoryMapping.mapWithAccessViolationHandler_evolves _ .load vmAddr _)
  | store size value vmAddr =>
      show s.mapping.Evolves (s.store size value vmAddr).2.mapping
      rw [VmMemory.store_mapping]
      exact s.mapping.mapWithAccessViolationHandler_evolves .store vmAddr _
  | replaceRegion index region =>
      unfold MappingOp.apply
      dsimp only
      split
      · rename_i mapping hreplace
        exact MemoryMapping.replaceRegion_evolves hreplace
      · exact .refl _

/-- A result that is mapped to an error was one. -/
theorem error_of_map_error {α β : Type} {x : Except EbpfError α} {f : α → β} {err : EbpfError}
    (h : x.map f = .error err) : x = .error err := by
  cases x with
  | ok a => cases h
  | error e => simpa [Except.map] using h

theorem MappingOp.apply_error {op : MappingOp} {s : VmMemory} {err : EbpfError}
    (h : (op.apply s).1 = .error err) :
    (op.apply s).2.mapping.getRegions = s.mapping.getRegions := by
  cases op with
  | findRegion vmAddr => cases h
  | map accessType vmAddr len =>
      show (s.mapping.map accessType vmAddr len).2.getRegions = _
      rw [MemoryMapping.map_mapping]
      split <;> simp
  | mapWithAccessViolationHandler accessType vmAddr len =>
      exact MemoryMapping.mapWithAccessViolationHandler_error (error_of_map_error h)
  | load size vmAddr =>
      have herror := error_of_map_error (error_of_map_error h)
      show ((s.load size vmAddr).2.mapping).getRegions = _
      rw [VmMemory.load_mapping, MemoryMapping.mapWithAccessViolationHandler_error herror,
        MemoryMapping.getRegions_checkAccess]
  | store size value vmAddr =>
      have herror : (s.store size value vmAddr).1 = .error err := error_of_map_error h
      show ((s.store size value vmAddr).2.mapping).getRegions = _
      rw [VmMemory.store_mapping]
      unfold VmMemory.store at herror
      dsimp only at herror
      split at herror
      · cases herror
      · rename_i err' hmap
        exact MemoryMapping.mapWithAccessViolationHandler_error hmap
  | replaceRegion index region =>
      unfold MappingOp.apply at h ⊢
      dsimp only at h ⊢
      split at h
      · cases h
      · rfl

theorem MappingCall.apply_evolves (call : MappingCall) (s : VmMemory) :
    s.mapping.Evolves (call.apply s).2.mapping :=
  (s.mapping.withHandler_evolves call.handler).trans
    (call.op.apply_evolves { s with mapping := s.mapping.withHandler call.handler })

theorem VmMemory.afterCalls_evolves (s : VmMemory) (calls : List MappingCall) :
    s.mapping.Evolves (s.afterCalls calls).mapping := by
  induction calls generalizing s with
  | nil => exact .refl _
  | cons call calls ih => exact (call.apply_evolves s).trans (ih (call.apply s).2)

/-! ## New mappings -/

namespace AlignedMemoryMapping

theorem slot_lt (vmAddr : U64) : slot vmAddr < 2 ^ 32 := by
  have hlt := vmAddr.isLt
  unfold slot virtualAddressBits
  rw [BitVec.toNat_ushiftRight, Nat.shiftRight_eq_div_pow]
  omega

theorem slot_filler {index : Nat} (hlt : index < 2 ^ 32) : slot (filler index).vmAddr = index := by
  have hsize : mmRegionSize.toNat = 2 ^ 32 := rfl
  have hindex : (BitVec.ofNat 64 index).toNat = index := by
    rw [BitVec.toNat_ofNat]
    omega
  unfold slot virtualAddressBits filler MemoryRegion.newReadonly MemoryRegion.new
  dsimp only
  rw [BitVec.toNat_ushiftRight, Nat.shiftRight_eq_div_pow, U64.toNat_saturatingMul, hsize, hindex]
  unfold u64Max
  omega

/-- The regions that `fillSlots` returns are in the slots from `expected` on. -/
theorem fillSlots_slot (expected : Nat) (regions : List MemoryRegion) :
    Ends (fun filled => ∀ (i : Nat) (region : MemoryRegion), filled[i]? = some region →
        slot region.vmAddr = expected + i)
      (fun _ => True) (fillSlots expected regions) := by
  induction regions generalizing expected with
  | nil =>
      intro i region hregion
      cases hregion
  | cons region rest ih =>
      -- A region in its slot, followed by regions in the slots after it.
      have hcons : ∀ filled : List MemoryRegion,
          (∀ (i : Nat) (r : MemoryRegion), filled[i]? = some r →
            slot r.vmAddr = slot region.vmAddr + 1 + i) →
          ∀ (i : Nat) (r : MemoryRegion), (region :: filled)[i]? = some r →
            slot r.vmAddr = slot region.vmAddr + i := by
        intro filled hfilled i r hr
        cases i with
        | zero =>
            cases hr
            rfl
        | succ i =>
            rw [hfilled i r (by simpa using hr)]
            omega
      rw [fillSlots]
      split
      · rename_i hgt
        refine (ih (slot region.vmAddr + 1)).bind fun filled hfilled => ?_
        intro i r hr
        rcases Nat.lt_or_ge i (slot region.vmAddr - expected) with hlt | hge
        · have hslot := slot_lt region.vmAddr
          have hrange : (List.range' expected (slot region.vmAddr - expected))[i]? =
              some (expected + i) := by
            rw [List.getElem?_range' hlt, Nat.one_mul]
          rw [List.getElem?_append_left (by simpa using hlt), List.getElem?_map, hrange] at hr
          cases hr
          exact slot_filler (by omega)
        · rw [List.getElem?_append_right (by simpa using hge)] at hr
          rw [hcons filled hfilled _ r hr, List.length_map, List.length_range']
          omega
      · split
        · trivial
        · have heq : slot region.vmAddr = expected := by omega
          rw [← heq]
          refine (ih (slot region.vmAddr + 1)).bind fun filled hfilled => ?_
          exact hcons filled hfilled

theorem slot_of_firstMisplaced {index : Nat} {regions : List MemoryRegion}
    (h : firstMisplaced index regions = none) {i : Nat} {region : MemoryRegion}
    (hregion : regions[i]? = some region) : slot region.vmAddr = index + i := by
  induction regions generalizing index i with
  | nil => cases hregion
  | cons first rest ih =>
      rw [firstMisplaced] at h
      split at h
      · cases h
      · rename_i hslot
        cases i with
        | zero =>
            cases hregion
            exact not_not.mp hslot
        | succ i =>
            rw [ih h (by simpa using hregion)]
            omega

end AlignedMemoryMapping

namespace MemoryMapping

theorem new_wellFormed (regions : List MemoryRegion) (config : Config) (sbpfVersion : SBPFVersion)
    (handler : AccessViolationHandler) :
    Ends (fun m => m.WellFormed ∧ m.kind ≠ .identity) (fun _ => True)
      (newWithAccessViolationHandler regions config sbpfVersion handler) := by
  unfold newWithAccessViolationHandler
  split
  · refine .bind (P := fun m => (aligned m).WellFormed) ?_ fun m hm => ⟨hm, by simp [kind]⟩
    unfold AlignedMemoryMapping.newWithAccessViolationHandler
    dsimp only
    split
    · refine (AlignedMemoryMapping.fillSlots_slot 0 _).bind fun filled hfilled => ?_
      intro i region hregion
      rw [hfilled i region hregion, Nat.zero_add]
    · split
      · trivial
      · rename_i hnone
        intro i region hregion
        rw [AlignedMemoryMapping.slot_of_firstMisplaced hnone hregion, Nat.zero_add]
  · refine .bind (P := fun m => m.Searchable) ?_ fun m hm => ⟨hm, by simp [kind]⟩
    exact (UnalignedMemoryMapping.newWithAccessViolationHandler_searchable ..).mono
      (fun m hm => hm.1) fun _ _ => trivial

/-! ## Whole executions -/

/-- A lookup finds a region at the same index as before. -/
theorem Evolves.findRegion_index {m m' : MemoryMapping} (h : Evolves m m') (hwell : m.WellFormed)
    (hsmall : m.getRegions.length < 2 ^ 63) (vmAddr : U64) :
    (m'.findRegion vmAddr).1.map Prod.fst = (m.findRegion vmAddr).1.map Prod.fst := by
  have hwell' := h.wellFormed hwell
  have haddresses := h.addresses
  have hlength : m'.getRegions.length = m.getRegions.length := by
    simpa using congrArg List.length haddresses
  have hkind := h.kind
  have hzero := h.regionZero
  cases m with
  | identity =>
      cases m' with
      | identity => rfl
      | aligned m' => cases hkind
      | unaligned m' => cases hkind
  | aligned m =>
      cases m' with
      | identity => cases hkind
      | unaligned m' => cases hkind
      | aligned m' =>
          -- The slot of the address is the index.
          have hindex : ∀ a : AlignedMemoryMapping, (a.findRegion vmAddr).map Prod.fst =
              if AlignedMemoryMapping.slot vmAddr < a.common.regions.length ∧
                  (AlignedMemoryMapping.slot vmAddr > 0 ∨ a.common.allowMemoryRegionZero) then
                some (AlignedMemoryMapping.slot vmAddr)
              else none := by
            intro a
            unfold AlignedMemoryMapping.findRegion
            dsimp only
            split
            · rename_i hbounds
              rw [List.getElem?_eq_getElem hbounds.1]
              rfl
            · rfl
          have hallow : m'.common.allowMemoryRegionZero = m.common.allowMemoryRegionZero :=
            Option.some.inj hzero
          show (m'.findRegion vmAddr).map Prod.fst = (m.findRegion vmAddr).map Prod.fst
          rw [hindex, hindex, hallow, show m'.common.regions.length = _ from hlength]
          rfl
  | unaligned m =>
      cases m' with
      | identity => cases hkind
      | aligned m' => cases hkind
      | unaligned m' =>
          have hsmall' : m'.common.regions.length < 2 ^ 63 := hlength ▸ hsmall
          exact (UnalignedMemoryMapping.Searchable.findRegion hwell' hsmall' vmAddr).1.index_eq
            (UnalignedMemoryMapping.Searchable.findRegion hwell hsmall vmAddr).1 haddresses

/-- The mapping with another tracker. -/
def withTracker (m : MemoryMapping) (tracker : MemoryAccessTracker) : MemoryMapping :=
  m.modifyCommon fun c => { c with accessTracker := tracker }

end MemoryMapping

theorem Ordered.disjoint {regions : List MemoryRegion} (h : Ordered regions) :
    regions.Pairwise fun r r' =>
      ∀ v, ¬ (r.vmAddrRange.Contains v ∧ r'.vmAddrRange.Contains v) := by
  refine h.imp ?_
  rintro r r' hle v ⟨⟨-, hstop⟩, hstart, -⟩
  rw [MemoryRegion.vmAddrRange_start] at hstart
  rw [BitVec.le_def] at hle
  omega

/-- What is kept of a mapping `m` in the memory `s`. -/
structure KeepsRegions (m : MemoryMapping) (s : VmMemory) : Prop where
  kind : s.mapping.kind = m.kind
  /-- Neither the number of the regions nor the address of a region changes. -/
  addresses : s.mapping.getRegions.map MemoryRegion.vmAddr = m.getRegions.map MemoryRegion.vmAddr
  sorted : s.mapping.kind = .unaligned →
    s.mapping.getRegions.Pairwise fun r r' => r.vmAddr ≤ r'.vmAddr
  disjoint : s.mapping.kind = .unaligned →
    s.mapping.getRegions.Pairwise fun r r' =>
      ∀ v, ¬ (r.vmAddrRange.Contains v ∧ r'.vmAddrRange.Contains v)
  slots : s.mapping.kind = .aligned → ∀ (i : Nat) (region : MemoryRegion),
    s.mapping.getRegions[i]? = some region → AlignedMemoryMapping.slot region.vmAddr = i
  /-- A call that returns an error leaves the regions as they were. -/
  errors : ∀ call err, (MappingCall.apply call s).1 = .error err →
    (MappingCall.apply call s).2.mapping.getRegions = s.mapping.getRegions
  watched : s.mapping.getAccessTracker.map MemoryAccessTracker.watchedRanges =
    m.getAccessTracker.map MemoryAccessTracker.watchedRanges
  recorded : m.getForbiddenAccesses <+: s.mapping.getForbiddenAccesses
  /-- Every address is looked up in the region in which it was before, at the same offset. -/
  denoted : m.getRegions.length < 2 ^ 63 → ∀ vmAddr,
    (s.mapping.findRegion vmAddr).1.map Prod.fst = (m.findRegion vmAddr).1.map Prod.fst

theorem KeepsRegions.of_evolves {m : MemoryMapping} {s : VmMemory} (hwell : m.WellFormed)
    (h : m.Evolves s.mapping) : KeepsRegions m s := by
  have hwell' := h.wellFormed hwell
  have hordered : s.mapping.kind = .unaligned → Ordered s.mapping.getRegions := by
    intro hkind
    generalize s.mapping = m' at hwell' hkind
    cases m' with
    | identity => cases hkind
    | aligned a => cases hkind
    | unaligned u => exact hwell'.ordered
  refine ⟨h.kind, h.addresses, fun hkind => (hordered hkind).sorted,
    fun hkind => (hordered hkind).disjoint, ?_, ?_, h.watched, h.recorded,
    fun hsmall vmAddr => h.findRegion_index hwell hsmall vmAddr⟩
  · intro hkind
    generalize s.mapping = m' at hwell' hkind
    cases m' with
    | identity => cases hkind
    | unaligned u => cases hkind
    | aligned a => exact hwell'
  · intro call err herror
    unfold MappingCall.apply at herror ⊢
    rw [MappingOp.apply_error herror, MemoryMapping.getRegions_withHandler]

/-- From every mapping that a constructor returns, whatever it has been told to watch, every sequence
of calls with whatever handlers keeps the regions in place and the tracker intact. -/
theorem afterCalls_keeps_regions (regions : List MemoryRegion) (config : Config)
    (sbpfVersion : SBPFVersion) (handler : AccessViolationHandler) (tracker : MemoryAccessTracker)
    (host : ByteMemory) (calls : List MappingCall) :
    Ends (fun m => KeepsRegions (m.withTracker tracker)
        (VmMemory.afterCalls ⟨m.withTracker tracker, host⟩ calls))
      (fun _ => True)
      (MemoryMapping.newWithAccessViolationHandler regions config sbpfVersion handler) := by
  refine (MemoryMapping.new_wellFormed regions config sbpfVersion handler).mono ?_ fun _ => id
  rintro m ⟨hwell, -⟩
  have hwatching : (m.withTracker tracker).WellFormed := by
    cases m with
    | identity => trivial
    | aligned a => exact hwell
    | unaligned u => exact { hwell with }
  exact .of_evolves hwatching
    (VmMemory.afterCalls_evolves ⟨m.withTracker tracker, host⟩ calls)

namespace UnalignedMemoryMapping

/-- The table that leads from nodes to regions has every region once. -/
theorem Searchable.lookup_perm {m : UnalignedMemoryMapping} (h : m.Searchable) :
    m.regionIndexLookup.Perm (List.range m.common.regions.length) := by
  have htable : (List.range m.common.regions.length).map (fun k => m.regionIndexLookup.getD k 0) =
      m.regionIndexLookup := by
    apply List.ext_getElem
    · simp [h.lookup_length]
    · intro i hi hi'
      simp [List.getElem?_eq_getElem hi']
  have hinverse : (inOrder m.common.regions.length 0).map
      (fun k => m.regionIndexLookup.getD k 0) = List.range m.common.regions.length := by
    apply List.ext_getElem
    · simp
    · intro i hi hi'
      have hi'' : i < (inOrder m.common.regions.length 0).length := by simpa using hi'
      have hlookup := h.lookup i _ (List.getElem?_eq_getElem hi'')
      simp [List.getD_eq_getElem?_getD, hlookup]
  have hperm := (inOrder_perm_range m.common.regions.length).map
    fun k => m.regionIndexLookup.getD k 0
  rw [htable, hinverse] at hperm
  exact hperm.symm

/-- The lookup of every unaligned mapping is a predecessor search, after every sequence of calls: it
returns the last of the given regions in sorted order that does not start above the address, and none of
its unchecked accesses is out of bounds.  Calls may replace regions, but not move them.  Building the
tree does not panic and uses every region once. -/
theorem findRegion_is_predecessor_search (regions : List MemoryRegion) (config : Config)
    (sbpfVersion : SBPFVersion) (handler : AccessViolationHandler) (host : ByteMemory)
    (calls : List MappingCall) (hsmall : regions.length < 2 ^ 63) :
    Ends (fun m =>
        m.common.regions = sortRegions regions ∧
        m.regionIndexLookup.Perm (List.range regions.length) ∧
        ∃ m', (VmMemory.afterCalls ⟨.unaligned m, host⟩ calls).mapping = .unaligned m' ∧
          m'.common.regions.map MemoryRegion.vmAddr = (sortRegions regions).map MemoryRegion.vmAddr ∧
          m'.common.regions.Pairwise (fun r r' => r.vmAddr ≤ r'.vmAddr) ∧
          ∀ vmAddr, IsPredecessor m'.common.regions vmAddr (m'.findRegion vmAddr).1 ∧
            m'.findRegionChecked vmAddr = some (m'.findRegion vmAddr))
      (· ≠ .panic)
      (newWithAccessViolationHandler regions config sbpfVersion handler) := by
  refine (newWithAccessViolationHandler_searchable regions config sbpfVersion handler).mono ?_
    fun _ => id
  rintro m ⟨hsearchable, hcommon⟩
  have hregions : m.common.regions = sortRegions regions := by rw [hcommon, CommonMemoryMapping.new]
  have hcount : m.common.regions.length = regions.length := by
    rw [hregions]
    exact (List.perm_insertionSort _ regions).length_eq
  refine ⟨hregions, hcount ▸ hsearchable.lookup_perm, ?_⟩
  have hevolves := VmMemory.afterCalls_evolves ⟨.unaligned m, host⟩ calls
  generalize (VmMemory.afterCalls ⟨.unaligned m, host⟩ calls).mapping = after at hevolves
  have hkind := hevolves.kind
  have hwell := hevolves.wellFormed hsearchable
  have haddresses : after.getRegions.map MemoryRegion.vmAddr =
      (sortRegions regions).map MemoryRegion.vmAddr := by
    rw [hevolves.addresses, ← hregions]
    rfl
  have hlength : after.getRegions.length = regions.length := by
    have hmap := congrArg List.length haddresses
    rwa [List.length_map, List.length_map, ← hregions, hcount] at hmap
  cases after with
  | identity => cases hkind
  | aligned a => cases hkind
  | unaligned m' =>
      refine ⟨m', rfl, haddresses, hwell.ordered.sorted, ?_⟩
      intro vmAddr
      exact hwell.findRegion (hlength ▸ hsmall) vmAddr

/-- A program and a heap. -/
def twoRegions : List MemoryRegion :=
  [.newWritable 0x2000 0x100 mmHeapStart, .newReadonly 0x1000 0x100 mmBytecodeStart]

/-- Two regions that are given in the wrong order, and a load in between: an address behind the program
finds the program, and one in the heap finds the heap. -/
theorem twoRegions_predecessor_search :
    ∃ m m', newWithAccessViolationHandler twoRegions {} .v0 defaultAccessViolationHandler = .ok m ∧
      m.common.regions.map MemoryRegion.vmAddr = [mmBytecodeStart, mmHeapStart] ∧
      (VmMemory.afterCalls ⟨.unaligned m, fun _ => 0⟩
        [⟨defaultAccessViolationHandler, .load .u8 mmHeapStart⟩]).mapping = .unaligned m' ∧
      m'.common.regions.map MemoryRegion.vmAddr = [mmBytecodeStart, mmHeapStart] ∧
      IsPredecessor m'.common.regions mmStackStart (m'.findRegion mmStackStart).1 ∧
      (m'.findRegion mmStackStart).1.map Prod.fst = some 0 ∧
      IsPredecessor m'.common.regions (mmHeapStart + 5) (m'.findRegion (mmHeapStart + 5)).1 ∧
      (m'.findRegion (mmHeapStart + 5)).1.map Prod.fst = some 1 := by
  have hsearch := findRegion_is_predecessor_search twoRegions {} .v0 defaultAccessViolationHandler
    (fun _ => 0) [⟨defaultAccessViolationHandler, .load .u8 mmHeapStart⟩] (by decide)
  have hsorted : (sortRegions twoRegions).map MemoryRegion.vmAddr = [mmBytecodeStart, mmHeapStart] := by
    decide
  have hfound : (newWithAccessViolationHandler twoRegions {} .v0
      defaultAccessViolationHandler).toOption.map (fun m => match (VmMemory.afterCalls
        ⟨.unaligned m, fun _ => 0⟩
        [⟨defaultAccessViolationHandler, .load .u8 mmHeapStart⟩]).mapping with
      | .unaligned m' => ((m'.findRegion mmStackStart).1.map Prod.fst,
          (m'.findRegion (mmHeapStart + 5)).1.map Prod.fst)
      | _ => (none, none)) = some (some 0, some 1) := by
    decide +kernel
  cases hnew : newWithAccessViolationHandler twoRegions {} .v0 defaultAccessViolationHandler with
  | error fault =>
      rw [hnew] at hfound
      cases hfound
  | ok m =>
      rw [hnew] at hsearch hfound
      obtain ⟨hregions, -, m', hafter, haddresses, -, hpredecessor⟩ := hsearch
      simp only [Except.toOption, Option.map_some, hafter, Option.some.injEq, Prod.mk.injEq] at hfound
      exact ⟨m, m', rfl, hregions ▸ hsorted, hafter, haddresses.trans hsorted,
        (hpredecessor _).1, hfound.1, (hpredecessor _).1, hfound.2⟩

end UnalignedMemoryMapping

end Sbpf
end Gobble
