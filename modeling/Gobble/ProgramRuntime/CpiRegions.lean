import Gobble.ProgramRuntime.AccountGrowth
import Gobble.ProgramRuntime.CpiView

/-!
# CpiRegions — regions follow the accounts

A callee can make the data of an account longer or shorter, move it in the host's memory, or give the
account away.  With stricter constraints the second loop at the end of `cpi_common` therefore replaces
the regions over account data.  After it each of these regions is as long as the data and can be written
only if the caller may still change the data.  Where data is mapped directly, the region is over the data
as the host has it now.

The loop looks regions up by address while it replaces them.  It is right because a replacement does not
change what a lookup finds (`Evolves.findRegion_index`).
-/

namespace Gobble
namespace ProgramRuntime

open Lib Sbpf Sdk Context

/-- A new region for an account whose data is mapped in place is over this data. -/
theorem hostAddr_createMemoryRegionOfAccount (storage : HostStorage) (b : BorrowedInstructionAccount)
    (vaddr : U64) :
    (createMemoryRegionOfAccount storage b vaddr).hostAddr =
      storage.dataAddr b.getIndexInTransaction := by
  unfold createMemoryRegionOfAccount
  dsimp only
  split
  · dsimp only
    split <;> rfl
  · rfl

/-! ## One region -/

/-- The account has address space, and the region over it is to be replaced. -/
def TranslatedAccount.Remaps (checkAligned : Bool) (account : TranslatedAccount) : Prop :=
  account.updateCallerAccountRegion = true ∧
    addressSpaceReservedForAccount checkAligned account.callerAccount.originalDataLen ≠ 0

/-- Where the region over the data of an account is. -/
def CallerState.regionIndex (s : CallerState) (account : TranslatedAccount) : Option Nat :=
  (s.memory.mapping.findRegion account.callerAccount.vmDataAddr).1.map Prod.fst

/-- What replacing the region of an account has done. -/
structure Remapped (storage : HostStorage) (mode : MappingMode) (account : TranslatedAccount)
    (callee : BorrowedInstructionAccount) (s t : CallerState) (index : Nat) (region : MemoryRegion) :
    Prop where
  found : s.regionIndex account = some index
  bound : index < s.memory.mapping.getRegions.length
  regions : t.memory.mapping.getRegions = s.memory.mapping.getRegions.set index region
  evolves : s.memory.mapping.Evolves t.memory.mapping
  follows : Follows callee region
  host : mode.accountDataDirectMapping = true →
    region.hostAddr = storage.dataAddr callee.getIndexInTransaction

section Loop

variable {storage : HostStorage} {mode : MappingMode} {checkAligned : Bool}
  {ic : InstructionContext} {s t : CallerState}

/-- The region that takes the place of the old one. -/
theorem newRegion_follows {callee : BorrowedInstructionAccount}
    (hindex : callee.getIndexInTransaction < 2 ^ 16)
    (hsmall : callee.getData.length ≤ maxAccountDataLen) (storage : HostStorage) (mode : MappingMode)
    (old : MemoryRegion) :
    ∃ region, (if mode.accountDataDirectMapping then
        createMemoryRegionOfAccount storage callee old.vmAddr
      else modifyMemoryRegionOfAccount callee old) = region ∧ Follows callee region ∧
      (mode.accountDataDirectMapping = true →
        region.hostAddr = storage.dataAddr callee.getIndexInTransaction) := by
  refine ⟨_, rfl, ?_⟩
  split
  · exact ⟨createMemoryRegionOfAccount_follows hindex hsmall storage old.vmAddr,
      fun _ => hostAddr_createMemoryRegionOfAccount storage callee old.vmAddr⟩
  · rename_i hcopied
    exact ⟨modifyMemoryRegionOfAccount_follows hindex hsmall old,
      fun hdirect => absurd hdirect hcopied⟩

theorem updateCallerAccountRegion_remapped {account : TranslatedAccount}
    {callee : BorrowedInstructionAccount} (hindex : callee.getIndexInTransaction < 2 ^ 16)
    (hsmall : callee.getData.length ≤ maxAccountDataLen)
    (hreserved : addressSpaceReservedForAccount checkAligned account.callerAccount.originalDataLen ≠ 0)
    (h : s.updateCallerAccountRegion storage mode checkAligned account.callerAccount callee =
      (.ok (), t)) :
    ∃ index region, Remapped storage mode account callee s t index region := by
  unfold CallerState.updateCallerAccountRegion at h
  rw [if_neg hreserved] at h
  -- A lookup may move an entry of the cache, but it leaves the regions alone.
  have hlookup := MemoryMapping.findRegion_evolves (m := s.memory.mapping)
    account.callerAccount.vmDataAddr
  have hsame := MemoryMapping.getRegions_findRegion (m := s.memory.mapping)
    account.callerAccount.vmDataAddr
  cases hfind : s.memory.mapping.findRegion account.callerAccount.vmDataAddr with
  | mk found mapping =>
      rw [hfind] at h hlookup hsame
      dsimp only at h hlookup hsame
      cases found with
      -- No region is found, which the code answers with an error.
      | none => cases h
      | some entry =>
          obtain ⟨index, old⟩ := entry
          dsimp only at h
          obtain ⟨region, hregion, hnew, hhost⟩ :=
            newRegion_follows hindex hsmall storage mode old
          rw [hregion] at h
          cases hreplace : mapping.replaceRegion index region with
          | error err =>
              rw [hreplace] at h
              cases h
          | ok replaced =>
              rw [hreplace] at h
              cases h
              obtain ⟨_, hold, -⟩ := MemoryMapping.replaceRegion_ok hreplace
              refine ⟨index, region, ?_, ?_, ?_, ?_, hnew, hhost⟩
              · rw [CallerState.regionIndex, hfind]
                rfl
              · rw [← hsame]
                exact (List.getElem?_eq_some_iff.mp hold).1
              · rw [← hsame]
                exact MemoryMapping.replaceRegion_getRegions hreplace
              · exact hlookup.trans (MemoryMapping.replaceRegion_evolves hreplace)

theorem Remapped.regionIndex {account : TranslatedAccount} {callee : BorrowedInstructionAccount}
    {index : Nat} {region : MemoryRegion} (h : Remapped storage mode account callee s t index region)
    (hwell : s.memory.mapping.WellFormed) (hfew : s.memory.mapping.getRegions.length < 2 ^ 63)
    (other : TranslatedAccount) : t.regionIndex other = s.regionIndex other :=
  h.evolves.findRegion_index hwell hfew other.callerAccount.vmDataAddr

/-! ## All regions -/

/-- What the loop has done.  Regions that it was not to replace are as they were. -/
structure RegionsFollow (storage : HostStorage) (mode : MappingMode) (checkAligned : Bool)
    (ic : InstructionContext) (accounts : List TranslatedAccount) (s t : CallerState) : Prop where
  evolves : s.memory.mapping.Evolves t.memory.mapping
  others : ∀ index, (∀ account ∈ accounts, account.Remaps checkAligned →
    s.regionIndex account ≠ some index) →
      t.memory.mapping.getRegions[index]? = s.memory.mapping.getRegions[index]?
  follow : ∀ account ∈ accounts, account.Remaps checkAligned → ∃ callee index region,
    ic.tryBorrowInstructionAccount account.indexInCaller = .ok callee ∧
      s.regionIndex account = some index ∧ t.memory.mapping.getRegions[index]? = some region ∧
      Follows callee region ∧ (mode.accountDataDirectMapping = true →
        region.hostAddr = storage.dataAddr callee.getIndexInTransaction)

/-- An account whose region stays. -/
theorem RegionsFollow.skip {account : TranslatedAccount} {rest : List TranslatedAccount}
    (h : RegionsFollow storage mode checkAligned ic rest s t)
    (hskip : ¬ account.Remaps checkAligned) :
    RegionsFollow storage mode checkAligned ic (account :: rest) s t where
  evolves := h.evolves
  others := fun index hindex => h.others index fun other hother =>
    hindex other (List.mem_cons_of_mem _ hother)
  follow := fun other hother hremaps => by
    rcases List.mem_cons.mp hother with rfl | hrest
    · exact absurd hremaps hskip
    · exact h.follow other hrest hremaps

/-- An account whose region has been replaced before the others. -/
theorem RegionsFollow.step {account : TranslatedAccount} {rest : List TranslatedAccount}
    {callee : BorrowedInstructionAccount} {s' : CallerState} {index : Nat} {region : MemoryRegion}
    (h : RegionsFollow storage mode checkAligned ic rest s' t)
    (hfirst : Remapped storage mode account callee s s' index region)
    (hcallee : ic.tryBorrowInstructionAccount account.indexInCaller = .ok callee)
    (hlookup : ∀ other, s'.regionIndex other = s.regionIndex other)
    (hapart : ∀ other ∈ rest, other.Remaps checkAligned → s.regionIndex account ≠ s.regionIndex other)
    (hremaps : account.Remaps checkAligned) :
    RegionsFollow storage mode checkAligned ic (account :: rest) s t where
  evolves := hfirst.evolves.trans h.evolves
  others := fun other hother => by
    -- The region that was replaced is the one of this account.
    have hne : index ≠ other := by
      rintro rfl
      exact hother account List.mem_cons_self hremaps hfirst.found
    rw [h.others other fun x hx hxremaps => hlookup x ▸ hother x (List.mem_cons_of_mem _ hx) hxremaps,
      hfirst.regions, List.getElem?_set_ne hne]
  follow := fun other hother hotherRemaps => by
    rcases List.mem_cons.mp hother with rfl | hrest
    · refine ⟨callee, index, region, hcallee, hfirst.found, ?_, hfirst.follows, hfirst.host⟩
      -- The turns after this one replace other regions.
      rw [h.others index fun x hx hxremaps hsame => hapart x hx hxremaps
        (hfirst.found.trans (hsame.symm.trans (hlookup x))), hfirst.regions,
        List.getElem?_set_self hfirst.bound]
    · obtain ⟨found, i, r, hborrow, hi, hr, hfollows⟩ := h.follow other hrest hotherRemaps
      exact ⟨found, i, r, hborrow, (hlookup other).symm.trans hi, hr, hfollows⟩

end Loop

namespace Growing

/-- The instruction of the caller. -/
def instruction (mode : MappingMode) : InstructionContext where
  transactionContext := (returned mode).context.transactionContext
  indexInTrace := 0
  nestingLevel := 0
  programAccountIndexInTx := 0
  instructionAccounts := instructionAccounts
  dedupMap := dedupMapOf (indicesOf instructionAccounts)
  instructionData := []

theorem returned_wellFormed (mode : MappingMode) : (returned mode).memory.mapping.WellFormed := by
  change (mapping mode).WellFormed
  have hends := MemoryMapping.new_wellFormed (regions mode)
    { alignedMemoryMapping := !mode.stricterAbiAndRuntimeConstraints } .v0
    defaultAccessViolationHandler
  unfold mapping
  cases hnew : MemoryMapping.newWithAccessViolationHandler (regions mode)
    { alignedMemoryMapping := !mode.stricterAbiAndRuntimeConstraints } .v0
    defaultAccessViolationHandler with
  | error fault => trivial
  | ok m =>
      rw [hnew] at hends
      exact hends.1

theorem instruction_limits : ∀ mode ∈ modes, AccountLimits (instruction mode) := by
  have hsmall : ∀ mode ∈ modes,
      ∀ entry ∈ (instruction mode).transactionContext.accounts.accounts,
        entry.2.data.length ≤ maxAccountDataLen := by decide +kernel
  have hindex : ∀ account ∈ instructionAccounts, account.indexInTransaction < 2 ^ 16 := by decide
  exact fun mode hmode => ⟨hsmall mode hmode, hindex⟩

/-- Both accounts have regions of their own. -/
theorem region_indices : ∀ direct : Bool, (translated ⟨true, direct⟩).map
    (returned ⟨true, direct⟩).regionIndex = [some 5, some 7] := by
  decide +kernel

/-- The mapping is searched by address.  The regions of the two accounts are replaced one after the other:
the first is longer than before, and with direct mapping both are where the host has the data. -/
def Follow (direct : Bool) : Prop :=
  (mapping ⟨true, direct⟩).kind = .unaligned ∧
    (translated ⟨true, direct⟩).map (returned ⟨true, direct⟩).regionIndex = [some 5, some 7] ∧
    ∃ t, (returned ⟨true, direct⟩).updateRegions storage ⟨true, direct⟩ true
        (instruction ⟨true, direct⟩) (translated ⟨true, direct⟩) = (.ok (), t) ∧
      ((regions ⟨true, direct⟩).map MemoryRegion.len)[5]? = some 1 ∧
      (t.memory.mapping.getRegions.map MemoryRegion.len)[5]? = some 2 ∧
      RegionsFollow storage ⟨true, direct⟩ true (instruction ⟨true, direct⟩)
        (translated ⟨true, direct⟩) (returned ⟨true, direct⟩) t

end Growing

section Run

variable {storage : HostStorage} {mode : MappingMode} {checkAligned : Bool}
  {ic : InstructionContext} {s t : CallerState} {accounts : List TranslatedAccount}

/-- **Regions follow the accounts.**  If the loop succeeds and no two accounts share a region, every region
that was to be replaced shows its account as the callee left it, and the others are as they were. -/
theorem updateRegions_follow (hlimits : AccountLimits ic) (hwell : s.memory.mapping.WellFormed)
    (hfew : s.memory.mapping.getRegions.length < 2 ^ 63)
    (hapart : accounts.Pairwise fun x y => x.Remaps checkAligned → y.Remaps checkAligned →
      s.regionIndex x ≠ s.regionIndex y)
    (h : s.updateRegions storage mode checkAligned ic accounts = (.ok (), t)) :
    RegionsFollow storage mode checkAligned ic accounts s t := by
  -- Replacing a region does not change where the regions of the other accounts are.
  induction accounts generalizing s with
  | nil =>
      cases h
      exact ⟨.refl _, fun _ _ => rfl, fun _ hmem => by cases hmem⟩
  | cons account rest ih =>
      obtain ⟨hfirst, hrest⟩ := List.pairwise_cons.mp hapart
      unfold CallerState.updateRegions at h
      split at h
      · cases h
      · rename_i callee hcallee
        obtain ⟨hindex, hsmall⟩ := hlimits.borrowed hcallee
        split at h
        · rename_i hflag
          cases hstep : s.updateCallerAccountRegion storage mode checkAligned account.callerAccount
            callee with
          | mk result s' =>
              rw [hstep] at h
              cases result with
              | error err => cases h
              | ok _ =>
                  change s'.updateRegions storage mode checkAligned ic rest = _ at h
                  by_cases hreserved : addressSpaceReservedForAccount checkAligned
                      account.callerAccount.originalDataLen = 0
                  · -- An account without address space has no region.
                    rw [CallerState.updateCallerAccountRegion, if_pos hreserved] at hstep
                    cases hstep
                    exact (ih hwell hfew hrest h).skip fun hremaps => hremaps.2 hreserved
                  · obtain ⟨index, region, hremapped⟩ :=
                      updateCallerAccountRegion_remapped hindex hsmall hreserved hstep
                    have hlookup := hremapped.regionIndex hwell hfew
                    refine (ih (hremapped.evolves.wellFormed hwell) ?_ ?_ h).step hremapped hcallee
                      hlookup (fun other hother => hfirst other hother ⟨hflag, hreserved⟩)
                      ⟨hflag, hreserved⟩
                    · rwa [hremapped.regions, List.length_set]
                    · simpa only [hlookup] using hrest
        · rename_i hflag
          exact (ih hwell hfew hrest h).skip fun hremaps => hflag hremaps.1

end Run

theorem growing_regions_follow : Growing.Follow false ∧ Growing.Follow true := by
  have hkind : ∀ direct : Bool, (Growing.mapping ⟨true, direct⟩).kind = .unaligned := by decide +kernel
  have hbefore : ∀ direct : Bool,
      ((Growing.regions ⟨true, direct⟩).map MemoryRegion.len)[5]? = some 1 := by
    decide +kernel
  have hfew : ∀ direct : Bool,
      (Growing.returned ⟨true, direct⟩).memory.mapping.getRegions.length < 2 ^ 63 := by
    decide +kernel
  have hresult : ∀ direct : Bool, ((Growing.returned ⟨true, direct⟩).updateRegions Growing.storage
      ⟨true, direct⟩ true (Growing.instruction ⟨true, direct⟩)
        (Growing.translated ⟨true, direct⟩)).1.isOk = true ∧
      (((Growing.returned ⟨true, direct⟩).updateRegions Growing.storage ⟨true, direct⟩ true
        (Growing.instruction ⟨true, direct⟩)
          (Growing.translated ⟨true, direct⟩)).2.memory.mapping.getRegions.map
            MemoryRegion.len)[5]? = some 2 := by
    decide +kernel
  have hfollow : ∀ direct, Growing.Follow direct := by
    intro direct
    have hmode : (⟨true, direct⟩ : MappingMode) ∈ Growing.modes := by cases direct <;> decide
    have hindices := Growing.region_indices direct
    have hapart : ((Growing.translated ⟨true, direct⟩).map
        (Growing.returned ⟨true, direct⟩).regionIndex).Pairwise (· ≠ ·) := by
      rw [hindices]
      decide
    obtain ⟨hok, hlen⟩ := hresult direct
    refine ⟨hkind direct, hindices, ?_⟩
    cases hrun : (Growing.returned ⟨true, direct⟩).updateRegions Growing.storage ⟨true, direct⟩ true
        (Growing.instruction ⟨true, direct⟩) (Growing.translated ⟨true, direct⟩) with
    | mk result t =>
        rw [hrun] at hok hlen
        cases result with
        | error fault => cases hok
        | ok _ =>
            exact ⟨t, rfl, hbefore direct, hlen, updateRegions_follow
              (Growing.instruction_limits _ hmode) (Growing.returned_wellFormed _) (hfew direct)
              ((List.pairwise_map.mp hapart).imp fun hne _ _ => hne) hrun⟩
  exact ⟨hfollow false, hfollow true⟩

end ProgramRuntime
end Gobble
