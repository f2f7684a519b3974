import Gobble.ProgramRuntime.AccountGrowth
import Gobble.ProgramRuntime.InstructionInput
import Gobble.Sbpf.MappingAgreement

/-!
# InputOwners — whose data the regions of a program are over

With stricter constraints `serialize_parameters` gives an account its own region, unless there is no
address space for it.  The regions of the input are therefore over the data of accounts, each of them
once and in the order of the accounts, or over fields.  This is the table of owners with which a program
starts, and the handler of `AccountGrowth` keeps it along every run.
-/

namespace Gobble
namespace ProgramRuntime

open Lib Sbpf Sdk Context EffectTree

/-! ## The regions that the serializer adds -/

/-- The account is given a region of its own. -/
def hasRegion (isLoaderV1 : Bool) (mode : MappingMode) (account : BorrowedInstructionAccount) : Bool :=
  mode.stricterAbiAndRuntimeConstraints && !(isLoaderV1 && account.getData.isEmpty)

/-- The region follows the account that it is over, or carries no index. -/
def OwnedBy (region : MemoryRegion) : Option BorrowedInstructionAccount → Prop
  | none => region.accessViolationHandlerPayload = none
  | some b => Follows b region

/-- What the serializer adds when it writes the accounts: the regions of those that are given one, in
their order, and regions over fields. -/
structure Places (accounts : List BorrowedInstructionAccount) (s s' : Serializer) : Prop where
  isLoaderV1 : s'.isLoaderV1 = s.isLoaderV1
  mode : s'.mode = s.mode
  regions : ∃ added owners, s'.regions = s.regions ++ added ∧ List.Forall₂ OwnedBy added owners ∧
    owners.reduceOption = accounts.filter (hasRegion s.isLoaderV1 s.mode)

namespace Places

variable {accounts accounts' : List BorrowedInstructionAccount} {s s' s'' : Serializer}

theorem of_regions_eq (hloader : s'.isLoaderV1 = s.isLoaderV1) (hmode : s'.mode = s.mode)
    (hregions : s'.regions = s.regions) (hnone : accounts.filter (hasRegion s.isLoaderV1 s.mode) = []) :
    Places accounts s s' :=
  ⟨hloader, hmode, [], [], by rw [hregions, List.append_nil], .nil, hnone.symm⟩

/-- One region is added. -/
theorem of_region {region : MemoryRegion} (owner : Option BorrowedInstructionAccount)
    (hloader : s'.isLoaderV1 = s.isLoaderV1) (hmode : s'.mode = s.mode)
    (hregions : s'.regions = s.regions ++ [region]) (howned : OwnedBy region owner)
    (howner : owner.toList = accounts.filter (hasRegion s.isLoaderV1 s.mode)) :
    Places accounts s s' := by
  refine ⟨hloader, hmode, [region], [owner], hregions, .cons howned .nil, ?_⟩
  rw [List.reduceOption_singleton, howner]

theorem refl (s : Serializer) : Places [] s s :=
  of_regions_eq rfl rfl rfl rfl

theorem trans (h : Places accounts s s') (h' : Places accounts' s' s'') :
    Places (accounts ++ accounts') s s'' := by
  obtain ⟨added, owners, hregions, howned, howners⟩ := h.regions
  obtain ⟨added', owners', hregions', howned', howners'⟩ := h'.regions
  refine ⟨h'.isLoaderV1.trans h.isLoaderV1, h'.mode.trans h.mode, added ++ added', owners ++ owners', ?_,
    List.rel_append howned howned', ?_⟩
  · rw [hregions', hregions, List.append_assoc]
  · rw [List.reduceOption_append, howners, howners', h.isLoaderV1, h.mode, List.filter_append]

end Places

namespace Serializer

variable {s : Serializer} {account : BorrowedInstructionAccount}

theorem writeAll_places (s : Serializer) (value : List UInt8) :
    Ends (fun r => Places [] s r.2) (fun _ => True) (s.writeAll value) := by
  unfold writeAll
  exact .bind_any (fun buffer => Places.of_regions_eq rfl rfl rfl rfl) fun _ => trivial

theorem fillWrite_places (s : Serializer) (num : Nat) (value : UInt8) :
    Ends (Places [] s) (fun _ => True) (s.fillWrite num value) := by
  unfold fillWrite
  split
  · exact Places.of_regions_eq rfl rfl rfl rfl
  · trivial

/-- A region over fields carries no index. -/
theorem pushRegion_places (s : Serializer) : Ends (Places [] s) (fun _ => True) s.pushRegion := by
  unfold pushRegion
  split
  · exact Places.of_region none rfl rfl rfl rfl rfl
  · trivial

theorem writeData_places (s : Serializer) (account : BorrowedInstructionAccount) (padding : Nat) :
    Ends (Places [] s) (fun _ => True) (s.writeData account padding) := by
  unfold writeData
  refine (s.writeAll_places account.getData).bind ?_
  rintro ⟨_, s₁⟩ hdata
  dsimp only
  split
  · exact (s₁.fillWrite_places _ _).mono (fun s' hs' => hdata.trans hs') fun _ => id
  · exact hdata

theorem writePadding_places (s : Serializer) (account : BorrowedInstructionAccount) :
    Ends (Places [] s) (fun _ => True) (s.writePadding account) := by
  unfold writePadding
  dsimp only
  split
  · split
    · exact s.fillWrite_places _ _
    · refine (s.fillWrite_places _ _).bind fun s₁ hfill => ?_
      exact hfill.trans (Places.of_regions_eq rfl rfl rfl rfl)
  · exact Places.refl s

/-- An account has a region if some address space is reserved for it. -/
theorem hasRegion_eq (s : Serializer) (account : BorrowedInstructionAccount) :
    hasRegion s.isLoaderV1 s.mode account =
      (s.mode.stricterAbiAndRuntimeConstraints &&
        decide (0 < s.addressSpaceReservedForAccount account)) := by
  have hspace : 0 < s.addressSpaceReservedForAccount account ↔
      ¬ (s.isLoaderV1 = true ∧ account.getData = []) :=
    Nat.pos_iff_ne_zero.trans (not_congr reserved_eq_zero_iff)
  have hempty : decide (account.getData = []) = account.getData.isEmpty :=
    Bool.eq_iff_iff.mpr (by simp)
  simp only [hasRegion, hspace]
  cases s.isLoaderV1 <;> simp [hempty]

section Limits

variable (hindex : account.getIndexInTransaction < 2 ^ 16)
  (hsmall : account.getData.length ≤ maxAccountDataLen)
include hindex hsmall

/-- The region that has been pushed for the data of the account becomes the region of the account. -/
theorem pushRegion_modifyLastRegion_places (s : Serializer)
    (hgiven : [account].filter (hasRegion s.isLoaderV1 s.mode) = [account]) :
    Ends (Places [account] s) (fun _ => True) (s.pushRegion >>= (·.modifyLastRegion account)) := by
  unfold pushRegion
  split
  · -- The region that `modifyLastRegion` finds is the one that has just been pushed.
    simp only [Bind.bind, Except.bind, modifyLastRegion, List.getLast?_concat, Outcome.unwrap,
      List.dropLast_concat]
    exact Places.of_region (some account) rfl rfl rfl
      (modifyMemoryRegionOfAccount_follows hindex hsmall _) hgiven.symm
  · trivial

theorem pushAccountRegion_places (host : HostStorage) (s : Serializer)
    (hstricter : s.mode.stricterAbiAndRuntimeConstraints = true) :
    Ends (Places [account] s) (fun _ => True) (pushAccountRegion host s account) := by
  unfold pushAccountRegion
  dsimp only
  split
  · rename_i hreserved
    have hgiven : [account].filter (hasRegion s.isLoaderV1 s.mode) = [account] := by
      simp [hasRegion_eq, hstricter, hreserved]
    split
    · exact pushRegion_modifyLastRegion_places hindex hsmall s hgiven
    · -- With direct mapping the region is over the data of the account itself.
      exact Places.of_region (some account) rfl rfl rfl
        (createMemoryRegionOfAccount_follows hindex hsmall host _) hgiven.symm
  · rename_i hreserved
    exact Places.of_regions_eq rfl rfl rfl (by simp [hasRegion_eq, hreserved])

theorem mapAccount_places (host : HostStorage) (s : Serializer)
    (hstricter : s.mode.stricterAbiAndRuntimeConstraints = true) :
    Ends (Places [account] s) (fun _ => True) (s.mapAccount host account) := by
  have hrest : ∀ s₁, Places [] s s₁ → Ends (Places [account] s) (fun _ => True)
      (pushAccountRegion host s₁ account >>= (·.writePadding account)) := by
    intro s₁ h₁
    refine (pushAccountRegion_places hindex hsmall host s₁ (h₁.mode ▸ hstricter)).bind fun s₂ h₂ => ?_
    refine (s₂.writePadding_places account).mono (fun s' h' => ?_) fun _ => id
    exact (h₁.trans h₂).trans h'
  unfold mapAccount
  dsimp only
  split
  · exact (s.writeData_places account 0).bind hrest
  · exact hrest s (Places.refl s)

theorem writeAccount_places (host : HostStorage) (s : Serializer) :
    Ends (fun r => Places [account] s r.2) (fun _ => True) (s.writeAccount host account) := by
  unfold writeAccount
  split
  · rename_i hlegacy
    have hmode : s.mode.stricterAbiAndRuntimeConstraints = false := by simpa using hlegacy
    refine (s.writeData_places account _).bind fun s₁ h₁ => ?_
    -- Without stricter constraints no account has a region.
    have hnone : [account].filter (hasRegion s.isLoaderV1 s.mode) = [] := by
      simp [hasRegion_eq, hmode]
    obtain ⟨added, owners, hregions, howned, howners⟩ := h₁.regions
    exact ⟨h₁.isLoaderV1, h₁.mode, added, owners, hregions, howned, howners.trans hnone.symm⟩
  · rename_i hstricter
    refine s.pushRegion_places.bind fun s₁ h₁ => ?_
    refine (mapAccount_places hindex hsmall host s₁ ?_).bind fun s₂ h₂ => h₁.trans h₂
    rw [h₁.mode]
    simpa using hstricter

end Limits

end Serializer

/-! ## The formats -/

section Formats

variable {host : HostStorage} {isLoaderV1 : Bool} {entries : List SerializeAccount}

theorem ensures_call {op : SerializeOp} {R : Serializer → Serializer → Prop}
    (hop : ∀ s, Ends (fun r => R s r.2) (fun _ => True) (s.perform host op)) :
    Ensures (serializerHandler host) R (SerializeM.call op) := by
  intro s vaddr s' hrun
  change serializerHandler host op s = _ at hrun
  have hs := hop s
  unfold serializerHandler at hrun
  cases hperform : s.perform host op with
  | error fault =>
      rw [hperform] at hrun
      cases hrun
  | ok r =>
      rw [hperform] at hrun hs
      cases hrun
      exact hs

theorem ensures_write_bind {α : Type} {accounts : List BorrowedInstructionAccount}
    (bytes : List UInt8) {f : U64 → SerializeM α}
    (hf : ∀ vaddr, Ensures (serializerHandler host) (Places accounts) (f vaddr)) :
    Ensures (serializerHandler host) (Places accounts) (SerializeM.write bytes >>= f) :=
  (ensures_call fun s => s.writeAll_places bytes).bind hf fun h h' => h.trans h'

/-- The limits on an account, under which its region carries its index and its length. -/
def SerializeAccount.WithinLimits (entry : SerializeAccount) : Prop :=
  ∀ b ∈ entry.account?, b.getIndexInTransaction < 2 ^ 16 ∧ b.getData.length ≤ maxAccountDataLen

theorem ensures_writeAccount_bind {α : Type} {account : BorrowedInstructionAccount}
    (hindex : account.getIndexInTransaction < 2 ^ 16)
    (hsmall : account.getData.length ≤ maxAccountDataLen) {f : U64 → SerializeM α}
    (hf : ∀ vaddr, Ensures (serializerHandler host) (Places []) (f vaddr)) :
    Ensures (serializerHandler host) (Places [account]) (SerializeM.writeAccount account >>= f) :=
  (ensures_call fun s => Serializer.writeAccount_places hindex hsmall host s).bind hf
    fun h h' => h.trans h'

/-- Writing an entry places its account, if it is not a duplicate. -/
theorem serializeAccount_ensures (acc : List SerializedAccountMetadata) {entry : SerializeAccount}
    (hlimits : entry.WithinLimits) :
    Ensures (serializerHandler host) (Places entry.account?.toList)
      (serializeAccount isLoaderV1 acc entry) := by
  cases entry with
  | account index account =>
      obtain ⟨hindex, hsmall⟩ := hlimits account rfl
      cases isLoaderV1 with
      | true =>
          change Ensures _ _ (serializeAccountUnaligned acc (.account index account))
          -- Six fields in front of the data, and three behind it.
          iterate 6 refine ensures_write_bind _ fun _ => ?_
          refine ensures_writeAccount_bind hindex hsmall fun _ => ?_
          iterate 3 refine ensures_write_bind _ fun _ => ?_
          exact ensures_pure Places.refl _
      | false =>
          change Ensures _ _ (serializeAccountAligned acc (.account index account))
          -- Here all fields but the rent epoch are in front of the data.
          iterate 9 refine ensures_write_bind _ fun _ => ?_
          refine ensures_writeAccount_bind hindex hsmall fun _ => ?_
          refine ensures_write_bind _ fun _ => ?_
          exact ensures_pure Places.refl _
  | duplicate position =>
      have hunwrap : Ensures (serializerHandler host) (Places [])
          (SerializeM.unwrap acc[position]?) := by
        cases acc[position]? with
        | none => exact ensures_throw _
        | some metadata => exact ensures_pure Places.refl _
      cases isLoaderV1 with
      | true =>
          change Ensures _ _ (serializeAccountUnaligned acc (.duplicate position))
          refine hunwrap.bind (fun metadata => ?_) fun h h' => h.trans h'
          refine ensures_write_bind _ fun _ => ?_
          exact ensures_pure Places.refl _
      | false =>
          change Ensures _ _ (serializeAccountAligned acc (.duplicate position))
          refine hunwrap.bind (fun metadata => ?_) fun h h' => h.trans h'
          iterate 2 refine ensures_write_bind _ fun _ => ?_
          exact ensures_pure Places.refl _

theorem serializeInput_ensures (hlimits : ∀ entry ∈ entries, entry.WithinLimits)
    (instructionData : List UInt8) (programId : Pubkey) :
    Ensures (serializerHandler host) (Places (entries.filterMap SerializeAccount.account?))
      (serializeInput isLoaderV1 entries instructionData programId) := by
  have hloop : Ensures (serializerHandler host) (Places (entries.filterMap SerializeAccount.account?))
      (entries.foldlM (serializeAccount isLoaderV1) []) := by
    refine ensures_foldlM (R := fun done => Places (done.filterMap SerializeAccount.account?))
      Places.refl (fun {entry rest s s' s''} h h' => ?_) (fun acc entry hentry => ?_) []
    · rw [← List.singleton_append, List.filterMap_append]
      exact h.trans h'
    · have hone : [entry].filterMap SerializeAccount.account? = entry.account?.toList := by
        cases entry <;> rfl
      rw [hone]
      exact serializeAccount_ensures acc (hlimits entry hentry)
  have hrest : ∀ metadata : List SerializedAccountMetadata,
      Ensures (serializerHandler host) (Places []) (do
        let _ ← SerializeM.writeU64 instructionData.length
        let instructionDataOffset ← SerializeM.write instructionData
        let _ ← SerializeM.write programId.toList
        return (metadata, instructionDataOffset)) := by
    intro metadata
    iterate 3 refine ensures_write_bind _ fun _ => ?_
    exact ensures_pure Places.refl _
  unfold serializeInput
  refine ensures_write_bind _ fun _ => hloop.bind hrest fun h h' => ?_
  simpa only [List.append_nil] using h.trans h'

/-- The regions of the input: those of the accounts, in their order, and regions over fields. -/
theorem serializeParametersWith_owners {mode : MappingMode}
    (hlimits : ∀ entry ∈ entries, entry.WithinLimits) {instructionData : List UInt8}
    {programId : Pubkey} {params : SerializedParameters}
    (h : serializeParametersWith host isLoaderV1 mode entries instructionData programId = .ok params) :
    ∃ owners, List.Forall₂ OwnedBy params.regions owners ∧ owners.reduceOption =
      (entries.filterMap SerializeAccount.account?).filter (hasRegion isLoaderV1 mode) := by
  have hinput : Ensures (serializerHandler host) (Places (entries.filterMap SerializeAccount.account?))
      (serializeInput isLoaderV1 entries instructionData programId) :=
    serializeInput_ensures hlimits instructionData programId
  unfold serializeParametersWith at h
  dsimp only at h
  cases hrun : (serializeInput isLoaderV1 entries instructionData programId).run.run
      (serializerHandler host) (Serializer.new host
        (parametersSize isLoaderV1 mode entries instructionData) mmInputStart isLoaderV1 mode) with
  | mk result s =>
      rw [hrun] at h
      obtain ⟨_, rfl, h⟩ := bind_eq_ok h
      obtain ⟨s', hpush, h⟩ := bind_eq_ok h
      cases h
      -- What follows the last account is closed by one more region over fields.
      have hlast := s.pushRegion_places
      rw [hpush] at hlast
      obtain ⟨added, owners, hregions, howned, howners⟩ :=
        ((hinput _ _ _ hrun).trans hlast).regions
      rw [List.append_nil] at howners
      refine ⟨owners, ?_, howners⟩
      rw [hregions]
      exact howned

end Formats

/-! ## The memory of a program -/

/-- The accounts of the instruction that are given regions of their own. -/
def regionAccounts (ic : InstructionContext) (mode : MappingMode) : List BorrowedInstructionAccount :=
  ((entriesOf ic).filterMap SerializeAccount.account?).filter (hasRegion (isLoaderDeprecated ic) mode)

section Memory

variable {ic : InstructionContext} {mode : MappingMode} {params : SerializedParameters}

theorem tryBorrowInstructionAccount_of_entryAt {i : Nat} {b : BorrowedInstructionAccount}
    (h : (entryAt ic i).account? = some b) : ic.tryBorrowInstructionAccount i = .ok b := by
  unfold entryAt at h
  split at h
  · rename_i borrowed hborrow
    split at h
    · cases h
      exact hborrow
    · cases h
  · cases h

theorem entriesOf_withinLimits (hlimits : AccountLimits ic) :
    ∀ entry ∈ entriesOf ic, entry.WithinLimits := by
  intro entry hentry b hb
  obtain ⟨i, -, rfl⟩ := List.mem_map.mp hentry
  exact hlimits.borrowed (tryBorrowInstructionAccount_of_entryAt hb)

theorem regionAccounts_borrows {b : BorrowedInstructionAccount} (h : b ∈ regionAccounts ic mode) :
    ic.authority.Borrows b ic.transactionContext.accounts := by
  obtain ⟨entry, hentry, hb⟩ := List.mem_filterMap.mp (List.mem_of_mem_filter h)
  obtain ⟨i, -, rfl⟩ := List.mem_map.mp hentry
  obtain ⟨hmem, hprogram, hof⟩ :=
    tryBorrowInstructionAccount_ok (tryBorrowInstructionAccount_of_entryAt hb)
  exact ⟨⟨hmem, hprogram⟩, hof⟩

theorem regionAccounts_nodup (hwell : ic.WellFormed) (mode : MappingMode) :
    ((regionAccounts ic mode).map BorrowedInstructionAccount.getIndexInTransaction).Nodup :=
  List.pairwise_map.mpr ((entriesOf_ok hwell).distinct.sublist List.filter_sublist)

/-- The regions of the input show the accounts as the instruction borrows them. -/
theorem serializeParameters_table {host : HostStorage} (hwell : ic.WellFormed)
    (hlimits : AccountLimits ic) (h : serializeParameters host ic mode = .ok params) :
    ∃ owners, OwnerTable (RegionShows ic.authority ic.transactionContext.accounts) params.regions
        owners ∧
      owners.reduceOption =
        (regionAccounts ic mode).map BorrowedInstructionAccount.getIndexInTransaction := by
  rw [serializeParameters_eq hwell] at h
  obtain ⟨owners, howned, howners⟩ :=
    serializeParametersWith_owners (entriesOf_withinLimits hlimits) h
  have hindices :
      (owners.map (Option.map BorrowedInstructionAccount.getIndexInTransaction)).reduceOption =
        (regionAccounts ic mode).map BorrowedInstructionAccount.getIndexInTransaction := by
    rw [List.reduceOption_map, howners]
    rfl
  refine ⟨_, ⟨List.forall₂_map_right_iff.mpr (List.forall₂_iff_zip.mpr ⟨howned.length_eq, ?_⟩), ?_⟩,
    hindices⟩
  · intro region owner hpair
    have hregion := List.forall₂_zip howned hpair
    cases owner with
    | none => exact hregion
    | some b =>
        have hmem : b ∈ regionAccounts ic mode := by
          rw [regionAccounts, ← howners]
          exact List.reduceOption_mem_iff.mpr (List.of_mem_zip hpair).2
        exact ⟨b, regionAccounts_borrows hmem, rfl, hregion⟩
  · rw [hindices]
    exact regionAccounts_nodup hwell mode

/-- The memory with which a program starts matches the accounts. -/
theorem createMemoryMapping_matches {exe : LoadedExecutable} {host : HostAllocation} {heapSize : Nat}
    {mapping : MemoryMapping} (hwell : ic.WellFormed) (hlimits : AccountLimits ic)
    (hgrowth : ic.transactionContext.accounts.WithinGrowth)
    (hparams : serializeParameters host.storage ic mode = .ok params)
    (hro : exe.roRegion.accessViolationHandlerPayload = none)
    (hmapping : exe.createMemoryMapping host heapSize params.regions = .ok mapping) :
    ∃ owners, MappedAccounts.Matches ic.authority owners ⟨mapping, ic.transactionContext.accounts⟩ ∧
      owners.reduceOption.Perm
        ((regionAccounts ic mode).map BorrowedInstructionAccount.getIndexInTransaction) := by
  obtain ⟨owners, htable, howners⟩ := serializeParameters_table hwell hlimits hparams
  unfold LoadedExecutable.createMemoryMapping at hmapping
  dsimp only at hmapping
  generalize hown : [exe.roRegion, _, _] = own at hmapping
  have hplain : ∀ region ∈ own, region.accessViolationHandlerPayload = none := by
    rw [← hown]
    simpa [MemoryRegion.newWritableGapped, MemoryRegion.newWritable, MemoryRegion.new] using hro
  have hcompletes := MemoryMapping.new_completes (own ++ params.regions) exe.config exe.sbpfVersion
    defaultAccessViolationHandler
  rw [hmapping] at hcompletes
  obtain ⟨fillers, hperm, hfillers⟩ := hcompletes
  -- The regions of the program, and those that fill slots up, have no owner; then all are sorted.
  obtain ⟨owners', htable', howners'⟩ :=
    ((htable.append_left hplain).append_left hfillers).perm hperm
  refine ⟨owners', ⟨⟨hgrowth, fun hentry => hlimits.small _ (List.mem_of_getElem? hentry)⟩, htable'⟩, ?_⟩
  refine (howners'.filterMap id).trans (.of_eq ?_)
  change List.reduceOption _ = _
  rw [List.reduceOption_append, List.reduceOption_append, List.reduceOption_replicate_none,
    List.reduceOption_replicate_none, howners]
  rfl

end Memory

/-! ## Whole runs -/

namespace Appending

/-- The accounts of the transaction may grow by three more bytes. -/
def instruction : InstructionContext :=
  { sampleInstruction with transactionContext.accounts.resizeDelta := 20971517 }

/-- Account data is mapped in place. -/
def mode : MappingMode := ⟨true, true⟩

def host : HostAllocation :=
  { storage := sampleHost, stackAddr := 0x200000, heapAddr := 0x300000 }

/-- With stricter constraints the mapping is searched by address. -/
def executable : LoadedExecutable :=
  { config := { alignedMemoryMapping := false }
    sbpfVersion := .v0
    roRegion := .newReadonly 0x400000 8 mmBytecodeStart
    code := fun _ => .pure (.ok 0) }

/-- The program loads the data of the sysvar, and stores twice behind the data of its own account. -/
def accesses : List MappedAccounts.Access :=
  [⟨sampleHost, .load, mmInputStart + 96, 8⟩, ⟨sampleHost, .store, mmInputStart + 20788, 2⟩,
    ⟨sampleHost, .store, mmInputStart + 20788, 2⟩]

/-- The memory and the accounts with which the program starts. -/
def start : Option MappedAccounts := do
  let params ← (serializeParameters host.storage instruction mode).toOption
  let mapping ← (executable.createMemoryMapping host 32768 params.regions).toOption
  return ⟨mapping, instruction.transactionContext.accounts⟩

/-- The lengths of the data of the accounts, and of the regions of the input. -/
def lengths (s : MappedAccounts) : List Nat × List Nat :=
  (s.accounts.accounts.map fun entry => entry.2.data.length,
    (s.mapping.getRegions.drop 3).map fun region => region.len.toNat)

theorem start_eq_some {s : MappedAccounts} (h : start = some s) :
    ∃ params mapping, serializeParameters host.storage instruction mode = .ok params ∧
      executable.createMemoryMapping host 32768 params.regions = .ok mapping ∧
      s = ⟨mapping, instruction.transactionContext.accounts⟩ := by
  unfold start at h
  obtain ⟨params, hparams, h⟩ := Option.bind_eq_some_iff.mp h
  obtain ⟨mapping, hmapping, h⟩ := Option.bind_eq_some_iff.mp h
  exact ⟨params, mapping, toOption_eq_some.mp hparams, toOption_eq_some.mp hmapping,
    (Option.some.inj h).symm⟩

theorem instruction_limits : AccountLimits instruction := by
  have hsmall : ∀ entry ∈ instruction.transactionContext.accounts.accounts,
      entry.2.data.length ≤ maxAccountDataLen := by decide
  have hindex : ∀ account ∈ instruction.instructionAccounts, account.indexInTransaction < 2 ^ 16 := by
    decide
  exact ⟨hsmall, hindex⟩

/-- What the run does to the lengths. -/
theorem run_lengths : start.map (fun s => (lengths s, (s.run mode accesses).1.isOk,
    lengths (s.run mode accesses).2)) =
      some (([0, 8, 3], [96, 8, 96, 0, 104, 3, 54]), true, ([0, 8, 6], [96, 8, 96, 0, 104, 6, 54])) := by
  decide +kernel

end Appending

end ProgramRuntime
end Gobble
