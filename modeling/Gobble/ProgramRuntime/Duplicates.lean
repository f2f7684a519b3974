import Gobble.ProgramRuntime.BufferBytes
import Gobble.ProgramRuntime.ForbiddenRanges
import Gobble.ProgramRuntime.Prepare

/-!
# Duplicates — accounts that an instruction names more than once

Three parts of the runtime ask where an account stands for the first time: the serializer, which
writes a repeated account as a reference, the list of account metadata, which has the same entry for
every occurrence, and the computation of the watched addresses, which looks up the sysvar.  All of
them are right about every instruction that either function prepares.
-/

namespace Gobble
namespace ProgramRuntime

open Lib Sbpf Sdk Context

/-- `c'` is `c` with the next instruction prepared, from a message or by a program.  `given` are the
accounts that the instruction names: by their indices in a message, by their keys otherwise. -/
inductive Prepares (c : InvokeContext) : List (Option IndexOfAccount) → InvokeContext → Prop where
  | topLevel {c' : InvokeContext} (isSigner isWritable : Nat → Bool)
      (instruction : CompiledInstruction) (programIndex : IndexOfAccount)
      (hcount : instruction.accounts.length ≤ maxAccountsPerInstruction)
      (hindices : ∀ index ∈ instruction.accounts,
        index.toNat < c.transactionContext.accounts.len)
      (h : c.prepareNextTopLevelInstruction isSigner isWritable instruction programIndex =
        .ok c') : Prepares c (instruction.accounts.map fun index => some index.toNat) c'
  | invocation {c' : InvokeContext} (instruction : Instruction) (signers : List Pubkey)
      (hcount : instruction.accounts.length ≤ maxAccountsPerInstruction)
      (h : c.prepareNextInstruction instruction signers = .ok c') :
      Prepares c (instruction.accounts.map fun m =>
        c.transactionContext.findIndexOfAccount m.pubkey) c'

section Prepares

variable {c c' entered : InvokeContext} {given : List (Option IndexOfAccount)}
  {ic : InstructionContext}

theorem findIndexOfAccount_lt {tx : TransactionContext} {key : Pubkey} {index : IndexOfAccount}
    (h : tx.findIndexOfAccount key = some index) : index < tx.accounts.len := by
  obtain ⟨hlt, -⟩ := List.findIdx?_eq_some_iff_findIdx_eq.mp h
  rwa [TransactionAccounts.accountKeys, List.length_map] at hlt

/-- A prepared instruction has the given accounts, and they are accounts of the transaction. -/
theorem Prepares.prepared (h : Prepares c given c') :
    ∃ programIndex accounts data, Prepared c c' programIndex accounts data ∧
      (indicesOf accounts).map some = given ∧ accounts.length ≤ maxAccountsPerInstruction ∧
      ∀ index ∈ indicesOf accounts, index < c.transactionContext.accounts.len := by
  have hbound : maxAccountsPerInstruction ≤ noIndex := by decide
  cases h with
  | topLevel isSigner isWritable instruction programIndex hcount hindices h =>
      obtain ⟨accounts, heq, hprepared⟩ :=
        prepareNextTopLevelInstruction_prepared (hcount.trans hbound) h
      have hlen : accounts.length = instruction.accounts.length := by
        simpa [indicesOf] using congrArg List.length heq
      refine ⟨programIndex, accounts, _, hprepared, ?_, hlen.trans_le hcount, ?_⟩
      · rw [heq, List.map_map]
        rfl
      intro index hindex
      rw [heq] at hindex
      obtain ⟨byte, hbyte, rfl⟩ := List.mem_map.mp hindex
      exact hindices byte hbyte
  | invocation instruction signers hcount h =>
      obtain ⟨caller, programIndex, accounts, -, -, hfound, -, hprepared⟩ :=
        prepareNextInstruction_prepared (hcount.trans hbound) h
      have hlen : accounts.length = instruction.accounts.length := by
        simpa [indicesOf] using hfound.length_eq.symm
      refine ⟨programIndex, accounts, _, hprepared, ?_, hlen.trans_le hcount, ?_⟩
      · have hmap : List.Forall₂ (· = ·)
            (instruction.accounts.map fun m => c.transactionContext.findIndexOfAccount m.pubkey)
            ((indicesOf accounts).map some) :=
          List.forall₂_map_left_iff.mpr (List.forall₂_map_right_iff.mpr hfound)
        rw [List.forall₂_eq_eq_eq] at hmap
        exact hmap.symm
      intro index hindex
      obtain ⟨i, hi⟩ := List.getElem?_of_mem hindex
      obtain ⟨hlt, hget⟩ := List.getElem?_eq_some_iff.mp hi
      have hpair := List.Forall₂.get hfound (hfound.length_eq.symm ▸ hlt) hlt
      rw [List.get_eq_getElem, List.get_eq_getElem, hget] at hpair
      exact findIndexOfAccount_lt hpair

/-- An instruction that has been prepared and entered is well formed. -/
theorem Prepares.wellFormed (h : Prepares c given c') (hsynced : c.transactionContext.Synced)
    (hlen : c.transactionContext.accounts.len ≤ maxAccountsPerTransaction)
    (hpush : c'.push = (.ok (), entered))
    (hic : entered.transactionContext.getCurrentInstructionContext = .ok ic) : ic.WellFormed := by
  obtain ⟨programIndex, accounts, data, hprepared, -, hcount, hindices⟩ := h.prepared
  have hprogram := hprepared.program_lt (congrArg Prod.fst hpush)
  obtain ⟨-, hkeys, nestingLevel, hcurrent⟩ := hprepared.entered hsynced hpush
  rw [hcurrent] at hic
  cases hic
  have hsame : entered.transactionContext.accounts.len = c.transactionContext.accounts.len := by
    simpa [TransactionAccounts.accountKeys, TransactionAccounts.len] using
      congrArg List.length hkeys
  refine wellFormed_of_dedupMapOf hcount ?_ rfl ?_ ?_
  · exact hsame.trans_le hlen
  · intro index hindex
    exact (hindices index hindex).trans_eq hsame.symm
  · exact hprogram.trans_eq hsame.symm

end Prepares

/-! ## The questions that are asked about duplicates -/

/-- The instruction has the account at `index` in the transaction at position `i`. -/
def RefersTo (ic : InstructionContext) (i : Nat) (index : IndexOfAccount) : Prop :=
  ic.instructionAccounts[i]?.map InstructionAccount.indexInTransaction = some index

/-- Where the bytes of the entry at position `i` start in the parameter buffer. -/
def entryStart (ic : InstructionContext) (mode : MappingMode) (i : Nat) : Nat :=
  8 + (((entriesOf ic).take i).map (accountSize (isLoaderDeprecated ic) mode)).sum

/-- Every account is resolved to its first position. -/
structure ResolvesDuplicates (ic : InstructionContext) : Prop where
  first_iff : ∀ i index, RefersTo ic i index →
    (ic.isInstructionAccountDuplicate i = .ok none ↔ ∀ j < i, ¬ RefersTo ic j index)
  repeated : ∀ i index, RefersTo ic i index → (∃ j < i, RefersTo ic j index) →
    ∃ p < i, ic.isInstructionAccountDuplicate i = .ok (some p) ∧ RefersTo ic p index ∧
      (∀ j < p, ¬ RefersTo ic j index) ∧ ic.isInstructionAccountDuplicate p = .ok none

/-- The parameters treat every occurrence of an account alike. -/
structure SharesDuplicates (ic : InstructionContext) (mode : MappingMode)
    (params : SerializedParameters) : Prop where
  length : params.accountsMetadata.length = ic.instructionAccounts.length
  metadata : ∀ i p, ic.isInstructionAccountDuplicate i = .ok (some p) →
    ∃ metadata, params.accountsMetadata[i]? = some metadata ∧
      params.accountsMetadata[p]? = some metadata
  /-- The first byte of the entry. -/
  marker : ∀ i p, ic.isInstructionAccountDuplicate i = .ok (some p) →
    ∃ marker : UInt8, params.buffer.bytes[entryStart ic mode i]? = some marker ∧
      marker.toNat = p ∧ marker ≠ nonDupMarker
  /-- The sysvar is found if it is there, and any of its positions gives the same address. -/
  sysvar : ∀ i index, RefersTo ic i index →
    ic.transactionContext.accounts.accountKey index = some instructionsSysvarId →
    ∃ base index', sysvarVmDataAddr ic params.accountsMetadata = some base ∧
      ic.transactionContext.accounts.accountKey index' = some instructionsSysvarId ∧
      (∃ j, RefersTo ic j index') ∧
      (∀ j, RefersTo ic j index' →
        params.accountsMetadata[j]?.map SerializedAccountMetadata.vmDataAddr = some base) ∧
      (ic.transactionContext.accounts.accountKeys.Nodup → index' = index)

section WellFormed

variable {ic : InstructionContext} {i : Nat} {index : IndexOfAccount}

theorem RefersTo.exists_account (h : RefersTo ic i index) :
    ∃ a, ic.instructionAccounts[i]? = some a ∧ a.indexInTransaction = index :=
  Option.map_eq_some_iff.mp h

theorem RefersTo.first (h : RefersTo ic i index) : RefersTo ic (ic.firstPosition index) index := by
  obtain ⟨a, ha, rfl⟩ := h.exists_account
  obtain ⟨b, hb, hindex⟩ := InstructionContext.firstPosition_spec ha
  rw [RefersTo, hb, Option.map_some, hindex]

theorem RefersTo.first_le (h : RefersTo ic i index) : ic.firstPosition index ≤ i := by
  obtain ⟨a, ha, rfl⟩ := h.exists_account
  exact InstructionContext.firstPosition_le ha

theorem RefersTo.isInstructionAccountDuplicate_eq (hic : ic.GivesFirstPositions)
    (h : RefersTo ic i index) :
    ic.isInstructionAccountDuplicate i =
      .ok (if ic.firstPosition index = i then none else some (ic.firstPosition index)) := by
  obtain ⟨a, ha, rfl⟩ := h.exists_account
  exact hic.isInstructionAccountDuplicate_eq ha

/-- Nothing else is reported as a duplicate. -/
theorem refersTo_of_duplicate (hic : ic.GivesFirstPositions) {p : Nat}
    (h : ic.isInstructionAccountDuplicate i = .ok (some p)) :
    ∃ index, RefersTo ic i index ∧ p = ic.firstPosition index ∧ p < i := by
  obtain ⟨index, hindex, -⟩ := bind_eq_ok h
  have hrefers : RefersTo ic i index := by
    unfold InstructionContext.getIndexOfInstructionAccountInTransaction at hindex
    split at hindex
    · cases hindex
    · rename_i a ha
      cases hindex
      rw [RefersTo, ha, Option.map_some]
  rw [hrefers.isInstructionAccountDuplicate_eq hic] at h
  have hle := hrefers.first_le
  split at h
  · cases h
  · rename_i hne
    cases h
    exact ⟨index, hrefers, rfl, by omega⟩

theorem resolvesDuplicates (hic : ic.GivesFirstPositions) : ResolvesDuplicates ic := by
  have hfirst : ∀ i index, RefersTo ic i index →
      (ic.firstPosition index = i ↔ ∀ j < i, ¬ RefersTo ic j index) := by
    intro i index h
    have hle := h.first_le
    constructor
    · rintro rfl j hj hrefers
      exact Nat.not_lt.mpr hrefers.first_le hj
    · intro hnone
      by_contra hne
      exact hnone _ (by omega) h.first
  constructor
  · intro i index h
    rw [h.isInstructionAccountDuplicate_eq hic, ← hfirst i index h]
    simp
  · rintro i index h ⟨j, hj, hrefers⟩
    have hlt : ic.firstPosition index < i := hrefers.first_le.trans_lt hj
    have hself := hfirst _ _ h.first
    refine ⟨ic.firstPosition index, hlt, ?_, h.first, hself.mp rfl, ?_⟩
    · rw [h.isInstructionAccountDuplicate_eq hic, if_neg (Nat.ne_of_lt hlt)]
    · rw [h.first.isInstructionAccountDuplicate_eq hic, if_pos rfl]

theorem entryAt_of_duplicate (hic : ic.WellFormed) (h : RefersTo ic i index)
    (hlt : ic.firstPosition index < i) :
    (entriesOf ic)[i]? = some (.duplicate (ic.firstPosition index)) := by
  obtain ⟨a, ha, rfl⟩ := h.exists_account
  obtain ⟨hi, -⟩ := List.getElem?_eq_some_iff.mp ha
  obtain ⟨b, borrowed, hb, -, -, hcase⟩ := entryAt_cases hic hi
  rw [ha] at hb
  cases hb
  rcases hcase with ⟨hself, -⟩ | ⟨-, heq⟩
  · omega
  · rw [entriesOf_getElem? hi, heq]

/-- The metadata at a position is the metadata at the first position of the account. -/
theorem MetadataFor.at_first {metas : List SerializedAccountMetadata} (hic : ic.WellFormed)
    (hmetas : MetadataFor (entriesOf ic) metas) (h : RefersTo ic i index) :
    ∃ metadata, metas[i]? = some metadata ∧ metas[ic.firstPosition index]? = some metadata := by
  rcases h.first_le.lt_or_eq with hlt | heq
  · exact hmetas.duplicates i _ (entryAt_of_duplicate hic h hlt)
  · obtain ⟨a, ha, -⟩ := h.exists_account
    obtain ⟨hi, -⟩ := List.getElem?_eq_some_iff.mp ha
    have hlen : i < metas.length := by
      rw [hmetas.length]
      simpa [entriesOf] using hi
    refine ⟨_, List.getElem?_eq_getElem hlen, ?_⟩
    rw [heq]
    exact List.getElem?_eq_getElem hlen

/-- The bytes of an entry are where `entryStart` says. -/
theorem standsAt_entryStart {entry : SerializeAccount} (hentry : (entriesOf ic)[i]? = some entry)
    (mode : MappingMode) (instructionData : List UInt8) (programId : Pubkey) :
    StandsAt (inputBytes (isLoaderDeprecated ic) mode (entriesOf ic) instructionData programId)
      (entryStart ic mode i) (entryBytes (isLoaderDeprecated ic) mode entry) := by
  obtain ⟨hi, hget⟩ := List.getElem?_eq_some_iff.mp hentry
  have hsplit : entriesOf ic = (entriesOf ic).take i ++ (entry :: (entriesOf ic).drop (i + 1)) := by
    rw [← hget, ← List.drop_eq_getElem_cons hi, List.take_append_drop]
  refine ⟨leBytes 8 (entriesOf ic).length ++
    ((entriesOf ic).take i).flatMap (entryBytes (isLoaderDeprecated ic) mode),
    ((entriesOf ic).drop (i + 1)).flatMap (entryBytes (isLoaderDeprecated ic) mode) ++
      (leBytes 8 instructionData.length ++ (instructionData ++ programId.toList)), ?_, ?_⟩
  · rw [inputBytes]
    nth_rewrite 2 [hsplit]
    simp only [List.flatMap_append, List.flatMap_cons, List.append_assoc]
  · rw [List.length_append, length_leBytes, List.length_flatMap, entryStart]
    congr 2
    exact List.map_congr_left fun entry _ => length_entryBytes _ mode entry

theorem marker_of_duplicate (isLoaderV1 : Bool) (mode : MappingMode) (position : Nat) :
    ∃ rest, entryBytes isLoaderV1 mode (.duplicate position) = UInt8.ofNat position :: rest := by
  cases isLoaderV1 <;> exact ⟨_, rfl⟩

theorem sysvarVmDataAddr_shared {metas : List SerializedAccountMetadata} (hic : ic.WellFormed)
    (hmetas : MetadataFor (entriesOf ic) metas) (h : RefersTo ic i index)
    (hkey : ic.transactionContext.accounts.accountKey index = some instructionsSysvarId) :
    ∃ base index', sysvarVmDataAddr ic metas = some base ∧
      ic.transactionContext.accounts.accountKey index' = some instructionsSysvarId ∧
      (∃ j, RefersTo ic j index') ∧
      (∀ j, RefersTo ic j index' →
        metas[j]?.map SerializedAccountMetadata.vmDataAddr = some base) ∧
      (ic.transactionContext.accounts.accountKeys.Nodup → index' = index) := by
  obtain ⟨a, ha, rfl⟩ := h.exists_account
  -- The loop finds a position, perhaps of another account with the same key.
  obtain ⟨found, hfound⟩ : ∃ found,
      ic.instructionAccounts.findIdx? (ic.isSysvar) = some found := by
    rw [← Option.isSome_iff_exists, List.findIdx?_isSome, List.any_eq_true]
    exact ⟨a, List.mem_of_getElem? ha, beq_iff_eq.mpr hkey⟩
  obtain ⟨hlt, b, hb, hsysvar⟩ : ∃ hlt : found < ic.instructionAccounts.length, ∃ b,
      ic.instructionAccounts[found]? = some b ∧ ic.isSysvar b := by
    obtain ⟨hlt, htrue, -⟩ := List.findIdx?_eq_some_iff_getElem.mp hfound
    exact ⟨hlt, _, List.getElem?_eq_getElem hlt, htrue⟩
  have hkey' := beq_iff_eq.mp hsysvar
  have hrefers : RefersTo ic found b.indexInTransaction := by
    rw [RefersTo, hb, Option.map_some]
  obtain ⟨metadata, hmetadata, hatFirst⟩ := hmetas.at_first hic hrefers
  refine ⟨metadata.vmDataAddr, b.indexInTransaction, ?_, hkey', ⟨found, hrefers⟩, ?_, ?_⟩
  · rw [sysvarVmDataAddr_eq_find hic, hfound, Option.bind_some, hmetadata, Option.map_some]
  · intro j hj
    obtain ⟨other, hother, hotherFirst⟩ := hmetas.at_first hic hj
    rw [hatFirst] at hotherFirst
    cases hotherFirst
    rw [hother, Option.map_some]
  · intro hnodup
    obtain ⟨entry, hentry, hentryKey⟩ := Option.map_eq_some_iff.mp hkey'
    obtain ⟨entry', hentry', hentryKey'⟩ := Option.map_eq_some_iff.mp hkey
    exact key_injective hnodup (hentry.trans (congrArg some (Prod.ext hentryKey rfl)))
      (hentry'.trans (congrArg some (Prod.ext hentryKey' rfl)))

theorem serializeParameters_sharesDuplicates (hic : ic.WellFormed) (host : HostStorage)
    (mode : MappingMode) :
    ∃ params, serializeParameters host ic mode = .ok params ∧ SharesDuplicates ic mode params := by
  obtain ⟨params, hrun, hbytes, hmetas⟩ := serializeParameters_bytes hic host mode
  refine ⟨params, hrun, ?_, ?_, ?_, ?_⟩
  · rw [hmetas.length]
    simp [entriesOf]
  · intro i p hdup
    obtain ⟨index, hrefers, rfl, -⟩ := refersTo_of_duplicate hic.dedup hdup
    exact hmetas.at_first hic hrefers
  · intro i p hdup
    obtain ⟨index, hrefers, rfl, hlt⟩ := refersTo_of_duplicate hic.dedup hdup
    have hentry := entryAt_of_duplicate hic hrefers hlt
    obtain ⟨rest, hmarker⟩ := marker_of_duplicate (isLoaderDeprecated ic) mode
      (ic.firstPosition index)
    -- A position that is referred to is less than the number of accounts, at most 255.
    have hsmall : ic.firstPosition index < 255 := by
      obtain ⟨a, ha, -⟩ := hrefers.exists_account
      obtain ⟨hi, -⟩ := List.getElem?_eq_some_iff.mp ha
      have hcount := hic.count
      unfold maxAccountsPerInstruction at hcount
      omega
    have hvalue : (UInt8.ofNat (ic.firstPosition index)).toNat = ic.firstPosition index := by
      rw [UInt8.toNat_ofNat']
      exact Nat.mod_eq_of_lt (by omega)
    refine ⟨UInt8.ofNat (ic.firstPosition index), ?_, hvalue, ?_⟩
    · obtain ⟨front, tail, hsplit, hpos⟩ :=
        standsAt_entryStart hentry mode ic.instructionData (programKeyOf ic)
      rw [hbytes, hsplit, ← hpos, hmarker]
      simp
    · intro heq
      rw [heq] at hvalue
      have : nonDupMarker.toNat = 255 := rfl
      omega
  · intro i index hrefers hkey
    exact sysvarVmDataAddr_shared hic hmetas hrefers hkey

end WellFormed

/-- **Repeated accounts are resolved to their first position.**  Whichever way an instruction has
been prepared, it has the accounts that it was given, every question about its duplicates is answered
right, before it is entered and afterwards, and its parameters can be serialized in every mode. -/
theorem prepared_instruction_resolves_duplicates {c c' : InvokeContext}
    {given : List (Option IndexOfAccount)} (hprepares : Prepares c given c')
    (hsynced : c.transactionContext.Synced)
    (hlen : c.transactionContext.accounts.len ≤ maxAccountsPerTransaction) :
    (∃ next, c'.transactionContext.getNextInstructionContext = .ok next ∧
      (indicesOf next.instructionAccounts).map some = given ∧ ResolvesDuplicates next) ∧
    ∀ entered, c'.push = (.ok (), entered) →
      ∃ ic, entered.transactionContext.getCurrentInstructionContext = .ok ic ∧
        (indicesOf ic.instructionAccounts).map some = given ∧ ResolvesDuplicates ic ∧
        ∀ host mode, ∃ params, serializeParameters host ic mode = .ok params ∧
          SharesDuplicates ic mode params := by
  obtain ⟨programIndex, accounts, data, hprepared, hgiven, hcount, hindices⟩ := hprepares.prepared
  constructor
  · obtain ⟨nestingLevel, hnext⟩ := hprepared.next hsynced
    refine ⟨_, hnext, hgiven, resolvesDuplicates (givesFirstPositions_of_dedupMapOf rfl ?_)⟩
    intro index hindex
    exact (hindices index hindex).trans_le hlen
  · intro entered hpush
    obtain ⟨-, -, nestingLevel, hcurrent⟩ := hprepared.entered hsynced hpush
    have hwellFormed := hprepares.wellFormed hsynced hlen hpush hcurrent
    exact ⟨_, hcurrent, hgiven, resolvesDuplicates hwellFormed.dedup,
      serializeParameters_sharesDuplicates hwellFormed⟩

/-- A context with the accounts of the sample instruction, before anything is prepared. -/
def repeatedContext : InvokeContext :=
  InvokeContext.new sampleInstruction.transactionContext []
    { mapping := ⟨true, true⟩
      provideInstructionDataOffsetInVmR2 := true
      depleteCuMeterOnVmFailure := true
      increaseCpiAccountInfoLimit := true
      increaseTxAccountLockLimit := true } ⟨1400000, 32768⟩ ⟨8, 1000, 250⟩

def repeatedAccounts : CompiledInstruction := ⟨0, [1, 0, 1, 2], [7], by decide⟩

/-- The program invokes itself, with its own account around the sysvar. -/
def repeatedInvocation : Instruction :=
  { programId := Vector.replicate 32 1
    accounts := [⟨Vector.replicate 32 2, false, false⟩, ⟨instructionsSysvarId, false, false⟩,
      ⟨Vector.replicate 32 2, false, false⟩]
    data := [9] }

/-- An instruction that names the sysvar at positions 0 and 2, and one that it invokes, which names
another account at these positions. -/
theorem repeatedAccounts_resolves_duplicates :
    ∃ c' entered ic c'' entered' ic',
      repeatedContext.prepareNextTopLevelInstruction (fun _ => false) (fun _ => false)
        repeatedAccounts 0 = .ok c' ∧
      c'.push = (.ok (), entered) ∧
      entered.transactionContext.getCurrentInstructionContext = .ok ic ∧
      (indicesOf ic.instructionAccounts).map some = [some 1, some 0, some 1, some 2] ∧
      ic.isInstructionAccountDuplicate 2 = .ok (some 0) ∧ ResolvesDuplicates ic ∧
      entered.prepareNextInstruction repeatedInvocation [] = .ok c'' ∧
      c''.push = (.ok (), entered') ∧
      entered'.transactionContext.getCurrentInstructionContext = .ok ic' ∧
      (indicesOf ic'.instructionAccounts).map some = [some 2, some 1, some 2] ∧
      ic'.isInstructionAccountDuplicate 2 = .ok (some 0) ∧ ResolvesDuplicates ic' := by
  obtain ⟨c', c'', hprepare, hpush, hduplicate, hprepare', hpush', hduplicate'⟩ : ∃ c' c'',
      repeatedContext.prepareNextTopLevelInstruction (fun _ => false) (fun _ => false)
        repeatedAccounts 0 = .ok c' ∧ c'.push.1 = .ok () ∧
      (c'.push.2.transactionContext.getCurrentInstructionContext.bind fun ic =>
        ic.isInstructionAccountDuplicate 2) = .ok (some 0) ∧
      c'.push.2.prepareNextInstruction repeatedInvocation [] = .ok c'' ∧ c''.push.1 = .ok () ∧
      (c''.push.2.transactionContext.getCurrentInstructionContext.bind fun ic =>
        ic.isInstructionAccountDuplicate 2) = .ok (some 0) :=
    ⟨_, _, rfl, by decide +kernel, by decide +kernel, rfl, by decide +kernel, by decide +kernel⟩
  have hsynced : repeatedContext.transactionContext.Synced := TransactionContext.new_synced ..
  have hprepares : Prepares repeatedContext [some 1, some 0, some 1, some 2] c' :=
    .topLevel _ _ repeatedAccounts 0 (by decide +kernel) (by decide +kernel) hprepare
  obtain ⟨-, hentered⟩ :=
    prepared_instruction_resolves_duplicates hprepares hsynced (by decide +kernel)
  obtain ⟨ic, hcurrent, hgiven, hresolves, -⟩ := hentered c'.push.2 (Prod.ext hpush rfl)
  obtain ⟨_, _, _, hprepared, -⟩ := hprepares.prepared
  obtain ⟨hsynced', hkeys, -⟩ := hprepared.entered hsynced (Prod.ext hpush rfl)
  have hfound : (repeatedInvocation.accounts.map fun m =>
      c'.push.2.transactionContext.findIndexOfAccount m.pubkey) = [some 2, some 1, some 2] := by
    simp only [TransactionContext.findIndexOfAccount, hkeys]
    decide +kernel
  have hprepares' : Prepares c'.push.2 [some 2, some 1, some 2] c'' :=
    hfound ▸ .invocation repeatedInvocation [] (by decide +kernel) hprepare'
  have hlen' : c'.push.2.transactionContext.accounts.len ≤ maxAccountsPerTransaction := by
    have hsame := congrArg List.length hkeys
    rw [TransactionAccounts.accountKeys, List.length_map] at hsame
    rw [TransactionAccounts.len, hsame]
    decide +kernel
  obtain ⟨-, hentered'⟩ := prepared_instruction_resolves_duplicates hprepares' hsynced' hlen'
  obtain ⟨ic', hcurrent', hgiven', hresolves', -⟩ := hentered' c''.push.2 (Prod.ext hpush' rfl)
  rw [hcurrent] at hduplicate
  rw [hcurrent'] at hduplicate'
  exact ⟨c', _, ic, c'', _, ic', hprepare, Prod.ext hpush rfl, hcurrent, hgiven, hduplicate,
    hresolves, hprepare', Prod.ext hpush' rfl, hcurrent', hgiven', hduplicate', hresolves'⟩

end ProgramRuntime
end Gobble
