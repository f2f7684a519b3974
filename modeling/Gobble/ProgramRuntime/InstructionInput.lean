import Gobble.ProgramRuntime.InputLayout

/-!
# InstructionInput — the input of a program, from its instruction

`serialize_parameters` for an instruction whose deduplication map is right.  The accounts that are
collected are known in advance (`entriesOf`), so serialization succeeds in every
mode, and two runs in different modes show a program the same bytes at the same addresses.
-/

namespace Gobble
namespace Context

open Lib Sbpf Sdk

namespace InstructionContext

/-- The first position of a transaction account among the accounts of the instruction. -/
def firstPosition (ic : InstructionContext) (indexInTransaction : IndexOfAccount) : Nat :=
  ic.instructionAccounts.findIdx fun a => a.indexInTransaction == indexInTransaction

/-- The deduplication map gives the first position of every account. -/
def GivesFirstPositions (ic : InstructionContext) : Prop :=
  ∀ a ∈ ic.instructionAccounts,
    ic.dedupMap[a.indexInTransaction]? = some (ic.firstPosition a.indexInTransaction)

instance (ic : InstructionContext) : Decidable ic.GivesFirstPositions :=
  inferInstanceAs (Decidable (∀ a ∈ ic.instructionAccounts, _))

/-- An instruction as the runtime prepares it: every account is an account of the transaction, and
the deduplication map gives first positions. -/
@[mk_iff]
structure WellFormed (ic : InstructionContext) : Prop where
  count : ic.instructionAccounts.length ≤ maxAccountsPerInstruction
  index_lt : ∀ a ∈ ic.instructionAccounts,
    a.indexInTransaction < ic.transactionContext.accounts.len
  dedup : ic.GivesFirstPositions
  program_lt : ic.programAccountIndexInTx < ic.transactionContext.accounts.len
  program_ne : ic.programAccountIndexInTx ≠ noIndex

instance (ic : InstructionContext) : Decidable ic.WellFormed :=
  decidable_of_iff _ (wellFormed_iff ic).symm

variable {ic : InstructionContext} {i : Nat} {a : InstructionAccount}

theorem firstPosition_le (ha : ic.instructionAccounts[i]? = some a) :
    ic.firstPosition a.indexInTransaction ≤ i := by
  obtain ⟨hi, rfl⟩ := List.getElem?_eq_some_iff.mp ha
  by_contra hlt
  have := List.not_of_lt_findIdx (Nat.lt_of_not_le hlt)
  simp at this

/-- The account at the first position is the same transaction account. -/
theorem firstPosition_spec (ha : ic.instructionAccounts[i]? = some a) :
    ∃ b, ic.instructionAccounts[ic.firstPosition a.indexInTransaction]? = some b ∧
      b.indexInTransaction = a.indexInTransaction := by
  obtain ⟨hi, -⟩ := List.getElem?_eq_some_iff.mp ha
  have hle := firstPosition_le ha
  have hlt : ic.firstPosition a.indexInTransaction < ic.instructionAccounts.length := by omega
  refine ⟨_, List.getElem?_eq_getElem hlt, ?_⟩
  have hfound := @List.findIdx_getElem _ (fun b : InstructionAccount =>
    b.indexInTransaction == a.indexInTransaction) ic.instructionAccounts hlt
  exact eq_of_beq hfound

theorem GivesFirstPositions.isInstructionAccountDuplicate_eq (h : ic.GivesFirstPositions)
    (ha : ic.instructionAccounts[i]? = some a) :
    ic.isInstructionAccountDuplicate i =
      .ok (if ic.firstPosition a.indexInTransaction = i then none
        else some (ic.firstPosition a.indexInTransaction)) := by
  obtain ⟨hi, -⟩ := List.getElem?_eq_some_iff.mp ha
  have hle := firstPosition_le ha
  have hlt : ¬ ic.firstPosition a.indexInTransaction ≥ ic.instructionAccounts.length := by omega
  have hdedup := h a (List.mem_of_getElem? ha)
  simp only [isInstructionAccountDuplicate, getIndexOfInstructionAccountInTransaction, ha,
    getIndexOfAccountInInstruction, hdedup, hlt, if_false, bind, Except.bind]
  rfl

namespace WellFormed

theorem tryBorrowInstructionAccount_eq (h : ic.WellFormed)
    (ha : ic.instructionAccounts[i]? = some a) :
    ∃ borrowed, ic.tryBorrowInstructionAccount i = .ok borrowed ∧
      borrowed.instructionAccount = a ∧
      ic.transactionContext.accounts.accounts[a.indexInTransaction]? =
        some (borrowed.key, borrowed.account) := by
  have hlt := h.index_lt a (List.mem_of_getElem? ha)
  have hget := List.getElem?_eq_getElem hlt
  obtain ⟨⟨key, account⟩, hentry⟩ : ∃ entry,
      ic.transactionContext.accounts.accounts[a.indexInTransaction]? = some entry := ⟨_, hget⟩
  refine ⟨⟨a, key, account, ic.transactionContext.accounts.accountKey ic.programAccountIndexInTx⟩,
    ?_, rfl, hentry⟩
  simp only [tryBorrowInstructionAccount, ha, hentry]

theorem getNumberOfInstructionAccounts_eq (h : ic.WellFormed) :
    ic.getNumberOfInstructionAccounts = ic.instructionAccounts.length := by
  have := h.count
  unfold maxAccountsPerInstruction at this
  exact Nat.mod_eq_of_lt (by omega)

end WellFormed

end InstructionContext

end Context

namespace ProgramRuntime

open Lib Sbpf Sdk Context EffectTree

/-! ## The accounts that are collected -/

/-- The entry for the account at a position: borrowed at its first position, a reference to it
elsewhere. -/
def entryAt (ic : InstructionContext) (i : Nat) : SerializeAccount :=
  match ic.tryBorrowInstructionAccount i with
  | .ok borrowed =>
      if ic.firstPosition borrowed.getIndexInTransaction = i then .account i borrowed
      else .duplicate (ic.firstPosition borrowed.getIndexInTransaction)
  | .error _ => .duplicate i

def entriesOf (ic : InstructionContext) : List SerializeAccount :=
  (List.range ic.instructionAccounts.length).map (entryAt ic)

section Collect

variable {ic : InstructionContext}

theorem entryAt_cases (h : ic.WellFormed) {i : Nat} (hi : i < ic.instructionAccounts.length) :
    ∃ a borrowed, ic.instructionAccounts[i]? = some a ∧
      ic.tryBorrowInstructionAccount i = .ok borrowed ∧ borrowed.instructionAccount = a ∧
      (ic.firstPosition a.indexInTransaction = i ∧ entryAt ic i = .account i borrowed ∨
        ic.firstPosition a.indexInTransaction < i ∧
          entryAt ic i = .duplicate (ic.firstPosition a.indexInTransaction)) := by
  have ha := List.getElem?_eq_getElem hi
  obtain ⟨borrowed, hborrow, hinstr, -⟩ := h.tryBorrowInstructionAccount_eq ha
  have hindex : borrowed.getIndexInTransaction =
      (ic.instructionAccounts[i]).indexInTransaction := by
    rw [BorrowedInstructionAccount.getIndexInTransaction, hinstr]
  refine ⟨_, borrowed, ha, hborrow, hinstr, ?_⟩
  have hle := InstructionContext.firstPosition_le ha
  unfold entryAt
  simp only [hborrow, hindex]
  rcases Nat.eq_or_lt_of_le hle with heq | hlt
  · exact Or.inl ⟨heq, by rw [if_pos heq]⟩
  · exact Or.inr ⟨hlt, by rw [if_neg (by omega)]⟩

/-- An account that is borrowed earlier is not at its first position. -/
theorem collectAccounts_eq (h : ic.WellFormed) (k m : Nat)
    (hk : k + m ≤ ic.instructionAccounts.length) (borrowed : List IndexOfAccount)
    (hborrowed : ∀ t ∈ borrowed, ic.firstPosition t < k) :
    collectAccounts ic (List.range' k m) borrowed =
      .ok ((List.range' k m).map (entryAt ic)) := by
  induction m generalizing k borrowed with
  | zero => rfl
  | succ m ih =>
      obtain ⟨a, account, ha, hborrow, hinstr, hcase⟩ := entryAt_cases h (i := k) (by omega)
      have hindex : account.getIndexInTransaction = a.indexInTransaction := by
        rw [BorrowedInstructionAccount.getIndexInTransaction, hinstr]
      rw [List.range'_succ, List.map_cons, collectAccounts,
        h.dedup.isInstructionAccountDuplicate_eq ha]
      rcases hcase with ⟨hfirst, hentry⟩ | ⟨hfirst, hentry⟩
      · have hfresh : account.getIndexInTransaction ∉ borrowed := by
          intro hmem
          have := hborrowed _ hmem
          rw [hindex] at this
          omega
        have hrest := ih (k + 1) (by omega) (account.getIndexInTransaction :: borrowed) (by
          intro t ht
          rcases List.mem_cons.mp ht with rfl | ht
          · rw [hindex]
            omega
          · have := hborrowed t ht
            omega)
        simp only [hfirst, if_true, hborrow, hfresh, if_false, hrest, hentry]
        rfl
      · have hne : ¬ ic.firstPosition a.indexInTransaction = k := by omega
        have hrest := ih (k + 1) (by omega) borrowed (by
          intro t ht
          have := hborrowed t ht
          omega)
        simp only [hne, if_false, hrest, hentry]
        rfl

theorem entriesOf_getElem? {i : Nat} (hi : i < ic.instructionAccounts.length) :
    (entriesOf ic)[i]? = some (entryAt ic i) := by
  simp [entriesOf, hi]

/-- Only the first position of an account borrows it. -/
theorem firstPosition_of_account? {i : Nat} {borrowed : BorrowedInstructionAccount}
    (h : (entryAt ic i).account? = some borrowed) :
    ic.firstPosition borrowed.getIndexInTransaction = i := by
  unfold entryAt at h
  split at h
  · split at h
    · cases h
      assumption
    · cases h
  · cases h

theorem entriesOf_ok (h : ic.WellFormed) : EntriesOk (entriesOf ic) where
  duplicates := by
    intro i position hentry
    have hi : i < ic.instructionAccounts.length := by
      have := (List.getElem?_eq_some_iff.mp hentry).1
      simpa [entriesOf] using this
    rw [entriesOf_getElem? hi] at hentry
    obtain ⟨a, account, -, -, -, hcase⟩ := entryAt_cases h hi
    rcases hcase with ⟨-, heq⟩ | ⟨hlt, heq⟩
    · rw [heq] at hentry
      cases hentry
    · rw [heq] at hentry
      cases hentry
      exact hlt
  distinct := by
    rw [entriesOf, List.filterMap_map]
    refine List.Pairwise.filterMap _ ?_ List.pairwise_lt_range
    intro i j hij a ha b hb hsame
    have hi := firstPosition_of_account? ha
    have hj := firstPosition_of_account? hb
    rw [hsame] at hi
    omega

end Collect

/-! ## Sizes -/

/-- Bytes of account data and instruction data, every account counted once. -/
def inputLen (entries : List SerializeAccount) (instructionData : List UInt8) : Nat :=
  ((entries.filterMap SerializeAccount.account?).map fun a => a.getData.length).sum +
    instructionData.length

theorem accountSize_le (isLoaderV1 : Bool) (mode : MappingMode) (entry : SerializeAccount) :
    accountSize isLoaderV1 mode entry ≤
      10343 + ((entry.account?.toList).map fun a => a.getData.length).sum := by
  have hlt : ∀ n, alignOffset n < 8 := fun n => Nat.mod_lt _ (by decide)
  cases entry with
  | duplicate position =>
      cases isLoaderV1 <;> simp [accountSize, accountSizeUnaligned, accountSizeAligned] <;> omega
  | account index borrowed =>
      have := hlt borrowed.getData.length
      cases isLoaderV1 <;> cases hdirect : mode.isDirect <;>
        simp [accountSize, accountSizeUnaligned, accountSizeAligned, SerializeAccount.account?,
          hdirect, maxPermittedDataIncrease, bpfAlignOfU128] <;> omega

theorem parametersSize_le (isLoaderV1 : Bool) (mode : MappingMode)
    (entries : List SerializeAccount) (instructionData : List UInt8) :
    parametersSize isLoaderV1 mode entries instructionData ≤
      48 + 10343 * entries.length + inputLen entries instructionData := by
  have hsum : (entries.map (accountSize isLoaderV1 mode)).sum ≤ 10343 * entries.length +
      ((entries.filterMap SerializeAccount.account?).map fun a => a.getData.length).sum := by
    induction entries with
    | nil => simp
    | cons entry rest ih =>
        have hentry := accountSize_le isLoaderV1 mode entry
        rw [← List.singleton_append, List.filterMap_append, List.map_append, List.sum_append,
          List.map_append, List.sum_append, List.length_append]
        have hone : [entry].filterMap SerializeAccount.account? = entry.account?.toList := by
          cases h : entry.account? <;> simp [h]
        rw [hone]
        simp only [List.map_cons, List.map_nil, List.sum_cons, List.sum_nil, List.length_singleton]
        omega
  rw [parametersSize, foldl_add_eq_sum, inputLen]
  omega

/-! ## Serialization of an instruction -/

def programKeyOf (ic : InstructionContext) : Pubkey :=
  (ic.transactionContext.accounts.accountKey ic.programAccountIndexInTx).getD (Vector.replicate 32 0)

/-- The program is one of the deprecated loader, and takes its input in the unaligned format. -/
def isLoaderDeprecated (ic : InstructionContext) : Bool :=
  match ic.getProgramOwner with
  | .ok owner => owner == bpfLoaderDeprecatedId
  | .error _ => false

/-- The size of the buffer. -/
def inputSize (ic : InstructionContext) (mode : MappingMode) : Nat :=
  parametersSize (isLoaderDeprecated ic) mode (entriesOf ic) ic.instructionData

/-- The fields that the format writes, with the VM addresses they are written at: everything except
the accounts' data. -/
def fieldBytes (ic : InstructionContext) : List (Nat × List UInt8) :=
  ((serializeInput (isLoaderDeprecated ic) (entriesOf ic) ic.instructionData (programKeyOf ic)).run.run
    (imageHandler (isLoaderDeprecated ic) false) InputImage.start).2.chunks

/-- The host bytes of the data of a transaction account. -/
def HostStorage.dataBytes (host : HostStorage) (index : IndexOfAccount)
    (account : AccountSharedData) : Set Nat :=
  { a | (host.dataAddr index).toNat ≤ a ∧ a < (host.dataAddr index).toNat + account.data.length }

/-- Where the host keeps the accounts of a transaction, and a buffer beside them.  If the accounts'
own memory is mapped, no two of them overlap. -/
structure HostStorage.Keeps (host : HostStorage) (capacity : Nat) (isDirect : Bool)
    (accounts : TransactionAccounts) : Prop where
  buffer_fits : host.bufferAddr.toNat + capacity ≤ u64Max
  data_fits : isDirect = true → ∀ (i : Nat) entry, accounts.accounts[i]? = some entry →
    (host.dataAddr i).toNat + entry.2.data.length ≤ u64Max
  buffer_apart : ∀ (i : Nat) entry, accounts.accounts[i]? = some entry →
    Disjoint (host.bufferBytes 0 capacity) (host.dataBytes i entry.2)
  data_apart : isDirect = true → ∀ (i j : Nat) entry entry', accounts.accounts[i]? = some entry →
    accounts.accounts[j]? = some entry' → i ≠ j →
      Disjoint (host.dataBytes i entry.2) (host.dataBytes j entry'.2)

section Instruction

variable {ic : InstructionContext} {host : HostStorage} {mode : MappingMode}

/-- A borrowed account is the account of the transaction that its index points to. -/
theorem entriesOf_account (h : ic.WellFormed) {borrowed : BorrowedInstructionAccount}
    (hmem : borrowed ∈ (entriesOf ic).filterMap SerializeAccount.account?) :
    ic.transactionContext.accounts.accounts[borrowed.getIndexInTransaction]? =
      some (borrowed.key, borrowed.account) := by
  rcases List.mem_filterMap.mp hmem with ⟨entry, hentry, haccount⟩
  rcases List.mem_map.mp hentry with ⟨i, hi, rfl⟩
  obtain ⟨a, account, ha, hborrow, -, hcase⟩ := entryAt_cases h (List.mem_range.mp hi)
  rcases hcase with ⟨-, heq⟩ | ⟨-, heq⟩
  · rw [heq] at haccount
    cases haccount
    obtain ⟨account', hborrow', hinstr, hget⟩ := h.tryBorrowInstructionAccount_eq ha
    rw [hborrow] at hborrow'
    cases hborrow'
    rw [BorrowedInstructionAccount.getIndexInTransaction, hinstr]
    exact hget
  · rw [heq] at haccount
    cases haccount

theorem HostStorage.Keeps.separates {capacity : Nat} {isDirect : Bool} (h : ic.WellFormed)
    (hkeeps : host.Keeps capacity isDirect ic.transactionContext.accounts) :
    host.Separates capacity isDirect ((entriesOf ic).filterMap SerializeAccount.account?) where
  buffer_fits := hkeeps.buffer_fits
  data_fits := fun hdirect _ ha => hkeeps.data_fits hdirect _ _ (entriesOf_account h ha)
  buffer_apart := fun _ _ ha => hkeeps.buffer_apart _ _ (entriesOf_account h ha)
  data_apart := fun hdirect _ ha _ hb hne =>
    hkeeps.data_apart hdirect _ _ _ _ (entriesOf_account h ha) (entriesOf_account h hb) hne

/-- The owner of the program decides about the format. -/
theorem getProgramOwner_eq (h : ic.WellFormed) :
    ∃ owner, ic.getProgramOwner = .ok owner ∧
      isLoaderDeprecated ic = (owner == bpfLoaderDeprecatedId) := by
  have hentry := List.getElem?_eq_getElem h.program_lt
  obtain ⟨owner, howner⟩ : ∃ owner, ic.getProgramOwner = .ok owner := by
    refine ⟨(ic.transactionContext.accounts.accounts.get
      ⟨ic.programAccountIndexInTx, h.program_lt⟩).2.owner, ?_⟩
    simp only [InstructionContext.getProgramOwner,
      InstructionContext.getIndexOfProgramAccountInTransaction, h.program_ne, if_false, Bind.bind,
      Except.bind, TransactionAccounts.tryBorrow]
    rw [hentry]
    rfl
  refine ⟨owner, howner, ?_⟩
  simp [isLoaderDeprecated, howner]

theorem getProgramKey_eq (h : ic.WellFormed) : ic.getProgramKey = .ok (programKeyOf ic) := by
  have hentry := List.getElem?_eq_getElem h.program_lt
  simp only [InstructionContext.getProgramKey,
    InstructionContext.getIndexOfProgramAccountInTransaction, h.program_ne, if_false, Bind.bind,
    Except.bind, TransactionContext.getKeyOfAccountAtIndex, TransactionAccounts.accountKey,
    programKeyOf]
  rw [hentry]
  rfl

/-- In an instruction that is well formed, `serialize_parameters` serializes the entries. -/
theorem serializeParameters_eq (h : ic.WellFormed) :
    serializeParameters host ic mode =
      serializeParametersWith host (isLoaderDeprecated ic) mode (entriesOf ic) ic.instructionData
        (programKeyOf ic) := by
  have hcount := h.count
  have hnumber := h.getNumberOfInstructionAccounts_eq
  have hkey := getProgramKey_eq h
  obtain ⟨owner, howner, hloader⟩ := getProgramOwner_eq h
  have hcollect : collectAccounts ic (List.range ic.instructionAccounts.length) [] =
      .ok (entriesOf ic) := by
    rw [List.range_eq_range', collectAccounts_eq h 0 _ (by omega) [] (by simp), entriesOf,
      List.range_eq_range']
  have hnotMore : ¬ ic.instructionAccounts.length > maxAccountsPerInstruction := by omega
  simp only [serializeParameters, hnumber, hnotMore, if_false, hkey, howner, Outcome.lift, hloader,
    hcollect, Bind.bind, Except.bind]

/-- Serialization of an instruction whose data fits into memory. -/
theorem serializeParameters_spec (h : ic.WellFormed)
    (hlen : inputLen (entriesOf ic) ic.instructionData ≤ 2 ^ 62)
    (hkeeps : host.Keeps (inputSize ic mode) mode.isDirect ic.transactionContext.accounts) :
    ∃ params im, serializeParameters host ic mode = .ok params ∧
      (serializeInput (isLoaderDeprecated ic) (entriesOf ic) ic.instructionData
          (programKeyOf ic)).run.run (imageHandler (isLoaderDeprecated ic) mode.isDirect)
          InputImage.start =
        (.ok (params.accountsMetadata, params.instructionDataOffset), im) ∧
      InputOk (isLoaderDeprecated ic) mode (entriesOf ic) ic.instructionData params.accountsMetadata
        params.instructionDataOffset im ∧
      params.Shows host mode im := by
  have hcount := h.count
  have hsize := parametersSize_le (isLoaderDeprecated ic) MappingMode.contiguous (entriesOf ic)
    ic.instructionData
  have hsize' := parametersSize_le (isLoaderDeprecated ic) mode (entriesOf ic) ic.instructionData
  have hlength : (entriesOf ic).length = ic.instructionAccounts.length := by simp [entriesOf]
  have hstart : mmInputStart.toNat = 0x400000000 := rfl
  rw [serializeParameters_eq h]
  refine serializeParametersWith_spec host _ mode (entriesOf_ok h) _ _ (hkeeps.separates h) ?_
  unfold maxAccountsPerInstruction at hcount
  unfold u64Max
  omega

/-- A program that loads the byte at `v` gets `b`, from the buffer. -/
def SerializedParameters.Reads (params : SerializedParameters) (v : Nat) (b : UInt8) : Prop :=
  ∃ r ∈ params.regions, ∃ pos, r.MapsTo v (params.buffer.hostAddr.toNat + pos) ∧
    params.buffer.bytes[pos]? = some b

theorem SerializedParameters.Shows.reads {params : SerializedParameters} {im : InputImage}
    (h : params.Shows host mode im) {c : Nat × List UInt8} (hc : c ∈ im.chunks) {k : Nat}
    {b : UInt8} (hb : c.2[k]? = some b) : params.Reads (c.1 + k) b := by
  obtain ⟨hk, -⟩ := List.getElem?_eq_some_iff.mp hb
  rcases h.chunks c hc with ⟨pos, hholds, hmaps⟩
  rcases hmaps k hk with ⟨r, hr, hmap⟩
  refine ⟨r, hr, pos + k, ?_, ?_⟩
  · rw [h.buffer_addr, ← Nat.add_assoc]
    exact hmap
  · rw [hholds.getElem? hk, hb]

/-- A program with the instructions sysvar in its accounts, twice, and an account of its own that it
may write. -/
def sampleInstruction : InstructionContext :=
  { transactionContext := .new
      [(Vector.replicate 32 1,
          { lamports := 1, data := [], owner := bpfLoaderUpgradeableId, executable := true,
            rentEpoch := 0 }),
        (instructionsSysvarId,
          { lamports := 1, data := [1, 0, 4, 0, 9, 8, 0, 0], owner := sysvarId,
            executable := false, rentEpoch := 0 }),
        (Vector.replicate 32 2,
          { lamports := 300, data := [5, 6, 7], owner := Vector.replicate 32 1,
            executable := false, rentEpoch := 0 })] 5 64
    indexInTrace := 0
    nestingLevel := 0
    programAccountIndexInTx := 0
    instructionAccounts :=
      [⟨1, false, false⟩, ⟨0, false, false⟩, ⟨1, false, false⟩, ⟨2, false, true⟩]
    dedupMap := [1, 0, 3]
    instructionData := [7] }

def sampleHost : HostStorage :=
  { bufferAddr := 0x10000
    dataAddr := fun i => BitVec.ofNat 64 (0x1000000 * (i + 1))
    isShared := fun _ => false }

theorem sampleInstruction_wellFormed : sampleInstruction.WellFormed := by
  decide +kernel

theorem sampleHost_keeps (mode : MappingMode) :
    sampleHost.Keeps (inputSize sampleInstruction mode) mode.isDirect
      sampleInstruction.transactionContext.accounts := by
  have hsize : inputSize sampleInstruction mode ≤ 0x100000 := by
    rcases mode with ⟨_ | _, _ | _⟩ <;> decide +kernel
  have hbuffer : sampleHost.bufferAddr.toNat = 0x10000 := rfl
  -- The transaction has three accounts, with at most 8 bytes of data.
  have haccounts : ∀ (i : Nat) entry,
      sampleInstruction.transactionContext.accounts.accounts[i]? = some entry →
        i < 3 ∧ (sampleHost.dataAddr i).toNat = 0x1000000 * (i + 1) ∧
          entry.2.data.length ≤ 8 := by
    intro i entry hentry
    rcases i with _ | _ | _ | i
    · cases hentry
      exact ⟨by omega, rfl, Nat.zero_le _⟩
    · cases hentry
      exact ⟨by omega, rfl, Nat.le_refl 8⟩
    · cases hentry
      exact ⟨by omega, rfl, (by decide : 3 ≤ 8)⟩
    · cases hentry
  constructor
  · unfold u64Max
    omega
  · intro _ i entry hentry
    have hi := haccounts i entry hentry
    unfold u64Max
    omega
  · intro i entry hentry
    have hi := haccounts i entry hentry
    refine Set.disjoint_left.mpr ?_
    rintro a ⟨hlo, hhi⟩ ⟨hlo', hhi'⟩
    omega
  · intro _ i j entry entry' hentry hentry' hne
    have hi := haccounts i entry hentry
    have hj := haccounts j entry' hentry'
    refine Set.disjoint_left.mpr ?_
    rintro a ⟨hlo, hhi⟩ ⟨hlo', hhi'⟩
    omega

end Instruction

end ProgramRuntime
end Gobble
