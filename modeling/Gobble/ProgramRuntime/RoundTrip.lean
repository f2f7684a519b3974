import Gobble.ProgramRuntime.BufferBytes
import Gobble.ProgramRuntime.Deserialization

/-!
# RoundTrip — writing unmodified parameters back

The serializer appends fields, the deserializer adds up their sizes.  `Leaves` says that a part of the
deserializer returns a value and changes no account; it is shown for one field after the other, from
where the bytes of an entry stand in the buffer (`StandsAt`), then for one account and for the loop.
-/

namespace Gobble
namespace ProgramRuntime

open Lib Sbpf Sdk Context

/-! ## Setters that change nothing -/

section Setters

variable {borrowed : BorrowedInstructionAccount} {accounts : TransactionAccounts}

/-- Writing an account over itself. -/
theorem setAccount_self {index : IndexOfAccount} {key : Pubkey} {account : AccountSharedData}
    (h : accounts.accounts[index]? = some (key, account)) :
    accounts.setAccount index account = accounts := by
  have hmodify : accounts.accounts.modify index (fun entry => (entry.1, account)) =
      accounts.accounts := by
    refine List.ext_getElem? fun j => ?_
    rw [List.getElem?_modify]
    by_cases hj : index = j
    · subst hj
      rw [h]
      simp
    · simp [hj]
  rw [TransactionAccounts.setAccount, hmodify]

/-- The data of an account may be set to what it is, if the account may be changed at all. -/
theorem setDataFromSlice_self
    (hborrowed : accounts.accounts[borrowed.getIndexInTransaction]? =
      some (borrowed.key, borrowed.account))
    (hgrowth : accounts.WithinGrowth) (hlen : borrowed.getData.length ≤ maxAccountDataLen)
    (hchange : borrowed.canDataBeChanged = .ok ()) :
    borrowed.setDataFromSlice accounts borrowed.getData = .ok (borrowed, accounts) := by
  have hdelta : TransactionAccounts.lengthDelta borrowed.getData.length borrowed.getData.length =
      0 := by
    unfold TransactionAccounts.lengthDelta
    rw [Int.sub_self]
    rfl
  obtain ⟨hlo, hhi⟩ := hgrowth
  have hmax : (maxAccountDataGrowthPerTransaction : Int) ≤ i64Max := by decide
  have hclamp : clampI64 (accounts.resizeDelta + 0) = accounts.resizeDelta := by
    rw [Int.add_zero]
    exact clampI64_eq hlo (by omega)
  have hresize : accounts.canDataBeResized borrowed.getData.length borrowed.getData.length =
      .ok () := by
    rw [TransactionAccounts.canDataBeResized, if_neg (Nat.not_lt.mpr hlen), hdelta, hclamp,
      if_neg (by omega)]
  have hupdate : accounts.updateAccountsResizeDelta borrowed.getData.length
      borrowed.getData.length = accounts := by
    rw [TransactionAccounts.updateAccountsResizeDelta, hdelta, hclamp]
  have hsave : borrowed.save accounts { borrowed.account with data := borrowed.getData } =
      (borrowed, accounts) := by
    rw [BorrowedInstructionAccount.save]
    exact Prod.ext rfl (setAccount_self hborrowed)
  simp only [BorrowedInstructionAccount.setDataFromSlice,
    BorrowedInstructionAccount.canDataBeResized, ne_eq, not_true_eq_false, decide_false,
    Bool.false_and, Bool.false_eq_true, if_false, hresize, hchange, hupdate, hsave, Bind.bind,
    Except.bind]
  rfl

end Setters

/-! ## Deserializing without an effect -/

namespace DeserializeM

variable {α β : Type} {accounts : TransactionAccounts}

/-- The computation returns `a` and changes no account. -/
def Leaves (accounts : TransactionAccounts) (m : DeserializeM α) (a : α) : Prop :=
  m.run.run accounts = (.ok a, accounts)

theorem leaves_pure (a : α) : Leaves accounts (pure a) a :=
  rfl

theorem leaves_pure_of_eq {a b : α} (h : a = b) : Leaves accounts (pure a) b :=
  h ▸ leaves_pure a

theorem Leaves.bind {m : DeserializeM α} {f : α → DeserializeM β} {a : α} {b : β}
    (hm : Leaves accounts m a) (hf : Leaves accounts (f a) b) : Leaves accounts (m >>= f) b := by
  unfold Leaves at hm hf ⊢
  simp only [ExceptT.run_bind, StateT.run_bind]
  rw [hm]
  exact hf

theorem leaves_lift {x : Except InstructionError α} {a : α} (h : x = .ok a) :
    Leaves accounts (lift x) a := by
  subst h
  rfl

theorem leaves_getBytes {buffer part : List UInt8} {start : Nat}
    (h : StandsAt buffer start part) {len : Nat} (hlen : part.length = len) :
    Leaves accounts (getBytes buffer start len) part := by
  subst hlen
  unfold getBytes
  rw [if_pos h.fits, h.take_drop]
  rfl

theorem leaves_getU64 {buffer : List UInt8} {start n : Nat} (h : StandsAt buffer start (leBytes 8 n))
    (hn : n < 2 ^ 64) : Leaves accounts (getU64 buffer start) (BitVec.ofNat 64 n) := by
  have hvalue : leNat (leBytes 8 n) = n := leNat_leBytes_of_lt (by simpa using hn)
  have hpure : Leaves accounts (pure (BitVec.ofNat 64 (leNat (leBytes 8 n))) : DeserializeM U64)
      (BitVec.ofNat 64 n) := by
    rw [hvalue]
    exact leaves_pure _
  exact (leaves_getBytes h (length_leBytes 8 n)).bind hpure

theorem leaves_update {setter : TransactionAccounts → BorrowedInstructionAccount.Updated}
    {borrowed : BorrowedInstructionAccount} (h : setter accounts = .ok (borrowed, accounts)) :
    Leaves accounts (update setter) borrowed := by
  change ((lift (setter accounts) : DeserializeM _) >>= fun r => do
    set r.2; return r.1).run.run accounts = _
  rw [h]
  rfl

end DeserializeM

open DeserializeM

/-! ## Fields -/

section Fields

variable {accounts : TransactionAccounts} {borrowed : BorrowedInstructionAccount}
  {buffer : List UInt8} {start : Nat}

theorem deserializeLamports_leaves
    (h : StandsAt buffer start (leBytes 8 borrowed.getLamports.toNat)) :
    Leaves accounts (deserializeLamports buffer start borrowed) borrowed := by
  refine (leaves_getU64 h borrowed.getLamports.isLt).bind ?_
  rw [BitVec.ofNat_toNat, BitVec.setWidth_eq, if_neg (by simp)]
  exact leaves_pure _

/-- The data of an account, wherever the mode has put it. -/
theorem deserializeData_leaves {mode : MappingMode}
    (hborrowed : accounts.accounts[borrowed.getIndexInTransaction]? =
      some (borrowed.key, borrowed.account))
    (hgrowth : accounts.WithinGrowth) (hlen : borrowed.getData.length ≤ maxAccountDataLen)
    (hdata : mode.isDirect = false → StandsAt buffer start borrowed.getData) :
    Leaves accounts (deserializeData mode buffer start borrowed.getData.length borrowed)
      borrowed := by
  unfold deserializeData
  cases hstricter : mode.stricterAbiAndRuntimeConstraints with
  | false =>
      have hstands := hdata (by simp [MappingMode.isDirect, hstricter])
      rw [Bool.not_false, if_pos rfl]
      refine (leaves_getBytes hstands rfl).bind ?_
      refine Leaves.bind (a := accounts) rfl ?_
      cases hresize : borrowed.canDataBeResized accounts borrowed.getData.length with
      | error err =>
          dsimp only
          rw [if_neg (by simp)]
          exact leaves_pure _
      | ok _ =>
          have hchange := (BorrowedInstructionAccount.canDataBeResized_ok hresize).2
          exact leaves_update (setDataFromSlice_self hborrowed hgrowth hlen hchange)
  | true =>
      rw [Bool.not_true, if_neg Bool.false_ne_true]
      cases hmapping : mode.accountDataDirectMapping with
      | true =>
          rw [Bool.not_true, Bool.false_and, if_neg Bool.false_ne_true, if_neg (by simp)]
          exact leaves_pure _
      | false =>
          cases hchange : borrowed.canDataBeChanged with
          | error err =>
              rw [if_neg (by simp [Except.isOk, Except.toBool]), if_neg (by simp)]
              exact leaves_pure _
          | ok _ =>
              have hstands := hdata (by simp [MappingMode.isDirect, hmapping])
              rw [if_pos (by simp [Except.isOk, Except.toBool])]
              refine (leaves_getBytes hstands rfl).bind ?_
              exact leaves_update (setDataFromSlice_self hborrowed hgrowth hlen hchange)

end Fields

/-! ## One account -/

section Account

variable {ic : InstructionContext} {mode : MappingMode} {buffer : List UInt8} {start i : Nat}

/-- What is assumed about the accounts of the instruction. -/
structure Returnable (ic : InstructionContext) : Prop where
  wellFormed : ic.WellFormed
  growth : ic.transactionContext.accounts.WithinGrowth
  dataLen : ∀ a ∈ ic.instructionAccounts, ∀ entry,
    ic.transactionContext.accounts.accounts[a.indexInTransaction]? = some entry →
      entry.2.data.length ≤ maxAccountDataLen

/-- The first position of an account: it is not a duplicate, and it is borrowed as it is. -/
structure AtFirst (ic : InstructionContext) (i : Nat) (borrowed : BorrowedInstructionAccount) :
    Prop where
  entry : entryAt ic i = .account i borrowed
  duplicate : ic.isInstructionAccountDuplicate i = .ok none
  borrow : ic.tryBorrowInstructionAccount i = .ok borrowed
  get : ic.transactionContext.accounts.accounts[borrowed.getIndexInTransaction]? =
    some (borrowed.key, borrowed.account)
  dataLen : borrowed.getData.length ≤ maxAccountDataLen

theorem Returnable.entry_cases (h : Returnable ic) (hi : i < ic.instructionAccounts.length) :
    (∃ borrowed, AtFirst ic i borrowed) ∨
      ∃ position, entryAt ic i = .duplicate position ∧
        ic.isInstructionAccountDuplicate i = .ok (some position) := by
  obtain ⟨a, borrowed, ha, hborrow, hinstr, hcase⟩ := entryAt_cases h.wellFormed hi
  have hduplicate := InstructionContext.GivesFirstPositions.isInstructionAccountDuplicate_eq
    h.wellFormed.dedup ha
  rcases hcase with ⟨hfirst, hentry⟩ | ⟨hlt, hentry⟩
  · rw [if_pos hfirst] at hduplicate
    obtain ⟨borrowed', hborrow', -, hget⟩ := h.wellFormed.tryBorrowInstructionAccount_eq ha
    rw [hborrow] at hborrow'
    cases hborrow'
    have hlen := h.dataLen a (List.mem_of_getElem? ha) _ hget
    subst hinstr
    exact Or.inl ⟨borrowed, hentry, hduplicate, hborrow, hget, hlen⟩
  · rw [if_neg (Nat.ne_of_lt hlt)] at hduplicate
    exact Or.inr ⟨_, hentry, hduplicate⟩

theorem AtFirst.borrow_leaves {borrowed : BorrowedInstructionAccount} (h : AtFirst ic i borrowed) :
    Leaves ic.transactionContext.accounts (DeserializeM.borrow ic i) borrowed :=
  Leaves.bind (a := ic.transactionContext.accounts) rfl (leaves_lift h.borrow)

/-- The bytes of the data come first among those that `write_account` has put into the buffer. -/
theorem standsAt_data {isLoaderV1 : Bool} {borrowed : BorrowedInstructionAccount}
    {rest : List UInt8} (h : StandsAt buffer start (dataBytes isLoaderV1 mode borrowed ++ rest))
    (hdirect : mode.isDirect = false) : StandsAt buffer start borrowed.getData := by
  rw [dataBytes, hdirect, if_neg Bool.false_ne_true] at h
  exact h.left.left

/-- A step of the deserializer reads an account as the serializer has written it, and goes on at the
next one. -/
def ReadsBack (ic : InstructionContext) (isLoaderV1 : Bool) (mode : MappingMode)
    (buffer : List UInt8) (step : Nat → IndexOfAccount × Nat → DeserializeM Nat) : Prop :=
  ∀ i start preLen : Nat, i < ic.instructionAccounts.length →
    (∀ borrowed, AtFirst ic i borrowed → preLen = borrowed.getData.length) →
    StandsAt buffer start (entryBytes isLoaderV1 mode (entryAt ic i)) →
      Leaves ic.transactionContext.accounts (step start (i, preLen))
        (start + accountSize isLoaderV1 mode (entryAt ic i))

theorem deserializeAccountUnaligned_readsBack (h : Returnable ic) :
    ReadsBack ic true mode buffer (deserializeAccountUnaligned ic mode buffer) := by
  intro i start preLen hi hpreLen hstands
  rcases h.entry_cases hi with ⟨borrowed, hfirst⟩ | ⟨position, hentry, hduplicate⟩
  · rw [hpreLen borrowed hfirst]
    rw [hfirst.entry] at hstands ⊢
    have hkey : StandsAt buffer (start + 3) _ := hstands.right rfl
    have hlamports := hkey.right Vector.length_toList
    have hdata := (hlamports.right (length_leBytes ..)).right (length_leBytes ..)
    refine (leaves_lift hfirst.duplicate).bind ?_
    refine hfirst.borrow_leaves.bind ?_
    refine (deserializeLamports_leaves hlamports.left).bind ?_
    refine (deserializeData_leaves hfirst.get h.growth hfirst.dataLen (standsAt_data hdata)).bind ?_
    apply leaves_pure_of_eq
    cases hdirect : mode.isDirect with
    | true => simp [accountSize, accountSizeUnaligned, hdirect]
    | false =>
        simp only [accountSize, accountSizeUnaligned, hdirect, if_true, Bool.not_false,
          Bool.false_eq_true, if_false]
        omega
  · rw [hentry]
    exact (leaves_lift hduplicate).bind (leaves_pure _)

theorem deserializeAccountAligned_readsBack (h : Returnable ic) :
    ReadsBack ic false mode buffer (deserializeAccountAligned ic mode buffer) := by
  intro i start preLen hi hpreLen hstands
  rcases h.entry_cases hi with ⟨borrowed, hfirst⟩ | ⟨position, hentry, hduplicate⟩
  · rw [hpreLen borrowed hfirst]
    rw [hfirst.entry] at hstands ⊢
    have hkey : StandsAt buffer (start + 8) _ := hstands.right rfl
    have howner := hkey.right Vector.length_toList
    have hlamports := howner.right Vector.length_toList
    have hpostLen := hlamports.right (length_leBytes ..)
    have hdata := hpostLen.right (length_leBytes ..)
    have hdataLen := hfirst.dataLen
    have hmax : maxAccountDataLen = 10485760 := rfl
    refine (leaves_lift hfirst.duplicate).bind ?_
    refine hfirst.borrow_leaves.bind ?_
    refine (leaves_getBytes howner.left (Vector.length_toList)).bind ?_
    refine (deserializeLamports_leaves hlamports.left).bind ?_
    refine (leaves_getU64 hpostLen.left (by omega)).bind ?_
    -- The length that is read is the present one, so that nothing is reallocated.
    have hsame : (BitVec.ofNat 64 borrowed.getData.length).toNat = borrowed.getData.length := by
      rw [BitVec.toNat_ofNat, Nat.mod_eq_of_lt (by omega)]
    dsimp only
    rw [hsame, if_neg (by simp [maxPermittedDataLength]; omega)]
    refine (deserializeData_leaves hfirst.get h.growth hfirst.dataLen (standsAt_data hdata)).bind ?_
    rw [pubkeyOfBytes_toList, if_neg (by simp)]
    apply leaves_pure_of_eq
    cases hdirect : mode.isDirect <;>
      simp [accountSize, accountSizeAligned, hdirect] <;> omega
  · rw [hentry]
    exact (leaves_lift hduplicate).bind (leaves_pure _)

/-! ## All accounts -/

/-- The loop over the accounts from position `k` on. -/
theorem ReadsBack.foldlM_leaves {isLoaderV1 : Bool}
    {step : Nat → IndexOfAccount × Nat → DeserializeM Nat}
    (hstep : ReadsBack ic isLoaderV1 mode buffer step) {metas : List SerializedAccountMetadata}
    (hmetas : MetadataFor (entriesOf ic) metas) (m k start : Nat)
    (hlen : k + m = ic.instructionAccounts.length)
    (hstands : StandsAt buffer start
      (((List.range' k m).map (entryAt ic)).flatMap (entryBytes isLoaderV1 mode))) :
    ∃ stop, Leaves ic.transactionContext.accounts
      (((List.range' k m).zip
        ((metas.map SerializedAccountMetadata.originalDataLen).drop k)).foldlM step start) stop := by
  induction m generalizing k start with
  | zero => exact ⟨start, leaves_pure start⟩
  | succ m ih =>
      have hk : k < ic.instructionAccounts.length := by omega
      have hmetaLen : metas.length = ic.instructionAccounts.length := by
        rw [hmetas.length]
        simp [entriesOf]
      have hlt : k < (metas.map SerializedAccountMetadata.originalDataLen).length := by
        rw [List.length_map]
        omega
      rw [List.range'_succ, List.map_cons, List.flatMap_cons] at hstands
      have hpreLen : ∀ borrowed, AtFirst ic k borrowed →
          (metas.map SerializedAccountMetadata.originalDataLen)[k] = borrowed.getData.length := by
        intro borrowed hfirst
        obtain ⟨metadata, hmetadata, horiginal⟩ := hmetas.accounts k k borrowed
          ((entriesOf_getElem? hk).trans (congrArg some hfirst.entry))
        rw [List.getElem_map, ← horiginal]
        exact congrArg _ (List.getElem_eq_iff _ |>.mpr hmetadata)
      have hfirst := hstep k start _ hk hpreLen hstands.left
      obtain ⟨stop, hrest⟩ := ih (k + 1) _ (by omega) (hstands.right (length_entryBytes ..))
      refine ⟨stop, ?_⟩
      rw [List.range'_succ, List.drop_eq_getElem_cons hlt, List.zip_cons_cons, List.foldlM_cons]
      exact hfirst.bind hrest

end Account

/-- **An execution that changes nothing writes nothing back.**  From the buffer and the metadata that
`serialize_parameters` returns, `deserialize_parameters` succeeds in either format and every mode, and
leaves all accounts of the transaction as they are. -/
theorem deserializeParameters_serializeParameters (ic : InstructionContext) (h : ic.WellFormed)
    (hdata : ∀ a ∈ ic.instructionAccounts, ∀ entry,
      ic.transactionContext.accounts.accounts[a.indexInTransaction]? = some entry →
        entry.2.data.length ≤ maxAccountDataLen)
    (hgrowth : ic.transactionContext.accounts.WithinGrowth) (mode : MappingMode)
    (host : HostStorage) :
    ∃ params, serializeParameters host ic mode = .ok params ∧
      (deserializeParameters ic mode params.buffer.bytes params.accountsMetadata).run.run
        ic.transactionContext.accounts = (.ok (), ic.transactionContext.accounts) := by
  have hreturnable : Returnable ic := ⟨h, hgrowth, hdata⟩
  obtain ⟨params, hrun, hbytes, hmetas⟩ := serializeParameters_bytes h host mode
  refine ⟨params, hrun, ?_⟩
  change Leaves _ _ _
  -- The entries stand behind their number.
  have hwhole : StandsAt params.buffer.bytes 0 (inputBytes (isLoaderDeprecated ic) mode
      (entriesOf ic) ic.instructionData (programKeyOf ic)) :=
    ⟨[], [], by rw [hbytes, List.append_nil, List.nil_append], rfl⟩
  have hstands := (hwhole.right (length_leBytes ..)).left
  rw [entriesOf, List.range_eq_range'] at hstands
  obtain ⟨owner, howner, hloader⟩ := getProgramOwner_eq h
  refine (leaves_lift howner).bind ?_
  rw [h.getNumberOfInstructionAccounts_eq, List.range_eq_range', ← hloader]
  cases hformat : isLoaderDeprecated ic with
  | true =>
      rw [hformat] at hstands
      obtain ⟨stop, hloop⟩ := (deserializeAccountUnaligned_readsBack hreturnable).foldlM_leaves
        hmetas _ 0 _ (Nat.zero_add _) hstands
      exact hloop.bind (leaves_pure ())
  | false =>
      rw [hformat] at hstands
      obtain ⟨stop, hloop⟩ := (deserializeAccountAligned_readsBack hreturnable).foldlM_leaves
        hmetas _ 0 _ (Nat.zero_add _) hstands
      exact hloop.bind (leaves_pure ())

theorem sampleInstruction_round_trip :
    ∃ params, serializeParameters sampleHost sampleInstruction ⟨false, false⟩ = .ok params ∧
      (deserializeParameters sampleInstruction ⟨false, false⟩ params.buffer.bytes
        params.accountsMetadata).run.run sampleInstruction.transactionContext.accounts =
          (.ok (), sampleInstruction.transactionContext.accounts) := by
  have hsmall : ∀ entry ∈ sampleInstruction.transactionContext.accounts.accounts,
      entry.2.data.length ≤ maxAccountDataLen := by
    decide +kernel
  exact deserializeParameters_serializeParameters sampleInstruction sampleInstruction_wellFormed
    (fun _ _ entry hentry => hsmall entry (List.mem_of_getElem? hentry))
    (TransactionAccounts.new_withinGrowth _) _ _

end ProgramRuntime
end Gobble
