import Gobble.Context.BorrowedAccount
import Gobble.ProgramRuntime.Serialization

/-!
# Deserialization — writing the parameters of a program back

Model of the deserializing half of `program-runtime/src/serialization.rs`.  The two formats differ
in where the fields of an account stand and in which of them a program may change.  An account that
has been written stays written when a later one is refused.
-/

namespace Gobble
namespace ProgramRuntime

open Lib Sbpf Sdk Context

def maxPermittedDataLength : Nat := 10 * 1024 * 1024

/-- The state is the accounts of the transaction. -/
abbrev DeserializeM := ExceptT InstructionError (StateM TransactionAccounts)

namespace DeserializeM

def lift {α : Type} : Except InstructionError α → DeserializeM α
  | .ok a => pure a
  | .error err => throw err

/-- `buffer.get(start..start + len)`. -/
def getBytes (buffer : List UInt8) (start len : Nat) : DeserializeM (List UInt8) :=
  if start + len ≤ buffer.length then return (buffer.drop start).take len
  else throw .invalidArgument

def getU64 (buffer : List UInt8) (start : Nat) : DeserializeM U64 := do
  return BitVec.ofNat 64 (leNat (← getBytes buffer start 8))

/-- Borrow an account of the instruction in its present state. -/
def borrow (ic : InstructionContext) (index : IndexOfAccount) :
    DeserializeM BorrowedInstructionAccount := do
  let accounts ← get
  lift ({ ic with
    transactionContext := { ic.transactionContext with accounts } }.tryBorrowInstructionAccount
      index)

/-- Call a setter of a borrowed account. -/
def update (setter : TransactionAccounts → BorrowedInstructionAccount.Updated) :
    DeserializeM BorrowedInstructionAccount := do
  let (borrowed, accounts) ← lift (setter (← get))
  set accounts
  return borrowed

end DeserializeM

open DeserializeM

/-- The data of an account, from `len` bytes of the buffer or, with direct mapping, only its
length. -/
def deserializeData (mode : MappingMode) (buffer : List UInt8) (start len : Nat)
    (borrowed : BorrowedInstructionAccount) : DeserializeM BorrowedInstructionAccount := do
  if !mode.stricterAbiAndRuntimeConstraints then
    let data ← getBytes buffer start len
    match borrowed.canDataBeResized (← get) len with
    | .ok _ => update fun accounts => borrowed.setDataFromSlice accounts data
    | .error err => if borrowed.getData ≠ data then throw err else return borrowed
  else if !mode.accountDataDirectMapping && borrowed.canDataBeChanged.isOk then
    let data ← getBytes buffer start len
    update fun accounts => borrowed.setDataFromSlice accounts data
  else if borrowed.getData.length ≠ len then
    update fun accounts => borrowed.setDataLength accounts len
  else
    return borrowed

def deserializeLamports (buffer : List UInt8) (start : Nat)
    (borrowed : BorrowedInstructionAccount) : DeserializeM BorrowedInstructionAccount := do
  let lamports ← getU64 buffer start
  if borrowed.getLamports ≠ lamports then
    update fun accounts => borrowed.setLamports accounts lamports
  else
    return borrowed

/-- One account of the unaligned format; the answer is where the next one starts. -/
def deserializeAccountUnaligned (ic : InstructionContext) (mode : MappingMode)
    (buffer : List UInt8) (start : Nat) (account : IndexOfAccount × Nat) : DeserializeM Nat := do
  let (index, preLen) := account
  let start := start + 1
  match ← lift (ic.isInstructionAccountDuplicate index) with
  | some _ => return start
  | none =>
      let borrowed ← borrow ic index
      let start := start + 1 + 1 + 32
      let borrowed ← deserializeLamports buffer start borrowed
      let start := start + 8 + 8
      let _ ← deserializeData mode buffer start preLen borrowed
      let start := if mode.isDirect then start else start + preLen
      return start + 32 + 1 + 8

/-- One account of the aligned format. -/
def deserializeAccountAligned (ic : InstructionContext) (mode : MappingMode)
    (buffer : List UInt8) (start : Nat) (account : IndexOfAccount × Nat) : DeserializeM Nat := do
  let (index, preLen) := account
  let start := start + 1
  match ← lift (ic.isInstructionAccountDuplicate index) with
  | some _ => return start + 7
  | none =>
      let borrowed ← borrow ic index
      let start := start + 1 + 1 + 1 + 4 + 32
      let owner := pubkeyOfBytes (← getBytes buffer start 32)
      let start := start + 32
      let borrowed ← deserializeLamports buffer start borrowed
      let start := start + 8
      let postLen := (← getU64 buffer start).toNat
      let start := start + 8
      if postLen - preLen > maxPermittedDataIncrease || postLen > maxPermittedDataLength then
        throw .invalidRealloc
      let borrowed ← deserializeData mode buffer start postLen borrowed
      let start :=
        if mode.isDirect then start + bpfAlignOfU128
        else start + (preLen + maxPermittedDataIncrease + alignOffset preLen)
      -- Change the owner at the end so that the lamports and data can be changed before.
      if borrowed.getOwner ≠ owner then
        let _ ← update fun accounts => borrowed.setOwner accounts owner
      return start + 8

def deserializeParameters (ic : InstructionContext) (mode : MappingMode) (buffer : List UInt8)
    (accountsMetadata : List SerializedAccountMetadata) : DeserializeM Unit := do
  let isLoaderDeprecated := (← lift ic.getProgramOwner) == bpfLoaderDeprecatedId
  let accounts := (List.range ic.getNumberOfInstructionAccounts).zip
    (accountsMetadata.map SerializedAccountMetadata.originalDataLen)
  if isLoaderDeprecated then
    let _ ← accounts.foldlM (deserializeAccountUnaligned ic mode buffer) 8
  else
    let _ ← accounts.foldlM (deserializeAccountAligned ic mode buffer) 8

/-! ## Keys -/

namespace DeserializeM

variable {α β : Type}

/-- No key of an account changes, whether the computation succeeds or fails. -/
structure KeepsKeys (m : DeserializeM α) : Prop where
  keys : ∀ accounts, (m.run.run accounts).2.accountKeys = accounts.accountKeys

theorem keepsKeys_pure (a : α) : KeepsKeys (pure a) :=
  ⟨fun _ => rfl⟩

theorem keepsKeys_throw (err : InstructionError) : KeepsKeys (throw err : DeserializeM α) :=
  ⟨fun _ => rfl⟩

theorem keepsKeys_get : KeepsKeys (get : DeserializeM TransactionAccounts) :=
  ⟨fun _ => rfl⟩

theorem KeepsKeys.bind {m : DeserializeM α} {f : α → DeserializeM β} (hm : KeepsKeys m)
    (hf : ∀ a, KeepsKeys (f a)) : KeepsKeys (m >>= f) := by
  constructor
  intro accounts
  have hkeys := hm.keys accounts
  simp only [ExceptT.run_bind, StateT.run_bind]
  generalize m.run.run accounts = r at hkeys ⊢
  rcases r with ⟨_ | a, accounts'⟩
  · exact hkeys
  · exact ((hf a).keys accounts').trans hkeys

theorem keepsKeys_lift (x : Except InstructionError α) : KeepsKeys (lift x) := by
  cases x with
  | ok a => exact keepsKeys_pure a
  | error err => exact keepsKeys_throw err

theorem keepsKeys_getBytes (buffer : List UInt8) (start len : Nat) :
    KeepsKeys (getBytes buffer start len) := by
  unfold getBytes
  split
  · exact keepsKeys_pure _
  · exact keepsKeys_throw _

theorem keepsKeys_getU64 (buffer : List UInt8) (start : Nat) : KeepsKeys (getU64 buffer start) :=
  (keepsKeys_getBytes ..).bind fun _ => keepsKeys_pure _

theorem keepsKeys_borrow (ic : InstructionContext) (index : IndexOfAccount) :
    KeepsKeys (borrow ic index) :=
  keepsKeys_get.bind fun _ => keepsKeys_lift _

theorem keepsKeys_update {setter : TransactionAccounts → BorrowedInstructionAccount.Updated}
    (h : ∀ accounts, BorrowedInstructionAccount.KeepsKeys accounts (setter accounts)) :
    KeepsKeys (update setter) := by
  constructor
  intro accounts
  have hset := h accounts
  change (((lift (setter accounts) : DeserializeM _) >>= fun r => do
    set r.2; return r.1).run.run accounts).2.accountKeys = _
  generalize setter accounts = updated at hset ⊢
  cases updated with
  | error err => rfl
  | ok r => exact hset

theorem keepsKeys_foldlM {f : β → α → DeserializeM β} (hf : ∀ b a, KeepsKeys (f b a))
    (entries : List α) (b : β) : KeepsKeys (entries.foldlM f b) := by
  induction entries generalizing b with
  | nil => exact keepsKeys_pure b
  | cons entry rest ih => exact (hf b entry).bind fun b' => ih b'

end DeserializeM

theorem deserializeData_keys (mode : MappingMode) (buffer : List UInt8) (start len : Nat)
    (borrowed : BorrowedInstructionAccount) :
    KeepsKeys (deserializeData mode buffer start len borrowed) := by
  unfold deserializeData
  split
  · refine (keepsKeys_getBytes ..).bind fun data => keepsKeys_get.bind fun accounts => ?_
    split
    · exact keepsKeys_update fun _ => borrowed.setDataFromSlice_keys _ _
    · split
      · exact keepsKeys_throw _
      · exact keepsKeys_pure _
  · split
    · exact (keepsKeys_getBytes ..).bind fun data =>
        keepsKeys_update fun _ => borrowed.setDataFromSlice_keys _ _
    · split
      · exact keepsKeys_update fun _ => borrowed.setDataLength_keys _ _
      · exact keepsKeys_pure _

theorem deserializeLamports_keys (buffer : List UInt8) (start : Nat)
    (borrowed : BorrowedInstructionAccount) :
    KeepsKeys (deserializeLamports buffer start borrowed) := by
  refine (keepsKeys_getU64 ..).bind fun lamports => ?_
  split
  · exact keepsKeys_update fun _ => borrowed.setLamports_keys _ _
  · exact keepsKeys_pure _

theorem deserializeAccountUnaligned_keys (ic : InstructionContext) (mode : MappingMode)
    (buffer : List UInt8) (start : Nat) (account : IndexOfAccount × Nat) :
    KeepsKeys (deserializeAccountUnaligned ic mode buffer start account) := by
  refine (keepsKeys_lift _).bind fun duplicate => ?_
  cases duplicate with
  | some _ => exact keepsKeys_pure _
  | none =>
      exact (keepsKeys_borrow ..).bind fun borrowed =>
        (deserializeLamports_keys ..).bind fun borrowed =>
          (deserializeData_keys ..).bind fun _ => keepsKeys_pure _

theorem deserializeAccountAligned_keys (ic : InstructionContext) (mode : MappingMode)
    (buffer : List UInt8) (start : Nat) (account : IndexOfAccount × Nat) :
    KeepsKeys (deserializeAccountAligned ic mode buffer start account) := by
  refine (keepsKeys_lift _).bind fun duplicate => ?_
  cases duplicate with
  | some _ => exact keepsKeys_pure _
  | none =>
      refine (keepsKeys_borrow ..).bind fun borrowed =>
        (keepsKeys_getBytes ..).bind fun ownerBytes =>
          (deserializeLamports_keys ..).bind fun borrowed =>
            (keepsKeys_getU64 ..).bind fun postLen => ?_
      dsimp only
      split
      · exact (keepsKeys_throw _).bind fun _ => (deserializeData_keys ..).bind fun borrowed => by
          split
          · exact (keepsKeys_update fun _ => borrowed.setOwner_keys _ _).bind fun _ =>
              keepsKeys_pure _
          · exact keepsKeys_pure _
      · refine (deserializeData_keys ..).bind fun borrowed => ?_
        split
        · exact (keepsKeys_update fun _ => borrowed.setOwner_keys _ _).bind fun _ =>
            keepsKeys_pure _
        · exact keepsKeys_pure _

/-- Writing the parameters back does not change a key. -/
theorem deserializeParameters_keys (ic : InstructionContext) (mode : MappingMode)
    (buffer : List UInt8) (accountsMetadata : List SerializedAccountMetadata) :
    KeepsKeys (deserializeParameters ic mode buffer accountsMetadata) := by
  refine (keepsKeys_lift _).bind fun owner => ?_
  dsimp only
  split
  · exact (keepsKeys_foldlM (deserializeAccountUnaligned_keys ic mode buffer) _ _).bind
      fun _ => keepsKeys_pure _
  · exact (keepsKeys_foldlM (deserializeAccountAligned_keys ic mode buffer) _ _).bind
      fun _ => keepsKeys_pure _

end ProgramRuntime
end Gobble
