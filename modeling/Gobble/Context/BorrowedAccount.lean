import Gobble.Context.Accounts
import Gobble.Lib.Outcome

/-!
# BorrowedAccount — changing an account through a borrow

Model of the setters of `BorrowedInstructionAccount` in `instruction_accounts.rs`.  A setter that
returns an error has changed nothing; one that succeeds returns the borrowed account and the
accounts of the transaction after the change.
-/

namespace Gobble
namespace Context

open Lib Sbpf Sdk

namespace TransactionAccounts

/-- `i128::MIN ..= i128::MAX`. -/
def fitsI128 (x : Int) : Bool := decide (-2 ^ 127 ≤ x ∧ x < 2 ^ 127)

def addLamportsDelta (t : TransactionAccounts) (balance : Int) :
    Except InstructionError TransactionAccounts :=
  if fitsI128 (t.lamportsDelta + balance) then
    .ok { t with lamportsDelta := t.lamportsDelta + balance }
  else
    .error .arithmeticOverflow

def lengthDelta (oldLen newLen : Nat) : Int :=
  clampI64 (asI64 newLen - asI64 oldLen)

def updateAccountsResizeDelta (t : TransactionAccounts) (oldLen newLen : Nat) :
    TransactionAccounts :=
  { t with resizeDelta := clampI64 (t.resizeDelta + lengthDelta oldLen newLen) }

def canDataBeResized (t : TransactionAccounts) (oldLen newLen : Nat) :
    Except InstructionError Unit :=
  -- The new length can not exceed the maximum permitted length.
  if newLen > maxAccountDataLen then
    .error .invalidRealloc
  -- The resize can not exceed the per-transaction maximum.
  else if clampI64 (t.resizeDelta + lengthDelta oldLen newLen) >
      maxAccountDataGrowthPerTransaction then
    .error .maxAccountsDataAllocationsExceeded
  else
    .ok ()

/-- The data of the accounts has not grown by more than a transaction may add, which is what the
setters check before they change a length.  The difference is an `i64`. -/
def WithinGrowth (t : TransactionAccounts) : Prop :=
  i64Min ≤ t.resizeDelta ∧ t.resizeDelta ≤ maxAccountDataGrowthPerTransaction

theorem new_withinGrowth (accounts : List (Pubkey × AccountSharedData)) :
    (new accounts).WithinGrowth := by
  constructor
  · exact (by decide : i64Min ≤ 0)
  · exact (by decide : (0 : Int) ≤ maxAccountDataGrowthPerTransaction)

theorem updateAccountsResizeDelta_withinGrowth {t : TransactionAccounts} {oldLen newLen : Nat}
    (h : t.canDataBeResized oldLen newLen = .ok ()) :
    (t.updateAccountsResizeDelta oldLen newLen).WithinGrowth := by
  unfold canDataBeResized at h
  split at h
  · cases h
  · split at h
    · cases h
    · rename_i hle
      exact ⟨le_max_left _ _, Int.not_lt.mp hle⟩

end TransactionAccounts

namespace BorrowedInstructionAccount

/-- Results of the setters. -/
abbrev Updated := Except InstructionError (BorrowedInstructionAccount × TransactionAccounts)

variable (b : BorrowedInstructionAccount) (accounts : TransactionAccounts)

/-- Write the account through the borrow. -/
def save (account : AccountSharedData) : BorrowedInstructionAccount × TransactionAccounts :=
  ({ b with account }, accounts.setAccount b.getIndexInTransaction account)

def isZeroed (data : List UInt8) : Bool := data.all (· == 0)

/-- Assigns the owner of this account. -/
def setOwner (pubkey : Pubkey) : Updated :=
  -- Only the owner can assign a new owner, and only if the account is writable and its data is
  -- zero-initialized or empty.
  if !b.isOwnedByCurrentProgram then
    .error .modifiedProgramId
  else if !b.isWritable then
    .error .modifiedProgramId
  else if !isZeroed b.getData then
    .error .modifiedProgramId
  else if b.getOwner == pubkey then
    .ok (b, accounts)
  else
    .ok (b.save accounts { b.account with owner := pubkey })

/-- Overwrites the number of lamports of this account. -/
def setLamports (lamports : U64) : Updated := do
  -- An account not owned by the program cannot have its balance decrease.
  if !b.isOwnedByCurrentProgram && decide (lamports < b.getLamports) then
    throw .externalAccountLamportSpend
  -- The balance of a read-only account may not change.
  if !b.isWritable then
    throw .readonlyLamportChange
  if b.getLamports == lamports then
    return (b, accounts)
  let accounts ← accounts.addLamportsDelta (lamports.toNat - b.getLamports.toNat)
  return b.save accounts { b.account with lamports }

def canDataBeResized (newLen : Nat) : Except InstructionError Unit := do
  let oldLen := b.getData.length
  -- Only the owner can change the length of the data.
  if newLen ≠ oldLen && !b.isOwnedByCurrentProgram then
    throw .accountDataSizeChanged
  accounts.canDataBeResized oldLen newLen
  b.canDataBeChanged

/-- Overwrites the account data and size. -/
def setDataFromSlice (data : List UInt8) : Updated := do
  b.canDataBeResized accounts data.length
  let accounts := accounts.updateAccountsResizeDelta b.getData.length data.length
  return b.save accounts { b.account with data }

/-- `Vec::resize` with zeros. -/
def resized (data : List UInt8) (newLength : Nat) : List UInt8 :=
  data.take newLength ++ List.replicate (newLength - data.length) 0

/-- Resizes the account data: zeros are added at the end, or bytes removed from the end. -/
def setDataLength (newLength : Nat) : Updated := do
  b.canDataBeResized accounts newLength
  if b.getData.length = newLength then
    return (b, accounts)
  let accounts := accounts.updateAccountsResizeDelta b.getData.length newLength
  return b.save accounts { b.account with data := resized b.getData newLength }

/-- Appends all elements in a slice to the account. -/
def extendFromSlice (data : List UInt8) : Updated := do
  let newLen := b.getData.length + data.length
  b.canDataBeResized accounts newLen
  if data.isEmpty then
    return (b, accounts)
  let accounts := accounts.updateAccountsResizeDelta b.getData.length newLen
  return b.save accounts { b.account with data := b.getData ++ data }

/-- What is written through the slice that `get_data_mut` returns: bytes from the start on, as far as
the data goes. -/
def writeDataMut (bytes : List UInt8) : Updated := do
  b.canDataBeChanged
  let data := bytes.take b.getData.length ++ b.getData.drop bytes.length
  return b.save accounts { b.account with data }

/-- Adds lamports to this account. -/
def checkedAddLamports (lamports : U64) : Updated :=
  match U64.checkedAdd b.getLamports lamports with
  | some sum => b.setLamports accounts sum
  | none => .error .arithmeticOverflow

/-- Subtracts lamports from this account. -/
def checkedSubLamports (lamports : U64) : Updated :=
  if lamports ≤ b.getLamports then
    b.setLamports accounts (b.getLamports - lamports)
  else
    .error .arithmeticOverflow

/-- Configures whether this account is executable.  `isRentExempt` is the check of the rent that the
transaction is executed with, of a balance and a length of data. -/
def setExecutable (isRentExempt : U64 → Nat → Bool) (isExecutable : Bool) : Updated :=
  -- To become executable an account must be rent exempt.
  if !isRentExempt b.getLamports b.getData.length then
    .error .executableAccountNotRentExempt
  -- Only the owner can set the executable flag, and only if the account is writable.
  else if !b.isOwnedByCurrentProgram then
    .error .executableModified
  else if !b.isWritable then
    .error .executableModified
  else if b.isExecutable == isExecutable then
    .ok (b, accounts)
  else
    .ok (b.save accounts { b.account with executable := isExecutable })

/-! ## Growth -/

variable {b accounts} in
/-- An account that may be resized is within the limits, and may be changed. -/
theorem canDataBeResized_ok {newLen : Nat} (h : b.canDataBeResized accounts newLen = .ok ()) :
    accounts.canDataBeResized b.getData.length newLen = .ok () ∧ b.canDataBeChanged = .ok () := by
  unfold canDataBeResized at h
  dsimp only at h
  split at h
  · cases h
  · obtain ⟨_, hresize, hchange⟩ := bind_eq_ok h
    exact ⟨hresize, hchange⟩

/-- Setting the length does not let the accounts grow beyond the limit. -/
theorem setDataLength_growth (h : accounts.WithinGrowth) (newLength : Nat) :
    Ends (fun r => r.2.WithinGrowth) (fun _ => True) (b.setDataLength accounts newLength) := by
  unfold setDataLength
  cases hresize : b.canDataBeResized accounts newLength with
  | error err => trivial
  | ok _ =>
      have hwithin := (canDataBeResized_ok hresize).1
      dsimp only [Bind.bind, Except.bind]
      split
      · exact h
      · exact TransactionAccounts.updateAccountsResizeDelta_withinGrowth hwithin

/-! ## Keys -/

/-- A setter leaves the keys of the accounts alone. -/
def KeepsKeys (accounts : TransactionAccounts) (updated : Updated) : Prop :=
  Ends (fun r => r.2.accountKeys = accounts.accountKeys) (fun _ => True) updated

@[simp] theorem accountKeys_save (account : AccountSharedData) :
    (b.save accounts account).2.accountKeys = accounts.accountKeys := by
  simp [save]

theorem setOwner_keys (pubkey : Pubkey) : KeepsKeys accounts (b.setOwner accounts pubkey) := by
  unfold setOwner
  split
  · trivial
  · split
    · trivial
    · split
      · trivial
      · split
        · exact rfl
        · exact b.accountKeys_save accounts _

theorem setLamports_keys (lamports : U64) :
    KeepsKeys accounts (b.setLamports accounts lamports) := by
  unfold setLamports
  dsimp only
  split
  · trivial
  · split
    · trivial
    · split
      · exact rfl
      · unfold TransactionAccounts.addLamportsDelta
        split
        · exact b.accountKeys_save _ _
        · trivial

theorem setDataFromSlice_keys (data : List UInt8) :
    KeepsKeys accounts (b.setDataFromSlice accounts data) := by
  unfold setDataFromSlice
  exact .bind_any (fun _ => b.accountKeys_save _ _) fun _ => trivial

theorem setDataLength_keys (newLength : Nat) :
    KeepsKeys accounts (b.setDataLength accounts newLength) := by
  unfold setDataLength
  refine .bind_any (fun _ => ?_) fun _ => trivial
  split
  · exact rfl
  · exact b.accountKeys_save _ _

end BorrowedInstructionAccount

end Context
end Gobble
