import Gobble.Lib.MachineInt
import Gobble.Sbpf.Basic
import Gobble.Sdk.InstructionsSysvar

/-!
# Accounts — the accounts of a transaction and their views by an instruction

Model of `transaction_accounts.rs` and `instruction_accounts.rs` of the `transaction-context` crate.
The keys of a transaction's accounts never change; the accounts do.  Borrow counters are not
modelled: every borrow in the modelled code ends before the next one starts, except where a list of
borrowed accounts is built, and there the model checks that no account is borrowed twice.
-/

namespace Gobble
namespace Context

open Lib Sbpf Sdk

/-- Index of an account inside of the transaction or an instruction. -/
abbrev IndexOfAccount := Nat

def maxAccountsPerTransaction : Nat := 256
def maxAccountsPerInstruction : Nat := 255
def maxAccountDataLen : Nat := 10 * 1024 * 1024
def maxAccountDataGrowthPerTransaction : Nat := maxAccountDataLen * 2

/-- The largest value of type `u16`, which no account index takes. -/
def noIndex : Nat := 2 ^ 16 - 1

structure AccountSharedData where
  lamports : U64
  data : List UInt8
  owner : Pubkey
  executable : Bool
  rentEpoch : U64
  deriving DecidableEq

/-! ## Accounts of the transaction -/

structure TransactionAccounts where
  accounts : List (Pubkey × AccountSharedData)
  resizeDelta : Int
  lamportsDelta : Int
  deriving DecidableEq

namespace TransactionAccounts

def new (accounts : List (Pubkey × AccountSharedData)) : TransactionAccounts :=
  { accounts, resizeDelta := 0, lamportsDelta := 0 }

def len (t : TransactionAccounts) : Nat := t.accounts.length

def accountKey (t : TransactionAccounts) (index : IndexOfAccount) : Option Pubkey :=
  t.accounts[index]?.map Prod.fst

def accountKeys (t : TransactionAccounts) : List Pubkey :=
  t.accounts.map Prod.fst

theorem accountKey_eq_getElem? (t : TransactionAccounts) (index : IndexOfAccount) :
    t.accountKey index = t.accountKeys[index]? := by
  rw [accountKey, accountKeys, List.getElem?_map]

def tryBorrow (t : TransactionAccounts) (index : IndexOfAccount) :
    Except InstructionError AccountSharedData :=
  match t.accounts[index]? with
  | some (_, account) => .ok account
  | none => .error .missingAccount

/-- Write an account back through a mutable borrow; its key stays. -/
def setAccount (t : TransactionAccounts) (index : IndexOfAccount) (account : AccountSharedData) :
    TransactionAccounts :=
  { t with accounts := t.accounts.modify index fun entry => (entry.1, account) }

@[simp] theorem accountKeys_setAccount (t : TransactionAccounts) (index : IndexOfAccount)
    (account : AccountSharedData) : (t.setAccount index account).accountKeys = t.accountKeys := by
  refine List.ext_getElem? fun j => ?_
  simp only [accountKeys, setAccount, List.getElem?_map, List.getElem?_modify]
  cases t.accounts[j]? with
  | none => simp
  | some entry => by_cases h : index = j <;> simp [h]

end TransactionAccounts

/-! ## Accounts of an instruction -/

/-- Contains account meta data which varies between instruction. -/
structure InstructionAccount where
  /-- Points to the account and its key in the transaction. -/
  indexInTransaction : IndexOfAccount
  isSigner : Bool
  isWritable : Bool
  deriving DecidableEq

/-- An account borrowed from the transaction on behalf of an instruction. -/
structure BorrowedInstructionAccount where
  instructionAccount : InstructionAccount
  key : Pubkey
  account : AccountSharedData
  /-- The key of the program the instruction invokes, if its index is one of an account. -/
  programKey : Option Pubkey
  deriving DecidableEq

namespace BorrowedInstructionAccount

def getIndexInTransaction (b : BorrowedInstructionAccount) : IndexOfAccount :=
  b.instructionAccount.indexInTransaction

def getData (b : BorrowedInstructionAccount) : List UInt8 := b.account.data

def getOwner (b : BorrowedInstructionAccount) : Pubkey := b.account.owner

def getLamports (b : BorrowedInstructionAccount) : U64 := b.account.lamports

def isExecutable (b : BorrowedInstructionAccount) : Bool := b.account.executable

def isSigner (b : BorrowedInstructionAccount) : Bool := b.instructionAccount.isSigner

def isWritable (b : BorrowedInstructionAccount) : Bool := b.instructionAccount.isWritable

/-- Is the owner of this account the program of the current instruction. -/
def isOwnedByCurrentProgram (b : BorrowedInstructionAccount) : Bool :=
  match b.programKey with
  | some programKey => programKey == b.getOwner
  | none => false

/-- An error if the account data can not be mutated by the current program. -/
def canDataBeChanged (b : BorrowedInstructionAccount) : Except InstructionError Unit :=
  if !b.isWritable then
    .error .readonlyDataModified
  else if !b.isOwnedByCurrentProgram then
    .error .externalAccountDataModified
  else
    .ok ()

end BorrowedInstructionAccount

end Context
end Gobble
