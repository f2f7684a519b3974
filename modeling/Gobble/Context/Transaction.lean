import Gobble.Context.Accounts
import Gobble.Lib.Outcome

/-!
# Transaction — the instruction stack, the trace, and views on instructions

Model of `transaction.rs` and `instruction.rs` of the `transaction-context` crate.  Every invoked
instruction gets an entry in the *trace*; the *stack* holds the trace indices of the instructions
being executed, the current one last.  A method that changes the context before it returns an error
returns the changed context next to its result.
-/

namespace Gobble
namespace Context

open Lib Sbpf Sdk

/-- Entry of the instruction trace. -/
structure InstructionFrame where
  programAccountIndexInTx : IndexOfAccount := 0
  nestingLevel : Nat := 0
  indexOfCallerInstruction : Nat := noIndex
  deriving DecidableEq

/-- Loaded transaction shared between runtime and programs. -/
structure TransactionContext where
  accounts : TransactionAccounts
  instructionStackCapacity : Nat
  instructionTraceCapacity : Nat
  instructionStack : List Nat
  instructionTrace : List InstructionFrame
  returnData : Pubkey × List UInt8
  topLevelInstructionIndex : Nat
  /-- For each instruction, `map[index_in_transaction] = index_in_instruction`. -/
  deduplicationMaps : List (List Nat)
  instructionAccounts : List (List InstructionAccount)
  instructionData : List (List UInt8)
  deriving DecidableEq

/-- View interface to read instructions. -/
structure InstructionContext where
  transactionContext : TransactionContext
  indexInTrace : Nat
  nestingLevel : Nat
  programAccountIndexInTx : IndexOfAccount
  instructionAccounts : List InstructionAccount
  dedupMap : List Nat
  instructionData : List UInt8
  deriving DecidableEq

namespace TransactionContext

def new (transactionAccounts : List (Pubkey × AccountSharedData))
    (instructionStackCapacity instructionTraceCapacity : Nat) : TransactionContext :=
  { accounts := .new transactionAccounts
    instructionStackCapacity
    instructionTraceCapacity
    instructionStack := []
    instructionTrace := [{}]
    returnData := (Vector.replicate 32 0, [])
    topLevelInstructionIndex := 0
    deduplicationMaps := []
    instructionAccounts := []
    instructionData := [] }

def getKeyOfAccountAtIndex (tx : TransactionContext) (index : IndexOfAccount) :
    Except InstructionError Pubkey :=
  match tx.accounts.accountKey index with
  | some key => .ok key
  | none => .error .missingAccount

/-- Searches for an account by its key. -/
def findIndexOfAccount (tx : TransactionContext) (pubkey : Pubkey) : Option IndexOfAccount :=
  tx.accounts.accountKeys.findIdx? fun key => key == pubkey

/-- The instruction trace length, not counting the entry reserved for the next instruction. -/
def getInstructionTraceLength (tx : TransactionContext) : Nat :=
  tx.instructionTrace.length - 1

def getInstructionStackHeight (tx : TransactionContext) : Nat :=
  tx.instructionStack.length

/-- A view on an instruction by its index in the trace.  An instruction that has not been configured
yet is seen without accounts and data. -/
def getInstructionContextAtIndexInTrace (tx : TransactionContext) (indexInTrace : Nat) :
    Except InstructionError InstructionContext :=
  match tx.instructionTrace[indexInTrace]? with
  | none => .error .callDepth
  | some frame =>
      .ok
        { transactionContext := tx
          indexInTrace
          nestingLevel := frame.nestingLevel
          programAccountIndexInTx := frame.programAccountIndexInTx
          instructionAccounts := (tx.instructionAccounts[indexInTrace]?).getD []
          dedupMap := (tx.deduplicationMaps[indexInTrace]?).getD []
          instructionData := (tx.instructionData[indexInTrace]?).getD [] }

/-- The instruction for which the last entry of the trace is reserved. -/
def getNextInstructionContext (tx : TransactionContext) :
    Except InstructionError InstructionContext :=
  tx.getInstructionContextAtIndexInTrace tx.getInstructionTraceLength

def getInstructionContextAtNestingLevel (tx : TransactionContext) (nestingLevel : Nat) :
    Except InstructionError InstructionContext :=
  match tx.instructionStack[nestingLevel]? with
  | none => .error .callDepth
  | some indexInTrace => tx.getInstructionContextAtIndexInTrace indexInTrace

/-- The index in the instruction trace of the current executing instruction. -/
def getCurrentInstructionIndex (tx : TransactionContext) : Except InstructionError Nat :=
  match tx.instructionStack.getLast? with
  | none => .error .callDepth
  | some indexInTrace => .ok indexInTrace

def getCurrentInstructionContext (tx : TransactionContext) :
    Except InstructionError InstructionContext := do
  tx.getInstructionContextAtIndexInTrace (← tx.getCurrentInstructionIndex)

/-- The view of the current instruction is a view on this transaction. -/
theorem getCurrentInstructionContext_eq {tx : TransactionContext} {ic : InstructionContext}
    (h : tx.getCurrentInstructionContext = .ok ic) : ic.transactionContext = tx := by
  obtain ⟨index, -, hindex⟩ := bind_eq_ok h
  unfold getInstructionContextAtIndexInTrace at hindex
  split at hindex
  · cases hindex
  · cases hindex
    rfl

/-- Configures the next instruction, for which the last entry of the trace is reserved. -/
def configureNextInstruction (tx : TransactionContext) (programIndex : IndexOfAccount)
    (instructionAccounts : List InstructionAccount) (deduplicationMap : List Nat)
    (instructionData : List UInt8) (callerIndex : Option Nat) :
    Except InstructionError TransactionContext :=
  match tx.instructionTrace.getLast? with
  | none => .error .callDepth
  | some frame =>
      let frame :=
        { frame with
          programAccountIndexInTx := programIndex
          indexOfCallerInstruction := callerIndex.getD frame.indexOfCallerInstruction }
      .ok
        { tx with
          instructionTrace := tx.instructionTrace.dropLast ++ [frame]
          deduplicationMaps := tx.deduplicationMaps ++ [deduplicationMap]
          instructionAccounts := tx.instructionAccounts ++ [instructionAccounts]
          instructionData := tx.instructionData ++ [instructionData] }

def setReturnData (tx : TransactionContext) (programId : Pubkey) (data : List UInt8) :
    TransactionContext :=
  { tx with returnData := (programId, data) }

end TransactionContext

/-! ## Views on instructions -/

namespace InstructionContext

def getNumberOfInstructionAccounts (ic : InstructionContext) : IndexOfAccount :=
  ic.instructionAccounts.length % 2 ^ 16

def getIndexOfProgramAccountInTransaction (ic : InstructionContext) :
    Except InstructionError IndexOfAccount :=
  if ic.programAccountIndexInTx = noIndex then .error .missingAccount
  else .ok ic.programAccountIndexInTx

def getIndexOfInstructionAccountInTransaction (ic : InstructionContext) (index : IndexOfAccount) :
    Except InstructionError IndexOfAccount :=
  match ic.instructionAccounts[index]? with
  | none => .error .missingAccount
  | some account => .ok account.indexInTransaction

/-- Get the index of account in instruction from the index in transaction. -/
def getIndexOfAccountInInstruction (ic : InstructionContext) (indexInTransaction : IndexOfAccount) :
    Except InstructionError IndexOfAccount :=
  match ic.dedupMap[indexInTransaction]? with
  | none => .error .missingAccount
  | some index =>
      if index ≥ ic.instructionAccounts.length then .error .missingAccount else .ok index

/-- The first position of the account if this is a duplicate, and `none` if this is the first
position. -/
def isInstructionAccountDuplicate (ic : InstructionContext) (index : IndexOfAccount) :
    Except InstructionError (Option IndexOfAccount) := do
  let indexInTransaction ← ic.getIndexOfInstructionAccountInTransaction index
  let firstIndex ← ic.getIndexOfAccountInInstruction indexInTransaction
  return if firstIndex = index then none else some firstIndex

def getProgramKey (ic : InstructionContext) : Except InstructionError Pubkey := do
  ic.transactionContext.getKeyOfAccountAtIndex (← ic.getIndexOfProgramAccountInTransaction)

def getProgramOwner (ic : InstructionContext) : Except InstructionError Pubkey := do
  let index ← ic.getIndexOfProgramAccountInTransaction
  let account ← ic.transactionContext.accounts.tryBorrow index
  return account.owner

def tryBorrowInstructionAccount (ic : InstructionContext) (index : IndexOfAccount) :
    Except InstructionError BorrowedInstructionAccount :=
  match ic.instructionAccounts[index]? with
  | none => .error .missingAccount
  | some instructionAccount =>
      match ic.transactionContext.accounts.accounts[instructionAccount.indexInTransaction]? with
      | none => .error .missingAccount
      | some (key, account) =>
          .ok
            { instructionAccount
              key
              account
              programKey := ic.transactionContext.accounts.accountKey ic.programAccountIndexInTx }

end InstructionContext

/-! ## Entering and leaving an instruction -/

namespace TransactionContext

/-- The end of `push`: write the index of the current top-level instruction into the instructions
sysvar, if the transaction has that account. -/
def storeTopLevelIndex (tx : TransactionContext) :
    Except InstructionError Unit × TransactionContext :=
  match tx.findIndexOfAccount instructionsSysvarId with
  | none => (.ok (), tx)
  | some index =>
      match tx.accounts.tryBorrow index with
      | .error err => (.error err, tx)
      | .ok account =>
          if account.owner ≠ sysvarId then
            (.error .invalidAccountOwner, tx)
          else
            match storeCurrentIndexChecked account.data (tx.topLevelInstructionIndex % 2 ^ 16) with
            | none => (.error .accountDataTooSmall, tx)
            | some data =>
                (.ok (), { tx with accounts := tx.accounts.setAccount index { account with data } })

/-- Pushes the next instruction. -/
def push (tx : TransactionContext) : Except InstructionError Unit × TransactionContext :=
  let nestingLevel := tx.getInstructionStackHeight
  if tx.instructionStack ≠ [] ∧ tx.accounts.lamportsDelta ≠ 0 then
    (.error .unbalancedInstruction, tx)
  else
    match tx.instructionTrace.getLast? with
    | none => (.error .callDepth, tx)
    | some frame =>
        let frame := { frame with nestingLevel := nestingLevel % 2 ^ 16 }
        let tx := { tx with instructionTrace := tx.instructionTrace.dropLast ++ [frame] }
        let indexInTrace := tx.getInstructionTraceLength
        if indexInTrace ≥ tx.instructionTraceCapacity then
          (.error .maxInstructionTraceLengthExceeded, tx)
        else
          let tx := { tx with instructionTrace := tx.instructionTrace ++ [{}] }
          if nestingLevel ≥ tx.instructionStackCapacity then
            (.error .callDepth, tx)
          else
            storeTopLevelIndex
              { tx with instructionStack := tx.instructionStack ++ [indexInTrace] }

/-- The check that `pop` makes before it pops: is the balance of the accounts off. -/
def isUnbalanced (tx : TransactionContext) : Except InstructionError Bool := do
  let ic ← tx.getCurrentInstructionContext
  let _ ← tx.accounts.tryBorrow (← ic.getIndexOfProgramAccountInTransaction)
  return decide (tx.accounts.lamportsDelta ≠ 0)

/-- Pops the current instruction, whatever the balance check says. -/
def pop (tx : TransactionContext) : Except InstructionError Unit × TransactionContext :=
  if tx.instructionStack = [] then
    (.error .callDepth, tx)
  else
    let detectedAnUnbalancedInstruction := tx.isUnbalanced
    let tx := { tx with instructionStack := tx.instructionStack.dropLast }
    let tx :=
      if tx.instructionStack = [] then
        { tx with topLevelInstructionIndex := tx.topLevelInstructionIndex + 1 }
      else
        tx
    match detectedAnUnbalancedInstruction with
    | .error err => (.error err, tx)
    | .ok true => (.error .unbalancedInstruction, tx)
    | .ok false => (.ok (), tx)

/-! ## What entering and leaving change -/

/-- The instructions sysvar, if the transaction has one, names instruction `shown` as the current
one. -/
def ShowsIndex (tx : TransactionContext) (shown : Nat) : Prop :=
  ∀ index, tx.findIndexOfAccount instructionsSysvarId = some index →
    ∃ account, tx.accounts.tryBorrow index = .ok account ∧
      loadCurrentIndex account.data = some shown

instance (tx : TransactionContext) (shown : Nat) : Decidable (tx.ShowsIndex shown) :=
  match hindex : tx.findIndexOfAccount instructionsSysvarId with
  | none => isTrue fun index h => by rw [hindex] at h; cases h
  | some index =>
      match hborrow : tx.accounts.tryBorrow index with
      | .error _ => isFalse fun h => by
          obtain ⟨account, haccount, -⟩ := h index hindex
          rw [hborrow] at haccount
          cases haccount
      | .ok account =>
          if hshown : loadCurrentIndex account.data = some shown then
            isTrue fun index' h => by
              rw [hindex] at h
              cases h
              exact ⟨account, hborrow, hshown⟩
          else
            isFalse fun h => by
              obtain ⟨account', haccount, hshown'⟩ := h index hindex
              rw [hborrow] at haccount
              cases haccount
              exact hshown hshown'

/-- The instructions sysvar names the current top-level instruction. -/
def StoresTopLevelIndex (tx : TransactionContext) : Prop :=
  tx.ShowsIndex (tx.topLevelInstructionIndex % 2 ^ 16)

/-- Nothing has happened to the instructions: only accounts and return data may differ, and no
account has another key. -/
def SameInstructions (tx tx' : TransactionContext) : Prop :=
  ∃ accounts returnData, accounts.accountKeys = tx.accounts.accountKeys ∧
    tx' = { tx with accounts, returnData }

namespace SameInstructions

variable {tx tx' tx'' : TransactionContext}

theorem refl (tx : TransactionContext) : tx.SameInstructions tx :=
  ⟨tx.accounts, tx.returnData, rfl, rfl⟩

theorem trans (h : tx.SameInstructions tx') (h' : tx'.SameInstructions tx'') :
    tx.SameInstructions tx'' := by
  obtain ⟨accounts, returnData, hkeys, rfl⟩ := h
  obtain ⟨accounts', returnData', hkeys', rfl⟩ := h'
  exact ⟨accounts', returnData', hkeys'.trans hkeys, rfl⟩

/-- A change of the accounts. -/
theorem of_accounts {accounts : TransactionAccounts}
    (hkeys : accounts.accountKeys = tx.accounts.accountKeys) :
    tx.SameInstructions { tx with accounts } :=
  ⟨accounts, tx.returnData, hkeys, rfl⟩

end SameInstructions

theorem tryBorrow_setAccount {accounts : TransactionAccounts} {index : IndexOfAccount}
    {account : AccountSharedData} (h : accounts.tryBorrow index = .ok account)
    (account' : AccountSharedData) :
    (accounts.setAccount index account').tryBorrow index = .ok account' := by
  unfold TransactionAccounts.tryBorrow at h ⊢
  cases hget : accounts.accounts[index]? with
  | none => simp [hget] at h
  | some entry => simp [TransactionAccounts.setAccount, hget]

theorem storeTopLevelIndex_cases (tx : TransactionContext) :
    (∃ err, tx.storeTopLevelIndex = (.error err, tx)) ∨
      (tx.findIndexOfAccount instructionsSysvarId = none ∧
        tx.storeTopLevelIndex = (.ok (), tx)) ∨
      ∃ index account data, tx.findIndexOfAccount instructionsSysvarId = some index ∧
        tx.accounts.tryBorrow index = .ok account ∧
        storeCurrentIndexChecked account.data (tx.topLevelInstructionIndex % 2 ^ 16) = some data ∧
        tx.storeTopLevelIndex =
          (.ok (), { tx with accounts := tx.accounts.setAccount index { account with data } }) := by
  unfold storeTopLevelIndex
  cases hindex : tx.findIndexOfAccount instructionsSysvarId with
  | none => exact .inr (.inl ⟨rfl, rfl⟩)
  | some index =>
      cases hborrow : tx.accounts.tryBorrow index with
      | error err => exact .inl ⟨err, by simp [hborrow]⟩
      | ok account =>
          by_cases howner : account.owner ≠ sysvarId
          · exact .inl ⟨_, by simp only [hborrow, if_pos howner]; rfl⟩
          · cases hstore : storeCurrentIndexChecked account.data
                (tx.topLevelInstructionIndex % 2 ^ 16) with
            | none => exact .inl ⟨_, by simp only [hborrow, if_neg howner, hstore]; rfl⟩
            | some data =>
                refine .inr (.inr ⟨index, account, data, rfl, hborrow, hstore, ?_⟩)
                simp only [hborrow, if_neg howner, hstore]

theorem storeTopLevelIndex_same (tx : TransactionContext) :
    tx.SameInstructions tx.storeTopLevelIndex.2 := by
  rcases tx.storeTopLevelIndex_cases with
    ⟨err, heq⟩ | ⟨-, heq⟩ | ⟨index, account, data, -, -, -, heq⟩
  · rw [heq]
    exact .refl tx
  · rw [heq]
    exact .refl tx
  · rw [heq]
    exact .of_accounts (TransactionAccounts.accountKeys_setAccount ..)

theorem storeTopLevelIndex_ok {tx : TransactionContext} (h : tx.storeTopLevelIndex.1 = .ok ()) :
    tx.storeTopLevelIndex.2.StoresTopLevelIndex := by
  intro i hi
  rcases tx.storeTopLevelIndex_cases with
    ⟨err, heq⟩ | ⟨hnone, heq⟩ | ⟨index, account, data, hindex, hborrow, hstore, heq⟩
  · rw [heq] at h
    cases h
  · rw [heq, hnone] at hi
    cases hi
  · rw [heq] at hi ⊢
    have hsame : tx.findIndexOfAccount instructionsSysvarId = some i := by
      simpa [findIndexOfAccount] using hi
    rw [hindex] at hsame
    cases hsame
    refine ⟨_, tryBorrow_setAccount hborrow _, ?_⟩
    exact loadCurrentIndex_storeCurrentIndexChecked (Nat.mod_lt _ (by decide)) hstore

/-- The configured instruction is on top of the stack, and an entry of the trace is reserved for the
next one. -/
def pushed (tx : TransactionContext) (frame : InstructionFrame) : TransactionContext :=
  { tx with
    instructionTrace := tx.instructionTrace.dropLast ++ [frame] ++ [{}]
    instructionStack := tx.instructionStack ++ [tx.getInstructionTraceLength] }

/-- A `push` fails with the stack as it was, or it gets as far as storing the index. -/
theorem push_cases (tx : TransactionContext) :
    (∃ err trace, tx.push = (.error err, { tx with instructionTrace := trace })) ∨
      ∃ frame, tx.instructionTrace.getLast?.map InstructionFrame.programAccountIndexInTx =
          some frame.programAccountIndexInTx ∧
        tx.getInstructionStackHeight < tx.instructionStackCapacity ∧
        tx.push = storeTopLevelIndex (tx.pushed frame) := by
  unfold push
  dsimp only
  split
  · exact .inl ⟨_, tx.instructionTrace, rfl⟩
  · split
    · exact .inl ⟨_, tx.instructionTrace, rfl⟩
    · rename_i frame hlast
      split
      · exact .inl ⟨_, _, rfl⟩
      · split
        · exact .inl ⟨_, _, rfl⟩
        · rename_i hheight
          refine .inr ⟨{ frame with nestingLevel := tx.getInstructionStackHeight % 2 ^ 16 }, ?_,
            Nat.lt_of_not_le hheight, ?_⟩
          · rw [hlast]
            rfl
          · simp [pushed, getInstructionTraceLength]

/-- What a step from `tx` to `tx'` keeps if frames are only added. -/
structure Grows (tx tx' : TransactionContext) : Prop where
  capacity : tx'.instructionStackCapacity = tx.instructionStackCapacity
  topLevel : tx'.topLevelInstructionIndex = tx.topLevelInstructionIndex
  height : tx.getInstructionStackHeight ≤ tx'.getInstructionStackHeight
  keys : tx'.accounts.accountKeys = tx.accounts.accountKeys

theorem SameInstructions.grows {tx tx' : TransactionContext} (h : tx.SameInstructions tx') :
    tx.Grows tx' := by
  obtain ⟨accounts, returnData, hkeys, rfl⟩ := h
  exact ⟨rfl, rfl, Nat.le_refl _, hkeys⟩

theorem Grows.trans {tx tx' tx'' : TransactionContext} (h : tx.Grows tx') (h' : tx'.Grows tx'') :
    tx.Grows tx'' :=
  ⟨h'.capacity.trans h.capacity, h'.topLevel.trans h.topLevel, Nat.le_trans h.height h'.height,
    h'.keys.trans h.keys⟩

theorem pushed_grows (tx : TransactionContext) (frame : InstructionFrame) :
    tx.Grows (tx.pushed frame) :=
  ⟨rfl, rfl, by simp [getInstructionStackHeight, pushed], rfl⟩

theorem push_grows (tx : TransactionContext) : tx.Grows tx.push.2 := by
  rcases tx.push_cases with ⟨err, trace, heq⟩ | ⟨frame, -, -, heq⟩
  · rw [heq]
    exact ⟨rfl, rfl, Nat.le_refl _, rfl⟩
  · rw [heq]
    exact (tx.pushed_grows frame).trans (storeTopLevelIndex_same _).grows

/-- A successful `push`. -/
theorem push_ok {tx : TransactionContext} (h : tx.push.1 = .ok ()) :
    ∃ frame, tx.instructionTrace.getLast?.map InstructionFrame.programAccountIndexInTx =
        some frame.programAccountIndexInTx ∧
      tx.getInstructionStackHeight < tx.instructionStackCapacity ∧
      (tx.pushed frame).SameInstructions tx.push.2 ∧ tx.push.2.StoresTopLevelIndex := by
  rcases tx.push_cases with ⟨err, trace, heq⟩ | ⟨frame, hprogram, hheight, heq⟩
  · rw [heq] at h
    cases h
  · rw [heq] at h ⊢
    exact ⟨frame, hprogram, hheight, storeTopLevelIndex_same _, storeTopLevelIndex_ok h⟩

/-- Every instruction of the trace has its accounts, its map and its data; the reserved entry has
none yet. -/
structure Synced (tx : TransactionContext) : Prop where
  accounts : tx.instructionAccounts.length = tx.getInstructionTraceLength
  maps : tx.deduplicationMaps.length = tx.getInstructionTraceLength
  data : tx.instructionData.length = tx.getInstructionTraceLength

theorem new_synced (transactionAccounts : List (Pubkey × AccountSharedData))
    (instructionStackCapacity instructionTraceCapacity : Nat) :
    (new transactionAccounts instructionStackCapacity instructionTraceCapacity).Synced :=
  ⟨rfl, rfl, rfl⟩

theorem getCurrentInstructionContext_of_getLast? {tx : TransactionContext} {index : Nat}
    {frame : InstructionFrame} {accounts : List InstructionAccount} {map : List Nat}
    {data : List UInt8} (hstack : tx.instructionStack.getLast? = some index)
    (hframe : tx.instructionTrace[index]? = some frame)
    (haccounts : tx.instructionAccounts[index]? = some accounts)
    (hmap : tx.deduplicationMaps[index]? = some map)
    (hdata : tx.instructionData[index]? = some data) :
    tx.getCurrentInstructionContext = .ok
      { transactionContext := tx
        indexInTrace := index
        nestingLevel := frame.nestingLevel
        programAccountIndexInTx := frame.programAccountIndexInTx
        instructionAccounts := accounts
        dedupMap := map
        instructionData := data } := by
  simp only [getCurrentInstructionContext, getCurrentInstructionIndex, hstack, Bind.bind,
    Except.bind, getInstructionContextAtIndexInTrace, hframe, haccounts, hmap, hdata,
    Option.getD_some]

/-- Configuring the next instruction fills in the reserved entry of the trace. -/
theorem configureNextInstruction_ok {tx tx' : TransactionContext} {programIndex : IndexOfAccount}
    {accounts : List InstructionAccount} {map : List Nat} {data : List UInt8}
    {callerIndex : Option Nat}
    (h : tx.configureNextInstruction programIndex accounts map data callerIndex = .ok tx') :
    ∃ last, tx.instructionTrace.getLast? = some last ∧
      tx' =
        { tx with
          instructionTrace := tx.instructionTrace.dropLast ++
            [{ last with
              programAccountIndexInTx := programIndex
              indexOfCallerInstruction := callerIndex.getD last.indexOfCallerInstruction }]
          deduplicationMaps := tx.deduplicationMaps ++ [map]
          instructionAccounts := tx.instructionAccounts ++ [accounts]
          instructionData := tx.instructionData ++ [data] } := by
  unfold configureNextInstruction at h
  split at h
  · cases h
  · rename_i last hlast
    exact ⟨last, hlast, (Except.ok.inj h).symm⟩

theorem configureNextInstruction_length {tx tx' : TransactionContext}
    {programIndex : IndexOfAccount} {accounts : List InstructionAccount} {map : List Nat}
    {data : List UInt8} {callerIndex : Option Nat}
    (h : tx.configureNextInstruction programIndex accounts map data callerIndex = .ok tx') :
    tx'.getInstructionTraceLength = tx.getInstructionTraceLength := by
  obtain ⟨last, -, rfl⟩ := configureNextInstruction_ok h
  simp [getInstructionTraceLength]

/-- The next instruction, right after it has been configured. -/
theorem configured_next {tx tx' : TransactionContext} {programIndex : IndexOfAccount}
    {accounts : List InstructionAccount} {map : List Nat} {data : List UInt8}
    {callerIndex : Option Nat} (hsynced : tx.Synced)
    (hconfigured : tx.configureNextInstruction programIndex accounts map data callerIndex =
      .ok tx') :
    ∃ nestingLevel, tx'.getNextInstructionContext = .ok
      { transactionContext := tx'
        indexInTrace := tx.getInstructionTraceLength
        nestingLevel
        programAccountIndexInTx := programIndex
        instructionAccounts := accounts
        dedupMap := map
        instructionData := data } := by
  have hlength := configureNextInstruction_length hconfigured
  obtain ⟨last, hlast, hconfigured⟩ := configureNextInstruction_ok hconfigured
  refine ⟨last.nestingLevel, ?_⟩
  rw [getNextInstructionContext, hlength]
  -- The entry of the trace is the last one, and so are the accounts, the map and the data.
  have hframe : tx'.instructionTrace[tx.getInstructionTraceLength]? =
      some { last with
        programAccountIndexInTx := programIndex
        indexOfCallerInstruction := callerIndex.getD last.indexOfCallerInstruction } := by
    rw [hconfigured, getInstructionTraceLength, ← List.length_dropLast]
    exact List.getElem?_concat_length ..
  have haccounts : tx'.instructionAccounts[tx.getInstructionTraceLength]? = some accounts := by
    rw [hconfigured, ← hsynced.accounts]
    exact List.getElem?_concat_length ..
  have hmap : tx'.deduplicationMaps[tx.getInstructionTraceLength]? = some map := by
    rw [hconfigured, ← hsynced.maps]
    exact List.getElem?_concat_length ..
  have hdata : tx'.instructionData[tx.getInstructionTraceLength]? = some data := by
    rw [hconfigured, ← hsynced.data]
    exact List.getElem?_concat_length ..
  simp only [getInstructionContextAtIndexInTrace, hframe, haccounts, hmap, hdata,
    Option.getD_some]

/-- The current instruction, right after it has been configured and pushed. -/
theorem configured_pushed {tx tx' : TransactionContext} {programIndex : IndexOfAccount}
    {accounts : List InstructionAccount} {map : List Nat} {data : List UInt8}
    {callerIndex : Option Nat} (hsynced : tx.Synced)
    (hconfigured : tx.configureNextInstruction programIndex accounts map data callerIndex =
      .ok tx') (hpush : tx'.push.1 = .ok ()) :
    tx'.push.2.Synced ∧ tx'.push.2.accounts.accountKeys = tx.accounts.accountKeys ∧
      ∃ nestingLevel, tx'.push.2.getCurrentInstructionContext = .ok
        { transactionContext := tx'.push.2
          indexInTrace := tx.getInstructionTraceLength
          nestingLevel
          programAccountIndexInTx := programIndex
          instructionAccounts := accounts
          dedupMap := map
          instructionData := data } := by
  have hlength := configureNextInstruction_length hconfigured
  obtain ⟨last, hlast, hconfigured⟩ := configureNextInstruction_ok hconfigured
  have hfront : tx'.instructionTrace.dropLast.length = tx.getInstructionTraceLength := by
    rw [hconfigured]
    simp [getInstructionTraceLength]
  obtain ⟨frame, hprogram, -, ⟨accounts', returnData, hkeys, hpushed⟩, -⟩ := push_ok hpush
  have hframe : frame.programAccountIndexInTx = programIndex := by
    rw [hconfigured] at hprogram
    simpa using hprogram.symm
  -- What the pushed transaction consists of.
  have htrace : tx'.push.2.instructionTrace =
      tx'.instructionTrace.dropLast ++ [frame] ++ [({} : InstructionFrame)] := by
    rw [hpushed]
    rfl
  have hstack : tx'.push.2.instructionStack = tx'.instructionStack ++
      [tx.getInstructionTraceLength] := by
    rw [hpushed, ← hlength]
    rfl
  have haccounts : tx'.push.2.instructionAccounts = tx.instructionAccounts ++ [accounts] := by
    rw [hpushed, hconfigured]
    rfl
  have hmaps : tx'.push.2.deduplicationMaps = tx.deduplicationMaps ++ [map] := by
    rw [hpushed, hconfigured]
    rfl
  have hdata : tx'.push.2.instructionData = tx.instructionData ++ [data] := by
    rw [hpushed, hconfigured]
    rfl
  refine ⟨⟨?_, ?_, ?_⟩, ?_, frame.nestingLevel, ?_⟩
  · rw [haccounts, getInstructionTraceLength, htrace]
    simp [hsynced.accounts, hfront]
  · rw [hmaps, getInstructionTraceLength, htrace]
    simp [hsynced.maps, hfront]
  · rw [hdata, getInstructionTraceLength, htrace]
    simp [hsynced.data, hfront]
  · rw [hpushed, hkeys, hconfigured]
    rfl
  · rw [← hframe]
    apply getCurrentInstructionContext_of_getLast?
    · rw [hstack, List.getLast?_concat]
    · rw [htrace, ← hfront, List.append_assoc]
      simp
    · rw [haccounts, ← hsynced.accounts, List.getElem?_concat_length]
    · rw [hmaps, ← hsynced.maps, List.getElem?_concat_length]
    · rw [hdata, ← hsynced.data, List.getElem?_concat_length]

/-- What `push` asks of a transaction before the next instruction is entered. -/
structure Enterable (tx : TransactionContext) : Prop where
  balanced : tx.instructionStack = [] ∨ tx.accounts.lamportsDelta = 0
  prepared : tx.instructionTrace ≠ []
  length : tx.getInstructionTraceLength < tx.instructionTraceCapacity
  depth : tx.getInstructionStackHeight < tx.instructionStackCapacity
  sysvar : ∀ index, tx.findIndexOfAccount instructionsSysvarId = some index →
    ∃ account, tx.accounts.tryBorrow index = .ok account ∧ account.owner = sysvarId ∧
      2 ≤ account.data.length

/-- The index can be stored if the account of the sysvar is what it should be. -/
theorem storeTopLevelIndex_ok_iff (tx : TransactionContext) :
    tx.storeTopLevelIndex.1 = .ok () ↔
      ∀ index, tx.findIndexOfAccount instructionsSysvarId = some index →
        ∃ account, tx.accounts.tryBorrow index = .ok account ∧ account.owner = sysvarId ∧
          2 ≤ account.data.length := by
  unfold storeTopLevelIndex
  cases hindex : tx.findIndexOfAccount instructionsSysvarId with
  | none => simp
  | some index =>
      cases hborrow : tx.accounts.tryBorrow index with
      | error err => simp [hborrow]
      | ok account =>
          by_cases howner : account.owner = sysvarId
          · by_cases hlen : account.data.length < 2
            · simp [hborrow, howner, storeCurrentIndexChecked, hlen]
            · simp [hborrow, howner, storeCurrentIndexChecked, hlen, Nat.not_lt.mp hlen]
          · simp [hborrow, howner]

/-- An instruction is entered exactly if that is so. -/
theorem push_ok_iff (tx : TransactionContext) : tx.push.1 = .ok () ↔ Enterable tx := by
  have hstore : ∀ trace stack,
      (storeTopLevelIndex
        { tx with instructionTrace := trace, instructionStack := stack }).1 = .ok () ↔
      ∀ index, tx.findIndexOfAccount instructionsSysvarId = some index →
        ∃ account, tx.accounts.tryBorrow index = .ok account ∧ account.owner = sysvarId ∧
          2 ≤ account.data.length :=
    fun trace stack => storeTopLevelIndex_ok_iff _
  constructor
  · intro hok
    unfold push at hok
    dsimp only at hok
    split at hok
    · cases hok
    · rename_i hbalanced
      split at hok
      · cases hok
      · rename_i frame hframe
        have hne : tx.instructionTrace ≠ [] := by
          intro hnil
          rw [hnil] at hframe
          cases hframe
        have hlength : (tx.instructionTrace.dropLast ++
            [{ frame with nestingLevel := tx.getInstructionStackHeight % 2 ^ 16 }]).length - 1 =
              tx.getInstructionTraceLength := by
          simp [getInstructionTraceLength]
        split at hok
        · cases hok
        · rename_i hroom
          split at hok
          · cases hok
          · rename_i hdepth
            refine ⟨?_, hne, ?_, Nat.lt_of_not_le hdepth, (hstore _ _).mp hok⟩
            · by_cases hnil : tx.instructionStack = []
              · exact .inl hnil
              · exact .inr (by_contra fun hdelta => hbalanced ⟨hnil, hdelta⟩)
            · rw [← hlength]
              exact Nat.lt_of_not_le hroom
  · rintro ⟨hbalanced, hprepared, hlength, hdepth, hsysvar⟩
    obtain ⟨frame, hframe⟩ : ∃ frame, tx.instructionTrace.getLast? = some frame :=
      ⟨_, List.getLast?_eq_some_getLast hprepared⟩
    have hlength' : ¬ ((tx.instructionTrace.dropLast ++
        [{ frame with nestingLevel := tx.getInstructionStackHeight % 2 ^ 16 }]).length - 1 ≥
          tx.instructionTraceCapacity) := by
      simp only [List.length_append, List.length_dropLast, List.length_singleton]
      unfold getInstructionTraceLength at hlength
      omega
    unfold push
    rw [if_neg (by
      rintro ⟨hstack, hdelta⟩
      exact hbalanced.elim hstack hdelta), hframe]
    dsimp only [getInstructionTraceLength]
    rw [if_neg hlength', if_neg (Nat.not_le.mpr hdepth)]
    exact (hstore _ _).mpr hsysvar

/-- A `pop` removes one frame, and the last frame ends a top-level instruction. -/
theorem pop_eq {tx : TransactionContext} (h : tx.instructionStack ≠ []) :
    tx.pop.2 =
      { tx with
        instructionStack := tx.instructionStack.dropLast
        topLevelInstructionIndex :=
          if tx.instructionStack.dropLast = [] then tx.topLevelInstructionIndex + 1
          else tx.topLevelInstructionIndex } := by
  unfold pop
  rw [if_neg h]
  dsimp only
  by_cases hlast : tx.instructionStack.dropLast = []
  · simp only [if_pos hlast]
    split <;> rfl
  · simp only [if_neg hlast]
    split <;> rfl

end TransactionContext

end Context
end Gobble
