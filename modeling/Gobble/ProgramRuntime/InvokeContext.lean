import Gobble.Context.Transaction
import Gobble.ProgramRuntime.Serialization
import Gobble.Sbpf.AccessTracker

/-!
# InvokeContext — the pipeline from the runtime to program execution

Model of `program-runtime/src/invoke_context.rs`: entering and leaving an instruction, and the two
ways of preparing one.  Programs are not part of the context.  The program cache names them by
numbers, and what the numbers stand for is a parameter of the execution (`Execution.lean`).
-/

namespace Gobble
namespace ProgramRuntime

open Lib Sbpf Sdk Context

/-- The features that the modelled code asks for. -/
structure FeatureSet where
  mapping : MappingMode
  provideInstructionDataOffsetInVmR2 : Bool
  depleteCuMeterOnVmFailure : Bool
  increaseCpiAccountInfoLimit : Bool
  increaseTxAccountLockLimit : Bool
  deriving DecidableEq

structure ExecutionBudget where
  computeUnitLimit : U64
  heapSize : Nat
  deriving DecidableEq

structure ExecutionCost where
  heapCost : U64
  invokeUnits : U64
  cpiBytesPerUnit : U64
  deriving DecidableEq

/-- The entrypoint of a builtin: the loaders that execute programs, and everything else. -/
inductive BuiltinId where
  | bpfLoader
  | loaderV4
  | native (program : Nat)
  deriving DecidableEq

/-- What the program cache knows about a key. -/
inductive ProgramCacheEntryType where
  | failedVerification
  | closed
  | delayVisibility
  | unloaded
  | loaded (executable : Nat)
  /-- A builtin and the function registered for its entrypoint, if there is one. -/
  | builtin (function : Option BuiltinId)
  deriving DecidableEq

structure BpfAllocator where
  len : U64
  pos : U64
  deriving DecidableEq

structure SyscallContext where
  allocator : BpfAllocator
  accountsMetadata : List SerializedAccountMetadata
  deriving DecidableEq

structure InvokeContext where
  transactionContext : TransactionContext
  programCache : List (Pubkey × ProgramCacheEntryType)
  featureSet : FeatureSet
  computeBudget : ExecutionBudget
  executionCost : ExecutionCost
  computeMeter : U64
  syscallContext : List (Option SyscallContext)
  /-- Byte offset ranges within the instructions sysvar that are forbidden to read. -/
  forbiddenSysvarDataRanges : List AddrRange
  /-- Accumulated forbidden memory accesses: VM address and access size. -/
  forbiddenMemoryAccesses : List (U64 × U64)
  deriving DecidableEq

namespace InvokeContext

def new (transactionContext : TransactionContext)
    (programCache : List (Pubkey × ProgramCacheEntryType)) (featureSet : FeatureSet)
    (computeBudget : ExecutionBudget) (executionCost : ExecutionCost) : InvokeContext :=
  { transactionContext
    programCache
    featureSet
    computeBudget
    executionCost
    computeMeter := computeBudget.computeUnitLimit
    syscallContext := []
    forbiddenSysvarDataRanges := []
    forbiddenMemoryAccesses := [] }

def setForbiddenSysvarDataRanges (c : InvokeContext) (ranges : List AddrRange) : InvokeContext :=
  { c with forbiddenSysvarDataRanges := ranges }

def getStackHeight (c : InvokeContext) : Nat :=
  c.transactionContext.getInstructionStackHeight

/-- `program_cache_for_tx_batch.find`. -/
def findProgram (c : InvokeContext) (key : Pubkey) : Option ProgramCacheEntryType :=
  c.programCache.lookup key

/-! ## Compute units -/

def consume (c : InvokeContext) (amount : U64) : InvokeContext :=
  { c with computeMeter := U64.saturatingSub c.computeMeter amount }

/-- Consume compute units; the meter is charged even if it has too little left. -/
def consumeChecked (c : InvokeContext) (amount : U64) : Except BoxedError Unit × InvokeContext :=
  (if c.computeMeter < amount then .error (.instruction .computationalBudgetExceeded) else .ok (),
    c.consume amount)

/-! ## Syscall contexts -/

def setSyscallContext (c : InvokeContext) (syscallContext : SyscallContext) :
    Except InstructionError InvokeContext :=
  if c.syscallContext = [] then
    .error .callDepth
  else
    .ok { c with syscallContext := c.syscallContext.dropLast ++ [some syscallContext] }

def getSyscallContext (c : InvokeContext) : Except InstructionError SyscallContext :=
  match c.syscallContext.getLast? with
  | some (some syscallContext) => .ok syscallContext
  | _ => .error .callDepth

/-! ## Entering and leaving an instruction -/

/-- Is `programId` the program of the instruction that the view shows. -/
def runsProgram (programId : Pubkey) (view : Except InstructionError InstructionContext) : Bool :=
  match view with
  | .error _ => false
  | .ok ic =>
      match ic.getProgramKey with
      | .error _ => false
      | .ok programKey => programKey == programId

/-- Some instruction on the stack runs the program, but not the current one. -/
def isReentrant (tx : TransactionContext) (programId : Pubkey) : Bool :=
  let contains := (List.range tx.getInstructionStackHeight).any fun level =>
    runsProgram programId (tx.getInstructionContextAtNestingLevel level)
  let isLast := runsProgram programId tx.getCurrentInstructionContext
  contains && !isLast

/-- Push a stack frame onto the invocation stack. -/
def push (c : InvokeContext) : Except InstructionError Unit × InvokeContext :=
  let tx := c.transactionContext
  match tx.getNextInstructionContext with
  | .error err => (.error err, c)
  | .ok ic =>
      match ic.getProgramKey with
      | .error _ => (.error .unsupportedProgramId, c)
      | .ok programId =>
          if tx.getInstructionStackHeight ≠ 0 && isReentrant tx programId then
            -- Reentrancy not allowed unless caller is calling itself.
            (.error .reentrancyNotAllowed, c)
          else
            let (result, tx) := tx.push
            (result,
              { c with
                syscallContext := c.syscallContext ++ [none]
                transactionContext := tx })

/-- A `push` fails and changes nothing, or it pushes onto the stack of the transaction. -/
theorem push_cases (c : InvokeContext) : (∃ err, c.push = (.error err, c)) ∨
    c.push = (c.transactionContext.push.1,
      { c with
        syscallContext := c.syscallContext ++ [none]
        transactionContext := c.transactionContext.push.2 }) := by
  unfold push
  dsimp only
  split
  · exact .inl ⟨_, rfl⟩
  · split
    · exact .inl ⟨_, rfl⟩
    · split
      · exact .inl ⟨_, rfl⟩
      · exact .inr rfl

/-- An instruction is entered only if its program is an account of the transaction. -/
theorem push_ok_program {c : InvokeContext} (h : c.push.1 = .ok ()) :
    ∃ frame, c.transactionContext.instructionTrace.getLast? = some frame ∧
      frame.programAccountIndexInTx < c.transactionContext.accounts.len := by
  unfold push at h
  dsimp only at h
  split at h
  · cases h
  · rename_i ic hview
    split at h
    · cases h
    · rename_i programId hkey
      unfold TransactionContext.getNextInstructionContext
        TransactionContext.getInstructionContextAtIndexInTrace at hview
      split at hview
      · cases hview
      · rename_i frame hframe
        cases hview
        refine ⟨frame, ?_, ?_⟩
        · rw [List.getLast?_eq_getElem?]
          exact hframe
        · obtain ⟨index, hindex, hkey⟩ := bind_eq_ok hkey
          have hself : index = frame.programAccountIndexInTx := by
            unfold InstructionContext.getIndexOfProgramAccountInTransaction at hindex
            split at hindex
            · cases hindex
            · exact (Except.ok.inj hindex).symm
          rw [← hself]
          unfold TransactionContext.getKeyOfAccountAtIndex at hkey
          split at hkey
          · rename_i key hsome
            obtain ⟨entry, hentry, -⟩ := Option.map_eq_some_iff.mp hsome
            exact (List.getElem?_eq_some_iff.mp hentry).1
          · cases hkey

/-- Pop a stack frame from the invocation stack. -/
def pop (c : InvokeContext) : Except InstructionError Unit × InvokeContext :=
  let (result, tx) := c.transactionContext.pop
  (result, { c with syscallContext := c.syscallContext.dropLast, transactionContext := tx })

end InvokeContext

/-! ## Preparing a top-level instruction -/

/-- An instruction of a message: accounts are named by their position in the message.  The length of
the list is encoded in 16 bits. -/
structure CompiledInstruction where
  programIdIndex : UInt8
  accounts : List UInt8
  data : List UInt8
  bounded : accounts.length < 2 ^ 16 := by decide
  deriving DecidableEq

theorem length_nil_bounded : ([] : List UInt8).length < 2 ^ 16 := by
  decide

/-- `vec![u16::MAX; MAX_ACCOUNTS_PER_TRANSACTION]`. -/
def emptyCalleeMap : List Nat := List.replicate maxAccountsPerTransaction noIndex

/-- The part of an instruction that is built account by account. -/
structure CalleeAccounts where
  calleeMap : List Nat
  accounts : List InstructionAccount

/-- One account of a top-level instruction.  An index is a `u8`, so it has an entry in the map. -/
def CalleeAccounts.addTopLevel (isSigner isWritable : Nat → Bool) (callee : CalleeAccounts)
    (index : UInt8) : CalleeAccounts :=
  let count := callee.accounts.length
  { calleeMap :=
      if callee.calleeMap.getD index.toNat noIndex > count then
        callee.calleeMap.set index.toNat (count % 2 ^ 16)
      else
        callee.calleeMap
    accounts := callee.accounts ++
      [⟨index.toNat, isSigner index.toNat, isWritable index.toNat⟩] }

namespace InvokeContext

def prepareNextTopLevelInstruction (c : InvokeContext) (isSigner isWritable : Nat → Bool)
    (instruction : CompiledInstruction) (programAccountIndex : IndexOfAccount) :
    Except InstructionError InvokeContext := do
  let callee := instruction.accounts.foldl (CalleeAccounts.addTopLevel isSigner isWritable)
    ⟨emptyCalleeMap, []⟩
  let tx ← c.transactionContext.configureNextInstruction programAccountIndex callee.accounts
    callee.calleeMap instruction.data none
  return { c with transactionContext := tx }

end InvokeContext

/-! ## Preparing a cross-program invocation -/

structure AccountMeta where
  pubkey : Pubkey
  isSigner : Bool
  isWritable : Bool
  deriving DecidableEq

structure Instruction where
  programId : Pubkey
  accounts : List AccountMeta
  data : List UInt8
  deriving DecidableEq

/-- The flags that either of two references to one account asks for. -/
def addFlags (account : InstructionAccount) (isSigner isWritable : Bool) : InstructionAccount :=
  { account with
    isSigner := account.isSigner || isSigner
    isWritable := account.isWritable || isWritable }

/-- The first loop over the accounts: find the account in the transaction, and merge the flags of
accounts that occur repeatedly into the first occurrence. -/
def CalleeAccounts.addMeta (tx : TransactionContext) (callee : CalleeAccounts)
    (accountMeta : AccountMeta) : Outcome InstructionError CalleeAccounts := do
  let index ← Outcome.okOr .missingAccount (tx.findIndexOfAccount accountMeta.pubkey)
  let indexInCallee ← Outcome.unwrap callee.calleeMap[index]?
  match callee.accounts[indexInCallee]? with
  | some first =>
      let merged := addFlags first accountMeta.isSigner accountMeta.isWritable
      return { callee with accounts := callee.accounts.set indexInCallee merged ++ [merged] }
  | none =>
      return {
        calleeMap := callee.calleeMap.set index (callee.accounts.length % 2 ^ 16)
        accounts := callee.accounts ++
          [⟨index, accountMeta.isSigner, accountMeta.isWritable⟩] }

/-- The second loop: a repeated account takes over the flags of its first occurrence; a first
occurrence may not have privileges that the caller lacks. -/
def checkPrivileges (caller : InstructionContext) (instruction : Instruction)
    (signers : List Pubkey) (calleeMap : List Nat) (accounts : List InstructionAccount)
    (currentIndex : Nat) : Outcome InstructionError (List InstructionAccount) := do
  let account ← Outcome.unwrap accounts[currentIndex]?
  let indexInCallee ← Outcome.unwrap calleeMap[account.indexInTransaction]?
  if currentIndex ≠ indexInCallee then
    let reference ← Outcome.okOr .missingAccount accounts[indexInCallee]?
    return accounts.set currentIndex (addFlags account reference.isSigner reference.isWritable)
  let indexInCaller ←
    Outcome.lift (caller.getIndexOfAccountInInstruction account.indexInTransaction)
  let accountMeta ← Outcome.unwrap instruction.accounts[currentIndex]?
  let callerAccount ← Outcome.unwrap caller.instructionAccounts[indexInCaller]?
  -- Readonly in caller cannot become writable in callee.
  if account.isWritable && !callerAccount.isWritable then
    Outcome.err .privilegeEscalation
  -- To be signed in the callee, it must be either signed in the caller or by the program.
  else if account.isSigner &&
      !(callerAccount.isSigner || signers.contains accountMeta.pubkey) then
    Outcome.err .privilegeEscalation
  else
    return accounts

namespace InvokeContext

def prepareNextInstruction (c : InvokeContext) (instruction : Instruction)
    (signers : List Pubkey) : Outcome InstructionError InvokeContext := do
  let tx := c.transactionContext
  let caller ← Outcome.lift tx.getCurrentInstructionContext
  let callee ← instruction.accounts.foldlM (CalleeAccounts.addMeta tx) ⟨emptyCalleeMap, []⟩
  let accounts ← (List.range callee.accounts.length).foldlM
    (checkPrivileges caller instruction signers callee.calleeMap) callee.accounts
  -- The account must exist in the transaction and be part of the caller's instruction.
  let programIndex ← Outcome.okOr .missingAccount (tx.findIndexOfAccount instruction.programId)
  match caller.getIndexOfAccountInInstruction programIndex with
  | .error _ => Outcome.err .missingAccount
  | .ok _ =>
      let callerIndex ← Outcome.lift tx.getCurrentInstructionIndex
      let tx ← Outcome.lift (tx.configureNextInstruction programIndex accounts callee.calleeMap
        instruction.data (some (callerIndex % 2 ^ 16)))
      return { c with transactionContext := tx }

/-- In `c'` the next instruction has been configured, and nothing else has changed. -/
def Configures (c c' : InvokeContext) : Prop :=
  ∃ programIndex accounts map data callerIndex tx,
    c.transactionContext.configureNextInstruction programIndex accounts map data callerIndex =
      .ok tx ∧ c' = { c with transactionContext := tx }

theorem prepareNextInstruction_configures (c : InvokeContext) (instruction : Instruction)
    (signers : List Pubkey) :
    Ends c.Configures (fun _ => True) (c.prepareNextInstruction instruction signers) := by
  unfold prepareNextInstruction
  refine .bind_any (fun caller => ?_) fun _ => trivial
  refine .bind_any (fun callee => ?_) fun _ => trivial
  refine .bind_any (fun accounts => ?_) fun _ => trivial
  refine .bind_any (fun programIndex => ?_) fun _ => trivial
  split
  · trivial
  · refine .bind_any (fun callerIndex => ?_) fun _ => trivial
    cases hconfigured : c.transactionContext.configureNextInstruction programIndex accounts
        callee.calleeMap instruction.data (some (callerIndex % 2 ^ 16)) with
    | error err => trivial
    | ok tx => exact ⟨_, _, _, _, _, tx, hconfigured, rfl⟩

end InvokeContext

end ProgramRuntime
end Gobble
