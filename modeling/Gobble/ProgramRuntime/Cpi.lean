import Gobble.Context.BorrowedAccount
import Gobble.ProgramRuntime.InvokeContext
import Gobble.ProgramRuntime.Translation

/-!
# Cpi — entering a cross-program invocation

Model of the first half of `cpi_common` in `program-runtime/src/cpi.rs`: the structures that the
caller passes are translated, the next instruction is prepared, and the changes that the caller has
made to its accounts are carried over to the accounts that the callee will see.

A structure of the guest is the list of its bytes.  Pointers are translated in two ways.  A shared
reference is translated with `AccessType::Load` and read at once; that is what `translateType` and
`translateSlice` do.  A mutable reference is translated with `AccessType::Store` and kept as a host
address, and what is behind it is read later: that is the operation `deref`, and nothing checks it.
-/

namespace Gobble
namespace ProgramRuntime

open Lib Sbpf Sdk Context Translation

/-! ## Programs of the runtime that read a caller's memory -/

/-- A caller in the middle of a syscall. -/
structure CallerState where
  memory : VmMemory
  context : InvokeContext

inductive CpiOp where
  | access (op : MemOp)
  /-- A read through a translated pointer. -/
  | deref (hostAddr : U64) (len : Nat)
  | getContext
  | setContext (context : InvokeContext)

abbrev CpiRet : CpiOp → Type
  | .access op => MemRet op
  | .deref _ _ => List UInt8
  | .getContext => InvokeContext
  | .setContext _ => Unit

def cpiHandler : EffectTree.Handler CpiOp CpiRet CallerState
  | .access op, s =>
      let (answer, memory) := memHandler op s.memory
      (answer, { s with memory })
  | .deref hostAddr len, s => (s.memory.host.readBytes hostAddr.toNat len, s)
  | .getContext, s => (s.context, s)
  | .setContext context, s => ((), { s with context })

abbrev CpiM := ExceptT (Fault BoxedError) (EffectTree CpiOp CpiRet)

namespace CpiM

variable {α : Type}

def call (op : CpiOp) : CpiM (CpiRet op) := ExceptT.lift (EffectTree.call op)

def fail (err : BoxedError) : CpiM α := throw (.err err)

/-- A plain result. -/
def ofResult : Outcome BoxedError α → CpiM α
  | .ok a => pure a
  | .error fault => throw fault

/-- A result of the transaction context; its error is boxed. -/
def ofInstruction (result : Except InstructionError α) : CpiM α :=
  ofResult (Outcome.lift (result.mapError .instruction))

/-- Runs pointer translations. -/
def translate (t : TranslateM α) : CpiM α := do
  ofResult (Outcome.lift (← ExceptT.lift (t.run.embed .access fun _ answer => answer)))

def require (condition : Bool) (err : BoxedError) : CpiM Unit :=
  if condition then pure () else fail err

/-- A step that is taken under a condition only. -/
def when (condition : Bool) (step : CpiM Unit) : CpiM Unit :=
  if condition then step else pure ()

def getContext : CpiM InvokeContext := call .getContext

def setContext (context : InvokeContext) : CpiM Unit := call (.setContext context)

def deref (hostAddr : U64) (len : Nat) : CpiM (List UInt8) := call (.deref hostAddr len)

def derefU64 (hostAddr : U64) : CpiM U64 := do
  return BitVec.ofNat 64 (leNat (← deref hostAddr 8))

def derefPubkey (hostAddr : U64) : CpiM Pubkey := do
  return pubkeyOfBytes (← deref hostAddr 32)

/-- A write through a translated pointer. -/
def write (hostAddr : U64) (bytes : List UInt8) : CpiM Unit := call (.access (.write hostAddr bytes))

/-- The instruction of the caller. -/
def currentInstruction : CpiM InstructionContext := do
  ofInstruction (← getContext).transactionContext.getCurrentInstructionContext

/-- `consume_compute_meter`. -/
def consume (amount : U64) : CpiM Unit := do
  let (result, context) := (← getContext).consumeChecked amount
  setContext context
  ofResult (Outcome.lift result)

/-- `checked_div(cpi_bytes_per_unit).unwrap_or(u64::MAX)`. -/
def bytesCost (context : InvokeContext) (bytes : U64) : U64 :=
  if context.executionCost.cpiBytesPerUnit = 0 then BitVec.allOnes 64
  else bytes / context.executionCost.cpiBytesPerUnit

def consumeBytes (bytes : U64) : CpiM Unit := do
  consume (bytesCost (← getContext) bytes)

/-- Changes an account through its borrow. -/
def update (setter : TransactionAccounts → BorrowedInstructionAccount.Updated) :
    CpiM BorrowedInstructionAccount := do
  let context ← getContext
  let (callee, accounts) ← ofInstruction (setter context.transactionContext.accounts)
  setContext { context with transactionContext.accounts := accounts }
  return callee

end CpiM

open CpiM

/-! ## Structures of the guest -/

/-- `StableInstruction`: vectors of accounts and data, each with address, capacity and length, and
the program id. -/
def Layout.stableInstruction : Layout := ⟨80, 8⟩
/-- `AccountMeta`: key, signer flag, writable flag. -/
def Layout.accountMeta : Layout := ⟨34, 1⟩
/-- `AccountInfo`: pointers to the key, to the cells of lamports and data, and to the owner; rent
epoch and flags. -/
def Layout.accountInfo : Layout := ⟨48, 8⟩
/-- `&[u8]` and `VmSlice`: address and length. -/
def Layout.vmSlice : Layout := ⟨16, 8⟩
/-- `SolInstruction`: addresses and lengths of program id, accounts and data. -/
def Layout.solInstruction : Layout := ⟨40, 8⟩
/-- `SolAccountMeta`: address of the key, writable flag, signer flag. -/
def Layout.solAccountMeta : Layout := ⟨16, 8⟩
/-- `SolAccountInfo`: addresses of key and lamports, length and address of the data, address of the
owner, rent epoch and flags. -/
def Layout.solAccountInfo : Layout := ⟨56, 8⟩

/-- The word at a position of a structure. -/
def wordAt (bytes : List UInt8) (pos : Nat) : U64 :=
  BitVec.ofNat 64 (leNat (slice bytes pos (pos + 8)))

/-- The elements of a slice of structures. -/
def elements (layout : Layout) (bytes : List UInt8) : List (List UInt8) :=
  (List.range (bytes.length / layout.size)).map fun i =>
    slice bytes (i * layout.size) ((i + 1) * layout.size)

/-- `as_ptr` of a cell behind an `Rc`: the value comes after two reference counts and the borrow
flag. -/
def cellAddr (rc : U64) : U64 := rc + 24

/-! ## Checks -/

/-- Code and settings that are not part of the modelled files. -/
structure CpiEnvironment where
  /-- `Pubkey::create_program_address`. -/
  createProgramAddress : (seeds : List (List UInt8)) → (programId : Pubkey) →
    Except PubkeyError Pubkey
  isPrecompile : Pubkey → Bool
  isUpgradeInstruction : List UInt8 → Bool
  isSetAuthorityInstruction : List UInt8 → Bool
  isSetAuthorityCheckedInstruction : List UInt8 → Bool
  isExtendProgramCheckedInstruction : List UInt8 → Bool
  isCloseInstruction : List UInt8 → Bool
  enableBpfLoaderSetAuthorityCheckedIx : Bool
  enableExtendProgramChecked : Bool

/-- No address is derived, no program is a precompile, and no loader instruction is recognised. -/
def CpiEnvironment.plain : CpiEnvironment :=
  { createProgramAddress := fun _ _ => .error .invalidSeeds
    isPrecompile := fun _ => false
    isUpgradeInstruction := fun _ => false
    isSetAuthorityInstruction := fun _ => false
    isSetAuthorityCheckedInstruction := fun _ => false
    isExtendProgramCheckedInstruction := fun _ => false
    isCloseInstruction := fun _ => false
    enableBpfLoaderSetAuthorityCheckedIx := true
    enableExtendProgramChecked := true }

def maxInstructionDataLen : Nat := 10 * 1024
def maxSigners : Nat := 16
def maxSeeds : Nat := 16
def accountInfoByteSize : Nat := 80
def maxCpiAccountInfos : Nat := 128
def maxCpiAccountInfosSimd0339 : Nat := 255

/-- Check that an account info pointer field points to the expected address. -/
def checkAccountInfoPointer (vmAddr expectedVmAddr : U64) : CpiM Unit :=
  require (vmAddr == expectedVmAddr) (.cpi .invalidPointer)

/-- Check that an instruction's account and data lengths are within limits. -/
def checkInstructionSize (numAccounts dataLen : Nat) : CpiM Unit := do
  require (decide (numAccounts ≤ maxAccountsPerInstruction))
    (.cpi (.maxInstructionAccountsExceeded (BitVec.ofNat 64 numAccounts)
      (BitVec.ofNat 64 maxAccountsPerInstruction)))
  require (decide (dataLen ≤ maxInstructionDataLen))
    (.cpi (.maxInstructionDataLenExceeded (BitVec.ofNat 64 dataLen)
      (BitVec.ofNat 64 maxInstructionDataLen)))

/-- The number of account infos that a CPI may have. -/
def maxAccountInfos (features : FeatureSet) : Nat :=
  if features.increaseCpiAccountInfoLimit then maxCpiAccountInfosSimd0339
  else if features.increaseTxAccountLockLimit then maxCpiAccountInfos
  else 64

/-- Check that the number of account infos is within the CPI limit. -/
def checkAccountInfos (numAccountInfos : Nat) : CpiM Unit := do
  let maxAccountInfos := maxAccountInfos (← getContext).featureSet
  require (decide (numAccountInfos ≤ maxAccountInfos))
    (.cpi (.maxInstructionAccountInfosExceeded (BitVec.ofNat 64 numAccountInfos)
      (BitVec.ofNat 64 maxAccountInfos)))

/-- Check whether a program is authorized for CPI. -/
def checkAuthorizedProgram (env : CpiEnvironment) (programId : Pubkey)
    (instructionData : List UInt8) : CpiM Unit :=
  require
    (!(programId == nativeLoaderId || programId == bpfLoaderId ||
      programId == bpfLoaderDeprecatedId ||
      (programId == bpfLoaderUpgradeableId &&
        !(env.isUpgradeInstruction instructionData ||
          env.isSetAuthorityInstruction instructionData ||
          (env.enableBpfLoaderSetAuthorityCheckedIx &&
            env.isSetAuthorityCheckedInstruction instructionData) ||
          (env.enableExtendProgramChecked &&
            env.isExtendProgramCheckedInstruction instructionData) ||
          env.isCloseInstruction instructionData)) ||
      env.isPrecompile programId))
    (.cpi (.programNotSupported programId))

/-! ## The instruction -/

/-- The cost of translating an instruction, in either language. -/
def translationCost (context : InvokeContext) (numAccounts dataLen : Nat) : U64 :=
  let dataCost := bytesCost context (BitVec.ofNat 64 dataLen)
  if context.featureSet.increaseCpiAccountInfoLimit then
    U64.saturatingAdd dataCost (bytesCost context
      (U64.saturatingMul (BitVec.ofNat 64 numAccounts) (BitVec.ofNat 64 Layout.accountMeta.size)))
  else
    dataCost

def checkFlags (isSigner isWritable : UInt8) : CpiM Unit :=
  require (decide (isSigner ≤ 1 ∧ isWritable ≤ 1)) (.instruction .invalidArgument)

def translateInstructionRust (addr : U64) (checkAligned : Bool) : CpiM Instruction := do
  let ix ← translate (translateType .stableInstruction addr checkAligned)
  let accountMetas ← translate
    (translateSlice .accountMeta (wordAt ix 0) (wordAt ix 16) checkAligned)
  let data ← translate (translateSlice .u8 (wordAt ix 24) (wordAt ix 40) checkAligned)
  let accountMetas := elements .accountMeta accountMetas
  checkInstructionSize accountMetas.length data.length
  consume (translationCost (← getContext) accountMetas.length data.length)
  let accounts ← accountMetas.mapM fun accountMeta => do
    let isSigner := accountMeta.getD 32 0
    let isWritable := accountMeta.getD 33 0
    checkFlags isSigner isWritable
    return { pubkey := pubkeyOfBytes accountMeta
             isSigner := isSigner == 1
             isWritable := isWritable == 1 : AccountMeta }
  return { programId := pubkeyOfBytes (slice ix 48 80), accounts, data }

def translateInstructionC (addr : U64) (checkAligned : Bool) : CpiM Instruction := do
  let ixC ← translate (translateType .solInstruction addr checkAligned)
  let programId ← translate (translateType .pubkey (wordAt ixC 0) checkAligned)
  let accountMetas ← translate
    (translateSlice .solAccountMeta (wordAt ixC 8) (wordAt ixC 16) checkAligned)
  let data ← translate (translateSlice .u8 (wordAt ixC 24) (wordAt ixC 32) checkAligned)
  let accountMetas := elements .solAccountMeta accountMetas
  checkInstructionSize accountMetas.length data.length
  consume (translationCost (← getContext) accountMetas.length data.length)
  let accounts ← accountMetas.mapM fun accountMeta => do
    let isWritable := accountMeta.getD 8 0
    let isSigner := accountMeta.getD 9 0
    checkFlags isSigner isWritable
    let pubkey ← translate (translateType .pubkey (wordAt accountMeta 0) checkAligned)
    return { pubkey := pubkeyOfBytes pubkey
             isSigner := isSigner == 1
             isWritable := isWritable == 1 : AccountMeta }
  return { programId := pubkeyOfBytes programId, accounts, data }

/-! ## The signers -/

/-- One signer: the seeds behind an address and a length. -/
def translateSigner (env : CpiEnvironment) (programId : Pubkey) (checkAligned : Bool)
    (signerSeeds : List UInt8) : CpiM Pubkey := do
  let seeds ← translate
    (translateSlice .vmSlice (wordAt signerSeeds 0) (wordAt signerSeeds 8) checkAligned)
  let seeds := elements .vmSlice seeds
  require (decide (seeds.length ≤ maxSeeds)) (.instruction .maxSeedLengthExceeded)
  let seeds ← seeds.mapM fun seed =>
    translate (translateSlice .u8 (wordAt seed 0) (wordAt seed 8) checkAligned)
  ofResult (Outcome.lift ((env.createProgramAddress seeds programId).mapError
    fun err => .cpi (.badSeeds err)))

/-- The seeds have the same layout in both languages. -/
def translateSigners (env : CpiEnvironment) (programId : Pubkey)
    (signersSeedsAddr signersSeedsLen : U64) (checkAligned : Bool) : CpiM (List Pubkey) :=
  if signersSeedsLen > 0 then do
    let signersSeeds ← translate
      (translateSlice .vmSlice signersSeedsAddr signersSeedsLen checkAligned)
    let signersSeeds := elements .vmSlice signersSeeds
    require (decide (signersSeeds.length ≤ maxSigners)) (.cpi .tooManySigners)
    signersSeeds.mapM (translateSigner env programId checkAligned)
  else
    pure []

/-! ## The accounts -/

/-- A slice of host memory. -/
structure HostSlice where
  addr : U64
  len : Nat
  deriving DecidableEq

/-- Host side representation of `AccountInfo` or `SolAccountInfo`; references are host addresses. -/
structure CallerAccount where
  lamports : U64
  owner : U64
  /-- The length of the data at the start of the current instruction. -/
  originalDataLen : Nat
  /-- The data of the account as it is mapped inside the VM; empty with direct mapping. -/
  serializedData : HostSlice
  vmDataAddr : U64
  refToLenInVm : U64
  deriving DecidableEq

def addressSpaceReservedForAccount (checkAligned : Bool) (originalDataLen : Nat) : Nat :=
  -- Programs of the deprecated loader have no room to grow.
  if checkAligned then originalDataLen + maxPermittedDataIncrease else originalDataLen

namespace CallerAccount

/-- Where the data of an account is in the host's memory. -/
def getSerializedData (mode : MappingMode) (checkAligned : Bool) (vmAddr : U64)
    (originalDataLen len : Nat) : CpiM HostSlice := do
  require (!mode.stricterAbiAndRuntimeConstraints ||
    decide (len ≤ addressSpaceReservedForAccount checkAligned originalDataLen))
    (.instruction .invalidRealloc)
  if mode.isDirect then
    return ⟨1, 0⟩
  else if mode.stricterAbiAndRuntimeConstraints then
    -- The pointer is derived from the start of the input, whatever the region of the data allows.
    let serializationPtr ← translate (translateSliceMutForCpi .u8 mmInputStart 1 false)
    return ⟨serializationPtr + U64.saturatingSub vmAddr mmInputStart, len⟩
  else
    let data ← translate (translateSliceMutForCpi .u8 vmAddr (BitVec.ofNat 64 len) false)
    return ⟨data, len⟩

/-- The end of both translations, where the data of the account is found.  The length is in the
guest's memory at `vmLenAddr`, and `dataLen` is what was read there before. -/
def fromFields (mode : MappingMode) (checkAligned : Bool) (metadata : SerializedAccountMetadata)
    (lamports owner vmDataAddr dataLen vmLenAddr : U64) : CpiM CallerAccount := do
  require (!mode.stricterAbiAndRuntimeConstraints || decide (vmLenAddr < mmInputStart))
    (.cpi .invalidPointer)
  let refToLenInVm ← translate (translateTypeMutForCpi .u64 vmLenAddr false)
  let len ← (if mode.stricterAbiAndRuntimeConstraints then derefU64 refToLenInVm else pure dataLen)
  let serializedData ←
    getSerializedData mode checkAligned vmDataAddr metadata.originalDataLen len.toNat
  return { lamports, owner, originalDataLen := metadata.originalDataLen, serializedData,
           vmDataAddr, refToLenInVm }

/-- Create a `CallerAccount` given an `AccountInfo`. -/
def fromAccountInfo (mode : MappingMode) (checkAligned : Bool) (_vmAddr : U64)
    (accountInfo : List UInt8) (metadata : SerializedAccountMetadata) : CpiM CallerAccount := do
  let stricter := mode.stricterAbiAndRuntimeConstraints
  let lamportsAddr := cellAddr (wordAt accountInfo 8)
  let dataCell := cellAddr (wordAt accountInfo 16)
  let ownerAddr := wordAt accountInfo 24
  when stricter do
    checkAccountInfoPointer (wordAt accountInfo 0) metadata.vmKeyAddr
    checkAccountInfoPointer ownerAddr metadata.vmOwnerAddr
  -- Double translate lamports out of RefCell.
  let ptr ← translate (translateType .u64 lamportsAddr checkAligned)
  when stricter do
    require (decide (lamportsAddr < mmInputStart)) (.cpi .invalidPointer)
    checkAccountInfoPointer (wordAt ptr 0) metadata.vmLamportsAddr
  let lamports ← translate (translateTypeMutForCpi .u64 (wordAt ptr 0) checkAligned)
  let owner ← translate (translateTypeMutForCpi .pubkey ownerAddr checkAligned)
  require (!stricter || decide (dataCell < mmInputStart)) (.cpi .invalidPointer)
  -- Double translate data out of RefCell.
  let data ← translate (translateType .vmSlice dataCell checkAligned)
  when stricter (checkAccountInfoPointer (wordAt data 0) metadata.vmDataAddr)
  when (!stricter) (consumeBytes (wordAt data 8))
  fromFields mode checkAligned metadata lamports owner (wordAt data 0) (wordAt data 8)
    (U64.saturatingAdd dataCell 8)

/-- Create a `CallerAccount` given a `SolAccountInfo`. -/
def fromSolAccountInfo (mode : MappingMode) (checkAligned : Bool) (vmAddr : U64)
    (accountInfo : List UInt8) (metadata : SerializedAccountMetadata) : CpiM CallerAccount := do
  let lamportsAddr := wordAt accountInfo 8
  let dataLen := wordAt accountInfo 16
  let dataAddr := wordAt accountInfo 24
  let ownerAddr := wordAt accountInfo 32
  when mode.stricterAbiAndRuntimeConstraints do
    checkAccountInfoPointer (wordAt accountInfo 0) metadata.vmKeyAddr
    checkAccountInfoPointer ownerAddr metadata.vmOwnerAddr
    checkAccountInfoPointer lamportsAddr metadata.vmLamportsAddr
    checkAccountInfoPointer dataAddr metadata.vmDataAddr
  let lamports ← translate (translateTypeMutForCpi .u64 lamportsAddr checkAligned)
  let owner ← translate (translateTypeMutForCpi .pubkey ownerAddr checkAligned)
  when (!mode.stricterAbiAndRuntimeConstraints) (consumeBytes dataLen)
  -- The address of the field `data_len` of this structure.
  fromFields mode checkAligned metadata lamports owner dataAddr dataLen
    (U64.saturatingAdd vmAddr 16)

end CallerAccount

/-! ## Updating the callee's view of an account -/

/-- If the account has been shrunk, zero the memory that was previously used. -/
def zeroUnused (mode : MappingMode) (checkAligned : Bool) (caller : CallerAccount)
    (prevLen postLen : Nat) : CpiM Unit := do
  let serializedData ← CallerAccount.getSerializedData mode checkAligned caller.vmDataAddr
    caller.originalDataLen prevLen
  require (decide (postLen ≤ serializedData.len)) (.instruction .accountDataTooSmall)
  CpiM.write (serializedData.addr + BitVec.ofNat 64 postLen)
    (List.replicate (serializedData.len - postLen) 0)

/-- The length of the data, with stricter constraints. -/
def updateCalleeLength (mode : MappingMode) (checkAligned : Bool) (caller : CallerAccount)
    (callee : BorrowedInstructionAccount) (postLen : Nat) : CpiM BorrowedInstructionAccount :=
  let prevLen := callee.getData.length
  if prevLen ≠ postLen then do
    when (!mode.accountDataDirectMapping && decide (postLen < prevLen))
      (zeroUnused mode checkAligned caller prevLen postLen)
    update fun accounts => callee.setDataLength accounts postLen
  else
    pure callee

/-- The bytes of the data, with stricter constraints: those that are mapped directly are already
there, and those of others' accounts are not looked at. -/
def updateCalleeBytes (mode : MappingMode) (caller : CallerAccount)
    (callee : BorrowedInstructionAccount) : CpiM BorrowedInstructionAccount :=
  if !mode.accountDataDirectMapping && callee.canDataBeChanged.isOk then do
    let data ← deref caller.serializedData.addr caller.serializedData.len
    update fun accounts => callee.setDataFromSlice accounts data
  else
    pure callee

/-- The data without stricter constraints, where the caller's copy has to be equal to the data if the
caller may not change it. -/
def updateCalleeData (caller : CallerAccount) (callee : BorrowedInstructionAccount) :
    CpiM BorrowedInstructionAccount := do
  let data ← deref caller.serializedData.addr caller.serializedData.len
  let context ← getContext
  match callee.canDataBeResized context.transactionContext.accounts data.length with
  | .ok _ => update fun accounts => callee.setDataFromSlice accounts data
  | .error err => if callee.getData ≠ data then fail (.instruction err) else pure callee

/-- The account with its data updated, and whether its length has changed. -/
def syncCalleeData (mode : MappingMode) (checkAligned : Bool) (caller : CallerAccount)
    (callee : BorrowedInstructionAccount) : CpiM (BorrowedInstructionAccount × Bool) :=
  if mode.stricterAbiAndRuntimeConstraints then do
    let postLen := (← derefU64 caller.refToLenInVm).toNat
    let resized ← updateCalleeLength mode checkAligned caller callee postLen
    let updated ← updateCalleeBytes mode caller resized
    return (updated, callee.getData.length != postLen)
  else do
    let updated ← updateCalleeData caller callee
    return (updated, false)

/-- Update the given account before executing CPI; true if the caller must be updated after it. -/
def updateCalleeAccount (mode : MappingMode) (checkAligned : Bool) (caller : CallerAccount)
    (callee : BorrowedInstructionAccount) : CpiM Bool := do
  let lamports ← derefU64 caller.lamports
  let paid ←
    (if callee.getLamports ≠ lamports then
      update fun accounts => callee.setLamports accounts lamports
    else
      pure callee)
  let (updated, mustUpdateCaller) ← syncCalleeData mode checkAligned caller paid
  -- Change the owner at the end so that lamports and data may be changed before.
  let owner ← derefPubkey caller.owner
  if updated.getOwner ≠ owner then
    let _ ← update fun accounts => updated.setOwner accounts owner
    return true
  else
    return mustUpdateCaller

/-! ## Translating the accounts -/

/-- Account data and metadata that has been translated from caller space. -/
structure TranslatedAccount where
  indexInCaller : IndexOfAccount
  callerAccount : CallerAccount
  updateCallerAccountRegion : Bool
  updateCallerAccountInfo : Bool
  deriving DecidableEq

/-- The two languages. -/
inductive Abi where
  | rust
  | c
  deriving DecidableEq, Repr

namespace Abi

def accountInfo : Abi → Layout
  | .rust => .accountInfo
  | .c => .solAccountInfo

def fromInfo : Abi → MappingMode → Bool → U64 → List UInt8 → SerializedAccountMetadata →
    CpiM CallerAccount
  | .rust => CallerAccount.fromAccountInfo
  | .c => CallerAccount.fromSolAccountInfo

def translateInstruction : Abi → U64 → Bool → CpiM Instruction
  | .rust => translateInstructionRust
  | .c => translateInstructionC

end Abi

/-- The account infos, and the keys that they point to. -/
def translateAccountInfos (abi : Abi) (mode : MappingMode) (checkAligned : Bool)
    (accountInfosAddr accountInfosLen : U64) : CpiM (List (List UInt8) × List Pubkey) := do
  require (!mode.stricterAbiAndRuntimeConstraints ||
    decide (U64.saturatingAdd accountInfosAddr
      (U64.saturatingMul accountInfosLen (BitVec.ofNat 64 abi.accountInfo.size)) < mmInputStart))
    (.cpi .invalidPointer)
  let accountInfos ← translate
    (translateSlice abi.accountInfo accountInfosAddr accountInfosLen checkAligned)
  let accountInfos := elements abi.accountInfo accountInfos
  checkAccountInfos accountInfos.length
  when (← getContext).featureSet.increaseCpiAccountInfoLimit
    (consumeBytes (BitVec.ofNat 64 (accountInfos.length * accountInfoByteSize)))
  -- The key is the first field of an account info in both languages.
  let accountInfoKeys ← accountInfos.mapM fun accountInfo => do
    return pubkeyOfBytes (← translate (translateType .pubkey (wordAt accountInfo 0) checkAligned))
  return (accountInfos, accountInfoKeys)

/-- What is the same for all accounts of one invocation. -/
structure AccountTranslation where
  abi : Abi
  mode : MappingMode
  checkAligned : Bool
  accountInfosAddr : U64
  accountInfos : List (List UInt8)
  accountInfoKeys : List Pubkey
  accountsMetadata : List SerializedAccountMetadata

/-- An account of the callee that is not executable and stands in the caller's account infos. -/
def translateCallerAccount (t : AccountTranslation) (instructionAccount : InstructionAccount)
    (indexInCaller : IndexOfAccount) (callee : BorrowedInstructionAccount)
    (callerAccountIndex : Nat) : CpiM TranslatedAccount := do
  let metadata ← ofResult
    (Outcome.okOr (.instruction .missingAccount) t.accountsMetadata[indexInCaller]?)
  let accountInfo ← ofResult (Outcome.okOr (.cpi .invalidLength) t.accountInfos[callerAccountIndex]?)
  let callerAccount ← t.abi.fromInfo t.mode t.checkAligned
    (U64.saturatingAdd t.accountInfosAddr
      (BitVec.ofNat 64 (callerAccountIndex * t.abi.accountInfo.size)))
    accountInfo metadata
  let updateCaller ←
    (if t.mode.stricterAbiAndRuntimeConstraints then do
      consumeBytes (← derefU64 callerAccount.refToLenInVm)
      return true
    else
      -- Before initiating CPI, the caller may have modified the account.
      updateCalleeAccount t.mode t.checkAligned callerAccount callee)
  return { indexInCaller, callerAccount,
           updateCallerAccountRegion := instructionAccount.isWritable || updateCaller,
           updateCallerAccountInfo := instructionAccount.isWritable }

/-- The loop body of `translate_accounts_common`.  Duplicates and executable accounts are not
translated. -/
def translateAccount (t : AccountTranslation) (next : InstructionContext)
    (instructionAccount : InstructionAccount × Nat) : CpiM (Option TranslatedAccount) := do
  let (instructionAccount, instructionAccountIndex) := instructionAccount
  let duplicate ← ofInstruction (next.isInstructionAccountDuplicate instructionAccountIndex)
  if duplicate.isSome then
    return none
  else do
    let instructionContext ← currentInstruction
    let indexInCaller ← ofInstruction
      (instructionContext.getIndexOfAccountInInstruction instructionAccount.indexInTransaction)
    let callee ← ofInstruction (instructionContext.tryBorrowInstructionAccount indexInCaller)
    let accountKey ← ofInstruction (instructionContext.transactionContext.getKeyOfAccountAtIndex
      instructionAccount.indexInTransaction)
    if callee.isExecutable then do
      -- Use the known account.
      consumeBytes (BitVec.ofNat 64 callee.getData.length)
      return none
    else
      match t.accountInfoKeys.findIdx? fun key => key == accountKey with
      | none => fail (.instruction .missingAccount)
      | some callerAccountIndex => do
          return some
            (← translateCallerAccount t instructionAccount indexInCaller callee callerAccountIndex)

/-- Finish translating accounts. -/
def translateAccountsCommon (abi : Abi) (mode : MappingMode) (checkAligned : Bool)
    (accountInfosAddr : U64) (accountInfos : List (List UInt8)) (accountInfoKeys : List Pubkey) :
    CpiM (List TranslatedAccount) := do
  let context ← getContext
  let next ← ofInstruction context.transactionContext.getNextInstructionContext
  let _ ← currentInstruction
  -- Unwrapping is fine in a syscall.
  let syscallContext ← ofResult (Outcome.unwrap context.getSyscallContext.toOption)
  let t : AccountTranslation := { abi, mode, checkAligned, accountInfosAddr, accountInfos,
                                  accountInfoKeys,
                                  accountsMetadata := syscallContext.accountsMetadata }
  let accounts ← next.instructionAccounts.zipIdx.mapM (translateAccount t next)
  return accounts.reduceOption

/-- `translate_accounts_rust` and `translate_accounts_c`. -/
def translateAccounts (abi : Abi) (mode : MappingMode) (checkAligned : Bool)
    (accountInfosAddr accountInfosLen : U64) : CpiM (List TranslatedAccount) := do
  let (accountInfos, accountInfoKeys) ←
    translateAccountInfos abi mode checkAligned accountInfosAddr accountInfosLen
  translateAccountsCommon abi mode checkAligned accountInfosAddr accountInfos accountInfoKeys

/-! ## Entering the invocation -/

/-- The arguments of the syscall. -/
structure CpiRequest where
  abi : Abi
  instructionAddr : U64
  accountInfosAddr : U64
  accountInfosLen : U64
  signersSeedsAddr : U64
  signersSeedsLen : U64
  deriving DecidableEq

/-- Should alignment be enforced during user pointer translation. -/
def InvokeContext.getCheckAligned (c : InvokeContext) : Bool :=
  match c.transactionContext.getCurrentInstructionContext >>= InstructionContext.getProgramOwner with
  | .ok owner => owner != bpfLoaderDeprecatedId
  | .error _ => true

/-- Synchronize one of the caller's accounts, with stricter constraints. -/
def synchronizeAccount (mode : MappingMode) (checkAligned : Bool) (account : TranslatedAccount) :
    CpiM TranslatedAccount := do
  let instructionContext ← currentInstruction
  let callee ← ofInstruction (instructionContext.tryBorrowInstructionAccount account.indexInCaller)
  let updateCaller ← updateCalleeAccount mode checkAligned account.callerAccount callee
  return { account with
    updateCallerAccountRegion := account.updateCallerAccountInfo || updateCaller }

/-- What comes after the invocation has been paid for. -/
def enterPaidCpi (mode : MappingMode) (checkAligned : Bool) (env : CpiEnvironment)
    (request : CpiRequest) : CpiM (List TranslatedAccount) := do
  let instruction ← request.abi.translateInstruction request.instructionAddr checkAligned
  let instructionContext ← currentInstruction
  let callerProgramId ← ofInstruction instructionContext.getProgramKey
  let signers ← translateSigners env callerProgramId request.signersSeedsAddr
    request.signersSeedsLen checkAligned
  checkAuthorizedProgram env instruction.programId instruction.data
  let prepared ← ofResult
    (((← getContext).prepareNextInstruction instruction signers).mapError fun
      | .err err => .err (.instruction err)
      | .panic => .panic)
  setContext prepared
  let accounts ← translateAccounts request.abi mode checkAligned request.accountInfosAddr
    request.accountInfosLen
  if mode.stricterAbiAndRuntimeConstraints then
    accounts.mapM (synchronizeAccount mode checkAligned)
  else
    return accounts

/-- `cpi_common` up to the call of `process_instruction`. -/
def enterCpi (env : CpiEnvironment) (request : CpiRequest) : CpiM (List TranslatedAccount) := do
  let context ← getContext
  consume context.executionCost.invokeUnits
  enterPaidCpi context.featureSet.mapping context.getCheckAligned env request

/-- The result of the entry, and the caller after it. -/
def CallerState.enterCpi (s : CallerState) (env : CpiEnvironment) (request : CpiRequest) :
    Outcome BoxedError (List TranslatedAccount) × CallerState :=
  (ProgramRuntime.enterCpi env request).run.run cpiHandler s

end ProgramRuntime
end Gobble
