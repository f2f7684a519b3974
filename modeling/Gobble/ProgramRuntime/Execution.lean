import Gobble.ProgramRuntime.Deserialization
import Gobble.ProgramRuntime.ForbiddenRanges
import Gobble.ProgramRuntime.InvokeContext

/-!
# Execution — programs that call programs

Model of `execute` in `program-runtime/src/vm.rs`, of the program invocation in the loaders, and of
`process_executable_chain` and `process_instruction` in `invoke_context.rs`.  The four call each
other: a program that runs in a VM invokes another program by a syscall, and that ends in
`process_instruction` again.

The code of programs is a parameter.  Whatever runs in a VM (the interpreter or compiled code, the
syscalls, the access violation handler) is a tree over the operations of a VM; a native program is
a tree over the operations on the context.  Both can invoke programs.  Nothing is assumed about a
tree.  In particular an account may be changed at any time, as a store to directly mapped account
data does.

Every run also returns its *execution*, the tree of the invocations that took place.  The execution
is not part of the program; it is what statements about runs speak of.
-/

namespace Gobble
namespace ProgramRuntime

open Lib Sbpf Sdk Context

/-! ## Executions -/

/-- The life of a VM: the instruction it was created for, and its tracker when it started and when
it finished. -/
structure VmRun where
  instructionContext : InstructionContext
  accountsMetadata : List SerializedAccountMetadata
  created : MemoryAccessTracker
  finished : MemoryAccessTracker

/-- An invocation of a program. -/
inductive Execution where
  /-- The instruction could not be entered in the given context. -/
  | rejected (context : InvokeContext)
  /-- The program was entered in the given context.  `vm` is the VM that ran it, if one did, and
  `calls` are the invocations it made, in order. -/
  | entered (context : InvokeContext) (vm : Option VmRun) (calls : List Execution)

namespace Execution

mutual

/-- The VMs of an execution in the order in which they finished: callees before their caller. -/
def finishedVms : Execution → List VmRun
  | rejected _ => []
  | entered _ vm calls => finishedVmsOfCalls calls ++ vm.toList

def finishedVmsOfCalls : List Execution → List VmRun
  | [] => []
  | call :: calls => finishedVms call ++ finishedVmsOfCalls calls

end

mutual

/-- The contexts in which programs were entered. -/
def entries : Execution → List InvokeContext
  | rejected _ => []
  | entered context _ calls => context :: entriesOfCalls calls

def entriesOfCalls : List Execution → List InvokeContext
  | [] => []
  | call :: calls => entries call ++ entriesOfCalls calls

end

end Execution

/-! ## Operations of running programs -/

/-- What a running program can do to the context. -/
inductive ContextOp where
  | getContext
  | consume (amount : U64)
  | setReturnData (programId : Pubkey) (data : List UInt8)
  | setAccount (index : IndexOfAccount) (account : AccountSharedData)
  | setDeltas (resizeDelta lamportsDelta : Int)
  | replenish (key : Pubkey) (entry : ProgramCacheEntryType)
  | setSyscallContext (syscallContext : SyscallContext)

abbrev ContextRet : ContextOp → Type
  | .getContext => InvokeContext
  | .consume _ => Unit
  | .setReturnData _ _ => Unit
  | .setAccount _ _ => Unit
  | .setDeltas _ _ => Unit
  | .replenish _ _ => Unit
  | .setSyscallContext _ => Except InstructionError Unit

/-- What code in a VM can do.  An access comes with what the access violation handler does at that
moment, which depends on the state of the accounts. -/
inductive VmOp where
  | access (handler : AccessViolationHandler) (op : MemOp)
  | findRegion (vmAddr : U64)
  | replaceRegion (index : Nat) (region : MemoryRegion)
  | context (op : ContextOp)

abbrev VmRet : VmOp → Type
  | .access _ op => MemRet op
  | .findRegion _ => Option (Nat × MemoryRegion)
  | .replaceRegion _ _ => Except EbpfError Unit
  | .context op => ContextRet op

/-- An instruction that a program may invoke: the number of its accounts has been checked. -/
structure CheckedInstruction extends Instruction where
  bounded : accounts.length ≤ maxAccountsPerInstruction

/-- The operations of a machine, and the invocation of another program.  `sync` is the part of an
invocation between preparing the instruction and processing it, where the accounts of the caller
are translated and the accounts of the callee are updated.  An invocation that fails ends the
program: the error of a syscall ends the VM, and builtins pass it on. -/
inductive ProgramOp (Op : Type) (Ret : Op → Type) where
  | basic (op : Op)
  | invoke (instruction : CheckedInstruction) (signers : List Pubkey)
      (sync : EffectTree Op Ret (Except BoxedError Unit))

abbrev ProgramRet {Op : Type} {Ret : Op → Type} : ProgramOp Op Ret → Type
  | .basic op => Ret op
  | .invoke _ _ _ => Unit

abbrev NativeCode :=
  EffectTree (ProgramOp ContextOp ContextRet) ProgramRet (Except BoxedError U64)
abbrev VmCode := EffectTree (ProgramOp VmOp VmRet) ProgramRet ProgramResult

/-- A verified program. -/
structure LoadedExecutable where
  config : Config
  sbpfVersion : SBPFVersion
  roRegion : MemoryRegion
  /-- What the program does if it is started with the given value in register 2. -/
  code : U64 → VmCode

/-- The state of the runtime between two invocations. -/
structure RuntimeState where
  context : InvokeContext
  host : ByteMemory

/-- Memory that the host hands out for a new VM. -/
structure HostAllocation where
  storage : HostStorage
  stackAddr : U64
  heapAddr : U64

/-- Everything that is not decided by the runtime. -/
structure World where
  executable : Nat → LoadedExecutable
  native : Nat → NativeCode
  /-- `process_loader_upgradeable_instruction`. -/
  upgradeableLoader : NativeCode
  /-- The management instructions of loader v4. -/
  loaderV4 : NativeCode
  allocate : RuntimeState → HostAllocation
  /-- `InstructionError::from(u64)`. -/
  statusError : U64 → InstructionError

/-- Why a run does not return.  A panic ends the process; `calls` are the invocations that had taken
place by then. -/
inductive Abort where
  | panic (calls : List Execution)
  | outOfFuel

/-- The abort of a run that came after the given invocations. -/
def Abort.after (calls : List Execution) : Abort → Abort
  | .panic more => .panic (calls ++ more)
  | .outOfFuel => .outOfFuel

/-- The abort of a program that was entered in the given context. -/
def Abort.inside (context : InvokeContext) : Abort → Abort
  | .panic calls => .panic [.entered context none calls]
  | .outOfFuel => .outOfFuel

/-- What an invocation leaves behind. -/
structure Invocation where
  result : Except InstructionError Unit
  execution : Execution
  state : RuntimeState

/-- A running program. -/
structure Activation where
  context : InvokeContext
  host : ByteMemory
  calls : List Execution

/-- A running VM. -/
structure VmActivation where
  activation : Activation
  mapping : MemoryMapping

/-- `process_instruction`, as seen by the programs that call it. -/
abbrev Invoke := RuntimeState → Except Abort Invocation

def contextHandler : EffectTree.Handler ContextOp ContextRet Activation
  | .getContext, a => (a.context, a)
  | .consume amount, a => ((), { a with context := a.context.consume amount })
  | .setReturnData programId data, a =>
      ((), { a with
        context.transactionContext := a.context.transactionContext.setReturnData programId data })
  | .setAccount index account, a =>
      ((), { a with
        context.transactionContext.accounts :=
          a.context.transactionContext.accounts.setAccount index account })
  | .setDeltas resizeDelta lamportsDelta, a =>
      ((), { a with
        context.transactionContext.accounts :=
          { a.context.transactionContext.accounts with resizeDelta, lamportsDelta } })
  | .replenish key entry, a =>
      ((), { a with context.programCache := (key, entry) :: a.context.programCache })
  | .setSyscallContext syscallContext, a =>
      match a.context.setSyscallContext syscallContext with
      | .ok context => (.ok (), { a with context })
      | .error err => (.error err, a)

def vmHandler : EffectTree.Handler VmOp VmRet VmActivation
  | .access handler op, v =>
      let mapping := v.mapping.modifyCommon fun c => { c with accessViolationHandler := handler }
      let (answer, memory) := memHandler op ⟨mapping, v.activation.host⟩
      (answer, { activation := { v.activation with host := memory.host }
                 mapping := memory.mapping })
  | .findRegion vmAddr, v =>
      let (found, mapping) := v.mapping.findRegion vmAddr
      (found, { v with mapping })
  | .replaceRegion index region, v =>
      match v.mapping.replaceRegion index region with
      | .ok mapping => (.ok (), { v with mapping })
      | .error err => (.error err, v)
  | .context op, v =>
      let (answer, activation) := contextHandler op v.activation
      (answer, { v with activation })

/-! ## Invoking a program -/

/-- Something that runs programs: it has operations of its own, and there is an activation in its
state. -/
structure Machine (Op : Type) (Ret : Op → Type) (σ : Type) where
  step : EffectTree.Handler Op Ret σ
  activation : σ → Activation
  resume : σ → Activation → σ

def nativeMachine : Machine ContextOp ContextRet Activation :=
  ⟨contextHandler, id, fun _ a => a⟩

def vmMachine : Machine VmOp VmRet VmActivation :=
  ⟨vmHandler, VmActivation.activation, fun v activation => { v with activation }⟩

/-- Why a program stops before its code has come to an end. -/
inductive Stop (σ : Type) where
  | abort (abort : Abort)
  | failed (err : BoxedError) (s : σ)

def Activation.prepareNextInstruction (a : Activation) (instruction : Instruction)
    (signers : List Pubkey) : Outcome InstructionError Activation := do
  let context ← a.context.prepareNextInstruction instruction signers
  return { a with context }

def Activation.processInstruction (invoke : Invoke) (a : Activation) :
    Except Abort (Except InstructionError Unit × Activation) :=
  match invoke ⟨a.context, a.host⟩ with
  | .error abort => .error (abort.after a.calls)
  | .ok call =>
      .ok (call.result, ⟨call.state.context, call.state.host, a.calls ++ [call.execution]⟩)

namespace Machine

variable {Op : Type} {Ret : Op → Type} {σ : Type} (m : Machine Op Ret σ)

def handler (invoke : Invoke) :
    EffectTree.AbortingHandler (ProgramOp Op Ret) ProgramRet (Stop σ) σ
  | .basic op, s => .ok (m.step op s)
  | .invoke instruction signers sync, s =>
      match (m.activation s).prepareNextInstruction instruction.toInstruction signers with
      | .error .panic => .error (.abort (.panic (m.activation s).calls))
      | .error (.err err) => .error (.failed (.instruction err) s)
      | .ok a =>
          match sync.run m.step (m.resume s a) with
          | (.error err, s) => .error (.failed err s)
          | (.ok _, s) =>
              match (m.activation s).processInstruction invoke with
              | .error abort => .error (.abort abort)
              | .ok (.error err, a) => .error (.failed (.instruction err) (m.resume s a))
              | .ok (.ok _, a) => .ok ((), m.resume s a)

/-- Run a program to its end; `onFailure` is its result if an invocation failed. -/
def runProgram {α : Type} (invoke : Invoke) (onFailure : BoxedError → α)
    (code : EffectTree (ProgramOp Op Ret) ProgramRet α) (s : σ) : Except Abort (α × σ) :=
  match code.exec (m.handler invoke) s with
  | .ok r => .ok r
  | .error (.abort abort) => .error abort
  | .error (.failed err s) => .ok (onFailure err, s)

end Machine

/-! ## Creating a VM -/

def calculateHeapCost (heapSize : Nat) (heapCost : U64) : U64 :=
  let pageSize := 32 * 1024
  let pages := (heapSize + (pageSize - 1)) / pageSize
  U64.saturatingMul (BitVec.ofNat 64 (pages - 1)) heapCost

namespace LoadedExecutable

def stackSize (exe : LoadedExecutable) : Nat :=
  exe.config.stackFrameSize * exe.config.maxCallDepth

def createMemoryMapping (exe : LoadedExecutable) (host : HostAllocation) (heapSize : Nat)
    (additionalRegions : List MemoryRegion) : Outcome EbpfError MemoryMapping :=
  let stackGap :=
    if exe.sbpfVersion.stackFrameGaps && exe.config.enableStackFrameGaps then
      BitVec.ofNat 64 exe.config.stackFrameSize
    else
      0
  let regions :=
    [exe.roRegion,
      MemoryRegion.newWritableGapped host.stackAddr (BitVec.ofNat 64 exe.stackSize) mmStackStart
        stackGap,
      MemoryRegion.newWritable host.heapAddr (BitVec.ofNat 64 heapSize) mmHeapStart] ++
    additionalRegions
  MemoryMapping.newWithAccessViolationHandler regions exe.config exe.sbpfVersion
    defaultAccessViolationHandler

/-- Build the mapping and register the syscall context. -/
def createVm (exe : LoadedExecutable) (host : HostAllocation) (params : SerializedParameters)
    (c : InvokeContext) : Outcome BoxedError MemoryMapping × InvokeContext :=
  let heapSize := c.computeBudget.heapSize
  match exe.createMemoryMapping host heapSize params.regions with
  | .error .panic => (Outcome.panic, c)
  | .error (.err err) => (Outcome.err (.ebpf err), c)
  | .ok mapping =>
      let syscallContext : SyscallContext :=
        ⟨⟨BitVec.ofNat 64 heapSize, 0⟩, params.accountsMetadata⟩
      match c.setSyscallContext syscallContext with
      | .error err => (Outcome.err (.instruction err), c)
      | .ok c => (.ok mapping, c)

/-- `create_vm!`: the heap has to be paid for first. -/
def payAndCreateVm (exe : LoadedExecutable) (host : HostAllocation)
    (params : SerializedParameters) (c : InvokeContext) :
    Outcome BoxedError MemoryMapping × InvokeContext :=
  match c.consumeChecked (calculateHeapCost c.computeBudget.heapSize c.executionCost.heapCost) with
  | (.error err, c) => (Outcome.err err, c)
  | (.ok _, c) => exe.createVm host params c

/-- Host memory with the parameters in place and a clean stack and heap. -/
def loadMemory (exe : LoadedExecutable) (host : HostAllocation) (params : SerializedParameters)
    (heapSize : Nat) (memory : ByteMemory) : ByteMemory :=
  ((memory.writeBytes host.storage.bufferAddr.toNat params.buffer.bytes).fill
    host.stackAddr.toNat exe.stackSize 0).fill host.heapAddr.toNat heapSize 0

end LoadedExecutable

/-- `add_watched_memory_ranges` of a VM, unless there is nothing to watch. -/
def watchMemoryRanges (mapping : MemoryMapping) (vmRanges : List AddrRange) : MemoryMapping :=
  mapping.modifyCommon fun c => { c with accessTracker := watchRanges c.accessTracker vmRanges }

/-- Collect forbidden memory accesses from the VM tracker before dropping. -/
def InvokeContext.collectForbiddenAccesses (c : InvokeContext) (mapping : MemoryMapping) :
    InvokeContext :=
  let hasForbiddenAccesses :=
    (mapping.getAccessTracker.map MemoryAccessTracker.hasForbiddenAccesses).getD false
  if hasForbiddenAccesses then
    { c with
      forbiddenMemoryAccesses := c.forbiddenMemoryAccesses ++ mapping.getForbiddenAccesses }
  else
    c

/-! ## The result of a program -/

/-- The address space of each account, from its metadata. -/
def accountRegionAddrs (isLoaderDeprecated : Bool)
    (accountsMetadata : List SerializedAccountMetadata) : List AddrRange :=
  accountsMetadata.map fun m =>
    let increase := if !isLoaderDeprecated then maxPermittedDataIncrease else 0
    ⟨m.vmDataAddr, U64.saturatingAdd
      (U64.saturatingAdd m.vmDataAddr (BitVec.ofNat 64 m.originalDataLen))
      (BitVec.ofNat 64 increase)⟩

/-- The reason why an access of an account's address space was refused, if it was one. -/
def explainAccessViolation (c : InvokeContext) (regionAddrs : List AddrRange)
    (accessType : AccessType) (vmAddr len : U64) :
    Outcome InstructionError (Option InstructionError) := do
  match regionAddrs.findIdx? fun r => decide (r.start ≤ vmAddr ∧ vmAddr < r.stop) with
  | none => return none
  | some index =>
      let range ← Outcome.unwrap regionAddrs[index]?
      let ic ← Outcome.lift c.transactionContext.getCurrentInstructionContext
      let account ← Outcome.lift (ic.tryBorrowInstructionAccount index)
      if U64.saturatingAdd vmAddr len ≤ range.stop then
        let isAccessOutsideOfData :=
          (U64.saturatingSub (U64.saturatingAdd vmAddr len) range.start).toNat >
            account.getData.length
        match accessType, account.canDataBeChanged with
        | .store, .error err => return some err
        | .store, .ok _ =>
            -- The store was allowed but failed, so it must have been an attempt to grow.
            if isAccessOutsideOfData then return some .invalidRealloc else Outcome.panic
        | .load, canDataBeChanged =>
            if !isAccessOutsideOfData then
              Outcome.panic
            else if !canDataBeChanged.isOk then
              return some .accountDataTooSmall
            else
              return some .invalidRealloc
      else
        return none

/-- The error that `execute` returns for an error of the VM. -/
def explainError (c : InvokeContext) (regionAddrs : List AddrRange) (error : EbpfError) :
    Outcome InstructionError BoxedError := do
  if c.featureSet.mapping.stricterAbiAndRuntimeConstraints then
    let error :=
      match error with
      | .syscallError (.ebpf inner) => inner
      | error => error
    match error with
    | .accessViolation accessType vmAddr len _ =>
        match ← explainAccessViolation c regionAddrs accessType vmAddr len with
        | some err => return .instruction err
        | none => return .ebpf error
    | .syscallError err => return err
    | error => return .ebpf error
  else
    match error with
    | .syscallError err => return err
    | error => return .ebpf error

def isSyscallError : EbpfError → Bool
  | .syscallError _ => true
  | _ => false

/-- What becomes of the result of the VM. -/
def resultOfProgram (w : World) (regionAddrs : List AddrRange) (c : InvokeContext) :
    ProgramResult → Outcome InstructionError (Except BoxedError Unit × InvokeContext)
  | .ok status =>
      if status ≠ 0 then .ok (.error (.instruction (w.statusError status)), c)
      else .ok (.ok (), c)
  | .error error =>
      let c :=
        if c.featureSet.depleteCuMeterOnVmFailure && !isSyscallError error then
          c.consume c.computeMeter
        else
          c
      match explainError c regionAddrs error with
      | .ok err => .ok (.error err, c)
      | .error (.err err) => .ok (.error (.instruction err), c)
      | .error .panic => .error .panic

/-- Write the parameters back after a program that succeeded. -/
def writeBack (params : SerializedParameters) (host : ByteMemory) (c : InvokeContext) :
    Except BoxedError Unit × InvokeContext :=
  let tx := c.transactionContext
  let context := do
    let ic ← tx.getCurrentInstructionContext
    let syscallContext ← c.getSyscallContext
    return (ic, syscallContext)
  match context with
  | .error err => (.error (.instruction err), c)
  | .ok (ic, syscallContext) =>
      let buffer := host.readBytes params.buffer.hostAddr.toNat params.buffer.len
      let (result, accounts) := (deserializeParameters ic c.featureSet.mapping buffer
        syscallContext.accountsMetadata).run.run tx.accounts
      (result.mapError .instruction, { c with transactionContext.accounts := accounts })

/-! ## Executing a program -/

/-- What the entrypoint of a builtin leaves behind. -/
structure Returned where
  result : Except BoxedError Unit
  vm : Option VmRun
  calls : List Execution
  state : RuntimeState

/-- An error before any program code ran. -/
def Returned.failed (err : BoxedError) (s : RuntimeState) : Returned :=
  ⟨.error err, none, [], s⟩

/-- Run the code of a program in a new VM, collect what its tracker recorded, and turn the result
of the VM into the result of the program. -/
def runVm (w : World) (invoke : Invoke) (exe : LoadedExecutable) (ic : InstructionContext)
    (isLoaderDeprecated : Bool) (params : SerializedParameters) (mapping : MemoryMapping)
    (s : RuntimeState) : Except Abort Returned := do
  let offset :=
    if s.context.featureSet.provideInstructionDataOffsetInVmR2 then params.instructionDataOffset
    else 0
  let (programResult, v) ←
    vmMachine.runProgram invoke (fun err => .error (.syscallError err)) (exe.code offset)
      ⟨⟨s.context, s.host, []⟩, mapping⟩
  let vm := do
    let created ← mapping.getAccessTracker
    let finished ← v.mapping.getAccessTracker
    return ⟨ic, params.accountsMetadata, created, finished⟩
  let context := v.activation.context.collectForbiddenAccesses v.mapping
  match resultOfProgram w (accountRegionAddrs isLoaderDeprecated params.accountsMetadata) context
      programResult with
  | .error _ => throw (.panic v.activation.calls)
  | .ok (.error err, context) =>
      return ⟨.error err, vm, v.activation.calls, ⟨context, v.activation.host⟩⟩
  | .ok (.ok _, context) =>
      let (result, context) := writeBack params v.activation.host context
      return ⟨result, vm, v.activation.calls, ⟨context, v.activation.host⟩⟩

def execute (w : World) (invoke : Invoke) (exe : LoadedExecutable) (s : RuntimeState) :
    Except Abort Returned :=
  let program := do
    let ic ← s.context.transactionContext.getCurrentInstructionContext
    let _ ← ic.getProgramKey
    let owner ← ic.getProgramOwner
    return (ic, owner == bpfLoaderDeprecatedId)
  match program with
  | .error err => .ok (.failed (.instruction err) s)
  | .ok (ic, isLoaderDeprecated) =>
      let host := w.allocate s
      match serializeParameters host.storage ic s.context.featureSet.mapping with
      | .error .panic => .error (.panic [])
      | .error (.err err) => .ok (.failed (.instruction err) s)
      | .ok params =>
          match forbiddenVmRanges ic params.accountsMetadata
              s.context.forbiddenSysvarDataRanges with
          | .error _ => .error (.panic [])
          | .ok vmRanges =>
              match exe.payAndCreateVm host params s.context with
              | (.error .panic, _) => .error (.panic [])
              | (.error (.err _), context) =>
                  .ok (.failed (.instruction .programEnvironmentSetupFailure) ⟨context, s.host⟩)
              | (.ok mapping, context) =>
                  let memory := exe.loadMemory host params context.computeBudget.heapSize s.host
                  runVm w invoke exe ic isLoaderDeprecated params
                    (watchMemoryRanges mapping vmRanges) ⟨context, memory⟩

/-! ## Builtins -/

/-- Run the code of a native program. -/
def runNative (invoke : Invoke) (code : NativeCode) (s : RuntimeState) :
    Except Abort Returned := do
  let (result, a) ← nativeMachine.runProgram invoke .error code ⟨s.context, s.host, []⟩
  return ⟨result.map fun _ => (), none, a.calls, ⟨a.context, a.host⟩⟩

/-- Charge a fixed amount before going on. -/
def charged (amount : U64) (s : RuntimeState) (next : RuntimeState → Except Abort Returned) :
    Except Abort Returned :=
  match s.context.consumeChecked amount with
  | (.error err, context) => .ok (.failed err ⟨context, s.host⟩)
  | (.ok _, context) => next ⟨context, s.host⟩

/-- Program invocation, common to the loaders. -/
def invokeProgram (w : World) (invoke : Invoke) (programId : Pubkey) (s : RuntimeState) :
    Except Abort Returned :=
  match s.context.findProgram programId with
  | some (.loaded executable) => execute w invoke (w.executable executable) s
  | _ => .ok (.failed (.instruction .unsupportedProgramId) s)

def upgradeableLoaderComputeUnits : U64 := 2370
def defaultLoaderComputeUnits : U64 := 570
def deprecatedLoaderComputeUnits : U64 := 1140
def loaderV4ComputeUnits : U64 := 2000

/-- `process_instruction_inner` of the BPF loaders. -/
def bpfLoaderEntrypoint (w : World) (invoke : Invoke) (s : RuntimeState) :
    Except Abort Returned :=
  let program := do
    let ic ← s.context.transactionContext.getCurrentInstructionContext
    let programId ← ic.getProgramKey
    let ownerId ← ic.getProgramOwner
    return (programId, ownerId)
  let unsupported := fun s => .ok (.failed (.instruction .unsupportedProgramId) s)
  match program with
  | .error err => .ok (.failed (.instruction err) s)
  | .ok (programId, ownerId) =>
      if ownerId == nativeLoaderId then
        -- Program management instruction.
        if programId == bpfLoaderUpgradeableId then
          charged upgradeableLoaderComputeUnits s (runNative invoke w.upgradeableLoader)
        else if programId == bpfLoaderId then
          charged defaultLoaderComputeUnits s unsupported
        else if programId == bpfLoaderDeprecatedId then
          charged deprecatedLoaderComputeUnits s unsupported
        else
          unsupported s
      else
        invokeProgram w invoke programId s

/-- `process_instruction_inner` of loader v4. -/
def loaderV4Entrypoint (w : World) (invoke : Invoke) (s : RuntimeState) : Except Abort Returned :=
  let program := do
    let ic ← s.context.transactionContext.getCurrentInstructionContext
    ic.getProgramKey
  match program with
  | .error err => .ok (.failed (.instruction err) s)
  | .ok programId =>
      if programId == loaderV4Id then
        charged loaderV4ComputeUnits s (runNative invoke w.loaderV4)
      else
        invokeProgram w invoke programId s

def BuiltinId.entrypoint (w : World) (invoke : Invoke) : BuiltinId → RuntimeState →
    Except Abort Returned
  | .bpfLoader => bpfLoaderEntrypoint w invoke
  | .loaderV4 => loaderV4Entrypoint w invoke
  | .native program => runNative invoke (w.native program)

/-! ## Processing an instruction -/

/-- The builtin that runs the current instruction: the program itself or its loader. -/
def findBuiltin (c : InvokeContext) : Except InstructionError (Pubkey × Pubkey × BuiltinId) := do
  let ic ← c.transactionContext.getCurrentInstructionContext
  let ownerId ← ic.getProgramOwner
  let builtinId ←
    if ownerId == nativeLoaderId then ic.getProgramKey
    else if ownerId == bpfLoaderDeprecatedId || ownerId == bpfLoaderId ||
        ownerId == bpfLoaderUpgradeableId || ownerId == loaderV4Id then pure ownerId
    else throw .unsupportedProgramId
  match c.findProgram builtinId with
  | some (.builtin (some function)) => return (builtinId, ← ic.getProgramKey, function)
  | _ => throw .unsupportedProgramId

/-- Errors other than those of an instruction are not passed on. -/
def instructionErrorOf : BoxedError → InstructionError
  | .instruction err => err
  | _ => .programFailedToComplete

/-- Calls the instruction's program entrypoint method.  The context is the one in which the
instruction was entered. -/
def processExecutableChain (w : World) (invoke : Invoke) (s : RuntimeState) :
    Except Abort Invocation :=
  match findBuiltin s.context with
  | .error err => .ok ⟨.error err, .entered s.context none [], s⟩
  | .ok (builtinId, programId, function) => do
      let context := { s.context with
        transactionContext := s.context.transactionContext.setReturnData programId [] }
      let returned ←
        (function.entrypoint w invoke ⟨context, s.host⟩).mapError (Abort.inside s.context)
      let result := returned.result.mapError instructionErrorOf
      let computeUnitsConsumed :=
        U64.saturatingSub context.computeMeter returned.state.context.computeMeter
      let result :=
        if builtinId == programId && result.isOk && computeUnitsConsumed == 0 then
          .error .builtinProgramsMustConsumeComputeUnits
        else
          result
      return ⟨result, .entered s.context returned.vm returned.calls, returned.state⟩

/-- `Result::and`. -/
def andThen (first second : Except InstructionError Unit) : Except InstructionError Unit :=
  match first with
  | .ok _ => second
  | .error err => .error err

/-- Processes an instruction.  `fuel` bounds the depth of nested invocations. -/
def processInstructionWithFuel (w : World) : (fuel : Nat) → Invoke
  | fuel, s =>
      match s.context.push with
      | (.error err, context) => .ok ⟨.error err, .rejected s.context, ⟨context, s.host⟩⟩
      | (.ok _, context) =>
          match fuel with
          | 0 => .error .outOfFuel
          | fuel + 1 => do
              let chain ← processExecutableChain w (processInstructionWithFuel w fuel)
                ⟨context, s.host⟩
              -- The frame is popped whatever the result of the chain is.
              let (popped, context) := chain.state.context.pop
              return ⟨andThen chain.result popped, chain.execution, ⟨context, chain.state.host⟩⟩

/-- A frame is pushed only below the capacity of the stack, so this is enough fuel. -/
def processInstruction (w : World) : Invoke := fun s =>
  processInstructionWithFuel w s.context.transactionContext.instructionStackCapacity s

end ProgramRuntime
end Gobble
