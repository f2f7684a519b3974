import Gobble.Sbpf.Ebpf

/-!
# Interpreter — one instruction at a time

Model of `Interpreter::step` in `sbpf/src/interpreter.rs`.  The state of the interpreter is split:
registers, call frames, meters and the program result are an `Interpreter` record, memory is only
reached through the operations of `VmMemory`.  A step is therefore a `VmProgram`: it computes its
accesses from the registers and goes on with their answers.

A step can `return false` (`Halt.stop`) or panic (`Halt.panic`: an index out of bounds or a division
by a zero immediate, which the verifier excludes).
-/

namespace Gobble
namespace Sbpf

open Lib

/-- `Runtime context`: the meter of compute units. -/
class ContextObject (C : Type) where
  consume : C → U64 → C
  getRemaining : C → U64

/-- The Rust interface of a built-in function: context and five arguments. -/
abbrev BuiltinFunction (C : Type) :=
  C → U64 → U64 → U64 → U64 → U64 → VmProgram (Except BoxedError U64 × C)

abbrev Registers := Vector U64 12

structure CallFrame where
  callerSavedRegisters : Vector U64 4 := Vector.replicate 4 0
  framePointer : U64 := 0
  targetPc : U64 := 0
  deriving DecidableEq, Repr

/-- What a step reads of `Executable`: the text section and the two function registries. -/
structure Executable (C : Type) where
  config : Config
  sbpfVersion : SBPFVersion
  program : List UInt8
  programVmAddr : U64
  /-- `get_loader().get_function_registry()`. -/
  syscalls : BitVec 32 → Option (BuiltinFunction C)
  /-- `get_function_registry()`. -/
  functions : BitVec 32 → Option U64

structure EbpfVm (C : Type) where
  callDepth : U64
  contextObject : C
  previousInstructionMeter : U64
  dueInsnCount : U64
  registers : Registers
  programResult : ProgramResult
  callFrames : List CallFrame
  registerTrace : List Registers

structure Interpreter (C : Type) where
  vm : EbpfVm C
  /-- General purpose registers and pc. -/
  reg : Registers

/-- Why an instruction did not complete. -/
inductive Halt where
  | stop
  | panic
  deriving DecidableEq, Repr

/-- State changes made before a halt are kept. -/
abbrev StepM (C : Type) := ExceptT Halt (StateT (Interpreter C) VmProgram)

namespace Interpreter

open Ebpf

variable {C : Type}

def modifyVm (f : EbpfVm C → EbpfVm C) : StepM C Unit :=
  modify fun i => { i with vm := f i.vm }

/-- Performs a memory operation. -/
def access (op : MemOp) : StepM C (MemRet op) :=
  ExceptT.lift (StateT.lift (EffectTree.call op))

def orPanic {α : Type} : Option α → StepM C α
  | some a => pure a
  | none => throw .panic

def getReg (n : Nat) : StepM C U64 := do
  orPanic (← get).reg[n]?

def setReg (n : Nat) (value : U64) : StepM C Unit := do
  if n < 12 then
    modify fun i => { i with reg := i.reg.setIfInBounds n value }
  else
    throw .panic

/-- `throw_error!`. -/
def throwVmError {α : Type} (err : EbpfError) : StepM C α := do
  modify fun i =>
    { i with
      vm := { i.vm with
        registers := i.vm.registers.set 11 (i.reg[11])
        programResult := .error err } }
  throw .stop

def orThrow (result : ProgramResult) : StepM C U64 :=
  match result with
  | .ok value => pure value
  | .error err => throwVmError err

def operand (insn : Insn) : Operand → StepM C U64
  | .imm => pure insn.imm
  | .immU32 => pure (zext (low insn.imm))
  | .reg => getReg insn.src

section Calls

variable (exe : Executable C)

def pushFrame : StepM C Unit := do
  let i ← get
  let depth := i.vm.callDepth.toNat
  let _ ← orPanic i.vm.callFrames[depth]?
  let frame : CallFrame :=
    { callerSavedRegisters := #v[i.reg[6], i.reg[7], i.reg[8], i.reg[9]]
      framePointer := i.reg[10]
      targetPc := i.reg[11] + 1 }
  modifyVm fun vm =>
    { vm with callFrames := vm.callFrames.set depth frame, callDepth := vm.callDepth + 1 }
  if (i.vm.callDepth + 1).toNat = exe.config.maxCallDepth then
    throwVmError .callDepthExceeded
  if !exe.sbpfVersion.manualStackFrameBump then
    -- With fixed frames we start the new frame at the next fixed offset.
    let numFrames :=
      if exe.sbpfVersion.stackFrameGaps && exe.config.enableStackFrameGaps then 2 else 1
    let stackFrameSize := BitVec.ofNat 64 (exe.config.stackFrameSize * numFrames)
    setReg framePtrReg (i.reg[10] + stackFrameSize)

/-- `check_pc!`. -/
def checkPc (targetPc : U64) : StepM C U64 :=
  if isPcInProgram exe.program targetPc then pure targetPc
  else throwVmError .callOutsideTextSegment

variable [ContextObject C]

/-- The VM interface of a built-in function: the context object is charged for the instructions
executed so far, and the meter is read back from it afterwards. -/
def invokeFunction (function : BuiltinFunction C) : StepM C Unit := do
  let vm := (← get).vm
  let context :=
    if exe.config.enableInstructionMeter then
      ContextObject.consume vm.contextObject (vm.previousInstructionMeter - vm.dueInsnCount)
    else
      vm.contextObject
  let (result, context) ← ExceptT.lift (StateT.lift
    (function context (vm.registers[1]) (vm.registers[2]) (vm.registers[3]) (vm.registers[4])
      (vm.registers[5])))
  modifyVm fun vm =>
    { vm with
      contextObject := context
      programResult := result.mapError .syscallError
      previousInstructionMeter :=
        if exe.config.enableInstructionMeter then ContextObject.getRemaining context
        else vm.previousInstructionMeter }

def dispatchSyscall (function : BuiltinFunction C) : StepM C ProgramResult := do
  modify fun i =>
    { i with
      vm := { i.vm with
        dueInsnCount := i.vm.previousInstructionMeter - i.vm.dueInsnCount
        registers := (List.range 6).foldl
          (fun regs n => regs.setIfInBounds n (i.reg[n]?.getD 0)) i.vm.registers } }
  invokeFunction exe function
  modifyVm fun vm => { vm with dueInsnCount := 0 }
  return (← get).vm.programResult

/-- The arm of `CALL_REG`. -/
def callReg (insn : Insn) : StepM C U64 := do
  let targetPc ←
    if exe.sbpfVersion.callxUsesSrcReg then getReg insn.src
    else if exe.sbpfVersion.callxUsesDstReg then getReg insn.dst
    else getReg insn.imm.toNat
  pushFrame exe
  checkPc exe ((targetPc - exe.programVmAddr) / insnSize)

/-- The arm of `CALL_IMM`: an external syscall, then an internal call.  Before static syscalls one
key can name both. -/
def callImm (insn : Insn) (nextPc : U64) : StepM C U64 := do
  let mut resolved := false
  let mut nextPc := nextPc
  if !exe.sbpfVersion.staticSyscalls || insn.src == 0 then
    if let some function := exe.syscalls (low insn.imm) then
      match ← dispatchSyscall exe function with
      | .ok value => setReg 0 value
      | .error _ => throw .stop
      resolved := true
  if exe.sbpfVersion.staticSyscalls then
    let targetPc := BitVec.ofInt 64 (clampI64 (nextPc.toInt + insn.imm.toInt))
    if isPcInProgram exe.program targetPc && insn.src == 1 then
      pushFrame exe
      nextPc := targetPc
      resolved := true
  else if let some targetPc := exe.functions (low insn.imm) then
    pushFrame exe
    nextPc ← checkPc exe targetPc
    resolved := true
  if !resolved then
    throwVmError .unsupportedInstruction
  return nextPc

/-- The arm of `EXIT`. -/
def exit : StepM C U64 := do
  let i ← get
  if i.vm.callDepth = 0 then
    if exe.config.enableInstructionMeter &&
        decide (i.vm.dueInsnCount > i.vm.previousInstructionMeter) then
      throwVmError .exceededMaxInstructions
    modifyVm fun vm => { vm with programResult := .ok (i.reg[0]) }
    throw .stop
  -- Return from BPF to BPF call.
  let depth := i.vm.callDepth - 1
  modifyVm fun vm => { vm with callDepth := depth }
  let frame ← orPanic i.vm.callFrames[depth.toNat]?
  modify fun i =>
    { i with
      reg := ((((i.reg.set 10 frame.framePointer).set 6 (frame.callerSavedRegisters[0])).set 7
        (frame.callerSavedRegisters[1])).set 8 (frame.callerSavedRegisters[2])).set 9
        (frame.callerSavedRegisters[3]) }
  checkPc exe frame.targetPc

end Calls

/-- A division arm: a register divisor is checked for zero, an immediate one is not. -/
def divideArm {w : Nat} (sign : Signedness) (result : DivResult) (rhsKind : Operand)
    (dst rhs : BitVec w) : StepM C (BitVec w) := do
  if rhsKind = .reg ∧ rhs = 0 then
    throwVmError .divideByZero
  if divideOverflows sign dst rhs then
    throwVmError .divideOverflow
  if rhs = 0 then
    throw .panic
  return divide sign result dst rhs

/-- Executes a decoded instruction and returns the next pc. -/
def execute [ContextObject C] (exe : Executable C) (insn : Insn) (nextPc : U64) :
    Operation → StepM C U64
  | .lddw => do
      let insn ← orPanic (augmentLddwUnchecked exe.program insn)
      setReg insn.dst insn.imm
      setReg 11 ((← getReg 11) + 1)
      return nextPc + 1
  | .load size => do
      let vmAddr := (← getReg insn.src) + insn.off.signExtend 64
      let value ← orThrow (← access (.load size vmAddr))
      setReg insn.dst value
      return nextPc
  | .store size value => do
      let vmAddr := (← getReg insn.dst) + insn.off.signExtend 64
      let value ← operand insn value
      let _ ← orThrow (← access (.store size value vmAddr))
      return nextPc
  | .alu32 op rhs => do
      setReg insn.dst (alu32 exe.sbpfVersion op rhs (← getReg insn.dst) (← operand insn rhs))
      return nextPc
  | .alu64 op rhs => do
      setReg insn.dst (alu64 exe.sbpfVersion op rhs (← getReg insn.dst) (← operand insn rhs))
      return nextPc
  | .div32 sign result rhs => do
      let dst ← getReg insn.dst
      let src ← operand insn rhs
      setReg insn.dst (zext (← divideArm sign result rhs (low dst) (low src)))
      return nextPc
  | .div64 sign result rhs => do
      let dst ← getReg insn.dst
      let src ← operand insn rhs
      setReg insn.dst (← divideArm sign result rhs dst src)
      return nextPc
  | .neg32 => do
      setReg insn.dst (zext (-(low (← getReg insn.dst))))
      return nextPc
  | .neg64 => do
      setReg insn.dst (-(← getReg insn.dst))
      return nextPc
  | .le => do
      match toLe insn.imm (← getReg insn.dst) with
      | some value => setReg insn.dst value
      | none => throwVmError .invalidInstruction
      return nextPc
  | .be => do
      match toBe insn.imm (← getReg insn.dst) with
      | some value => setReg insn.dst value
      | none => throwVmError .invalidInstruction
      return nextPc
  | .jump32 cond rhs => do
      if cond.eval (low (← getReg insn.dst)) (low (← operand insn rhs)) then
        return nextPc + insn.off.signExtend 64
      return nextPc
  | .jump64 cond rhs => do
      if cond.eval (← getReg insn.dst) (← operand insn rhs) then
        return nextPc + insn.off.signExtend 64
      return nextPc
  | .ja => return nextPc + insn.off.signExtend 64
  | .callReg => callReg exe insn
  | .callImm => callImm exe insn nextPc
  | .exit => exit exe

/-- Advances the interpreter state by one instruction. -/
def step [ContextObject C] (exe : Executable C) : StepM C Unit := do
  let i ← get
  if exe.config.enableInstructionMeter &&
      decide (i.vm.dueInsnCount ≥ i.vm.previousInstructionMeter) then
    throwVmError .exceededMaxInstructions
  modifyVm fun vm => { vm with dueInsnCount := vm.dueInsnCount + 1 }
  let pc := i.reg[11]
  if (pc * insnSize).toNat ≥ exe.program.length then
    throwVmError .executionOverrun
  let insn ← orPanic (getInsnUnchecked exe.program pc)
  if exe.config.enableRegisterTracing then
    modifyVm fun vm => { vm with registerTrace := vm.registerTrace ++ [i.reg] }
  match decode exe.sbpfVersion insn.opc with
  | some operation =>
      let nextPc ← execute exe insn (pc + 1) operation
      setReg 11 nextPc
  | none => throwVmError .unsupportedInstruction

end Interpreter

/-! ## Runs -/

inductive RunStatus where
  | running
  | stopped
  | panicked
  deriving DecidableEq, Repr

/-- An interpreter inside the loop `while interpreter.step() {}`. -/
structure Machine (C : Type) where
  interpreter : Interpreter C
  status : RunStatus

namespace Machine

variable {C : Type} [ContextObject C]

/-- One turn of the loop; nothing happens after the loop has ended. -/
def advance (exe : Executable C) (m : Machine C) : VmProgram (Machine C) :=
  match m.status with
  | .running => do
      let (result, interpreter) ← (Interpreter.step exe).run.run m.interpreter
      match result with
      | .ok _ => return { interpreter, status := .running }
      | .error .stop => return { interpreter, status := .stopped }
      | .error .panic => return { interpreter, status := .panicked }
  | _ => return m

/-- The first `n` turns of the loop. -/
def runSteps (exe : Executable C) : Nat → Machine C → VmProgram (Machine C)
  | 0, m => return m
  | n + 1, m => do
      let m ← m.advance exe
      runSteps exe n m

end Machine

end Sbpf
end Gobble
