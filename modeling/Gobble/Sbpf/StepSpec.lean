import Gobble.Lib.Wp
import Gobble.Sbpf.Interpreter

/-!
# StepSpec — what one instruction does

The arms of the interpreter differ in the value they compute, and in little else.  `Flow` says what
an instruction does to the rest of the state: which register it writes, where it goes on, and how it
changes the call frames and the meter.  `step_flow` is the one place where the interpreter is taken
apart; statements about runs start from it.
-/

namespace Gobble
namespace Sbpf

open Lib Ebpf EffectTree

namespace Ebpf

/-- The operation writes its destination register. -/
def Operation.writesDst : Operation → Bool
  | .lddw | .load _ | .alu32 _ _ | .alu64 _ _ | .div32 _ _ _ | .div64 _ _ _ | .neg32 | .neg64
  | .le | .be => true
  | _ => false

/-- The operation divides by its immediate. -/
def Operation.dividesByImm : Operation → Bool
  | .div32 _ _ rhs | .div64 _ _ rhs => rhs != .reg
  | _ => false

/-- Where an operation that is no call and no exit goes on. -/
def Operation.GoesTo (insn : Insn) (pc next : U64) : Operation → Prop
  | .lddw => next = pc + 1 + 1
  | .jump32 _ _ | .jump64 _ _ => next = pc + 1 ∨ next = pc + 1 + insn.off.signExtend 64
  | .ja => next = pc + 1 + insn.off.signExtend 64
  | .callReg | .callImm | .exit => False
  | _ => next = pc + 1

end Ebpf

namespace Interpreter

variable {C : Type} {exe : Executable C} {insn : Insn} {i : Interpreter C} {α : Type}

/-! ## Pieces of a step -/

theorem r6_lt : 6 < 12 := by decide
theorem r7_lt : 7 < 12 := by decide
theorem r8_lt : 8 < 12 := by decide
theorem r9_lt : 9 < 12 := by decide
theorem r10_lt : 10 < 12 := by decide
theorem pc_lt : 11 < 12 := by decide

/-- Program counter. -/
abbrev pc (i : Interpreter C) : U64 := getElem i.reg 11 pc_lt

abbrev framePtr (i : Interpreter C) : U64 := getElem i.reg 10 r10_lt

def withReg (i : Interpreter C) (n : Nat) (value : U64) : Interpreter C :=
  { i with reg := i.reg.setIfInBounds n value }

@[simp] theorem withReg_vm (i : Interpreter C) (n : Nat) (value : U64) :
    (i.withReg n value).vm = i.vm :=
  rfl

@[simp] theorem withReg_withReg (i : Interpreter C) (n : Nat) (a b : U64) :
    (i.withReg n a).withReg n b = i.withReg n b := by
  simp [withReg]

/-- The state in which an instruction is executed: it has been counted, and traced. -/
def counted (exe : Executable C) (i : Interpreter C) : Interpreter C :=
  { i with
    vm := { i.vm with
      dueInsnCount := i.vm.dueInsnCount + 1
      registerTrace :=
        if exe.config.enableRegisterTracing then i.vm.registerTrace ++ [i.reg]
        else i.vm.registerTrace } }

/-- `throw_error!`. -/
def failed (i : Interpreter C) (err : EbpfError) : Interpreter C :=
  { i with
    vm := { i.vm with
      registers := i.vm.registers.set 11 i.pc pc_lt
      programResult := .error err } }

/-- The registers that a frame holds. -/
def frame (i : Interpreter C) : CallFrame :=
  { callerSavedRegisters := #v[getElem i.reg 6 r6_lt, getElem i.reg 7 r7_lt, getElem i.reg 8 r8_lt,
      getElem i.reg 9 r9_lt]
    framePointer := i.framePtr
    targetPc := i.pc }

/-- What a call saves. -/
def savedFrame (i : Interpreter C) : CallFrame :=
  { i.frame with targetPc := i.pc + 1 }

/-- The distance of the frames of a caller and its callee. -/
def frameDistance (exe : Executable C) : U64 :=
  BitVec.ofNat 64 (exe.config.stackFrameSize *
    if exe.sbpfVersion.stackFrameGaps && exe.config.enableStackFrameGaps then 2 else 1)

/-- The frame of the caller is on the stack. -/
def saved (i : Interpreter C) : Interpreter C :=
  { i with
    vm := { i.vm with
      callFrames := i.vm.callFrames.set i.vm.callDepth.toNat i.savedFrame
      callDepth := i.vm.callDepth + 1 } }

/-- The state after `push_frame`. -/
def pushed (exe : Executable C) (i : Interpreter C) : Interpreter C :=
  if exe.sbpfVersion.manualStackFrameBump then i.saved
  else i.saved.withReg framePtrReg (i.framePtr + frameDistance exe)

/-- The registers as a syscall sees them. -/
def syscallRegisters (i : Interpreter C) : Registers :=
  (List.range 6).foldl (fun regs n => regs.setIfInBounds n (i.reg[n]?.getD 0)) i.vm.registers

/-- The context object as a builtin function gets it: charged for the instructions so far. -/
def chargedContext [ContextObject C] (exe : Executable C) (i : Interpreter C) : C :=
  if exe.config.enableInstructionMeter then
    ContextObject.consume i.vm.contextObject i.vm.dueInsnCount
  else
    i.vm.contextObject

/-- The state after a builtin function has returned. -/
def dispatched [ContextObject C] (exe : Executable C) (i : Interpreter C)
    (result : Except BoxedError U64) (context : C) : Interpreter C :=
  { i with
    vm := { i.vm with
      contextObject := context
      previousInstructionMeter :=
        if exe.config.enableInstructionMeter then ContextObject.getRemaining context
        else i.vm.previousInstructionMeter
      dueInsnCount := 0
      registers := i.syscallRegisters
      programResult := result.mapError .syscallError } }

section Wp

variable {Q : α → Interpreter C → Prop} {E : Halt → Interpreter C → Prop}

@[simp] theorem wp_modifyVm {R : PUnit → Interpreter C → Prop} (f : EbpfVm C → EbpfVm C) :
    wp (modifyVm f) R E i ↔ R ⟨⟩ { i with vm := f i.vm } :=
  Iff.rfl

@[simp] theorem wp_access (op : MemOp) {R : MemRet op → Interpreter C → Prop} :
    wp (access op) R E i ↔ ∀ r, R r i := by
  unfold access
  rw [wp_lift]
  exact Iff.rfl

theorem wp_orPanic (o : Option α) :
    wp (orPanic o : StepM C α) Q E i ↔
      (∀ a, o = some a → Q a i) ∧ (o = none → E .panic i) := by
  cases o with
  | none => simp [orPanic]
  | some a => simp [orPanic]

theorem wp_getReg {R : U64 → Interpreter C → Prop} {n : Nat}
    (hvalue : ∀ value, i.reg[n]? = some value → R value i)
    (hpanic : ¬ n < 12 → E .panic i) : wp (getReg n) R E i := by
  unfold getReg
  rw [wp_bind, wp_get, wp_orPanic]
  refine ⟨hvalue, fun hnone => hpanic ?_⟩
  simpa using hnone

theorem wp_setReg {R : Unit → Interpreter C → Prop} {n : Nat} {value : U64}
    (hset : R () (i.withReg n value)) (hpanic : ¬ n < 12 → E .panic i) :
    wp (setReg n value) R E i := by
  unfold setReg
  by_cases hn : n < 12
  · rw [if_pos hn]
    exact hset
  · rw [if_neg hn]
    exact hpanic hn

@[simp] theorem wp_throwVmError (err : EbpfError) :
    wp (throwVmError err : StepM C α) Q E i ↔ E .stop (i.failed err) := by
  unfold throwVmError
  rw [wp_bind, wp_modify, wp_throw]
  exact Iff.rfl

theorem wp_orThrow {R : U64 → Interpreter C → Prop} {result : ProgramResult}
    (hvalue : ∀ value, R value i) (hstop : ∀ err, E .stop (i.failed err)) :
    wp (orThrow result) R E i := by
  cases result with
  | ok value => exact hvalue value
  | error err => exact (wp_throwVmError err).mpr (hstop err)

theorem wp_operand {R : U64 → Interpreter C → Prop} {kind : Operand}
    (hvalue : ∀ value, (kind = .imm → value = insn.imm) → R value i)
    (hpanic : ¬ insn.src < 12 → E .panic i) : wp (operand insn kind) R E i := by
  cases kind with
  | imm => exact hvalue _ fun _ => rfl
  | immU32 => exact hvalue _ fun h => Operand.noConfusion h
  | reg => exact wp_getReg (fun value _ => hvalue value fun h => Operand.noConfusion h) hpanic

theorem wp_checkPc {R : U64 → Interpreter C → Prop} {pc : U64}
    (hin : isPcInProgram exe.program pc = true → R pc i) (hstop : ∀ err, E .stop (i.failed err)) :
    wp (checkPc exe pc) R E i := by
  unfold checkPc
  cases hpc : isPcInProgram exe.program pc with
  | true => exact hin hpc
  | false => exact (wp_throwVmError _).mpr (hstop _)

theorem wp_pushFrame {R : Unit → Interpreter C → Prop}
    (hpushed : i.vm.callDepth.toNat < i.vm.callFrames.length →
      (i.vm.callDepth + 1).toNat ≠ exe.config.maxCallDepth → R () (i.pushed exe))
    (hmax : E .stop (i.saved.failed .callDepthExceeded))
    (hpanic : ¬ i.vm.callDepth.toNat < i.vm.callFrames.length → E .panic i) :
    wp (pushFrame exe) R E i := by
  unfold pushFrame
  simp only [wp_bind, wp_get, wp_orPanic, wp_modifyVm]
  refine ⟨fun frame hframe => ?_, fun hnone => hpanic ?_⟩
  · obtain ⟨hdepth, -⟩ := List.getElem?_eq_some_iff.mp hframe
    by_cases heq : (i.vm.callDepth + 1).toNat = exe.config.maxCallDepth
    · simp only [heq, if_true, wp_bind, wp_throwVmError]
      exact hmax
    · have hend := hpushed hdepth heq
      simp only [heq, if_false]
      unfold pushed at hend
      cases hbump : exe.sbpfVersion.manualStackFrameBump with
      | true =>
          rw [hbump] at hend
          exact hend
      | false =>
          rw [hbump] at hend
          exact wp_setReg hend fun h => absurd (by decide) h
  · simpa using hnone

/-- A builtin function can end with this result in this context, for some arguments. -/
def BuiltinReturns [ContextObject C] (exe : Executable C) (function : BuiltinFunction C)
    (i : Interpreter C) (result : Except BoxedError U64) (context : C) : Prop :=
  ∃ arg₁ arg₂ arg₃ arg₄ arg₅,
    (function (i.chargedContext exe) arg₁ arg₂ arg₃ arg₄ arg₅).Returns (result, context)

theorem wp_dispatchSyscall [ContextObject C] {R : ProgramResult → Interpreter C → Prop}
    {function : BuiltinFunction C}
    (hreturn : ∀ result context, BuiltinReturns exe function i result context →
      R (result.mapError .syscallError) (i.dispatched exe result context)) :
    wp (dispatchSyscall exe function) R E i := by
  unfold dispatchSyscall invokeFunction
  simp only [wp_bind, wp_modify, wp_get, wp_lift, wp_modifyVm, wp_pure]
  have hcontext : (if exe.config.enableInstructionMeter then
      ContextObject.consume i.vm.contextObject (i.vm.previousInstructionMeter -
        (i.vm.previousInstructionMeter - i.vm.dueInsnCount))
      else i.vm.contextObject) = i.chargedContext exe := by
    rw [sub_sub_cancel]
    rfl
  rw [hcontext]
  refine (leaves_returns _).mono ?_
  rintro ⟨result, context⟩ h
  exact hreturn result context ⟨_, _, _, _, _, h⟩

end Wp

/-! ## The effect of an operation -/

/-- What an operation needs in order not to panic. -/
structure Runnable (exe : Executable C) (insn : Insn) (op : Operation) : Prop where
  src_lt : insn.src < 12
  dst_lt : insn.dst < 12
  second_half : op = .lddw → augmentLddwUnchecked exe.program insn ≠ none
  divisor : op.dividesByImm = true → low insn.imm ≠ 0
  callx_lt : op = .callReg → exe.sbpfVersion.callxUsesSrcReg = false →
    exe.sbpfVersion.callxUsesDstReg = false → insn.imm.toNat < 12

theorem low_zero : low 0 = 0 :=
  rfl

theorem Runnable.low_zext_ne {op : Operation} (h : Runnable exe insn op) (hop : op.dividesByImm = true) :
    zext (low insn.imm) ≠ 0 ∧ low (zext (low insn.imm)) ≠ 0 ∧ insn.imm ≠ 0 := by
  have hne := h.divisor hop
  have hlow : low (zext (low insn.imm)) = low insn.imm := by
    unfold low zext
    bv_omega
  refine ⟨fun hzero => hne ?_, by rwa [hlow], fun hzero => hne ?_⟩
  · rw [← hlow, hzero, low_zero]
  · rw [hzero, low_zero]

/-- Context object, meter, and instructions that are not charged yet. -/
def meters (i : Interpreter C) : C × U64 × U64 :=
  (i.vm.contextObject, i.vm.previousInstructionMeter, i.vm.dueInsnCount)

@[simp] theorem meters_withReg (i : Interpreter C) (n : Nat) (value : U64) :
    (i.withReg n value).meters = i.meters :=
  rfl

@[simp] theorem meters_failed (i : Interpreter C) (err : EbpfError) :
    (i.failed err).meters = i.meters :=
  rfl

@[simp] theorem meters_saved (i : Interpreter C) : i.saved.meters = i.meters :=
  rfl

@[simp] theorem meters_pushed (exe : Executable C) (i : Interpreter C) :
    (i.pushed exe).meters = i.meters := by
  unfold pushed
  split
  · rfl
  · rfl

/-- What a completed instruction has done to the call frames. -/
inductive FrameEffect (exe : Executable C) (i i' : Interpreter C) : Prop
  | keep (hframes : i'.vm.callFrames = i.vm.callFrames) (hdepth : i'.vm.callDepth = i.vm.callDepth)
  | push (hlt : i.vm.callDepth.toNat < i.vm.callFrames.length)
      (hmax : (i.vm.callDepth + 1).toNat ≠ exe.config.maxCallDepth)
      (hframes : i'.vm.callFrames = i.vm.callFrames.set i.vm.callDepth.toNat i.savedFrame)
      (hdepth : i'.vm.callDepth = i.vm.callDepth + 1)
  | pop (hpos : i.vm.callDepth ≠ 0)
      (hframe : i.vm.callFrames[(i.vm.callDepth - 1).toNat]? = some i'.frame)
      (hframes : i'.vm.callFrames = i.vm.callFrames) (hdepth : i'.vm.callDepth = i.vm.callDepth - 1)

theorem pushed_vm (exe : Executable C) (i : Interpreter C) : (i.pushed exe).vm = i.saved.vm := by
  unfold pushed
  split
  · rfl
  · rfl

/-- The meter allows another instruction. -/
def MeterLeft (exe : Executable C) (i : Interpreter C) : Prop :=
  exe.config.enableInstructionMeter = true → i.vm.dueInsnCount < i.vm.previousInstructionMeter

/-- The instruction at the pc. -/
structure Fetched (exe : Executable C) (i : Interpreter C) (insn : Insn) (op : Operation) : Prop where
  pc_lt : (i.pc * insnSize).toNat < exe.program.length
  insn_eq : getInsnUnchecked exe.program i.pc = some insn
  decode_eq : decode exe.sbpfVersion insn.opc = some op

/-- The next step does not panic. -/
structure StepRunnable (exe : Executable C) (i : Interpreter C) : Prop where
  depth_lt : i.vm.callDepth.toNat < i.vm.callFrames.length
  fetch : (i.pc * insnSize).toNat < exe.program.length →
    getInsnUnchecked exe.program i.pc ≠ none
  runnable : ∀ insn op, Fetched exe i insn op → Runnable exe insn op

variable [ContextObject C]

/-- A builtin function has been called and has returned a value. -/
def Dispatched (exe : Executable C) (i i' : Interpreter C) : Prop :=
  ∃ key function value context, exe.syscalls key = some function ∧
    BuiltinReturns exe function i (.ok value) context ∧
    i' = (i.dispatched exe (.ok value) context).withReg 0 value

/-- What a completed instruction has done, from the state in which it is executed. -/
inductive Effect (exe : Executable C) (insn : Insn) (op : Operation) (i : Interpreter C) :
    Interpreter C → Prop
  | write {value next : U64} (hwrites : op.writesDst = true)
      (hnext : op.GoesTo insn i.pc next)
      -- The one operation that can move the frame pointer.
      (hadd : op = .alu64 .add .imm →
        ∃ old, i.reg[insn.dst]? = some old ∧ value = old + insn.imm) :
      Effect exe insn op i ((i.withReg insn.dst value).withReg 11 next)
  | silent {next : U64} (hwrites : op.writesDst = false)
      (hnext : op.GoesTo insn i.pc next) : Effect exe insn op i (i.withReg 11 next)
  | builtin {j : Interpreter C} (hop : op = .callImm) (hj : Dispatched exe i j) :
      Effect exe insn op i (j.withReg 11 (i.pc + 1))
  -- Before static syscalls a call can be dispatched to a builtin function first.
  | call {j : Interpreter C} {target : U64} (hop : op = .callImm ∨ op = .callReg)
      (hj : j = i ∨ Dispatched exe i j) (hframe : i.vm.callDepth.toNat < i.vm.callFrames.length)
      (hmax : (i.vm.callDepth + 1).toNat ≠ exe.config.maxCallDepth)
      (hpc : isPcInProgram exe.program target = true) :
      Effect exe insn op i ((j.pushed exe).withReg 11 target)
  | ret {i' : Interpreter C} (hop : op = .exit) (hdepth : i.vm.callDepth ≠ 0)
      (hvm : i'.vm = { i.vm with callDepth := i.vm.callDepth - 1 })
      (hframe : i.vm.callFrames[(i.vm.callDepth - 1).toNat]? = some i'.frame)
      (hpc : isPcInProgram exe.program i'.pc = true) : Effect exe insn op i i'

/-- What an operation does to the meters: nothing, unless it calls a builtin function. -/
def Charged (exe : Executable C) (i i' : Interpreter C) : Prop :=
  i'.meters = i.meters ∨
    ∃ key function result context, exe.syscalls key = some function ∧
      BuiltinReturns exe function i result context ∧
      i'.meters = (i.dispatched exe result context).meters

theorem Dispatched.charged {i' : Interpreter C} (h : Dispatched exe i i') : Charged exe i i' := by
  obtain ⟨key, function, value, context, hfunction, hreturns, rfl⟩ := h
  exact .inr ⟨key, function, .ok value, context, hfunction, hreturns, rfl⟩

theorem Charged.of_meters_eq {j j' : Interpreter C} (h : Charged exe i j)
    (hmeters : j'.meters = j.meters) : Charged exe i j' := by
  unfold Charged
  rw [hmeters]
  exact h

theorem Effect.charged {op : Operation} {i' : Interpreter C} (h : Effect exe insn op i i') :
    Charged exe i i' := by
  cases h with
  | write _ _ _ => exact .inl rfl
  | silent _ _ => exact .inl rfl
  | builtin _ hj => exact hj.charged.of_meters_eq rfl
  | call _ hj _ _ _ =>
      have hmeters := meters_pushed exe
      rcases hj with rfl | hj
      · exact .inl (hmeters _)
      · exact hj.charged.of_meters_eq (hmeters _)
  | ret _ _ hvm _ _ => exact .inl (by rw [meters, hvm, meters])

/-- A builtin function changes register 0 only. -/
theorem Dispatched.frames {i' : Interpreter C} (h : Dispatched exe i i') :
    i'.vm.callFrames = i.vm.callFrames ∧ i'.vm.callDepth = i.vm.callDepth ∧
      i'.savedFrame = i.savedFrame := by
  obtain ⟨-, -, value, context, -, -, rfl⟩ := h
  refine ⟨rfl, rfl, ?_⟩
  simp [savedFrame, frame, framePtr, pc, withReg, dispatched]

theorem Effect.frames {op : Operation} {i' : Interpreter C} (h : Effect exe insn op i i') :
    FrameEffect exe i i' := by
  cases h with
  | write _ _ _ => exact .keep rfl rfl
  | silent _ _ => exact .keep rfl rfl
  | builtin _ hj => exact .keep hj.frames.1 hj.frames.2.1
  | @call j target _ hj hlt hmax _ =>
      have hj' : j.vm.callFrames = i.vm.callFrames ∧ j.vm.callDepth = i.vm.callDepth ∧
          j.savedFrame = i.savedFrame := by
        rcases hj with rfl | hj
        · exact ⟨rfl, rfl, rfl⟩
        · exact hj.frames
      obtain ⟨hframes, hdepth, hsaved⟩ := hj'
      refine .push hlt hmax ?_ ?_
      · rw [withReg_vm, pushed_vm, saved, hframes, hdepth, hsaved]
      · rw [withReg_vm, pushed_vm, saved, hdepth]
  | ret _ hpos hvm hframe _ => exact .pop hpos hframe (by rw [hvm]) (by rw [hvm])

/-- How an operation that does not complete ends. -/
inductive Stops (exe : Executable C) (insn : Insn) (op : Operation) (i : Interpreter C) :
    Halt → Interpreter C → Prop
  | stop {i' : Interpreter C} (hcharged : Charged exe i i') : Stops exe insn op i .stop i'
  | panic {i' : Interpreter C}
      (h : Runnable exe insn op → ¬ i.vm.callDepth.toNat < i.vm.callFrames.length) :
      Stops exe insn op i .panic i'

section Operations

variable {op : Operation} {i' : Interpreter C}

theorem Stops.failed {err : EbpfError} : Stops exe insn op i .stop (i.failed err) :=
  .stop (.inl rfl)

theorem Stops.src (h : ¬ insn.src < 12) : Stops exe insn op i .panic i' :=
  .panic fun hop => absurd hop.src_lt h

theorem Stops.dst (h : ¬ insn.dst < 12) : Stops exe insn op i .panic i' :=
  .panic fun hop => absurd hop.dst_lt h

/-- The last steps of an arm that writes its destination. -/
theorem wp_write {value next : U64} (hwrites : op.writesDst = true)
    (hnext : op.GoesTo insn i.pc next)
    (hadd : op = .alu64 .add .imm → ∃ old, i.reg[insn.dst]? = some old ∧ value = old + insn.imm) :
    wp (setReg insn.dst value) (fun _ j => Effect exe insn op i (j.withReg 11 next))
      (Stops exe insn op i) i :=
  wp_setReg (.write hwrites hnext hadd) Stops.dst

/-- The divisor of an arm that divides by its immediate. -/
theorem wp_divideArm {w : Nat} {sign : Signedness} {result : DivResult} {rhs : Operand}
    {a b : BitVec w} {R : BitVec w → Interpreter C → Prop} (hvalue : ∀ value, R value i)
    (hb : Runnable exe insn op → rhs ≠ .reg → b ≠ 0) :
    wp (divideArm sign result rhs a b) R (Stops exe insn op i) i := by
  unfold divideArm
  by_cases hreg : rhs = .reg ∧ b = 0
  · simp only [hreg, and_self, if_true, wp_bind, wp_throwVmError]
    exact .failed
  · simp only [hreg, if_false]
    by_cases hoverflow : divideOverflows sign a b = true
    · simp only [hoverflow, if_true, wp_bind, wp_throwVmError]
      exact .failed
    · simp only [hoverflow]
      by_cases hzero : b = 0
      · simp only [hzero, if_true]
        exact .panic fun hop => absurd hzero (hb hop fun h => hreg ⟨h, hzero⟩)
      · simp only [hzero, if_false]
        exact hvalue _

theorem callReg_effect : wp (callReg exe insn)
    (fun next j => Effect exe insn .callReg i (j.withReg 11 next)) (Stops exe insn .callReg i) i := by
  unfold callReg
  have hcall : ∀ target, wp (do
      pushFrame exe
      checkPc exe ((target - exe.programVmAddr) / insnSize))
      (fun next j => Effect exe insn .callReg i (j.withReg 11 next))
      (Stops exe insn .callReg i) i := by
    intro target
    rw [wp_bind]
    refine wp_pushFrame (fun hframe hmax => ?_) (.stop (.inl rfl)) fun h => .panic fun _ => h
    refine wp_checkPc (fun hpc => ?_) fun err => .stop (.inl (meters_pushed exe i))
    exact .call (.inr rfl) (.inl rfl) hframe hmax hpc
  cases hsrc : exe.sbpfVersion.callxUsesSrcReg with
  | true => exact (wp_bind _).mpr (wp_getReg (fun target _ => hcall target) Stops.src)
  | false =>
      cases hdst : exe.sbpfVersion.callxUsesDstReg with
      | true => exact (wp_bind _).mpr (wp_getReg (fun target _ => hcall target) Stops.dst)
      | false =>
          refine (wp_bind _).mpr
            (wp_getReg (fun target _ => hcall target) fun h => .panic fun hop => ?_)
          exact absurd (hop.callx_lt rfl hsrc hdst) h

theorem exit_effect : wp (exit exe)
    (fun next j => Effect exe insn .exit i (j.withReg 11 next)) (Stops exe insn .exit i) i := by
  unfold exit
  simp only [wp_bind, wp_get]
  by_cases hdepth : i.vm.callDepth = 0
  · simp only [hdepth, if_true]
    split
    · exact (wp_throwVmError _).mpr .failed
    · exact .stop (.inl rfl)
  · simp only [hdepth, if_false, wp_bind, wp_modifyVm, wp_orPanic, wp_modify]
    refine ⟨fun frame hframe => ?_, fun hnone => .panic fun _ hlt => ?_⟩
    · refine wp_checkPc (fun hpc => ?_) fun err => .stop (.inl rfl)
      obtain ⟨saved, framePointer, targetPc⟩ := frame
      have hsaved : #v[saved[0], saved[1], saved[2], saved[3]] = saved := by
        ext j hj
        rcases j with _ | _ | _ | _ | j
        · rfl
        · rfl
        · rfl
        · rfl
        · omega
      refine .ret rfl hdepth rfl (hframe.trans ?_) ?_
      · simp [Interpreter.frame, framePtr, pc, withReg, hsaved]
      · simpa [pc, withReg] using hpc
    · rw [List.getElem?_eq_none_iff] at hnone
      have hpos : i.vm.callDepth.toNat ≠ 0 := fun h => hdepth (BitVec.eq_of_toNat_eq h)
      have hsub : (i.vm.callDepth - 1).toNat = i.vm.callDepth.toNat - 1 := by
        have hlt64 := i.vm.callDepth.isLt
        rw [BitVec.toNat_sub]
        simp
        omega
      omega

/-- The second half of `CALL_IMM`, after the call of a builtin function or without one. -/
def callInternal (exe : Executable C) (insn : Insn) (nextPc : U64) (resolved : Bool) :
    StepM C U64 := do
  let mut resolved := resolved
  let mut nextPc := nextPc
  if exe.sbpfVersion.staticSyscalls then
    let targetPc := BitVec.ofInt 64 (clampI64 (nextPc.toInt + insn.imm.toInt))
    if isPcInProgram exe.program targetPc && insn.src == 1 then
      pushFrame exe
      nextPc := targetPc
      resolved := true
  else if let some targetPc := exe.functions (low insn.imm) then
    pushFrame exe
    nextPc ← checkPc exe targetPc
    resolved := true
  if !resolved then
    throwVmError .unsupportedInstruction
  return nextPc

theorem callImm_eq (nextPc : U64) : callImm exe insn nextPc =
    if !exe.sbpfVersion.staticSyscalls || insn.src == 0 then
      match exe.syscalls (low insn.imm) with
      | some function => do
          match ← dispatchSyscall exe function with
          | .ok value => do
              setReg 0 value
              callInternal exe insn nextPc true
          | .error _ => throw .stop
      | none => callInternal exe insn nextPc false
    else
      callInternal exe insn nextPc false := by
  unfold callImm
  by_cases hkey : (!exe.sbpfVersion.staticSyscalls || insn.src == 0) = true
  · simp only [hkey, if_true]
    cases exe.syscalls (low insn.imm) with
    | none => rfl
    | some function =>
        refine bind_congr fun result => ?_
        cases result with
        | ok value => rfl
        | error err => rfl
  · simp only [hkey]
    rfl

/-- An internal call, when a builtin function has been called before or not. -/
theorem callInternal_effect {j : Interpreter C} {resolved : Bool}
    (hj : resolved = false ∧ j = i ∨ Dispatched exe i j) :
    wp (callInternal exe insn (i.pc + 1) resolved)
      (fun next j => Effect exe insn .callImm i (j.withReg 11 next)) (Stops exe insn .callImm i) j := by
  have hframes : j.vm.callFrames = i.vm.callFrames ∧ j.vm.callDepth = i.vm.callDepth := by
    rcases hj with ⟨-, rfl⟩ | ⟨_, _, _, _, _, _, rfl⟩
    · exact ⟨rfl, rfl⟩
    · exact ⟨rfl, rfl⟩
  have hcharged : Charged exe i j := by
    rcases hj with ⟨-, rfl⟩ | hj
    · exact .inl rfl
    · exact hj.charged
  have hj' : j = i ∨ Dispatched exe i j := hj.imp_left And.right
  have hpush : ∀ {R : Unit → Interpreter C → Prop},
      (i.vm.callDepth.toNat < i.vm.callFrames.length →
        (i.vm.callDepth + 1).toNat ≠ exe.config.maxCallDepth → R () (j.pushed exe)) →
      wp (pushFrame exe) R (Stops exe insn .callImm i) j := by
    intro R hR
    rw [← hframes.1, ← hframes.2] at hR
    refine wp_pushFrame hR (.stop (hcharged.of_meters_eq rfl)) fun h => .panic fun _ => ?_
    rw [← hframes.1, ← hframes.2]
    exact h
  have hnone : wp (do
      if !resolved then
        throwVmError .unsupportedInstruction
      return i.pc + 1)
      (fun next j => Effect exe insn .callImm i (j.withReg 11 next))
      (Stops exe insn .callImm i) j := by
    rcases hj with ⟨rfl, rfl⟩ | hj
    · exact .failed
    · cases resolved with
      | false => exact .stop (hj.charged.of_meters_eq rfl)
      | true => exact .builtin rfl hj
  unfold callInternal
  by_cases hstatic : exe.sbpfVersion.staticSyscalls = true
  · simp only [hstatic, if_true]
    split
    case isTrue hin =>
        rw [Bool.and_eq_true] at hin
        rw [wp_bind]
        exact hpush fun hframe hmax => .call (.inl rfl) hj' hframe hmax hin.1
    case isFalse => exact hnone
  · simp only [hstatic]
    cases exe.functions (low insn.imm) with
    | none => exact hnone
    | some target =>
        simp only [Bool.false_eq_true, if_false, wp_bind]
        refine hpush fun hframe hmax => ?_
        refine wp_checkPc (fun hpc => ?_) fun err => .stop (hcharged.of_meters_eq ?_)
        · exact .call (.inl rfl) hj' hframe hmax hpc
        · exact meters_pushed exe j

theorem callImm_effect : wp (callImm exe insn (i.pc + 1))
    (fun next j => Effect exe insn .callImm i (j.withReg 11 next)) (Stops exe insn .callImm i) i := by
  have hinternal : wp (callInternal exe insn (i.pc + 1) false)
      (fun next j => Effect exe insn .callImm i (j.withReg 11 next)) (Stops exe insn .callImm i) i :=
    callInternal_effect (.inl ⟨rfl, rfl⟩)
  rw [callImm_eq]
  split
  · cases hfunction : exe.syscalls (low insn.imm) with
    | none => exact hinternal
    | some function =>
        refine (wp_bind _).mpr (wp_dispatchSyscall fun result context hreturns => ?_)
        cases result with
        | ok value =>
            refine (wp_bind _).mpr (wp_setReg ?_ fun h => absurd (by decide) h)
            exact callInternal_effect
              (.inr ⟨_, function, value, context, hfunction, hreturns, rfl⟩)
        | error err =>
            exact .stop (.inr ⟨_, function, .error err, context, hfunction, hreturns, rfl⟩)
  · exact hinternal

/-- An operand that is not a register is not zero if the operation divides by it. -/
theorem wp_divisor {rhs : Operand} {R : U64 → Interpreter C → Prop}
    (hop : rhs ≠ .reg → op.dividesByImm = true)
    (hvalue : ∀ b, (Runnable exe insn op → rhs ≠ .reg → b ≠ 0 ∧ low b ≠ 0) → R b i) :
    wp (operand insn rhs) R (Stops exe insn op i) i := by
  cases rhs with
  | imm =>
      refine hvalue insn.imm fun h hne => ?_
      exact ⟨(h.low_zext_ne (hop hne)).2.2, h.divisor (hop hne)⟩
  | immU32 =>
      refine hvalue (zext (low insn.imm)) fun h hne => ?_
      exact ⟨(h.low_zext_ne (hop hne)).1, (h.low_zext_ne (hop hne)).2.1⟩
  | reg => exact wp_getReg (fun b _ => hvalue b fun _ hne => absurd rfl hne) Stops.src

theorem augmentLddwUnchecked_dst {prog : List UInt8} {insn insn' : Insn}
    (h : augmentLddwUnchecked prog insn = some insn') : insn'.dst = insn.dst := by
  unfold augmentLddwUnchecked at h
  split at h
  · cases h
    rfl
  · cases h

/-- Each arm of the interpreter does what `Effect` says. -/
theorem execute_effect (op : Operation) : wp (execute exe insn (i.pc + 1) op)
    (fun next j => Effect exe insn op i (j.withReg 11 next)) (Stops exe insn op i) i := by
  cases op with
  | lddw =>
      simp only [execute, wp_bind, wp_orPanic]
      refine ⟨fun insn' hinsn' => ?_, fun hnone => .panic fun h => absurd hnone (h.second_half rfl)⟩
      have hdst : insn'.dst = insn.dst := augmentLddwUnchecked_dst hinsn'
      have hpc : (11 : Nat) < 12 := by decide
      refine wp_setReg (wp_getReg (fun pc _ => wp_setReg ?_ (absurd hpc)) (absurd hpc)) fun h => ?_
      · -- The pc is written twice.
        rw [wp_pure, withReg_withReg, hdst]
        exact .write rfl rfl fun h => Operation.noConfusion h
      · exact Stops.dst (hdst ▸ h)
  | load size =>
      simp only [execute, wp_bind, wp_pure]
      refine wp_getReg (fun addr _ => (wp_access _).mpr fun r => ?_) Stops.src
      exact wp_orThrow (fun value => wp_write rfl rfl fun h => Operation.noConfusion h)
        fun err => .failed
  | store size value =>
      simp only [execute, wp_bind, wp_pure]
      refine wp_getReg (fun addr _ => wp_operand (fun value _ => ?_) Stops.src) Stops.dst
      refine (wp_access _).mpr fun r => ?_
      exact wp_orThrow (fun _ => .silent rfl rfl) fun err => .failed
  | alu32 op rhs =>
      simp only [execute, wp_bind, wp_pure]
      refine wp_getReg (fun a _ => wp_operand (fun b _ => wp_write rfl rfl ?_) Stops.src) Stops.dst
      exact fun h => Operation.noConfusion h
  | alu64 op rhs =>
      simp only [execute, wp_bind, wp_pure]
      refine wp_getReg (fun a ha => wp_operand (fun b hb => wp_write rfl rfl ?_) Stops.src) Stops.dst
      rintro ⟨⟩
      rw [hb rfl]
      exact ⟨a, ha, rfl⟩
  | div32 sign result rhs =>
      simp only [execute, wp_bind, wp_pure]
      refine wp_getReg (fun a _ => wp_divisor (fun h => ?_) fun b hb => ?_) Stops.dst
      · simpa [Operation.dividesByImm] using h
      · exact wp_divideArm (fun value => wp_write rfl rfl fun h => Operation.noConfusion h)
          fun h hne => (hb h hne).2
  | div64 sign result rhs =>
      simp only [execute, wp_bind, wp_pure]
      refine wp_getReg (fun a _ => wp_divisor (fun h => ?_) fun b hb => ?_) Stops.dst
      · simpa [Operation.dividesByImm] using h
      · exact wp_divideArm (fun value => wp_write rfl rfl fun h => Operation.noConfusion h)
          fun h hne => (hb h hne).1
  | neg32 =>
      simp only [execute, wp_bind, wp_pure]
      exact wp_getReg (fun a _ => wp_write rfl rfl fun h => Operation.noConfusion h) Stops.dst
  | neg64 =>
      simp only [execute, wp_bind, wp_pure]
      exact wp_getReg (fun a _ => wp_write rfl rfl fun h => Operation.noConfusion h) Stops.dst
  | le =>
      simp only [execute, wp_bind]
      refine wp_getReg (fun a _ => ?_) Stops.dst
      cases toLe insn.imm a with
      | some value => exact (wp_bind _).mpr (wp_write rfl rfl fun h => Operation.noConfusion h)
      | none => exact .failed
  | be =>
      simp only [execute, wp_bind]
      refine wp_getReg (fun a _ => ?_) Stops.dst
      cases toBe insn.imm a with
      | some value => exact (wp_bind _).mpr (wp_write rfl rfl fun h => Operation.noConfusion h)
      | none => exact .failed
  | jump32 cond rhs =>
      simp only [execute, wp_bind]
      refine wp_getReg (fun a _ => wp_operand (fun b _ => ?_) Stops.src) Stops.dst
      split
      · exact .silent rfl (.inr rfl)
      · exact .silent rfl (.inl rfl)
  | jump64 cond rhs =>
      simp only [execute, wp_bind]
      refine wp_getReg (fun a _ => wp_operand (fun b _ => ?_) Stops.src) Stops.dst
      split
      · exact .silent rfl (.inr rfl)
      · exact .silent rfl (.inl rfl)
  | ja => exact .silent rfl rfl
  | callReg => exact callReg_effect
  | callImm => exact callImm_effect
  | exit => exact exit_effect

end Operations

/-! ## The effect of a step -/

/-- What a step does that goes on. -/
def Flow (exe : Executable C) (i i' : Interpreter C) : Prop :=
  MeterLeft exe i ∧ ∃ insn op, Fetched exe i insn op ∧ Effect exe insn op (i.counted exe) i'

/-- How a step ends that does not go on. -/
inductive Halts (exe : Executable C) (i : Interpreter C) : Halt → Interpreter C → Prop
  | exhausted (hmeter : ¬ MeterLeft exe i) :
      Halts exe i .stop (i.failed .exceededMaxInstructions)
  | stop {i' : Interpreter C} (hmeter : MeterLeft exe i)
      (hcharged : Charged exe (i.counted exe) i') : Halts exe i .stop i'
  | panic {i' : Interpreter C} (h : ¬ StepRunnable exe i) : Halts exe i .panic i'

/-- The instruction that a step executes. -/
theorem wp_fetched {insn : Insn} (hmeter : MeterLeft exe i)
    (hpc : (i.pc * insnSize).toNat < exe.program.length)
    (hinsn : getInsnUnchecked exe.program i.pc = some insn) :
    wp (do
      match decode exe.sbpfVersion insn.opc with
      | some operation =>
          let nextPc ← execute exe insn (i.pc + 1) operation
          setReg 11 nextPc
      | none => throwVmError .unsupportedInstruction)
      (fun _ i' => Flow exe i i') (Halts exe i) (i.counted exe) := by
  cases hop : decode exe.sbpfVersion insn.opc with
  | none => exact .stop hmeter (.inl rfl)
  | some op =>
      have hfetched : Fetched exe i insn op := ⟨hpc, hinsn, hop⟩
      refine (wp_bind _).mpr (wp_mono (execute_effect (i := i.counted exe) op) ?_ ?_)
      · intro next j heffect
        refine wp_setReg ⟨hmeter, insn, op, hfetched, heffect⟩ fun h => absurd (by decide) h
      · intro halt j hstops
        cases hstops with
        | stop hcharged => exact .stop hmeter hcharged
        | panic h =>
            refine .panic fun hrun => h (hrun.runnable insn op hfetched) ?_
            exact hrun.depth_lt

theorem step_flow : wp (step exe) (fun _ i' => Flow exe i i') (Halts exe i) i := by
  unfold step
  simp only [wp_bind, wp_get]
  by_cases hmeter : (exe.config.enableInstructionMeter &&
      decide (i.vm.dueInsnCount ≥ i.vm.previousInstructionMeter)) = true
  · rw [if_pos hmeter]
    refine (wp_bind _).mpr ((wp_throwVmError _).mpr (.exhausted fun hleft => ?_))
    simp only [Bool.and_eq_true, decide_eq_true_eq] at hmeter
    exact absurd (hleft hmeter.1) (BitVec.not_lt.mpr hmeter.2)
  · have hleft : MeterLeft exe i := by
      intro henabled
      simpa [henabled] using hmeter
    rw [if_neg hmeter]
    by_cases hpc : (i.pc * insnSize).toNat ≥ exe.program.length
    · rw [if_pos hpc]
      exact .stop hleft (.inl rfl)
    · rw [if_neg hpc]
      simp only [wp_bind, wp_modifyVm, wp_orPanic]
      refine ⟨fun insn hinsn => ?_, fun hnone => .panic fun hrun => ?_⟩
      · have hend := wp_fetched hleft (Nat.lt_of_not_le hpc) hinsn
        unfold counted at hend
        cases htrace : exe.config.enableRegisterTracing with
        | true =>
            rw [htrace] at hend
            exact hend
        | false =>
            rw [htrace] at hend
            exact hend
      · exact hrun.fetch (Nat.lt_of_not_le hpc) hnone

end Interpreter

/-! ## Turns of the loop -/

namespace Machine

variable {C : Type} [ContextObject C] {exe : Executable C} {m m' : Machine C}

inductive Turn (exe : Executable C) : Machine C → Machine C → Prop
  | idle {m : Machine C} (h : m.status ≠ .running) : Turn exe m m
  | flow {i i' : Interpreter C} (h : Interpreter.Flow exe i i') :
      Turn exe ⟨i, .running⟩ ⟨i', .running⟩
  | stop {i i' : Interpreter C} (h : Interpreter.Halts exe i .stop i') :
      Turn exe ⟨i, .running⟩ ⟨i', .stopped⟩
  | panic {i i' : Interpreter C} (h : Interpreter.Halts exe i .panic i') :
      Turn exe ⟨i, .running⟩ ⟨i', .panicked⟩

theorem advance_turn (m : Machine C) : (m.advance exe).Leaves (Turn exe m) := by
  obtain ⟨i, status⟩ := m
  cases status with
  | running =>
      refine (leaves_bind _ _).mpr (Leaves.mono Interpreter.step_flow ?_)
      rintro ⟨result, i'⟩ h
      cases result with
      | ok _ => exact .flow h
      | error halt =>
          cases halt with
          | stop => exact .stop h
          | panic => exact .panic h
  | stopped => exact .idle (by simp)
  | panicked => exact .idle (by simp)

/-- The last turn of a run. -/
theorem runSteps_succ (m : Machine C) (n : Nat) :
    m.runSteps exe (n + 1) = (m.runSteps exe n).bind (advance exe) := by
  induction n generalizing m with
  | zero => exact EffectTree.bind_pure _
  | succ n ih =>
      calc m.runSteps exe (n + 1 + 1)
          = (m.advance exe).bind (runSteps exe (n + 1)) := rfl
        _ = (m.advance exe).bind fun m' => (m'.runSteps exe n).bind (advance exe) := by
            rw [funext ih]
        _ = (m.runSteps exe (n + 1)).bind (advance exe) := (EffectTree.bind_assoc _ _ _).symm

section Runs

variable {σ : Type} {mem : Handler MemOp MemRet σ} {s : σ}

/-- The machine after `n` turns, over a memory that is in the state `s` at the start. -/
def after (exe : Executable C) (mem : Handler MemOp MemRet σ) (s : σ) (m : Machine C) (n : Nat) :
    Machine C :=
  (EffectTree.run mem (m.runSteps exe n) s).1

theorem turn_after (m : Machine C) (n : Nat) :
    Turn exe (m.after exe mem s n) (m.after exe mem s (n + 1)) := by
  unfold after
  rw [runSteps_succ, EffectTree.run_bind]
  exact (advance_turn _).run mem _

/-- What every turn keeps holds after every run. -/
theorem after_invariant {I : Machine C → Prop} (hturn : ∀ m m', I m → Turn exe m m' → I m')
    (hstart : I m) (n : Nat) : I (m.after exe mem s n) := by
  induction n with
  | zero => exact hstart
  | succ n ih => exact hturn _ _ ih (turn_after m n)

end Runs

end Machine

end Sbpf
end Gobble
