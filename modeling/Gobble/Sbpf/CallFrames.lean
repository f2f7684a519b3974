import Gobble.Sbpf.GappedRegion
import Gobble.Sbpf.Vm

/-!
# CallFrames — what a function finds on its call stack

Two sides of the call frames of `sbpf/src/interpreter.rs`.  A caller gets its registers 6 to 9, its
frame pointer and the pc behind the call back, whatever its callee does and however many calls that
makes.  And a verified program cannot move its frame pointer off its own frame, so that functions at
different depths have stack memory of their own.
-/

namespace Gobble
namespace Sbpf

open Lib Ebpf EffectTree

namespace Interpreter

variable {C : Type} {exe : Executable C} {i i' : Interpreter C} {d : Nat}

/-! ## The frames of the callers -/

theorem toNat_pred {depth : U64} (h : depth ≠ 0) : (depth - 1).toNat = depth.toNat - 1 := by
  have hne : depth.toNat ≠ 0 := fun heq => h (BitVec.eq_of_toNat_eq heq)
  have hlt := depth.isLt
  have hsub := BitVec.toNat_sub depth 1
  simp at hsub ⊢
  omega

/-- The depth after a call is one more: there is a frame for it. -/
theorem toNat_succ {depth : U64} {frames : List CallFrame} (hlt : depth.toNat < frames.length)
    (hsmall : frames.length < 2 ^ 64) : (depth + 1).toNat = depth.toNat + 1 := by
  rw [BitVec.toNat_add]
  exact Nat.mod_eq_of_lt (by simp; omega)

/-- A callee leaves the frames of its callers alone. -/
theorem FrameEffect.keeps_frame (h : FrameEffect exe i i') (hd : d < i.vm.callDepth.toNat) :
    i'.vm.callFrames[d]? = i.vm.callFrames[d]? := by
  cases h with
  | keep hframes _ => rw [hframes]
  | push _ _ hframes _ =>
      rw [hframes]
      exact List.getElem?_set_ne (Nat.ne_of_gt hd)
  | pop _ _ hframes _ => rw [hframes]

/-- A step that comes back to the depth of a caller has restored its frame. -/
theorem FrameEffect.restores (h : FrameEffect exe i i') (hsmall : i.vm.callFrames.length < 2 ^ 64)
    (hd : d < i.vm.callDepth.toNat) (hd' : i'.vm.callDepth.toNat = d) :
    i.vm.callFrames[d]? = some i'.frame := by
  cases h with
  | keep _ hdepth =>
      rw [hdepth] at hd'
      omega
  | push hlt _ _ hdepth =>
      rw [hdepth, toNat_succ hlt hsmall] at hd'
      omega
  | pop hpos hframe _ hdepth =>
      rw [hdepth] at hd'
      rw [← hd']
      exact hframe

theorem FrameEffect.length_eq (h : FrameEffect exe i i') :
    i'.vm.callFrames.length = i.vm.callFrames.length := by
  cases h with
  | keep hframes _ => rw [hframes]
  | push _ _ hframes _ => rw [hframes, List.length_set]
  | pop _ _ hframes _ => rw [hframes]

end Interpreter

namespace Machine

open Interpreter

variable {C : Type} [ContextObject C] {exe : Executable C} {σ : Type}
  {mem : Handler MemOp MemRet σ} {s : σ} {m m' : Machine C}

/-- A turn that leads to a running machine is a completed instruction. -/
theorem Turn.flow_of_running (h : Turn exe m m') (hrunning : m'.status = .running) :
    m.status = .running ∧ Flow exe m.interpreter m'.interpreter := by
  cases h with
  | idle hidle => exact absurd hrunning hidle
  | flow hflow => exact ⟨rfl, hflow⟩
  | stop _ => cases hrunning
  | panic _ => cases hrunning

theorem running_of_le {n k : Nat} (hk : k ≤ n) (h : (m.after exe mem s n).status = .running) :
    (m.after exe mem s k).status = .running := by
  induction n with
  | zero =>
      rw [Nat.le_zero.mp hk]
      exact h
  | succ n ih =>
      rcases Nat.lt_or_ge n k with hlt | hge
      · rw [show k = n + 1 by omega]
        exact h
      · exact ih hge ((turn_after m n).flow_of_running h).1

/-- A completed turn does to the frames what an instruction does. -/
theorem frameEffect_after {n : Nat} (h : (m.after exe mem s (n + 1)).status = .running) :
    FrameEffect exe ((m.after exe mem s n).interpreter.counted exe)
      (m.after exe mem s (n + 1)).interpreter := by
  obtain ⟨-, -, insn, op, -, heffect⟩ := (turn_after m n).flow_of_running h
  exact heffect.frames

/-- Inside a callee the frame of the caller stays what it was. -/
theorem callee_keeps_frame {d n : Nat} (h : (m.after exe mem s (n + 1)).status = .running)
    (hinside : ∀ k, 1 ≤ k → k ≤ n → d < (m.after exe mem s k).interpreter.vm.callDepth.toNat) :
    ∀ k, 1 ≤ k → k ≤ n + 1 →
      (m.after exe mem s k).interpreter.vm.callFrames[d]? =
        (m.after exe mem s 1).interpreter.vm.callFrames[d]? := by
  intro k hk hkn
  induction k with
  | zero => omega
  | succ k ih =>
      rcases Nat.eq_zero_or_pos k with rfl | hpos
      · rfl
      · have hrunning := running_of_le hkn h
        calc (m.after exe mem s (k + 1)).interpreter.vm.callFrames[d]?
            = (m.after exe mem s k).interpreter.vm.callFrames[d]? :=
              (frameEffect_after hrunning).keeps_frame (hinside k hpos (by omega))
          _ = (m.after exe mem s 1).interpreter.vm.callFrames[d]? := ih hpos (by omega)

theorem callFrames_length_after {n : Nat} (h : (m.after exe mem s n).status = .running) :
    (m.after exe mem s n).interpreter.vm.callFrames.length =
      m.interpreter.vm.callFrames.length := by
  induction n with
  | zero => rfl
  | succ n ih =>
      rw [(frameEffect_after h).length_eq]
      exact ih (running_of_le (Nat.le_succ n) h)

/-- From a call to the first return to the depth of the caller: whatever the callee does, registers
6 to 9 and the frame pointer have their values again, and the program goes on behind the call. -/
theorem return_restores_caller (exe : Executable C) (m : Machine C) (mem : Handler MemOp MemRet σ)
    (s : σ) (n : Nat)
    (hsmall : m.interpreter.vm.callFrames.length < 2 ^ 64)
    (hcall : (m.after exe mem s 1).interpreter.vm.callDepth = m.interpreter.vm.callDepth + 1)
    (hinside : ∀ k, 1 ≤ k → k ≤ n → m.interpreter.vm.callDepth.toNat <
      (m.after exe mem s k).interpreter.vm.callDepth.toNat)
    (hreturn : (m.after exe mem s (n + 1)).interpreter.vm.callDepth = m.interpreter.vm.callDepth)
    (hrunning : (m.after exe mem s (n + 1)).status = .running) :
    (m.after exe mem s (n + 1)).interpreter.frame =
      { m.interpreter.frame with targetPc := m.interpreter.pc + 1 } := by
  set d := m.interpreter.vm.callDepth.toNat with hd
  have hfirst := frameEffect_after (running_of_le (Nat.succ_le_succ (Nat.zero_le n)) hrunning)
  -- The first step has pushed the frame of the caller.
  have hpushed : (m.after exe mem s 1).interpreter.vm.callFrames[d]? =
      some m.interpreter.savedFrame := by
    cases hfirst with
    | keep _ hdepth =>
        have heq : m.interpreter.vm.callDepth + 1 = m.interpreter.vm.callDepth := hcall ▸ hdepth
        bv_omega
    | push hlt _ hframes _ =>
        rw [hframes]
        exact List.getElem?_set_self hlt
    | pop _ _ _ hdepth =>
        have heq : m.interpreter.vm.callDepth + 1 = m.interpreter.vm.callDepth - 1 := hcall ▸ hdepth
        bv_omega
  cases n with
  | zero =>
      have heq : m.interpreter.vm.callDepth + 1 = m.interpreter.vm.callDepth := hcall ▸ hreturn
      bv_omega
  | succ n =>
      have hbefore := running_of_le (Nat.le_succ (n + 1)) hrunning
      have hlen := callFrames_length_after hbefore
      have hkept := callee_keeps_frame hrunning hinside (n + 1) (by omega) (by omega)
      have hframe := (frameEffect_after hrunning).restores (hlen ▸ hsmall)
        (hinside (n + 1) (by omega) (by omega)) (by rw [hreturn])
      rw [hpushed] at hkept
      exact Option.some.inj (hframe.symm.trans hkept)

end Machine

/-! A program with one call. -/

section Instance

/-- `call 0x11`, `exit`; and the function: `mov64 r6, 7`, `exit`. -/
def callsOnce : Executable TestContextObject :=
  { config := {}
    sbpfVersion := .v0
    program := [
      0x85, 0x10, 0, 0, 0x11, 0, 0, 0,
      0x95, 0, 0, 0, 0, 0, 0, 0,
      0xb7, 6, 0, 0, 7, 0, 0, 0,
      0x95, 0, 0, 0, 0, 0, 0, 0]
    programVmAddr := mmBytecodeStart
    syscalls := fun _ => none
    functions := fun key => if key = 0x11 then some 2 else none }

def callsOnceEntry : Machine TestContextObject :=
  (EbpfVm.new callsOnce.config callsOnce.sbpfVersion ⟨100⟩ 0).enter 0

/-- The function overwrites register 6, and the caller does not notice. -/
theorem callsOnce_restores_caller :
    (callsOnceEntry.after callsOnce memHandler ⟨.identity, fun _ => 0⟩ 3).interpreter.frame =
      { callsOnceEntry.interpreter.frame with targetPc := callsOnceEntry.interpreter.pc + 1 } := by
  refine Machine.return_restores_caller callsOnce callsOnceEntry memHandler
    ⟨.identity, fun _ => 0⟩ 2 (by decide +kernel) (by decide +kernel) ?_ (by decide +kernel)
    (by decide +kernel)
  intro k hk hk'
  rcases (by omega : k = 1 ∨ k = 2) with rfl | rfl
  · decide +kernel
  · decide +kernel

end Instance

/-! ## The frame pointer -/

namespace Interpreter

variable {C : Type} {exe : Executable C} {insn : Insn} {op : Operation} {i i' : Interpreter C}
  {P : Nat → U64 → Prop}

/-- The frame pointers of all functions on the stack are as their depths require. -/
structure FramePointers (P : Nat → U64 → Prop) (i : Interpreter C) : Prop where
  current : P i.vm.callDepth.toNat i.framePtr
  saved : ∀ d < i.vm.callDepth.toNat, ∀ frame, i.vm.callFrames[d]? = some frame →
    P d frame.framePointer

theorem framePtr_withReg_ne {n : Nat} (h : n ≠ 10) (value : U64) :
    (i.withReg n value).framePtr = i.framePtr := by
  simp [framePtr, withReg, h]

theorem framePtr_withReg_self (value : U64) : (i.withReg 10 value).framePtr = value := by
  simp [framePtr, withReg]

theorem framePtr_pushed (exe : Executable C) (i : Interpreter C) : (i.pushed exe).framePtr =
    if exe.sbpfVersion.manualStackFrameBump then i.framePtr else i.framePtr + frameDistance exe := by
  unfold pushed
  split
  · rfl
  · exact framePtr_withReg_self _

/-- The pc does not matter. -/
theorem FramePointers.withReg_ne {n : Nat} (h : FramePointers P i) (hn : n ≠ 10) (value : U64) :
    FramePointers P (i.withReg n value) := by
  refine ⟨?_, h.saved⟩
  rw [framePtr_withReg_ne hn]
  exact h.current

/-- A call saves the frame pointer of the caller and sets that of the callee. -/
theorem FramePointers.pushed (h : FramePointers P i)
    (hlt : i.vm.callDepth.toNat < i.vm.callFrames.length)
    (hsmall : i.vm.callFrames.length < 2 ^ 64)
    (hpush : ∀ d x, P d x → P (d + 1)
      (if exe.sbpfVersion.manualStackFrameBump then x else x + frameDistance exe)) :
    FramePointers P (i.pushed exe) := by
  have hdepth : (i.pushed exe).vm.callDepth.toNat = i.vm.callDepth.toNat + 1 := by
    rw [pushed_vm]
    exact toNat_succ hlt hsmall
  refine ⟨?_, fun d hd frame hframe => ?_⟩
  · rw [hdepth, framePtr_pushed]
    exact hpush _ _ h.current
  · rw [hdepth] at hd
    have hset : (i.vm.callFrames.set i.vm.callDepth.toNat i.savedFrame)[d]? = some frame := by
      rw [pushed_vm] at hframe
      exact hframe
    rcases Nat.lt_or_eq_of_le (Nat.le_of_lt_succ hd) with hlower | rfl
    · rw [List.getElem?_set_ne (Nat.ne_of_gt hlower)] at hset
      exact h.saved d hlower frame hset
    · rw [List.getElem?_set_self hlt] at hset
      cases hset
      exact h.current

variable [ContextObject C]

theorem FramePointers.of_dispatched (h : FramePointers P i) (hj : Dispatched exe i i') :
    FramePointers P i' := by
  obtain ⟨-, -, value, context, -, -, rfl⟩ := hj
  exact FramePointers.withReg_ne (i := i.dispatched exe (.ok value) context) ⟨h.current, h.saved⟩
    (by decide) value

/-- One step, for a condition on frame pointers that additions to register 10 and calls keep. -/
theorem Effect.framePointers (h : Effect exe insn op i i') (hi : FramePointers P i)
    (hsmall : i.vm.callFrames.length < 2 ^ 64)
    (hwrite : op.writesDst = true → insn.dst = framePtrReg →
      op = .alu64 .add .imm ∧ ∀ d x, P d x → P d (x + insn.imm))
    (hpush : ∀ d x, P d x → P (d + 1)
      (if exe.sbpfVersion.manualStackFrameBump then x else x + frameDistance exe)) :
    FramePointers P i' := by
  cases h with
  | @write value next hwrites hnext hadd =>
      refine FramePointers.withReg_ne ?_ (by decide) next
      by_cases hdst : insn.dst = framePtrReg
      · obtain ⟨hop, hkeep⟩ := hwrite hwrites hdst
        obtain ⟨old, hold, rfl⟩ := hadd hop
        rw [hdst] at hold ⊢
        have heq : old = i.framePtr := by
          simpa [framePtrReg, framePtr, eq_comm] using hold
        refine ⟨?_, hi.saved⟩
        rw [framePtrReg, framePtr_withReg_self, heq]
        exact hkeep _ _ hi.current
      · exact hi.withReg_ne hdst value
  | silent _ _ => exact hi.withReg_ne (by decide) _
  | builtin _ hj => exact (hi.of_dispatched hj).withReg_ne (by decide) _
  | @call j target _ hj hlt hmax _ =>
      have hjP : FramePointers P j ∧ j.vm.callFrames = i.vm.callFrames ∧
          j.vm.callDepth = i.vm.callDepth := by
        rcases hj with rfl | hj
        · exact ⟨hi, rfl, rfl⟩
        · exact ⟨hi.of_dispatched hj, hj.frames.1, hj.frames.2.1⟩
      obtain ⟨hjP, hframes, hdepth⟩ := hjP
      rw [← hframes] at hlt hsmall
      rw [← hdepth] at hlt
      exact (hjP.pushed hlt hsmall hpush).withReg_ne (by decide) target
  | ret _ hpos hvm hframe _ =>
      have hpred := toNat_pred hpos
      have hdepth : i.vm.callDepth.toNat ≠ 0 := fun heq => hpos (BitVec.eq_of_toNat_eq heq)
      refine ⟨?_, fun d hd frame hsaved => ?_⟩
      · rw [hvm]
        exact hi.saved _ (by omega) _ hframe
      · have hd' : d < (i.vm.callDepth - 1).toNat := by
          rw [hvm] at hd
          exact hd
        rw [hvm] at hsaved
        exact hi.saved d (by omega) frame hsaved

end Interpreter

namespace Machine

open Interpreter Verifier

variable {C : Type} [ContextObject C] {exe : Executable C} {σ : Type}
  {mem : Handler MemOp MemRet σ} {s : σ} {P : Nat → U64 → Prop}

/-- A condition on frame pointers that calls keep, and additions of multiples of 64 where they are
allowed, holds throughout the run of a verified program. -/
theorem after_framePointers (hverify : verify exe.program exe.sbpfVersion = .ok ())
    (hmax : exe.config.maxCallDepth < 2 ^ 64)
    (hadd : exe.sbpfVersion.manualStackFrameBump = true → ∀ imm : U64, imm &&& 63 = 0 →
      ∀ d x, P d x → P d (x + imm))
    (hpush : ∀ d x, P d x → P (d + 1)
      (if exe.sbpfVersion.manualStackFrameBump then x else x + frameDistance exe))
    (context : C) (stackLen : Nat) (entrypoint : U64)
    (hstart : P 0 ((EbpfVm.new exe.config exe.sbpfVersion context stackLen).enter
      entrypoint).interpreter.framePtr) (n : Nat)
    (hrunning : (((EbpfVm.new exe.config exe.sbpfVersion context stackLen).enter entrypoint).after
      exe mem s n).status = .running) :
    FramePointers P (((EbpfVm.new exe.config exe.sbpfVersion context stackLen).enter
      entrypoint).after exe mem s n).interpreter := by
  set m := (EbpfVm.new exe.config exe.sbpfVersion context stackLen).enter entrypoint
  induction n with
  | zero => exact ⟨hstart, fun d hd => absurd hd (Nat.not_lt_zero d)⟩
  | succ n ih =>
      have hbefore := running_of_le (Nat.le_succ n) hrunning
      obtain ⟨-, -, insn, op, hfetched, heffect⟩ := (turn_after m n).flow_of_running hrunning
      obtain ⟨hcurrent, hsaved⟩ := ih hbefore
      refine heffect.framePointers ⟨hcurrent, hsaved⟩ ?_ ?_ hpush
      · have hlen := callFrames_length_after hbefore
        have hnew : m.interpreter.vm.callFrames.length = exe.config.maxCallDepth :=
          List.length_replicate
        exact (hlen.trans hnew) ▸ hmax
      · intro hwrites hdst
        obtain ⟨insn', hinsn, -, haccepted⟩ := fetched_accepted hverify hfetched.pc_lt
        cases hfetched.insn_eq.symm.trans hinsn
        obtain ⟨hmanual, hop, halign⟩ :=
          (haccepted op hfetched.decode_eq).framePtr hwrites hdst
        exact ⟨hop, hadd hmanual insn.imm halign⟩

theorem and_63_eq_zero {x : U64} (h : x &&& 63 = 0) : x.toNat % 64 = 0 := by
  have hand := congrArg BitVec.toNat h
  rw [BitVec.toNat_and] at hand
  exact (Nat.and_two_pow_sub_one_eq_mod x.toNat 6).symm.trans hand

theorem enter_framePtr (exe : Executable C) (context : C) (stackLen : Nat) (entrypoint : U64) :
    ((EbpfVm.new exe.config exe.sbpfVersion context stackLen).enter
      entrypoint).interpreter.framePtr =
      U64.saturatingAdd mmStackStart (BitVec.ofNat 64
        (if !exe.sbpfVersion.manualStackFrameBump then exe.config.stackFrameSize else stackLen)) := by
  simp [framePtr, EbpfVm.enter, EbpfVm.new, framePtrReg]

/-- Where programs move their frame pointer themselves, it stays aligned to 64 bytes: the verifier
has checked every addition to it, and a return restores an aligned value. -/
theorem bumped_frame_pointer_aligned (exe : Executable C)
    (hverify : verify exe.program exe.sbpfVersion = .ok ())
    (hmanual : exe.sbpfVersion.manualStackFrameBump = true)
    (hmax : exe.config.maxCallDepth < 2 ^ 64)
    (context : C) (stackLen : Nat) (hstack : stackLen < 2 ^ 32) (haligned : stackLen % 64 = 0)
    (entrypoint : U64) (mem : Handler MemOp MemRet σ) (s : σ) (n : Nat)
    (hrunning : (((EbpfVm.new exe.config exe.sbpfVersion context stackLen).enter entrypoint).after
      exe mem s n).status = .running) :
    (((EbpfVm.new exe.config exe.sbpfVersion context stackLen).enter entrypoint).after
      exe mem s n).interpreter.framePtr.toNat % 64 = 0 := by
  refine (after_framePointers (P := fun _ x => x.toNat % 64 = 0) hverify hmax ?_ ?_ context
    stackLen entrypoint ?_ n hrunning).current
  · intro _ imm himm _ x hx
    have hmod := and_63_eq_zero himm
    rw [BitVec.toNat_add]
    omega
  · intro _ x hx
    rw [hmanual]
    exact hx
  · rw [enter_framePtr, hmanual, U64.toNat_saturatingAdd]
    have hbase : mmStackStart.toNat = 0x200000000 := rfl
    have hlen : (BitVec.ofNat 64 stackLen).toNat = stackLen :=
      U64.toNat_ofNat (by unfold u64Max; omega)
    simp only [Bool.not_true, Bool.false_eq_true, if_false, hlen, hbase]
    unfold u64Max
    omega

end Machine

section Instance

/-- `add64 r10, -64`, `exit`. -/
def bumpsFrame : Executable TestContextObject :=
  { callsOnce with
    sbpfVersion := .v2
    program := [
      0x07, 0x0a, 0, 0, 0xc0, 0xff, 0xff, 0xff,
      0x95, 0, 0, 0, 0, 0, 0, 0] }

theorem bumpsFrame_aligned :
    (((EbpfVm.new bumpsFrame.config bumpsFrame.sbpfVersion (⟨100⟩ : TestContextObject) 4096).enter
      0).after bumpsFrame memHandler ⟨.identity, fun _ => 0⟩ 1).interpreter.framePtr.toNat % 64 =
      0 :=
  Machine.bumped_frame_pointer_aligned bumpsFrame (by decide +kernel) rfl (by decide) ⟨100⟩ 4096
    (by decide) (by decide) 0 memHandler ⟨.identity, fun _ => 0⟩ 1 (by decide +kernel)

end Instance

/-! ## Stack memory of the frames -/

namespace Machine

open Interpreter Verifier

variable {C : Type} {exe : Executable C}

/-- There are gaps between the frames in the VM address space. -/
def hasGaps (exe : Executable C) : Bool :=
  exe.sbpfVersion.stackFrameGaps && exe.config.enableStackFrameGaps

/-- The stack as `create_memory_mapping` maps it. -/
def stackRegion (exe : Executable C) (stackAddr : U64) : MemoryRegion :=
  MemoryRegion.newWritableGapped stackAddr
    (BitVec.ofNat 64 (exe.config.stackFrameSize * exe.config.maxCallDepth)) mmStackStart
    (if hasGaps exe then BitVec.ofNat 64 exe.config.stackFrameSize else 0)

/-- Bounds that the frame size and the call depth keep. -/
structure StackFits (exe : Executable C) (stackAddr : U64) : Prop where
  depth_pos : 0 < exe.config.maxCallDepth
  powerOfTwo : ∃ k, exe.config.stackFrameSize = 2 ^ k
  size_lt : exe.config.stackFrameSize * exe.config.maxCallDepth < 2 ^ 32
  host : stackAddr.toNat + exe.config.stackFrameSize * exe.config.maxCallDepth ≤ u64Max

theorem StackFits.frameSize_lt {stackAddr : U64} (h : StackFits exe stackAddr) :
    exe.config.stackFrameSize < 2 ^ 32 ∧ exe.config.maxCallDepth < 2 ^ 32 ∧
      0 < exe.config.stackFrameSize := by
  obtain ⟨k, hk⟩ := h.powerOfTwo
  have hpos : 0 < exe.config.stackFrameSize := hk ▸ Nat.two_pow_pos k
  refine ⟨?_, ?_, hpos⟩
  · exact Nat.lt_of_le_of_lt (Nat.le_mul_of_pos_right _ h.depth_pos) h.size_lt
  · exact Nat.lt_of_le_of_lt (Nat.le_mul_of_pos_left _ hpos) h.size_lt

/-- The gap shift of the region is the logarithm of the frame size. -/
theorem stackRegion_shift {stackAddr : U64} (h : StackFits exe stackAddr) :
    (hasGaps exe = false → (stackRegion exe stackAddr).vmGapShift = 63) ∧
    (hasGaps exe = true → (stackRegion exe stackAddr).vmGapShift ≠ 63 ∧
      (stackRegion exe stackAddr).frameSize = exe.config.stackFrameSize) := by
  constructor
  · intro hgaps
    simp [stackRegion, MemoryRegion.newWritableGapped, MemoryRegion.new, hgaps]
  · intro hgaps
    obtain ⟨k, hk⟩ := h.powerOfTwo
    have hlt := h.frameSize_lt.1
    have hk32 : k < 32 := by
      rw [hk] at hlt
      exact (Nat.pow_lt_pow_iff_right (by decide)).mp hlt
    have hsize : (BitVec.ofNat 64 (2 ^ k)).toNat = 2 ^ k :=
      U64.toNat_ofNat (by unfold u64Max; omega)
    have hpos : (0 : U64) < BitVec.ofNat 64 (2 ^ k) := by
      rw [BitVec.lt_def, hsize]
      exact Nat.two_pow_pos k
    have hzeros : MemoryRegion.leadingZeros (BitVec.ofNat 64 (2 ^ k)) = 63 - k := by
      unfold MemoryRegion.leadingZeros
      rw [if_neg (fun heq => absurd hpos (by rw [heq]; decide)), hsize, Nat.log2_two_pow]
    have hshift : (stackRegion exe stackAddr).vmGapShift = UInt8.ofNat k := by
      simp only [stackRegion, MemoryRegion.newWritableGapped, MemoryRegion.new, hgaps, if_true, hk]
      rw [if_pos hpos, hzeros]
      congr 1
      omega
    have hto : (UInt8.ofNat k).toNat = k := by
      simp
      omega
    refine ⟨fun heq => ?_, ?_⟩
    · have := congrArg UInt8.toNat (hshift.symm.trans heq)
      rw [hto] at this
      simp at this
      omega
    · unfold MemoryRegion.frameSize
      rw [hshift, hto, hk]

/-- Offsets of frame `d` in the VM address space, and in the host memory. -/
theorem stackRegion_hostOffset {stackAddr : U64} (hfits : StackFits exe stackAddr) {d x : Nat}
    (hx : x < exe.config.stackFrameSize) :
    (stackRegion exe stackAddr).FrameOffset
        (d * (exe.config.stackFrameSize * if hasGaps exe then 2 else 1) + x) ∧
      (stackRegion exe stackAddr).hostOffset
        (d * (exe.config.stackFrameSize * if hasGaps exe then 2 else 1) + x) =
          d * exe.config.stackFrameSize + x := by
  obtain ⟨hflat, hgapped⟩ := stackRegion_shift hfits
  unfold MemoryRegion.FrameOffset MemoryRegion.hostOffset
  cases hgaps : hasGaps exe with
  | false =>
      rw [if_pos (hflat hgaps)]
      simp [hflat hgaps]
  | true =>
      obtain ⟨hne, hsize⟩ := hgapped hgaps
      have hpos : 0 < exe.config.stackFrameSize := Nat.lt_of_le_of_lt (Nat.zero_le x) hx
      have hsplit : d * (exe.config.stackFrameSize * if true = true then 2 else 1) + x =
          exe.config.stackFrameSize * (2 * d) + x := by
        rw [if_pos rfl, Nat.mul_comm d, Nat.mul_assoc]
      have hdiv : (exe.config.stackFrameSize * (2 * d) + x) / exe.config.stackFrameSize = 2 * d := by
        rw [Nat.mul_add_div hpos, Nat.div_eq_of_lt hx, Nat.add_zero]
      have hmod : (exe.config.stackFrameSize * (2 * d) + x) % exe.config.stackFrameSize = x :=
        (Nat.mul_add_mod ..).trans (Nat.mod_eq_of_lt hx)
      rw [if_neg hne, hsize, hsplit, hdiv, hmod, Nat.mul_div_cancel_left d (by decide),
        Nat.mul_comm d]
      exact ⟨.inr (Nat.mul_mod_right 2 d), rfl⟩

theorem stackRegion_translates {stackAddr framePtr offset len : U64}
    (hfits : StackFits exe stackAddr) {d : Nat} (hdepth : d < exe.config.maxCallDepth)
    (hptr : framePtr.toNat = mmStackStart.toNat + exe.config.stackFrameSize +
      d * (exe.config.stackFrameSize * if hasGaps exe then 2 else 1))
    (hoffset : 0 < offset.toNat ∧ offset.toNat ≤ exe.config.stackFrameSize) (hlen : len ≤ offset)
    (accessType : AccessType) :
    (stackRegion exe stackAddr).vmToHost accessType (framePtr - offset) len =
      some (stackAddr + BitVec.ofNat 64 ((d + 1) * exe.config.stackFrameSize) - offset) := by
  obtain ⟨hpos, hle⟩ := hoffset
  have hlen' : len.toNat ≤ offset.toNat := hlen
  have hframes : (d + 1) * exe.config.stackFrameSize ≤
      exe.config.stackFrameSize * exe.config.maxCallDepth := by
    rw [Nat.mul_comm exe.config.stackFrameSize]
    exact Nat.mul_le_mul_right _ hdepth
  have hsucc : (d + 1) * exe.config.stackFrameSize =
      d * exe.config.stackFrameSize + exe.config.stackFrameSize := Nat.succ_mul ..
  have hfull := hfits.size_lt
  have hhost := hfits.host
  have hregionLen : (stackRegion exe stackAddr).len.toNat =
      exe.config.stackFrameSize * exe.config.maxCallDepth :=
    U64.toNat_ofNat (by unfold u64Max; omega)
  -- Both addresses, as numbers.
  have haddr : (framePtr - offset).toNat = mmStackStart.toNat +
      (d * (exe.config.stackFrameSize * if hasGaps exe then 2 else 1) +
        (exe.config.stackFrameSize - offset.toNat)) := by
    have hsub : offset.toNat ≤ framePtr.toNat := by omega
    rw [BitVec.toNat_sub_of_le hsub]
    omega
  have htarget : (stackAddr + BitVec.ofNat 64 ((d + 1) * exe.config.stackFrameSize) -
      offset).toNat = stackAddr.toNat + (d * exe.config.stackFrameSize +
        (exe.config.stackFrameSize - offset.toNat)) := by
    have hadd : (stackAddr + BitVec.ofNat 64 ((d + 1) * exe.config.stackFrameSize)).toNat =
        stackAddr.toNat + (d + 1) * exe.config.stackFrameSize :=
      U64.toNat_add_ofNat (by omega)
    rw [BitVec.toNat_sub_of_le (by rw [BitVec.le_def, hadd]; omega), hadd]
    omega
  obtain ⟨hframe, hhostOffset⟩ := stackRegion_hostOffset hfits (d := d)
    (x := exe.config.stackFrameSize - offset.toNat) (by omega)
  have hhostFits : (stackRegion exe stackAddr).HostFits := by
    unfold MemoryRegion.HostFits
    rw [hregionLen]
    exact hhost
  have hvmAddr : (stackRegion exe stackAddr).vmAddr = mmStackStart := rfl
  rw [MemoryRegion.vmToHost_eq_some_iff hhostFits]
  refine ⟨⟨fun _ => rfl, ?_, ?_, ?_⟩, ?_⟩
  · rw [hvmAddr, haddr]
    exact Nat.le_add_right _ _
  · rw [hvmAddr, haddr, Nat.add_sub_cancel_left]
    exact hframe
  · rw [hvmAddr, haddr, Nat.add_sub_cancel_left, hhostOffset, hregionLen]
    omega
  · unfold MemoryRegion.hostByte
    rw [hvmAddr, haddr, Nat.add_sub_cancel_left, hhostOffset, htarget]
    rfl

variable [ContextObject C] {σ : Type}

/-- At depth `d`, the frame pointer is one frame above the start of the frame. -/
theorem fixed_framePtr (hverify : verify exe.program exe.sbpfVersion = .ok ())
    (hfixed : exe.sbpfVersion.manualStackFrameBump = false) {stackAddr : U64}
    (hfits : StackFits exe stackAddr) (context : C) (stackLen : Nat) (entrypoint : U64)
    {mem : Handler MemOp MemRet σ} {s : σ} (n : Nat)
    (hrunning : (((EbpfVm.new exe.config exe.sbpfVersion context stackLen).enter entrypoint).after
      exe mem s n).status = .running) :
    let i := (((EbpfVm.new exe.config exe.sbpfVersion context stackLen).enter entrypoint).after
      exe mem s n).interpreter
    i.vm.callDepth.toNat < exe.config.maxCallDepth ∧
      i.framePtr.toNat = mmStackStart.toNat + exe.config.stackFrameSize +
        i.vm.callDepth.toNat * (exe.config.stackFrameSize * if hasGaps exe then 2 else 1) := by
  intro i
  have hdepth : i.vm.callDepth.toNat < exe.config.maxCallDepth := by
    have hinv : NotPanicked exe (((EbpfVm.new exe.config exe.sbpfVersion context stackLen).enter
        entrypoint).after exe mem s n) :=
      after_invariant (fun _ _ => notPanicked_of_turn hverify) (enter_notPanicked hfits.depth_pos) n
    exact (hinv.2 hrunning).depth_lt
  refine ⟨hdepth, ?_⟩
  have hbelow : i.vm.callDepth.toNat * exe.config.stackFrameSize < 2 ^ 32 := by
    refine Nat.lt_of_le_of_lt ?_ hfits.size_lt
    rw [Nat.mul_comm exe.config.stackFrameSize]
    exact Nat.mul_le_mul_right _ hdepth.le
  have hptr : i.framePtr = U64.saturatingAdd mmStackStart (BitVec.ofNat 64 exe.config.stackFrameSize) +
      BitVec.ofNat 64 i.vm.callDepth.toNat * frameDistance exe := by
    refine (after_framePointers (P := fun d x => x = U64.saturatingAdd mmStackStart
      (BitVec.ofNat 64 exe.config.stackFrameSize) + BitVec.ofNat 64 d * frameDistance exe)
      hverify (Nat.lt_trans hfits.frameSize_lt.2.1 (by decide)) ?_ ?_ context
      stackLen entrypoint ?_ n hrunning).current
    · intro hmanual
      rw [hfixed] at hmanual
      cases hmanual
    · rintro d x rfl
      rw [hfixed, if_neg (by decide), add_assoc, BitVec.ofNat_add, add_mul, BitVec.one_mul]
    · rw [enter_framePtr, hfixed]
      simp
  obtain ⟨hsize, -, -⟩ := hfits.frameSize_lt
  have hdistance : (frameDistance exe).toNat =
      exe.config.stackFrameSize * if hasGaps exe then 2 else 1 := by
    refine U64.toNat_ofNat ?_
    unfold u64Max
    split <;> omega
  have hoffset : (BitVec.ofNat 64 i.vm.callDepth.toNat * frameDistance exe).toNat =
      i.vm.callDepth.toNat * (exe.config.stackFrameSize * if hasGaps exe then 2 else 1) := by
    rw [BitVec.ofNat_toNat, BitVec.setWidth_eq, BitVec.toNat_mul, hdistance]
    refine Nat.mod_eq_of_lt ?_
    rw [← Nat.mul_assoc]
    split <;> omega
  have hbase : (U64.saturatingAdd mmStackStart
      (BitVec.ofNat 64 exe.config.stackFrameSize)).toNat =
      mmStackStart.toNat + exe.config.stackFrameSize := by
    have hstart : mmStackStart.toNat = 0x200000000 := rfl
    rw [U64.toNat_saturatingAdd, U64.toNat_ofNat (by unfold u64Max; omega)]
    unfold u64Max
    omega
  rw [hptr, BitVec.toNat_add, hbase, hoffset]
  refine Nat.mod_eq_of_lt ?_
  have hstart : mmStackStart.toNat = 0x200000000 := rfl
  rw [← Nat.mul_assoc]
  split <;> omega

/-- Functions at different depths have stack memory of their own.  At depth `d`, an access that
starts at most one frame below the frame pointer and ends at most at it goes to frame `d` of the
host's stack, at the same distance from its end. -/
theorem fixed_frame_translates (exe : Executable C)
    (hverify : verify exe.program exe.sbpfVersion = .ok ())
    (hfixed : exe.sbpfVersion.manualStackFrameBump = false) (stackAddr : U64)
    (hfits : StackFits exe stackAddr) (context : C) (stackLen : Nat) (entrypoint : U64)
    (mem : Handler MemOp MemRet σ) (s : σ) (n : Nat)
    (hrunning : (((EbpfVm.new exe.config exe.sbpfVersion context stackLen).enter entrypoint).after
      exe mem s n).status = .running) (accessType : AccessType) (offset len : U64)
    (hoffset : 0 < offset.toNat ∧ offset.toNat ≤ exe.config.stackFrameSize) (hlen : len ≤ offset) :
    let i := (((EbpfVm.new exe.config exe.sbpfVersion context stackLen).enter entrypoint).after
      exe mem s n).interpreter
    i.vm.callDepth.toNat < exe.config.maxCallDepth ∧
      (stackRegion exe stackAddr).vmToHost accessType (i.framePtr - offset) len =
        some (stackAddr + BitVec.ofNat 64 ((i.vm.callDepth.toNat + 1) * exe.config.stackFrameSize) -
          offset) := by
  intro i
  obtain ⟨hdepth, hptr⟩ := fixed_framePtr hverify hfixed hfits context stackLen entrypoint n hrunning
  exact ⟨hdepth, stackRegion_translates hfits hdepth hptr hoffset hlen accessType⟩

end Machine

section Instance

/-- Inside the function, the word below its frame pointer is in the second frame of the stack. -/
theorem callsOnce_frame_translates :
    (Machine.stackRegion callsOnce 0x70000).vmToHost .store
      ((callsOnceEntry.after callsOnce memHandler ⟨.identity, fun _ => 0⟩ 1).interpreter.framePtr -
        8) 8 = some (0x70000 + 2 * 4096 - 8) :=
  (Machine.fixed_frame_translates callsOnce (by decide +kernel) rfl 0x70000
    ⟨by decide, ⟨12, rfl⟩, by decide, by decide⟩ ⟨100⟩ 0 0 memHandler ⟨.identity, fun _ => 0⟩ 1
    (by decide +kernel) .store 8 8 (by decide) (by decide)).2.trans (by decide +kernel)

end Instance

end Sbpf
end Gobble
