import Gobble.Sbpf.VerifiedPrograms

/-!
# Vm — running a program to its end

Model of `EbpfVm::new` and of the interpreted `execute_program` in `sbpf/src/vm.rs`.  The loop
`while interpreter.step() {}` need not end; `executeProgram` therefore takes the number of turns after
which it is given up, and `executeProgram_returns` says how many are enough: a verified program that is
metered returns.  It neither panics nor runs for more turns than it has units for.
-/

namespace Gobble
namespace Sbpf

open Lib Ebpf EffectTree

namespace EbpfVm

variable {C : Type} [ContextObject C]

theorem framePtrReg_lt : framePtrReg < 12 := by
  decide

/-- Creates a new virtual machine instance, without the memory mapping. -/
def new (config : Config) (v : SBPFVersion) (contextObject : C) (stackLen : Nat) : EbpfVm C :=
  { callDepth := 0
    contextObject
    previousInstructionMeter := 0
    dueInsnCount := 0
    registers := (Vector.replicate 12 0).set framePtrReg
      (U64.saturatingAdd mmStackStart (BitVec.ofNat 64
        (if !v.manualStackFrameBump then config.stackFrameSize else stackLen))) framePtrReg_lt
    programResult := .ok 0
    callFrames := List.replicate config.maxCallDepth {}
    registerTrace := [] }

/-- `execute_program` before the loop. -/
def enter (vm : EbpfVm C) (entrypoint : U64) : Machine C :=
  let registers := vm.registers.set 11 entrypoint Interpreter.pc_lt
  { interpreter :=
      { vm := { vm with
          registers
          previousInstructionMeter := ContextObject.getRemaining vm.contextObject
          dueInsnCount := 0
          programResult := .ok 0 }
        reg := registers }
    status := .running }

/-- `execute_program` after the loop: the instruction count, the result and the VM. -/
def leave (vm : EbpfVm C) (config : Config) (initialInsnCount : U64) :
    U64 × ProgramResult × EbpfVm C :=
  if config.enableInstructionMeter then
    let contextObject := ContextObject.consume vm.contextObject vm.dueInsnCount
    (U64.saturatingSub initialInsnCount (ContextObject.getRemaining contextObject),
      vm.programResult, { vm with contextObject, programResult := .ok 0 })
  else
    (0, vm.programResult, { vm with programResult := .ok 0 })

/-- The result, once the loop has ended without a panic. -/
def returned (config : Config) (initialInsnCount : U64) (m : Machine C) :
    Option (U64 × ProgramResult × EbpfVm C) :=
  match m.status with
  | .stopped => some (m.interpreter.vm.leave config initialInsnCount)
  | _ => none

/-- Interprets a program.  There is no result if the interpreter panics, or if it is still running
after `turns` turns of the loop. -/
def executeProgram (vm : EbpfVm C) (exe : Executable C) (entrypoint : U64) (turns : Nat) :
    VmProgram (Option (U64 × ProgramResult × EbpfVm C)) := do
  let m ← (vm.enter entrypoint).runSteps exe turns
  return returned exe.config (ContextObject.getRemaining vm.contextObject) m

end EbpfVm

/-! ## Verified programs do not panic -/

namespace Interpreter

variable {C : Type} {exe : Executable C} {i i' : Interpreter C}

/-- The call depth is below its limit, and there is a frame for each depth. -/
structure DepthBounded (exe : Executable C) (i : Interpreter C) : Prop where
  frames_length : i.vm.callFrames.length = exe.config.maxCallDepth
  depth_lt : i.vm.callDepth.toNat < exe.config.maxCallDepth

theorem FrameEffect.depthBounded (h : FrameEffect exe i i') (hi : DepthBounded exe i) :
    DepthBounded exe i' := by
  obtain ⟨hlength, hlt⟩ := hi
  cases h with
  | keep hframes hdepth => exact ⟨by rw [hframes, hlength], by rw [hdepth]; exact hlt⟩
  | push _ hmax hframes hdepth =>
      refine ⟨by rw [hframes, List.length_set, hlength], ?_⟩
      -- The depth is checked for equality with the limit only.
      have hadd : (i.vm.callDepth + 1).toNat ≤ i.vm.callDepth.toNat + 1 := by
        rw [BitVec.toNat_add]
        exact Nat.mod_le _ _
      rw [hdepth]
      omega
  | pop hpos _ hframes hdepth =>
      refine ⟨by rw [hframes, hlength], ?_⟩
      have hne : i.vm.callDepth.toNat ≠ 0 := fun h => hpos (BitVec.eq_of_toNat_eq h)
      have hsub := BitVec.toNat_sub i.vm.callDepth 1
      rw [hdepth]
      simp at hsub ⊢
      omega

end Interpreter

namespace Machine

open Interpreter Verifier

variable {C : Type} [ContextObject C] {exe : Executable C} {m m' : Machine C}

/-- A verified program that runs is at a bounded depth, and has not panicked. -/
def NotPanicked (exe : Executable C) (m : Machine C) : Prop :=
  m.status ≠ .panicked ∧ (m.status = .running → DepthBounded exe m.interpreter)

theorem notPanicked_of_turn (hverify : verify exe.program exe.sbpfVersion = .ok ())
    (hm : NotPanicked exe m) (hturn : Turn exe m m') : NotPanicked exe m' := by
  cases hturn with
  | idle _ => exact hm
  | flow hflow =>
      obtain ⟨-, insn, op, -, heffect⟩ := hflow
      obtain ⟨hlength, hlt⟩ := hm.2 rfl
      exact ⟨fun h => RunStatus.noConfusion h, fun _ => heffect.frames.depthBounded ⟨hlength, hlt⟩⟩
  | stop _ => exact ⟨fun h => RunStatus.noConfusion h, fun h => RunStatus.noConfusion h⟩
  | panic hhalts =>
      obtain ⟨hlength, hlt⟩ := hm.2 rfl
      cases hhalts with
      | panic h => exact absurd (stepRunnable_of_verify hverify (hlength ▸ hlt)) h

theorem enter_notPanicked {context : C} {stackLen : Nat} {entrypoint : U64}
    (hdepth : 0 < exe.config.maxCallDepth) :
    NotPanicked exe ((EbpfVm.new exe.config exe.sbpfVersion context stackLen).enter entrypoint) :=
  ⟨fun h => RunStatus.noConfusion h, fun _ => ⟨List.length_replicate, hdepth⟩⟩

/-- A verified program does not panic, whatever the memory holds, whatever its builtin functions do,
and for however long it runs: no register, call frame or instruction that it needs is missing, and it
does not divide by a zero immediate. -/
theorem verified_program_never_panics {σ : Type} (exe : Executable C)
    (hverify : verify exe.program exe.sbpfVersion = .ok ()) (hdepth : 0 < exe.config.maxCallDepth)
    (context : C) (stackLen : Nat) (entrypoint : U64) (mem : Handler MemOp MemRet σ) (s : σ)
    (n : Nat) :
    (((EbpfVm.new exe.config exe.sbpfVersion context stackLen).enter entrypoint).after exe mem s
      n).status ≠ .panicked :=
  (after_invariant (fun _ _ => notPanicked_of_turn hverify) (enter_notPanicked hdepth) n).1

end Machine

/-! A program that counts down from three. -/

section Instance

/-- Simple instruction meter. -/
structure TestContextObject where
  remaining : U64
  deriving DecidableEq, Repr

instance : ContextObject TestContextObject where
  consume c amount := { c with remaining := U64.saturatingSub c.remaining amount }
  getRemaining c := c.remaining

/-- `mov64 r0, 3`, `sub64 r0, 1`, `jne r0, 0, -2`, `exit`. -/
def countsDown : Executable TestContextObject :=
  { config := {}
    sbpfVersion := .v0
    program := [
      0xb7, 0, 0, 0, 3, 0, 0, 0,
      0x17, 0, 0, 0, 1, 0, 0, 0,
      0x55, 0, 0xfe, 0xff, 0, 0, 0, 0,
      0x95, 0, 0, 0, 0, 0, 0, 0]
    programVmAddr := mmBytecodeStart
    syscalls := fun _ => none
    functions := fun _ => none }

theorem countsDown_verified :
    Verifier.verify countsDown.program countsDown.sbpfVersion = .ok () := by
  decide +kernel

theorem countsDown_never_panics :
    (((EbpfVm.new countsDown.config .v0 (⟨100⟩ : TestContextObject) 0).enter 0).after countsDown
      memHandler ⟨.identity, fun _ => 0⟩ 8).status ≠ .panicked :=
  Machine.verified_program_never_panics countsDown countsDown_verified (by decide) ⟨100⟩ 0 0
    memHandler ⟨.identity, fun _ => 0⟩ 8

end Instance

/-! ## Metered programs end -/

/-- The meter of a context object is charged as the machine charges it. -/
class LawfulContextObject (C : Type) [ContextObject C] : Prop where
  getRemaining_consume (c : C) (amount : U64) :
    ContextObject.getRemaining (ContextObject.consume c amount) =
      U64.saturatingSub (ContextObject.getRemaining c) amount

/-- A builtin function returns with at most the units that it was called with. -/
def BuiltinFunction.NeverRefunds {C : Type} [ContextObject C] (function : BuiltinFunction C) : Prop :=
  ∀ context a b c d e, (function context a b c d e).Leaves fun r =>
    ContextObject.getRemaining r.2 ≤ ContextObject.getRemaining context

namespace Interpreter

variable {C : Type} [ContextObject C] {exe : Executable C} {i i' : Interpreter C}

/-- Units that are left to the program: the meter without the instructions not charged yet. -/
def unitsLeft (i : Interpreter C) : Nat :=
  i.vm.previousInstructionMeter.toNat - i.vm.dueInsnCount.toNat

/-- The meter of the machine is that of the context object, and is not overdrawn. -/
structure Solvent (i : Interpreter C) : Prop where
  meter : i.vm.previousInstructionMeter = ContextObject.getRemaining i.vm.contextObject
  due_le : i.vm.dueInsnCount ≤ i.vm.previousInstructionMeter

/-- What an instruction costs. -/
theorem Charged.solvent [LawfulContextObject C] (henabled : exe.config.enableInstructionMeter = true)
    (hbuiltins : ∀ key function, exe.syscalls key = some function → function.NeverRefunds)
    (hi : Solvent i) (hleft : MeterLeft exe i) (h : Charged exe (i.counted exe) i') :
    Solvent i' ∧ i'.unitsLeft + 1 ≤ i.unitsLeft := by
  have hlt : i.vm.dueInsnCount.toNat < i.vm.previousInstructionMeter.toNat := hleft henabled
  have hmax := i.vm.previousInstructionMeter.isLt
  have hsucc : (i.vm.dueInsnCount + 1).toNat = i.vm.dueInsnCount.toNat + 1 := by
    rw [BitVec.toNat_add]
    exact Nat.mod_eq_of_lt (by simp; omega)
  rcases h with hmeters | ⟨key, function, result, context, hfunction, hreturns, hmeters⟩
  · simp only [meters, counted, Prod.mk.injEq] at hmeters
    obtain ⟨hcontext, hmeter, hdue⟩ := hmeters
    refine ⟨⟨?_, ?_⟩, ?_⟩
    · rw [hcontext, hmeter, hi.meter]
    · rw [hmeter, hdue, BitVec.le_def, hsucc]
      exact hlt
    · unfold unitsLeft
      rw [hmeter, hdue, hsucc]
      omega
  · simp only [meters, dispatched, henabled, if_true, Prod.mk.injEq] at hmeters
    obtain ⟨hcontext, hmeter, hdue⟩ := hmeters
    refine ⟨⟨?_, ?_⟩, ?_⟩
    · rw [hcontext, hmeter]
    · rw [hdue, BitVec.le_def]
      exact Nat.zero_le _
    · -- The function was called with what was left after this instruction.
      obtain ⟨_, _, _, _, _, hreturns⟩ := hreturns
      have hrefund := (hbuiltins key function hfunction _ _ _ _ _ _).of_returns hreturns
      rw [chargedContext, henabled, if_pos rfl, LawfulContextObject.getRemaining_consume,
        BitVec.le_def, U64.toNat_saturatingSub] at hrefund
      simp only [counted, hsucc, ← hi.meter] at hrefund
      unfold unitsLeft
      rw [hmeter, hdue]
      simp
      omega

/-- The turn that ends a run costs a unit as well, unless it only finds that there is none left. -/
theorem Halts.solvent [LawfulContextObject C] (henabled : exe.config.enableInstructionMeter = true)
    (hbuiltins : ∀ key function, exe.syscalls key = some function → function.NeverRefunds)
    (hi : Solvent i) (h : Halts exe i .stop i') :
    Solvent i' ∧ i'.unitsLeft ≤ i.unitsLeft ∧
      (MeterLeft exe i → i'.unitsLeft + 1 ≤ i.unitsLeft) := by
  cases h with
  | exhausted hnone =>
      exact ⟨⟨hi.meter, hi.due_le⟩, Nat.le_refl _, fun hleft => absurd hleft hnone⟩
  | stop hleft hcharged =>
      obtain ⟨hsolvent, hunits⟩ := hcharged.solvent henabled hbuiltins hi hleft
      exact ⟨hsolvent, Nat.le_of_succ_le hunits, fun _ => hunits⟩

end Interpreter

namespace Machine

open Interpreter

variable {C : Type} [ContextObject C] [LawfulContextObject C] {exe : Executable C} {σ : Type}
  {mem : Handler MemOp MemRet σ} {s : σ} {m : Machine C}

/-- As long as the machine has not panicked it is solvent, and each turn that it has completed has
cost a unit; so has the turn that begins at `k`, if it passes the check of the meter. -/
theorem after_solvent (henabled : exe.config.enableInstructionMeter = true)
    (hbuiltins : ∀ key function, exe.syscalls key = some function → function.NeverRefunds)
    (hm : Solvent m.interpreter) (n : Nat) (hn : (m.after exe mem s n).status ≠ .panicked) :
    Solvent (m.after exe mem s n).interpreter ∧
      ∀ k ≤ n, (m.after exe mem s k).status = .running →
        (m.after exe mem s n).interpreter.unitsLeft + k ≤ m.interpreter.unitsLeft ∧
        (k < n → MeterLeft exe (m.after exe mem s k).interpreter →
          (m.after exe mem s n).interpreter.unitsLeft + (k + 1) ≤ m.interpreter.unitsLeft) := by
  induction n with
  | zero =>
      refine ⟨hm, fun k hk _ => ?_⟩
      rw [Nat.le_zero.mp hk]
      exact ⟨Nat.le_refl _, fun hlt => absurd hlt (Nat.lt_irrefl 0)⟩
  | succ n ih =>
      have hturn : Turn exe (m.after exe mem s n) (m.after exe mem s (n + 1)) := turn_after m n
      generalize hcur : m.after exe mem s n = cur at hturn ih
      generalize hnext : m.after exe mem s (n + 1) = next at hturn hn
      have hsplit : ∀ k ≤ n + 1, k < n ∨ k = n ∨ k = n + 1 := by omega
      cases hturn with
      | idle hidle =>
          obtain ⟨hsolvent, hunits⟩ := ih hn
          refine ⟨hsolvent, fun k hk hrunning => ?_⟩
          rcases hsplit k hk with hk | rfl | rfl
          · obtain ⟨hpast, hpaid⟩ := hunits k hk.le hrunning
            exact ⟨hpast, fun _ => hpaid hk⟩
          · rw [hcur] at hrunning
            exact absurd hrunning hidle
          · rw [hnext] at hrunning
            exact absurd hrunning hidle
      | @flow i i' hflow =>
          obtain ⟨hsolvent, hunits⟩ := ih fun h => RunStatus.noConfusion h
          obtain ⟨hleft, insn, op, -, heffect⟩ := hflow
          obtain ⟨hsolvent', hpaid⟩ := heffect.charged.solvent henabled hbuiltins hsolvent hleft
          have hbefore : i.unitsLeft + n ≤ m.interpreter.unitsLeft :=
            (hunits n (Nat.le_refl n) (by rw [hcur])).1
          have hafter : i'.unitsLeft + (n + 1) ≤ m.interpreter.unitsLeft :=
            calc i'.unitsLeft + (n + 1) = i'.unitsLeft + 1 + n := by omega
              _ ≤ i.unitsLeft + n := Nat.add_le_add_right hpaid n
              _ ≤ m.interpreter.unitsLeft := hbefore
          refine ⟨hsolvent', fun k hk _ => ⟨?_, fun hlt _ => ?_⟩⟩
          · exact Nat.le_trans (Nat.add_le_add_left hk _) hafter
          · exact Nat.le_trans (Nat.add_le_add_left hlt _) hafter
      | @stop i i' hhalts =>
          obtain ⟨hsolvent, hunits⟩ := ih fun h => RunStatus.noConfusion h
          obtain ⟨hsolvent', hkept, hlast⟩ := hhalts.solvent henabled hbuiltins hsolvent
          refine ⟨hsolvent', fun k hk hrunning => ?_⟩
          rcases hsplit k hk with hk | rfl | rfl
          · obtain ⟨hpast, hpaid⟩ := hunits k hk.le hrunning
            refine ⟨Nat.le_trans (Nat.add_le_add_right hkept k) hpast, fun _ hleft => ?_⟩
            exact Nat.le_trans (Nat.add_le_add_right hkept (k + 1)) (hpaid hk hleft)
          · -- The last turn.
            have hbefore : i.unitsLeft + k ≤ m.interpreter.unitsLeft :=
              (hunits k (Nat.le_refl k) hrunning).1
            refine ⟨Nat.le_trans (Nat.add_le_add_right hkept k) hbefore, fun _ hleft => ?_⟩
            rw [hcur] at hleft
            have hpaid : i'.unitsLeft + 1 ≤ i.unitsLeft := hlast hleft
            show i'.unitsLeft + (k + 1) ≤ _
            omega
          · rw [hnext] at hrunning
            cases hrunning
      | panic _ => exact absurd rfl hn

end Machine

namespace EbpfVm

open Machine Interpreter Verifier

variable {C : Type} [ContextObject C] [LawfulContextObject C] {σ : Type}

/-- What `execute_program` charges and reports after the loop. -/
theorem leave_solvent {config : Config} (henabled : config.enableInstructionMeter = true)
    {i : Interpreter C} (hi : Solvent i) (initialInsnCount : U64) :
    ((i.vm.leave config initialInsnCount).1).toNat = initialInsnCount.toNat - i.unitsLeft ∧
      (ContextObject.getRemaining (i.vm.leave config initialInsnCount).2.2.contextObject).toNat =
        i.unitsLeft := by
  have hremaining : (ContextObject.getRemaining
      (ContextObject.consume i.vm.contextObject i.vm.dueInsnCount)).toNat = i.unitsLeft := by
    rw [LawfulContextObject.getRemaining_consume, ← hi.meter, U64.toNat_saturatingSub]
    rfl
  unfold leave
  rw [if_pos henabled]
  exact ⟨by rw [U64.toNat_saturatingSub, hremaining], hremaining⟩

/-- A verified program that is metered returns, whatever the memory holds.  It needs a turn for each
unit at most, and one to find out that there is none left.  The instruction count that is returned is
what has been taken from the meter, and every instruction has been paid for: each completed turn, and
the turn that ends the run if there was a unit left for its instruction. -/
theorem executeProgram_returns (exe : Executable C)
    (hverify : verify exe.program exe.sbpfVersion = .ok ())
    (hdepth : 0 < exe.config.maxCallDepth) (henabled : exe.config.enableInstructionMeter = true)
    (hbuiltins : ∀ key function, exe.syscalls key = some function → function.NeverRefunds)
    (context : C) (stackLen : Nat) (entrypoint : U64) (mem : Handler MemOp MemRet σ) (s : σ)
    (turns : Nat) (hturns : (ContextObject.getRemaining context).toNat < turns) :
    ∃ count result vm',
      (EffectTree.run mem ((new exe.config exe.sbpfVersion context stackLen).executeProgram exe
        entrypoint turns) s).1 = some (count, result, vm') ∧
      count.toNat + (ContextObject.getRemaining vm'.contextObject).toNat =
        (ContextObject.getRemaining context).toNat ∧
      ∀ n, (((new exe.config exe.sbpfVersion context stackLen).enter entrypoint).after exe mem s
          n).status = .running →
        n ≤ count.toNat ∧
        (MeterLeft exe (((new exe.config exe.sbpfVersion context stackLen).enter entrypoint).after
          exe mem s n).interpreter → n + 1 ≤ count.toNat) := by
  set vm := new exe.config exe.sbpfVersion context stackLen with hvm
  set m := vm.enter entrypoint with hm
  have hnotPanicked : ∀ n, NotPanicked exe (m.after exe mem s n) := fun n =>
    after_invariant (fun _ _ => notPanicked_of_turn hverify) (enter_notPanicked hdepth) n
  have hstart : Solvent m.interpreter := ⟨rfl, BitVec.le_def.mpr (Nat.zero_le _)⟩
  have hpaid := fun n => after_solvent henabled hbuiltins hstart n (hnotPanicked n).1
  have hunits : m.interpreter.unitsLeft = (ContextObject.getRemaining context).toNat := rfl
  have hstopped : (m.after exe mem s turns).status = .stopped := by
    cases hstatus : (m.after exe mem s turns).status with
    | stopped => rfl
    | panicked => exact absurd hstatus (hnotPanicked turns).1
    | running =>
        have hcost := ((hpaid turns).2 turns (Nat.le_refl turns) hstatus).1
        omega
  obtain ⟨hsolvent, hcost⟩ := hpaid turns
  set last := m.after exe mem s turns
  obtain ⟨hcount, hremaining⟩ :=
    leave_solvent henabled hsolvent (ContextObject.getRemaining context)
  have hle : last.interpreter.unitsLeft ≤ m.interpreter.unitsLeft :=
    (hcost 0 (Nat.zero_le turns) rfl).1
  rcases hleave : last.interpreter.vm.leave exe.config (ContextObject.getRemaining context) with
    ⟨count, result, vm'⟩
  rw [hleave] at hcount hremaining
  refine ⟨count, result, vm', ?_, ?_, fun n hrunning => ?_⟩
  · calc (EffectTree.run mem (vm.executeProgram exe entrypoint turns) s).1
        = returned exe.config (ContextObject.getRemaining context) last := by
          unfold executeProgram
          exact congrArg Prod.fst (EffectTree.run_bind mem (m.runSteps exe turns) _ s)
      _ = some (last.interpreter.vm.leave exe.config (ContextObject.getRemaining context)) := by
          unfold returned
          rw [hstopped]
      _ = some (count, result, vm') := by rw [hleave]
  · rw [hcount, hremaining]
    omega
  · have hbound := ((hpaid n).2 n (Nat.le_refl n) hrunning).1
    obtain ⟨hpast, hnow⟩ := hcost n (by omega) hrunning
    rw [hcount]
    refine ⟨by omega, fun hleft => ?_⟩
    have hlast := hnow (by omega) hleft
    omega

end EbpfVm

section Instance

instance : LawfulContextObject TestContextObject where
  getRemaining_consume _ _ := rfl

/-- The machine in which a program that counts down starts. -/
def countsDownStart (units : U64) : EbpfVm TestContextObject :=
  EbpfVm.new countsDown.config .v0 ⟨units⟩ 0

/-- With a hundred units the program gets to its end, and its eight instructions are paid for.  With
five units it does not, but it returns all the same and the units are gone. -/
theorem countsDown_returns :
    (∃ count result vm', (EffectTree.run memHandler ((countsDownStart 100).executeProgram
        countsDown 0 101) ⟨.identity, fun _ => 0⟩).1 = some (count, result, vm') ∧
      count.toNat + (ContextObject.getRemaining vm'.contextObject).toNat = 100 ∧
      8 ≤ count.toNat) ∧
    ∃ count result vm', (EffectTree.run memHandler ((countsDownStart 5).executeProgram
        countsDown 0 6) ⟨.identity, fun _ => 0⟩).1 = some (count, result, vm') ∧
      count.toNat + (ContextObject.getRemaining vm'.contextObject).toNat = 5 ∧
      5 ≤ count.toNat := by
  have hbuiltins : ∀ key function, countsDown.syscalls key = some function →
      function.NeverRefunds := fun _ _ h => absurd h (by simp [countsDown])
  constructor
  · obtain ⟨count, result, vm', hreturns, hsum, hpaid⟩ := EbpfVm.executeProgram_returns countsDown
      countsDown_verified (by decide) rfl hbuiltins ⟨100⟩ 0 0 memHandler ⟨.identity, fun _ => 0⟩ 101
      (by decide)
    -- The seventh turn has been completed, and the eighth has a unit left.
    exact ⟨count, result, vm', hreturns, hsum,
      (hpaid 7 (by decide +kernel)).2 fun _ => by decide +kernel⟩
  · obtain ⟨count, result, vm', hreturns, hsum, hpaid⟩ := EbpfVm.executeProgram_returns countsDown
      countsDown_verified (by decide) rfl hbuiltins ⟨5⟩ 0 0 memHandler ⟨.identity, fun _ => 0⟩ 6
      (by decide)
    exact ⟨count, result, vm', hreturns, hsum, (hpaid 5 (by decide +kernel)).1⟩

end Instance

end Sbpf
end Gobble
