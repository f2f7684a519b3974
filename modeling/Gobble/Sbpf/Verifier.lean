import Gobble.Lib.Outcome
import Gobble.Sbpf.Ebpf

/-!
# Verifier — the checks that a program has to pass before it runs

Model of `RequisiteVerifier` in `sbpf/src/verifier.rs`.  Like the interpreter, the verifier is one
`match` on the opcode with guards; `verifierArms` lists its arms in order, each with the check it
makes and whether it is a store.  The two tables are compared arm by arm in
`verifierArm_matches_decode`: the verifier knows exactly the opcodes that the interpreter executes,
and makes the check that the operation calls for.
-/

namespace Gobble
namespace Sbpf

open Lib Ebpf

inductive VerifierError where
  | programLengthNotMultiple
  | noProgram
  | divisionByZero (insnPtr : Nat)
  | unsupportedLEBEArgument (insnPtr : Nat)
  | lddwCannotBeLast
  | incompleteLDDW (insnPtr : Nat)
  | jumpOutOfCode (target : U64) (insnPtr : Nat)
  | jumpToMiddleOfLDDW (target : Nat) (insnPtr : Nat)
  | invalidSourceRegister (insnPtr : Nat)
  | cannotWriteR10 (insnPtr : Nat)
  | invalidDestinationRegister (insnPtr : Nat)
  | unknownOpCode (opc : UInt8) (insnPtr : Nat)
  | shiftWithOverflow (shift bits : U64) (insnPtr : Nat)
  | invalidRegister (insnPtr : Nat)
  | unalignedImmediate (insnPtr : Nat)
  deriving DecidableEq, Repr

namespace Verifier

abbrev Result := Outcome VerifierError

/-- `get_insn`, for an index of the verifier. -/
def getInsn (prog : List UInt8) (insnPtr : Nat) : Result Insn :=
  Outcome.unwrap (getInsnUnchecked prog (BitVec.ofNat 64 insnPtr))

/-! ## Checks -/

def checkProgLen (prog : List UInt8) : Result Unit := do
  if prog.length % 8 ≠ 0 then
    Outcome.err .programLengthNotMultiple
  if prog.isEmpty then
    Outcome.err .noProgram

def checkImmNonzero (insn : Insn) (insnPtr : Nat) : Result Unit := do
  if insn.imm = 0 then
    Outcome.err (.divisionByZero insnPtr)

def checkImmEndian (insn : Insn) (insnPtr : Nat) : Result Unit :=
  if insn.imm = 16 ∨ insn.imm = 32 ∨ insn.imm = 64 then pure ()
  else Outcome.err (.unsupportedLEBEArgument insnPtr)

def checkImmAligned (insn : Insn) (insnPtr : Nat) (alignment : U64) : Result Unit :=
  if insn.imm &&& (alignment - 1) = 0 then pure ()
  else Outcome.err (.unalignedImmediate insnPtr)

def checkLoadDw (prog : List UInt8) (insnPtr : Nat) : Result Unit := do
  if (insnPtr + 1) * 8 ≥ prog.length then
    -- The last instruction cannot be a `lddw`: there would be no second half.
    Outcome.err .lddwCannotBeLast
  let nextInsn ← getInsn prog (insnPtr + 1)
  if nextInsn.opc ≠ 0 then
    Outcome.err (.incompleteLDDW insnPtr)

def checkJmpOffset (prog : List UInt8) (insnPtr : Nat) : Result Unit := do
  let insn ← getInsn prog insnPtr
  let dstInsnPtr := (insnPtr : Int) + 1 + insn.off.toInt
  if dstInsnPtr < 0 ∨ (prog.length / 8 : Nat) ≤ dstInsnPtr then
    Outcome.err (.jumpOutOfCode (BitVec.ofInt 64 dstInsnPtr) insnPtr)
  let dstInsn ← getInsn prog dstInsnPtr.toNat
  if dstInsn.opc = 0 then
    Outcome.err (.jumpToMiddleOfLDDW dstInsnPtr.toNat insnPtr)

def checkRegisters (insn : Insn) (store : Bool) (insnPtr : Nat) (v : SBPFVersion) :
    Result Unit := do
  if insn.src > 10 then
    Outcome.err (.invalidSourceRegister insnPtr)
  if insn.dst ≤ 9 ∨ insn.dst = 10 ∧ store = true then
    pure ()
  else if insn.dst = 10 ∧ v.manualStackFrameBump = true ∧ insn.opc = add64Imm then
    pure ()
  else if insn.dst = 10 then
    Outcome.err (.cannotWriteR10 insnPtr)
  else
    Outcome.err (.invalidDestinationRegister insnPtr)

/-- The immediate is a valid shift operand. -/
def checkImmShift (insn : Insn) (insnPtr : Nat) (immBits : U64) : Result Unit :=
  if insn.imm.toInt < 0 ∨ immBits ≤ insn.imm then
    Outcome.err (.shiftWithOverflow insn.imm immBits insnPtr)
  else
    pure ()

/-- `callx` has a valid register number. -/
def checkCallxRegister (insn : Insn) (insnPtr : Nat) (v : SBPFVersion) : Result Unit :=
  let reg : Int :=
    if v.callxUsesSrcReg then insn.src
    else if v.callxUsesDstReg then insn.dst
    else insn.imm.toInt
  if 0 ≤ reg ∧ reg < 10 then pure () else Outcome.err (.invalidRegister insnPtr)

/-! ## Arms -/

/-- What an arm of the verifier checks besides the registers. -/
inductive Check where
  | none
  | loadDw
  | immNonzero
  | immShift (bits : U64)
  | immEndian
  | immAligned (alignment : U64)
  | jmpOffset
  | callxRegister
  deriving DecidableEq, Repr

/-- Makes the check and returns the index of the last slot of the instruction. -/
def Check.run (prog : List UInt8) (v : SBPFVersion) (insnPtr : Nat) (insn : Insn) :
    Check → Result Nat
  | none => return insnPtr
  | loadDw => do
      checkLoadDw prog insnPtr
      return insnPtr + 1
  | immNonzero => do
      checkImmNonzero insn insnPtr
      return insnPtr
  | immShift bits => do
      checkImmShift insn insnPtr bits
      return insnPtr
  | immEndian => do
      checkImmEndian insn insnPtr
      return insnPtr
  | immAligned alignment => do
      checkImmAligned insn insnPtr alignment
      return insnPtr
  | jmpOffset => do
      checkJmpOffset prog insnPtr
      return insnPtr
  | callxRegister => do
      checkCallxRegister insn insnPtr v
      return insnPtr

/-- A guard that depends on the version only. -/
def onVersion (guard : SBPFVersion → Bool) : SBPFVersion → Bool → Bool := fun v _ => guard v

/-- Opcode, guard, check, store.  Besides the version, a guard sees whether the destination is the
frame pointer. -/
abbrev Arm := UInt8 × (SBPFVersion → Bool → Bool) × Check × Bool

/-- An arm for each opcode of a list. -/
def armsFor (opcodes : List UInt8) (guard : SBPFVersion → Bool) (check : Check) (store : Bool) :
    List Arm :=
  opcodes.map fun opc => (opc, onVersion guard, check, store)

/-- Arms that check the offset of a jump. -/
def jmp32Opcodes : List UInt8 := [
  jeq32Imm, jeq32Reg, jgt32Imm, jgt32Reg, jge32Imm, jge32Reg, jlt32Imm, jlt32Reg, jle32Imm,
  jle32Reg, jset32Imm, jset32Reg, jne32Imm, jne32Reg, jsgt32Imm, jsgt32Reg, jsge32Imm, jsge32Reg,
  jslt32Imm, jslt32Reg, jsle32Imm, jsle32Reg]

def jmp64Opcodes : List UInt8 := [
  ja, jeq64Imm, jeq64Reg, jgt64Imm, jgt64Reg, jge64Imm, jge64Reg, jlt64Imm, jlt64Reg, jle64Imm,
  jle64Reg, jset64Imm, jset64Reg, jne64Imm, jne64Reg, jsgt64Imm, jsgt64Reg, jsge64Imm, jsge64Reg,
  jslt64Imm, jslt64Reg, jsle64Imm, jsle64Reg]

/-- The arms before the class BPF_ALU64_STORE. -/
def alu32Arms : List Arm :=
  armsFor [ldDwImm] (!·.disableLddw) .loadDw false ++
  -- BPF_LDX class
  armsFor [ldBReg, ldHReg, ldWReg, ldDwReg] (!·.moveMemoryInstructionClasses) .none false ++
  -- BPF_ST class, BPF_STX class
  armsFor [stBImm, stHImm, stWImm, stDwImm, stBReg, stHReg, stWReg, stDwReg]
    (!·.moveMemoryInstructionClasses) .none true ++
  -- BPF_ALU32_LOAD class
  armsFor [add32Imm, add32Reg, sub32Imm, sub32Reg] always .none false ++
  armsFor [mul32Imm, mul32Reg] (!·.enablePqr) .none false ++
  armsFor [ld1bReg] (·.moveMemoryInstructionClasses) .none false ++
  armsFor [div32Imm] (!·.enablePqr) .immNonzero false ++
  armsFor [div32Reg] (!·.enablePqr) .none false ++
  armsFor [ld2bReg] (·.moveMemoryInstructionClasses) .none false ++
  armsFor [or32Imm, or32Reg, and32Imm, and32Reg] always .none false ++
  armsFor [lsh32Imm] always (.immShift 32) false ++
  armsFor [lsh32Reg] always .none false ++
  armsFor [rsh32Imm] always (.immShift 32) false ++
  armsFor [rsh32Reg] always .none false ++
  armsFor [neg32] (!·.disableNeg) .none false ++
  armsFor [ld4bReg] (·.moveMemoryInstructionClasses) .none false ++
  armsFor [mod32Imm] (!·.enablePqr) .immNonzero false ++
  armsFor [mod32Reg] (!·.enablePqr) .none false ++
  armsFor [ld8bReg] (·.moveMemoryInstructionClasses) .none false ++
  armsFor [xor32Imm, xor32Reg, mov32Imm, mov32Reg] always .none false ++
  armsFor [arsh32Imm] always (.immShift 32) false ++
  armsFor [arsh32Reg] always .none false ++
  armsFor [le] (!·.disableLe) .immEndian false ++
  armsFor [be] always .immEndian false

/-- In the class BPF_ALU64_STORE, the one arm with a guard on the destination. -/
def bumpArm : Arm :=
  (add64Imm, fun v isFramePtr => isFramePtr && v.manualStackFrameBump, .immAligned 64, false)

/-- The arms after it, up to the jumps. -/
def alu64Arms : List Arm :=
  armsFor [add64Imm, add64Reg, sub64Imm, sub64Reg] always .none false ++
  armsFor [mul64Imm] (!·.enablePqr) .none false ++
  armsFor [st1bImm] (·.moveMemoryInstructionClasses) .none true ++
  armsFor [mul64Reg] (!·.enablePqr) .none false ++
  armsFor [st1bReg] (·.moveMemoryInstructionClasses) .none true ++
  armsFor [div64Imm] (!·.enablePqr) .immNonzero false ++
  armsFor [st2bImm] (·.moveMemoryInstructionClasses) .none true ++
  armsFor [div64Reg] (!·.enablePqr) .none false ++
  armsFor [st2bReg] (·.moveMemoryInstructionClasses) .none true ++
  armsFor [or64Imm, or64Reg, and64Imm, and64Reg] always .none false ++
  armsFor [lsh64Imm] always (.immShift 64) false ++
  armsFor [lsh64Reg] always .none false ++
  armsFor [rsh64Imm] always (.immShift 64) false ++
  armsFor [rsh64Reg] always .none false ++
  armsFor [st4bImm] (·.moveMemoryInstructionClasses) .none true ++
  armsFor [neg64] (!·.disableNeg) .none false ++
  armsFor [st4bReg] (·.moveMemoryInstructionClasses) .none true ++
  armsFor [mod64Imm] (!·.enablePqr) .immNonzero false ++
  armsFor [st8bImm] (·.moveMemoryInstructionClasses) .none true ++
  armsFor [mod64Reg] (!·.enablePqr) .none false ++
  armsFor [st8bReg] (·.moveMemoryInstructionClasses) .none true ++
  armsFor [xor64Imm, xor64Reg, mov64Imm, mov64Reg] always .none false ++
  armsFor [arsh64Imm] always (.immShift 64) false ++
  armsFor [arsh64Reg] always .none false ++
  armsFor [hor64Imm] (·.disableLddw) .none false ++
  -- BPF_PQR class
  armsFor [lmul32Imm, lmul32Reg, lmul64Imm, lmul64Reg, uhmul64Imm, uhmul64Reg, shmul64Imm,
    shmul64Reg] (·.enablePqr) .none false ++
  armsFor [udiv32Imm] (·.enablePqr) .immNonzero false ++
  armsFor [udiv32Reg] (·.enablePqr) .none false ++
  armsFor [udiv64Imm] (·.enablePqr) .immNonzero false ++
  armsFor [udiv64Reg] (·.enablePqr) .none false ++
  armsFor [urem32Imm] (·.enablePqr) .immNonzero false ++
  armsFor [urem32Reg] (·.enablePqr) .none false ++
  armsFor [urem64Imm] (·.enablePqr) .immNonzero false ++
  armsFor [urem64Reg] (·.enablePqr) .none false ++
  armsFor [sdiv32Imm] (·.enablePqr) .immNonzero false ++
  armsFor [sdiv32Reg] (·.enablePqr) .none false ++
  armsFor [sdiv64Imm] (·.enablePqr) .immNonzero false ++
  armsFor [sdiv64Reg] (·.enablePqr) .none false ++
  armsFor [srem32Imm] (·.enablePqr) .immNonzero false ++
  armsFor [srem32Reg] (·.enablePqr) .none false ++
  armsFor [srem64Imm] (·.enablePqr) .immNonzero false ++
  armsFor [srem64Reg] (·.enablePqr) .none false ++
  -- BPF_JMP32 class, BPF_JMP64 class
  armsFor jmp32Opcodes (·.enableJmp32) .jmpOffset false ++
  armsFor jmp64Opcodes always .jmpOffset false

def verifierArms : List Arm :=
  alu32Arms ++ [bumpArm] ++ alu64Arms ++
    (armsFor [callImm] always .none false ++ armsFor [callReg] always .callxRegister false ++
      armsFor [exit] always .none false)

def verifierArm (v : SBPFVersion) (opc : UInt8) (isFramePtr : Bool) : Option (Check × Bool) :=
  (verifierArms.find? fun arm => arm.1 == opc && arm.2.1 v isFramePtr).map fun arm => arm.2.2

/-! ## The loop -/

/-- One turn of the loop; returns the index of the last slot of the instruction. -/
def verifyInsn (prog : List UInt8) (v : SBPFVersion) (insnPtr : Nat) : Result Nat := do
  let insn ← getInsn prog insnPtr
  match verifierArm v insn.opc (insn.dst == framePtrReg) with
  | none => Outcome.err (.unknownOpCode insn.opc insnPtr)
  | some (check, store) =>
      let last ← check.run prog v insnPtr insn
      checkRegisters insn store last v
      return last

/-- The loop over the instructions, from `insnPtr` on; returns where it ended.  There is a turn for
each slot at most. -/
def verifyLoop (prog : List UInt8) (v : SBPFVersion) : (turns : Nat) → (insnPtr : Nat) → Result Nat
  | 0, insnPtr => return insnPtr
  | turns + 1, insnPtr =>
      if (insnPtr + 1) * 8 ≤ prog.length then do
        let last ← verifyInsn prog v insnPtr
        verifyLoop prog v turns (last + 1)
      else
        return insnPtr

def verify (prog : List UInt8) (v : SBPFVersion) : Result Unit := do
  checkProgLen prog
  let insnPtr ← verifyLoop prog v (prog.length / 8) 0
  if insnPtr ≠ prog.length / 8 then
    Outcome.err (.jumpOutOfCode (BitVec.ofNat 64 insnPtr) insnPtr)

/-! ## The two tables -/

/-- The check that an operation calls for, and whether it is a store. -/
def Check.suits (check : Check) (store : Bool) : Operation → Bool
  | .lddw => check == .loadDw && !store
  | .store _ _ => store
  | .div32 _ _ rhs | .div64 _ _ rhs => (rhs == .reg || check == .immNonzero) && !store
  | .le | .be => check == .immEndian && !store
  | .jump32 _ _ | .jump64 _ _ | .ja => check == .jmpOffset && !store
  | .callReg => check == .callxRegister && !store
  | _ => !store

/-- An arm of the verifier is the counterpart of an arm of the interpreter. -/
def armsAgree (arm : UInt8 × (SBPFVersion → Bool) × Operation) (arm' : Arm) : Bool :=
  arm.1 == arm'.1 &&
    [SBPFVersion.v0, .v1, .v2, .v3, .v4, .reserved].all (fun v =>
      arm.2.1 v == arm'.2.1 v true && arm.2.1 v == arm'.2.1 v false) &&
    arm'.2.2.1.suits arm'.2.2.2 arm.2.2

theorem armsAgree.guard {arm : UInt8 × (SBPFVersion → Bool) × Operation} {arm' : Arm}
    (h : armsAgree arm arm' = true) (v : SBPFVersion) (opc : UInt8) (isFramePtr : Bool) :
    (arm.1 == opc && arm.2.1 v) = (arm'.1 == opc && arm'.2.1 v isFramePtr) := by
  simp only [armsAgree, Bool.and_eq_true, beq_iff_eq, List.all_eq_true] at h
  obtain ⟨⟨hopc, hguards⟩, -⟩ := h
  have hv : v ∈ [SBPFVersion.v0, .v1, .v2, .v3, .v4, .reserved] := by
    cases v <;> decide
  obtain ⟨htrue, hfalse⟩ := hguards v hv
  rw [hopc]
  cases isFramePtr with
  | true => rw [htrue]
  | false => rw [hfalse]

/-- Searches in two tables with matching entries find matching entries. -/
theorem find?_rel {α β : Type} {R : α → β → Prop} {p : α → Bool} {q : β → Bool}
    (hpq : ∀ a b, R a b → p a = q b) {l : List α} {l' : List β} (h : List.Forall₂ R l l') :
    Option.Rel R (l.find? p) (l'.find? q) := by
  induction h with
  | nil => exact .none
  | @cons a b l l' hab _ ih =>
      rw [List.find?_cons, List.find?_cons, hpq a b hab]
      cases q b with
      | true => exact .some hab
      | false => exact ih

/-- Up to the calls, the two tables have the same arms in the same order. -/
theorem arms_agree : List.Forall₂ (fun arm arm' => armsAgree arm arm' = true) (arms.take 147)
    (alu32Arms ++ alu64Arms) := by
  rw [List.forall₂_iff_zip]
  have hall : ((arms.take 147).zip (alu32Arms ++ alu64Arms)).all
      (fun p => armsAgree p.1 p.2) = true := by
    decide +kernel
  refine ⟨by decide +kernel, ?_⟩
  intro arm arm' hmem
  exact List.all_eq_true.mp hall _ hmem

theorem arms_eq : arms = arms.take 147 ++
    [(callReg, always, .callReg), (callImm, always, .callImm), (exit, always, .exit)] :=
  (List.take_append_drop 147 arms).symm

/-- The verifier knows the opcodes of the interpreter, and makes the check that the operation calls
for. -/
theorem verifierArm_matches_decode {v : SBPFVersion} {opc : UInt8} {isFramePtr : Bool}
    {check : Check} {store : Bool} (h : verifierArm v opc isFramePtr = some (check, store)) :
    ∃ op, decode v opc = some op ∧ check.suits store op = true ∧
      (isFramePtr = true → v.manualStackFrameBump = true → opc = add64Imm →
        check = .immAligned 64) := by
  set P : Arm → Bool := fun arm => arm.1 == opc && arm.2.1 v isFramePtr with hP
  have hrel := find?_rel (p := fun arm => arm.1 == opc && arm.2.1 v) (q := P)
    (fun arm arm' hagree => armsAgree.guard hagree v opc isFramePtr) arms_agree
  have hdecode : decode v opc = (((arms.take 147).find? fun arm => arm.1 == opc && arm.2.1 v).or
      (([(callReg, always, .callReg), (callImm, always, .callImm), (exit, always, .exit)] :
        List (UInt8 × (SBPFVersion → Bool) × Operation)).find? fun arm =>
          arm.1 == opc && arm.2.1 v)).map fun arm => arm.2.2 := by
    rw [decode, ← List.find?_append, ← arms_eq]
  unfold verifierArm verifierArms at h
  rw [List.find?_append, List.find?_append, List.find?_append] at h
  cases hbump : P bumpArm with
  | true =>
      simp only [hP, bumpArm, Bool.and_eq_true, beq_iff_eq] at hbump
      obtain ⟨rfl, rfl, hmanual⟩ := hbump
      have hnone : alu32Arms.find? P = none := by
        have hopc : ∀ arm ∈ alu32Arms, arm.1 ≠ add64Imm := by decide +kernel
        rw [List.find?_eq_none]
        intro arm harm
        simp [hP, hopc arm harm]
      rw [hnone] at h
      simp [bumpArm, hmanual] at h
      obtain ⟨rfl, rfl⟩ := h
      refine ⟨.alu64 .add .imm, ?_, rfl, fun _ _ _ => rfl⟩
      cases v <;> decide +kernel
  | false =>
      have hsingle : [bumpArm].find? P = none := by simp [hbump]
      rw [hsingle, Option.or_none, ← List.find?_append] at h
      have hnot : isFramePtr = true → v.manualStackFrameBump = true → opc = add64Imm →
          check = .immAligned 64 := by
        rintro rfl hmanual rfl
        simp [hP, bumpArm, hmanual] at hbump
      generalize (arms.take 147).find? _ = found at hrel hdecode
      generalize (alu32Arms ++ alu64Arms).find? P = found' at hrel h
      cases hrel with
      | @some arm arm' hagree =>
          simp only [Option.some_or, Option.map_some, Option.some.injEq] at h
          simp only [armsAgree, Bool.and_eq_true] at hagree
          refine ⟨arm.2.2, by simpa using hdecode, ?_, hnot⟩
          have hsuits := hagree.2
          rw [h] at hsuits
          exact hsuits
      | none =>
          -- The opcodes of the calls differ, so that their order does not matter.
          rw [Option.none_or] at h hdecode
          simp only [armsFor, List.map_cons, List.map_nil, List.cons_append, List.nil_append,
            List.find?_cons, List.find?_nil, onVersion, always, Bool.and_true] at h hdecode
          by_cases himm : callImm = opc
          · subst himm
            cases h
            exact ⟨.callImm, hdecode, rfl, hnot⟩
          · by_cases hreg : callReg = opc
            · subst hreg
              cases h
              exact ⟨.callReg, hdecode, rfl, hnot⟩
            · rw [beq_eq_false_iff_ne.mpr himm, beq_eq_false_iff_ne.mpr hreg] at h hdecode
              by_cases hexit : exit = opc
              · subst hexit
                cases h
                exact ⟨.exit, hdecode, rfl, hnot⟩
              · rw [beq_eq_false_iff_ne.mpr hexit] at h
                cases h

end Verifier

end Sbpf
end Gobble
