import Gobble.Sbpf.StepSpec
import Gobble.Sbpf.Verifier

/-!
# VerifiedPrograms — what the verifier guarantees at run time

The interpreter indexes registers, call frames and the program without checks of its own, and divides
by immediates as they are.  It relies on the verifier for that.  `Accepted` is what the verifier knows
of an instruction; `verify_accepted` says that it knows it of every slot of a program, except of the
second halves of `lddw`, which have an opcode that no version executes.
-/

namespace Gobble
namespace Sbpf

open Lib Ebpf

namespace Verifier

variable {prog : List UInt8} {v : SBPFVersion} {k : Nat} {insn : Insn}

/-- What the verifier has checked of the instruction in slot `k`. -/
structure Accepted (prog : List UInt8) (v : SBPFVersion) (k : Nat) (insn : Insn) (op : Operation) :
    Prop where
  src_le : insn.src ≤ 10
  dst_le : insn.dst ≤ 10
  framePtr : op.writesDst = true → insn.dst = framePtrReg →
    v.manualStackFrameBump = true ∧ op = .alu64 .add .imm ∧ insn.imm &&& 63 = 0
  second_half : op = .lddw → (k + 1) * 8 < prog.length
  divisor : op.dividesByImm = true → insn.imm ≠ 0
  callx : op = .callReg → v.callxUsesSrcReg = false → v.callxUsesDstReg = false →
    0 ≤ insn.imm.toInt ∧ insn.imm.toInt < 10

/-- The slot holds an instruction that has been checked, or the second half of a `lddw`. -/
def SlotAccepted (prog : List UInt8) (v : SBPFVersion) (k : Nat) : Prop :=
  ∃ insn, getInsn prog k = .ok insn ∧
    (insn.opc = 0 ∨ ∃ op, decode v insn.opc = some op ∧ Accepted prog v k insn op)

/-- No version has an operation for the second half of a `lddw`. -/
theorem decode_zero (v : SBPFVersion) : decode v 0 = none := by
  cases v <;> decide +kernel

/-- A guard in front of a check. -/
theorem guard_ok {p : Prop} [Decidable p] {e : VerifierError} {x : Result Unit}
    (h : (if p then (do Outcome.err e; x) else x) = .ok ()) : ¬ p ∧ x = .ok () := by
  by_cases hp : p
  · rw [if_pos hp] at h
    cases h
  · rw [if_neg hp] at h
    exact ⟨hp, h⟩

/-- A check of its own. -/
theorem ite_err_ok {p : Prop} [Decidable p] {e : VerifierError} {x : Result Unit}
    (h : (if p then Outcome.err e else x) = .ok ()) : ¬ p := by
  by_cases hp : p
  · rw [if_pos hp] at h
    cases h
  · exact hp

theorem checkLoadDw_ok (h : checkLoadDw prog k = .ok ()) :
    (k + 1) * 8 < prog.length ∧ ∃ insn, getInsn prog (k + 1) = .ok insn ∧ insn.opc = 0 := by
  obtain ⟨hlast, h⟩ := guard_ok h
  obtain ⟨insn, hinsn, h⟩ := bind_eq_ok h
  exact ⟨Nat.lt_of_not_le hlast, insn, hinsn, not_not.mp (ite_err_ok h)⟩

theorem checkRegisters_ok {store : Bool} {last : Nat}
    (h : checkRegisters insn store last v = .ok ()) :
    insn.src ≤ 10 ∧ (insn.dst ≤ 9 ∨ insn.dst = 10 ∧ (store = true ∨
      v.manualStackFrameBump = true ∧ insn.opc = add64Imm)) := by
  obtain ⟨hsrc, h⟩ := guard_ok h
  refine ⟨Nat.le_of_not_lt hsrc, ?_⟩
  split at h
  case isTrue hdst => exact hdst.imp_right (And.imp_right .inl)
  case isFalse =>
    split at h
    case isTrue hbump => exact .inr ⟨hbump.1, .inr hbump.2⟩
    case isFalse =>
      have hframe := ite_err_ok h
      rw [if_neg hframe] at h
      cases h

/-- Where the check of an arm ends: behind the second half of a `lddw`, or in its own slot. -/
theorem Check.run_last {check : Check} {last : Nat} (h : check.run prog v k insn = .ok last) :
    last = k ∨ last = k + 1 ∧ checkLoadDw prog k = .ok () := by
  cases check with
  | none =>
      cases h
      exact .inl rfl
  | loadDw =>
      obtain ⟨⟨⟩, hcheck, h⟩ := bind_eq_ok h
      cases h
      exact .inr ⟨rfl, hcheck⟩
  | _ =>
      obtain ⟨-, -, h⟩ := bind_eq_ok h
      cases h
      exact .inl rfl

/-- Every check but the first returns after its check. -/
theorem Check.run_loadDw {last : Nat} (h : Check.run prog v k insn .loadDw = .ok last) :
    (k + 1) * 8 < prog.length := by
  obtain ⟨⟨⟩, hcheck, -⟩ := bind_eq_ok h
  exact (checkLoadDw_ok hcheck).1

theorem Check.run_immNonzero {last : Nat} (h : Check.run prog v k insn .immNonzero = .ok last) :
    insn.imm ≠ 0 := by
  obtain ⟨⟨⟩, hcheck, -⟩ := bind_eq_ok h
  exact ite_err_ok hcheck

theorem Check.run_immAligned {last : Nat} {alignment : U64}
    (h : Check.run prog v k insn (.immAligned alignment) = .ok last) :
    insn.imm &&& (alignment - 1) = 0 := by
  obtain ⟨⟨⟩, hcheck, -⟩ := bind_eq_ok h
  unfold checkImmAligned at hcheck
  split at hcheck
  case isTrue himm => exact himm
  case isFalse => cases hcheck

theorem Check.run_callxRegister {last : Nat}
    (h : Check.run prog v k insn .callxRegister = .ok last) (hsrc : v.callxUsesSrcReg = false)
    (hdst : v.callxUsesDstReg = false) : 0 ≤ insn.imm.toInt ∧ insn.imm.toInt < 10 := by
  obtain ⟨⟨⟩, hcheck, -⟩ := bind_eq_ok h
  simp only [checkCallxRegister, hsrc, hdst, Bool.false_eq_true, if_false] at hcheck
  split at hcheck
  case isTrue hreg => exact hreg
  case isFalse => cases hcheck

theorem decode_add64Imm (v : SBPFVersion) : decode v add64Imm = some (.alu64 .add .imm) := by
  cases v <;> decide +kernel

/-- One turn of the loop has checked the instruction at hand, and behind a `lddw` its second half. -/
theorem verifyInsn_accepted {last : Nat} (h : verifyInsn prog v k = .ok last) :
    SlotAccepted prog v k ∧ (last = k ∨ last = k + 1 ∧ SlotAccepted prog v (k + 1)) := by
  obtain ⟨insn, hinsn, h⟩ := bind_eq_ok h
  cases harm : verifierArm v insn.opc (insn.dst == framePtrReg) with
  | none =>
      rw [harm] at h
      cases h
  | some arm =>
      obtain ⟨check, store⟩ := arm
      rw [harm] at h
      obtain ⟨last', hcheck, h⟩ := bind_eq_ok h
      obtain ⟨⟨⟩, hregs, h⟩ := bind_eq_ok h
      cases h
      obtain ⟨op, hop, hsuits, hbump⟩ := verifierArm_matches_decode harm
      obtain ⟨hsrc, hdst⟩ := checkRegisters_ok hregs
      refine ⟨⟨insn, hinsn, .inr ⟨op, hop, ?_⟩⟩, ?_⟩
      · constructor
        case src_le => exact hsrc
        case dst_le => omega
        case framePtr =>
          intro hwrites hframe
          have hstore : store = false := by
            cases op <;> simp_all [Check.suits, Operation.writesDst]
          rw [framePtrReg] at hframe
          have hadd : v.manualStackFrameBump = true ∧ insn.opc = add64Imm := by
            rcases hdst with hle | ⟨-, htrue | hadd⟩
            · omega
            · rw [hstore] at htrue
              cases htrue
            · exact hadd
          have hcheckEq : check = .immAligned 64 :=
            hbump (by simp [hframe, framePtrReg]) hadd.1 hadd.2
          refine ⟨hadd.1, ?_, ?_⟩
          · rw [hadd.2, decode_add64Imm] at hop
            exact (Option.some.inj hop).symm
          · rw [hcheckEq] at hcheck
            exact Check.run_immAligned hcheck
        case second_half =>
          rintro rfl
          simp only [Check.suits, Bool.and_eq_true, beq_iff_eq] at hsuits
          rw [hsuits.1] at hcheck
          exact Check.run_loadDw hcheck
        case divisor =>
          intro hdivides
          have hcheckEq : check = .immNonzero := by
            cases op <;> simp_all [Check.suits, Operation.dividesByImm]
          rw [hcheckEq] at hcheck
          exact Check.run_immNonzero hcheck
        case callx =>
          rintro rfl
          simp only [Check.suits, Bool.and_eq_true, beq_iff_eq] at hsuits
          rw [hsuits.1] at hcheck
          exact Check.run_callxRegister hcheck
      · refine (Check.run_last hcheck).imp_right (And.imp_right fun hload => ?_)
        obtain ⟨-, next, hnext, hzero⟩ := checkLoadDw_ok hload
        exact ⟨next, hnext, .inl hzero⟩

/-- The loop has checked every slot that it has passed. -/
theorem verifyLoop_accepted {turns p q : Nat} (h : verifyLoop prog v turns p = .ok q) :
    ∀ k, p ≤ k → k < q → SlotAccepted prog v k := by
  induction turns generalizing p with
  | zero =>
      cases h
      intro k hp hq
      omega
  | succ turns ih =>
      unfold verifyLoop at h
      split at h
      case isTrue =>
        obtain ⟨last, hinsn, hrest⟩ := bind_eq_ok h
        obtain ⟨hslot, hlast⟩ := verifyInsn_accepted hinsn
        intro k hp hq
        rcases Nat.lt_or_ge last k with hlt | hge
        · exact ih hrest k hlt hq
        · rcases hlast with rfl | ⟨rfl, hnext⟩
          · rw [show k = last by omega]
            exact hslot
          · rcases Nat.lt_or_ge p k with hlt | hle
            · rw [show k = p + 1 by omega]
              exact hnext
            · rw [show k = p by omega]
              exact hslot
      case isFalse =>
        cases h
        intro k hp hq
        omega

theorem verify_accepted (h : verify prog v = .ok ()) : prog.length % 8 = 0 ∧
    ∀ k, (k + 1) * 8 ≤ prog.length → SlotAccepted prog v k := by
  obtain ⟨⟨⟩, hlen, h⟩ := bind_eq_ok h
  obtain ⟨q, hloop, h⟩ := bind_eq_ok h
  have hq : q = prog.length / 8 := not_not.mp (ite_err_ok h)
  refine ⟨not_not.mp (guard_ok hlen).1, fun k hk => ?_⟩
  exact verifyLoop_accepted hloop k (Nat.zero_le k) (by omega)

end Verifier

/-! ## Verified programs at run time -/

namespace Interpreter

open Verifier

variable {C : Type} {exe : Executable C} {i : Interpreter C}

/-- Fetching depends on the pc modulo 2^61 only; it is recorded as it is. -/
theorem getInsnUnchecked_congr {prog : List UInt8} {pc pc' : U64}
    (h : insnSize * pc = insnSize * pc') :
    getInsnUnchecked prog pc =
      (getInsnUnchecked prog pc').map fun insn => { insn with ptr := pc } := by
  unfold getInsnUnchecked
  rw [h]
  split
  · rfl
  · rfl

/-- The slot that the interpreter executes next. -/
def slot (i : Interpreter C) : Nat := (i.pc * insnSize).toNat / 8

theorem slot_eq (i : Interpreter C) : (i.pc * insnSize).toNat = i.slot * 8 ∧
    insnSize * i.pc = insnSize * BitVec.ofNat 64 i.slot := by
  have hmul : (i.pc * insnSize).toNat = i.pc.toNat * 8 % 2 ^ 64 := BitVec.toNat_mul _ _
  have hslot : (i.pc * insnSize).toNat = i.slot * 8 := by
    unfold slot
    omega
  refine ⟨hslot, BitVec.eq_of_toNat_eq ?_⟩
  have hlt := (i.pc * insnSize).isLt
  have hof : (BitVec.ofNat 64 i.slot).toNat = i.slot :=
    BitVec.toNat_ofNat _ _ |>.trans (Nat.mod_eq_of_lt (by omega))
  calc (insnSize * i.pc).toNat
      = i.slot * 8 := by rw [mul_comm, hslot]
    _ = (insnSize * BitVec.ofNat 64 i.slot).toNat := by
        rw [mul_comm insnSize, BitVec.toNat_mul, hof]
        exact (Nat.mod_eq_of_lt (by omega)).symm

/-- The interpreter finds in every slot what the verifier has found there. -/
theorem fetched_accepted (hverify : verify exe.program exe.sbpfVersion = .ok ())
    (hpc : (i.pc * insnSize).toNat < exe.program.length) :
    ∃ insn, getInsnUnchecked exe.program i.pc = some insn ∧ insn.ptr = i.pc ∧
      ∀ op, decode exe.sbpfVersion insn.opc = some op →
        Accepted exe.program exe.sbpfVersion i.slot insn op := by
  obtain ⟨hlen, hslots⟩ := verify_accepted hverify
  obtain ⟨hslot, heq⟩ := slot_eq i
  obtain ⟨insn, hinsn, hcases⟩ := hslots i.slot (by omega)
  rw [getInsn, Outcome.unwrap_eq_ok] at hinsn
  rw [getInsnUnchecked_congr heq, hinsn]
  refine ⟨_, rfl, rfl, fun op hop => ?_⟩
  rcases hcases with hzero | ⟨op', hop', haccepted⟩
  · have hnone : decode exe.sbpfVersion insn.opc = some op := hop
    rw [hzero, decode_zero] at hnone
    cases hnone
  · cases hop'.symm.trans hop
    exact ⟨haccepted.src_le, haccepted.dst_le, haccepted.framePtr, haccepted.second_half,
      haccepted.divisor, haccepted.callx⟩

theorem low_signExtend (w : BitVec 32) : low (w.signExtend 64) = w := by
  apply BitVec.eq_of_getLsbD_eq
  intro j hj
  have h64 : j < 64 := Nat.lt_trans hj (by decide)
  rw [low, BitVec.getLsbD_setWidth, BitVec.getLsbD_signExtend]
  simp [hj, h64]

/-- An immediate that is not zero is not zero in its low half either: it is sign-extended. -/
theorem low_imm_ne_zero {prog : List UInt8} {pc : U64} {insn : Insn}
    (h : getInsnUnchecked prog pc = some insn) (himm : insn.imm ≠ 0) : low insn.imm ≠ 0 := by
  unfold getInsnUnchecked at h
  split at h
  · cases h
    intro hlow
    apply himm
    generalize BitVec.ofNat 32 _ = w at hlow ⊢
    rw [← low_signExtend w, hlow]
    rfl
  · cases h

/-- The second half of a `lddw` is there if a slot follows. -/
theorem augmentLddwUnchecked_ne_none {insn : Insn} (hptr : insn.ptr = i.pc)
    (hpc : (i.slot + 2) * 8 ≤ exe.program.length) :
    augmentLddwUnchecked exe.program insn ≠ none := by
  obtain ⟨hslot, -⟩ := slot_eq i
  have hpos : ((i.pc + 1) * insnSize + 4).toNat ≤ i.slot * 8 + 12 := by
    have heq : (i.pc + (1 : U64)) * insnSize + (4 : U64) = i.pc * insnSize + 12 := by
      rw [add_mul, add_assoc]
      rfl
    rw [heq, BitVec.toNat_add, hslot]
    exact Nat.mod_le _ _
  have hlen : 4 ≤ (exe.program.drop ((i.pc + 1) * insnSize + 4).toNat).length := by
    rw [List.length_drop]
    omega
  unfold augmentLddwUnchecked
  rw [hptr]
  split
  · exact Option.some_ne_none _
  case h_2 hshort =>
    exfalso
    generalize exe.program.drop _ = rest at hlen hshort
    match rest with
    | [] | [_] | [_, _] | [_, _, _] => simp at hlen
    | b₀ :: b₁ :: b₂ :: b₃ :: rest => exact hshort b₀ b₁ b₂ b₃ rest rfl

theorem stepRunnable_of_verify (hverify : verify exe.program exe.sbpfVersion = .ok ())
    (hdepth : i.vm.callDepth.toNat < i.vm.callFrames.length) : StepRunnable exe i := by
  constructor
  case depth_lt => exact hdepth
  case fetch =>
    intro hpc
    obtain ⟨insn, hinsn, -⟩ := fetched_accepted hverify hpc
    rw [hinsn]
    exact Option.some_ne_none insn
  case runnable =>
    rintro insn op ⟨hpc, hinsn, hop⟩
    obtain ⟨insn', hinsn', hptr, haccepted⟩ := fetched_accepted hverify hpc
    cases hinsn.symm.trans hinsn'
    have h := haccepted op hop
    constructor
    case src_lt => exact Nat.lt_of_le_of_lt h.src_le (by decide)
    case dst_lt => exact Nat.lt_of_le_of_lt h.dst_le (by decide)
    case second_half =>
      intro hlddw
      have hsecond := h.second_half hlddw
      have hlen := (verify_accepted hverify).1
      exact augmentLddwUnchecked_ne_none hptr (by omega)
    case divisor =>
      intro hdivides
      exact low_imm_ne_zero hinsn (h.divisor hdivides)
    case callx_lt =>
      intro hcall hsrc hdst
      obtain ⟨hnonneg, hlt⟩ := h.callx hcall hsrc hdst
      rw [BitVec.toInt_eq_toNat_cond] at hnonneg hlt
      split at hlt <;> omega

end Interpreter

end Sbpf
end Gobble
