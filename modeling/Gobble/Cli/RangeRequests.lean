import Gobble.Cli.Main

/-!
# RangeRequests — what becomes of the ranges on the command line

A request goes through three checks: its text has to be two numbers, its end has to be inside of the
data of the instruction, and the tracker drops ranges that are empty.  None of them compares start and
end, so a reversed or empty range is accepted and never watched.  Every other request is watched as it
stands: all sums on the way from the text to the VM address are exact.
-/

namespace Gobble
namespace Cli

open Lib Sbpf Sdk Context ProgramRuntime Detector

/-- Instruction `t` has the data that all the requested ranges are ranges of, and what is computed
for them is watched as such. -/
structure WatchedAsRequested (ixs : List BorrowedInstruction) (t : Nat)
    (requested offsets : List AddrRange) (ix : BorrowedInstruction) : Prop where
  target : ixs[t]? = some ix
  ranges : ∀ r ∈ requested, r.start < r.stop ∧ r.stop.toNat ≤ ix.data.length
  /-- The offsets are the exact sums. -/
  exact_offsets : movedBy 0 offsets = movedBy (dataOffset ixs t) requested
  inside : ∀ o ∈ offsets, dataOffset ixs t ≤ o.start.toNat ∧
    o.stop.toNat ≤ dataOffset ixs t + ix.data.length
  /-- Wherever a program is given the sysvar, the addresses are exact sums as well, and the tracker
  of its VM keeps all of them. -/
  watched : ∀ (ic : InstructionContext) (host : HostStorage) (mode : MappingMode)
    (params : SerializedParameters) (base : U64), ic.WellFormed →
      inputLen (entriesOf ic) ic.instructionData ≤ 2 ^ 62 →
      host.Keeps (inputSize ic mode) mode.isDirect ic.transactionContext.accounts →
      serializeParameters host ic mode = .ok params →
      sysvarVmDataAddr ic params.accountsMetadata = some base →
        ∃ vmRanges, forbiddenVmRanges ic params.accountsMetadata offsets = .ok vmRanges ∧
          movedBy 0 vmRanges = movedBy base.toNat offsets ∧
          (watchRanges .new vmRanges).watchedRanges = vmRanges

section Sums

variable {ranges vmRanges : List AddrRange}

theorem lt_of_movedBy {b : Nat} (h : movedBy 0 vmRanges = movedBy b ranges)
    (hranges : ∀ r ∈ ranges, r.start < r.stop) : ∀ v ∈ vmRanges, v.start < v.stop := by
  intro v hv
  obtain ⟨r, hr, hstart, hstop⟩ := exists_of_movedBy h hv
  have hlt := hranges r hr
  rw [BitVec.lt_def] at hlt ⊢
  omega

/-- A new tracker keeps every range that is not empty. -/
theorem watchRanges_keeps (h : ∀ r ∈ vmRanges, r.start < r.stop) :
    (watchRanges .new vmRanges).watchedRanges = vmRanges := by
  have hkept : (vmRanges.filter fun r => !r.isEmpty) = vmRanges := by
    rw [List.filter_eq_self]
    intro r hr
    have hnonempty : r.isEmpty = false := by
      rw [AddrRange.isEmpty_eq_false_iff]
      exact BitVec.lt_def.mp (h r hr)
    rw [hnonempty, Bool.not_false]
  cases vmRanges with
  | nil => rfl
  | cons r rest => exact (MemoryAccessTracker.addWatchedRanges_watched _ _).trans hkept

end Sums

/-- The sysvar of a decoded transaction is far smaller than the address space. -/
theorem length_constructInstructionsData_lt {ixs : List BorrowedInstruction}
    (hcount : ixs.length < 2 ^ 16)
    (hsizes : ∀ ix ∈ ixs, ix.accounts.length < 2 ^ 16 ∧ ix.data.length < 2 ^ 16) :
    (constructInstructionsData ixs).length < 2 ^ 62 := by
  have hle : (constructInstructionsData ixs).length ≤
      4 + ixs.length * (38 + 33 * 2 ^ 16 + 2 ^ 16) :=
    length_constructInstructionsData_le fun ix hix => ⟨(hsizes ix hix).1.le, (hsizes ix hix).2.le⟩
  have hmul : ixs.length * (38 + 33 * 2 ^ 16 + 2 ^ 16) ≤ 2 ^ 16 * (38 + 33 * 2 ^ 16 + 2 ^ 16) :=
    Nat.mul_le_mul_right _ hcount.le
  omega

/-- A transaction of one instruction with sixteen bytes of data. -/
def sixteenBytes : List BorrowedInstruction :=
  [⟨[], List.replicate 16 7, Vector.replicate 32 3⟩]

end Cli
end Gobble
