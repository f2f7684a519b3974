import Gobble.Syscalls.MemOps

/-!
# NonInterference — a run that is not flagged does not depend on the watched bytes

The tracker is a *detector*: its verdict is only worth something if a clean run really made no use
of the watched bytes.  The theorem of this file says so for programs that call the memory syscalls:
two runs that start with memories differing only in bytes behind watched addresses are
indistinguishable for as long as the first one records nothing.

Nothing is assumed about the program.  In particular it need not be accepted by the verifier: what
the verifier excludes shows up as a panic, in both runs alike.
-/

namespace Gobble
namespace Syscalls

open Lib Sbpf

/-- An executable whose loader registers memory syscalls only. -/
structure MemOpExecutable where
  config : Config
  sbpfVersion : SBPFVersion
  program : List UInt8
  programVmAddr : U64
  syscalls : BitVec 32 → Option MemOpSyscall
  functions : BitVec 32 → Option U64

namespace MemOpExecutable

def executable (exe : MemOpExecutable) : Executable SyscallContext :=
  { config := exe.config
    sbpfVersion := exe.sbpfVersion
    program := exe.program
    programVmAddr := exe.programVmAddr
    syscalls := fun key => (exe.syscalls key).map MemOpSyscall.builtin
    functions := exe.functions }

/-- The machine and the memory after `n` turns of the interpreter loop. -/
def runSteps (exe : MemOpExecutable) (n : Nat) (m : Machine SyscallContext) (s : VmMemory) :
    Machine SyscallContext × VmMemory :=
  EffectTree.run memHandler (Machine.runSteps exe.executable n m) s

/-- Two runs of one machine from memories that agree outside `W`, a set of host bytes behind watched
addresses.  If the first run records no forbidden access in its first `n` steps, neither does the
second, both machines (registers, pc, call frames, meters, program result) are equal after `n`
steps, and the memories still agree outside `W`. -/
theorem unflagged_run_ignores_watched_bytes (exe : MemOpExecutable) (n : Nat)
    (m : Machine SyscallContext) (s₁ s₂ : VmMemory) (hmapping : s₁.mapping = s₂.mapping)
    {c : CommonMemoryMapping} (hc : s₁.mapping.common? = some c) {W : Set Nat}
    (hW : c.Confines W) (hhost : ByteMemory.AgreeOutside W s₁.host s₂.host)
    (hquiet : (exe.runSteps n m s₁).2.getForbiddenAccesses = s₁.getForbiddenAccesses) :
    (exe.runSteps n m s₂).2.getForbiddenAccesses = s₂.getForbiddenAccesses ∧
      (exe.runSteps n m s₁).1 = (exe.runSteps n m s₂).1 ∧
      ByteMemory.AgreeOutside W (exe.runSteps n m s₁).2.host (exe.runSteps n m s₂).2.host := by
  have hrel : VmMemory.Related W s₁ s₂ := ⟨hmapping, ⟨c, hc, hW⟩, hhost⟩
  have hcount : (exe.runSteps n m s₁).2.recorded = s₁.recorded := congrArg List.length hquiet
  obtain ⟨hmachine, hrel'⟩ :=
    run_noninterference (Machine.runSteps exe.executable n m) s₁ s₂ hrel hcount
  refine ⟨?_, hmachine, hrel'.agree⟩
  -- The mappings, trackers included, are equal before and after.
  have hafter : (exe.runSteps n m s₁).2.getForbiddenAccesses =
      (exe.runSteps n m s₂).2.getForbiddenAccesses :=
    congrArg MemoryMapping.getForbiddenAccesses hrel'.mapping
  have hbefore : s₁.getForbiddenAccesses = s₂.getForbiddenAccesses :=
    congrArg MemoryMapping.getForbiddenAccesses hmapping
  rw [← hafter, ← hbefore, hquiet]

/-! A program that reads next to the watched bytes of its input. -/

section Instance

/-- `ldxb r2, [r1]`, `ldxdw r3, [r1 + 8]`, `exit`. -/
def readsNearby : MemOpExecutable :=
  { config := {}
    sbpfVersion := .v0
    program := [
      0x71, 0x12, 0, 0, 0, 0, 0, 0,
      0x79, 0x13, 8, 0, 0, 0, 0, 0,
      0x95, 0, 0, 0, 0, 0, 0, 0]
    programVmAddr := mmBytecodeStart
    syscalls := fun _ => none
    functions := fun _ => none }

/-- One input region of 24 bytes whose last eight bytes are watched. -/
def watchedInput : CommonMemoryMapping :=
  { CommonMemoryMapping.new [MemoryRegion.newWritable 0x10000 24 mmInputStart] {} .v0
      defaultAccessViolationHandler with
    accessTracker := MemoryAccessTracker.new.addWatchedRange ⟨0x400000010, 0x400000018⟩ }

def watchedInputMapping : MemoryMapping :=
  .unaligned
    { common := watchedInput
      regionAddresses := [mmInputStart]
      regionIndexLookup := [0]
      cache := MappingCache.new }

theorem one_lt_registers : 1 < 12 := by
  decide

/-- A machine at the first instruction, with the input address in `r1`. -/
def atEntry : Machine SyscallContext :=
  { interpreter :=
      { vm :=
          { callDepth := 0
            contextObject :=
              { computeMeter := 100, checkAligned := true, memOpBaseCost := 10,
                cpiBytesPerUnit := 250 }
            previousInstructionMeter := 100
            dueInsnCount := 0
            registers := Vector.replicate 12 0
            programResult := .ok 0
            callFrames := List.replicate 64 {}
            registerTrace := [] }
        reg := (Vector.replicate 12 0).set 1 mmInputStart one_lt_registers }
    status := .running }

theorem watchedInput_confines : watchedInput.Confines {0x10010, 0x10017} where
  handler := rfl
  tracker := by
    rw [watchedInput, MemoryAccessTracker.addWatchedRange_eq _ MemoryAccessTracker.new_wellFormed]
    exact MemoryAccessTracker.addWatchedRanges_wellFormed MemoryAccessTracker.new_wellFormed _
  fits := by decide
  disjoint := List.pairwise_singleton _ _
  watched := by
    rintro h (rfl | rfl)
    · exact ⟨0x400000010, ⟨_, List.mem_singleton_self _, by decide⟩,
        _, List.mem_singleton_self _, by decide⟩
    · exact ⟨0x400000017, ⟨_, List.mem_singleton_self _, by decide⟩,
        _, List.mem_singleton_self _, by decide⟩

/-- The two runs have different bytes at `0x10010`, and end alike. -/
theorem readsNearby_ignores_watched_bytes :
    (readsNearby.runSteps 3 atEntry ⟨watchedInputMapping, fun _ => 0⟩).1 =
        (readsNearby.runSteps 3 atEntry
          ⟨watchedInputMapping, fun a => if a = 0x10010 then 1 else 0⟩).1 ∧
      (readsNearby.runSteps 3 atEntry ⟨watchedInputMapping, fun _ => 0⟩).1.status = .stopped := by
  refine ⟨?_, by decide +kernel⟩
  refine (unflagged_run_ignores_watched_bytes readsNearby 3 atEntry ⟨watchedInputMapping, fun _ => 0⟩
    ⟨watchedInputMapping, fun a => if a = 0x10010 then 1 else 0⟩ rfl rfl watchedInput_confines ?_
    ?_).2.1
  · intro a ha
    have hne : a ≠ 0x10010 := fun h => ha (Or.inl h)
    simp [hne]
  · decide +kernel

end Instance

end MemOpExecutable

end Syscalls
end Gobble
