import Gobble.Cli.Start
import Gobble.Svm.MessageProcessor

/-!
# WholeTransaction — what the verdict says about the other instructions

The tool executes one instruction, in a context where nothing has been executed before.  A validator
processes all instructions of a message one after the other.  The forbidden bytes of an instruction
can be read by any of them, so the verdict is about the whole transaction only if no other
instruction has the instructions sysvar, and nothing was executed before.
-/

namespace Gobble
namespace Cli

open Lib Sbpf Sdk Context ProgramRuntime Detector Svm

/-- The message as a validator processes it.  There is a key at each program index: `setup` panics if
there is none. -/
def SanitizedMessage.toMessage (flags : MessageFlags) (m : SanitizedMessage) : Message where
  instructions := m.instructions.map fun ix =>
    { programId := m.accountKeys.getD ix.programIdIndex.toNat (Vector.replicate 32 0)
      instruction := ix
      programAccountIndex := ix.programIdIndex.toNat }
  isSigner := flags.isSigner m
  isWritable := flags.isWritable m

/-- A program has loaded a forbidden byte. -/
def LoadsForbidden (execution : Execution) : Prop :=
  ∃ vm ∈ execution.finishedVms, vm.finished.forbiddenAccesses ≠ []

/-- The instructions sysvar is one of the accounts of the instruction. -/
def ListsSysvar (m : SanitizedMessage) (ix : CompiledInstruction) : Prop :=
  ∃ index ∈ ix.accounts, m.accountKeys[index.toNat]? = some instructionsSysvarId

/-! ## VMs without the sysvar -/

/-- A tracker that watches nothing records nothing. -/
theorem afterReads_new (reads : List (U64 × U64)) :
    afterReads .new reads = MemoryAccessTracker.new := by
  induction reads with
  | nil => rfl
  | cons read reads ih => exact ih

theorem accesses_of_absent {ranges : List AddrRange} {vm : VmRun} (h : vm.Watched ranges)
    (habsent : ∀ a ∈ vm.instructionContext.instructionAccounts,
      vm.instructionContext.transactionContext.accounts.accountKey a.indexInTransaction ≠
        some instructionsSysvarId) : vm.finished.forbiddenAccesses = [] := by
  obtain ⟨vmRanges, hranges, hcreated⟩ := h.created
  obtain ⟨reads, hfinished⟩ := h.finished
  rw [forbiddenVmRanges_eq_nil (sysvarVmDataAddr_eq_none habsent)] at hranges
  cases hranges
  have hnew : vm.created = .new := hcreated
  rw [hfinished, hnew, afterReads_new]
  rfl

/-- A VM that recorded something has the sysvar in the reach of its instruction. -/
theorem exists_of_accesses {ranges : List AddrRange} {keys : List Pubkey}
    {reach : List IndexOfAccount} {vm : VmRun} (hwatched : vm.Watched ranges)
    (hwithin : vm.Within keys reach) (hne : vm.finished.forbiddenAccesses ≠ []) :
    ∃ index ∈ reach, keys[index]? = some instructionsSysvarId := by
  by_contra hnone
  push Not at hnone
  refine hne (accesses_of_absent hwatched fun a ha hkey => ?_)
  refine hnone a.indexInTransaction (hwithin.accounts (List.mem_map_of_mem ha)) ?_
  rw [← hwithin.keys, TransactionAccounts.accountKeys, List.getElem?_map]
  exact hkey

/-! ## Processing a message -/

/-- What the VMs of one top-level instruction are. -/
structure RunsFor (keys : List Pubkey) (ranges : List AddrRange) (ix : CompiledInstruction)
    (execution : Execution) : Prop where
  within : ∀ vm ∈ execution.finishedVms, vm.Within keys (ix.accounts.map UInt8.toNat)
  watched : ∀ vm ∈ execution.finishedVms, vm.Watched ranges

/-- The next instruction is processed as before, with the same ranges. -/
structure Proceeds (c c' : InvokeContext) : Prop where
  ranges : c'.forbiddenSysvarDataRanges = c.forbiddenSysvarDataRanges
  continues : c.transactionContext.Continues c'.transactionContext

theorem processPrecompile_ranges (p : Precompiles) (programId : Pubkey) (instructionData : List UInt8)
    (instructionDatas : List (List UInt8)) (s : RuntimeState) :
    (processPrecompile p programId instructionData
        instructionDatas s).state.context.forbiddenSysvarDataRanges =
      s.context.forbiddenSysvarDataRanges := by
  have hpush := (InvokeContext.push_progress (c := s.context)).ranges
  unfold processPrecompile
  split
  · rename_i err context hpushed
    rw [hpushed] at hpush
    exact hpush
  · rename_i entered hpushed
    rw [hpushed] at hpush
    exact hpush

theorem processPrecompile_executions (p : Precompiles) (programId : Pubkey)
    (instructionData : List UInt8) (instructionDatas : List (List UInt8)) (s : RuntimeState) :
    (processPrecompile p programId instructionData instructionDatas s).executions = [] := by
  unfold processPrecompile
  split <;> rfl

/-- One instruction: its VMs are as they should be, and so is the state that it leaves. -/
theorem processTopLevel_runsFor (w : World) (p : Precompiles) (message : Message)
    (ix : MessageInstruction) {c context : InvokeContext} {host : ByteMemory} {r : Processed}
    (hsynced : c.transactionContext.Synced)
    (hprepare : c.prepareNextTopLevelInstruction message.isSigner message.isWritable ix.instruction
      ix.programAccountIndex = .ok context)
    (hr : processTopLevel w p message ix ⟨context, host⟩ = .ok r) :
    (∀ execution ∈ r.executions,
      RunsFor c.transactionContext.accounts.accountKeys c.forbiddenSysvarDataRanges ix.instruction
          execution ∧
        ∃ call, processInstruction w ⟨context, host⟩ = .ok call ∧ call.execution = execution) ∧
      (r.result = .ok () → Proceeds c r.state.context) := by
  have hbound : ix.instruction.accounts.length ≤ noIndex := Nat.le_of_lt_succ ix.instruction.bounded
  obtain ⟨accounts, hindices, hprepared⟩ :=
    prepareNextTopLevelInstruction_prepared hbound hprepare
  have hlen : accounts.length = ix.instruction.accounts.length := by
    simpa [indicesOf] using congrArg List.length hindices
  have hranges : context.forbiddenSysvarDataRanges = c.forbiddenSysvarDataRanges := by
    rw [hprepared.rest]
  unfold processTopLevel at hr
  split at hr
  · cases hr
    have hreadies := (prepareNextTopLevelInstruction_readies hsynced hprepare).1
    refine ⟨?_, fun hok => ⟨(processPrecompile_ranges ..).trans hranges,
      (processPrecompile_ok (s := ⟨context, host⟩) p _ _ _ hreadies hok).1.toContinues⟩⟩
    rw [processPrecompile_executions]
    exact fun _ h => absurd h List.not_mem_nil
  · cases hcall : processInstruction w ⟨context, host⟩ with
    | error abort =>
        rw [hcall] at hr
        cases hr
    | ok call =>
        rw [hcall] at hr
        cases hr
        have hprepares := hprepared.within hsynced (hlen.trans_le hbound) (List.Subset.refl _)
        have hwithin := processInstruction_within w (s := ⟨context, host⟩) hprepares
        have hprogress := processInstruction_progress w ⟨context, host⟩
        rw [hcall, hindices] at hwithin
        rw [hcall] at hprogress
        refine ⟨?_, fun hok => ⟨hprogress.ranges.trans hranges, hwithin.continues ?_⟩⟩
        · intro execution hexecution
          cases List.mem_singleton.mp hexecution
          refine ⟨⟨hwithin.vms, ?_⟩, call, rfl, rfl⟩
          rw [← hranges]
          exact hprogress.watched
        · rw [show call.result = .ok () from hok]
          rfl

/-- The execution is one of instruction `k`, and if that is the first one, then it was processed in the
initial state. -/
def ComesFrom (w : World) (message : Message) (instructions : List MessageInstruction)
    (s : RuntimeState) (execution : Execution) : Prop :=
  ∃ (k : Nat) (ix : MessageInstruction), instructions[k]? = some ix ∧
    RunsFor s.context.transactionContext.accounts.accountKeys s.context.forbiddenSysvarDataRanges
      ix.instruction execution ∧
    (k = 0 → ∃ context call, s.context.prepareNextTopLevelInstruction message.isSigner
        message.isWritable ix.instruction ix.programAccountIndex = .ok context ∧
      processInstruction w ⟨context, s.host⟩ = .ok call ∧ call.execution = execution)

/-- The executions of a later instruction, seen from the start. -/
theorem ComesFrom.cons {w : World} {message : Message} {ix : MessageInstruction}
    {rest : List MessageInstruction} {s s' : RuntimeState} {execution : Execution}
    (hproceeds : Proceeds s.context s'.context) (h : ComesFrom w message rest s' execution) :
    ComesFrom w message (ix :: rest) s execution := by
  obtain ⟨k, ix', hix', hruns, -⟩ := h
  rw [hproceeds.continues.keys, hproceeds.ranges] at hruns
  exact ⟨k + 1, ix', hix', hruns, fun hzero => absurd hzero (Nat.succ_ne_zero k)⟩

/-- All of them, by induction on the instructions that are left. -/
theorem processInstructions_comesFrom (w : World) (p : Precompiles) (message : Message)
    (position : Nat) (instructions : List MessageInstruction) {s : RuntimeState}
    (hsynced : s.context.transactionContext.Synced) {execution : Execution}
    (hmem : execution ∈ executionsOf (processInstructions w p message position instructions s)) :
    ComesFrom w message instructions s execution := by
  induction instructions generalizing position s with
  | nil => cases hmem
  | cons ix rest ih =>
      unfold processInstructions at hmem
      split at hmem
      · cases hmem
      · rename_i context hprepare
        have hhere : ∀ r : Processed, processTopLevel w p message ix ⟨context, s.host⟩ = .ok r →
            execution ∈ r.executions → ComesFrom w message (ix :: rest) s execution := by
          intro r hr hexecution
          obtain ⟨hruns, call, hcall⟩ :=
            (processTopLevel_runsFor w p message ix hsynced hprepare hr).1 execution hexecution
          exact ⟨0, ix, rfl, hruns, fun _ => ⟨context, call, hprepare, hcall⟩⟩
        split at hmem
        · cases hmem
        · rename_i hr
          exact hhere _ hr hmem
        · rename_i executions precompiles s' hr
          have hproceeds := (processTopLevel_runsFor w p message ix hsynced hprepare hr).2 rfl
          have hlater :
              execution ∈ executionsOf (processInstructions w p message (position + 1) rest s') →
                ComesFrom w message (ix :: rest) s execution := fun h =>
            (ih (position + 1) (hproceeds.continues.synced hsynced) h).cons hproceeds
          split at hmem
          all_goals
            rename_i hrest
            rw [hrest] at hlater
            rcases List.mem_append.mp hmem with hfirst | hafter
            · exact hhere _ hr hfirst
            · exact hlater hafter

/-! ## The verdict -/

/-- The program loads the byte at an address. -/
def loadsByte (vmAddr : U64) : U64 → VmCode := fun _ =>
  .perform (.basic (.access defaultAccessViolationHandler (.load .u8 vmAddr)))
    fun _ => .pure (.ok 0)

/-- Neither of the two programs is a precompile. -/
def noPrecompiles : Precompiles := ⟨fun _ => false, fun _ _ _ => .ok ()⟩

/-- Some instructions with a payer, the program, the compute budget program and the sysvar. -/
def messageOf (instructions : List CompiledInstruction) : LegacyMessage :=
  { header := ⟨1, 0, 3⟩
    accountKeys := [Vector.replicate 32 7, Vector.replicate 32 9, computeBudgetProgramId,
      instructionsSysvarId]
    instructions }

def programReplies : RpcReplies :=
  repliesOf [.null, accountJson "BPFLoader2111111111111111111111111111111111" true "AA==",
    accountJson "NativeLoader1111111111111111111111111111111" true "", .null]

def programThenLimit : LegacyMessage :=
  messageOf [⟨1, [3], [2, 64, 13, 3, 0], by decide⟩, ⟨2, [], [2, 64, 13, 3, 0], length_nil_bounded⟩]

def watchProgram : CliArgs where
  transaction :=
    "137WWcAi7pJzHBS3XcGkZqt7GFWKt9QAHTAXUvgKtC3cxM32RkW7pF3oGcC8upMkzSrzi2dggfoFdUsgfKJuJnyeD1ik" ++
    "kfU2treiZVUB7pgpCm2ToDsn21EF2TRLWYbo5RrhqqNSqcHamYkK66pGYmRQ7qfn86RLYuZTqTBZRMYxZSc2mqkvFst1" ++
    "3P1HzQmzhfGxZXAUPGXiC2LctZPLsv5Ntw38FdpRCcU2bP7Gt5GDBvTv9zdyxP46K"
  instructionIndex := 0
  forbiddenRanges := "0-4"

def watchProgramEnvironment : Environment :=
  environmentOf watchProgram.transaction programThenLimit fun _ => some 0

def limitThenProgram : LegacyMessage :=
  messageOf [⟨2, [], [2, 64, 13, 3, 0], length_nil_bounded⟩, ⟨1, [3], [], by decide⟩]

def watchLimit : CliArgs where
  transaction :=
    "15F1vwvwD6QmSSNkqmDUqZcBQCu78Ks5Z3BwpCRyNwbYwT35WnEjQkDyBVp9W6tNbA6cdP51D1heS6w6p9NEQf3nQiGc" ++
    "paAX7kXuYWmAYU2SFK7UXe8Q2oDFr9pwPST4Wmo8KcwJRw3VT93NEe9pbnGHKLFsv9FGv9M8xEPA5sAJ6HZygPFGSu8r" ++
    "92cmfihNHnw6x8ySJXf6swYmTosHXhkQproJQtr5YgsXiopexPAtnfsnPZ"
  instructionIndex := 0
  forbiddenRanges := "0-4"

def watchLimitEnvironment : Environment :=
  environmentOf watchLimit.transaction limitThenProgram fun _ => some 0

end Cli
end Gobble
