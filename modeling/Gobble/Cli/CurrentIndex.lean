import Gobble.Cli.Start

/-!
# CurrentIndex — which instruction a program takes for the current one

A program finds out which instruction is being executed from the last two bytes of the instructions
sysvar.  The runtime writes them whenever an instruction is entered, from a counter that starts at
zero with every new context.  The tool executes one instruction of a transaction in a new context, so
programs are told that they run in instruction 0, whichever instruction the tool was asked to watch.
-/

namespace Gobble
namespace Cli

open Lib Sbpf Sdk Context ProgramRuntime Detector

/-- The contexts in which programs are entered while the tool runs. -/
def enteredContexts (w : World) (host : ByteMemory) (env : Environment) (cli : CliArgs)
    (replies : RpcReplies) : List InvokeContext :=
  match prepare env cli replies with
  | .ok context => programsEntered (processInstruction w ⟨context, host⟩)
  | .error _ => []

section Run

variable {env : Environment} {cli : CliArgs} {replies : RpcReplies} {s : Setup}
  {ix : CompiledInstruction} {context : InvokeContext}

/-- Every program that is entered is shown instruction 0. -/
theorem entered_shows_zero (w : World) (host : ByteMemory)
    (htop : context.transactionContext.topLevelInstructionIndex = 0) :
    ∀ entry ∈ programsEntered (processInstruction w ⟨context, host⟩),
      entry.transactionContext.ShowsIndex 0 := by
  intro entry hentry
  have hduring := programsEntered_during w ⟨context, host⟩ entry hentry
  have hstored := hduring.stored
  unfold TransactionContext.StoresTopLevelIndex at hstored
  rwa [hduring.topLevel, htop] at hstored

/-- The programs that are entered while the tool executes instruction `t` see `t` as the current
instruction if and only if `t` is 0, or there is no instructions sysvar among the accounts, or the
node has sent no account for the program, so that nothing is entered. -/
theorem entered_programs_see_index_iff (w : World) (host : ByteMemory)
    (hsetup : setup env cli replies = .ok s)
    (hix : s.resolved.message.instructions[cli.instructionIndex]? = some ix) :
    (∀ entry ∈ enteredContexts w host env cli replies,
        entry.transactionContext.ShowsIndex cli.instructionIndex) ↔
      cli.instructionIndex = 0 ∨
        instructionsSysvarId ∉
          s.resolved.message.accountKeys.take s.resolved.fetchedAccounts.length ∨
        s.resolved.fetchedAccounts.length ≤ ix.programIdIndex.toNat := by
  obtain ⟨message, ht⟩ := setup_ok hsetup
  have hentered : enteredContexts w host env cli replies =
      programsEntered (processInstruction w
        ⟨firstContext env.flags s.resolved.message ix s.startContext, host⟩) := by
    rw [enteredContexts, prepare_ok hsetup hix]
  rw [hentered]
  have hkeys : (firstContext env.flags s.resolved.message ix
      s.startContext).transactionContext.accounts.accountKeys =
        s.resolved.message.accountKeys.take s.resolved.fetchedAccounts.length := by
    show s.resolved.transactionAccounts.map Prod.fst = _
    rw [ht.accounts, transactionAccounts_keys]
  have hzero : ∀ entry ∈ programsEntered (processInstruction w
      ⟨firstContext env.flags s.resolved.message ix s.startContext, host⟩),
        entry.transactionContext.ShowsIndex 0 := entered_shows_zero w host rfl
  have hlen : s.resolved.transactionAccounts.length =
      min s.resolved.message.accountKeys.length s.resolved.fetchedAccounts.length := by
    rw [ht.accounts, transactionAccounts, List.length_map, List.length_zip]
  have hprogram : ix.programIdIndex.toNat < s.resolved.message.accountKeys.length :=
    (constructInstructionsAccount_ok ht.instructions).programs ix (List.mem_of_getElem? hix)
  constructor
  · intro hshows
    by_contra hnone
    push Not at hnone
    obtain ⟨hne, hmem, hanswered⟩ := hnone
    -- The top-level program is entered, and it is shown instruction 0.
    have hpush := firstContext_push_ok ht ix s.programCache s.forbiddenSysvarOffsets (by omega)
    have hentry := mem_programsEntered (s := ⟨firstContext env.flags s.resolved.message ix
      s.startContext, host⟩) (Prod.ext hpush rfl) w
    have hduring := programsEntered_during w _ _ hentry
    obtain ⟨index, hindex⟩ : ∃ index, TransactionContext.findIndexOfAccount
        (firstContext env.flags s.resolved.message ix s.startContext).push.2.transactionContext
          instructionsSysvarId = some index := by
      rw [← Option.isSome_iff_exists, TransactionContext.findIndexOfAccount, hduring.keys, hkeys,
        List.findIdx?_isSome, List.any_eq_true]
      exact ⟨_, hmem, beq_self_eq_true _⟩
    obtain ⟨account, hborrow, hshown⟩ := hshows _ hentry index hindex
    obtain ⟨account', hborrow', hshown'⟩ := hzero _ hentry index hindex
    rw [hborrow] at hborrow'
    cases hborrow'
    rw [hshown] at hshown'
    exact hne (Option.some.inj hshown')
  · rintro (hfirst | habsent | hunanswered)
    · rw [hfirst]
      exact hzero
    · intro entry hentry index hindex
      have hduring := programsEntered_during w _ entry hentry
      have hfound := findIndexOfAccount_eq_some hindex
      obtain ⟨account, hget⟩ := hfound
      have hmem : instructionsSysvarId ∈ entry.transactionContext.accounts.accountKeys :=
        List.mem_map.mpr ⟨_, List.mem_of_getElem? hget, rfl⟩
      rw [hduring.keys, hkeys] at hmem
      exact (habsent hmem).elim
    · have hmissing : s.resolved.transactionAccounts[ix.programIdIndex.toNat]? = none :=
        List.getElem?_eq_none (by omega)
      have hpush := firstContext_push env.flags s.resolved.message ix
        s.resolved.transactionAccounts s.programCache s.forbiddenSysvarOffsets
      rw [hmissing] at hpush
      rw [programsEntered_rejected hpush]
      simp

end Run

/-! ## Watching the second of two instructions -/

/-- With two instructions that name the sysvar and `--instruction-index 1`, the program of the
second instruction is entered and is not shown instruction 1. -/
theorem second_instruction_sees_another_index :
    ¬ ∀ entry ∈ enteredContexts (worldRunning fun _ => .pure (.ok 0)) (fun _ => 0)
        watchSecondEnvironment watchSecond watchSecondReplies,
      entry.transactionContext.ShowsIndex watchSecond.instructionIndex := by
  decide +kernel

/-- The run with `--instruction-index 1` is one that the equivalence speaks of. -/
theorem entered_programs_see_index_iff_second :
    ∃ s ix, setup watchSecondEnvironment watchSecond watchSecondReplies = .ok s ∧
      s.resolved.message.instructions[watchSecond.instructionIndex]? = some ix ∧
      ((∀ entry ∈ enteredContexts (worldRunning fun _ => .pure (.ok 0)) (fun _ => 0)
          watchSecondEnvironment watchSecond watchSecondReplies,
        entry.transactionContext.ShowsIndex watchSecond.instructionIndex) ↔
        watchSecond.instructionIndex = 0 ∨
          instructionsSysvarId ∉
            s.resolved.message.accountKeys.take s.resolved.fetchedAccounts.length ∨
          s.resolved.fetchedAccounts.length ≤ ix.programIdIndex.toNat) := by
  have hfound : ((setup watchSecondEnvironment watchSecond watchSecondReplies).toOption.bind
      fun s => s.resolved.message.instructions[watchSecond.instructionIndex]?) =
        some ⟨1, [2], [2, 64, 13, 3, 0], by decide⟩ := by
    decide +kernel
  cases hsetup : setup watchSecondEnvironment watchSecond watchSecondReplies with
  | error fault =>
      rw [hsetup] at hfound
      cases hfound
  | ok s =>
      rw [hsetup] at hfound
      exact ⟨s, _, rfl, hfound, entered_programs_see_index_iff _ _ hsetup hfound⟩

end Cli
end Gobble
