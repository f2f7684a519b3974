import Gobble.ProgramRuntime.Privileges

/-!
# MessageProcessor — all instructions of a message

Model of `process_message` in `svm/src/message_processor.rs`, and of the two ways in which it processes
an instruction.  Precompiles are checked by a callback that does not see the accounts.

The results are the accounting rules of a transaction in a guarded world: no lamports are created or
lost, what the message does not declare writable is not written, and what a program owns is its own.
-/

namespace Gobble
namespace Svm

open Lib Sbpf Sdk Context ProgramRuntime

/-- An instruction of a message, with the key and the position of its program. -/
structure MessageInstruction where
  programId : Pubkey
  instruction : CompiledInstruction
  programAccountIndex : IndexOfAccount

structure Message where
  instructions : List MessageInstruction
  isSigner : Nat → Bool
  isWritable : Nat → Bool

/-- The callbacks `is_precompile` and `process_precompile`. -/
structure Precompiles where
  isPrecompile : Pubkey → Bool
  processPrecompile : Pubkey → List UInt8 → List (List UInt8) → Except InstructionError Unit

inductive TransactionError where
  | instructionError (index : Nat) (err : InstructionError)
  deriving DecidableEq

/-- What processing an instruction leaves behind.  A precompile is not an execution; `precompiles` are
the contexts in which one was entered. -/
structure Processed where
  result : Except InstructionError Unit
  executions : List Execution
  precompiles : List InvokeContext
  state : RuntimeState

structure MessageOutcome where
  result : Except TransactionError Unit
  executions : List Execution
  precompiles : List InvokeContext
  state : RuntimeState

/-- A message that does not come to its end: what was processed before, and how the next instruction
was aborted. -/
structure MessageAbort where
  executions : List Execution
  precompiles : List InvokeContext
  abort : Abort

/-- Processes a precompile instruction. -/
def processPrecompile (p : Precompiles) (programId : Pubkey) (instructionData : List UInt8)
    (instructionDatas : List (List UInt8)) (s : RuntimeState) : Processed :=
  match s.context.push with
  | (.error err, context) => ⟨.error err, [], [], ⟨context, s.host⟩⟩
  | (.ok _, entered) =>
      -- The arguments of `and` are evaluated first: the frame is popped also if the callback
      -- fails.
      let (popped, context) := entered.pop
      ⟨andThen (p.processPrecompile programId instructionData instructionDatas) popped, [], [entered],
        ⟨context, s.host⟩⟩

def processTopLevel (w : World) (p : Precompiles) (message : Message) (ix : MessageInstruction)
    (s : RuntimeState) : Except Abort Processed :=
  if p.isPrecompile ix.programId then
    .ok (processPrecompile p ix.programId ix.instruction.data
      (message.instructions.map fun ix => ix.instruction.data) s)
  else
    match processInstruction w s with
    | .error abort => .error abort
    | .ok call => .ok ⟨call.result, [call.execution], [], call.state⟩

/-- The loop of `process_message`, from the given position on. -/
def processInstructions (w : World) (p : Precompiles) (message : Message) :
    Nat → List MessageInstruction → RuntimeState → Except MessageAbort MessageOutcome
  | _, [], s => .ok ⟨.ok (), [], [], s⟩
  | topLevelInstructionIndex, ix :: rest, s =>
      match s.context.prepareNextTopLevelInstruction message.isSigner message.isWritable
          ix.instruction ix.programAccountIndex with
      | .error err =>
          -- The error names the position of the instruction, cast to `u8`.
          .ok ⟨.error (.instructionError (topLevelInstructionIndex % 2 ^ 8) err), [], [], s⟩
      | .ok context =>
          match processTopLevel w p message ix ⟨context, s.host⟩ with
          | .error abort => .error ⟨[], [], abort⟩
          | .ok ⟨.error err, executions, precompiles, s⟩ =>
              .ok ⟨.error (.instructionError (topLevelInstructionIndex % 2 ^ 8) err), executions,
                precompiles, s⟩
          | .ok ⟨.ok _, executions, precompiles, s⟩ =>
              match processInstructions w p message (topLevelInstructionIndex + 1) rest s with
              | .error stopped => .error
                  { stopped with
                    executions := executions ++ stopped.executions
                    precompiles := precompiles ++ stopped.precompiles }
              | .ok outcome => .ok
                  { outcome with
                    executions := executions ++ outcome.executions
                    precompiles := precompiles ++ outcome.precompiles }

/-- Process a message: call each instruction in the message over the set of loaded accounts. -/
def processMessage (w : World) (p : Precompiles) (message : Message) (s : RuntimeState) :
    Except MessageAbort MessageOutcome :=
  processInstructions w p message 0 message.instructions s

/-- The executions of the instructions that have returned. -/
def executionsOf : Except MessageAbort MessageOutcome → List Execution
  | .ok outcome => outcome.executions
  | .error stopped => stopped.executions

/-- The contexts in which instructions were entered, at any depth and however the message ended. -/
def instructionsEntered : Except MessageAbort MessageOutcome → List InvokeContext
  | .ok outcome => Execution.entriesOfCalls outcome.executions ++ outcome.precompiles
  | .error stopped =>
      Execution.entriesOfCalls stopped.executions ++ stopped.precompiles ++ stopped.abort.entries

/-! ## One instruction -/

/-- The accounts of a top-level instruction have the flags of the message. -/
theorem foldl_addTopLevel_accounts (isSigner isWritable : Nat → Bool) (indices : List UInt8)
    (callee : CalleeAccounts) :
    (indices.foldl (CalleeAccounts.addTopLevel isSigner isWritable) callee).accounts =
      callee.accounts ++ indices.map fun index =>
        ⟨index.toNat, isSigner index.toNat, isWritable index.toNat⟩ := by
  induction indices generalizing callee with
  | nil => simp
  | cons index rest ih =>
      rw [List.foldl_cons, ih]
      simp [CalleeAccounts.addTopLevel]

/-- A top-level instruction that has been prepared. -/
theorem prepareNextTopLevelInstruction_readies {c c' : InvokeContext} {isSigner isWritable : Nat → Bool}
    {instruction : CompiledInstruction} {programIndex : IndexOfAccount}
    (hsynced : c.transactionContext.Synced)
    (h : c.prepareNextTopLevelInstruction isSigner isWritable instruction programIndex = .ok c') :
    c.transactionContext.Readies (instruction.accounts.map UInt8.toNat) c'.transactionContext ∧
      OffersWithin (fun index => isWritable index = true) c'.transactionContext ∧
      c'.transactionContext.accounts = c.transactionContext.accounts := by
  have hlen : instruction.accounts.length ≤ noIndex := Nat.le_of_lt_succ instruction.bounded
  obtain ⟨accounts, hindices, hprepared⟩ := prepareNextTopLevelInstruction_prepared hlen h
  have hcount : accounts.length = instruction.accounts.length := by
    simpa [indicesOf] using congrArg List.length hindices
  refine ⟨hprepared.readies hsynced (hcount ▸ hlen) (hindices ▸ List.Subset.refl _), ?_⟩
  -- Every account that was configured has the flags of the message at its own position.
  obtain ⟨tx, hconfigured, h⟩ := bind_eq_ok h
  cases h
  obtain ⟨last, -, rfl⟩ := TransactionContext.configureNextInstruction_ok hconfigured
  refine ⟨fun accounts hlast account haccount hwritable => ?_, rfl⟩
  rw [List.getLast?_concat, Option.some.injEq, foldl_addTopLevel_accounts, List.nil_append] at hlast
  rw [← hlast] at haccount
  obtain ⟨index, -, rfl⟩ := List.mem_map.mp haccount
  exact hwritable

/-- What the instructions of a message do to the accounts `t`. -/
structure Processed.Kept (A : Authority → Prop)
    (R : TransactionAccounts → TransactionAccounts → Prop) (tx : TransactionContext)
    (t : TransactionAccounts) (r : Processed) : Prop where
  resumes : r.result = .ok () → tx.Resumes r.state.context.transactionContext
  balanced : r.result = .ok () → r.state.context.transactionContext.accounts.lamportsDelta = 0
  keeps : Execution.Under A (Execution.entriesOfCalls r.executions) →
    R t r.state.context.transactionContext.accounts

section Processing

variable {A : Authority → Prop} {R : TransactionAccounts → TransactionAccounts → Prop}
  {reach : List IndexOfAccount} {tx : TransactionContext} {s : RuntimeState}

/-- A precompile that does not fail was entered and left again. -/
theorem processPrecompile_ok (p : Precompiles) (programId : Pubkey) (instructionData : List UInt8)
    (instructionDatas : List (List UInt8)) (hreadies : tx.Readies reach s.context.transactionContext)
    (hok : (processPrecompile p programId instructionData instructionDatas s).result = .ok ()) :
    tx.Resumes (processPrecompile p programId instructionData
        instructionDatas s).state.context.transactionContext ∧
      (processPrecompile p programId instructionData
        instructionDatas s).state.context.transactionContext.accounts.lamportsDelta = 0 := by
  unfold processPrecompile at hok ⊢
  split at hok
  · -- `push` has failed, and its error is the result.
    cases hok
  · rename_i context hpush
    obtain ⟨hentered, htx⟩ := push_ok_transactionContext hpush
    have hleave := (hreadies.push hentered).2 (.refl _)
    rw [← htx] at hleave
    -- Both the callback and `pop` have succeeded, and `pop` checks the balance.
    have hpopped : context.transactionContext.pop.1 = .ok () := by
      have hboth : andThen (p.processPrecompile programId instructionData instructionDatas)
          context.pop.1 = .ok () := hok
      cases hresult : p.processPrecompile programId instructionData instructionDatas with
      | ok _ =>
          rw [hresult] at hboth
          exact hboth
      | error err =>
          rw [hresult] at hboth
          cases hboth
    refine ⟨hleave, ?_⟩
    show context.transactionContext.pop.2.accounts.lamportsDelta = 0
    rw [TransactionContext.pop_accounts]
    exact TransactionContext.balanced_of_pop_ok hpopped

theorem processPrecompile_keeps (h : Keeps A R) (p : Precompiles) (programId : Pubkey)
    (instructionData : List UInt8) (instructionDatas : List (List UInt8)) (s : RuntimeState) :
    R s.context.transactionContext.accounts (processPrecompile p programId instructionData
      instructionDatas s).state.context.transactionContext.accounts := by
  have hkeeps := push_keeps h s.context
  unfold processPrecompile
  split
  · rename_i err context hpush
    rw [hpush] at hkeeps
    exact hkeeps
  · rename_i context hpush
    rw [hpush] at hkeeps
    show R _ context.transactionContext.pop.2.accounts
    rw [TransactionContext.pop_accounts]
    exact hkeeps

/-- A precompile is entered with what it was offered. -/
theorem processPrecompile_attenuates {W : IndexOfAccount → Prop} (p : Precompiles)
    (programId : Pubkey) (instructionData : List UInt8) (instructionDatas : List (List UInt8))
    (hreadies : tx.Readies reach s.context.transactionContext)
    (hoffered : OffersWithin W s.context.transactionContext) :
    Execution.Under (WritesWithin W) (Execution.entriesOfCalls (processPrecompile p programId
        instructionData instructionDatas s).executions ++
      (processPrecompile p programId instructionData instructionDatas s).precompiles) := by
  unfold processPrecompile
  split
  · exact fun _ h => absurd h List.not_mem_nil
  · rename_i context hpush
    exact List.forall_mem_singleton.mpr (push_writesWithin hreadies hoffered hpush)

theorem processTopLevel_kept (h : Keeps A R) (w : GuardedWorld) (p : Precompiles) (message : Message)
    (ix : MessageInstruction) (hreadies : tx.Readies reach s.context.transactionContext) :
    Ends (·.Kept A R tx s.context.transactionContext.accounts) (fun _ => True)
      (processTopLevel w.world p message ix s) := by
  unfold processTopLevel
  split
  · exact ⟨fun hok => (processPrecompile_ok p _ _ _ hreadies hok).1,
      fun hok => (processPrecompile_ok p _ _ _ hreadies hok).2,
      fun _ => processPrecompile_keeps h p _ _ _ s⟩
  · have hkeeps := processInstruction_keeps h w hreadies
    have hbalanced := processInstruction_balanced w.world s
    cases hcall : processInstruction w.world s with
    | error abort => trivial
    | ok call =>
        rw [hcall] at hkeeps hbalanced
        -- What was executed is the one tree of calls of this instruction.
        refine ⟨hkeeps.resumes, hbalanced, fun hunder => hkeeps.keeps ?_⟩
        rwa [Execution.entriesOfCalls_singleton] at hunder

/-- Whatever the programs do, they write what was offered to the first of them. -/
theorem processTopLevel_attenuates {W : IndexOfAccount → Prop} (w : World) (p : Precompiles)
    (message : Message) (ix : MessageInstruction)
    (hreadies : tx.Readies reach s.context.transactionContext)
    (hoffered : OffersWithin W s.context.transactionContext) :
    Ends (fun r => Execution.Under (WritesWithin W)
          (Execution.entriesOfCalls r.executions ++ r.precompiles) ∧
        (r.result = .ok () → tx.Resumes r.state.context.transactionContext))
      (·.WritesWithin W) (processTopLevel w p message ix s) := by
  unfold processTopLevel
  split
  · exact ⟨processPrecompile_attenuates p _ _ _ hreadies hoffered,
      fun hok => (processPrecompile_ok p _ _ _ hreadies hok).1⟩
  · have hwrites := processInstruction_attenuates w hreadies hoffered
    cases hcall : processInstruction w s with
    | error abort =>
        rw [hcall] at hwrites
        exact hwrites
    | ok call =>
        rw [hcall] at hwrites
        refine ⟨?_, fun hok => hwrites.resumes ?_⟩
        · show Execution.Under _ (Execution.entriesOfCalls [call.execution] ++ [])
          rw [Execution.entriesOfCalls_singleton, List.append_nil]
          exact hwrites.entries
        · rw [show call.result = .ok () from hok]
          rfl

end Processing

/-! ## The loop -/

/-- What a message does to the accounts `t`. -/
structure MessageOutcome.Kept (A : Authority → Prop)
    (R : TransactionAccounts → TransactionAccounts → Prop) (t : TransactionAccounts)
    (outcome : MessageOutcome) : Prop where
  balanced : t.lamportsDelta = 0 → outcome.result = .ok () →
    outcome.state.context.transactionContext.accounts.lamportsDelta = 0
  keeps : Execution.Under A (Execution.entriesOfCalls outcome.executions) →
    R t outcome.state.context.transactionContext.accounts

section Loop

variable {A : Authority → Prop} {R : TransactionAccounts → TransactionAccounts → Prop}

/-- The induction is on the instructions that are left. -/
theorem processInstructions_kept (h : Keeps A R) (w : GuardedWorld) (p : Precompiles)
    (message : Message) (position : Nat) (instructions : List MessageInstruction) {s : RuntimeState}
    (hsynced : s.context.transactionContext.Synced) :
    Ends (·.Kept A R s.context.transactionContext.accounts) (fun _ => True)
      (processInstructions w.world p message position instructions s) := by
  induction instructions generalizing position s with
  | nil => exact ⟨fun hbalanced _ => hbalanced, fun _ => h.refl _⟩
  | cons ix rest ih =>
      unfold processInstructions
      split
      · -- Preparing the instruction has failed before anything was entered.
        exact ⟨fun _ hok => (by cases hok), fun _ => h.refl _⟩
      · rename_i context hprepare
        obtain ⟨hreadies, -, haccounts⟩ := prepareNextTopLevelInstruction_readies hsynced hprepare
        have hkept := processTopLevel_kept (s := ⟨context, s.host⟩) h w p message ix hreadies
        have hsame : (RuntimeState.mk context s.host).context.transactionContext.accounts =
            s.context.transactionContext.accounts := haccounts
        rw [hsame] at hkept
        split
        · trivial
        · -- The instruction has failed and the loop ends, with what it has done to the accounts.
          rename_i err executions precompiles s' hprocessed
          rw [hprocessed] at hkept
          exact ⟨fun _ hok => (by cases hok), hkept.keeps⟩
        · rename_i executions precompiles s' hprocessed
          rw [hprocessed] at hkept
          -- The stack is as it was before the instruction, which is what the next one has to be
          -- prepared on.
          have hrest := ih (position + 1) ((hkept.resumes rfl).synced hsynced)
          split
          · trivial
          · rename_i outcome houtcome
            rw [houtcome] at hrest
            refine ⟨fun _ => hrest.balanced (hkept.balanced rfl), fun hunder => ?_⟩
            have hunder' : Execution.Under A (Execution.entriesOfCalls executions ++
                Execution.entriesOfCalls outcome.executions) := by
              rw [← Execution.entriesOfCalls_append]
              exact hunder
            obtain ⟨hfirst, hlater⟩ := Execution.under_append.mp hunder'
            exact h.trans (hkept.keeps hfirst) (hrest.keeps hlater)

/-- The same induction. -/
theorem processInstructions_attenuates (w : World) (p : Precompiles) (message : Message)
    (position : Nat) (instructions : List MessageInstruction) {s : RuntimeState}
    (hsynced : s.context.transactionContext.Synced) :
    Execution.Under (WritesWithin fun index => message.isWritable index = true)
      (instructionsEntered (processInstructions w p message position instructions s)) := by
  have hnone : Execution.Under (WritesWithin fun index => message.isWritable index = true) [] :=
    fun _ h => absurd h List.not_mem_nil
  induction instructions generalizing position s with
  | nil => exact hnone
  | cons ix rest ih =>
      unfold processInstructions
      split
      · exact hnone
      · rename_i context hprepare
        obtain ⟨hreadies, hoffers, -⟩ := prepareNextTopLevelInstruction_readies hsynced hprepare
        have hwrites := processTopLevel_attenuates (s := ⟨context, s.host⟩) w p message ix hreadies
          hoffers
        split
        · -- An instruction that aborts tells which instructions it had entered until then.
          rename_i abort hprocessed
          rw [hprocessed] at hwrites
          exact hwrites
        · rename_i err executions precompiles s' hprocessed
          rw [hprocessed] at hwrites
          exact hwrites.1
        · rename_i executions precompiles s' hprocessed
          rw [hprocessed] at hwrites
          have hrest := ih (position + 1) ((hwrites.2 rfl).synced hsynced)
          obtain ⟨hprograms, hprecompiles⟩ := Execution.under_append.mp hwrites.1
          split
          · -- A later instruction aborts: what this one has entered comes before that.
            rename_i stopped hstopped
            rw [hstopped] at hrest
            obtain ⟨hlater, habort⟩ := Execution.under_append.mp hrest
            obtain ⟨hprograms', hprecompiles'⟩ := Execution.under_append.mp hlater
            show Execution.Under _ (Execution.entriesOfCalls (executions ++ stopped.executions) ++
              (precompiles ++ stopped.precompiles) ++ stopped.abort.entries)
            rw [Execution.entriesOfCalls_append]
            simp only [Execution.under_append]
            exact ⟨⟨⟨hprograms, hprograms'⟩, hprecompiles, hprecompiles'⟩, habort⟩
          · rename_i outcome houtcome
            rw [houtcome] at hrest
            obtain ⟨hprograms', hprecompiles'⟩ := Execution.under_append.mp hrest
            show Execution.Under _ (Execution.entriesOfCalls (executions ++ outcome.executions) ++
              (precompiles ++ outcome.precompiles))
            rw [Execution.entriesOfCalls_append]
            simp only [Execution.under_append]
            exact ⟨⟨hprograms, hprograms'⟩, hprecompiles, hprecompiles'⟩

end Loop

/-! ## A message to a program that pays out -/

section Instance

def payingProgram : Pubkey := Vector.replicate 32 9
def collectingProgram : Pubkey := Vector.replicate 32 8
def checkingPrecompile : Pubkey := Vector.replicate 32 7

theorem length_collects_bounded : [AccountMeta.mk (Vector.replicate 32 4) false true,
    AccountMeta.mk (Vector.replicate 32 2) false true].length ≤ maxAccountsPerInstruction := by
  decide

def collects : CheckedInstruction :=
  ⟨⟨collectingProgram, [⟨Vector.replicate 32 4, false, true⟩, ⟨Vector.replicate 32 2, false, true⟩],
    []⟩, length_collects_bounded⟩

/-- Pay five lamports from the first account of the instruction to the second one, and have another
program pay as well. -/
def paysOut : GuardedNativeCode :=
  .perform (.basic (.consume 1)) fun _ =>
    .perform (.basic (.change 0 (.lamports 95))) fun _ =>
      .perform (.basic (.change 1 (.addLamports 5))) fun _ =>
        .perform (.invoke collects [] (.pure (.ok ()))) fun _ => .pure (.ok 0)

/-- The other program takes two lamports from an account of its own and makes it executable. -/
def paysToo : GuardedNativeCode :=
  .perform (.basic (.consume 1)) fun _ =>
    .perform (.basic (.change 0 (.subLamports 2))) fun _ =>
      .perform (.basic (.change 1 (.addLamports 2))) fun _ =>
        .perform (.basic (.change 0 (.executable (fun lamports _ => decide (40 ≤ lamports)) true)))
          fun _ => .pure (.ok 0)

def payingWorld : GuardedWorld :=
  { executable := fun _ => ⟨{}, .v0, MemoryRegion.newReadonly 0 0 0, fun _ => .pure (.ok 0)⟩
    native := fun n => if n = 0 then paysOut else paysToo
    upgradeableLoader := .pure (.ok 0)
    loaderV4 := .pure (.ok 0)
    allocate := fun _ => ⟨⟨0, fun _ => 0, fun _ => false⟩, 0, 0⟩
    statusError := fun _ => .invalidArgument }

/-- The programs, accounts that they own, and an account that they do not own. -/
def payingAccounts : List (Pubkey × AccountSharedData) :=
  [(Vector.replicate 32 1, ⟨100, [], payingProgram, false, 0⟩),
    (Vector.replicate 32 2, ⟨10, [7], sysvarId, false, 0⟩),
    (Vector.replicate 32 3, ⟨1, [], payingProgram, false, 0⟩),
    (payingProgram, ⟨1, [], nativeLoaderId, true, 0⟩),
    (Vector.replicate 32 4, ⟨50, [], collectingProgram, false, 0⟩),
    (collectingProgram, ⟨1, [], nativeLoaderId, true, 0⟩),
    (checkingPrecompile, ⟨1, [], nativeLoaderId, true, 0⟩)]

theorem length_four_bounded : ([0, 1, 4, 5] : List UInt8).length < 2 ^ 16 := by
  decide

/-- A precompile and the program.  The accounts that lamports are paid from and to are writable. -/
def payingMessage : Message :=
  { instructions :=
      [⟨checkingPrecompile, ⟨6, [], [1], length_nil_bounded⟩, 6⟩,
        ⟨payingProgram, ⟨3, [0, 1, 4, 5], [], length_four_bounded⟩, 3⟩]
    isSigner := fun _ => false
    isWritable := fun index => decide (index ∈ [0, 1, 4]) }

def payingStart : RuntimeState :=
  ⟨.new (.new payingAccounts 5 64) [(payingProgram, .builtin (some (.native 0))),
      (collectingProgram, .builtin (some (.native 1)))]
    ⟨⟨true, true⟩, true, true, true, true⟩ ⟨1000, 0⟩ ⟨0, 0, 1⟩, fun _ => 0⟩

/-- The precompile accepts one byte. -/
def payingPrecompiles : Precompiles :=
  ⟨fun programId => programId == checkingPrecompile,
    fun _ data _ => if data.length = 1 then .ok () else .error .invalidArgument⟩

def payingRun : Except MessageAbort MessageOutcome :=
  processMessage payingWorld.world payingPrecompiles payingMessage payingStart

/-- The message succeeds. -/
theorem payingMessage_succeeds : ∃ outcome, payingRun = .ok outcome ∧ outcome.result = .ok () := by
  have hresult : payingRun.toOption.map MessageOutcome.result = some (.ok ()) := by
    decide +kernel
  cases hrun : payingRun with
  | error stopped =>
      rw [hrun] at hresult
      cases hresult
  | ok outcome =>
      rw [hrun] at hresult
      exact ⟨outcome, rfl, Option.some.inj hresult⟩

end Instance

/-! ## The accounting rules -/

section Rules

variable {outcome : MessageOutcome}

/-- Whatever the programs of a message do, no instruction at any depth has a writable account that the
message does not declare writable.  This includes precompiles, and messages that end in a panic. -/
theorem processMessage_writes_declared (w : World) (p : Precompiles) (message : Message)
    (s : RuntimeState) (hsynced : s.context.transactionContext.Synced) {entry : InvokeContext}
    (hentry : entry ∈ instructionsEntered (processMessage w p message s)) {index : IndexOfAccount}
    (hwrites : entry.transactionContext.authority.MayWrite index) :
    message.isWritable index = true :=
  processInstructions_attenuates w p message 0 message.instructions hsynced entry hentry index hwrites

/-- The program that was invoked has a writable account of its own. -/
theorem payingMessage_writes_declared :
    ∃ entry ∈ instructionsEntered payingRun,
      entry.transactionContext.authority.program = some collectingProgram ∧
      entry.transactionContext.authority.MayWrite 4 ∧ payingMessage.isWritable 4 = true := by
  have hentered : (instructionsEntered payingRun).any (fun entry =>
      decide (entry.transactionContext.authority.program = some collectingProgram) &&
        entry.transactionContext.authority.accounts.any fun account =>
          account.indexInTransaction == 4 && account.isWritable) = true := by
    decide +kernel
  obtain ⟨entry, hentry, hany⟩ := List.any_eq_true.mp hentered
  rw [Bool.and_eq_true, decide_eq_true_eq] at hany
  obtain ⟨account, haccount, hboth⟩ := List.any_eq_true.mp hany.2
  rw [Bool.and_eq_true, beq_iff_eq] at hboth
  have hwrites : entry.transactionContext.authority.MayWrite 4 := ⟨account, haccount, hboth⟩
  exact ⟨entry, hentry, hany.1, hwrites, processMessage_writes_declared payingWorld.world
    payingPrecompiles payingMessage payingStart (TransactionContext.new_synced _ _ _) hentry hwrites⟩

theorem keeps_openingLamports :
    Keeps (fun _ => True) fun t t' => t'.openingLamports = t.openingLamports where
  refl := fun _ => rfl
  trans := fun h h' => h'.trans h
  edit := fun _ h => h.openingLamports_eq
  enter := fun h => h.openingLamports

/-- A message that succeeds has neither created nor destroyed lamports, however its programs have
called each other. -/
theorem processMessage_conserves_lamports (w : GuardedWorld) (p : Precompiles) (message : Message)
    (s : RuntimeState) (hsynced : s.context.transactionContext.Synced)
    (hbalanced : s.context.transactionContext.accounts.lamportsDelta = 0)
    (h : processMessage w.world p message s = .ok outcome) (hok : outcome.result = .ok ()) :
    outcome.state.context.transactionContext.accounts.totalLamports =
      s.context.transactionContext.accounts.totalLamports := by
  have hkept := processInstructions_kept keeps_openingLamports w p message 0 message.instructions
    hsynced
  rw [← processMessage, h] at hkept
  have hopening := hkept.keeps fun _ _ => trivial
  have hclosing := hkept.balanced hbalanced hok
  unfold TransactionAccounts.openingLamports at hopening
  omega

/-- Seven lamports have been paid to the second account. -/
theorem payingMessage_conserves_lamports :
    ∃ outcome, payingRun = .ok outcome ∧
      outcome.state.context.transactionContext.accounts.totalLamports = 164 ∧
      outcome.state.context.transactionContext.accounts.accounts.map (fun entry => entry.2.lamports) =
        [95, 17, 1, 1, 48, 1, 1] := by
  obtain ⟨outcome, hrun, hok⟩ := payingMessage_succeeds
  have hpaid : payingRun.toOption.map (fun outcome =>
      outcome.state.context.transactionContext.accounts.accounts.map fun entry => entry.2.lamports) =
        some [95, 17, 1, 1, 48, 1, 1] := by
    decide +kernel
  rw [hrun] at hpaid
  exact ⟨outcome, hrun, processMessage_conserves_lamports payingWorld payingPrecompiles payingMessage
    payingStart (TransactionContext.new_synced _ _ _) rfl hrun hok, Option.some.inj hpaid⟩

/-- An account that is not in `W` is as it was, unless it is the instructions sysvar. -/
def Untouched (W : IndexOfAccount → Prop) (t t' : TransactionAccounts) : Prop :=
  ∀ (index : IndexOfAccount) (key : Pubkey) (account : AccountSharedData), ¬ W index →
    t.accounts[index]? = some (key, account) → key ≠ instructionsSysvarId →
      t'.accounts[index]? = some (key, account)

theorem keeps_untouched (W : IndexOfAccount → Prop) : Keeps (WritesWithin W) (Untouched W) where
  refl := fun _ _ _ _ _ h _ => h
  trans := fun h h' index key account hindex haccount hkey =>
    h' index key account hindex (h index key account hindex haccount hkey) hkey
  edit := by
    intro a t t' hwrites hedit index key account hindex haccount _
    rw [hedit.keeps_readonly fun hmay => hindex (hwrites index hmay)]
    exact haccount
  enter := fun h index key account _ haccount hkey => h.others index key account haccount hkey

/-- The accounts of a program are left to it, except for the instructions sysvar. -/
def RespectsUnlessSysvar (program : Pubkey) (t t' : TransactionAccounts) : Prop :=
  ∀ (index : IndexOfAccount) (key : Pubkey) (account : AccountSharedData),
    t.accounts[index]? = some (key, account) → key ≠ instructionsSysvarId →
      account.owner = program →
        ∃ account', t'.accounts[index]? = some (key, account') ∧ account.Respected account'

theorem keeps_respects (program : Pubkey) :
    Keeps (fun a => a.program ≠ some program) (RespectsUnlessSysvar program) where
  refl := fun _ _ _ account haccount _ _ => ⟨account, haccount, .refl account⟩
  trans := by
    intro t t' t'' h h' index key account haccount hkey howner
    obtain ⟨account', haccount', hrespected⟩ := h index key account haccount hkey howner
    obtain ⟨account'', haccount'', hrespected'⟩ :=
      h' index key account' haccount' hkey (hrespected.owner.trans howner)
    exact ⟨account'', haccount'', hrespected.trans hrespected'⟩
  edit := fun hprogram hedit index key account haccount _ howner =>
    hedit.respects hprogram index key account haccount howner
  enter := fun h index key account haccount hkey _ =>
    ⟨account, h.others index key account haccount hkey, .refl account⟩

end Rules

end Svm
end Gobble
