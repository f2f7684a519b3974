import Gobble.ProgramRuntime.Confinement
import Gobble.ProgramRuntime.GuardedRule

/-!
# AccountSafety — what happens to the accounts while programs call programs

A guarded program changes accounts under the authority of its own instruction.  The programs that it
invokes do so under theirs, and when it goes on it has its own authority back.  So what every
authority that occurs in an execution keeps, the whole execution keeps (`processInstruction_keeps`).
-/

namespace Gobble
namespace Context

open Lib Sbpf Sdk ProgramRuntime

namespace TransactionContext

variable {reach : List IndexOfAccount} {tx tx' tx'' : TransactionContext}

/-- The instruction that is executed has its entry in the trace. -/
structure Executes (reach : List IndexOfAccount) (tx : TransactionContext) : Prop extends
    RunsWithin reach tx where
  entry : ∃ index frame, tx.instructionStack.getLast? = some index ∧
    tx.instructionTrace.dropLast[index]? = some frame

/-- `tx'` is `tx` after instructions have been entered and left again, with the trace. -/
structure Resumes (tx tx' : TransactionContext) : Prop extends Continues tx tx' where
  trace : tx.instructionTrace.dropLast <+: tx'.instructionTrace.dropLast

/-- `tx'` is `tx` with an instruction prepared, with the trace. -/
structure Readies (reach : List IndexOfAccount) (tx tx' : TransactionContext) : Prop extends
    PreparesWithin reach tx tx' where
  trace : tx'.instructionTrace.dropLast = tx.instructionTrace.dropLast

/-- The authority of an instruction, from its entries. -/
theorem authority_of_entries {index : Nat} {frame : InstructionFrame}
    {accounts : List InstructionAccount} (hstack : tx.instructionStack.getLast? = some index)
    (hframe : tx.instructionTrace[index]? = some frame)
    (haccounts : tx.instructionAccounts[index]? = some accounts) :
    tx.authority = ⟨accounts, tx.accounts.accountKeys[frame.programAccountIndexInTx]?⟩ := by
  simp only [authority, getCurrentInstructionContext, getCurrentInstructionIndex, hstack, Bind.bind,
    Except.bind, getInstructionContextAtIndexInTrace, hframe, haccounts, Option.getD_some,
    InstructionContext.authority, TransactionAccounts.accountKey_eq_getElem?]

/-- An instruction keeps its authority as long as it is on top of the stack. -/
theorem Executes.authority_eq (h : tx.Executes reach)
    (hstack : tx'.instructionStack = tx.instructionStack)
    (htrace : tx.instructionTrace.dropLast <+: tx'.instructionTrace.dropLast)
    (haccounts : tx.instructionAccounts <+: tx'.instructionAccounts)
    (hkeys : tx'.accounts.accountKeys = tx.accounts.accountKeys) :
    tx'.authority = tx.authority := by
  obtain ⟨index, frame, hlast, hframe⟩ := h.entry
  obtain ⟨index', accounts, hlast', hentry, -⟩ := h.current
  -- The frame and the accounts of the instruction are found at the same position of the trace.
  obtain rfl : index' = index := Option.some.inj (hlast'.symm.trans hlast)
  have hframe' : tx'.instructionTrace.dropLast[index']? = some frame := getElem?_mono htrace hframe
  rw [authority_of_entries hlast (getElem?_mono (List.dropLast_prefix _) hframe) hentry,
    authority_of_entries (hstack ▸ hlast) (getElem?_mono (List.dropLast_prefix _) hframe')
      (getElem?_mono haccounts hentry), hkeys]

namespace Resumes

theorem refl (tx : TransactionContext) : tx.Resumes tx :=
  ⟨.refl tx, List.prefix_rfl⟩

theorem trans (h : tx.Resumes tx') (h' : tx'.Resumes tx'') : tx.Resumes tx'' :=
  ⟨h.toContinues.trans h'.toContinues, h.trace.trans h'.trace⟩

theorem of_sameInstructions (h : tx.SameInstructions tx') : tx.Resumes tx' := by
  refine ⟨.of_sameInstructions h, ?_⟩
  obtain ⟨accounts, returnData, -, rfl⟩ := h
  exact List.prefix_rfl

theorem executes (h : tx.Resumes tx') (hexecutes : tx.Executes reach) : tx'.Executes reach := by
  refine ⟨hexecutes.toRunsWithin.continue h.toContinues, ?_⟩
  obtain ⟨index, frame, hlast, hframe⟩ := hexecutes.entry
  exact ⟨index, frame, h.stack ▸ hlast, getElem?_mono h.trace hframe⟩

theorem authority_eq (h : tx.Resumes tx') (hexecutes : tx.Executes reach) :
    tx'.authority = tx.authority :=
  hexecutes.authority_eq h.stack h.trace h.accounts h.keys

end Resumes

namespace Readies

theorem of_sameInstructions (h : Readies reach tx tx') (hsame : tx'.SameInstructions tx'') :
    Readies reach tx tx'' := by
  refine ⟨h.toPreparesWithin.of_sameInstructions hsame, ?_⟩
  obtain ⟨accounts, returnData, -, rfl⟩ := hsame
  exact h.trace

/-- Until the instruction is entered, its caller is the one that is executed. -/
theorem authority_eq (h : Readies reach tx tx') (hexecutes : tx.Executes reach) :
    tx'.authority = tx.authority := by
  obtain ⟨accounts, data, haccounts, -⟩ := h.next
  refine hexecutes.authority_eq h.stack ?_ ?_ h.keys
  · rw [h.trace]
  · rw [haccounts]
    exact List.prefix_append _ _

/-- The prepared instruction, once it has been entered, and its caller when it has been left. -/
theorem push (h : Readies reach tx tx') (hpush : tx'.push.1 = .ok ()) :
    tx'.push.2.Executes reach ∧
      ∀ {after}, tx'.push.2.Resumes after → tx.Resumes after.pop.2 := by
  obtain ⟨hruns, hleave⟩ := h.toPreparesWithin.push hpush
  obtain ⟨frame, -, -, ⟨accounts, returnData, -, hpushed⟩, -⟩ := push_ok hpush
  -- Entering fixes the last frame of the trace and opens a new one behind it.
  have htrace : tx'.push.2.instructionTrace.dropLast = tx.instructionTrace.dropLast ++ [frame] := by
    rw [hpushed, ← h.trace]
    exact List.dropLast_concat
  refine ⟨⟨hruns, tx.getInstructionTraceLength, frame, ?_, ?_⟩, fun {after} hafter => ?_⟩
  · rw [hpushed, ← h.length]
    exact List.getLast?_concat
  · rw [htrace, getInstructionTraceLength, ← List.length_dropLast]
    exact List.getElem?_concat_length
  · refine ⟨hleave hafter.toContinues, ?_⟩
    have hpop : after.pop.2.instructionTrace = after.instructionTrace := by
      unfold pop
      split
      · rfl
      · dsimp only
        split <;> split <;> rfl
    rw [hpop]
    refine List.IsPrefix.trans ?_ hafter.trace
    rw [htrace]
    exact List.prefix_append _ _

/-- The accounts of the instruction that has been entered are those that were configured last. -/
theorem push_accounts (h : Readies reach tx tx') (hpush : tx'.push.1 = .ok ()) :
    tx'.instructionAccounts.getLast? = some tx'.push.2.authority.accounts := by
  obtain ⟨index, frame, hlast, hframe⟩ := (h.push hpush).1.entry
  obtain ⟨frame', -, -, ⟨accounts', returnData, -, hpushed⟩, -⟩ := push_ok hpush
  obtain ⟨accounts, data, haccounts, -⟩ := h.next
  -- The instruction on top of the stack is the one whose accounts were appended last.
  have hindex : index = tx.getInstructionTraceLength := by
    have hstack : tx'.push.2.instructionStack.getLast? = some tx.getInstructionTraceLength := by
      rw [hpushed, ← h.length]
      exact List.getLast?_concat
    exact Option.some.inj (hlast.symm.trans hstack)
  have hentry : tx'.push.2.instructionAccounts[index]? = some accounts := by
    have hsame : tx'.push.2.instructionAccounts = tx.instructionAccounts ++ [accounts] := by
      rw [hpushed, ← haccounts]
      rfl
    rw [hsame, hindex, ← h.synced.accounts]
    exact List.getElem?_concat_length
  rw [authority_of_entries hlast (getElem?_mono (List.dropLast_prefix _) hframe) hentry, haccounts]
  exact List.getLast?_concat

end Readies

/-- Leaving an instruction does not change an account. -/
theorem pop_accounts (tx : TransactionContext) : tx.pop.2.accounts = tx.accounts := by
  unfold pop
  split
  · rfl
  · dsimp only
    split <;> split <;> rfl

/-- An instruction is left without an error only if no change of a balance is left over. -/
theorem balanced_of_pop_ok (h : tx.pop.1 = .ok ()) : tx.accounts.lamportsDelta = 0 := by
  unfold pop at h
  split at h
  · cases h
  · dsimp only at h
    split at h
    · cases h
    · cases h
    · -- Borrowing the program account succeeds, and the sum that is kept is zero.
      rename_i hbalanced
      obtain ⟨ic, -, hbalanced⟩ := bind_eq_ok hbalanced
      obtain ⟨index, -, hbalanced⟩ := bind_eq_ok hbalanced
      obtain ⟨account, -, hbalanced⟩ := bind_eq_ok hbalanced
      simpa using Except.ok.inj hbalanced

end TransactionContext

end Context

namespace ProgramRuntime

open Lib Sbpf Sdk Context

/-- Entering an instruction enters it in the transaction. -/
theorem push_ok_transactionContext {c entered : InvokeContext} (h : c.push = (.ok (), entered)) :
    c.transactionContext.push.1 = .ok () ∧
      entered.transactionContext = c.transactionContext.push.2 := by
  rcases c.push_cases with ⟨err, heq⟩ | heq
  · rw [h] at heq
    cases heq
  · rw [h, Prod.mk.injEq] at heq
    exact ⟨heq.1.symm, by rw [heq.2]⟩

/-! ## Preparing -/

section Prepare

variable {reach : List IndexOfAccount} {c c' : InvokeContext}

theorem Prepared.readies {programIndex : IndexOfAccount} {accounts : List InstructionAccount}
    {data : List UInt8} (h : Prepared c c' programIndex accounts data)
    (hsynced : c.transactionContext.Synced) (hlen : accounts.length ≤ noIndex)
    (hreach : indicesOf accounts ⊆ reach) :
    TransactionContext.Readies reach c.transactionContext c'.transactionContext := by
  refine ⟨h.within hsynced hlen hreach, ?_⟩
  obtain ⟨callerIndex, hconfigured⟩ := h.configured
  obtain ⟨last, -, htx⟩ := TransactionContext.configureNextInstruction_ok hconfigured
  rw [htx]
  exact List.dropLast_concat

/-- Configuring an instruction changes no account. -/
theorem Configures.accounts_eq (h : c.Configures c') :
    c'.transactionContext.accounts = c.transactionContext.accounts ∧
      c'.transactionContext.instructionTrace.dropLast =
        c.transactionContext.instructionTrace.dropLast := by
  obtain ⟨_, _, _, _, _, tx, hconfigured, rfl⟩ := h
  obtain ⟨last, -, rfl⟩ := TransactionContext.configureNextInstruction_ok hconfigured
  exact ⟨rfl, List.dropLast_concat⟩

theorem prepareNextInstruction_readies (hc : c.transactionContext.Executes reach)
    (instruction : CheckedInstruction) (signers : List Pubkey) :
    Ends (fun c' => TransactionContext.Readies reach c.transactionContext c'.transactionContext ∧
        c'.transactionContext.accounts = c.transactionContext.accounts) (fun _ => True)
      (c.prepareNextInstruction instruction.toInstruction signers) := by
  have hwithin := prepareNextInstruction_within hc.toRunsWithin instruction signers
  have hconfigures := c.prepareNextInstruction_configures instruction.toInstruction signers
  cases hprepare : c.prepareNextInstruction instruction.toInstruction signers with
  | error fault => trivial
  | ok c' =>
      rw [hprepare] at hwithin hconfigures
      obtain ⟨haccounts, htrace⟩ := Configures.accounts_eq hconfigures
      exact ⟨⟨hwithin, htrace⟩, haccounts⟩

end Prepare

/-! ## Executions -/

/-- A relation between accounts that holds across every edit under an authority in `A`, and across
entering an instruction. -/
structure Keeps (A : Authority → Prop) (R : TransactionAccounts → TransactionAccounts → Prop) :
    Prop where
  refl : ∀ t, R t t
  trans : ∀ {t t' t''}, R t t' → R t' t'' → R t t''
  edit : ∀ {a t t'}, A a → a.Edit t t' → R t t'
  enter : ∀ {t t'}, TransactionContext.StoresIndex t t' → R t t'

/-- All authorities that occurred are in `A`. -/
def Execution.Under (A : Authority → Prop) (entries : List InvokeContext) : Prop :=
  ∀ entry ∈ entries, A entry.transactionContext.authority

theorem Execution.under_append {A : Authority → Prop} {entries entries' : List InvokeContext} :
    Execution.Under A (entries ++ entries') ↔
      Execution.Under A entries ∧ Execution.Under A entries' :=
  List.forall_mem_append

/-- What an invocation has done to the accounts `t`, if all that happened was under `A`. -/
structure Invocation.Kept (A : Authority → Prop)
    (R : TransactionAccounts → TransactionAccounts → Prop) (tx : TransactionContext)
    (t : TransactionAccounts) (call : Invocation) : Prop where
  resumes : call.result = .ok () → tx.Resumes call.state.context.transactionContext
  keeps : Execution.Under A call.execution.entries →
    R t call.state.context.transactionContext.accounts

def Invoke.Keeps (A : Authority → Prop) (R : TransactionAccounts → TransactionAccounts → Prop)
    (reach : List IndexOfAccount) (invoke : Invoke) : Prop :=
  ∀ (s : RuntimeState) (tx : TransactionContext), tx.Readies reach s.context.transactionContext →
    Ends (·.Kept A R tx s.context.transactionContext.accounts) (fun _ => True) (invoke s)

section Running

variable {A : Authority → Prop} {R : TransactionAccounts → TransactionAccounts → Prop}
  {reach : List IndexOfAccount}

/-- The accounts since the program was entered in `c`. -/
def KeptSince (A : Authority → Prop) (R : TransactionAccounts → TransactionAccounts → Prop)
    (c : InvokeContext) (calls : List Execution) (t : TransactionAccounts) : Prop :=
  Execution.Under A (c :: Execution.entriesOfCalls calls) → R c.transactionContext.accounts t

theorem Keeps.edits (h : Keeps A R) {tx tx' : TransactionContext} (hA : A tx.authority)
    (hedits : tx.Edits tx') : R tx.accounts tx'.accounts := by
  obtain ⟨accounts, returnData, hedits, rfl⟩ := hedits
  exact hedits.keeps h.refl h.trans (h.edit hA)

/-- Steps of the program that was entered in `c`, in a transaction with the same authority. -/
theorem KeptSince.edits (h : Keeps A R) {c : InvokeContext} {calls : List Execution}
    {tx tx' : TransactionContext} (hauthority : tx.authority = c.transactionContext.authority)
    (hkept : KeptSince A R c calls tx.accounts) (hedits : tx.Edits tx') :
    KeptSince A R c calls tx'.accounts := by
  intro hunder
  -- The authority of the program itself is among those that occurred.
  have hown : A tx.authority := hauthority ▸ hunder c List.mem_cons_self
  exact h.trans (hkept hunder) (h.edits hown hedits)

theorem keeps_rule (h : Keeps A R) {invoke : Invoke} (hinvoke : invoke.Keeps A R reach)
    {c : InvokeContext} (hc : c.transactionContext.Executes reach) :
    GuardedRule invoke c.transactionContext
      (fun calls tx => c.transactionContext.Resumes tx ∧ KeptSince A R c calls tx.accounts)
      (fun calls tx' => ∃ tx, c.transactionContext.Resumes tx ∧ tx.Readies reach tx' ∧
        KeptSince A R c calls tx'.accounts)
      (KeptSince A R c) where
  start := ⟨.refl _, fun _ => h.refl _⟩
  step := by
    rintro calls tx tx' ⟨hresumes, hkept⟩ hedits
    exact ⟨hresumes.trans (.of_sameInstructions hedits.sameInstructions),
      KeptSince.edits h (hresumes.authority_eq hc) hkept hedits⟩
  prepare := by
    rintro calls c' instruction signers ⟨hresumes, hkept⟩
    refine (prepareNextInstruction_readies (hresumes.executes hc) instruction signers).mono ?_
      fun _ => id
    rintro c'' ⟨hreadies, haccounts⟩
    exact ⟨_, hresumes, hreadies, haccounts ▸ hkept⟩
  sync := by
    rintro calls tx' tx'' ⟨tx, hresumes, hreadies, hkept⟩ hedits
    have hauthority := (hreadies.authority_eq (hresumes.executes hc)).trans
      (hresumes.authority_eq hc)
    exact ⟨tx, hresumes, hreadies.of_sameInstructions hedits.sameInstructions,
      KeptSince.edits h hauthority hkept hedits⟩
  process := by
    rintro calls c' host ⟨tx, hresumes, hreadies, hkept⟩
    refine (hinvoke ⟨c', host⟩ tx hreadies).mono ?_ fun _ => id
    intro call hcall
    -- What happened before the call, and what happened during it.
    have hafter : KeptSince A R c (calls ++ [call.execution])
        call.state.context.transactionContext.accounts := by
      intro hunder
      rw [Execution.entriesOfCalls_append, Execution.entriesOfCalls_singleton] at hunder
      rw [← List.cons_append] at hunder
      obtain ⟨hbefore, hduring⟩ := Execution.under_append.mp hunder
      exact h.trans (hkept hbefore) (hcall.keeps hduring)
    exact ⟨fun hok => ⟨hresumes.trans (hcall.resumes hok), hafter⟩, hafter⟩
  stop := fun hrunning => hrunning.2
  abandon := by
    rintro calls tx' ⟨tx, -, -, hkept⟩
    exact hkept

/-- Entering an instruction. -/
theorem push_keeps (h : Keeps A R) (c : InvokeContext) :
    R c.transactionContext.accounts c.push.2.transactionContext.accounts := by
  rcases c.push_cases with ⟨err, heq⟩ | heq
  · rw [heq]
    exact h.refl _
  · rw [heq]
    exact h.enter c.transactionContext.push_storesIndex

/-- An instruction that could not be entered. -/
theorem rejected_kept (h : Keeps A R) {s : RuntimeState} {tx : TransactionContext}
    {err : InstructionError} {context : InvokeContext}
    (hpush : s.context.push = (.error err, context)) :
    Invocation.Kept A R tx s.context.transactionContext.accounts
      ⟨.error err, .rejected s.context, ⟨context, s.host⟩⟩ := by
  have hkeeps := push_keeps h s.context
  rw [hpush] at hkeeps
  exact ⟨fun hok => (by cases hok), fun _ => hkeeps⟩

/-- The induction is on the fuel. -/
theorem processInstructionWithFuel_keeps (h : Keeps A R) (w : GuardedWorld) (fuel : Nat) :
    (processInstructionWithFuel w.world fuel).Keeps A R reach := by
  induction fuel with
  | zero =>
      intro s tx _
      unfold processInstructionWithFuel
      split
      · rename_i err context heq
        exact rejected_kept h heq
      · trivial
  | succ fuel ih =>
      intro s tx hreadies
      unfold processInstructionWithFuel
      split
      · rename_i err context heq
        exact rejected_kept h heq
      · rename_i context heq
        have hpush := push_keeps h s.context
        rw [heq] at hpush
        obtain ⟨hok, htx⟩ := push_ok_transactionContext heq
        obtain ⟨hexecutes, hleave⟩ := hreadies.push hok
        rw [← htx] at hexecutes hleave
        have hchain := (keeps_rule h ih hexecutes).processExecutableChain_guarded w context s.host
        refine hchain.bind ?_
        rintro chain ⟨vm, calls, hexecution, hrunning, hkept⟩
        refine ⟨fun hboth => ?_, fun hunder => ?_⟩
        · have hresult : chain.result.isOk = true := by
            have hboth' : andThen chain.result chain.state.context.pop.1 = .ok () := hboth
            cases hresult : chain.result with
            | ok _ => rfl
            | error err =>
                rw [hresult] at hboth'
                cases hboth'
          exact hleave (hrunning hresult).1
        · show R _ chain.state.context.transactionContext.pop.2.accounts
          have hunder' : Execution.Under A chain.execution.entries := hunder
          rw [hexecution] at hunder'
          rw [TransactionContext.pop_accounts]
          exact h.trans hpush (hkept hunder')

/-- What all authorities of an execution keep, the execution keeps. -/
theorem processInstruction_keeps (h : Keeps A R) (w : GuardedWorld) {s : RuntimeState}
    {tx : TransactionContext} (hreadies : tx.Readies reach s.context.transactionContext) :
    Ends (·.Kept A R tx s.context.transactionContext.accounts) (fun _ => True)
      (processInstruction w.world s) :=
  processInstructionWithFuel_keeps h w _ s tx hreadies

/-- An instruction that succeeds leaves no change of a balance over. -/
theorem processInstruction_balanced (w : World) (s : RuntimeState) :
    Ends (fun call => call.result = .ok () →
        call.state.context.transactionContext.accounts.lamportsDelta = 0) (fun _ => True)
      (processInstruction w s) := by
  unfold processInstruction
  generalize s.context.transactionContext.instructionStackCapacity = fuel
  unfold processInstructionWithFuel
  split
  · exact fun hok => by cases hok
  · cases fuel with
    | zero => trivial
    | succ fuel =>
        refine .bind_any (fun chain => ?_) fun _ => trivial
        intro hboth
        have hpopped : chain.state.context.transactionContext.pop.1 = .ok () := by
          have hboth' : andThen chain.result chain.state.context.pop.1 = .ok () := hboth
          cases hresult : chain.result with
          | ok _ =>
              rw [hresult] at hboth'
              exact hboth'
          | error err =>
              rw [hresult] at hboth'
              cases hboth'
        show chain.state.context.transactionContext.pop.2.accounts.lamportsDelta = 0
        rw [TransactionContext.pop_accounts]
        exact TransactionContext.balanced_of_pop_ok hpopped

end Running

end ProgramRuntime
end Gobble
