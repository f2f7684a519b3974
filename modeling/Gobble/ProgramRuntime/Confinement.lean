import Gobble.Lib.Trace
import Gobble.ProgramRuntime.Prepare
import Gobble.ProgramRuntime.Progress

/-!
# Confinement — a program reaches only the accounts of its top-level instruction

A program can pass an account on to another program only if the account is in its own instruction.
So the accounts of all instructions that are entered on behalf of a top-level instruction are among
the accounts of that instruction, however deep the invocations are nested.

The deduplication map of the caller is what the check looks at, so the maps have to be right in all
instructions of the trace (`RunsWithin`).
-/

namespace Gobble
namespace Context

open Lib Sbpf Sdk ProgramRuntime

namespace TransactionContext

/-- The instruction that is executed has accounts in `reach` only, and the map of its accounts. -/
structure RunsWithin (reach : List IndexOfAccount) (tx : TransactionContext) : Prop where
  synced : tx.Synced
  current : ∃ index accounts, tx.instructionStack.getLast? = some index ∧
    tx.instructionAccounts[index]? = some accounts ∧
    tx.deduplicationMaps[index]? = some (dedupMapOf (indicesOf accounts)) ∧
    accounts.length ≤ noIndex ∧ indicesOf accounts ⊆ reach

/-- `tx'` is `tx` after instructions have been entered and left again. -/
structure Continues (tx tx' : TransactionContext) : Prop where
  synced : tx.Synced → tx'.Synced
  stack : tx'.instructionStack = tx.instructionStack
  accounts : tx.instructionAccounts <+: tx'.instructionAccounts
  maps : tx.deduplicationMaps <+: tx'.deduplicationMaps
  keys : tx'.accounts.accountKeys = tx.accounts.accountKeys

/-- `tx'` is `tx` with an instruction prepared that has accounts in `reach` only. -/
structure PreparesWithin (reach : List IndexOfAccount) (tx tx' : TransactionContext) : Prop where
  synced : tx.Synced
  length : tx'.getInstructionTraceLength = tx.getInstructionTraceLength
  stack : tx'.instructionStack = tx.instructionStack
  keys : tx'.accounts.accountKeys = tx.accounts.accountKeys
  next : ∃ accounts data, tx'.instructionAccounts = tx.instructionAccounts ++ [accounts] ∧
    tx'.deduplicationMaps = tx.deduplicationMaps ++ [dedupMapOf (indicesOf accounts)] ∧
    tx'.instructionData = tx.instructionData ++ [data] ∧
    accounts.length ≤ noIndex ∧ indicesOf accounts ⊆ reach

variable {reach : List IndexOfAccount} {tx tx' tx'' : TransactionContext}

namespace Continues

theorem refl (tx : TransactionContext) : tx.Continues tx :=
  ⟨id, rfl, List.prefix_rfl, List.prefix_rfl, rfl⟩

theorem trans (h : tx.Continues tx') (h' : tx'.Continues tx'') : tx.Continues tx'' :=
  ⟨fun hsynced => h'.synced (h.synced hsynced), h'.stack.trans h.stack,
    h.accounts.trans h'.accounts, h.maps.trans h'.maps, h'.keys.trans h.keys⟩

theorem of_sameInstructions (h : tx.SameInstructions tx') : tx.Continues tx' := by
  obtain ⟨accounts, returnData, hkeys, rfl⟩ := h
  exact ⟨fun hsynced => ⟨hsynced.accounts, hsynced.maps, hsynced.data⟩, rfl, List.prefix_rfl,
    List.prefix_rfl, hkeys⟩

end Continues

theorem RunsWithin.continue (h : tx.RunsWithin reach) (hcontinues : tx.Continues tx') :
    tx'.RunsWithin reach := by
  obtain ⟨index, accounts, hstack, haccounts, hmap, hlen, hreach⟩ := h.current
  refine ⟨hcontinues.synced h.synced, index, accounts, ?_, ?_, ?_, hlen, hreach⟩
  · rw [hcontinues.stack, hstack]
  · exact getElem?_mono hcontinues.accounts haccounts
  · exact getElem?_mono hcontinues.maps hmap

/-- The view of the instruction that is executed. -/
theorem RunsWithin.view (h : tx.RunsWithin reach) {ic : InstructionContext}
    (hic : tx.getCurrentInstructionContext = .ok ic) :
    ic.dedupMap = dedupMapOf (indicesOf ic.instructionAccounts) ∧
      ic.instructionAccounts.length ≤ noIndex ∧ indicesOf ic.instructionAccounts ⊆ reach := by
  obtain ⟨index, accounts, hstack, haccounts, hmap, hlen, hreach⟩ := h.current
  unfold getCurrentInstructionContext getCurrentInstructionIndex at hic
  rw [hstack] at hic
  obtain ⟨index', hindex, hic⟩ := bind_eq_ok hic
  cases hindex
  unfold getInstructionContextAtIndexInTrace at hic
  split at hic
  · cases hic
  · cases hic
    dsimp only
    rw [haccounts, hmap, Option.getD_some, Option.getD_some]
    exact ⟨rfl, hlen, hreach⟩

namespace PreparesWithin

theorem of_sameInstructions (h : PreparesWithin reach tx tx') (hsame : tx'.SameInstructions tx'') :
    PreparesWithin reach tx tx'' := by
  obtain ⟨accounts, returnData, hkeys, rfl⟩ := hsame
  exact ⟨h.synced, h.length, h.stack, hkeys.trans h.keys, h.next⟩

/-- Entering the instruction, and leaving it after it has been executed. -/
theorem push (h : PreparesWithin reach tx tx') (hpush : tx'.push.1 = .ok ()) :
    tx'.push.2.RunsWithin reach ∧
      ∀ {after}, tx'.push.2.Continues after → tx.Continues after.pop.2 := by
  obtain ⟨frame, hlast, -, ⟨accounts', returnData, hkeys, hpushed⟩, -⟩ := push_ok hpush
  obtain ⟨accounts, data, haccounts, hmaps, hdata, hlen, hreach⟩ := h.next
  -- The entry of the trace that was reserved is used, and another one is reserved.
  have hlength : tx'.push.2.getInstructionTraceLength = tx.getInstructionTraceLength + 1 := by
    have hlength := h.length
    rw [hpushed]
    unfold getInstructionTraceLength at hlength ⊢
    simp only [pushed, List.length_append, List.length_dropLast, List.length_singleton]
    omega
  have hsynced : tx'.push.2.Synced := by
    refine ⟨?_, ?_, ?_⟩
    · rw [hlength, hpushed]
      show tx'.instructionAccounts.length = _
      rw [haccounts, List.length_append, h.synced.accounts, List.length_singleton]
    · rw [hlength, hpushed]
      show tx'.deduplicationMaps.length = _
      rw [hmaps, List.length_append, h.synced.maps, List.length_singleton]
    · rw [hlength, hpushed]
      show tx'.instructionData.length = _
      rw [hdata, List.length_append, h.synced.data, List.length_singleton]
  have hstack : tx'.push.2.instructionStack =
      tx.instructionStack ++ [tx.getInstructionTraceLength] := by
    rw [hpushed, ← h.stack, ← h.length]
    rfl
  have haccounts' : tx'.push.2.instructionAccounts = tx.instructionAccounts ++ [accounts] := by
    rw [hpushed, ← haccounts]
    rfl
  have hmaps' : tx'.push.2.deduplicationMaps =
      tx.deduplicationMaps ++ [dedupMapOf (indicesOf accounts)] := by
    rw [hpushed, ← hmaps]
    rfl
  refine ⟨⟨hsynced, tx.getInstructionTraceLength, accounts, ?_, ?_, ?_, hlen, hreach⟩, ?_⟩
  · rw [hstack, List.getLast?_concat]
  · rw [haccounts', ← h.synced.accounts, List.getElem?_concat_length]
  · rw [hmaps', ← h.synced.maps, List.getElem?_concat_length]
  · intro after hafter
    have hne : after.instructionStack ≠ [] := by
      rw [hafter.stack, hstack]
      simp
    rw [pop_eq hne]
    have hsyncedAfter := hafter.synced hsynced
    refine ⟨fun _ => ⟨hsyncedAfter.accounts, hsyncedAfter.maps, hsyncedAfter.data⟩, ?_, ?_, ?_, ?_⟩
    · show after.instructionStack.dropLast = _
      rw [hafter.stack, hstack, List.dropLast_concat]
    · refine List.IsPrefix.trans ?_ hafter.accounts
      rw [haccounts']
      exact List.prefix_append _ _
    · refine List.IsPrefix.trans ?_ hafter.maps
      rw [hmaps']
      exact List.prefix_append _ _
    · refine hafter.keys.trans ?_
      rw [hpushed, ← h.keys]
      exact hkeys

end PreparesWithin

end TransactionContext

end Context

namespace ProgramRuntime

open Lib Sbpf Sdk Context

/-! ## Preparing -/

section Prepare

variable {reach : List IndexOfAccount} {c c' : InvokeContext}

theorem Prepared.within {programIndex : IndexOfAccount} {accounts : List InstructionAccount}
    {data : List UInt8} (h : Prepared c c' programIndex accounts data)
    (hsynced : c.transactionContext.Synced) (hlen : accounts.length ≤ noIndex)
    (hreach : indicesOf accounts ⊆ reach) :
    TransactionContext.PreparesWithin reach c.transactionContext c'.transactionContext := by
  obtain ⟨callerIndex, hconfigured⟩ := h.configured
  have hlength := TransactionContext.configureNextInstruction_length hconfigured
  obtain ⟨last, -, htx⟩ := TransactionContext.configureNextInstruction_ok hconfigured
  refine ⟨hsynced, hlength, ?_, ?_, accounts, data, ?_, ?_, ?_, hlen, hreach⟩
  all_goals rw [htx]

/-- An account that a caller can pass on is one of its own. -/
theorem mem_indicesOf_of_getIndexOfAccountInInstruction {ic : InstructionContext}
    (hmap : ic.dedupMap = dedupMapOf (indicesOf ic.instructionAccounts))
    (hlen : ic.instructionAccounts.length ≤ noIndex) {index position : IndexOfAccount}
    (h : ic.getIndexOfAccountInInstruction index = .ok position) :
    index ∈ indicesOf ic.instructionAccounts := by
  unfold InstructionContext.getIndexOfAccountInInstruction at h
  split at h
  · cases h
  · rename_i entry hentry
    split at h
    · cases h
    · rename_i hlt
      by_contra hmem
      have hindex : index < maxAccountsPerTransaction := by
        have hbound := (List.getElem?_eq_some_iff.mp hentry).1
        rwa [hmap, dedupMapOf, length_firstIndices] at hbound
      rw [hmap, dedupMapOf, getElem?_firstIndices hindex, if_neg hmem] at hentry
      rw [← Option.some.inj hentry] at hlt
      exact hlt hlen

theorem prepareNextInstruction_within (hc : c.transactionContext.RunsWithin reach)
    (instruction : CheckedInstruction) (signers : List Pubkey) :
    Ends (fun c' => TransactionContext.PreparesWithin reach c.transactionContext
        c'.transactionContext) (fun _ => True)
      (c.prepareNextInstruction instruction.toInstruction signers) := by
  have hbound : instruction.accounts.length ≤ noIndex :=
    instruction.bounded.trans (by decide)
  cases hprepare : c.prepareNextInstruction instruction.toInstruction signers with
  | error fault => trivial
  | ok c' =>
      obtain ⟨caller, programIndex, accounts, hcaller, -, hfound, hlookup, hprepared⟩ :=
        prepareNextInstruction_prepared hbound hprepare
      obtain ⟨hmap, hlen, hreach⟩ := hc.view hcaller
      have hcount : accounts.length = instruction.accounts.length := by
        simpa [indicesOf] using hfound.length_eq.symm
      refine hprepared.within hc.synced (hcount.trans_le hbound) ?_
      intro index hindex
      obtain ⟨position, hposition⟩ := hlookup index hindex
      exact hreach (mem_indicesOf_of_getIndexOfAccountInInstruction hmap hlen hposition)

end Prepare

/-! ## Running -/

/-- The VM ran an instruction of a transaction with these keys, with accounts in `reach` only. -/
structure VmRun.Within (keys : List Pubkey) (reach : List IndexOfAccount) (vm : VmRun) : Prop where
  keys : vm.instructionContext.transactionContext.accounts.accountKeys = keys
  accounts : indicesOf vm.instructionContext.instructionAccounts ⊆ reach

/-- All VMs of an invocation were confined, and if it succeeded it has left nothing on the stack. -/
structure Invocation.Within (keys : List Pubkey) (reach : List IndexOfAccount)
    (tx : TransactionContext) (call : Invocation) : Prop where
  vms : ∀ vm ∈ call.execution.finishedVms, vm.Within keys reach
  continues : call.result.isOk = true → tx.Continues call.state.context.transactionContext

def Invoke.Confines (keys : List Pubkey) (reach : List IndexOfAccount) (invoke : Invoke) : Prop :=
  ∀ (s : RuntimeState) (tx : TransactionContext), tx.accounts.accountKeys = keys →
    tx.PreparesWithin reach s.context.transactionContext →
      Ends (·.Within keys reach tx) (fun _ => True) (invoke s)

section Running

variable {keys : List Pubkey} {reach : List IndexOfAccount} {c : InvokeContext}

/-- The VMs of some calls were confined, and the program that runs in `c` can go on if no call has
failed. -/
structure GoesOnWithin (keys : List Pubkey) (reach : List IndexOfAccount) (c : InvokeContext)
    (b : Bool) (vms : List VmRun) (c' : InvokeContext) : Prop where
  vms : ∀ vm ∈ vms, vm.Within keys reach
  continues : b = true → c.transactionContext.Continues c'.transactionContext

theorem GoesOnWithin.of_local {b : Bool} {vms : List VmRun} {c' c'' : InvokeContext}
    (h : GoesOnWithin keys reach c b vms c') (hlocal : Local c' c'') :
    GoesOnWithin keys reach c b vms c'' :=
  ⟨h.vms, fun hb => (h.continues hb).trans (.of_sameInstructions hlocal.instructions)⟩

theorem GoesOnWithin.weaken {b : Bool} {vms : List VmRun} {c' c'' : InvokeContext}
    (h : GoesOnWithin keys reach c b vms c') : GoesOnWithin keys reach c false vms c'' :=
  ⟨h.vms, Bool.noConfusion⟩

theorem VmRun.CreatedIn.within {vm : VmRun} (h : vm.CreatedIn c)
    (hc : c.transactionContext.RunsWithin reach) :
    vm.Within c.transactionContext.accounts.accountKeys reach := by
  obtain ⟨c', hlocal, hcurrent⟩ := h.current
  have hcontinues := TransactionContext.Continues.of_sameInstructions hlocal.instructions
  refine ⟨?_, ((hc.continue hcontinues).view hcurrent).2.2⟩
  rw [TransactionContext.getCurrentInstructionContext_eq hcurrent]
  exact hcontinues.keys

theorem within_rule {invoke : Invoke} (hinvoke : invoke.Confines keys reach)
    (hc : c.transactionContext.RunsWithin reach)
    (hkeys : c.transactionContext.accounts.accountKeys = keys) :
    RunRule invoke c
      (fun b calls c' => GoesOnWithin keys reach c b (Execution.finishedVmsOfCalls calls) c')
      (fun calls c' => (∀ vm ∈ Execution.finishedVmsOfCalls calls, vm.Within keys reach) ∧
        ∃ tx, c.transactionContext.Continues tx ∧ tx.PreparesWithin reach c'.transactionContext)
      (fun b vm calls c' =>
        GoesOnWithin keys reach c b (Execution.finishedVmsOfCalls calls ++ vm.toList) c')
      (fun _ => True) where
  start := ⟨by simp [Execution.finishedVmsOfCalls], fun _ => .refl _⟩
  step := fun h hlocal => h.of_local hlocal
  prepare := by
    intro calls c' instruction signers h
    have hcontinues := h.continues rfl
    refine (prepareNextInstruction_within (hc.continue hcontinues) instruction signers).mono ?_
      fun _ => id
    intro c'' hprepares
    exact ⟨h.vms, _, hcontinues, hprepares⟩
  sync := by
    rintro calls c' c'' ⟨hvms, tx, hcontinues, hprepares⟩ hlocal
    exact ⟨hvms, tx, hcontinues, hprepares.of_sameInstructions hlocal.instructions⟩
  process := by
    rintro calls c' host ⟨hvms, tx, hcontinues, hprepares⟩
    refine (hinvoke ⟨c', host⟩ tx (hcontinues.keys.trans hkeys) hprepares).mono ?_ fun _ => id
    intro call hcall
    refine ⟨?_, fun hok => hcontinues.trans (hcall.continues hok)⟩
    rw [Execution.finishedVmsOfCalls_append, Execution.finishedVmsOfCalls_singleton]
    exact List.forall_mem_append.mpr ⟨hvms, hcall.vms⟩
  weaken := GoesOnWithin.weaken
  abandon := fun h => ⟨h.1, Bool.noConfusion⟩
  panic := fun _ => trivial
  leave := by
    intro b calls c' h
    simpa using h
  collect := by
    intro b calls c' vm h hvm
    refine ⟨List.forall_mem_append.mpr ⟨h.vms, ?_⟩, h.continues⟩
    intro vm' hvm'
    rw [Option.toList_some, List.mem_singleton] at hvm'
    rw [hvm', ← hkeys]
    exact hvm.within hc
  returnedStep := fun h hlocal => h.of_local hlocal
  returnedWeaken := GoesOnWithin.weaken

/-- The induction is on the fuel. -/
theorem processInstructionWithFuel_confines (w : World) (fuel : Nat) :
    (processInstructionWithFuel w fuel).Confines keys reach := by
  induction fuel with
  | zero =>
      intro s tx _ _
      unfold processInstructionWithFuel
      split
      · exact ⟨by simp [Execution.finishedVms], Bool.noConfusion⟩
      · trivial
  | succ fuel ih =>
      intro s tx hkeys hprepares
      unfold processInstructionWithFuel
      split
      · exact ⟨by simp [Execution.finishedVms], Bool.noConfusion⟩
      · rename_i context hpush
        obtain ⟨hok, htx⟩ : s.context.transactionContext.push.1 = .ok () ∧
            context.transactionContext = s.context.transactionContext.push.2 := by
          rcases s.context.push_cases with ⟨err, heq⟩ | heq
          · rw [hpush] at heq
            cases heq
          · rw [hpush, Prod.mk.injEq] at heq
            exact ⟨heq.1.symm, by rw [heq.2]⟩
        obtain ⟨hruns, hleave⟩ := hprepares.push hok
        rw [← htx] at hruns hleave
        have hcontextKeys : context.transactionContext.accounts.accountKeys = keys := by
          rw [htx, ← hkeys, ← hprepares.keys]
          exact s.context.transactionContext.push_grows.keys
        have hchain := (within_rule ih hruns hcontextKeys).processExecutableChain_ends w s.host
        refine (hchain.mono (fun _ => id) fun _ _ => trivial).bind ?_
        rintro chain ⟨vm, calls, hexecution, hreturned⟩
        refine ⟨?_, ?_⟩
        · show ∀ vm ∈ chain.execution.finishedVms, _
          rw [hexecution]
          exact hreturned.vms
        · intro hboth
          have hresult : chain.result.isOk = true := by
            cases hresult : chain.result with
            | ok _ => rfl
            | error err =>
                have hboth' : (andThen chain.result chain.state.context.pop.1).isOk = true := hboth
                rw [hresult] at hboth'
                cases hboth'
          exact hleave (hreturned.continues hresult)

/-- The accounts of all VMs that run on behalf of an instruction are accounts of the instruction. -/
theorem processInstruction_within (w : World) {s : RuntimeState} {tx : TransactionContext}
    (h : tx.PreparesWithin reach s.context.transactionContext) :
    Ends (·.Within tx.accounts.accountKeys reach tx) (fun _ => True) (processInstruction w s) :=
  processInstructionWithFuel_confines w _ s tx rfl h

end Running

end ProgramRuntime
end Gobble
