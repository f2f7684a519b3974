import Gobble.ProgramRuntime.WriteBack

/-!
# GuardedRule — the rule for the accounts in runs of guarded programs

`RunRule` says what has to be shown about the steps of any program.  It cannot speak of the accounts,
since a program of which nothing is known may set them to anything.  For guarded programs there is
more to say: every step is an edit under the authority of the instruction that is executed.
`GuardedRule` collects what has to be shown about such steps, and `processExecutableChain_guarded` goes
once through the code that runs an instruction.
-/

namespace Gobble
namespace Context

open Lib Sbpf Sdk ProgramRuntime

namespace TransactionContext

variable {tx tx' tx'' : TransactionContext}

/-- The authority of the instruction that is executed. -/
def authority (tx : TransactionContext) : Authority :=
  match tx.getCurrentInstructionContext with
  | .ok ic => ic.authority
  | .error _ => ⟨[], none⟩

/-- The instruction that is executed has changed accounts, and maybe the return data. -/
def Edits (tx tx' : TransactionContext) : Prop :=
  ∃ accounts returnData, tx.authority.Edits tx.accounts accounts ∧
    tx' = { tx with accounts, returnData }

/-- Authority is a matter of the instructions and the keys. -/
theorem SameInstructions.authority_eq (h : tx.SameInstructions tx') : tx'.authority = tx.authority := by
  obtain ⟨accounts, returnData, hkeys, rfl⟩ := h
  simp only [authority, getCurrentInstructionContext, getCurrentInstructionIndex]
  cases tx.instructionStack.getLast? with
  | none => rfl
  | some index =>
      simp only [Bind.bind, Except.bind, getInstructionContextAtIndexInTrace]
      cases tx.instructionTrace[index]? with
      | none => rfl
      | some frame =>
          simp only [InstructionContext.authority, TransactionAccounts.accountKey_eq_getElem?, hkeys]

namespace Edits

theorem refl (tx : TransactionContext) : tx.Edits tx :=
  ⟨tx.accounts, tx.returnData, .refl _ _, rfl⟩

theorem sameInstructions (h : tx.Edits tx') : tx.SameInstructions tx' := by
  obtain ⟨accounts, returnData, hedits, rfl⟩ := h
  exact ⟨accounts, returnData, hedits.keys, rfl⟩

end Edits

/-- Setting the return data is an edit of no account. -/
theorem setReturnData_edits (tx : TransactionContext) (programId : Pubkey) (data : List UInt8) :
    tx.Edits (tx.setReturnData programId data) :=
  ⟨tx.accounts, (programId, data), .refl _ _, rfl⟩

end TransactionContext

end Context

namespace ProgramRuntime

open Lib Sbpf Sdk Context

/-! ## Steps -/

/-- A change of an account is one by the instruction that is executed. -/
theorem changeAccount_edits {c : InvokeContext} {index : IndexOfAccount} {change : AccountChange}
    {b : BorrowedInstructionAccount} {accounts : TransactionAccounts}
    (h : c.changeAccount index change = .ok (b, accounts)) :
    c.transactionContext.Edits { c.transactionContext with accounts } := by
  obtain ⟨ic, borrowed, hic, hborrow, hobeys⟩ := changeAccount_ok h
  obtain ⟨hmem, hprogram, hof⟩ := tryBorrowInstructionAccount_ok hborrow
  refine ⟨accounts, c.transactionContext.returnData, .single ⟨borrowed, b, ?_, ?_, hobeys⟩, rfl⟩
  · rw [TransactionContext.authority, hic]
    exact ⟨hmem, hprogram⟩
  · rwa [TransactionContext.getCurrentInstructionContext_eq hic] at hof

theorem guardedHandler_edits (op : GuardedOp) (a : Activation) :
    a.context.transactionContext.Edits (guardedHandler op a).2.context.transactionContext ∧
      (guardedHandler op a).2.calls = a.calls := by
  cases op with
  | getContext => exact ⟨.refl _, rfl⟩
  | consume amount => exact ⟨.refl _, rfl⟩
  | setReturnData programId data => exact ⟨TransactionContext.setReturnData_edits _ _ _, rfl⟩
  | change index change =>
      unfold guardedHandler
      dsimp only
      cases hchange : a.context.changeAccount index change with
      | error err => exact ⟨.refl _, rfl⟩
      | ok r => exact ⟨changeAccount_edits hchange, rfl⟩
  | replenish key entry => exact ⟨.refl _, rfl⟩
  | setSyscallContext syscallContext =>
      unfold guardedHandler contextHandler
      dsimp only
      cases heq : a.context.setSyscallContext syscallContext with
      | error err => exact ⟨.refl _, rfl⟩
      | ok context =>
          unfold InvokeContext.setSyscallContext at heq
          split at heq
          · cases heq
          · cases heq
            exact ⟨.refl _, rfl⟩

theorem guardedVmHandler_edits (op : GuardedVmOp) (v : VmActivation) :
    v.activation.context.transactionContext.Edits
        (guardedVmHandler op v).2.activation.context.transactionContext ∧
      (guardedVmHandler op v).2.activation.calls = v.activation.calls := by
  cases op with
  | access handler op => exact ⟨.refl _, rfl⟩
  | findRegion vmAddr => exact ⟨.refl _, rfl⟩
  | replaceRegion index region =>
      unfold guardedVmHandler vmHandler
      dsimp only
      cases v.mapping.replaceRegion index region with
      | error err => exact ⟨.refl _, rfl⟩
      | ok mapping => exact ⟨.refl _, rfl⟩
  | context op => exact guardedHandler_edits op v.activation

/-! ## Around the run of a VM -/

theorem payAndCreateVm_transactionContext (exe : LoadedExecutable) (host : HostAllocation)
    (params : SerializedParameters) (c : InvokeContext) :
    (exe.payAndCreateVm host params c).2.transactionContext = c.transactionContext := by
  rw [LoadedExecutable.payAndCreateVm, InvokeContext.consumeChecked]
  split
  · rename_i heq
    obtain ⟨-, rfl⟩ := Prod.mk.inj heq
    rfl
  · rename_i heq
    obtain ⟨-, rfl⟩ := Prod.mk.inj heq
    rw [LoadedExecutable.createVm]
    dsimp only
    split
    · rfl
    · rfl
    · unfold InvokeContext.setSyscallContext
      split
      · rfl
      · rename_i heq
        split at heq
        · cases heq
        · cases heq
          rfl

theorem resultOfProgram_transactionContext (w : World) (regionAddrs : List AddrRange)
    (c : InvokeContext) (programResult : ProgramResult) :
    Ends (fun r => r.2.transactionContext = c.transactionContext) (fun _ => True)
      (resultOfProgram w regionAddrs c programResult) := by
  have hmeter : ∀ b : Bool, (if b then c.consume c.computeMeter else c).transactionContext =
      c.transactionContext := by
    intro b
    cases b <;> rfl
  cases programResult with
  | ok status =>
      unfold resultOfProgram
      dsimp only
      split <;> rfl
  | error error =>
      unfold resultOfProgram
      dsimp only
      split
      · exact hmeter _
      · exact hmeter _
      · trivial

/-- The parameters are written back by the instruction that is executed. -/
theorem writeBack_edits (params : SerializedParameters) (host : ByteMemory) (c : InvokeContext) :
    c.transactionContext.Edits (writeBack params host c).2.transactionContext := by
  unfold writeBack
  dsimp only
  split
  · exact .refl _
  · rename_i ic syscallContext hcontext
    obtain ⟨ic', hic, hrest⟩ := bind_eq_ok hcontext
    obtain ⟨syscallContext', -, hrest⟩ := bind_eq_ok hrest
    cases hrest
    have hkeys : c.transactionContext.accounts.accountKeys =
        ic.transactionContext.accounts.accountKeys := by
      rw [TransactionContext.getCurrentInstructionContext_eq hic]
    refine ⟨_, c.transactionContext.returnData, ?_, rfl⟩
    rw [TransactionContext.authority, hic]
    exact (deserializeParameters_runs hkeys _ _ _).kept

/-! ## The rule -/

/-- What has to be shown about a guarded program that is executed in `tx`.  `running` says how the
transaction and the calls so far belong together while the program runs, `prepared` the same between
preparing an instruction and processing it, and `ended` what is left of it when a call has failed. -/
structure GuardedRule (invoke : Invoke) (tx : TransactionContext)
    (running prepared : List Execution → TransactionContext → Prop)
    (ended : List Execution → TransactionAccounts → Prop) : Prop where
  start : running [] tx
  step : ∀ {calls tx' tx''}, running calls tx' → tx'.Edits tx'' → running calls tx''
  prepare : ∀ {calls} {c : InvokeContext} (instruction : CheckedInstruction) signers,
    running calls c.transactionContext →
      Ends (fun c' => prepared calls c'.transactionContext) (fun _ => True)
        (c.prepareNextInstruction instruction.toInstruction signers)
  sync : ∀ {calls tx' tx''}, prepared calls tx' → tx'.Edits tx'' → prepared calls tx''
  process : ∀ {calls} {c : InvokeContext} host, prepared calls c.transactionContext →
    Ends (fun call =>
        (call.result = .ok () →
          running (calls ++ [call.execution]) call.state.context.transactionContext) ∧
        ended (calls ++ [call.execution]) call.state.context.transactionContext.accounts)
      (fun _ => True) (invoke ⟨c, host⟩)
  stop : ∀ {calls tx'}, running calls tx' → ended calls tx'.accounts
  abandon : ∀ {calls tx'}, prepared calls tx' → ended calls tx'.accounts

/-- What the rule says about a builtin that has returned. -/
def Returned.Follows (running : List Execution → TransactionContext → Prop)
    (ended : List Execution → TransactionAccounts → Prop) (r : Returned) : Prop :=
  (r.result.isOk = true → running r.calls r.state.context.transactionContext) ∧
    ended r.calls r.state.context.transactionContext.accounts

namespace GuardedRule

variable {invoke : Invoke} {tx : TransactionContext}
  {running prepared : List Execution → TransactionContext → Prop}
  {ended : List Execution → TransactionAccounts → Prop}

section Machines

variable (h : GuardedRule invoke tx running prepared ended)

include h

theorem prepare_ends (a : Activation) (instruction : CheckedInstruction) (signers : List Pubkey)
    (ha : running a.calls a.context.transactionContext) :
    Ends (fun a' => prepared a'.calls a'.context.transactionContext) (fun _ => True)
      (a.prepareNextInstruction instruction.toInstruction signers) :=
  (h.prepare instruction signers ha).bind fun _ hprepared => hprepared

theorem process_ends (a : Activation) (ha : prepared a.calls a.context.transactionContext) :
    Ends (fun r => (r.1 = .ok () → running r.2.calls r.2.context.transactionContext) ∧
        ended r.2.calls r.2.context.transactionContext.accounts)
      (fun _ => True) (a.processInstruction invoke) := by
  have hprocess := h.process a.host ha
  unfold Activation.processInstruction
  cases heq : invoke ⟨a.context, a.host⟩ with
  | error abort => trivial
  | ok call =>
      rw [heq] at hprocess
      exact hprocess

theorem guardedMachine_invariant :
    guardedMachine.Invariant invoke (fun a => running a.calls a.context.transactionContext)
      (fun a => prepared a.calls a.context.transactionContext)
      (fun a => ended a.calls a.context.transactionContext.accounts) (fun _ => True) where
  step := by
    intro op a ha
    obtain ⟨hedits, hcalls⟩ := guardedHandler_edits op a
    show running (guardedHandler op a).2.calls _
    rw [hcalls]
    exact h.step ha hedits
  syncStep := by
    intro op a ha
    obtain ⟨hedits, hcalls⟩ := guardedHandler_edits op a
    show prepared (guardedHandler op a).2.calls _
    rw [hcalls]
    exact h.sync ha hedits
  prepare := fun a instruction signers ha =>
    (h.prepare_ends a instruction signers ha).mono (fun _ => id) fun _ _ _ => trivial
  process := fun a ha => h.process_ends a ha
  running := fun _ ha => h.stop ha
  prepared := fun _ ha => h.abandon ha

theorem guardedVmMachine_invariant :
    guardedVmMachine.Invariant invoke
      (fun v => running v.activation.calls v.activation.context.transactionContext)
      (fun v => prepared v.activation.calls v.activation.context.transactionContext)
      (fun v => ended v.activation.calls v.activation.context.transactionContext.accounts)
      (fun _ => True) where
  step := by
    intro op v hv
    obtain ⟨hedits, hcalls⟩ := guardedVmHandler_edits op v
    show running (guardedVmHandler op v).2.activation.calls _
    rw [hcalls]
    exact h.step hv hedits
  syncStep := by
    intro op v hv
    obtain ⟨hedits, hcalls⟩ := guardedVmHandler_edits op v
    show prepared (guardedVmHandler op v).2.activation.calls _
    rw [hcalls]
    exact h.sync hv hedits
  prepare := fun v instruction signers hv =>
    (h.prepare_ends v.activation instruction signers hv).mono (fun _ => id) fun _ _ _ => trivial
  process := fun v hv => h.process_ends v.activation hv
  running := fun _ hv => h.stop hv
  prepared := fun _ hv => h.abandon hv

end Machines

/-! ## Builtins -/

section Builtins

variable (h : GuardedRule invoke tx running prepared ended)

include h

/-- A builtin that has come to its end in `tx'`. -/
theorem follows {r : Returned} {tx' : TransactionContext}
    (htx : tx'.Edits r.state.context.transactionContext) (hr : running r.calls tx') :
    r.Follows running ended :=
  ⟨fun _ => h.step hr htx, h.stop (h.step hr htx)⟩

/-- An error before any program code ran. -/
theorem failed_follows (err : BoxedError) (s : RuntimeState)
    (hs : tx.Edits s.context.transactionContext) :
    (Returned.failed err s).Follows running ended :=
  h.follows (r := Returned.failed err s) hs h.start

theorem runVm_follows (w : World) (exe : GuardedExecutable) (ic : InstructionContext)
    (isLoaderDeprecated : Bool) (params : SerializedParameters) (mapping : MemoryMapping)
    (s : RuntimeState) (hs : tx.Edits s.context.transactionContext) :
    Ends (·.Follows running ended) (fun _ => True)
      (runVm w invoke exe.loaded ic isLoaderDeprecated params mapping s) := by
  unfold runVm
  have hrun := fun offset : U64 => Machine.runProgram_ends h.guardedVmMachine_invariant
    (fun err => .error (.syscallError err)) (exe.code offset) ⟨⟨s.context, s.host, []⟩, mapping⟩
    (h.step h.start hs)
  simp only [GuardedExecutable.loaded, runProgram_vmCode]
  refine (hrun _).bind ?_
  rintro ⟨programResult, v⟩ ⟨hended, hends⟩
  dsimp only at hended hends ⊢
  have hcollect : (v.activation.context.collectForbiddenAccesses v.mapping).transactionContext =
      v.activation.context.transactionContext := by
    rw [collectForbiddenAccesses_eq]
  have hresult := resultOfProgram_transactionContext w
    (accountRegionAddrs isLoaderDeprecated params.accountsMetadata)
    (v.activation.context.collectForbiddenAccesses v.mapping) programResult
  split
  · trivial
  · rename_i err context heq
    rw [heq] at hresult
    have htx : context.transactionContext = v.activation.context.transactionContext :=
      hresult.trans hcollect
    refine ⟨Bool.noConfusion, ?_⟩
    show ended v.activation.calls context.transactionContext.accounts
    rw [htx]
    exact hended
  · rename_i context heq
    rw [heq] at hresult
    have htx : context.transactionContext = v.activation.context.transactionContext :=
      hresult.trans hcollect
    -- The result is not an error, so no call has failed.
    have hrunning : running v.activation.calls context.transactionContext := by
      rw [htx]
      rcases hends with hrunning | ⟨err, rfl⟩
      · exact hrunning
      · unfold resultOfProgram at heq
        dsimp only at heq
        split at heq <;> cases heq
    exact h.follows (writeBack_edits params v.activation.host context) hrunning

theorem execute_follows (w : World) (exe : GuardedExecutable) (s : RuntimeState)
    (hs : tx.Edits s.context.transactionContext) :
    Ends (·.Follows running ended) (fun _ => True) (execute w invoke exe.loaded s) := by
  rw [execute]
  dsimp only
  split
  · exact h.failed_follows _ s hs
  · split
    · trivial
    · exact h.failed_follows _ s hs
    · rename_i params hparams
      split
      · trivial
      · have hpaid := payAndCreateVm_transactionContext exe.loaded (w.allocate s) params s.context
        split
        · trivial
        · rename_i err context hcreate
          rw [hcreate] at hpaid
          refine h.failed_follows _ _ ?_
          show tx.Edits context.transactionContext
          rw [hpaid]
          exact hs
        · rename_i mapping context hcreate
          rw [hcreate] at hpaid
          refine h.runVm_follows w exe _ _ _ _ _ ?_
          show tx.Edits context.transactionContext
          rw [hpaid]
          exact hs

theorem runNative_follows (code : GuardedNativeCode) (s : RuntimeState)
    (hs : tx.Edits s.context.transactionContext) :
    Ends (·.Follows running ended) (fun _ => True) (runNative invoke code.code s) := by
  unfold runNative
  rw [runProgram_nativeCode]
  have hrun := Machine.runProgram_ends h.guardedMachine_invariant .error code
    ⟨s.context, s.host, []⟩ (h.step h.start hs)
  refine hrun.bind ?_
  rintro ⟨result, a⟩ ⟨hended, hends⟩
  cases result with
  | error err => exact ⟨Bool.noConfusion, hended⟩
  | ok value =>
      rcases hends with hrunning | ⟨err, herr⟩
      · exact h.follows (.refl _) hrunning
      · cases herr

theorem charged_follows (amount : U64) (s : RuntimeState)
    (next : RuntimeState → Except Abort Returned) (hs : tx.Edits s.context.transactionContext)
    (hnext : ∀ s' : RuntimeState, tx.Edits s'.context.transactionContext →
      Ends (·.Follows running ended) (fun _ => True) (next s')) :
    Ends (·.Follows running ended) (fun _ => True) (charged amount s next) := by
  unfold charged InvokeContext.consumeChecked
  split
  · rename_i err context hpaid
    obtain ⟨-, rfl⟩ := Prod.mk.inj hpaid
    exact h.failed_follows err _ hs
  · rename_i context hpaid
    obtain ⟨-, rfl⟩ := Prod.mk.inj hpaid
    exact hnext ⟨_, s.host⟩ hs

theorem invokeProgram_follows (w : GuardedWorld) (programId : Pubkey) (s : RuntimeState)
    (hs : tx.Edits s.context.transactionContext) :
    Ends (·.Follows running ended) (fun _ => True) (invokeProgram w.world invoke programId s) := by
  unfold invokeProgram
  split
  · exact h.execute_follows w.world _ s hs
  · exact h.failed_follows _ s hs

/-- The entrypoint of any builtin. -/
theorem entrypoint_follows (w : GuardedWorld) (builtin : BuiltinId) (s : RuntimeState)
    (hs : tx.Edits s.context.transactionContext) :
    Ends (·.Follows running ended) (fun _ => True) (builtin.entrypoint w.world invoke s) := by
  have hunsupported : ∀ s' : RuntimeState, tx.Edits s'.context.transactionContext →
      Ends (·.Follows running ended) (fun _ => True)
        (.ok (Returned.failed (.instruction .unsupportedProgramId) s') : Except Abort Returned) :=
    fun s' hs' => h.failed_follows _ s' hs'
  cases builtin with
  | native program => exact h.runNative_follows _ s hs
  | bpfLoader =>
      unfold BuiltinId.entrypoint bpfLoaderEntrypoint
      dsimp only
      split
      · exact h.failed_follows _ s hs
      · split
        · split
          · exact h.charged_follows _ s _ hs (h.runNative_follows _)
          · split
            · exact h.charged_follows _ s _ hs hunsupported
            · split
              · exact h.charged_follows _ s _ hs hunsupported
              · exact hunsupported s hs
        · exact h.invokeProgram_follows w _ s hs
  | loaderV4 =>
      unfold BuiltinId.entrypoint loaderV4Entrypoint
      dsimp only
      split
      · exact h.failed_follows _ s hs
      · split
        · exact h.charged_follows _ s _ hs (h.runNative_follows _)
        · exact h.invokeProgram_follows w _ s hs

end Builtins

/-- The rule: how an instruction that was entered in `c` ends. -/
theorem processExecutableChain_guarded (w : GuardedWorld) (c : InvokeContext) (host : ByteMemory)
    (h : GuardedRule invoke c.transactionContext running prepared ended) :
    Ends (fun call => ∃ vm calls, call.execution = .entered c vm calls ∧
        (call.result.isOk = true → running calls call.state.context.transactionContext) ∧
        ended calls call.state.context.transactionContext.accounts)
      (fun _ => True) (processExecutableChain w.world invoke ⟨c, host⟩) := by
  unfold processExecutableChain
  dsimp only
  split
  · exact ⟨none, [], rfl, Bool.noConfusion, h.stop h.start⟩
  · rename_i builtinId programId function hbuiltin
    have hentrypoint := h.entrypoint_follows w function
      ⟨{ c with transactionContext := c.transactionContext.setReturnData programId [] }, host⟩
      (c.transactionContext.setReturnData_edits programId [])
    refine (hentrypoint.mapError fun _ _ => trivial).bind ?_
    rintro r ⟨hrunning, hended⟩
    refine ⟨r.vm, r.calls, rfl, ?_, hended⟩
    have hmapped : (r.result.mapError instructionErrorOf).isOk = r.result.isOk := by
      cases r.result <;> rfl
    dsimp only
    split
    · exact Bool.noConfusion
    · rw [hmapped]
      exact hrunning

end GuardedRule

end ProgramRuntime
end Gobble
