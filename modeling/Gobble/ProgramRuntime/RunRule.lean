import Gobble.ProgramRuntime.Steps

/-!
# RunRule — the rule for the runs of programs

Whatever is to be shown about nested executions has to go through the same code: the builtin that runs
an instruction, the loaders, the VM, the program in it, and the programs that it invokes.  This file
goes through that code once.  `RunRule` collects what has to be shown about the single steps, and
`processExecutableChain_ends` says that this is enough.
-/

namespace Gobble
namespace ProgramRuntime

open Lib Sbpf Sdk Context

/-- The VM was created for the instruction that is executed in `c`.  Its tracker was new, was told to
watch what the forbidden ranges are for that instruction, and has only been told of reads since. -/
structure VmRun.CreatedIn (c : InvokeContext) (vm : VmRun) : Prop where
  current : ∃ c', Local c c' ∧
    c'.transactionContext.getCurrentInstructionContext = .ok vm.instructionContext
  serialized : ∃ host mode params,
    serializeParameters host vm.instructionContext mode = .ok params ∧
      params.accountsMetadata = vm.accountsMetadata
  created : ∃ vmRanges, forbiddenVmRanges vm.instructionContext vm.accountsMetadata
    c.forbiddenSysvarDataRanges = .ok vmRanges ∧ vm.created = watchRanges .new vmRanges
  finished : ∃ reads, vm.finished = afterReads vm.created reads

/-- The context with the accesses that the tracker of a VM recorded. -/
def InvokeContext.withAccesses (c : InvokeContext) (accesses : List (U64 × U64)) : InvokeContext :=
  { c with forbiddenMemoryAccesses := c.forbiddenMemoryAccesses ++ accesses }

/-- What has to be shown about the program that is executed in `c`.  `state` says how the context and
the calls so far belong together while the program runs, `prepared` the same between preparing an
instruction and processing it, and `returned` when the program has ended.  The truth value tells
whether all calls so far have succeeded. -/
structure RunRule (invoke : Invoke) (c : InvokeContext)
    (state : Bool → List Execution → InvokeContext → Prop)
    (prepared : List Execution → InvokeContext → Prop)
    (returned : Bool → Option VmRun → List Execution → InvokeContext → Prop)
    (aborted : Abort → Prop) : Prop where
  start : state true [] c
  step : ∀ {b calls c' c''}, state b calls c' → Local c' c'' → state b calls c''
  prepare : ∀ {calls c'} (instruction : CheckedInstruction) signers, state true calls c' →
    Ends (prepared calls) (fun _ => True)
      (c'.prepareNextInstruction instruction.toInstruction signers)
  sync : ∀ {calls c' c''}, prepared calls c' → Local c' c'' → prepared calls c''
  process : ∀ {calls c'} host, prepared calls c' →
    Ends (fun call => state call.result.isOk (calls ++ [call.execution]) call.state.context)
      (fun abort => aborted (abort.after calls)) (invoke ⟨c', host⟩)
  weaken : ∀ {calls c'}, state true calls c' → state false calls c'
  abandon : ∀ {calls c'}, prepared calls c' → state false calls c'
  panic : ∀ {b calls c'}, state b calls c' → aborted (.panic calls)
  leave : ∀ {b calls c'}, state b calls c' → returned b none calls c'
  collect : ∀ {b calls c'} {vm : VmRun}, state b calls c' → vm.CreatedIn c →
    returned b (some vm) calls (c'.withAccesses vm.finished.forbiddenAccesses)
  returnedStep : ∀ {b vm calls c' c''}, returned b vm calls c' → Local c' c'' →
    returned b vm calls c''
  returnedWeaken : ∀ {vm calls c'}, returned true vm calls c' → returned false vm calls c'

/-- What the rule says about a builtin that has returned. -/
def Returned.Meets (returned : Bool → Option VmRun → List Execution → InvokeContext → Prop)
    (r : Returned) : Prop :=
  returned r.result.isOk r.vm r.calls r.state.context

namespace RunRule

variable {invoke : Invoke} {c : InvokeContext}
  {state : Bool → List Execution → InvokeContext → Prop}
  {prepared : List Execution → InvokeContext → Prop}
  {returned : Bool → Option VmRun → List Execution → InvokeContext → Prop}
  {aborted : Abort → Prop}

section Machines

variable (h : RunRule invoke c state prepared returned aborted)

include h

/-- Anything is as good as a failed call. -/
theorem state_false {b : Bool} {calls : List Execution} {c' : InvokeContext}
    (hs : state b calls c') : state false calls c' := by
  cases b with
  | false => exact hs
  | true => exact h.weaken hs

theorem returned_false {b : Bool} {vm : Option VmRun} {calls : List Execution} {c' : InvokeContext}
    (hr : returned b vm calls c') : returned false vm calls c' := by
  cases b with
  | false => exact hr
  | true => exact h.returnedWeaken hr

theorem prepare_ends (a : Activation) (instruction : CheckedInstruction) (signers : List Pubkey)
    (ha : state true a.calls a.context) :
    Ends (fun a' => prepared a'.calls a'.context)
      (fun fault => fault = .panic → aborted (.panic a.calls))
      (a.prepareNextInstruction instruction.toInstruction signers) := by
  have hprepare := h.prepare instruction signers ha
  unfold Activation.prepareNextInstruction
  cases heq : a.context.prepareNextInstruction instruction.toInstruction signers with
  | error fault => exact fun _ => h.panic ha
  | ok context =>
      rw [heq] at hprepare
      exact hprepare

theorem process_ends (a : Activation) (ha : prepared a.calls a.context) :
    Ends (fun r => (r.1 = .ok () → state true r.2.calls r.2.context) ∧
        state false r.2.calls r.2.context)
      aborted (a.processInstruction invoke) := by
  have hprocess := h.process a.host ha
  unfold Activation.processInstruction
  cases heq : invoke ⟨a.context, a.host⟩ with
  | error abort =>
      rw [heq] at hprocess
      exact hprocess
  | ok call =>
      rw [heq] at hprocess
      refine ⟨?_, h.state_false hprocess⟩
      intro hok
      have hprocess' : state call.result.isOk (a.calls ++ [call.execution]) call.state.context :=
        hprocess
      rw [show call.result = .ok () from hok] at hprocess'
      exact hprocess'

theorem nativeMachine_invariant :
    nativeMachine.Invariant invoke (fun a => state true a.calls a.context)
      (fun a => prepared a.calls a.context) (fun a => state false a.calls a.context) aborted where
  step := by
    intro op a ha
    obtain ⟨hlocal, hcalls⟩ := contextHandler_local op a
    show state true (contextHandler op a).2.calls (contextHandler op a).2.context
    rw [hcalls]
    exact h.step ha hlocal
  syncStep := by
    intro op a ha
    obtain ⟨hlocal, hcalls⟩ := contextHandler_local op a
    show prepared (contextHandler op a).2.calls (contextHandler op a).2.context
    rw [hcalls]
    exact h.sync ha hlocal
  prepare := fun a instruction signers ha => h.prepare_ends a instruction signers ha
  process := fun a ha => h.process_ends a ha
  running := fun _ ha => h.weaken ha
  prepared := fun _ ha => h.abandon ha

theorem vmMachine_invariant (created : MemoryAccessTracker) :
    vmMachine.Invariant invoke
      (fun v => state true v.activation.calls v.activation.context ∧ Tracks created v.mapping)
      (fun v => prepared v.activation.calls v.activation.context ∧ Tracks created v.mapping)
      (fun v => state false v.activation.calls v.activation.context ∧ Tracks created v.mapping)
      aborted where
  step := by
    rintro op v ⟨hv, htracks⟩
    obtain ⟨hlocal, hcalls⟩ := vmHandler_local op v
    refine ⟨?_, vmHandler_tracks op htracks⟩
    show state true (vmHandler op v).2.activation.calls _
    rw [hcalls]
    exact h.step hv hlocal
  syncStep := by
    rintro op v ⟨hv, htracks⟩
    obtain ⟨hlocal, hcalls⟩ := vmHandler_local op v
    refine ⟨?_, vmHandler_tracks op htracks⟩
    show prepared (vmHandler op v).2.activation.calls _
    rw [hcalls]
    exact h.sync hv hlocal
  prepare := by
    rintro v instruction signers ⟨hv, htracks⟩
    exact (h.prepare_ends v.activation instruction signers hv).mono (fun _ ha => ⟨ha, htracks⟩)
      fun _ => id
  process := by
    rintro v ⟨hv, htracks⟩
    exact (h.process_ends v.activation hv).mono
      (fun _ hr => ⟨fun hok => ⟨hr.1 hok, htracks⟩, hr.2, htracks⟩) fun _ => id
  running := fun _ hv => ⟨h.weaken hv.1, hv.2⟩
  prepared := fun _ hv => ⟨h.abandon hv.1, hv.2⟩

end Machines

/-! ## Builtins -/

section Builtins

variable (h : RunRule invoke c state prepared returned aborted)

include h

theorem runVm_ends (w : World) (exe : LoadedExecutable) {ic : InstructionContext}
    (isLoaderDeprecated : Bool) {params : SerializedParameters} {mapping : MemoryMapping}
    {created : MemoryAccessTracker} (s : RuntimeState) (hs : Local c s.context)
    (htracker : mapping.getAccessTracker = some created)
    (hcreated : ∀ reads, VmRun.CreatedIn c
      ⟨ic, params.accountsMetadata, created, afterReads created reads⟩) :
    Ends (·.Meets returned) aborted
      (runVm w invoke exe ic isLoaderDeprecated params mapping s) := by
  unfold runVm
  have hrun := fun offset : U64 => Machine.runProgram_ends (h.vmMachine_invariant created)
    (fun err => .error (.syscallError err)) (exe.code offset) ⟨⟨s.context, s.host, []⟩, mapping⟩
    ⟨h.step h.start hs, [], htracker⟩
  refine (hrun _).bind ?_
  rintro ⟨programResult, v⟩ ⟨⟨hstate, reads, hreads⟩, hends⟩
  dsimp only at hstate hreads hends ⊢
  have hlist : v.mapping.getForbiddenAccesses = (afterReads created reads).forbiddenAccesses := by
    simp [MemoryMapping.getForbiddenAccesses, hreads]
  -- What the VM recorded is appended after what its callees recorded.
  have hcollect : ∀ {b}, state b v.activation.calls v.activation.context →
      returned b (some ⟨ic, params.accountsMetadata, created, afterReads created reads⟩)
        v.activation.calls (v.activation.context.collectForbiddenAccesses v.mapping) := by
    intro b hb
    rw [collectForbiddenAccesses_eq, hlist]
    exact h.collect hb (hcreated reads)
  simp only [htracker, hreads]
  have hresult := resultOfProgram_local w
    (accountRegionAddrs isLoaderDeprecated params.accountsMetadata)
    (v.activation.context.collectForbiddenAccesses v.mapping) programResult
  split
  · exact h.panic hstate
  · rename_i err context heq
    rw [heq] at hresult
    exact h.returnedStep (hcollect hstate) hresult
  · rename_i context heq
    rw [heq] at hresult
    have hlocal := hresult.trans (writeBack_local params v.activation.host context)
    -- The result is not an error, so no call has failed.
    have hrunning : state true v.activation.calls v.activation.context := by
      rcases hends with hrunning | ⟨err, rfl⟩
      · exact hrunning.1
      · unfold resultOfProgram at heq
        dsimp only at heq
        split at heq <;> cases heq
    have hreturned := h.returnedStep (hcollect hrunning) hlocal
    show returned (writeBack params v.activation.host context).1.isOk _ _ _
    cases (writeBack params v.activation.host context).1.isOk with
    | true => exact hreturned
    | false => exact h.returnedWeaken hreturned

/-- An error before any program code ran. -/
theorem failed_ends (err : BoxedError) (s : RuntimeState) (hs : Local c s.context) :
    (Returned.failed err s).Meets returned :=
  h.returned_false (h.leave (h.step h.start hs))

theorem execute_ends (w : World) (exe : LoadedExecutable) (s : RuntimeState)
    (hs : Local c s.context) :
    Ends (·.Meets returned) aborted (execute w invoke exe s) := by
  rw [execute]
  dsimp only
  split
  · exact h.failed_ends _ s hs
  · rename_i ic isLoaderDeprecated hprogram
    split
    · exact h.panic h.start
    · exact h.failed_ends _ s hs
    · rename_i params hparams
      split
      · exact h.panic h.start
      · rename_i vmRanges hranges
        split
        · exact h.panic h.start
        · rename_i err context hcreate
          exact h.failed_ends _ _ (hs.trans (payAndCreateVm_local hcreate).1)
        · rename_i mapping context hcreate
          obtain ⟨hlocal, hnew⟩ := payAndCreateVm_local hcreate
          obtain ⟨ic', hic, hrest⟩ := bind_eq_ok hprogram
          obtain ⟨key, -, hrest⟩ := bind_eq_ok hrest
          obtain ⟨owner, -, hrest⟩ := bind_eq_ok hrest
          cases hrest
          refine h.runVm_ends w exe _ _ (hs.trans hlocal)
            (watchMemoryRanges_tracker hnew vmRanges) fun reads => ?_
          exact {
            current := ⟨s.context, hs, hic⟩
            serialized := ⟨_, _, params, hparams, rfl⟩
            created := ⟨vmRanges, by rw [← hs.ranges]; exact hranges, rfl⟩
            finished := ⟨reads, rfl⟩ }

theorem runNative_ends (code : NativeCode) (s : RuntimeState) (hs : Local c s.context) :
    Ends (·.Meets returned) aborted (runNative invoke code s) := by
  unfold runNative
  have hrun := Machine.runProgram_ends h.nativeMachine_invariant .error code
    ⟨s.context, s.host, []⟩ (h.step h.start hs)
  refine hrun.bind ?_
  rintro ⟨result, a⟩ ⟨hstate, hends⟩
  cases result with
  | error err => exact h.leave hstate
  | ok value =>
      rcases hends with hrunning | ⟨err, herr⟩
      · exact h.leave hrunning
      · cases herr

theorem charged_ends (amount : U64) (s : RuntimeState) (next : RuntimeState → Except Abort Returned)
    (hs : Local c s.context)
    (hnext : ∀ s' : RuntimeState, Local c s'.context → Ends (·.Meets returned) aborted (next s')) :
    Ends (·.Meets returned) aborted (charged amount s next) := by
  unfold charged
  split
  · rename_i err context hpaid
    exact h.failed_ends err _ (hs.trans (consumeChecked_local hpaid))
  · rename_i context hpaid
    exact hnext ⟨context, s.host⟩ (hs.trans (consumeChecked_local hpaid))

theorem invokeProgram_ends (w : World) (programId : Pubkey) (s : RuntimeState)
    (hs : Local c s.context) :
    Ends (·.Meets returned) aborted (invokeProgram w invoke programId s) := by
  unfold invokeProgram
  split
  · exact h.execute_ends w _ s hs
  · exact h.failed_ends _ s hs

/-- The entrypoint of any builtin. -/
theorem entrypoint_ends (w : World) (builtin : BuiltinId) (s : RuntimeState)
    (hs : Local c s.context) :
    Ends (·.Meets returned) aborted (builtin.entrypoint w invoke s) := by
  have hunsupported : ∀ s' : RuntimeState, Local c s'.context →
      Ends (·.Meets returned) aborted
        (.ok (Returned.failed (.instruction .unsupportedProgramId) s')) :=
    fun s' hs' => h.failed_ends _ s' hs'
  cases builtin with
  | native program => exact h.runNative_ends _ s hs
  | bpfLoader =>
      unfold BuiltinId.entrypoint bpfLoaderEntrypoint
      dsimp only
      split
      · exact h.failed_ends _ s hs
      · split
        · split
          · exact h.charged_ends _ s _ hs (h.runNative_ends _)
          · split
            · exact h.charged_ends _ s _ hs hunsupported
            · split
              · exact h.charged_ends _ s _ hs hunsupported
              · exact hunsupported s hs
        · exact h.invokeProgram_ends w _ s hs
  | loaderV4 =>
      unfold BuiltinId.entrypoint loaderV4Entrypoint
      dsimp only
      split
      · exact h.failed_ends _ s hs
      · split
        · exact h.charged_ends _ s _ hs (h.runNative_ends _)
        · exact h.invokeProgram_ends w _ s hs

end Builtins

/-- The rule: a program that is entered in `c` ends as `returned` says, or aborts. -/
theorem processExecutableChain_ends (w : World) (host : ByteMemory)
    (h : RunRule invoke c state prepared returned aborted) :
    Ends (fun call => ∃ vm calls, call.execution = .entered c vm calls ∧
        returned call.result.isOk vm calls call.state.context)
      (fun abort => ∃ inner, aborted inner ∧ abort = inner.inside c)
      (processExecutableChain w invoke ⟨c, host⟩) := by
  unfold processExecutableChain
  dsimp only
  split
  · exact ⟨none, [], rfl, h.returned_false (h.leave h.start)⟩
  · rename_i builtinId programId function hbuiltin
    have hentrypoint := h.entrypoint_ends w function ⟨_, host⟩ (setReturnData_local c programId [])
    refine (hentrypoint.mapError fun abort habort => ⟨abort, habort, rfl⟩).bind ?_
    intro r hr
    refine ⟨r.vm, r.calls, rfl, ?_⟩
    have hmapped : (r.result.mapError instructionErrorOf).isOk = r.result.isOk := by
      cases r.result <;> rfl
    dsimp only
    split
    · exact h.returned_false hr
    · rw [hmapped]
      exact hr

end RunRule

end ProgramRuntime
end Gobble
