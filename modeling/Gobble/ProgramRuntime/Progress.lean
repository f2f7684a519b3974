import Gobble.ProgramRuntime.RunRule

/-!
# Progress — what nested executions do to the context

A program can invoke programs that invoke programs, any of them can fail at any point, and all of
them work on one context.  `Progress` collects what holds between two contexts when programs have
run in between.  Each operation of a running program makes progress, progress is transitive, and so
an induction on the depth of the nesting gives it for `process_instruction`.

The main result is that the list of forbidden accesses in the context is the concatenation of what
the trackers of the VMs recorded, in the order in which the VMs finished.
-/

namespace Gobble
namespace ProgramRuntime

open Lib Sbpf Sdk Context

/-! ## Lists of calls -/

namespace Execution

@[simp] theorem finishedVmsOfCalls_append (calls calls' : List Execution) :
    finishedVmsOfCalls (calls ++ calls') = finishedVmsOfCalls calls ++ finishedVmsOfCalls calls' := by
  induction calls with
  | nil => rfl
  | cons call calls ih => simp [finishedVmsOfCalls, ih]

@[simp] theorem entriesOfCalls_append (calls calls' : List Execution) :
    entriesOfCalls (calls ++ calls') = entriesOfCalls calls ++ entriesOfCalls calls' := by
  induction calls with
  | nil => rfl
  | cons call calls ih => simp [entriesOfCalls, ih]

@[simp] theorem finishedVmsOfCalls_singleton (call : Execution) :
    finishedVmsOfCalls [call] = call.finishedVms := by
  simp [finishedVmsOfCalls]

@[simp] theorem entriesOfCalls_singleton (call : Execution) :
    entriesOfCalls [call] = call.entries := by
  simp [entriesOfCalls]

end Execution

/-- The contexts in which programs had been entered before a panic. -/
def Abort.entries : Abort → List InvokeContext
  | .panic calls => Execution.entriesOfCalls calls
  | .outOfFuel => []

/-- All of them have the property. -/
def Abort.Entered (P : InvokeContext → Prop) (abort : Abort) : Prop :=
  ∀ entry ∈ abort.entries, P entry

namespace Abort.Entered

variable {P : InvokeContext → Prop} {abort : Abort}

theorem after (h : abort.Entered P) {calls : List Execution}
    (hcalls : ∀ entry ∈ Execution.entriesOfCalls calls, P entry) : (abort.after calls).Entered P := by
  cases abort with
  | outOfFuel => exact h
  | panic more =>
      show ∀ entry ∈ Execution.entriesOfCalls (calls ++ more), P entry
      rw [Execution.entriesOfCalls_append]
      exact List.forall_mem_append.mpr ⟨hcalls, h⟩

theorem inside (h : abort.Entered P) {c : InvokeContext} (hc : P c) :
    (abort.inside c).Entered P := by
  cases abort with
  | outOfFuel => exact h
  | panic calls =>
      show ∀ entry ∈ Execution.entriesOfCalls [.entered c none calls], P entry
      rw [Execution.entriesOfCalls_singleton]
      exact List.forall_mem_cons.mpr ⟨hc, h⟩

theorem outOfFuel : Abort.outOfFuel.Entered P :=
  fun _ h => absurd h List.not_mem_nil

end Abort.Entered

/-! ## Progress -/

/-- The tracker of a VM was new, was told to watch what the forbidden ranges are for the VM's own
instruction, and from then on has only been told of reads. -/
structure VmRun.Watched (ranges : List AddrRange) (vm : VmRun) : Prop where
  own : vm.instructionContext.transactionContext.getCurrentInstructionContext =
    .ok vm.instructionContext
  serialized : ∃ host mode params,
    serializeParameters host vm.instructionContext mode = .ok params ∧
      params.accountsMetadata = vm.accountsMetadata
  created : ∃ vmRanges, forbiddenVmRanges vm.instructionContext vm.accountsMetadata ranges =
    .ok vmRanges ∧ vm.created = watchRanges .new vmRanges
  finished : ∃ reads, vm.finished = afterReads vm.created reads

/-- The accesses that the trackers of some VMs recorded. -/
def recordedBy (vms : List VmRun) : List (U64 × U64) :=
  vms.flatMap fun vm => vm.finished.forbiddenAccesses

/-- A program was entered while the top-level instruction of `c` was executed, and the instructions
sysvar says so. -/
structure EnteredDuring (c entry : InvokeContext) : Prop where
  topLevel : entry.transactionContext.topLevelInstructionIndex =
    c.transactionContext.topLevelInstructionIndex
  keys : entry.transactionContext.accounts.accountKeys = c.transactionContext.accounts.accountKeys
  stored : entry.transactionContext.StoresTopLevelIndex

/-- Inside of an instruction, with enough fuel for the frames that still fit on the stack. -/
structure InvokeContext.Ready (fuel : Nat) (c : InvokeContext) : Prop where
  entered : 0 < c.getStackHeight
  fuel : c.transactionContext.instructionStackCapacity ≤ c.getStackHeight + fuel

/-- Between `c` and `c'` programs have been entered in the contexts `entries`, and `vms` are the VMs
that finished. -/
structure Progress (c : InvokeContext) (vms : List VmRun) (entries : List InvokeContext)
    (c' : InvokeContext) : Prop where
  ranges : c'.forbiddenSysvarDataRanges = c.forbiddenSysvarDataRanges
  accesses : c'.forbiddenMemoryAccesses = c.forbiddenMemoryAccesses ++ recordedBy vms
  watched : ∀ vm ∈ vms, vm.Watched c.forbiddenSysvarDataRanges
  capacity : c'.transactionContext.instructionStackCapacity =
    c.transactionContext.instructionStackCapacity
  height : c.getStackHeight ≤ c'.getStackHeight
  topLevel : 0 < c.getStackHeight → c'.transactionContext.topLevelInstructionIndex =
    c.transactionContext.topLevelInstructionIndex
  keys : c'.transactionContext.accounts.accountKeys = c.transactionContext.accounts.accountKeys
  entered : ∀ entry ∈ entries, EnteredDuring c entry
  /-- What was recorded when a program was entered is still there. -/
  kept : ∀ entry ∈ entries, entry.forbiddenMemoryAccesses <+: c'.forbiddenMemoryAccesses

theorem EnteredDuring.of_progress {c c' entry : InvokeContext} {vms : List VmRun}
    {entries : List InvokeContext} (h : EnteredDuring c' entry) (hc : Progress c vms entries c')
    (hheight : 0 < c.getStackHeight) : EnteredDuring c entry :=
  ⟨h.topLevel.trans (hc.topLevel hheight), h.keys.trans hc.keys, h.stored⟩

namespace Progress

variable {c c' c'' : InvokeContext} {vms vms' : List VmRun} {entries entries' : List InvokeContext}

/-- A step that is not about programs. -/
theorem of_grows (hranges : c'.forbiddenSysvarDataRanges = c.forbiddenSysvarDataRanges)
    (haccesses : c'.forbiddenMemoryAccesses = c.forbiddenMemoryAccesses)
    (hgrows : c.transactionContext.Grows c'.transactionContext) : Progress c [] [] c' where
  ranges := hranges
  accesses := by simp [haccesses, recordedBy]
  watched := by simp
  capacity := hgrows.capacity
  height := hgrows.height
  topLevel := fun _ => hgrows.topLevel
  keys := hgrows.keys
  entered := by simp
  kept := by simp

theorem of_local (h : Local c c') : Progress c [] [] c' :=
  of_grows h.ranges h.accesses h.instructions.grows

theorem refl (c : InvokeContext) : Progress c [] [] c :=
  of_local (.refl c)

/-- Inside of an instruction progress adds up. -/
theorem trans (h : Progress c vms entries c') (h' : Progress c' vms' entries' c'')
    (hheight : 0 < c.getStackHeight) : Progress c (vms ++ vms') (entries ++ entries') c'' where
  ranges := h'.ranges.trans h.ranges
  accesses := by
    rw [h'.accesses, h.accesses, List.append_assoc]
    simp [recordedBy]
  watched := by
    intro vm hvm
    rcases List.mem_append.mp hvm with hvm | hvm
    · exact h.watched vm hvm
    · have := h'.watched vm hvm
      rwa [h.ranges] at this
  capacity := h'.capacity.trans h.capacity
  height := Nat.le_trans h.height h'.height
  topLevel := fun _ =>
    (h'.topLevel (Nat.lt_of_lt_of_le hheight h.height)).trans (h.topLevel hheight)
  keys := h'.keys.trans h.keys
  entered := by
    intro entry hentry
    rcases List.mem_append.mp hentry with hentry | hentry
    · exact h.entered entry hentry
    · exact (h'.entered entry hentry).of_progress h hheight
  kept := by
    intro entry hentry
    rcases List.mem_append.mp hentry with hentry | hentry
    · refine (h.kept entry hentry).trans ?_
      rw [h'.accesses]
      exact List.prefix_append _ _
    · exact h'.kept entry hentry

/-- A local step after other progress. -/
theorem trans_local (h : Progress c vms entries c') (h' : Local c' c'')
    (hheight : 0 < c.getStackHeight) : Progress c vms entries c'' := by
  simpa using h.trans (of_local h') hheight

theorem ready (h : Progress c vms entries c') {fuel : Nat} (hc : c.Ready fuel) :
    c'.Ready fuel := by
  have hcapacity := h.capacity
  have hheight := h.height
  rcases hc with ⟨hentered, hfuel⟩
  exact ⟨by omega, by omega⟩

end Progress

/-- What holds if a run that started in `c` aborts: there was enough fuel, and the programs that had
been entered are as they should be. -/
def Abort.Since (c : InvokeContext) : Abort → Prop
  | .panic calls => ∀ entry ∈ Execution.entriesOfCalls calls, EnteredDuring c entry
  | .outOfFuel => False

namespace Abort.Since

variable {c c' : InvokeContext} {abort : Abort}

theorem ne_outOfFuel (h : abort.Since c) : abort ≠ .outOfFuel := by
  rintro rfl
  exact h

theorem mono (h : abort.Since c') (hc : ∀ entry, EnteredDuring c' entry → EnteredDuring c entry) :
    abort.Since c := by
  cases abort with
  | outOfFuel => exact h
  | panic calls => exact fun entry hentry => hc entry (h entry hentry)

theorem after {calls : List Execution} (h : abort.Since c)
    (hcalls : ∀ entry ∈ Execution.entriesOfCalls calls, EnteredDuring c entry) :
    (abort.after calls).Since c := by
  cases abort with
  | outOfFuel => exact h
  | panic more =>
      intro entry hentry
      rw [Execution.entriesOfCalls_append] at hentry
      rcases List.mem_append.mp hentry with hentry | hentry
      · exact hcalls entry hentry
      · exact h entry hentry

theorem inside (h : abort.Since c) (hstored : c.transactionContext.StoresTopLevelIndex) :
    (abort.inside c).Since c := by
  cases abort with
  | outOfFuel => exact h
  | panic calls =>
      intro entry hentry
      rw [Execution.entriesOfCalls_singleton] at hentry
      rcases List.mem_cons.mp hentry with rfl | hentry
      · exact ⟨rfl, rfl, hstored⟩
      · exact h entry hentry

end Abort.Since

/-! ## Entering and preparing -/

namespace InvokeContext

variable (c : InvokeContext)

theorem prepareNextInstruction_progress (instruction : Instruction) (signers : List Pubkey) :
    Ends (fun c' => Progress c [] [] c') (fun _ => True)
      (c.prepareNextInstruction instruction signers) := by
  refine (c.prepareNextInstruction_configures instruction signers).mono ?_ fun _ => id
  rintro _ ⟨_, _, _, _, _, tx, hconfigured, rfl⟩
  -- The stack stays as it is.
  obtain ⟨last, -, rfl⟩ := TransactionContext.configureNextInstruction_ok hconfigured
  exact .of_grows rfl rfl ⟨rfl, rfl, Nat.le_refl _, rfl⟩

/-- Entering an instruction either changes nothing or gets as far as pushing a frame. -/
theorem push_progress : Progress c [] [] c.push.2 := by
  rcases c.push_cases with ⟨err, heq⟩ | heq
  · rw [heq]
    exact .refl c
  · rw [heq]
    exact .of_grows rfl rfl c.transactionContext.push_grows

/-- An instruction that has been entered. -/
theorem push_ok {c : InvokeContext} (h : c.push.1 = .ok ()) :
    c.getStackHeight < c.transactionContext.instructionStackCapacity ∧
      c.push.2.getStackHeight = c.getStackHeight + 1 ∧ EnteredDuring c c.push.2 := by
  rcases c.push_cases with ⟨err, heq⟩ | heq
  · rw [heq] at h
    cases h
  · rw [heq] at h ⊢
    obtain ⟨frame, -, hcapacity, ⟨accounts, returnData, -, hpushed⟩, hstored⟩ :=
      TransactionContext.push_ok h
    have hgrows := c.transactionContext.push_grows
    refine ⟨hcapacity, ?_, hgrows.topLevel, hgrows.keys, hstored⟩
    simp [getStackHeight, TransactionContext.getInstructionStackHeight, hpushed,
      TransactionContext.pushed]

end InvokeContext

/-! ## Running programs -/

/-- What an invocation achieves. -/
def Invocation.Since (c : InvokeContext) (call : Invocation) : Prop :=
  Progress c call.execution.finishedVms call.execution.entries call.state.context

/-- What an invocation achieves if it has enough fuel: it panics or makes progress. -/
def Invoke.Sound (invoke : Invoke) (fuel : Nat) : Prop :=
  ∀ s : RuntimeState,
    s.context.transactionContext.instructionStackCapacity ≤ s.context.getStackHeight + fuel →
      Ends (·.Since s.context) (·.Since s.context) (invoke s)

theorem VmRun.CreatedIn.watched {c : InvokeContext} {vm : VmRun} (h : vm.CreatedIn c) :
    vm.Watched c.forbiddenSysvarDataRanges where
  own := by
    obtain ⟨c', -, hcurrent⟩ := h.current
    rw [TransactionContext.getCurrentInstructionContext_eq hcurrent]
    exact hcurrent
  serialized := h.serialized
  created := h.created
  finished := h.finished

/-- A program that runs in `c` makes progress, whatever becomes of its calls. -/
theorem progress_rule {invoke : Invoke} {fuel : Nat} {c : InvokeContext}
    (hinvoke : invoke.Sound fuel) (hc : c.Ready fuel) :
    RunRule invoke c
      (fun _ calls c' =>
        Progress c (Execution.finishedVmsOfCalls calls) (Execution.entriesOfCalls calls) c')
      (fun calls c' =>
        Progress c (Execution.finishedVmsOfCalls calls) (Execution.entriesOfCalls calls) c')
      (fun _ vm calls c' => Progress c (Execution.finishedVmsOfCalls calls ++ vm.toList)
        (Execution.entriesOfCalls calls) c')
      (·.Since c) where
  start := .refl c
  step := fun hs hlocal => hs.trans_local hlocal hc.entered
  prepare := by
    intro calls c' instruction signers hs
    refine (c'.prepareNextInstruction_progress instruction.toInstruction signers).mono ?_ fun _ => id
    intro c'' hnext
    simpa using hs.trans hnext hc.entered
  sync := fun hs hlocal => hs.trans_local hlocal hc.entered
  process := by
    intro calls c' host hs
    refine (hinvoke ⟨c', host⟩ (hs.ready hc).fuel).mono ?_ ?_
    · intro call hcall
      simpa using hs.trans hcall hc.entered
    · intro abort habort
      have hbefore : abort.Since c :=
        habort.mono fun _ hentry => hentry.of_progress hs hc.entered
      exact hbefore.after hs.entered
  weaken := id
  abandon := id
  panic := fun hs => hs.entered
  leave := by
    intro b calls c' hs
    simpa using hs
  collect := by
    intro b calls c' vm hs hvm
    refine { hs with accesses := ?_, watched := ?_, kept := fun entry hentry =>
      (hs.kept entry hentry).trans (List.prefix_append _ _) }
    · simp [InvokeContext.withAccesses, hs.accesses, recordedBy]
    · intro vm' hvm'
      rcases List.mem_append.mp hvm' with hvm' | hvm'
      · exact hs.watched vm' hvm'
      · rw [Option.toList_some, List.mem_singleton] at hvm'
        rw [hvm']
        exact hvm.watched
  returnedStep := fun hr hlocal => hr.trans_local hlocal hc.entered
  returnedWeaken := id

/-! ## Processing an instruction -/

theorem processExecutableChain_progress (w : World) {invoke : Invoke} {fuel : Nat}
    (hinvoke : invoke.Sound fuel) (s : RuntimeState) (hs : s.context.Ready fuel)
    (hstored : s.context.transactionContext.StoresTopLevelIndex) :
    Ends (fun call => call.Since s.context) (·.Since s.context)
      (processExecutableChain w invoke s) := by
  -- The program is entered in this very context.
  have hentry : ∀ {vms entries c'}, Progress s.context vms entries c' →
      Progress s.context vms (s.context :: entries) c' := by
    intro vms entries c' h
    refine { h with entered := ?_, kept := ?_ }
    · intro entry hmem
      rcases List.mem_cons.mp hmem with rfl | hmem
      · exact ⟨rfl, rfl, hstored⟩
      · exact h.entered entry hmem
    · intro entry hmem
      rcases List.mem_cons.mp hmem with rfl | hmem
      · rw [h.accesses]
        exact List.prefix_append _ _
      · exact h.kept entry hmem
  refine ((progress_rule hinvoke hs).processExecutableChain_ends w s.host).mono ?_ ?_
  · rintro call ⟨vm, calls, hexecution, hreturned⟩
    unfold Invocation.Since
    rw [hexecution]
    exact hentry hreturned
  · rintro abort ⟨inner, hinner, rfl⟩
    exact Abort.Since.inside hinner hstored

/-- Leaving an instruction that has been entered. -/
theorem Progress.leave {c c' : InvokeContext} {vms : List VmRun} {entries : List InvokeContext}
    (hpush : c.push.1 = .ok ()) (h : Progress c.push.2 vms entries c') :
    Progress c vms entries c'.pop.2 := by
  obtain ⟨-, hheight, hentered⟩ := InvokeContext.push_ok hpush
  have hstart := c.push_progress
  have hbelow := h.height
  have hpop : c'.pop.2.transactionContext = c'.transactionContext.pop.2 := rfl
  have hstack : c'.transactionContext.instructionStack ≠ [] :=
    List.length_pos_iff.mp (show 0 < c'.getStackHeight by omega)
  rw [TransactionContext.pop_eq hstack] at hpop
  have hpopped : c'.pop.2.getStackHeight = c'.getStackHeight - 1 := by
    rw [InvokeContext.getStackHeight, hpop]
    exact List.length_dropLast
  have haccesses : c.push.2.forbiddenMemoryAccesses = c.forbiddenMemoryAccesses := by
    simpa [recordedBy] using hstart.accesses
  exact {
    ranges := h.ranges.trans hstart.ranges
    accesses := by rw [← haccesses]; exact h.accesses
    watched := by rw [← hstart.ranges]; exact h.watched
    capacity := by rw [hpop]; exact h.capacity.trans hstart.capacity
    height := by omega
    topLevel := by
      intro hpos
      have habove : c'.transactionContext.instructionStack.dropLast ≠ [] :=
        List.length_pos_iff.mp (by rw [List.length_dropLast]; exact (by omega :
          0 < c'.getStackHeight - 1))
      rw [hpop]
      dsimp only
      rw [if_neg habove, h.topLevel (by omega)]
      exact hentered.topLevel
    keys := by rw [hpop]; exact h.keys.trans hentered.keys
    entered := fun entry hentry => by
      have hinside := h.entered entry hentry
      exact ⟨hinside.topLevel.trans hentered.topLevel, hinside.keys.trans hentered.keys,
        hinside.stored⟩
    kept := h.kept }

/-- An instruction that could not be entered. -/
theorem rejected_progress {c context : InvokeContext} {err : InstructionError}
    (hpush : c.push = (.error err, context)) : Progress c [] [] context := by
  have hprogress := c.push_progress
  rwa [hpush] at hprogress

theorem processInstructionWithFuel_sound (w : World) (fuel : Nat) :
    (processInstructionWithFuel w fuel).Sound fuel := by
  -- Induction on the number of frames that still fit on the stack.
  induction fuel with
  | zero =>
      intro s hfuel
      unfold processInstructionWithFuel
      split
      · rename_i err context hpush
        exact rejected_progress hpush
      · rename_i context hpush
        obtain ⟨hcapacity, -, -⟩ := InvokeContext.push_ok (congrArg Prod.fst hpush)
        omega
  | succ fuel ih =>
      intro s hfuel
      unfold processInstructionWithFuel
      split
      · rename_i err context hpush
        exact rejected_progress hpush
      · rename_i context hpush
        have hok : s.context.push.1 = .ok () := congrArg Prod.fst hpush
        obtain ⟨hcapacity, hheight, hentered⟩ := InvokeContext.push_ok hok
        have hcontext : s.context.push.2 = context := congrArg Prod.snd hpush
        have hcap := s.context.push_progress.capacity
        rw [hcontext] at hheight hentered hcap
        have hready : context.Ready fuel := ⟨by omega, by omega⟩
        have hrun := processExecutableChain_progress w ih ⟨context, s.host⟩ hready hentered.stored
        refine (hrun.mono (fun _ => id) fun _ habort => habort.mono fun entry hentry => ?_).bind
          fun chain hchain => ?_
        · exact ⟨hentry.topLevel.trans hentered.topLevel, hentry.keys.trans hentered.keys,
            hentry.stored⟩
        · have hchain' : Progress s.context.push.2 chain.execution.finishedVms
              chain.execution.entries chain.state.context := by
            rw [hcontext]
            exact hchain
          exact hchain'.leave hok

theorem processInstruction_progress (w : World) (s : RuntimeState) :
    Ends (fun call => call.Since s.context) (·.Since s.context) (processInstruction w s) :=
  processInstructionWithFuel_sound w _ s (Nat.le_add_left _ _)

/-- The contexts in which programs were entered during a run, however the run ended. -/
def programsEntered : Except Abort Invocation → List InvokeContext
  | .ok call => call.execution.entries
  | .error (.panic calls) => Execution.entriesOfCalls calls
  | .error .outOfFuel => []

/-- Every program was entered during the same top-level instruction. -/
theorem programsEntered_during (w : World) (s : RuntimeState) :
    ∀ entry ∈ programsEntered (processInstruction w s), EnteredDuring s.context entry := by
  have hprogress := processInstruction_progress w s
  generalize processInstruction w s = run at hprogress
  rcases run with (calls | _) | call
  · exact hprogress
  · exact hprogress.elim
  · exact hprogress.entered

/-- No program is entered if the instruction cannot be pushed. -/
theorem programsEntered_rejected {s : RuntimeState} {context : InvokeContext}
    {err : InstructionError} (hpush : s.context.push = (.error err, context)) (w : World) :
    programsEntered (processInstruction w s) = [] := by
  unfold processInstruction processInstructionWithFuel
  rw [hpush]
  rfl

/-- An instruction that can be pushed is entered. -/
theorem mem_programsEntered {s : RuntimeState} {context : InvokeContext}
    (hpush : s.context.push = (.ok (), context)) (w : World) :
    context ∈ programsEntered (processInstruction w s) := by
  have hfuel := (processInstruction_progress w s).mono (Q := fun _ => True)
    (fun _ _ => trivial) fun _ => Abort.Since.ne_outOfFuel
  obtain ⟨hcapacity, -, -⟩ := InvokeContext.push_ok (congrArg Prod.fst hpush)
  obtain ⟨fuel, hsucc⟩ := Nat.exists_eq_succ_of_ne_zero (Nat.ne_zero_of_lt hcapacity)
  unfold processInstruction at hfuel ⊢
  rw [hsucc] at hfuel ⊢
  unfold processInstructionWithFuel at hfuel ⊢
  rw [hpush] at hfuel ⊢
  dsimp only at hfuel ⊢
  unfold processExecutableChain at hfuel ⊢
  cases hbuiltin : findBuiltin context with
  | error err => exact List.mem_cons_self
  | ok builtin =>
      rw [hbuiltin] at hfuel
      dsimp only at hfuel ⊢
      generalize builtin.2.2.entrypoint w _ _ = returned at hfuel ⊢
      rcases returned with (calls | _) | returned
      · simp [Except.mapError, Abort.inside, Bind.bind, Except.bind, programsEntered,
          Execution.entries]
      · exact (hfuel rfl).elim
      · exact List.mem_cons_self

/-- Nothing that a tracker recorded is lost or invented.  Whatever the programs are, however deep
they are nested and however each of them ends, `process_instruction` extends the list of forbidden
accesses by the lists of the VMs that ran, in the order in which the VMs finished; each of these VMs
had a new tracker that watched the ranges for its own instruction; and what had been recorded when
any of the programs was entered is still recorded at the end.  The only way not to return is a
panic. -/
theorem processInstruction_collects_accesses (w : World) (s : RuntimeState) :
    Ends (fun call =>
        call.state.context.forbiddenMemoryAccesses =
          s.context.forbiddenMemoryAccesses ++ recordedBy call.execution.finishedVms ∧
        (∀ vm ∈ call.execution.finishedVms, vm.Watched s.context.forbiddenSysvarDataRanges) ∧
        ∀ entry ∈ call.execution.entries,
          entry.forbiddenMemoryAccesses <+: call.state.context.forbiddenMemoryAccesses)
      (· ≠ .outOfFuel) (processInstruction w s) :=
  (processInstruction_progress w s).mono
    (fun _ hcall => ⟨hcall.accesses, hcall.watched, hcall.kept⟩) fun _ => Abort.Since.ne_outOfFuel

end ProgramRuntime
end Gobble
