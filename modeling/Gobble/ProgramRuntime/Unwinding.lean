import Gobble.ProgramRuntime.Progress

/-!
# Unwinding — what an invocation leaves on the stacks

Entering an instruction adds a frame to the instruction stack and an entry to the syscall contexts,
and leaving it takes both away.  It is left only if it has been entered, and the entry of the syscall
contexts is added before the last checks are made.  So a call that is refused by one of these checks
leaves its entry behind; and one that is refused because of the instructions sysvar leaves its frame,
too.

No program notices.  A failed call ends the program that made it, and so on up to the top-level
instruction: whenever a program runs, there is one syscall context per frame.  What is left behind is
left for those who called `process_instruction` in the first place.
-/

namespace Gobble
namespace ProgramRuntime

open Lib Sbpf Sdk Context

/-! ## The property -/

/-- There is one syscall context per frame. -/
def InvokeContext.Aligned (c : InvokeContext) : Prop :=
  c.syscallContext.length = c.getStackHeight

/-- The stacks of `c'` are those of `c`. -/
structure Restores (c c' : InvokeContext) : Prop where
  stack : c'.transactionContext.instructionStack = c.transactionContext.instructionStack
  contexts : c'.syscallContext.length = c.syscallContext.length

/-- An invocation that started in `c` has unwound to where it started, and the stacks were aligned
when programs were entered. -/
structure Invocation.Unwinds (c : InvokeContext) (call : Invocation) : Prop where
  height : call.state.context.getStackHeight = c.getStackHeight
  restored : Restores c call.state.context
  aligned : ∀ entry ∈ call.execution.entries, entry.Aligned

/-! ## The condition -/

/-- One of the checks that come first refuses the next instruction: there is none, its program is not
an account of the transaction, or the program is running already and is not the caller. -/
def InvokeContext.refusesNext (c : InvokeContext) : Bool :=
  let tx := c.transactionContext
  match tx.getNextInstructionContext with
  | .error _ => true
  | .ok ic =>
      match ic.getProgramKey with
      | .error _ => true
      | .ok programId => tx.getInstructionStackHeight ≠ 0 && InvokeContext.isReentrant tx programId

/-- The next instruction is refused early, or not at all. -/
def InvokeContext.EntersCleanly (c : InvokeContext) : Prop :=
  c.refusesNext = true ∨ c.transactionContext.Enterable

namespace Execution

mutual

/-- The contexts in which an instruction could not be entered. -/
def rejections : Execution → List InvokeContext
  | rejected context => [context]
  | entered _ _ calls => rejectionsOfCalls calls

def rejectionsOfCalls : List Execution → List InvokeContext
  | [] => []
  | call :: calls => rejections call ++ rejectionsOfCalls calls

end

@[simp] theorem rejectionsOfCalls_append (calls calls' : List Execution) :
    rejectionsOfCalls (calls ++ calls') = rejectionsOfCalls calls ++ rejectionsOfCalls calls' := by
  induction calls with
  | nil => rfl
  | cons call calls ih => simp [rejectionsOfCalls, ih]

@[simp] theorem rejectionsOfCalls_singleton (call : Execution) :
    rejectionsOfCalls [call] = call.rejections := by
  simp [rejectionsOfCalls]

end Execution

/-! ## Entering -/

namespace InvokeContext

variable {c : InvokeContext}

/-- An early refusal changes nothing. -/
theorem push_refused (h : c.refusesNext = true) : ∃ err, c.push = (.error err, c) := by
  unfold refusesNext at h
  unfold push
  dsimp only at h ⊢
  split
  · exact ⟨_, rfl⟩
  · rename_i ic hic
    rw [hic] at h
    dsimp only at h
    split
    · exact ⟨_, rfl⟩
    · rename_i programId hkey
      rw [hkey] at h
      dsimp only at h
      rw [if_pos h]
      exact ⟨_, rfl⟩

/-- Otherwise the entry of the syscall contexts is there before the later checks are made. -/
theorem push_not_refused (h : ¬ c.refusesNext = true) :
    c.push = (c.transactionContext.push.1,
      { c with
        syscallContext := c.syscallContext ++ [none]
        transactionContext := c.transactionContext.push.2 }) := by
  unfold refusesNext at h
  unfold push
  dsimp only at h ⊢
  split
  · rename_i err hic
    rw [hic] at h
    exact absurd rfl h
  · rename_i ic hic
    rw [hic] at h
    dsimp only at h
    split
    · rename_i err hkey
      rw [hkey] at h
      exact absurd rfl h
    · rename_i programId hkey
      rw [hkey] at h
      dsimp only at h
      rw [if_neg h]

end InvokeContext

/-! ## Running -/

namespace Restores

variable {c c' c'' : InvokeContext}

theorem refl (c : InvokeContext) : Restores c c :=
  ⟨rfl, rfl⟩

theorem trans (h : Restores c c') (h' : Restores c' c'') : Restores c c'' :=
  ⟨h'.stack.trans h.stack, h'.contexts.trans h.contexts⟩

theorem of_local (h : Local c c') : Restores c c' := by
  refine ⟨?_, h.contexts⟩
  obtain ⟨accounts, returnData, -, heq⟩ := h.instructions
  rw [heq]

theorem height (h : Restores c c') : c'.getStackHeight = c.getStackHeight :=
  congrArg List.length h.stack

theorem aligned (h : Restores c c') (hc : c.Aligned) : c'.Aligned := by
  unfold InvokeContext.Aligned
  rw [h.contexts, h.height]
  exact hc

end Restores

/-- All of these instructions were refused early. -/
def AllClean (rejections : List InvokeContext) : Prop :=
  ∀ c ∈ rejections, c.EntersCleanly

/-- After an early refusal everything is as before, after a late one there is a syscall context too
many. -/
def Unwound (c : InvokeContext) (rejections : List InvokeContext) (c' : InvokeContext) : Prop :=
  AllClean rejections ∧ Restores c c' ∨
    ¬ AllClean rejections ∧ c'.syscallContext.length = c.syscallContext.length + 1

theorem Unwound.of_local {c c' c'' : InvokeContext} {rejections : List InvokeContext}
    (h : Unwound c rejections c') (hlocal : Local c' c'') : Unwound c rejections c'' := by
  rcases h with ⟨hclean, hrestores⟩ | ⟨hunclean, hlength⟩
  · exact .inl ⟨hclean, hrestores.trans (.of_local hlocal)⟩
  · exact .inr ⟨hunclean, hlocal.contexts.trans hlength⟩

/-- While all calls succeed nothing is left behind; at most the last call does not. -/
def UnwoundSoFar (c : InvokeContext) : Bool → List InvokeContext → InvokeContext → Prop
  | true, rejections, c' => AllClean rejections ∧ Restores c c'
  | false, rejections, c' => Unwound c rejections c'

/-- How the calls of a program and the context belong together while it runs in `c`. -/
structure RunsAligned (c : InvokeContext) (b : Bool) (calls : List Execution) (c' : InvokeContext) :
    Prop where
  unwound : UnwoundSoFar c b (Execution.rejectionsOfCalls calls) c'
  entries : ∀ entry ∈ Execution.entriesOfCalls calls, entry.Aligned

theorem RunsAligned.of_local {c c' c'' : InvokeContext} {b : Bool} {calls : List Execution}
    (h : RunsAligned c b calls c') (hlocal : Local c' c'') : RunsAligned c b calls c'' := by
  refine ⟨?_, h.entries⟩
  cases b with
  | true => exact ⟨h.unwound.1, h.unwound.2.trans (.of_local hlocal)⟩
  | false => exact Unwound.of_local h.unwound hlocal

theorem RunsAligned.weaken {c c' : InvokeContext} {calls : List Execution}
    (h : RunsAligned c true calls c') : RunsAligned c false calls c' :=
  ⟨.inl h.unwound, h.entries⟩

/-- What is to be shown of an invocation that starts in `c`. -/
structure Invocation.EndsAligned (c : InvokeContext) (call : Invocation) : Prop where
  unwound : UnwoundSoFar c call.result.isOk call.execution.rejections call.state.context
  entries : ∀ entry ∈ call.execution.entries, entry.Aligned

theorem prepareNextInstruction_restores (c : InvokeContext) (instruction : Instruction)
    (signers : List Pubkey) :
    Ends (Restores c) (fun _ => True) (c.prepareNextInstruction instruction signers) := by
  refine (c.prepareNextInstruction_configures instruction signers).mono ?_ fun _ => id
  rintro _ ⟨_, _, _, _, _, tx, hconfigured, rfl⟩
  obtain ⟨last, -, rfl⟩ := TransactionContext.configureNextInstruction_ok hconfigured
  exact ⟨rfl, rfl⟩

/-- One more call. -/
theorem UnwoundSoFar.call {c c' c'' : InvokeContext} {b : Bool} {rejections more : List InvokeContext}
    (h : UnwoundSoFar c true rejections c') (hcall : UnwoundSoFar c' b more c'') :
    UnwoundSoFar c b (rejections ++ more) c'' := by
  obtain ⟨hclean, hrestores⟩ := h
  -- No earlier call has left anything behind, so only the last one counts.
  have hboth : AllClean (rejections ++ more) ↔ AllClean more :=
    List.forall_mem_append.trans (and_iff_right hclean)
  cases b with
  | true => exact ⟨hboth.mpr hcall.1, hrestores.trans hcall.2⟩
  | false =>
      rcases hcall with ⟨hclean', hrestores'⟩ | ⟨hunclean, hlength⟩
      · exact .inl ⟨hboth.mpr hclean', hrestores.trans hrestores'⟩
      · refine .inr ⟨fun hall => hunclean (hboth.mp hall), ?_⟩
        rw [hlength, hrestores.contexts]

theorem runsAligned_rule {invoke : Invoke} {c : InvokeContext} (hc : c.Aligned)
    (hinvoke : ∀ s : RuntimeState, s.context.Aligned →
      Ends (·.EndsAligned s.context) (·.Entered InvokeContext.Aligned) (invoke s)) :
    RunRule invoke c (RunsAligned c) (RunsAligned c true) (fun b _ calls c' => RunsAligned c b calls c')
      (·.Entered InvokeContext.Aligned) where
  start := ⟨⟨by simp [AllClean, Execution.rejectionsOfCalls], .refl c⟩,
    by simp [Execution.entriesOfCalls]⟩
  step := fun h hlocal => h.of_local hlocal
  prepare := by
    intro calls c' instruction signers h
    refine (prepareNextInstruction_restores c' instruction.toInstruction signers).mono ?_ fun _ => id
    intro c'' hrestores
    exact ⟨⟨h.unwound.1, h.unwound.2.trans hrestores⟩, h.entries⟩
  sync := fun h hlocal => h.of_local hlocal
  process := by
    intro calls c' host h
    refine (hinvoke ⟨c', host⟩ (h.unwound.2.aligned hc)).mono ?_ ?_
    · intro call hcall
      refine ⟨?_, ?_⟩
      · rw [Execution.rejectionsOfCalls_append, Execution.rejectionsOfCalls_singleton]
        exact h.unwound.call hcall.unwound
      · rw [Execution.entriesOfCalls_append, Execution.entriesOfCalls_singleton]
        exact List.forall_mem_append.mpr ⟨h.entries, hcall.entries⟩
    · exact fun abort habort => habort.after h.entries
  weaken := RunsAligned.weaken
  abandon := RunsAligned.weaken
  panic := fun h => h.entries
  leave := id
  collect := by
    intro b calls c' vm h _
    refine ⟨?_, h.entries⟩
    cases b with
    | true => exact ⟨h.unwound.1, h.unwound.2.stack, h.unwound.2.contexts⟩
    | false =>
        rcases h.unwound with ⟨hclean, hrestores⟩ | hunclean
        · exact .inl ⟨hclean, hrestores.stack, hrestores.contexts⟩
        · exact .inr hunclean
  returnedStep := fun h hlocal => h.of_local hlocal
  returnedWeaken := RunsAligned.weaken

/-! ## Leaving -/

section Leaving

variable {c c' : InvokeContext}

/-- The frame and the entry of an instruction that has been entered. -/
theorem push_stacks (h : c.push.1 = .ok ()) :
    c.push.2.transactionContext.instructionStack =
        c.transactionContext.instructionStack ++ [c.transactionContext.getInstructionTraceLength] ∧
      c.push.2.syscallContext.length = c.syscallContext.length + 1 := by
  rcases c.push_cases with ⟨err, heq⟩ | heq
  · rw [heq] at h
    cases h
  · rw [heq] at h ⊢
    obtain ⟨frame, -, -, ⟨accounts, returnData, -, hpushed⟩, -⟩ := TransactionContext.push_ok h
    refine ⟨?_, by simp⟩
    dsimp only
    rw [hpushed]
    rfl

theorem push_aligned (h : c.push.1 = .ok ()) (hc : c.Aligned) : c.push.2.Aligned := by
  obtain ⟨hstack, hcontexts⟩ := push_stacks h
  have hheight : c.push.2.getStackHeight = c.getStackHeight + 1 := by
    have hlength := congrArg List.length hstack
    rw [List.length_append, List.length_singleton] at hlength
    exact hlength
  unfold InvokeContext.Aligned at hc ⊢
  rw [hcontexts, hheight, hc]

theorem pop_contexts (c : InvokeContext) :
    c.pop.2.syscallContext.length = c.syscallContext.length - 1 :=
  List.length_dropLast

/-- Leaving takes away what entering has added. -/
theorem Restores.leave (hpush : c.push.1 = .ok ()) (h : Restores c.push.2 c') :
    Restores c c'.pop.2 := by
  obtain ⟨hstack, hcontexts⟩ := push_stacks hpush
  -- There is a frame to take away: the one that was added.
  have hne : c'.transactionContext.instructionStack ≠ [] := by
    rw [h.stack, hstack]
    simp
  refine ⟨?_, ?_⟩
  · show c'.transactionContext.pop.2.instructionStack = _
    rw [TransactionContext.pop_eq hne]
    dsimp only
    rw [h.stack, hstack, List.dropLast_concat]
  · rw [pop_contexts, h.contexts, hcontexts, Nat.add_sub_cancel]

theorem UnwoundSoFar.leave {b : Bool} {rejections : List InvokeContext} (hpush : c.push.1 = .ok ())
    (h : UnwoundSoFar c.push.2 b rejections c') : UnwoundSoFar c b rejections c'.pop.2 := by
  cases b with
  | true => exact ⟨h.1, h.2.leave hpush⟩
  | false =>
      rcases h with ⟨hclean, hrestores⟩ | ⟨hunclean, hlength⟩
      · exact .inl ⟨hclean, hrestores.leave hpush⟩
      · -- Leaving takes one entry away, and the one too many is still there.
        refine .inr ⟨hunclean, ?_⟩
        rw [pop_contexts, hlength, (push_stacks hpush).2]
        rfl

/-- An instruction that is refused leaves nothing or an entry behind. -/
theorem unwound_rejected {context : InvokeContext} {err : InstructionError}
    (hpush : c.push = (.error err, context)) : Unwound c [c] context := by
  have hall : AllClean [c] ↔ c.EntersCleanly := by simp [AllClean]
  by_cases hrefused : c.refusesNext = true
  · obtain ⟨err', heq⟩ := c.push_refused hrefused
    rw [hpush] at heq
    cases heq
    exact .inl ⟨hall.mpr (.inl hrefused), .refl c⟩
  · have heq := c.push_not_refused hrefused
    rw [hpush] at heq
    obtain ⟨hresult, rfl⟩ := Prod.mk.inj heq
    refine .inr ⟨?_, by simp⟩
    rw [hall]
    rintro (hearly | henterable)
    · exact hrefused hearly
    · rw [(TransactionContext.push_ok_iff _).mpr henterable] at hresult
      cases hresult

end Leaving

theorem UnwoundSoFar.weaken {c c' : InvokeContext} {b : Bool} {rejections : List InvokeContext}
    (h : UnwoundSoFar c b rejections c') : UnwoundSoFar c false rejections c' := by
  cases b with
  | true => exact .inl h
  | false => exact h

/-- The induction is on the fuel; a run that is out of it needs no attention here. -/
theorem processInstructionWithFuel_endsAligned (w : World) (fuel : Nat) (s : RuntimeState)
    (hs : s.context.Aligned) :
    Ends (·.EndsAligned s.context) (·.Entered InvokeContext.Aligned)
      (processInstructionWithFuel w fuel s) := by
  induction fuel generalizing s with
  | zero =>
      unfold processInstructionWithFuel
      split
      · rename_i err context hpush
        exact ⟨unwound_rejected hpush, by simp [Execution.entries]⟩
      · exact .outOfFuel
  | succ fuel ih =>
      unfold processInstructionWithFuel
      split
      · rename_i err context hpush
        exact ⟨unwound_rejected hpush, by simp [Execution.entries]⟩
      · rename_i context hpush
        have hok : s.context.push.1 = .ok () := congrArg Prod.fst hpush
        have hcontext : s.context.push.2 = context := congrArg Prod.snd hpush
        subst hcontext
        have haligned := push_aligned hok hs
        have hchain := (runsAligned_rule haligned ih).processExecutableChain_ends w s.host
        refine (hchain.mono (fun _ => id) ?_).bind ?_
        · rintro abort ⟨inner, hinner, rfl⟩
          exact hinner.inside haligned
        · rintro chain ⟨vm, calls, hexecution, hreturned⟩
          have hleave := hreturned.unwound.leave hok
          dsimp only
          refine ⟨?_, ?_⟩
          · show UnwoundSoFar s.context (andThen chain.result chain.state.context.pop.1).isOk
              chain.execution.rejections chain.state.context.pop.2
            rw [hexecution]
            cases hresult : chain.result with
            | error err =>
                rw [hresult] at hleave
                exact hleave
            | ok _ =>
                rw [hresult] at hleave
                cases hpop : chain.state.context.pop.1 with
                | error err => exact hleave.weaken
                | ok _ => exact hleave
          · rw [hexecution]
            intro entry hentry
            rcases List.mem_cons.mp hentry with rfl | hentry
            · exact haligned
            · exact hreturned.entries entry hentry

/-- An invocation unwinds to where it started if and only if none of the instructions that were
refused on the way was refused late.  Whenever a program is entered, also in a run that panics later,
there is one syscall context per frame. -/
theorem processInstruction_unwinds_iff (w : World) (s : RuntimeState) (hs : s.context.Aligned) :
    Ends (fun call => call.Unwinds s.context ↔
        ∀ refused ∈ call.execution.rejections, refused.EntersCleanly)
      (· ≠ .outOfFuel) (processInstruction w s) ∧
    ∀ entry ∈ programsEntered (processInstruction w s), entry.Aligned := by
  have hends := processInstructionWithFuel_endsAligned w
    s.context.transactionContext.instructionStackCapacity s hs
  have hprogress := processInstruction_progress w s
  unfold processInstruction at hprogress ⊢
  generalize processInstructionWithFuel w
    s.context.transactionContext.instructionStackCapacity s = run at hends hprogress ⊢
  rcases run with (calls | _) | call
  · refine ⟨?_, hends⟩
    intro heq
    cases heq
  · exact hprogress.elim
  · refine ⟨?_, hends.entries⟩
    constructor
    · intro hunwinds
      rcases hends.unwound.weaken with ⟨hclean, -⟩ | ⟨-, hlength⟩
      · exact hclean
      · have hcontexts := hunwinds.restored.contexts
        omega
    · intro hclean
      rcases hends.unwound.weaken with ⟨-, hrestores⟩ | ⟨hunclean, -⟩
      · exact ⟨hrestores.height, hrestores, hends.entries⟩
      · exact absurd hclean hunclean

/-! ## A program that calls itself -/

def recursiveProgramId : Pubkey := Vector.replicate 32 9

/-- The program invokes itself, without end. -/
def callsItself : VmCode :=
  .perform (.invoke ⟨⟨recursiveProgramId, [⟨recursiveProgramId, false, false⟩], []⟩, by decide⟩ []
    (.pure (.ok ()))) fun _ => .pure (.ok 0)

def recursiveWorld : World where
  executable := fun _ =>
    { config := {}
      sbpfVersion := .v0
      roRegion := MemoryRegion.newReadonly 0x1000 0x100 mmBytecodeStart
      code := fun _ => callsItself }
  native := fun _ => .pure (.ok 0)
  upgradeableLoader := .pure (.ok 0)
  loaderV4 := .pure (.ok 0)
  allocate := fun _ =>
    { storage :=
        { bufferAddr := 0x10000
          dataAddr := fun index => BitVec.ofNat 64 (0x1000000 * (index + 1))
          isShared := fun _ => false }
      stackAddr := 0x100000
      heapAddr := 0x200000 }
  statusError := fun status => .custom status.toNat

/-- A transaction whose instruction invokes the program, at most five frames deep. -/
def recursiveStart : RuntimeState where
  context :=
    let accounts := [(recursiveProgramId, ⟨1, [], bpfLoaderDeprecatedId, true, 0⟩)]
    let features : FeatureSet := ⟨⟨true, true⟩, true, true, true, true⟩
    let context := InvokeContext.new (.new accounts 5 64)
      [(recursiveProgramId, .loaded 0), (bpfLoaderDeprecatedId, .builtin (some .bpfLoader))] features
      ⟨1400000, 32 * 1024⟩ ⟨8, 1000, 250⟩
    (context.prepareNextTopLevelInstruction (fun _ => false) (fun _ => false) ⟨0, [0], [], by decide⟩
      0).toOption.getD context
  host := fun _ => 0

theorem exists_not_unwinds {run : Except Abort Invocation} {c : InvokeContext} {n : Nat}
    (hrun : run.toOption.map (fun call => call.state.context.syscallContext.length) = some n)
    (hne : c.syscallContext.length ≠ n) : ∃ call, run = .ok call ∧ ¬ call.Unwinds c := by
  cases run with
  | error abort => cases hrun
  | ok call =>
      refine ⟨call, rfl, ?_⟩
      intro hunwinds
      exact hne (hunwinds.restored.contexts.symm.trans (Option.some.inj hrun))

/-- When the stack is full, the call is refused and leaves a syscall context behind. -/
theorem recursion_leaves_syscall_context :
    ∃ call, processInstruction recursiveWorld recursiveStart = .ok call ∧
      ¬ call.Unwinds recursiveStart.context :=
  exists_not_unwinds (n := 1) (by decide +kernel) (by decide +kernel)

/-- The run of the program that calls itself is one that the equivalence speaks of. -/
theorem recursion_unwinds_iff :
    Ends (fun call => call.Unwinds recursiveStart.context ↔
        ∀ refused ∈ call.execution.rejections, refused.EntersCleanly)
      (· ≠ .outOfFuel) (processInstruction recursiveWorld recursiveStart) ∧
    ∀ entry ∈ programsEntered (processInstruction recursiveWorld recursiveStart), entry.Aligned :=
  processInstruction_unwinds_iff recursiveWorld recursiveStart rfl

end ProgramRuntime
end Gobble
