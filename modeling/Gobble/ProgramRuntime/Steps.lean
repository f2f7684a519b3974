import Gobble.ProgramRuntime.Execution

/-!
# Steps — what single operations do to the context

Instructions are entered and left by `process_instruction` only.  Everything else that happens while
a program runs is *local*: it leaves the instructions of the transaction and the lists of the tracker
alone.  The rule `Machine.runProgram_ends` lifts what the steps of a machine keep to whole programs.
-/

namespace Gobble
namespace ProgramRuntime

open Lib Sbpf Sdk Context

/-! ## Local steps -/

/-- What a step keeps that is not about instructions. -/
structure Local (c c' : InvokeContext) : Prop where
  ranges : c'.forbiddenSysvarDataRanges = c.forbiddenSysvarDataRanges
  accesses : c'.forbiddenMemoryAccesses = c.forbiddenMemoryAccesses
  contexts : c'.syscallContext.length = c.syscallContext.length
  instructions : c.transactionContext.SameInstructions c'.transactionContext

theorem Local.refl (c : InvokeContext) : Local c c :=
  ⟨rfl, rfl, rfl, .refl _⟩

theorem Local.trans {c c' c'' : InvokeContext} (h : Local c c') (h' : Local c' c'') :
    Local c c'' :=
  ⟨h'.ranges.trans h.ranges, h'.accesses.trans h.accesses, h'.contexts.trans h.contexts,
    h.instructions.trans h'.instructions⟩

theorem consume_local (c : InvokeContext) (amount : U64) : Local c (c.consume amount) :=
  ⟨rfl, rfl, rfl, .refl _⟩

theorem setSyscallContext_local (c : InvokeContext) (syscallContext : SyscallContext) :
    Ends (fun c' => Local c c') (fun _ => True) (c.setSyscallContext syscallContext) := by
  unfold InvokeContext.setSyscallContext
  split
  · trivial
  · rename_i hne
    refine ⟨rfl, rfl, ?_, .refl _⟩
    have hpos : 0 < c.syscallContext.length := List.length_pos_iff.mpr hne
    simp only [List.length_append, List.length_dropLast, List.length_singleton]
    omega

theorem setReturnData_local (c : InvokeContext) (programId : Pubkey) (data : List UInt8) :
    Local c { c with
      transactionContext := c.transactionContext.setReturnData programId data } :=
  ⟨rfl, rfl, rfl, _, _, rfl, rfl⟩

/-- Operations on the context are local, and they are not invocations. -/
theorem contextHandler_local (op : ContextOp) (a : Activation) :
    Local a.context (contextHandler op a).2.context ∧ (contextHandler op a).2.calls = a.calls := by
  cases op with
  | getContext => exact ⟨.refl _, rfl⟩
  | consume amount => exact ⟨consume_local _ _, rfl⟩
  | setReturnData programId data => exact ⟨setReturnData_local _ _ _, rfl⟩
  | setAccount index account =>
      exact ⟨⟨rfl, rfl, rfl, .of_accounts (TransactionAccounts.accountKeys_setAccount ..)⟩, rfl⟩
  | setDeltas resizeDelta lamportsDelta =>
      exact ⟨⟨rfl, rfl, rfl, .of_accounts rfl⟩, rfl⟩
  | replenish key entry => exact ⟨⟨rfl, rfl, rfl, .refl _⟩, rfl⟩
  | setSyscallContext syscallContext =>
      have hset := setSyscallContext_local a.context syscallContext
      unfold contextHandler
      dsimp only
      cases heq : a.context.setSyscallContext syscallContext with
      | error err => exact ⟨.refl _, rfl⟩
      | ok context =>
          rw [heq] at hset
          exact ⟨hset, rfl⟩

theorem vmHandler_local (op : VmOp) (v : VmActivation) :
    Local v.activation.context (vmHandler op v).2.activation.context ∧
      (vmHandler op v).2.activation.calls = v.activation.calls := by
  cases op with
  | access handler op => exact ⟨.refl _, rfl⟩
  | findRegion vmAddr => exact ⟨.refl _, rfl⟩
  | replaceRegion index region =>
      unfold vmHandler
      dsimp only
      cases v.mapping.replaceRegion index region with
      | error err => exact ⟨.refl _, rfl⟩
      | ok mapping => exact ⟨.refl _, rfl⟩
  | context op => exact contextHandler_local op v.activation

/-! ## The tracker of a VM -/

/-- The tracker after some reads. -/
def afterReads (tracker : MemoryAccessTracker) (reads : List (U64 × U64)) : MemoryAccessTracker :=
  reads.foldl (fun t read => t.checkAccess read.1 read.2) tracker

/-- The tracker of the mapping was `created` and has been told of reads only. -/
def Tracks (created : MemoryAccessTracker) (mapping : MemoryMapping) : Prop :=
  ∃ reads, mapping.getAccessTracker = some (afterReads created reads)

/-- An operation of a VM is one read for the tracker, or none. -/
theorem vmHandler_tracks {created : MemoryAccessTracker} (op : VmOp) {v : VmActivation}
    (hv : Tracks created v.mapping) : Tracks created (vmHandler op v).2.mapping := by
  obtain ⟨reads, hreads⟩ := hv
  cases op with
  | access handler op =>
      have hmapping : (v.mapping.modifyCommon fun c =>
          { c with accessViolationHandler := handler }).getAccessTracker =
            some (afterReads created reads) := by
        rw [← hreads]
        cases v.mapping <;> rfl
      rcases memHandler_tracker op ⟨v.mapping.modifyCommon fun c =>
          { c with accessViolationHandler := handler }, v.activation.host⟩ with
        hsame | ⟨vmAddr, len, hread⟩
      · exact ⟨reads, hsame.trans hmapping⟩
      · have hlast : afterReads created (reads ++ [(vmAddr, len)]) =
            (afterReads created reads).checkAccess vmAddr len := by
          simp [afterReads]
        refine ⟨reads ++ [(vmAddr, len)], ?_⟩
        rw [hmapping] at hread
        rw [hlast]
        exact hread
  | findRegion vmAddr =>
      have hfound : (v.mapping.findRegion vmAddr).2.getAccessTracker =
          v.mapping.getAccessTracker := by
        simp [MemoryMapping.getAccessTracker]
      exact ⟨reads, hfound.trans hreads⟩
  | replaceRegion index region =>
      unfold vmHandler
      dsimp only
      cases heq : v.mapping.replaceRegion index region with
      | error err => exact ⟨reads, hreads⟩
      | ok mapping => exact ⟨reads, (MemoryMapping.replaceRegion_tracker heq).trans hreads⟩
  | context op => exact ⟨reads, hreads⟩

theorem createMemoryMapping_tracker (exe : LoadedExecutable) (host : HostAllocation)
    (heapSize : Nat) (regions : List MemoryRegion) :
    Ends (fun m => m.getAccessTracker = some MemoryAccessTracker.new) (fun _ => True)
      (exe.createMemoryMapping host heapSize regions) :=
  MemoryMapping.new_tracker ..

theorem watchMemoryRanges_tracker {mapping : MemoryMapping} {tracker : MemoryAccessTracker}
    (h : mapping.getAccessTracker = some tracker) (vmRanges : List AddrRange) :
    (watchMemoryRanges mapping vmRanges).getAccessTracker = some (watchRanges tracker vmRanges) := by
  cases mapping with
  | identity => cases h
  | aligned m => cases h; rfl
  | unaligned m => cases h; rfl

/-- The list is extended by what the tracker has, if it has anything. -/
theorem collectForbiddenAccesses_eq (c : InvokeContext) (mapping : MemoryMapping) :
    c.collectForbiddenAccesses mapping =
      { c with
        forbiddenMemoryAccesses := c.forbiddenMemoryAccesses ++ mapping.getForbiddenAccesses } := by
  unfold InvokeContext.collectForbiddenAccesses MemoryMapping.getForbiddenAccesses
  cases mapping.getAccessTracker with
  | none => simp
  | some tracker =>
      cases hlist : tracker.forbiddenAccesses with
      | nil => simp [MemoryAccessTracker.hasForbiddenAccesses, hlist]
      | cons access rest => simp [MemoryAccessTracker.hasForbiddenAccesses, hlist]

/-! ## Around the run of a VM -/

theorem consumeChecked_local {c c' : InvokeContext} {amount : U64}
    {result : Except BoxedError Unit} (h : c.consumeChecked amount = (result, c')) :
    Local c c' := by
  obtain ⟨-, rfl⟩ := Prod.mk.inj h
  exact consume_local c amount

/-- A VM that could be created has a new tracker; in any case the step was local. -/
theorem createVm_local {exe : LoadedExecutable} {host : HostAllocation}
    {params : SerializedParameters} {c c' : InvokeContext}
    {created : Outcome BoxedError MemoryMapping} (h : exe.createVm host params c = (created, c')) :
    Local c c' ∧ Ends (fun m => m.getAccessTracker = some MemoryAccessTracker.new)
      (fun _ => True) created := by
  have hset := setSyscallContext_local c
    ⟨⟨BitVec.ofNat 64 c.computeBudget.heapSize, 0⟩, params.accountsMetadata⟩
  have hnew := createMemoryMapping_tracker exe host c.computeBudget.heapSize params.regions
  rw [LoadedExecutable.createVm] at h
  dsimp only at h
  generalize exe.createMemoryMapping host c.computeBudget.heapSize params.regions = mapping
    at h hnew
  generalize c.setSyscallContext _ = registered at h hset
  rcases mapping with (_ | _) | mapping
  · cases h
    exact ⟨.refl c, trivial⟩
  · cases h
    exact ⟨.refl c, trivial⟩
  · cases registered with
    | error err =>
        cases h
        exact ⟨.refl c, trivial⟩
    | ok context =>
        cases h
        exact ⟨hset, hnew⟩

theorem payAndCreateVm_local {exe : LoadedExecutable} {host : HostAllocation}
    {params : SerializedParameters} {c c' : InvokeContext}
    {created : Outcome BoxedError MemoryMapping}
    (h : exe.payAndCreateVm host params c = (created, c')) :
    Local c c' ∧ Ends (fun m => m.getAccessTracker = some MemoryAccessTracker.new)
      (fun _ => True) created := by
  rw [LoadedExecutable.payAndCreateVm] at h
  split at h
  · rename_i err context hpaid
    cases h
    exact ⟨consumeChecked_local hpaid, trivial⟩
  · rename_i context hpaid
    obtain ⟨hcreate, hnew⟩ := createVm_local h
    exact ⟨(consumeChecked_local hpaid).trans hcreate, hnew⟩

theorem resultOfProgram_local (w : World) (regionAddrs : List AddrRange) (c : InvokeContext)
    (programResult : ProgramResult) :
    Ends (fun r => Local c r.2) (fun _ => True)
      (resultOfProgram w regionAddrs c programResult) := by
  cases programResult with
  | ok status =>
      unfold resultOfProgram
      dsimp only
      split <;> exact .refl c
  | error error =>
      unfold resultOfProgram
      dsimp only
      have hmeter : Local c (if c.featureSet.depleteCuMeterOnVmFailure &&
          !isSyscallError error then c.consume c.computeMeter else c) := by
        split
        · exact consume_local c _
        · exact .refl c
      split
      · exact hmeter
      · exact hmeter
      · trivial

theorem writeBack_local (params : SerializedParameters) (host : ByteMemory)
    (c : InvokeContext) : Local c (writeBack params host c).2 := by
  unfold writeBack
  dsimp only
  split
  · exact .refl c
  · exact ⟨rfl, rfl, rfl, .of_accounts ((deserializeParameters_keys ..).keys _)⟩

/-! ## Programs -/

section Programs

variable {Op : Type} {Ret : Op → Type} {σ α : Type} {m : Machine Op Ret σ} {invoke : Invoke}
  {I J F : σ → Prop} {E : Abort → Prop}

/-- What has to be shown about the steps of a machine: `I` holds while the program runs, `J` holds
between preparing an instruction and processing it, and `F` is left of them when the program
fails. -/
structure Machine.Invariant (m : Machine Op Ret σ) (invoke : Invoke) (I J F : σ → Prop)
    (E : Abort → Prop) : Prop where
  step : ∀ op s, I s → I (m.step op s).2
  syncStep : ∀ op s, J s → J (m.step op s).2
  prepare : ∀ s (instruction : CheckedInstruction) signers, I s →
    Ends (fun a => J (m.resume s a)) (fun fault => fault = .panic → E (.panic (m.activation s).calls))
      ((m.activation s).prepareNextInstruction instruction.toInstruction signers)
  process : ∀ s, J s →
    Ends (fun r => (r.1 = .ok () → I (m.resume s r.2)) ∧ F (m.resume s r.2)) E
      ((m.activation s).processInstruction invoke)
  running : ∀ s, I s → F s
  prepared : ∀ s, J s → F s

/-- One operation of a program. -/
theorem Machine.Invariant.handler_ends (h : m.Invariant invoke I J F E) (op : ProgramOp Op Ret)
    (s : σ) (hs : I s) :
    Ends (fun r => I r.2)
      (fun stop => match stop with
        | .abort abort => E abort
        | .failed _ s' => F s')
      (m.handler invoke op s) := by
  cases op with
  | basic op => exact h.step op s hs
  | invoke instruction signers sync =>
      have hprepare := h.prepare s instruction signers hs
      unfold Machine.handler
      dsimp only
      generalize (m.activation s).prepareNextInstruction instruction.toInstruction signers = prepared
        at hprepare ⊢
      rcases prepared with (err | _) | a
      · exact h.running s hs
      · exact hprepare rfl
      · have hsync := EffectTree.run_invariant h.syncStep sync (m.resume s a) hprepare
        dsimp only
        generalize sync.run m.step (m.resume s a) = synced at hsync ⊢
        rcases synced with ⟨err | _, s'⟩
        · exact h.prepared s' hsync
        · have hprocess := h.process s' hsync
          dsimp only
          generalize (m.activation s').processInstruction invoke = processed at hprocess ⊢
          rcases processed with abort | ⟨err | _, a'⟩
          · exact hprocess
          · exact hprocess.2
          · exact hprocess.1 rfl

/-- A whole program: either it ends by itself and `I` holds, or an invocation failed. -/
theorem Machine.runProgram_ends (h : m.Invariant invoke I J F E) (onFailure : BoxedError → α)
    (code : EffectTree (ProgramOp Op Ret) ProgramRet α) (s : σ) (hs : I s) :
    Ends (fun r => F r.2 ∧ (I r.2 ∨ ∃ err, r.1 = onFailure err)) E
      (m.runProgram invoke onFailure code s) := by
  have hexec := EffectTree.exec_ends h.handler_ends code s hs
  unfold Machine.runProgram
  generalize code.exec (m.handler invoke) s = run at hexec ⊢
  rcases run with (abort | ⟨err, s'⟩) | r
  · exact hexec
  · exact ⟨hexec, .inr ⟨err, rfl⟩⟩
  · exact ⟨h.running _ hexec, .inl hexec⟩

end Programs

end ProgramRuntime
end Gobble
