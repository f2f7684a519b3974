import Gobble.ProgramRuntime.Twins

/-!
# CpiTwins — two callers that differ in watched bytes

Two callers are *twins* if their memories differ only in a set `W` of host bytes behind watched
addresses, and their contexts only in the data of the instructions sysvar.  Here is one rule for each
operation of a program in `CpiM`: what it does to twins as long as nothing is recorded.  A pointer
that was translated for reading has been seen by the tracker.  One that was translated for writing
has not, so reading through it is harmless only if its target is known to be outside of `W`.
-/

namespace Gobble
namespace ProgramRuntime

open Lib Sbpf Sdk Context Translation

/-! ## Callers -/

/-- What stays the same in a caller while it enters an invocation. -/
structure CallerFrame where
  /-- The regions and the watched ranges. -/
  common : CommonMemoryMapping
  accountKeys : List Pubkey
  programKey : Option Pubkey
  instructionAccounts : List InstructionAccount
  accountsMetadata : List SerializedAccountMetadata

/-- The key of the account at a position of the caller's instruction. -/
def CallerFrame.keyAt (f : CallerFrame) (i : IndexOfAccount) : Option Pubkey :=
  f.instructionAccounts[i]?.bind fun a => f.accountKeys[a.indexInTransaction]?

/-- The metadata of the caller's accounts, if it is in a syscall. -/
def InvokeContext.HasMetadata (c : InvokeContext) (metas : List SerializedAccountMetadata) : Prop :=
  ∀ syscallContext, c.getSyscallContext = .ok syscallContext →
    syscallContext.accountsMetadata = metas

/-- The context of a caller that executes the instruction of the frame and does not own the
instructions sysvar. -/
structure InvokeContext.RunsIn (f : CallerFrame) (data : List UInt8) (c : InvokeContext) : Prop where
  keys : c.transactionContext.accounts.accountKeys = f.accountKeys
  foreign : c.transactionContext.accounts.Foreign f.programKey data
  current : ∃ index program, c.transactionContext.instructionStack.getLast? = some index ∧
    index < c.transactionContext.getInstructionTraceLength ∧
    c.transactionContext.instructionTrace[index]?.map InstructionFrame.programAccountIndexInTx =
      some program ∧
    f.accountKeys[program]? = f.programKey ∧
    c.transactionContext.instructionAccounts[index]? = some f.instructionAccounts
  metadata : c.HasMetadata f.accountsMetadata

/-- The mapping has the regions of another one and watches the same addresses. -/
structure SameRegions (common c : CommonMemoryMapping) : Prop where
  tracker : c.accessTracker.WellFormed
  regions : c.regions = common.regions
  watched : c.accessTracker.watchedRanges = common.accessTracker.watchedRanges

structure MemoryTwins (common : CommonMemoryMapping) (W : Set Nat) (s t : VmMemory) : Prop where
  mapping : t.mapping = s.mapping
  regions : ∃ c, s.mapping.common? = some c ∧ SameRegions common c
  host : ByteMemory.AgreeOutside W s.host t.host

structure CallerTwins (f : CallerFrame) (W : Set Nat) (data : List UInt8) (s t : CallerState) :
    Prop where
  memory : MemoryTwins f.common W s.memory t.memory
  context : t.context = s.context.withSysvarData data
  runs : s.context.RunsIn f data

/-- Number of forbidden accesses recorded so far. -/
def CallerState.recorded (s : CallerState) : Nat := s.memory.recorded

/-! ## Memory -/

section Memory

variable {common c : CommonMemoryMapping} {W : Set Nat} {s t : VmMemory}

theorem SameRegions.shields (h : SameRegions common c) (hW : common.Shields W) : c.Shields W where
  tracker := h.tracker
  fits := by
    rw [h.regions]
    exact hW.fits
  disjoint := by
    rw [h.regions]
    exact hW.disjoint
  watched := by
    unfold CommonMemoryMapping.Watches CommonMemoryMapping.MapsTo
    rw [h.regions, h.watched]
    exact hW.watched

theorem SameRegions.checkAccess (h : SameRegions common c) (vmAddr len : U64) :
    SameRegions common (c.checkAccess vmAddr len) where
  tracker := MemoryAccessTracker.checkAccess_wellFormed h.tracker vmAddr len
  regions := h.regions
  watched := by
    rw [CommonMemoryMapping.checkAccess, MemoryAccessTracker.checkAccess_watched]
    exact h.watched

/-- The operations that translate an address without the access violation handler, and writes. -/
def isPlain : MemOp → Bool
  | .map _ _ _ => true
  | .readSlice _ _ => true
  | .write _ _ => true
  | _ => false

theorem MemoryTwins.map (h : MemoryTwins common W s t) (accessType : AccessType)
    (vmAddr len : U64) :
    MemoryTwins common W { s with mapping := (s.mapping.map accessType vmAddr len).2 }
      { t with mapping := (t.mapping.map accessType vmAddr len).2 } := by
  obtain ⟨c, hc, hsame⟩ := h.regions
  have hafter := s.mapping.map_common accessType vmAddr len
  rw [hc] at hafter
  refine ⟨by rw [h.mapping], ?_, h.host⟩
  split at hafter
  · exact ⟨_, hafter, hsame.checkAccess vmAddr len⟩
  · exact ⟨c, hafter, hsame⟩

/-- An operation that records nothing is answered alike in twins. -/
theorem MemoryTwins.step (hW : common.Shields W) {op : MemOp} (hop : isPlain op = true)
    (h : MemoryTwins common W s t) (hquiet : (memHandler op s).2.recorded = s.recorded) :
    (memHandler op s).1 = (memHandler op t).1 ∧
      MemoryTwins common W (memHandler op s).2 (memHandler op t).2 := by
  cases op with
  -- The runtime itself reads and writes by way of slices, not of loads and stores.
  | load size vmAddr => cases hop
  | store size value vmAddr => cases hop
  | touch accessType vmAddr len => cases hop
  | map accessType vmAddr len =>
      refine ⟨?_, h.map accessType vmAddr len⟩
      show (s.mapping.map accessType vmAddr len).1 = (t.mapping.map accessType vmAddr len).1
      rw [h.mapping]
  | readSlice vmAddr len =>
      obtain ⟨c, hc, hsame⟩ := h.regions
      refine ⟨?_, h.map .load vmAddr len⟩
      -- Nothing was recorded, so the slice is outside of what is watched, and the twins agree
      -- there.
      have hanswer := readSlice_answer hc (hsame.shields hW) h.host vmAddr len hquiet
      have ht : t = ⟨s.mapping, t.host⟩ := by
        rw [← h.mapping]
      rw [ht]
      exact hanswer
  -- Both write the same bytes to the same place.
  | write hostAddr bytes => exact ⟨rfl, h.mapping, h.regions, h.host.writeBytes _ _⟩

/-- All operations that the program may perform are plain. -/
def OnlyPlain {α : Type} : VmProgram α → Prop
  | .pure _ => True
  | .perform op k => isPlain op = true ∧ ∀ answer, OnlyPlain (k answer)

theorem OnlyPlain.along {α : Type} {p : VmProgram α} (hp : OnlyPlain p) (s : VmMemory) :
    EffectTree.Along memHandler (fun op _ => isPlain op = true) p s := by
  induction p generalizing s with
  | pure a => trivial
  | perform op k ih => exact ⟨hp.1, ih _ (hp.2 _) _⟩

theorem OnlyPlain.run {α : Type} {p : VmProgram α} (hp : OnlyPlain p) (hW : common.Shields W)
    (h : MemoryTwins common W s t) (hquiet : (p.run memHandler s).2.recorded = s.recorded) :
    (p.run memHandler s).1 = (p.run memHandler t).1 ∧
      MemoryTwins common W (p.run memHandler s).2 (p.run memHandler t).2 := by
  have hquietAlong := EffectTree.along_of_run_eq VmMemory.recorded memHandler_recorded_mono p s
    hquiet
  refine EffectTree.run_related (fun op s t htwins hop => ?_) p s t h
    ((EffectTree.along_and p s).mpr ⟨hp.along s, hquietAlong⟩)
  exact htwins.step hW hop.1 hop.2

end Memory

/-! ## Translating pointers -/

section Translation

/-- The end of all translations. -/
theorem boxed_plain {α : Type} (layout : Layout) (checkAligned : Bool) (addr : α → U64)
    (result : Except EbpfError α) {β : Type} (value : α → β) :
    OnlyPlain (do
      let a ← boxed result
      checkPointer layout (addr a) checkAligned
      return value a : TranslateM β).run := by
  cases result with
  | error err => trivial
  | ok a =>
      show OnlyPlain (checkPointer layout (addr a) checkAligned >>= fun _ => pure (value a)).run
      unfold checkPointer
      split <;> trivial

theorem translateType_plain (layout : Layout) (vmAddr : U64) (checkAligned : Bool) :
    OnlyPlain (translateType layout vmAddr checkAligned).run :=
  ⟨rfl, fun answer => boxed_plain layout checkAligned Prod.fst answer Prod.snd⟩

theorem translateTypeMut_plain (layout : Layout) (vmAddr : U64) (checkAligned : Bool) :
    OnlyPlain (translateTypeMut layout vmAddr checkAligned).run :=
  ⟨rfl, fun answer => boxed_plain layout checkAligned id answer id⟩

theorem translateSlice_plain (layout : Layout) (vmAddr len : U64) (checkAligned : Bool) :
    OnlyPlain (translateSlice layout vmAddr len checkAligned).run := by
  unfold translateSlice
  dsimp only
  split
  · trivial
  · split
    · trivial
    · exact ⟨rfl, fun answer => boxed_plain layout checkAligned Prod.fst answer Prod.snd⟩

theorem translateSliceMut_plain (layout : Layout) (vmAddr len : U64) (checkAligned : Bool) :
    OnlyPlain (translateSliceMut layout vmAddr len checkAligned).run := by
  unfold translateSliceMut
  dsimp only
  split
  · trivial
  · split
    · trivial
    · exact ⟨rfl, fun answer => boxed_plain layout checkAligned id answer id⟩

/-- One of the regions backs the pointer, and may be written there. -/
def Backed (regions : List MemoryRegion) (vmAddr len host : U64) : Prop :=
  ∃ r ∈ regions, r.vmToHost .store vmAddr len = some host

/-- A translated pointer has been checked, and nothing else has happened to it. -/
theorem boxed_ok {α : Type} {layout : Layout} {checkAligned : Bool} {result : Except EbpfError α}
    {addr : α → U64} {β : Type} (value : α → β) {s s' : VmMemory} {b : β}
    (h : (do
      let a ← boxed result
      checkPointer layout (addr a) checkAligned
      return value a : TranslateM β).run.run memHandler s = (.ok b, s')) :
    ∃ a, result = .ok a ∧ b = value a := by
  cases result with
  | error err => cases h
  | ok a =>
      refine ⟨a, rfl, ?_⟩
      have h : (checkPointer layout (addr a) checkAligned >>= fun _ =>
        pure (value a) : TranslateM β).run.run memHandler s = (.ok b, s') := h
      unfold checkPointer at h
      split at h
      · cases h
      · cases h
        rfl

theorem translateTypeMut_points {common : CommonMemoryMapping} {layout : Layout} {vmAddr : U64}
    {checkAligned : Bool} {s : VmMemory}
    (hs : ∃ c, s.mapping.common? = some c ∧ SameRegions common c) {host : U64}
    (h : ((translateTypeMut layout vmAddr checkAligned).run.run memHandler s).1 = .ok host) :
    Backed common.regions vmAddr (BitVec.ofNat 64 layout.size) host := by
  obtain ⟨c, hc, hsame⟩ := hs
  obtain ⟨host', hresult, rfl⟩ := boxed_ok id (Prod.ext h rfl)
  obtain ⟨r, hr, hhost⟩ := MemoryMapping.map_ok hc hresult
  exact ⟨r, hsame.regions ▸ hr, hhost⟩

theorem translateSliceMut_points {common : CommonMemoryMapping} {vmAddr : U64}
    {checkAligned : Bool} {s : VmMemory}
    (hs : ∃ c, s.mapping.common? = some c ∧ SameRegions common c) {host : U64}
    (h : ((translateSliceMut .u8 vmAddr 1 checkAligned).run.run memHandler s).1 = .ok host) :
    Backed common.regions vmAddr 1 host := by
  obtain ⟨c, hc, hsame⟩ := hs
  obtain ⟨host', hresult, rfl⟩ := boxed_ok id (Prod.ext h rfl)
  obtain ⟨r, hr, hhost⟩ := MemoryMapping.map_ok hc hresult
  exact ⟨r, hsame.regions ▸ hr, hhost⟩

end Translation

/-! ## Rules -/

/-- `x` and `y` do the same to twins, as long as `x` records nothing. -/
abbrev Alike (f : CallerFrame) (W : Set Nat) (data : List UInt8) {α β : Type} (V : α → β → Prop)
    (x : CpiM α) (y : CpiM β) : Prop :=
  EffectTree.TwoRuns cpiHandler CallerState.recorded (CallerTwins f W data) V x y

section Rules

variable {f : CallerFrame} {W : Set Nat} {data : List UInt8} {α α' β β' : Type}

theorem cpiHandler_recorded_mono (op : CpiOp) (s : CallerState) :
    s.recorded ≤ (cpiHandler op s).2.recorded := by
  cases op with
  | access op => exact memHandler_recorded_mono op s.memory
  | deref hostAddr len => exact Nat.le_refl _
  | getContext => exact Nat.le_refl _
  | setContext context => exact Nat.le_refl _

theorem Alike.bind {V : α → β → Prop} {V' : α' → β' → Prop} {x : CpiM α} {y : CpiM β}
    {k : α → CpiM α'} {k' : β → CpiM β'} (hxy : Alike f W data V x y)
    (hk : ∀ a b, V a b → Alike f W data V' (k a) (k' b)) :
    Alike f W data V' (x >>= k) (y >>= k') :=
  EffectTree.TwoRuns.bind cpiHandler_recorded_mono hxy hk

theorem Alike.mapM {γ : Type} {V : α → β → Prop} {k : γ → CpiM α} {k' : γ → CpiM β} (l : List γ)
    (hk : ∀ c ∈ l, Alike f W data V (k c) (k' c)) :
    Alike f W data (List.Forall₂ V) (l.mapM k) (l.mapM k') :=
  EffectTree.TwoRuns.mapM cpiHandler_recorded_mono l hk

/-- A loop whose body returns the same value twice. -/
theorem Alike.mapM_eq {γ : Type} {k k' : γ → CpiM α} (l : List γ)
    (hk : ∀ c ∈ l, Alike f W data Eq (k c) (k' c)) :
    Alike f W data Eq (l.mapM k) (l.mapM k') := by
  refine (Alike.mapM l hk).mono ?_
  intro as bs h
  rwa [List.forall₂_eq_eq_eq] at h

namespace CpiM

theorem ofResult_alike {V : α → β → Prop} {x : Outcome BoxedError α} {y : Outcome BoxedError β}
    (h : EffectTree.Agree V x y) : Alike f W data V (ofResult x) (ofResult y) := by
  cases x <;> cases y
  · obtain rfl := h
    exact .throw _
  · exact h.elim
  · exact h.elim
  · exact .pure h

theorem ofResult_self (x : Outcome BoxedError α) :
    Alike f W data Eq (ofResult x) (ofResult x) :=
  ofResult_alike (EffectTree.agree_self fun _ _ => rfl)

theorem ofInstruction_alike {V : α → β → Prop} {x : Except InstructionError α}
    {y : Except InstructionError β} (h : EffectTree.Agree V x y) :
    Alike f W data V (ofInstruction x) (ofInstruction y) :=
  ofResult_alike (agree_lift (h.mapError _))

theorem ofInstruction_self (x : Except InstructionError α) :
    Alike f W data Eq (ofInstruction x) (ofInstruction x) :=
  ofInstruction_alike (EffectTree.agree_self fun _ _ => rfl)

/-- What has been required may be used. -/
theorem require_alike (condition : Bool) (err : BoxedError) :
    Alike f W data (fun _ _ => condition = true) (require condition err)
      (require condition err) := by
  cases condition with
  | true => exact .pure rfl
  | false => exact .throw _

theorem when_alike {P : Prop} {condition : Bool} {x y : CpiM Unit}
    (h : condition = true → Alike f W data (fun _ _ => P) x y) :
    Alike f W data (fun _ _ => condition = true → P) (when condition x) (when condition y) := by
  cases condition with
  | true => exact (h rfl).mono fun _ _ hP _ => hP
  | false => exact .pure Bool.noConfusion

theorem getContext_alike :
    Alike f W data (fun c c' => c' = c.withSysvarData data ∧ c.RunsIn f data) getContext
      getContext := by
  intro s t hR _
  exact ⟨⟨hR.context, hR.runs⟩, hR⟩

theorem setContext_alike {c : InvokeContext} (hc : c.RunsIn f data) :
    Alike f W data (fun _ _ => True) (setContext c) (setContext (c.withSysvarData data)) := by
  intro s t hR _
  exact ⟨trivial, hR.memory, rfl, hc⟩

theorem deref_alike {hostAddr : U64} {len : Nat} (hmiss : ∀ i < len, hostAddr.toNat + i ∉ W) :
    Alike f W data Eq (deref hostAddr len) (deref hostAddr len) := by
  intro s t hR _
  exact ⟨hR.memory.host.readBytes hmiss, hR⟩

theorem derefU64_alike {hostAddr : U64} (hmiss : ∀ i < 8, hostAddr.toNat + i ∉ W) :
    Alike f W data Eq (derefU64 hostAddr) (derefU64 hostAddr) := by
  refine (deref_alike hmiss).bind ?_
  rintro bytes _ rfl
  exact .pure rfl

theorem derefPubkey_alike {hostAddr : U64} (hmiss : ∀ i < 32, hostAddr.toNat + i ∉ W) :
    Alike f W data Eq (derefPubkey hostAddr) (derefPubkey hostAddr) := by
  refine (deref_alike hmiss).bind ?_
  rintro bytes _ rfl
  exact .pure rfl

theorem write_alike (hostAddr : U64) (bytes : List UInt8) :
    Alike f W data (fun _ _ => True) (CpiM.write hostAddr bytes) (CpiM.write hostAddr bytes) := by
  intro s t hR _
  have htwins : MemoryTwins f.common W
      { s.memory with host := s.memory.host.writeBytes hostAddr.toNat bytes }
      { t.memory with host := t.memory.host.writeBytes hostAddr.toNat bytes } :=
    ⟨hR.memory.mapping, hR.memory.regions, hR.memory.host.writeBytes _ _⟩
  exact ⟨trivial, htwins, hR.context, hR.runs⟩

theorem consume_alike (amount : U64) :
    Alike f W data (fun _ _ => True) (consume amount) (consume amount) := by
  refine getContext_alike.bind ?_
  rintro c _ ⟨rfl, hc⟩
  have hruns : (c.consume amount).RunsIn f data :=
    ⟨hc.keys, hc.foreign, hc.current, hc.metadata⟩
  refine (setContext_alike hruns).bind fun _ _ _ => ?_
  exact (ofResult_self _).mono fun _ _ _ => trivial

theorem consumeBytes_alike (bytes : U64) :
    Alike f W data (fun _ _ => True) (consumeBytes bytes) (consumeBytes bytes) := by
  refine getContext_alike.bind ?_
  rintro c _ ⟨rfl, -⟩
  exact consume_alike _

end CpiM

/-! ## Translations -/

section Shielded

variable (hW : f.common.Shields W)

/-- A program over the memory, run inside of the larger state. -/
theorem run_embed_access (p : VmProgram α) (s : CallerState) :
    (p.embed .access fun _ answer => answer).run cpiHandler s =
      ((p.run memHandler s.memory).1, { s with memory := (p.run memHandler s.memory).2 }) :=
  EffectTree.run_embed CallerState.memory (fun memory s => { s with memory }) (fun _ _ => rfl)
    (fun _ _ _ => rfl) (fun _ => rfl) (fun _ _ => rfl) p s

theorem run_translate (t : TranslateM α) (s : CallerState) :
    ((CpiM.translate t).run.run cpiHandler s).1 =
      Outcome.lift (t.run.run memHandler s.memory).1 := by
  have hbind : ∀ z : EffectTree CpiOp CpiRet (Except BoxedError α),
      ((do CpiM.ofResult (Outcome.lift (← ExceptT.lift z)) : CpiM α).run.run cpiHandler s).1 =
        Outcome.lift (z.run cpiHandler s).1 := by
    intro z
    induction z generalizing s with
    | pure result => cases result <;> rfl
    | perform op k ih => exact ih _ _
  unfold CpiM.translate
  rw [hbind, run_embed_access]

include hW

theorem translate_alike {t : TranslateM α} (ht : OnlyPlain t.run) :
    Alike f W data Eq (CpiM.translate t) (CpiM.translate t) := by
  have hrun : Alike f W data Eq
      (ExceptT.lift (t.run.embed .access fun _ answer => answer) : CpiM (Except BoxedError α))
      (ExceptT.lift (t.run.embed .access fun _ answer => answer)) := by
    refine .lift fun s u hR hquiet => ?_
    rw [run_embed_access] at hquiet ⊢
    rw [run_embed_access]
    obtain ⟨hanswer, htwins⟩ := ht.run hW hR.memory hquiet
    exact ⟨hanswer, htwins, hR.context, hR.runs⟩
  refine hrun.bind ?_
  rintro result _ rfl
  exact CpiM.ofResult_self _

/-- A pointer for writing, with the region behind it. -/
theorem pointer_alike (layout : Layout) (vmAddr : U64) (checkAligned : Bool) :
    Alike f W data
      (fun a b => a = b ∧ Backed f.common.regions vmAddr (BitVec.ofNat 64 layout.size) a)
      (CpiM.translate (translateTypeMutForCpi layout vmAddr checkAligned))
      (CpiM.translate (translateTypeMutForCpi layout vmAddr checkAligned)) := by
  refine (translate_alike hW (translateTypeMut_plain layout vmAddr checkAligned)).post ?_
  intro s t hR host hhost
  rw [run_translate] at hhost
  exact translateTypeMut_points hR.memory.regions (Outcome.lift_eq_ok.mp hhost)

/-- The pointer to the start of the input. -/
theorem inputPointer_alike :
    Alike f W data (fun a b => a = b ∧ Backed f.common.regions mmInputStart 1 a)
      (CpiM.translate (translateSliceMutForCpi .u8 mmInputStart 1 false))
      (CpiM.translate (translateSliceMutForCpi .u8 mmInputStart 1 false)) := by
  refine (translate_alike hW (translateSliceMut_plain .u8 mmInputStart 1 false)).post ?_
  intro s t hR host hhost
  rw [run_translate] at hhost
  exact translateSliceMut_points hR.memory.regions (Outcome.lift_eq_ok.mp hhost)

end Shielded

/-! ## Accounts -/

/-- The instruction of the caller. -/
structure CallerView (f : CallerFrame) (data : List UInt8) (ic : InstructionContext) : Prop where
  instructionAccounts : ic.instructionAccounts = f.instructionAccounts
  programKey : ic.transactionContext.accounts.accountKey ic.programAccountIndexInTx = f.programKey
  keys : ic.transactionContext.accounts.accountKeys = f.accountKeys
  foreign : ic.transactionContext.accounts.Foreign f.programKey data

theorem InvokeContext.RunsIn.view {c : InvokeContext} (hc : c.RunsIn f data)
    {ic : InstructionContext} (hic : c.transactionContext.getCurrentInstructionContext = .ok ic) :
    CallerView f data ic := by
  obtain ⟨index, program, hstack, -, htrace, hprogram, haccounts⟩ := hc.current
  unfold TransactionContext.getCurrentInstructionContext
    TransactionContext.getCurrentInstructionIndex at hic
  rw [hstack] at hic
  have hic : c.transactionContext.getInstructionContextAtIndexInTrace index = .ok ic := hic
  unfold TransactionContext.getInstructionContextAtIndexInTrace at hic
  obtain ⟨frame, hframe, rfl⟩ := Option.map_eq_some_iff.mp htrace
  rw [hframe] at hic
  cases hic
  refine ⟨?_, ?_, hc.keys, hc.foreign⟩
  · dsimp only
    rw [haccounts, Option.getD_some]
  · rw [TransactionAccounts.accountKey_eq_getElem?, hc.keys, hprogram]

theorem currentInstruction_alike :
    Alike f W data (fun ic ic' => ic' = ic.withSysvarData data ∧ CallerView f data ic)
      CpiM.currentInstruction CpiM.currentInstruction := by
  refine CpiM.getContext_alike.bind ?_
  rintro c _ ⟨rfl, hc⟩
  refine (CpiM.ofInstruction_alike
    (getCurrentInstructionContext_twins data c.transactionContext)).mono ?_
  rintro ic _ ⟨rfl, hic⟩
  exact ⟨rfl, hc.view hic⟩

/-- What is borrowed from twins. -/
def BorrowedTwins (f : CallerFrame) (data : List UInt8) (key : Pubkey)
    (b b' : BorrowedInstructionAccount) : Prop :=
  b' = b.withSysvarData data ∧ b.Foreign f.programKey f.accountKeys data ∧ b.key = key

theorem tryBorrowInstructionAccount_twins {ic : InstructionContext} (hic : CallerView f data ic)
    (i : IndexOfAccount) :
    EffectTree.Agree (fun b b' => ∃ key, BorrowedTwins f data key b b' ∧ f.keyAt i = some key)
      (ic.tryBorrowInstructionAccount i)
      ((ic.withSysvarData data).tryBorrowInstructionAccount i) := by
  rw [ic.withSysvarData_tryBorrowInstructionAccount data]
  refine EffectTree.agree_map fun b hb => ?_
  unfold InstructionContext.tryBorrowInstructionAccount at hb
  split at hb
  · cases hb
  · rename_i a ha
    split at hb
    · cases hb
    · rename_i key account hentry
      cases hb
      have hkey : f.accountKeys[a.indexInTransaction]? = some key := by
        rw [← hic.keys, ← TransactionAccounts.accountKey_eq_getElem?, TransactionAccounts.accountKey,
          hentry]
        rfl
      refine ⟨key, ⟨rfl, ⟨hic.programKey, hkey, ?_⟩, rfl⟩, ?_⟩
      · exact fun hsysvar => hic.foreign _ (List.mem_of_getElem? hentry) hsysvar
      · rw [CallerFrame.keyAt, ← hic.instructionAccounts, ha, Option.bind_some, hkey]

/-- Changing an account of the context. -/
theorem InvokeContext.RunsIn.setAccounts {c : InvokeContext} (hc : c.RunsIn f data)
    {accounts : TransactionAccounts} (hkeys : accounts.accountKeys = f.accountKeys)
    (hforeign : accounts.Foreign f.programKey data) :
    ({ c with transactionContext.accounts := accounts } : InvokeContext).RunsIn f data :=
  ⟨hkeys, hforeign, hc.current, hc.metadata⟩

theorem update_alike {key : Pubkey} {b : BorrowedInstructionAccount} (hb : b.key = key)
    {setter setter' : TransactionAccounts → BorrowedInstructionAccount.Updated}
    (h : ∀ accounts : TransactionAccounts, accounts.Foreign f.programKey data →
      accounts.accountKeys = f.accountKeys →
      EffectTree.Agree
        (BorrowedInstructionAccount.UpdatedTwins f.programKey f.accountKeys data b)
        (setter accounts) (setter' (accounts.withSysvarData data))) :
    Alike f W data (BorrowedTwins f data key) (CpiM.update setter) (CpiM.update setter') := by
  refine CpiM.getContext_alike.bind ?_
  rintro c _ ⟨rfl, hc⟩
  refine (CpiM.ofInstruction_alike (h _ hc.foreign hc.keys)).bind ?_
  rintro ⟨callee, accounts⟩ ⟨_, _⟩ ⟨rfl, rfl, hcallee, hforeign, hkeys, hkey⟩
  refine (CpiM.setContext_alike (hc.setAccounts hkeys hforeign)).bind fun _ _ _ => ?_
  exact .pure ⟨rfl, hcallee, hkey.trans hb⟩

end Rules

end ProgramRuntime
end Gobble
