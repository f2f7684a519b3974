import Gobble.ProgramRuntime.AccountSafety
import Gobble.ProgramRuntime.CpiExit
import Gobble.ProgramRuntime.CpiTwins

/-!
# CpiBounds — how far the code of an invocation reaches

The code that enters and leaves an invocation runs with the rights of the runtime: it writes through
host pointers, and it changes accounts.  `Bounded P T` limits what such code has done to a caller: host
bytes outside of `P` are as they were, the regions are the same, and the transaction has changed as `T`
allows.  There is one rule for each operation of a program in `CpiM`.
-/

namespace Gobble
namespace ProgramRuntime

open Lib Sbpf Sdk Context Translation

/-! ## Bounds -/

structure Bounded (P : Set Nat) (T : Guarantee TransactionContext) (s s' : CallerState) : Prop where
  regions : s'.memory.regions? = s.memory.regions?
  host : ByteMemory.AgreeOutside P s.memory.host s'.memory.host
  syscall : s'.context.syscallContext = s.context.syscallContext
  transaction : T.rel s.context.transactionContext s'.context.transactionContext

def bounds (P : Set Nat) (T : Guarantee TransactionContext) : Guarantee CallerState where
  rel := Bounded P T
  refl := fun _ => ⟨rfl, fun _ _ => rfl, rfl, T.refl _⟩
  trans := fun h h' => ⟨h'.regions.trans h.regions, fun a ha => (h.host a ha).trans (h'.host a ha),
    h'.syscall.trans h.syscall, T.trans h.transaction h'.transaction⟩

/-- The transaction does not change. -/
def still : Guarantee TransactionContext where
  rel := fun tx tx' => tx' = tx
  refl := fun _ => rfl
  trans := fun h h' => h'.trans h

/-- The instruction that is executed stays the same, and accounts change under its authority. -/
def editing : Guarantee TransactionContext where
  rel := fun tx tx' => tx'.authority = tx.authority ∧ tx.authority.Edits tx.accounts tx'.accounts
  refl := fun _ => ⟨rfl, .refl _ _⟩
  trans := fun h h' => ⟨h'.1.trans h.1, h.2.trans (h.1 ▸ h'.2)⟩

abbrev CpiM.Runs {α : Type} (G : Guarantee CallerState) (x : CpiM α) (s : CallerState)
    (Q : α → CallerState → Prop) : Prop :=
  EffectTree.Runs cpiHandler G x s Q

/-! ## Rules -/

namespace CpiM

open EffectTree

variable {α : Type} {G : Guarantee CallerState} {P : Set Nat} {T : Guarantee TransactionContext}
  {s : CallerState} {Q : α → CallerState → Prop}

theorem runs_ofResult {x : Outcome BoxedError α} (h : ∀ a, x = .ok a → Q a s) :
    Runs G (ofResult x) s Q := by
  cases x with
  | ok a => exact runs_pure (h a rfl)
  | error fault => exact runs_throw fault

theorem runs_ofInstruction {x : Except InstructionError α} (h : ∀ a, x = .ok a → Q a s) :
    Runs G (ofInstruction x) s Q := by
  refine runs_ofResult fun a ha => h a ?_
  cases x with
  | ok b =>
      cases ha
      rfl
  | error err => cases ha

theorem runs_require {condition : Bool} {err : BoxedError} :
    Runs G (require condition err) s fun _ s' => s' = s ∧ condition = true := by
  unfold require
  cases condition with
  | true => exact runs_pure ⟨rfl, rfl⟩
  | false => exact runs_throw _

theorem runs_getContext : Runs G getContext s fun c s' => s' = s ∧ c = s.context :=
  runs_call (G.refl s) ⟨rfl, rfl⟩

theorem runs_setContext {c : InvokeContext} (h : G.rel s { s with context := c }) :
    Runs G (setContext c) s fun _ s' => s' = { s with context := c } :=
  runs_call h rfl

theorem runs_deref (hostAddr : U64) (len : Nat) :
    Runs G (deref hostAddr len) s fun bytes s' =>
      s' = s ∧ bytes = s.memory.host.readBytes hostAddr.toNat len :=
  runs_call (G.refl s) ⟨rfl, rfl⟩

theorem runs_derefU64 (hostAddr : U64) :
    Runs G (derefU64 hostAddr) s fun value s' =>
      s' = s ∧ value = BitVec.ofNat 64 (leNat (s.memory.host.readBytes hostAddr.toNat 8)) := by
  refine (runs_deref hostAddr 8).bind ?_
  rintro bytes _ - ⟨rfl, rfl⟩
  exact runs_pure ⟨rfl, rfl⟩

theorem runs_derefPubkey (hostAddr : U64) :
    Runs G (derefPubkey hostAddr) s fun key s' =>
      s' = s ∧ key = pubkeyOfBytes (s.memory.host.readBytes hostAddr.toNat 32) := by
  refine (runs_deref hostAddr 32).bind ?_
  rintro bytes _ - ⟨rfl, rfl⟩
  exact runs_pure ⟨rfl, rfl⟩

theorem runs_currentInstruction :
    Runs G currentInstruction s fun ic s' =>
      s' = s ∧ s.context.transactionContext.getCurrentInstructionContext = .ok ic := by
  refine runs_getContext.bind ?_
  rintro c _ - ⟨rfl, rfl⟩
  exact runs_ofInstruction fun ic hic => ⟨rfl, hic⟩

/-- A step that is taken under a condition. -/
theorem runs_when {condition : Bool} {step : CpiM Unit} {Q : Unit → CallerState → Prop}
    (hstep : condition = true → Runs G step s Q) (hskip : condition = false → Q () s) :
    Runs G (when condition step) s Q := by
  unfold when
  cases condition with
  | true => exact hstep rfl
  | false => exact runs_pure (hskip rfl)

/-- What is done while the transaction is still may be done under any bounds. -/
theorem Runs.moving {x : CpiM α} (h : Runs (bounds P still) x s Q) :
    Runs (bounds P T) x s fun a s' =>
      (s'.context.transactionContext = s.context.transactionContext ∧
        s'.memory.regions? = s.memory.regions? ∧
        s'.context.syscallContext = s.context.syscallContext) ∧ Q a s' := by
  refine (Runs.weaken h fun s' hs' => ?_).mono fun a s' _ hQ =>
    ⟨⟨hQ.1.transaction, hQ.1.regions, hQ.1.syscall⟩, hQ.2⟩
  exact ⟨hs'.regions, hs'.host, hs'.syscall, hs'.transaction ▸ T.refl _⟩

theorem runs_consume (amount : U64) :
    Runs (bounds P still) (consume amount) s fun _ _ => True := by
  refine runs_getContext.bind ?_
  rintro c t - ⟨rfl, rfl⟩
  -- Paying changes the meter, which no bound is about.
  have hrel : Bounded P still t { t with context := (t.context.consumeChecked amount).2 } :=
    ⟨rfl, fun _ _ => rfl, rfl, rfl⟩
  refine (runs_setContext hrel).bind fun _ _ _ _ => ?_
  exact runs_ofResult fun _ _ => trivial

theorem runs_consumeBytes (bytes : U64) :
    Runs (bounds P still) (consumeBytes bytes) s fun _ _ => True := by
  refine runs_getContext.bind ?_
  rintro c _ - ⟨rfl, rfl⟩
  exact runs_consume _

end CpiM

/-! ## Host bytes -/

/-- `len` bytes from an address on are in `P`, also if they are reached by an offset. -/
def Spans (P : Set Nat) (addr : U64) (len : Nat) : Prop :=
  ∀ i j, i + j < len → (addr + BitVec.ofNat 64 i).toNat + j ∈ P

/-- An interval of the address space. -/
theorem spans_of_fits {P : Set Nat} {addr : U64} {len : Nat} (hfits : addr.toNat + len ≤ 2 ^ 64)
    (hmem : ∀ i < len, addr.toNat + i ∈ P) : Spans P addr len := by
  intro i j hlt
  rw [U64.toNat_add_ofNat (by unfold u64Max; omega), Nat.add_assoc]
  exact hmem (i + j) hlt

theorem Spans.mem {P : Set Nat} {addr : U64} {len : Nat} (h : Spans P addr len) :
    ∀ i < len, addr.toNat + i ∈ P := by
  intro i hi
  have hfirst := h 0 i (by omega)
  rwa [BitVec.add_zero] at hfirst

theorem spans_empty (P : Set Nat) (addr : U64) : Spans P addr 0 :=
  fun i j hlt => absurd hlt (Nat.not_lt_zero (i + j))

theorem spans_univ (addr : U64) (len : Nat) : Spans Set.univ addr len :=
  fun _ _ _ => Set.mem_univ _

theorem Spans.sub {P : Set Nat} {addr : U64} {len : Nat} (h : Spans P addr len) (pos : Nat) :
    Spans P (addr + BitVec.ofNat 64 pos) (len - pos) := by
  intro i j hlt
  rw [BitVec.add_assoc, ← BitVec.ofNat_add]
  exact h (pos + i) j (by omega)

theorem Spans.mono {P : Set Nat} {addr : U64} {len len' : Nat} (h : Spans P addr len)
    (hle : len' ≤ len) : Spans P addr len' :=
  fun i j hlt => h i j (by omega)

/-- Writing bytes of `P`. -/
theorem writeBytes_agreeOutside {P : Set Nat} {addr : U64} {bytes : List UInt8}
    (h : ∀ i < bytes.length, addr.toNat + i ∈ P) (m : ByteMemory) :
    ByteMemory.AgreeOutside P m (m.writeBytes addr.toNat bytes) := by
  intro a ha
  unfold ByteMemory.writeBytes
  split
  · rename_i hle
    -- A byte that is not in `P` is not among those that are written.
    have hout : bytes.length ≤ a - addr.toNat := by
      by_contra hlt
      have hmem := h (a - addr.toNat) (by omega)
      rw [Nat.add_sub_cancel' hle] at hmem
      exact ha hmem
    rw [List.getD_eq_getElem?_getD, List.getElem?_eq_none hout, Option.getD_none]
  · rfl

namespace CpiM

open EffectTree

variable {P : Set Nat} {s : CallerState}

theorem runs_write {hostAddr : U64} {bytes : List UInt8} (h : Spans P hostAddr bytes.length) :
    Runs (bounds P still) (CpiM.write hostAddr bytes) s fun _ s' =>
      s' = { s with memory.host := s.memory.host.writeBytes hostAddr.toNat bytes } :=
  runs_call ⟨rfl, writeBytes_agreeOutside h.mem _, rfl, rfl⟩ rfl

end CpiM

/-! ## Pointers -/

theorem map_regions? (m : VmMemory) (accessType : AccessType) (vmAddr len : U64) :
    VmMemory.regions? { m with mapping := (m.mapping.map accessType vmAddr len).2 } =
      m.regions? := by
  unfold VmMemory.regions?
  rw [MemoryMapping.map_common]
  split
  · rw [Option.map_map]
    rfl
  · rfl

/-- The program looks addresses up, and that is all it does to the memory. -/
def LooksUp {α : Type} (p : VmProgram α) : Prop :=
  ∀ m, (p.run memHandler m).2.host = m.host ∧
    VmMemory.regions? (p.run memHandler m).2 = m.regions?

/-- The end of all translations does nothing to the memory. -/
theorem boxed_state {α : Type} (layout : Layout) (checkAligned : Bool) (addr : α → U64)
    (result : Except EbpfError α) {β : Type} (value : α → β) (m : VmMemory) :
    ((do
      let a ← boxed result
      checkPointer layout (addr a) checkAligned
      return value a : TranslateM β).run.run memHandler m).2 = m := by
  cases result with
  | error err => rfl
  | ok a =>
      show ((checkPointer layout (addr a) checkAligned >>= fun _ =>
        pure (value a) : TranslateM β).run.run memHandler m).2 = m
      unfold checkPointer
      split <;> rfl

theorem map_looks (accessType : AccessType) (vmAddr len : U64) (m : VmMemory) :
    (memHandler (.map accessType vmAddr len) m).2.host = m.host ∧
      (memHandler (.map accessType vmAddr len) m).2.regions? = m.regions? :=
  ⟨rfl, map_regions? m accessType vmAddr len⟩

theorem readSlice_looks (vmAddr len : U64) (m : VmMemory) :
    (memHandler (.readSlice vmAddr len) m).2.host = m.host ∧
      (memHandler (.readSlice vmAddr len) m).2.regions? = m.regions? :=
  ⟨rfl, map_regions? m .load vmAddr len⟩

/-- One access, and then nothing. -/
theorem access_looksUp {α : Type} {op : MemOp} {k : MemRet op → TranslateM α}
    (hop : ∀ m, (memHandler op m).2.host = m.host ∧
      VmMemory.regions? (memHandler op m).2 = m.regions?)
    (hk : ∀ answer m, ((k answer).run.run memHandler m).2 = m) : LooksUp (access op >>= k).run := by
  intro m
  have hstate : ((access op >>= k).run.run memHandler m).2 = (memHandler op m).2 := hk _ _
  rw [hstate]
  exact hop m

theorem translateType_looksUp (layout : Layout) (vmAddr : U64) (checkAligned : Bool) :
    LooksUp (translateType layout vmAddr checkAligned).run :=
  access_looksUp (readSlice_looks vmAddr _) fun answer =>
    boxed_state layout checkAligned Prod.fst answer Prod.snd

theorem translateTypeMut_looksUp (layout : Layout) (vmAddr : U64) (checkAligned : Bool) :
    LooksUp (translateTypeMut layout vmAddr checkAligned).run :=
  access_looksUp (map_looks .store vmAddr _) fun answer =>
    boxed_state layout checkAligned id answer id

theorem translateSlice_looksUp (layout : Layout) (vmAddr len : U64) (checkAligned : Bool) :
    LooksUp (translateSlice layout vmAddr len checkAligned).run := by
  unfold translateSlice
  dsimp only
  split
  · exact fun m => ⟨rfl, rfl⟩
  · split
    · exact fun m => ⟨rfl, rfl⟩
    · exact access_looksUp (readSlice_looks vmAddr _) fun answer =>
        boxed_state layout checkAligned Prod.fst answer Prod.snd

theorem translateSliceMut_looksUp (layout : Layout) (vmAddr len : U64) (checkAligned : Bool) :
    LooksUp (translateSliceMut layout vmAddr len checkAligned).run := by
  unfold translateSliceMut
  dsimp only
  split
  · exact fun m => ⟨rfl, rfl⟩
  · split
    · exact fun m => ⟨rfl, rfl⟩
    · exact access_looksUp (map_looks .store vmAddr _) fun answer =>
        boxed_state layout checkAligned id answer id

namespace CpiM

open EffectTree

variable {α : Type} {P : Set Nat} {s : CallerState} {regions : List MemoryRegion}

theorem runs_translate {t : TranslateM α} (ht : LooksUp t.run) {Q : α → Prop}
    (hQ : ∀ a, (t.run.run memHandler s.memory).1 = .ok a → Q a) :
    Runs (bounds P still) (translate t) s fun a s' => s'.memory.host = s.memory.host ∧ Q a := by
  obtain ⟨hhost, hregions⟩ := ht s.memory
  have hlift : Runs (bounds P still)
      (ExceptT.lift (t.run.embed .access fun _ answer => answer) : CpiM (Except BoxedError α)) s
      fun result s' => s'.memory.host = s.memory.host ∧
        result = (t.run.run memHandler s.memory).1 := by
    apply runs_lift
    · rw [run_embed_access]
      exact ⟨hregions, fun a _ => congrFun hhost.symm a, rfl, rfl⟩
    · rw [run_embed_access]
      exact ⟨hhost, rfl⟩
  refine hlift.bind fun result s' _ hresult => ?_
  refine runs_ofResult fun a ha => ⟨hresult.1, hQ a ?_⟩
  rw [← hresult.2]
  exact Outcome.lift_eq_ok.mp ha

/-- Reading a value or a slice of the guest. -/
theorem runs_read {t : TranslateM α} (ht : LooksUp t.run) :
    Runs (bounds P still) (translate t) s fun _ s' => s'.memory.host = s.memory.host :=
  (runs_translate ht (Q := fun _ => True) fun _ _ => trivial).mono fun _ _ _ h => h.1

theorem backed_of_map {m : VmMemory} (hregions : m.regions? = some regions)
    {vmAddr len host : U64} (h : (m.mapping.map .store vmAddr len).1 = .ok host) :
    Backed regions vmAddr len host := by
  obtain ⟨c, hc, rfl⟩ := Option.map_eq_some_iff.mp hregions
  exact MemoryMapping.map_ok hc h

/-- A pointer for writing. -/
theorem runs_pointer (hregions : s.memory.regions? = some regions) (layout : Layout)
    (vmAddr : U64) (checkAligned : Bool) :
    Runs (bounds P still) (translate (translateTypeMutForCpi layout vmAddr checkAligned)) s
      fun host s' => s'.memory.host = s.memory.host ∧
        Backed regions vmAddr (BitVec.ofNat 64 layout.size) host := by
  refine runs_translate (translateTypeMut_looksUp layout vmAddr checkAligned) fun host hhost => ?_
  obtain ⟨host', hresult, rfl⟩ := boxed_ok id (Prod.ext hhost rfl)
  exact backed_of_map hregions hresult

/-- A slice of bytes for writing. -/
theorem runs_slicePointer (hregions : s.memory.regions? = some regions) (vmAddr len : U64)
    (checkAligned : Bool) :
    Runs (bounds P still) (translate (translateSliceMutForCpi .u8 vmAddr len checkAligned)) s
      fun host s' => s'.memory.host = s.memory.host ∧ (len ≠ 0 → Backed regions vmAddr len host) := by
  refine runs_translate (translateSliceMut_looksUp .u8 vmAddr len checkAligned)
    fun host hhost hlen => ?_
  have htotal : U64.saturatingMul len (BitVec.ofNat 64 Layout.u8.size) = len := by
    apply BitVec.eq_of_toNat_eq
    have hlt := len.isLt
    have hone : (BitVec.ofNat 64 Layout.u8.size).toNat = 1 := rfl
    rw [U64.toNat_saturatingMul, hone]
    unfold u64Max
    omega
  unfold translateSliceMutForCpi translateSliceMut at hhost
  rw [if_neg hlen] at hhost
  dsimp only at hhost
  rw [htotal] at hhost
  split at hhost
  · cases hhost
  · obtain ⟨host', hresult, rfl⟩ := boxed_ok id (Prod.ext hhost rfl)
    exact backed_of_map hregions hresult

end CpiM

/-! ## Accounts -/

/-- An account that has been borrowed for the instruction that is executed. -/
def CallerState.Borrows (s : CallerState) (b : BorrowedInstructionAccount) : Prop :=
  s.context.transactionContext.authority.Borrows b s.context.transactionContext.accounts

theorem tryBorrowInstructionAccount_borrows {s : CallerState} {ic : InstructionContext}
    (hic : s.context.transactionContext.getCurrentInstructionContext = .ok ic)
    {index : IndexOfAccount} {b : BorrowedInstructionAccount}
    (hb : ic.tryBorrowInstructionAccount index = .ok b) : s.Borrows b := by
  obtain ⟨hmem, hprogram, hof⟩ := tryBorrowInstructionAccount_ok hb
  rw [TransactionContext.getCurrentInstructionContext_eq hic] at hof
  refine ⟨?_, hof⟩
  rw [TransactionContext.authority, hic]
  exact ⟨hmem, hprogram⟩

theorem CallerState.Borrows.congr {s t : CallerState} {b : BorrowedInstructionAccount}
    (h : s.Borrows b) (heq : t.context.transactionContext = s.context.transactionContext) :
    t.Borrows b := by
  unfold CallerState.Borrows
  rw [heq]
  exact h

namespace CpiM

open EffectTree

variable {P : Set Nat} {s : CallerState} {b : BorrowedInstructionAccount}

/-- Calling a setter. -/
theorem runs_update (hb : s.Borrows b) (change : AccountChange) :
    Runs (bounds P editing) (update fun accounts => change.apply b accounts) s
      fun b' s' => s'.Borrows b' := by
  refine runs_getContext.bind ?_
  rintro c t - ⟨rfl, rfl⟩
  refine (runs_ofInstruction (Q := fun r t' =>
    t' = t ∧ change.apply b t.context.transactionContext.accounts = .ok r) fun r hr =>
      ⟨rfl, hr⟩).bind ?_
  rintro ⟨b', accounts⟩ t' - ⟨rfl, happly⟩
  obtain ⟨hedits, hborrows⟩ := hb.apply happly
  have hauthority := (TransactionContext.SameInstructions.of_accounts hedits.keys).authority_eq
  have hrel : Bounded P editing t'
      { t' with context.transactionContext.accounts := accounts } :=
    ⟨rfl, fun _ _ => rfl, rfl, hauthority, hedits⟩
  refine (runs_setContext hrel).bind ?_
  rintro _ _ - rfl
  apply runs_pure
  unfold CallerState.Borrows
  rw [hauthority]
  exact hborrows

end CpiM

end ProgramRuntime
end Gobble
