import Gobble.ProgramRuntime.CpiBounds
import Mathlib.Data.List.ReduceOption

/-!
# CpiSafety — an invocation keeps to the rights of its caller

The arguments of the syscalls that invoke programs are addresses that the caller has chosen, and the
structures behind them are what the caller has put there.  Here the code is walked through once for
all of that.  Whatever the memory holds, the runtime writes only to memory that the caller may write, or
that is reserved for the data of its accounts, and it changes accounts only as the caller may.
-/

namespace Gobble
namespace ProgramRuntime

open Lib Sbpf Sdk Context Translation EffectTree CpiM

/-! ## Memory of the caller -/

/-- The pointers that can be made from the regions of the caller and from the addresses of its accounts
stay in `P`. -/
structure Reach (P : Set Nat) (mode : MappingMode) (checkAligned : Bool) (regions : List MemoryRegion)
    (metas : List SerializedAccountMetadata) : Prop where
  pointer : ∀ {vmAddr len host : U64}, Backed regions vmAddr len host → Spans P host len.toNat
  input : mode.stricterAbiAndRuntimeConstraints = true → mode.isDirect = false → ∀ {start : U64},
    Backed regions mmInputStart 1 start → ∀ m ∈ metas,
      Spans P (start + U64.saturatingSub m.vmDataAddr mmInputStart)
        (addressSpaceReservedForAccount checkAligned m.originalDataLen)

/-- The data of an account is described by the metadata.  Its address has been checked with stricter
constraints only. -/
def DescribedBy (mode : MappingMode) (metas : List SerializedAccountMetadata) (vmDataAddr : U64)
    (originalDataLen : Nat) : Prop :=
  ∃ m ∈ metas, m.originalDataLen = originalDataLen ∧
    (mode.stricterAbiAndRuntimeConstraints = true → m.vmDataAddr = vmDataAddr)

/-- The slice that can be made for `len` bytes of the data of an account stays in `P`.  With stricter
constraints it is a part of the input, unless the data is mapped directly. -/
structure DataWithin (P : Set Nat) (mode : MappingMode) (checkAligned : Bool)
    (regions : List MemoryRegion) (vmDataAddr : U64) (originalDataLen len : Nat) : Prop where
  fits : mode.stricterAbiAndRuntimeConstraints = false → len < 2 ^ 64
  slice : mode.stricterAbiAndRuntimeConstraints = false → ∀ {host : U64},
    Backed regions vmDataAddr (BitVec.ofNat 64 len) host → Spans P host len
  input : mode.stricterAbiAndRuntimeConstraints = true → mode.isDirect = false → ∀ {start : U64},
    Backed regions mmInputStart 1 start →
      Spans P (start + U64.saturatingSub vmDataAddr mmInputStart)
        (addressSpaceReservedForAccount checkAligned originalDataLen)

theorem Reach.dataWithin {P : Set Nat} {mode : MappingMode} {checkAligned : Bool}
    {regions : List MemoryRegion} {metas : List SerializedAccountMetadata} {vmDataAddr : U64}
    {originalDataLen len : Nat} (h : Reach P mode checkAligned regions metas)
    (hdescribed : DescribedBy mode metas vmDataAddr originalDataLen)
    (hlen : mode.stricterAbiAndRuntimeConstraints = false → len < 2 ^ 64) :
    DataWithin P mode checkAligned regions vmDataAddr originalDataLen len where
  fits := hlen
  slice := fun hlax host hbacked => by
    have hlt := hlen hlax
    have hspans := h.pointer hbacked
    rwa [U64.toNat_ofNat (by unfold u64Max; omega)] at hspans
  input := fun hstricter hcopied start hstart => by
    obtain ⟨m, hm, rfl, haddr⟩ := hdescribed
    rw [← haddr hstricter]
    exact h.input hstricter hcopied hstart m hm

/-- All pointers of the account stay in `P`. -/
structure CallerAccount.Within (P : Set Nat) (mode : MappingMode)
    (metas : List SerializedAccountMetadata) (a : CallerAccount) : Prop where
  lamports : Spans P a.lamports 8
  owner : Spans P a.owner 32
  length : Spans P a.refToLenInVm 8
  data : Spans P a.serializedData.addr a.serializedData.len
  described : DescribedBy mode metas a.vmDataAddr a.originalDataLen

section Pointers

variable {P : Set Nat} {mode : MappingMode} {checkAligned : Bool} {regions : List MemoryRegion}
  {metas : List SerializedAccountMetadata} {s : CallerState}

theorem getSerializedData_runs {vmAddr : U64} {originalDataLen len : Nat}
    (hdata : DataWithin P mode checkAligned regions vmAddr originalDataLen len)
    (hs : s.memory.regions? = some regions) :
    Runs (bounds P still)
      (CallerAccount.getSerializedData mode checkAligned vmAddr originalDataLen len) s
      fun slice _ => Spans P slice.addr slice.len := by
  refine runs_require.bind ?_
  rintro _ t - ⟨rfl, hroom⟩
  split
  · -- With direct mapping the slice is empty, and nothing is ever written through it.
    exact runs_pure (spans_empty P _)
  · rename_i hcopied
    split
    · rename_i hstricter
      -- Only the first byte of the input is translated.  The room that was required bounds the
      -- rest.
      refine (runs_slicePointer hs mmInputStart 1 false).bind fun start _ _ hstart => ?_
      rw [hstricter, Bool.not_true, Bool.false_or, decide_eq_true_eq] at hroom
      exact runs_pure ((hdata.input hstricter (Bool.eq_false_iff.mpr hcopied)
        (hstart.2 (by decide))).mono hroom)
    · rename_i hstricter
      have hlax := Bool.eq_false_iff.mpr hstricter
      refine (runs_slicePointer hs vmAddr (BitVec.ofNat 64 len) false).bind fun pointer _ _ h => ?_
      apply runs_pure
      -- The address of an empty slice is not looked up, so it may be in no region.
      by_cases hzero : BitVec.ofNat 64 len = 0
      · have hlt := hdata.fits hlax
        have hvalue : (BitVec.ofNat 64 len).toNat = len := U64.toNat_ofNat (by unfold u64Max; omega)
        rw [hzero] at hvalue
        have hempty : len = 0 := hvalue.symm
        rw [hempty]
        exact spans_empty P pointer
      · exact hdata.slice hlax (h.2 hzero)

variable {m : SerializedAccountMetadata}

theorem fromFields_runs (hreach : Reach P mode checkAligned regions metas)
    (hs : s.memory.regions? = some regions) (hm : m ∈ metas) {lamports owner : U64}
    (hlamports : Spans P lamports 8) (howner : Spans P owner 32) {vmDataAddr : U64}
    (haddr : mode.stricterAbiAndRuntimeConstraints = true → m.vmDataAddr = vmDataAddr)
    (dataLen vmLenAddr : U64) :
    Runs (bounds P still)
      (CallerAccount.fromFields mode checkAligned m lamports owner vmDataAddr dataLen vmLenAddr) s
      fun account _ => account.Within P mode metas := by
  refine runs_require.bind ?_
  rintro _ t - ⟨rfl, -⟩
  refine (runs_pointer hs .u64 vmLenAddr false).bind fun refToLenInVm t₁ ht₁ hpointer => ?_
  -- Without stricter constraints the length is the one in the caller's account info.
  have hlen : Runs (bounds P still) (if mode.stricterAbiAndRuntimeConstraints = true then
      derefU64 refToLenInVm else pure dataLen) t₁ fun _ t₂ => t₂ = t₁ := by
    split
    · exact (runs_derefU64 refToLenInVm).mono fun _ _ _ h => h.1
    · exact runs_pure rfl
  refine hlen.bind ?_
  rintro len t₂ - rfl
  have hdescribed : DescribedBy mode metas vmDataAddr m.originalDataLen := ⟨m, hm, rfl, haddr⟩
  refine (getSerializedData_runs (hreach.dataWithin hdescribed fun _ => len.isLt)
    (ht₁.regions.trans hs)).bind fun slice _ _ hslice => ?_
  exact runs_pure ⟨hlamports, howner, hreach.pointer hpointer.2, hslice, hdescribed⟩

theorem checkAccountInfoPointer_runs (vmAddr expectedVmAddr : U64) :
    Runs (bounds P still) (checkAccountInfoPointer vmAddr expectedVmAddr) s
      fun _ t => t = s ∧ expectedVmAddr = vmAddr :=
  runs_require.mono fun _ _ _ h => ⟨h.1, (beq_iff_eq.mp h.2).symm⟩

theorem fromAccountInfo_runs (hreach : Reach P mode checkAligned regions metas)
    (hs : s.memory.regions? = some regions) (hm : m ∈ metas) (vmAddr : U64)
    (accountInfo : List UInt8) :
    Runs (bounds P still) (CallerAccount.fromAccountInfo mode checkAligned vmAddr accountInfo m) s
      fun account _ => account.Within P mode metas := by
  unfold CallerAccount.fromAccountInfo
  have hchecks : Runs (bounds P still) (when mode.stricterAbiAndRuntimeConstraints do
      checkAccountInfoPointer (wordAt accountInfo 0) m.vmKeyAddr
      checkAccountInfoPointer (wordAt accountInfo 24) m.vmOwnerAddr) s fun _ t => t = s := by
    refine runs_when (fun _ => ?_) fun _ => rfl
    refine (checkAccountInfoPointer_runs ..).bind ?_
    rintro _ t - ⟨rfl, -⟩
    exact (checkAccountInfoPointer_runs ..).mono fun _ _ _ h => h.1
  refine hchecks.bind ?_
  rintro _ t - rfl
  refine (runs_read (translateType_looksUp _ _ _)).bind fun ptr t₁ ht₁ _ => ?_
  have hs₁ := ht₁.regions.trans hs
  -- The `RefCell` of the lamports is read in any case, and checked with stricter constraints.
  have hcell : Runs (bounds P still) (when mode.stricterAbiAndRuntimeConstraints do
      require (decide (cellAddr (wordAt accountInfo 8) < mmInputStart)) (.cpi .invalidPointer)
      checkAccountInfoPointer (wordAt ptr 0) m.vmLamportsAddr) t₁ fun _ t₂ => t₂ = t₁ := by
    refine runs_when (fun _ => ?_) fun _ => rfl
    refine runs_require.bind ?_
    rintro _ t - ⟨rfl, -⟩
    exact (checkAccountInfoPointer_runs ..).mono fun _ _ _ h => h.1
  refine hcell.bind ?_
  rintro _ t₂ - rfl
  refine (runs_pointer hs₁ .u64 _ _).bind fun lamports t₃ ht₃ hlamports => ?_
  have hs₃ := ht₃.regions.trans hs₁
  refine (runs_pointer hs₃ .pubkey _ _).bind fun owner t₄ ht₄ howner => ?_
  have hs₄ := ht₄.regions.trans hs₃
  refine runs_require.bind ?_
  rintro _ t₅ - ⟨rfl, -⟩
  refine (runs_read (translateType_looksUp _ _ _)).bind fun data t₆ ht₆ _ => ?_
  have hs₆ := ht₆.regions.trans hs₄
  have hdata : Runs (bounds P still) (when mode.stricterAbiAndRuntimeConstraints
      (checkAccountInfoPointer (wordAt data 0) m.vmDataAddr)) t₆ fun _ t₇ => t₇ = t₆ ∧
        (mode.stricterAbiAndRuntimeConstraints = true → m.vmDataAddr = wordAt data 0) := by
    refine runs_when (fun _ => ?_) fun hlax => ⟨rfl, fun h => absurd (hlax.symm.trans h) (by decide)⟩
    exact (checkAccountInfoPointer_runs ..).mono fun _ _ _ h => ⟨h.1, fun _ => h.2⟩
  refine hdata.bind ?_
  rintro _ t₇ - ⟨rfl, haddr⟩
  have hpay : Runs (bounds P still) (when (!mode.stricterAbiAndRuntimeConstraints)
      (consumeBytes (wordAt data 8))) t₇ fun _ _ => True :=
    runs_when (fun _ => runs_consumeBytes _) fun _ => trivial
  refine hpay.bind fun _ t₈ ht₈ _ => ?_
  exact fromFields_runs hreach (ht₈.regions.trans hs₆) hm (hreach.pointer hlamports.2)
    (hreach.pointer howner.2) haddr _ _

theorem fromSolAccountInfo_runs (hreach : Reach P mode checkAligned regions metas)
    (hs : s.memory.regions? = some regions) (hm : m ∈ metas) (vmAddr : U64)
    (accountInfo : List UInt8) :
    Runs (bounds P still) (CallerAccount.fromSolAccountInfo mode checkAligned vmAddr accountInfo m) s
      fun account _ => account.Within P mode metas := by
  unfold CallerAccount.fromSolAccountInfo
  have hchecks : Runs (bounds P still) (when mode.stricterAbiAndRuntimeConstraints do
      checkAccountInfoPointer (wordAt accountInfo 0) m.vmKeyAddr
      checkAccountInfoPointer (wordAt accountInfo 32) m.vmOwnerAddr
      checkAccountInfoPointer (wordAt accountInfo 8) m.vmLamportsAddr
      checkAccountInfoPointer (wordAt accountInfo 24) m.vmDataAddr) s fun _ t => t = s ∧
        (mode.stricterAbiAndRuntimeConstraints = true →
          m.vmDataAddr = wordAt accountInfo 24) := by
    refine runs_when (fun _ => ?_) fun hlax => ⟨rfl, fun h => absurd (hlax.symm.trans h) (by decide)⟩
    refine (checkAccountInfoPointer_runs ..).bind ?_
    rintro _ t - ⟨rfl, -⟩
    refine (checkAccountInfoPointer_runs ..).bind ?_
    rintro _ t - ⟨rfl, -⟩
    refine (checkAccountInfoPointer_runs ..).bind ?_
    rintro _ t - ⟨rfl, -⟩
    exact (checkAccountInfoPointer_runs ..).mono fun _ _ _ h => ⟨h.1, fun _ => h.2⟩
  refine hchecks.bind ?_
  rintro _ t - ⟨rfl, haddr⟩
  refine (runs_pointer hs .u64 _ _).bind fun lamports t₁ ht₁ hlamports => ?_
  have hs₁ := ht₁.regions.trans hs
  refine (runs_pointer hs₁ .pubkey _ _).bind fun owner t₂ ht₂ howner => ?_
  have hs₂ := ht₂.regions.trans hs₁
  have hpay : Runs (bounds P still) (when (!mode.stricterAbiAndRuntimeConstraints)
      (consumeBytes (wordAt accountInfo 16))) t₂ fun _ _ => True :=
    runs_when (fun _ => runs_consumeBytes _) fun _ => trivial
  refine hpay.bind fun _ t₃ ht₃ _ => ?_
  exact fromFields_runs hreach (ht₃.regions.trans hs₂) hm (hreach.pointer hlamports.2)
    (hreach.pointer howner.2) haddr _ _

theorem fromInfo_runs (abi : Abi) (hreach : Reach P mode checkAligned regions metas)
    (hs : s.memory.regions? = some regions) (hm : m ∈ metas) (vmAddr : U64)
    (accountInfo : List UInt8) :
    Runs (bounds P still) (abi.fromInfo mode checkAligned vmAddr accountInfo m) s
      fun account _ => account.Within P mode metas := by
  cases abi with
  | rust => exact fromAccountInfo_runs hreach hs hm vmAddr accountInfo
  | c => exact fromSolAccountInfo_runs hreach hs hm vmAddr accountInfo

end Pointers

/-! ## Updating accounts before the invocation -/

section Callee

variable {P : Set Nat} {mode : MappingMode} {checkAligned : Bool} {regions : List MemoryRegion}
  {metas : List SerializedAccountMetadata} {s : CallerState} {caller : CallerAccount}
  {callee : BorrowedInstructionAccount}

theorem zeroUnused_runs (hreach : Reach P mode checkAligned regions metas)
    (hs : s.memory.regions? = some regions) (hcaller : caller.Within P mode metas)
    {prevLen : Nat} (hlen : mode.stricterAbiAndRuntimeConstraints = false → prevLen < 2 ^ 64)
    (postLen : Nat) :
    Runs (bounds P still) (zeroUnused mode checkAligned caller prevLen postLen) s fun _ _ => True := by
  refine (getSerializedData_runs (hreach.dataWithin hcaller.described hlen) hs).bind
    fun slice t _ hslice => ?_
  refine runs_require.bind ?_
  rintro _ t - ⟨rfl, -⟩
  -- What is zeroed are the bytes of the slice from the new length on.
  have hspans := hslice.sub postLen
  exact (runs_write (by rwa [List.length_replicate])).mono fun _ _ _ _ => trivial

theorem updateCalleeLength_runs (hreach : Reach P mode checkAligned regions metas)
    (hs : s.memory.regions? = some regions) (hcaller : caller.Within P mode metas)
    (hcallee : s.Borrows callee) (hstricter : mode.stricterAbiAndRuntimeConstraints = true)
    (postLen : Nat) :
    Runs (bounds P editing) (updateCalleeLength mode checkAligned caller callee postLen) s
      fun callee t => t.Borrows callee := by
  unfold updateCalleeLength
  dsimp only
  split
  · -- Without stricter constraints this function is not called, so the old length need not be
    -- small.
    have hzero : Runs (bounds P still)
        (when (!mode.accountDataDirectMapping && decide (postLen < callee.getData.length))
          (zeroUnused mode checkAligned caller callee.getData.length postLen)) s fun _ _ => True :=
      runs_when (fun _ => zeroUnused_runs hreach hs hcaller
        (fun hlax => absurd (hlax.symm.trans hstricter) Bool.false_ne_true) postLen) fun _ => trivial
    refine hzero.moving.bind fun _ t _ ht => ?_
    exact runs_update (hcallee.congr ht.1.1) (.dataLength postLen)
  · exact runs_pure hcallee

theorem updateCalleeBytes_runs (hcallee : s.Borrows callee) :
    Runs (bounds P editing) (updateCalleeBytes mode caller callee) s
      fun callee t => t.Borrows callee := by
  unfold updateCalleeBytes
  split
  · refine (runs_deref _ _).bind ?_
    rintro data t - ⟨rfl, -⟩
    exact runs_update hcallee (.data data)
  · exact runs_pure hcallee

theorem updateCalleeData_runs (hcallee : s.Borrows callee) :
    Runs (bounds P editing) (updateCalleeData caller callee) s fun callee t => t.Borrows callee := by
  refine (runs_deref _ _).bind ?_
  rintro data t - ⟨rfl, -⟩
  refine runs_getContext.bind ?_
  rintro c t - ⟨rfl, -⟩
  split
  · -- The caller may write the data.  If it may not, the data has to be the same.
    exact runs_update hcallee (.data data)
  · split
    · exact runs_throw _
    · exact runs_pure hcallee

theorem syncCalleeData_runs (hreach : Reach P mode checkAligned regions metas)
    (hs : s.memory.regions? = some regions) (hcaller : caller.Within P mode metas)
    (hcallee : s.Borrows callee) :
    Runs (bounds P editing) (syncCalleeData mode checkAligned caller callee) s
      fun r t => t.Borrows r.1 := by
  unfold syncCalleeData
  split
  · rename_i hstricter
    refine (runs_derefU64 _).bind ?_
    rintro postLen t - ⟨rfl, -⟩
    refine (updateCalleeLength_runs hreach hs hcaller hcallee hstricter _).bind
      fun resized t₁ _ hresized => ?_
    exact (updateCalleeBytes_runs hresized).bind fun updated t₂ _ hupdated => runs_pure hupdated
  · exact (updateCalleeData_runs hcallee).bind fun updated t _ hupdated => runs_pure hupdated

/-- Whatever the caller has written over its accounts. -/
theorem updateCalleeAccount_runs (hreach : Reach P mode checkAligned regions metas)
    (hs : s.memory.regions? = some regions) (hcaller : caller.Within P mode metas)
    (hcallee : s.Borrows callee) :
    Runs (bounds P editing) (updateCalleeAccount mode checkAligned caller callee) s
      fun _ _ => True := by
  refine (runs_derefU64 _).bind ?_
  rintro lamports t - ⟨rfl, -⟩
  -- Every field is set by the setter of the account, which checks the rights of the caller.
  have hpaid : Runs (bounds P editing) (if callee.getLamports ≠ lamports then
      update fun accounts => callee.setLamports accounts lamports else pure callee) t
      fun callee t => t.Borrows callee := by
    split
    · exact runs_update hcallee (.lamports lamports)
    · exact runs_pure hcallee
  refine hpaid.bind fun paid t₁ ht₁ hpaid => ?_
  refine (syncCalleeData_runs hreach (ht₁.regions.trans hs) hcaller hpaid).bind
    fun r t₂ _ hupdated => ?_
  refine (runs_derefPubkey _).bind ?_
  rintro owner t₃ - ⟨rfl, -⟩
  split
  · exact (runs_update hupdated (.owner owner)).bind fun _ _ _ _ => runs_pure trivial
  · exact runs_pure trivial

end Callee

/-! ## Entering -/

section Enter

variable {P : Set Nat} {mode : MappingMode} {checkAligned : Bool} {regions : List MemoryRegion}
  {metas : List SerializedAccountMetadata} {s : CallerState}

theorem InvokeContext.HasMetadata.congr {c c' : InvokeContext} (h : c.HasMetadata metas)
    (heq : c'.syscallContext = c.syscallContext) : c'.HasMetadata metas := by
  intro syscallContext hcontext
  unfold InvokeContext.getSyscallContext at hcontext
  rw [heq] at hcontext
  exact h syscallContext hcontext

theorem translateCallerAccount_runs {t : AccountTranslation}
    (hreach : Reach P t.mode t.checkAligned regions t.accountsMetadata)
    (hs : s.memory.regions? = some regions) (instructionAccount : InstructionAccount)
    (indexInCaller : IndexOfAccount) {callee : BorrowedInstructionAccount}
    (hcallee : s.Borrows callee) (callerAccountIndex : Nat) :
    Runs (bounds P editing)
      (translateCallerAccount t instructionAccount indexInCaller callee callerAccountIndex) s
      fun account _ => account.callerAccount.Within P t.mode t.accountsMetadata := by
  refine (runs_ofResult (Q := fun m s' => s' = s ∧ m ∈ t.accountsMetadata) fun m hm =>
    ⟨rfl, List.mem_of_getElem? (Outcome.okOr_eq_ok.mp hm)⟩).bind ?_
  rintro m s₁ - ⟨rfl, hm⟩
  refine (runs_ofResult (Q := fun _ s' => s' = s₁) fun _ _ => rfl).bind ?_
  rintro accountInfo s₂ - rfl
  refine (fromInfo_runs t.abi hreach hs hm _ _).moving.bind fun caller s₃ _ hcaller => ?_
  obtain ⟨⟨htx, hregions, -⟩, hwithin⟩ := hcaller
  -- With stricter constraints the accounts are only paid for here, and synchronized when all of
  -- them have been translated.
  have hupdate : Runs (bounds P editing) (if t.mode.stricterAbiAndRuntimeConstraints = true then do
      consumeBytes (← derefU64 caller.refToLenInVm)
      return true
    else updateCalleeAccount t.mode t.checkAligned caller callee) s₃ fun _ _ => True := by
    split
    · refine (runs_derefU64 _).bind ?_
      rintro len s₄ - ⟨rfl, -⟩
      exact (runs_consumeBytes len).moving.bind fun _ _ _ _ => runs_pure trivial
    · exact updateCalleeAccount_runs hreach (hregions.trans hs) hwithin (hcallee.congr htx)
  exact hupdate.bind fun _ _ _ _ => runs_pure hwithin

theorem translateAccount_runs {t : AccountTranslation}
    (hreach : Reach P t.mode t.checkAligned regions t.accountsMetadata)
    (hs : s.memory.regions? = some regions) (next : InstructionContext)
    (instructionAccount : InstructionAccount × Nat) :
    Runs (bounds P editing) (translateAccount t next instructionAccount) s
      fun account _ => ∀ a ∈ account, a.callerAccount.Within P t.mode t.accountsMetadata := by
  refine (runs_ofInstruction (Q := fun _ s' => s' = s) fun _ _ => rfl).bind ?_
  rintro duplicate s₁ - rfl
  split
  · -- A duplicate is translated at its first position.
    exact runs_pure fun a ha => by cases ha
  · refine runs_currentInstruction.bind ?_
    rintro ic s₂ - ⟨rfl, hic⟩
    refine (runs_ofInstruction (Q := fun _ s' => s' = s₂) fun _ _ => rfl).bind ?_
    rintro index s₃ - rfl
    refine (runs_ofInstruction (Q := fun callee s' => s' = s₃ ∧ s₃.Borrows callee) fun callee h =>
      ⟨rfl, tryBorrowInstructionAccount_borrows hic h⟩).bind ?_
    rintro callee s₄ - ⟨rfl, hcallee⟩
    refine (runs_ofInstruction (Q := fun _ s' => s' = s₄) fun _ _ => rfl).bind ?_
    rintro key s₅ - rfl
    split
    · -- An executable account is not written back.
      exact (runs_consumeBytes _).moving.bind fun _ _ _ _ => runs_pure fun a ha => by cases ha
    · split
      · exact runs_throw _
      · refine (translateCallerAccount_runs hreach hs _ _ hcallee _).bind fun account _ _ h => ?_
        apply runs_pure
        intro a ha
        cases ha
        exact h

theorem translateAccountsCommon_runs (hreach : Reach P mode checkAligned regions metas)
    (hs : s.memory.regions? = some regions) (hmetas : s.context.HasMetadata metas) (abi : Abi)
    (accountInfosAddr : U64) (accountInfos : List (List UInt8)) (accountInfoKeys : List Pubkey) :
    Runs (bounds P editing)
      (translateAccountsCommon abi mode checkAligned accountInfosAddr accountInfos accountInfoKeys) s
      fun accounts _ => ∀ a ∈ accounts, a.callerAccount.Within P mode metas := by
  refine runs_getContext.bind ?_
  rintro c s₁ - ⟨rfl, rfl⟩
  refine (runs_ofInstruction (Q := fun _ s' => s' = s₁) fun _ _ => rfl).bind ?_
  rintro next s₂ - rfl
  refine runs_currentInstruction.bind ?_
  rintro _ s₃ - ⟨rfl, -⟩
  refine (runs_ofResult (Q := fun syscallContext s' =>
    s' = s₃ ∧ syscallContext.accountsMetadata = metas) fun syscallContext h => ⟨rfl, ?_⟩).bind ?_
  · have hsome := Outcome.unwrap_eq_ok.mp h
    cases hcontext : s₃.context.getSyscallContext with
    | error err =>
        rw [hcontext] at hsome
        cases hsome
    | ok found =>
        rw [hcontext] at hsome
        cases hsome
        exact hmetas syscallContext hcontext
  · rintro syscallContext s₄ - ⟨rfl, rfl⟩
    -- Each account is translated in the state that the ones before it have left.
    have hloop : Runs (bounds P editing) (next.instructionAccounts.zipIdx.mapM (translateAccount
        ⟨abi, mode, checkAligned, accountInfosAddr, accountInfos, accountInfoKeys,
          syscallContext.accountsMetadata⟩ next)) s₄ fun accounts _ => ∀ account ∈ accounts,
        ∀ a ∈ account, a.callerAccount.Within P mode syscallContext.accountsMetadata := by
      refine runs_mapM _ fun account _ s₅ hs₅ => ?_
      exact translateAccount_runs (t := ⟨abi, mode, checkAligned, accountInfosAddr, accountInfos,
        accountInfoKeys, _⟩) hreach (hs₅.regions.trans hs) next account
    refine hloop.bind fun accounts _ _ haccounts => ?_
    apply runs_pure
    intro a ha
    exact haccounts (some a) (List.reduceOption_mem_iff.mp ha) a rfl

/-! Before an instruction has been prepared, the context changes by what is paid only. -/

theorem checkInstructionSize_runs (numAccounts dataLen : Nat) :
    Runs (bounds P still) (checkInstructionSize numAccounts dataLen) s fun _ t => t = s := by
  refine runs_require.bind ?_
  rintro _ t - ⟨rfl, -⟩
  exact runs_require.mono fun _ _ _ h => h.1

theorem translateInstructionRust_runs (addr : U64) :
    Runs (bounds P still) (translateInstructionRust addr checkAligned) s fun _ _ => True := by
  refine (runs_read (translateType_looksUp _ _ _)).bind fun ix _ _ _ => ?_
  refine (runs_read (translateSlice_looksUp _ _ _ _)).bind fun accountMetas _ _ _ => ?_
  refine (runs_read (translateSlice_looksUp _ _ _ _)).bind fun data _ _ _ => ?_
  refine (checkInstructionSize_runs _ _).bind ?_
  rintro _ t - rfl
  refine runs_getContext.bind ?_
  rintro c t - ⟨rfl, rfl⟩
  refine (runs_consume _).bind fun _ _ _ _ => ?_
  refine (runs_mapM (V := fun _ => True) _ fun accountMeta _ _ _ => ?_).bind fun _ _ _ _ =>
    runs_pure trivial
  exact runs_require.bind fun _ _ _ _ => runs_pure trivial

theorem translateInstructionC_runs (addr : U64) :
    Runs (bounds P still) (translateInstructionC addr checkAligned) s fun _ _ => True := by
  refine (runs_read (translateType_looksUp _ _ _)).bind fun ix _ _ _ => ?_
  refine (runs_read (translateType_looksUp _ _ _)).bind fun programId _ _ _ => ?_
  refine (runs_read (translateSlice_looksUp _ _ _ _)).bind fun accountMetas _ _ _ => ?_
  refine (runs_read (translateSlice_looksUp _ _ _ _)).bind fun data _ _ _ => ?_
  refine (checkInstructionSize_runs _ _).bind ?_
  rintro _ t - rfl
  refine runs_getContext.bind ?_
  rintro c t - ⟨rfl, rfl⟩
  refine (runs_consume _).bind fun _ _ _ _ => ?_
  refine (runs_mapM (V := fun _ => True) _ fun accountMeta _ _ _ => ?_).bind fun _ _ _ _ =>
    runs_pure trivial
  refine runs_require.bind fun _ _ _ _ => ?_
  exact (runs_read (translateType_looksUp _ _ _)).bind fun _ _ _ _ => runs_pure trivial

theorem translateInstruction_runs (abi : Abi) (addr : U64) :
    Runs (bounds P still) (abi.translateInstruction addr checkAligned) s fun _ _ => True := by
  cases abi with
  | rust => exact translateInstructionRust_runs addr
  | c => exact translateInstructionC_runs addr

theorem translateSigners_runs (env : CpiEnvironment) (programId : Pubkey)
    (signersSeedsAddr signersSeedsLen : U64) :
    Runs (bounds P still)
      (translateSigners env programId signersSeedsAddr signersSeedsLen checkAligned) s
      fun _ _ => True := by
  unfold translateSigners
  split
  · refine (runs_read (translateSlice_looksUp _ _ _ _)).bind fun signersSeeds _ _ _ => ?_
    refine runs_require.bind fun _ _ _ _ => ?_
    refine (runs_mapM (V := fun _ => True) _ fun signerSeeds _ _ _ => ?_).mono
      fun _ _ _ _ => trivial
    refine (runs_read (translateSlice_looksUp _ _ _ _)).bind fun seeds _ _ _ => ?_
    refine runs_require.bind fun _ _ _ _ => ?_
    refine (runs_mapM (V := fun _ => True) _ fun seed _ _ _ =>
      (runs_read (translateSlice_looksUp _ _ _ _)).mono fun _ _ _ _ => trivial).bind
        fun _ _ _ _ => ?_
    exact runs_ofResult fun _ _ => trivial
  · exact runs_pure trivial

theorem translateAccountInfos_runs (abi : Abi) (accountInfosAddr accountInfosLen : U64) :
    Runs (bounds P still)
      (translateAccountInfos abi mode checkAligned accountInfosAddr accountInfosLen) s
      fun _ _ => True := by
  refine runs_require.bind fun _ _ _ _ => ?_
  refine (runs_read (translateSlice_looksUp _ _ _ _)).bind fun accountInfos t₁ _ _ => ?_
  have hlimit : Runs (bounds P still)
      (checkAccountInfos (elements abi.accountInfo accountInfos).length) t₁ fun _ _ => True :=
    runs_getContext.bind fun _ _ _ _ => runs_require.mono fun _ _ _ _ => trivial
  refine hlimit.bind fun _ t₂ _ _ => ?_
  refine runs_getContext.bind fun c t₃ _ _ => ?_
  have hpay : Runs (bounds P still) (when c.featureSet.increaseCpiAccountInfoLimit
      (consumeBytes (BitVec.ofNat 64
        ((elements abi.accountInfo accountInfos).length * accountInfoByteSize)))) t₃ fun _ _ => True :=
    runs_when (fun _ => runs_consumeBytes _) fun _ => trivial
  refine hpay.bind fun _ _ _ _ => ?_
  refine (runs_mapM (V := fun _ => True) _ fun accountInfo _ _ _ => ?_).bind fun _ _ _ _ =>
    runs_pure trivial
  exact (runs_read (translateType_looksUp _ _ _)).bind fun _ _ _ _ => runs_pure trivial

theorem translateAccounts_runs (hreach : Reach P mode checkAligned regions metas)
    (hs : s.memory.regions? = some regions) (hmetas : s.context.HasMetadata metas) (abi : Abi)
    (accountInfosAddr accountInfosLen : U64) :
    Runs (bounds P editing)
      (translateAccounts abi mode checkAligned accountInfosAddr accountInfosLen) s
      fun accounts _ => ∀ a ∈ accounts, a.callerAccount.Within P mode metas := by
  refine (translateAccountInfos_runs abi accountInfosAddr accountInfosLen).moving.bind
    fun infos t _ ht => ?_
  obtain ⟨⟨-, hregions, hsyscall⟩, -⟩ := ht
  exact translateAccountsCommon_runs hreach (hregions.trans hs) (hmetas.congr hsyscall) abi _ _ _

theorem synchronizeAccount_runs (hreach : Reach P mode checkAligned regions metas)
    (hs : s.memory.regions? = some regions) {account : TranslatedAccount}
    (haccount : account.callerAccount.Within P mode metas) :
    Runs (bounds P editing) (synchronizeAccount mode checkAligned account) s
      fun a _ => a.callerAccount.Within P mode metas := by
  refine runs_currentInstruction.bind ?_
  rintro ic t - ⟨rfl, hic⟩
  refine (runs_ofInstruction (Q := fun callee t' => t' = t ∧ t.Borrows callee) fun callee h =>
    ⟨rfl, tryBorrowInstructionAccount_borrows hic h⟩).bind ?_
  rintro callee t₁ - ⟨rfl, hcallee⟩
  exact (updateCalleeAccount_runs hreach hs haccount hcallee).bind fun _ _ _ _ => runs_pure haccount

/-- Preparing the next instruction leaves the accounts alone, and the caller is still the one that is
executed. -/
theorem prepareNextInstruction_editing {reach : List IndexOfAccount} {c c' : InvokeContext}
    (hc : c.transactionContext.Executes reach) {instruction : Instruction} {signers : List Pubkey}
    (h : c.prepareNextInstruction instruction signers = .ok c') :
    c'.syscallContext = c.syscallContext ∧
      editing.rel c.transactionContext c'.transactionContext := by
  have hconfigures := c.prepareNextInstruction_configures instruction signers
  rw [h] at hconfigures
  obtain ⟨_, _, _, _, _, tx, hconfigured, rfl⟩ := hconfigures
  obtain ⟨last, -, rfl⟩ := TransactionContext.configureNextInstruction_ok hconfigured
  refine ⟨rfl, hc.authority_eq rfl ?_ (List.prefix_append _ _) rfl, .refl _ _⟩
  dsimp only
  rw [List.dropLast_concat]

theorem enterPaidCpi_runs (hreach : Reach P mode checkAligned regions metas)
    (hs : s.memory.regions? = some regions) (hmetas : s.context.HasMetadata metas)
    {reach : List IndexOfAccount} (hexecutes : s.context.transactionContext.Executes reach)
    (env : CpiEnvironment) (request : CpiRequest) :
    Runs (bounds P editing) (enterPaidCpi mode checkAligned env request) s
      fun accounts _ => ∀ a ∈ accounts, a.callerAccount.Within P mode metas := by
  refine (translateInstruction_runs request.abi request.instructionAddr).moving.bind
    fun instruction t₁ _ ht₁ => ?_
  obtain ⟨⟨htx₁, hregions₁, hsyscall₁⟩, -⟩ := ht₁
  refine runs_currentInstruction.bind ?_
  rintro ic t₂ - ⟨rfl, -⟩
  refine (runs_ofInstruction (Q := fun _ t => t = t₂) fun _ _ => rfl).bind ?_
  rintro callerProgramId t₃ - rfl
  refine (translateSigners_runs env callerProgramId _ _).moving.bind fun signers t₄ _ ht₄ => ?_
  obtain ⟨⟨htx₄, hregions₄, hsyscall₄⟩, -⟩ := ht₄
  refine runs_require.bind ?_
  rintro _ t₅ - ⟨rfl, -⟩
  refine runs_getContext.bind ?_
  rintro c t₆ - ⟨rfl, rfl⟩
  refine (runs_ofResult (Q := fun prepared t => t = t₆ ∧
    t₆.context.prepareNextInstruction instruction signers = .ok prepared) fun prepared h =>
      ⟨rfl, ?_⟩).bind ?_
  · cases hprepare : t₆.context.prepareNextInstruction instruction signers with
    | ok c =>
        rw [hprepare] at h
        cases h
        rfl
    | error fault =>
        rw [hprepare] at h
        cases fault <;> cases h
  · rintro prepared t₇ - ⟨rfl, hprepare⟩
    -- Translating the instruction and the signers has not touched the transaction.
    have hcaller : t₇.context.transactionContext.Executes reach := by
      rw [htx₄, htx₁]
      exact hexecutes
    obtain ⟨hsyscall, hediting⟩ := prepareNextInstruction_editing hcaller hprepare
    have hrel : Bounded P editing t₇ { t₇ with context := prepared } :=
      ⟨rfl, fun _ _ => rfl, hsyscall, hediting⟩
    -- From here on accounts may change, and the caller is still the one whose rights are checked.
    refine (runs_setContext hrel).bind ?_
    rintro _ t₈ - rfl
    have hs₈ := hregions₄.trans (hregions₁.trans hs)
    have hmetas₈ : prepared.HasMetadata metas :=
      hmetas.congr (hsyscall.trans (hsyscall₄.trans hsyscall₁))
    refine (translateAccounts_runs (s := { t₇ with context := prepared }) hreach hs₈ hmetas₈
      _ _ _).bind fun accounts t₉ ht₉ haccounts => ?_
    split
    · refine runs_mapM _ fun account haccount t₁₀ ht₁₀ => ?_
      exact synchronizeAccount_runs hreach (ht₁₀.regions.trans (ht₉.regions.trans hs₈))
        (haccounts account haccount)
    · exact runs_pure haccounts

/-- Whatever the caller asks for. -/
theorem enterCpi_runs (hreach : Reach P s.context.featureSet.mapping s.context.getCheckAligned
      regions metas)
    (hs : s.memory.regions? = some regions) (hmetas : s.context.HasMetadata metas)
    {reach : List IndexOfAccount} (hexecutes : s.context.transactionContext.Executes reach)
    (env : CpiEnvironment) (request : CpiRequest) :
    Runs (bounds P editing) (enterCpi env request) s fun accounts _ =>
      ∀ a ∈ accounts, a.callerAccount.Within P s.context.featureSet.mapping metas := by
  refine runs_getContext.bind ?_
  rintro c t - ⟨rfl, rfl⟩
  refine (runs_consume _).moving.bind fun _ t₁ _ ht₁ => ?_
  obtain ⟨⟨htx, hregions, hsyscall⟩, -⟩ := ht₁
  exact enterPaidCpi_runs hreach (hregions.trans hs) (hmetas.congr hsyscall) (htx ▸ hexecutes) env
    request

end Enter

/-! ## Leaving -/

section Exit

variable {P : Set Nat} {mode : MappingMode} {checkAligned : Bool} {regions : List MemoryRegion}
  {metas : List SerializedAccountMetadata} {s : CallerState} {caller : CallerAccount}

theorem resizeSlice_runs (hslice : Spans P caller.serializedData.addr caller.serializedData.len)
    {postLen : Nat}
    (hdata : DataWithin P mode checkAligned regions caller.vmDataAddr caller.originalDataLen postLen)
    (hs : s.memory.regions? = some regions) (prevLen : Nat) :
    Runs (bounds P still) (caller.resizeSlice mode checkAligned prevLen postLen) s
      fun resized _ => ∃ slice, resized = { caller with serializedData := slice } ∧
        Spans P slice.addr slice.len := by
  unfold CallerAccount.resizeSlice
  split
  · exact runs_pure ⟨caller.serializedData, rfl, hslice⟩
  · -- Data that has shrunk is zeroed through the old slice, before the new one is made.
    have hzero : Runs (bounds P still)
        (when (decide (postLen < prevLen)) (caller.zeroShrunk postLen)) s fun _ _ => True := by
      refine runs_when (fun _ => ?_) fun _ => trivial
      refine runs_require.bind ?_
      rintro _ t - ⟨rfl, -⟩
      have hspans := hslice.sub postLen
      exact (runs_write (by rwa [List.length_replicate])).mono fun _ _ _ _ => trivial
    refine hzero.bind fun _ t ht _ => ?_
    refine (getSerializedData_runs hdata (ht.regions.trans hs)).bind fun slice _ _ h => ?_
    exact runs_pure ⟨slice, rfl, h⟩

theorem CallerAccount.Within.withSlice (h : caller.Within P mode metas) {slice : HostSlice}
    (hslice : Spans P slice.addr slice.len) :
    CallerAccount.Within P mode metas { caller with serializedData := slice } :=
  ⟨h.lamports, h.owner, h.length, hslice, h.described⟩

theorem writeLength_runs (hreach : Reach P mode checkAligned regions metas)
    (hs : s.memory.regions? = some regions) (hcaller : caller.Within P mode metas)
    (postLen : Nat) :
    Runs (bounds P still) (caller.writeLength checkAligned postLen) s fun _ _ => True := by
  have hwidth : (leBytes 8 postLen).length = 8 := length_leBytes 8 postLen
  refine (runs_write (hwidth.symm ▸ hcaller.length)).bind fun _ t ht _ => ?_
  -- The second length is in front of the data, at an address computed from that of the data.
  refine (runs_pointer (ht.regions.trans hs) .u64 _ _).bind fun pointer t₁ _ hpointer => ?_
  exact (runs_write (hwidth.symm ▸ hreach.pointer hpointer.2)).mono fun _ _ _ _ => trivial

theorem updateCallerLength_runs (hreach : Reach P mode checkAligned regions metas)
    (hs : s.memory.regions? = some regions) (hcaller : caller.Within P mode metas)
    (prevLen : Nat) {postLen : Nat}
    (hlen : mode.stricterAbiAndRuntimeConstraints = false → prevLen ≠ postLen → postLen < 2 ^ 64) :
    Runs (bounds P still) (updateCallerLength mode checkAligned caller prevLen postLen) s
      fun resized _ => resized.Within P mode metas := by
  unfold updateCallerLength
  split
  · rename_i hne
    refine (resizeSlice_runs hcaller.data
      (hreach.dataWithin hcaller.described fun h => hlen h hne) hs prevLen).bind ?_
    rintro _ t ht ⟨slice, rfl, hslice⟩
    have hresized := hcaller.withSlice hslice
    exact (writeLength_runs hreach (ht.regions.trans hs) hresized postLen).bind fun _ _ _ _ =>
      runs_pure hresized
  · exact runs_pure hcaller

/-- The lengths of accounts and the room that they have to grow are lengths. -/
def SmallData (metas : List SerializedAccountMetadata) : Prop :=
  ∀ m ∈ metas, m.originalDataLen + maxPermittedDataIncrease < 2 ^ 64

theorem updateCallerAccount_runs (hreach : Reach P mode checkAligned regions metas)
    (hsmall : SmallData metas) (hs : s.memory.regions? = some regions)
    (hcaller : caller.Within P mode metas) (callee : BorrowedInstructionAccount) :
    Runs (bounds P still) (updateCallerAccount mode checkAligned caller callee) s
      fun updated _ => updated.Within P mode metas := by
  refine (runs_write ((length_leBytes 8 _).symm ▸ hcaller.lamports)).bind fun _ t₁ ht₁ _ => ?_
  refine (runs_write (Vector.length_toList.symm ▸ hcaller.owner)).bind fun _ t₂ ht₂ _ => ?_
  have hs₂ := ht₂.regions.trans (ht₁.regions.trans hs)
  refine (runs_derefU64 _).bind ?_
  rintro prevLen t₃ - ⟨rfl, -⟩
  refine runs_require.bind ?_
  rintro _ t₄ - ⟨rfl, hroom⟩
  -- A length that has changed is within the room that is reserved.
  have hlen : mode.stricterAbiAndRuntimeConstraints = false →
      prevLen.toNat ≠ callee.getData.length → callee.getData.length < 2 ^ 64 := by
    intro hlax hne
    obtain ⟨m, hm, horiginal, -⟩ := hcaller.described
    have hlt := hsmall m hm
    rw [horiginal] at hlt
    have hle : callee.getData.length ≤ caller.originalDataLen + maxPermittedDataIncrease := by
      simpa [addressSpaceReservedAtExit, hlax, hne] using hroom
    omega
  refine (updateCallerLength_runs hreach hs₂ hcaller prevLen.toNat hlen).bind
    fun resized t₅ _ hresized => ?_
  have hdata : Runs (bounds P still) (updateCallerData mode resized callee) t₅ fun _ _ => True := by
    unfold updateCallerData
    split
    · exact runs_pure trivial
    · refine runs_require.bind ?_
      rintro _ t₆ - ⟨rfl, hsame⟩
      exact (runs_write (beq_iff_eq.mp hsame ▸ hresized.data)).mono fun _ _ _ _ => trivial
  exact hdata.bind fun _ _ _ _ => runs_pure hresized

theorem exitAccounts_runs (hreach : Reach P mode checkAligned regions metas)
    (hsmall : SmallData metas) (hs : s.memory.regions? = some regions)
    {accounts : List TranslatedAccount}
    (haccounts : ∀ a ∈ accounts, a.callerAccount.Within P mode metas) :
    Runs (bounds P still) (exitAccounts mode checkAligned accounts) s fun _ _ => True := by
  refine runs_currentInstruction.bind ?_
  rintro ic t - ⟨rfl, -⟩
  refine (runs_mapM (V := fun _ => True) _ fun account haccount t₁ ht₁ => ?_).bind fun _ _ _ _ =>
    runs_pure trivial
  refine (runs_ofInstruction (Q := fun _ t => t = t₁) fun _ _ => rfl).bind ?_
  rintro callee t₂ - rfl
  split
  · exact (updateCallerAccount_runs hreach hsmall (ht₁.regions.trans hs)
      (haccounts account haccount) callee).bind fun _ _ _ _ => runs_pure trivial
  · exact runs_pure trivial

end Exit

/-! ## The whole invocation -/

/-- The host bytes of the regions that may be written. -/
def writableBytes (regions : List MemoryRegion) : Set Nat :=
  { a | ∃ r ∈ regions, r.writable = true ∧ a ∈ r.hostBytes }

/-- With stricter constraints, if the data of accounts is copied: the host bytes in the input that are
reserved for it. -/
def reservedBytes (mode : MappingMode) (checkAligned : Bool) (regions : List MemoryRegion)
    (metas : List SerializedAccountMetadata) : Set Nat :=
  { a | mode.stricterAbiAndRuntimeConstraints = true ∧ mode.isDirect = false ∧
      ∃ start, Backed regions mmInputStart 1 start ∧ ∃ m ∈ metas,
        ∃ i < addressSpaceReservedForAccount checkAligned m.originalDataLen,
          a = (start + U64.saturatingSub m.vmDataAddr mmInputStart).toNat + i }

/-- What is assumed about the memory of a caller: its regions and the room for its accounts are
intervals of the host's address space. -/
structure CallerState.Sound (s : CallerState) (regions : List MemoryRegion)
    (metas : List SerializedAccountMetadata) : Prop where
  mapped : s.memory.regions? = some regions
  fits : ∀ r ∈ regions, r.HostFits
  metadata : s.context.HasMetadata metas
  small : SmallData metas
  input : s.context.featureSet.mapping.stricterAbiAndRuntimeConstraints = true →
    s.context.featureSet.mapping.isDirect = false →
      ∀ start, Backed regions mmInputStart 1 start → ∀ m ∈ metas,
        (start + U64.saturatingSub m.vmDataAddr mmInputStart).toNat +
          addressSpaceReservedForAccount s.context.getCheckAligned m.originalDataLen ≤ 2 ^ 64

/-! ## An invocation that changes two accounts

The memory of the caller is laid out as `serialize_parameters` does it, in each of the three modes. -/

namespace Growing

def programKey : Pubkey := Vector.replicate 32 1

def firstKey : Pubkey := Vector.replicate 32 2

def secondKey : Pubkey := Vector.replicate 32 3

/-- The program, and two accounts that it owns. -/
def accounts : List (Pubkey × AccountSharedData) :=
  [(programKey, ⟨1, [], bpfLoaderUpgradeableId, true, 0⟩), (firstKey, ⟨5, [3], programKey, false, 0⟩),
    (secondKey, ⟨7, [8, 9], programKey, false, 0⟩)]

def instructionAccounts : List InstructionAccount :=
  [⟨1, false, true⟩, ⟨2, false, true⟩, ⟨0, false, false⟩]

/-- The transaction after the instruction of the program has been entered. -/
def transaction : TransactionContext :=
  let configured := (TransactionContext.new accounts 5 64).configureNextInstruction 0
    instructionAccounts (dedupMapOf (indicesOf instructionAccounts)) [] none
  (configured.toOption.map fun tx => tx.push.2).getD (.new accounts 5 64)

def storage : HostStorage :=
  { bufferAddr := 0x400000
    dataAddr := fun i => BitVec.ofNat 64 (0x1000000 * (i + 1))
    isShared := fun _ => false }

/-- The region over the data of an account. -/
def dataRegion (hostAddr len vmAddr : U64) (index : UInt16) : MemoryRegion :=
  { MemoryRegion.newWritable hostAddr len vmAddr with accessViolationHandlerPayload := some index }

/-- Where the buffer goes on after the data of the first account. -/
def nextFields (mode : MappingMode) : U64 :=
  if mode.isDirect then 0x400061 else 0x402861

/-- One region for the whole input, or separate ones for the data of accounts. -/
def inputRegions (mode : MappingMode) : List MemoryRegion :=
  if mode.stricterAbiAndRuntimeConstraints then
    [.newWritable 0x400000 0x60 mmInputStart,
      dataRegion (if mode.isDirect then storage.dataAddr 1 else 0x400060) 1 (mmInputStart + 0x60) 1,
      .newWritable (nextFields mode) 0x67 (mmInputStart + 0x2861),
      dataRegion (if mode.isDirect then storage.dataAddr 2 else 0x4028c8) 2 (mmInputStart + 0x28c8) 2]
  else
    [.newWritable 0x400000 0x50ca mmInputStart]

def regions (mode : MappingMode) : List MemoryRegion :=
  [.newReadonly 1 0 0, .newReadonly 0x100000 8 mmBytecodeStart, .newWritable 0x200000 8 mmStackStart,
    .newWritable 0x300000 256 mmHeapStart] ++ inputRegions mode

def metas : List SerializedAccountMetadata :=
  [⟨1, mmInputStart + 0x60, mmInputStart + 0x10, mmInputStart + 0x50, mmInputStart + 0x30⟩,
    ⟨2, mmInputStart + 0x28c8, mmInputStart + 0x2878, mmInputStart + 0x28b8, mmInputStart + 0x2898⟩]

/-- What the program has written to its heap. -/
def heap : List UInt8 :=
  let heap := mmHeapStart.toNat
  let input := mmInputStart.toNat
  let words :=
    -- `SolInstruction`: the program id, two accounts, no data.
    [heap + 184, heap + 40, 2, heap, 0,
      -- `SolAccountMeta`: the accounts, to be writable.
      input + 0x10, 1, input + 0x2878, 1,
      -- `SolAccountInfo`: key, lamports, length and place of the data, owner.
      input + 0x10, input + 0x50, 1, input + 0x60, input + 0x30, 0, 0,
      input + 0x2878, input + 0x28b8, 2, input + 0x28c8, input + 0x2898, 0, 0]
  words.flatMap (leBytes 8) ++ programKey.toList

/-- The fields of an account in the input, and its data if it is copied. -/
def fields (mode : MappingMode) (key : Pubkey) (account : AccountSharedData) : List UInt8 :=
  key.toList ++ account.owner.toList ++ leBytes 8 account.lamports.toNat ++
    leBytes 8 account.data.length ++ if mode.isDirect then [] else account.data

def host (mode : MappingMode) : ByteMemory :=
  let start := ByteMemory.writeBytes (fun _ => 0) 0x300000 heap
  let first := start.writeBytes 0x400010 (fields mode firstKey ⟨5, [3], programKey, false, 0⟩)
  first.writeBytes ((nextFields mode).toNat + 0x17)
    (fields mode secondKey ⟨7, [8, 9], programKey, false, 0⟩)

/-- Addresses are looked up in a table if and only if there are no stricter constraints. -/
def mapping (mode : MappingMode) : MemoryMapping :=
  (MemoryMapping.newWithAccessViolationHandler (regions mode)
    { alignedMemoryMapping := !mode.stricterAbiAndRuntimeConstraints } .v0
    defaultAccessViolationHandler).toOption.getD .identity

def caller (mode : MappingMode) : CallerState :=
  { memory := ⟨mapping mode, host mode⟩
    context :=
      { InvokeContext.new transaction [] ⟨mode, true, true, true, true⟩ ⟨200000, 32768⟩
          ⟨8, 1000, 250⟩ with
        syscallContext := [some ⟨⟨32768, 0⟩, metas⟩] } }

def request : CpiRequest :=
  { abi := .c
    instructionAddr := mmHeapStart
    accountInfosAddr := mmHeapStart + 72
    accountInfosLen := 2
    signersSeedsAddr := 0
    signersSeedsLen := 0 }

/-- The accounts when the callee has moved a lamport and appended a byte to the data of the first. -/
def changed (t : TransactionAccounts) : TransactionAccounts :=
  (t.setAccount 1 ⟨4, [3, 4], programKey, false, 0⟩).setAccount 2 ⟨8, [8, 9], programKey, false, 0⟩

def callee (state : RuntimeState) : Except Abort Invocation :=
  .ok ⟨.ok (), .entered state.context none [],
    { state with
      context.transactionContext.accounts := changed state.context.transactionContext.accounts }⟩

theorem executes : transaction.Executes [0, 1, 2] := by
  have hframe : transaction.instructionTrace.dropLast[0]?.isSome = true := by decide +kernel
  obtain ⟨frame, hframe⟩ := Option.isSome_iff_exists.mp hframe
  refine ⟨⟨⟨?_, ?_, ?_⟩, 0, instructionAccounts, ?_, ?_, ?_, ?_, ?_⟩, 0, frame, ?_, hframe⟩
  all_goals decide +kernel

/-- Without stricter constraints, with data that is copied, and with data that is mapped directly. -/
def modes : List MappingMode := [⟨false, false⟩, ⟨true, false⟩, ⟨true, true⟩]

theorem mapped : ∀ mode ∈ modes, (caller mode).memory.regions? = some (regions mode) := by
  decide +kernel

/-- The pointers that can be made for an address are found by trying the regions. -/
theorem backed_iff {regions : List MemoryRegion} {vmAddr len host : U64} :
    Backed regions vmAddr len host ↔
      host ∈ regions.filterMap fun r => r.vmToHost .store vmAddr len := by
  simp only [Backed, List.mem_filterMap]

theorem input_start : ∀ mode ∈ modes,
    (regions mode).filterMap (fun r => r.vmToHost .store mmInputStart 1) = [0x400000] := by
  decide +kernel

theorem sound {mode : MappingMode} (hmode : mode ∈ modes) :
    (caller mode).Sound (regions mode) metas where
  mapped := mapped mode hmode
  fits := by
    have hfits : ∀ mode ∈ modes, ∀ r ∈ regions mode, r.HostFits := by decide +kernel
    exact hfits mode hmode
  metadata := fun found h => by
    cases h
    rfl
  small := by unfold SmallData; decide
  input := fun _ _ start hstart m hm => by
    have hsmall : ∀ m ∈ metas, ((0x400000 : U64) +
        U64.saturatingSub m.vmDataAddr mmInputStart).toNat +
          addressSpaceReservedForAccount true m.originalDataLen ≤ 2 ^ 64 := by decide +kernel
    rw [backed_iff, input_start mode hmode, List.mem_singleton] at hstart
    have haligned : (caller mode).context.getCheckAligned = true := by
      have hall : ∀ mode ∈ modes, (caller mode).context.getCheckAligned = true := by decide +kernel
      exact hall mode hmode
    rw [hstart, haligned]
    exact hsmall m hm

/-- The invocation succeeds, the new lamports and the new length of the first account are in the memory
of the caller, and no byte has changed outside of what it may write. -/
def WritesWithin (mode : MappingMode) : Prop :=
  ∃ after, (caller mode).cpiCommon callee storage CpiEnvironment.plain request = .ok (.ok (), after) ∧
    after.memory.host.readBytes 0x400050 16 = leBytes 8 4 ++ leBytes 8 2 ∧
    after.memory.host.readBytes ((nextFields mode).toNat + 0x57) 8 = leBytes 8 8 ∧
    ByteMemory.AgreeOutside (writableBytes (regions mode) ∪
        reservedBytes mode (caller mode).context.getCheckAligned (regions mode) metas ∪ ∅)
      (host mode) after.memory.host

end Growing

section Invocation

variable {regions : List MemoryRegion} {metas : List SerializedAccountMetadata} {s : CallerState}

theorem backed_spans (hfits : ∀ r ∈ regions, r.HostFits) {vmAddr len host : U64}
    (h : Backed regions vmAddr len host) : Spans (writableBytes regions) host len.toNat := by
  obtain ⟨r, hr, hhost⟩ := h
  -- Only regions that may be written give pointers for a store.
  have hwritable : r.writable = true := by
    by_contra hreadonly
    unfold MemoryRegion.vmToHost at hhost
    rw [if_pos ⟨rfl, by simpa using hreadonly⟩] at hhost
    cases hhost
  have hmem : ∀ i < len.toNat, host.toNat + i ∈ r.hostBytes := fun i hi =>
    MemoryRegion.vmToHost_mem_hostBytes (hfits r hr) hhost hi
  refine spans_of_fits ?_ fun i hi => ⟨r, hr, hwritable, hmem i hi⟩
  -- An interval in a region that fits the address space does not wrap around.
  by_cases hempty : len.toNat = 0
  · have hlt := host.isLt
    omega
  · have hlast := (hmem (len.toNat - 1) (by omega)).2
    have hroom := hfits r hr
    unfold MemoryRegion.HostFits u64Max at hroom
    omega

theorem CallerState.Sound.reach (h : s.Sound regions metas) :
    Reach (writableBytes regions ∪
        reservedBytes s.context.featureSet.mapping s.context.getCheckAligned regions metas)
      s.context.featureSet.mapping s.context.getCheckAligned regions metas where
  pointer := fun hbacked i j hlt => Or.inl (backed_spans h.fits hbacked i j hlt)
  input := fun hstricter hcopied start hstart m hm =>
    spans_of_fits (h.input hstricter hcopied start hstart m hm)
      fun i hi => Or.inr ⟨hstricter, hcopied, start, hstart, m, hm, i, hi, rfl⟩

/-- Replacing regions is no write. -/
theorem updateCallerAccountRegion_host (storage : HostStorage) (mode : MappingMode)
    (checkAligned : Bool) (caller : CallerAccount) (callee : BorrowedInstructionAccount)
    (s : CallerState) :
    (s.updateCallerAccountRegion storage mode checkAligned caller callee).2.memory.host =
      s.memory.host := by
  unfold CallerState.updateCallerAccountRegion
  split
  · rfl
  · dsimp only
    split
    · rfl
    · split <;> rfl

theorem updateRegions_host (storage : HostStorage) (mode : MappingMode) (checkAligned : Bool)
    (ic : InstructionContext) (accounts : List TranslatedAccount) (s : CallerState) :
    (s.updateRegions storage mode checkAligned ic accounts).2.memory.host = s.memory.host := by
  induction accounts generalizing s with
  | nil => rfl
  | cons account rest ih =>
      unfold CallerState.updateRegions
      split
      · rfl
      · rename_i callee _
        split
        · have hregion := updateCallerAccountRegion_host storage mode checkAligned
            account.callerAccount callee s
          unfold continueWith
          split
          · exact (ih _).trans hregion
          · exact hregion
        · exact ih s

/-- Leaving an invocation with accounts whose pointers stay in `P`. -/
theorem exitCpi_host {P : Set Nat} {mode : MappingMode} {checkAligned : Bool}
    (hreach : Reach P mode checkAligned regions metas) (hsmall : SmallData metas)
    (hs : s.memory.regions? = some regions) {accounts : List TranslatedAccount}
    (haccounts : ∀ a ∈ accounts, a.callerAccount.Within P mode metas) (storage : HostStorage) :
    ByteMemory.AgreeOutside P s.memory.host
      (s.exitCpi storage mode checkAligned accounts).2.memory.host := by
  have hexit := (exitAccounts_runs hreach hsmall hs haccounts).kept.host
  unfold CallerState.exitCpi continueWith
  split
  · split
    · rw [updateRegions_host]
      exact hexit
    · exact hexit
  · exact hexit

/-- **An invocation writes only what its caller may write.**  Whatever the caller passes, and whether the
invocation succeeds or not: apart from what the callee itself changes, host memory changes only in
regions that the caller may write and, with stricter constraints and without direct mapping, in the room
that its input reserves for the data of accounts. -/
theorem cpiCommon_writes_within {reach : List IndexOfAccount} (hsound : s.Sound regions metas)
    (hexecutes : s.context.transactionContext.Executes reach) (invoke : Invoke) {C : Set Nat}
    (hcallee : ∀ state call, invoke state = .ok call →
      ByteMemory.AgreeOutside C state.host call.state.host)
    (storage : HostStorage) (env : CpiEnvironment) (request : CpiRequest)
    {result : Outcome BoxedError Unit} {after : CallerState}
    (h : s.cpiCommon invoke storage env request = .ok (result, after)) :
    ByteMemory.AgreeOutside (writableBytes regions ∪
        reservedBytes s.context.featureSet.mapping s.context.getCheckAligned regions metas ∪ C)
      s.memory.host after.memory.host := by
  obtain ⟨hkept, hpost⟩ := enterCpi_runs hsound.reach hsound.mapped hsound.metadata hexecutes env
    request
  unfold CallerState.cpiCommon CallerState.enterCpi at h
  intro a ha
  have haway : a ∉ writableBytes regions ∪
      reservedBytes s.context.featureSet.mapping s.context.getCheckAligned regions metas :=
    fun hmem => ha (Or.inl hmem)
  generalize (enterCpi env request).run.run cpiHandler s = entry at h hkept hpost
  obtain ⟨outcome, entered⟩ := entry
  have hentered := hkept.host a haway
  cases outcome with
  | error fault =>
      cases h
      exact hentered
  | ok accounts =>
      dsimp only at h
      split at h
      · cases h
      · rename_i call hinvoke
        have hcalled := hcallee _ call hinvoke a fun hmem => ha (Or.inr hmem)
        split at h
        · cases h
          exact hentered.trans hcalled
        · have hregions : VmMemory.regions? { entered.memory with host := call.state.host } =
              some regions := hkept.regions.trans hsound.mapped
          have hexit := exitCpi_host (s := ⟨{ entered.memory with host := call.state.host },
            call.state.context⟩) hsound.reach hsound.small hregions (hpost accounts rfl) storage a
            haway
          rw [Except.ok.injEq] at h
          rw [h] at hexit
          exact hentered.trans (hcalled.trans hexit)

theorem growing_writes_within :
    Growing.WritesWithin ⟨false, false⟩ ∧ Growing.WritesWithin ⟨true, false⟩ ∧
      Growing.WritesWithin ⟨true, true⟩ := by
  have hresult : ∀ mode ∈ Growing.modes,
      ((Growing.caller mode).cpiCommon Growing.callee Growing.storage CpiEnvironment.plain
        Growing.request).toOption.map (fun r => (r.1.isOk, r.2.memory.host.readBytes 0x400050 16,
          r.2.memory.host.readBytes ((Growing.nextFields mode).toNat + 0x57) 8)) =
        some (true, leBytes 8 4 ++ leBytes 8 2, leBytes 8 8) := by
    decide +kernel
  have hwithin : ∀ mode ∈ Growing.modes, Growing.WritesWithin mode := by
    intro mode hmode
    have hvalues := hresult mode hmode
    cases hrun : (Growing.caller mode).cpiCommon Growing.callee Growing.storage CpiEnvironment.plain
        Growing.request with
    | error abort =>
        rw [hrun] at hvalues
        cases hvalues
    | ok r =>
        obtain ⟨result, after⟩ := r
        rw [hrun] at hvalues
        simp only [Except.toOption, Option.map_some, Option.some.injEq, Prod.mk.injEq] at hvalues
        obtain ⟨hok, hfirst, hsecond⟩ := hvalues
        cases result with
        | error fault => cases hok
        | ok _ =>
            refine ⟨after, hrun, hfirst, hsecond, cpiCommon_writes_within (Growing.sound hmode)
              Growing.executes Growing.callee (fun state call hcall => ?_) Growing.storage
              CpiEnvironment.plain Growing.request hrun⟩
            cases hcall
            exact fun _ _ => rfl
  exact ⟨hwithin _ (by decide), hwithin _ (by decide), hwithin _ (by decide)⟩

theorem reach_univ (mode : MappingMode) (checkAligned : Bool) :
    Reach Set.univ mode checkAligned regions metas :=
  ⟨fun _ => spans_univ _ _, fun _ _ _ _ _ _ => spans_univ _ _⟩

theorem exists_metadata (s : CallerState) : ∃ metas, s.context.HasMetadata metas := by
  cases hcontext : s.context.getSyscallContext with
  | error err => exact ⟨[], fun _ h => by rw [hcontext] at h; cases h⟩
  | ok syscallContext =>
      refine ⟨syscallContext.accountsMetadata, fun found h => ?_⟩
      rw [hcontext] at h
      cases h
      rfl

/-- **Entering an invocation changes accounts only as the caller may.**  Whatever is in the memory of the
caller and whatever it passes, and also if the entry fails: lamports are counted, accounts that the
caller may not write are as they were, and accounts of other programs can at most be credited. -/
theorem enterCpi_within_authority {reach : List IndexOfAccount}
    (hs : s.memory.regions? = some regions)
    (hexecutes : s.context.transactionContext.Executes reach) (env : CpiEnvironment)
    (request : CpiRequest) {before after : TransactionAccounts}
    (hbefore : s.context.transactionContext.accounts = before)
    (hafter : (s.enterCpi env request).2.context.transactionContext.accounts = after) :
    after.openingLamports = before.openingLamports ∧
      (∀ index, ¬ s.context.transactionContext.authority.MayWrite index →
        after.accounts[index]? = before.accounts[index]?) ∧
      ∀ program, s.context.transactionContext.authority.program ≠ some program →
        before.Respects program after := by
  obtain ⟨metas, hmetas⟩ := exists_metadata s
  obtain ⟨hkept, -⟩ := enterCpi_runs (reach_univ _ _) hs hmetas hexecutes env request
  have hedits := hkept.transaction.2
  rw [hbefore, show ((enterCpi env request).run.run cpiHandler s).2.context.transactionContext.accounts =
    after from hafter] at hedits
  -- Each of the three is reflexive, transitive and kept by one edit.
  refine ⟨?_, fun index hindex => ?_, fun program hprogram => ?_⟩
  · exact hedits.keeps (R := fun t t' => t'.openingLamports = t.openingLamports) (fun _ => rfl)
      (fun h h' => h'.trans h) fun h => h.openingLamports_eq
  · exact hedits.keeps (R := fun t t' => t'.accounts[index]? = t.accounts[index]?) (fun _ => rfl)
      (fun h h' => h'.trans h) fun h => h.keeps_readonly hindex
  · exact hedits.keeps (R := TransactionAccounts.Respects program) (.refl program) .trans
      fun h => h.respects hprogram

/-- The caller has moved a lamport from the first account to the second, in its memory only. -/
def Growing.paying : CallerState :=
  let moved := (host ⟨false, false⟩).writeBytes 0x400050 (leBytes 8 4)
  { caller ⟨false, false⟩ with
    memory.host := moved.writeBytes ((nextFields ⟨false, false⟩).toNat + 0x57) (leBytes 8 8) }

/-- With the entry the lamport is moved in the accounts as well.  The sum stays, and so does the account
of the program, which is not writable and belongs to the loader. -/
theorem growing_within_authority :
    ∃ entered, Growing.paying.enterCpi CpiEnvironment.plain Growing.request = entered ∧
      entered.1.isOk = true ∧
      entered.2.context.transactionContext.accounts.accounts.map (fun entry => entry.2.lamports) =
        [1, 4, 8] ∧
      entered.2.context.transactionContext.accounts.openingLamports = 13 ∧
      entered.2.context.transactionContext.accounts.accounts[0]? =
        some (Growing.programKey, ⟨1, [], bpfLoaderUpgradeableId, true, 0⟩) ∧
      Growing.transaction.accounts.Respects bpfLoaderUpgradeableId
        entered.2.context.transactionContext.accounts := by
  have hreadonly : Growing.transaction.authority.accounts.all (fun account =>
      account.indexInTransaction != 0 || !account.isWritable) = true := by
    decide +kernel
  have hmay : ¬ Growing.transaction.authority.MayWrite 0 := by
    rintro ⟨account, haccount, hindex, hwritable⟩
    have hall := List.all_eq_true.mp hreadonly account haccount
    rw [hindex, hwritable] at hall
    cases hall
  have hprogram : Growing.transaction.authority.program ≠ some bpfLoaderUpgradeableId := by
    decide +kernel
  have hresult : (Growing.paying.enterCpi CpiEnvironment.plain Growing.request).1.isOk = true ∧
      (Growing.paying.enterCpi CpiEnvironment.plain
        Growing.request).2.context.transactionContext.accounts.accounts.map
          (fun entry => entry.2.lamports) = [1, 4, 8] := by
    decide +kernel
  have hlamports : Growing.transaction.accounts.openingLamports = 13 := by decide +kernel
  have hmapped : Growing.paying.memory.regions? = some (Growing.regions ⟨false, false⟩) :=
    Growing.mapped ⟨false, false⟩ (by decide)
  generalize hentered : Growing.paying.enterCpi CpiEnvironment.plain Growing.request = entered at hresult
  obtain ⟨hopening, hkeeps, hrespects⟩ := enterCpi_within_authority hmapped Growing.executes
    CpiEnvironment.plain Growing.request rfl
    (congrArg (fun e => e.2.context.transactionContext.accounts) hentered)
  exact ⟨entered, rfl, hresult.1, hresult.2, hopening.trans hlamports, hkeeps 0 hmay,
    hrespects _ hprogram⟩

end Invocation

end ProgramRuntime
end Gobble
