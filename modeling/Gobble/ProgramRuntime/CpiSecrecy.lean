import Gobble.ProgramRuntime.CpiTwins

/-!
# CpiSecrecy — what entering an invocation can reveal

The structures of a cross-program invocation are full of pointers that the caller chooses.  Most are
translated for reading, and then the tracker sees what is read.  The lamports, the owner, the data
and the length of an account are translated for writing and read afterwards, so the tracker does not
see them.  With stricter constraints those pointers are compared with the addresses at which the
runtime itself has put the fields, and so they do not lead into the data of the sysvar.
-/

namespace Gobble
namespace ProgramRuntime

open Lib Sbpf Sdk Context Translation CpiM

/-! ## Callers whose watched bytes are those of the sysvar -/

/-- The bytes in `W` are data of the instructions sysvar: they are watched, and the runtime has put
neither the start of the input nor any other part of an account there. -/
structure CallerFrame.Guards (f : CallerFrame) (W : Set Nat) (mode : MappingMode)
    (checkAligned : Bool) : Prop where
  shields : f.common.Shields W
  /-- The input starts with the number of accounts. -/
  input : ∀ v, f.common.Watches v → mmInputStart.toNat + 8 ≤ v
  lamports : ∀ m ∈ f.accountsMetadata, ∀ i < 8, ¬ f.common.Watches (m.vmLamportsAddr.toNat + i)
  owner : ∀ m ∈ f.accountsMetadata, ∀ i < 32, ¬ f.common.Watches (m.vmOwnerAddr.toNat + i)
  /-- In the buffer, the address space of another account is apart from the data of the sysvar. -/
  data : mode.isDirect = false → ∀ i m, f.keyAt i ≠ some instructionsSysvarId →
    f.accountsMetadata[i]? = some m → ∀ start, Backed f.common.regions mmInputStart 1 start →
      ∀ j < addressSpaceReservedForAccount checkAligned m.originalDataLen,
        (start + U64.saturatingSub m.vmDataAddr mmInputStart).toNat + j ∉ W

section Guards

variable {f : CallerFrame} {W : Set Nat} {mode : MappingMode} {checkAligned : Bool}

/-- A pointer to addresses that are not watched. -/
theorem Backed.misses (hW : f.common.Shields W) {vmAddr len host : U64}
    (h : Backed f.common.regions vmAddr len host) {n : Nat} (hn : len.toNat = n)
    (hunwatched : ∀ i < n, ¬ f.common.Watches (vmAddr.toNat + i)) :
    ∀ i < n, host.toNat + i ∉ W := by
  intro i hi hmem
  obtain ⟨r, hr, hhost⟩ := h
  exact hunwatched i hi (hW.watches hr hhost (hn ▸ hi) hmem)

/-- Eight bytes from an address below the input. -/
theorem CallerFrame.Guards.below_input (h : f.Guards W mode checkAligned) {vmAddr : U64}
    (hbelow : vmAddr < mmInputStart) : ∀ i < 8, ¬ f.common.Watches (vmAddr.toNat + i) := by
  intro i hi hwatches
  have habove := h.input _ hwatches
  have hlt : vmAddr.toNat < mmInputStart.toNat := hbelow
  omega

end Guards

/-- None of the pointers leads to a byte of `W`, except that to the data of the sysvar. -/
structure CallerAccount.Shielded (W : Set Nat) (key : Option Pubkey) (a : CallerAccount) : Prop where
  lamports : ∀ i < 8, a.lamports.toNat + i ∉ W
  owner : ∀ i < 32, a.owner.toNat + i ∉ W
  length : ∀ i < 8, a.refToLenInVm.toNat + i ∉ W
  data : key ≠ some instructionsSysvarId →
    ∀ i < a.serializedData.len, a.serializedData.addr.toNat + i ∉ W

/-! ## The instruction and the signers -/

section Walk

variable {f : CallerFrame} {W : Set Nat} {data : List UInt8}

theorem checkInstructionSize_alike (numAccounts dataLen : Nat) :
    Alike f W data (fun _ _ => True) (checkInstructionSize numAccounts dataLen)
      (checkInstructionSize numAccounts dataLen) := by
  refine (require_alike _ _).bind fun _ _ _ => ?_
  exact (require_alike _ _).mono fun _ _ _ => trivial

theorem checkAccountInfoPointer_alike (vmAddr expectedVmAddr : U64) :
    Alike f W data (fun _ _ => vmAddr = expectedVmAddr)
      (checkAccountInfoPointer vmAddr expectedVmAddr)
      (checkAccountInfoPointer vmAddr expectedVmAddr) :=
  (require_alike _ _).mono fun _ _ h => beq_iff_eq.mp h

section Instruction

variable (hW : f.common.Shields W)

include hW

theorem translateInstructionRust_alike (addr : U64) (checkAligned : Bool) :
    Alike f W data Eq (translateInstructionRust addr checkAligned)
      (translateInstructionRust addr checkAligned) := by
  refine (translate_alike hW (translateType_plain ..)).bind ?_
  rintro ix _ rfl
  refine (translate_alike hW (translateSlice_plain ..)).bind ?_
  rintro accountMetas _ rfl
  refine (translate_alike hW (translateSlice_plain ..)).bind ?_
  rintro instructionData _ rfl
  refine (checkInstructionSize_alike _ _).bind fun _ _ _ => ?_
  refine getContext_alike.bind ?_
  rintro c _ ⟨rfl, -⟩
  refine (consume_alike _).bind fun _ _ _ => ?_
  refine (Alike.mapM_eq _ fun accountMeta _ => ?_).bind ?_
  · exact (require_alike _ _).bind fun _ _ _ => .pure rfl
  · rintro accounts _ rfl
    exact .pure rfl

theorem translateInstructionC_alike (addr : U64) (checkAligned : Bool) :
    Alike f W data Eq (translateInstructionC addr checkAligned)
      (translateInstructionC addr checkAligned) := by
  refine (translate_alike hW (translateType_plain ..)).bind ?_
  rintro ix _ rfl
  refine (translate_alike hW (translateType_plain ..)).bind ?_
  rintro programId _ rfl
  refine (translate_alike hW (translateSlice_plain ..)).bind ?_
  rintro accountMetas _ rfl
  refine (translate_alike hW (translateSlice_plain ..)).bind ?_
  rintro instructionData _ rfl
  refine (checkInstructionSize_alike _ _).bind fun _ _ _ => ?_
  refine getContext_alike.bind ?_
  rintro c _ ⟨rfl, -⟩
  refine (consume_alike _).bind fun _ _ _ => ?_
  refine (Alike.mapM_eq _ fun accountMeta _ => ?_).bind ?_
  · refine (require_alike _ _).bind fun _ _ _ => ?_
    refine (translate_alike hW (translateType_plain ..)).bind ?_
    rintro pubkey _ rfl
    exact .pure rfl
  · rintro accounts _ rfl
    exact .pure rfl

theorem translateInstruction_alike (abi : Abi) (addr : U64) (checkAligned : Bool) :
    Alike f W data Eq (abi.translateInstruction addr checkAligned)
      (abi.translateInstruction addr checkAligned) := by
  cases abi with
  | rust => exact translateInstructionRust_alike hW addr checkAligned
  | c => exact translateInstructionC_alike hW addr checkAligned

theorem translateSigners_alike (env : CpiEnvironment) (programId : Pubkey)
    (signersSeedsAddr signersSeedsLen : U64) (checkAligned : Bool) :
    Alike f W data Eq
      (translateSigners env programId signersSeedsAddr signersSeedsLen checkAligned)
      (translateSigners env programId signersSeedsAddr signersSeedsLen checkAligned) := by
  refine .ite (fun _ => ?_) fun _ => .pure rfl
  refine (translate_alike hW (translateSlice_plain ..)).bind ?_
  rintro signersSeeds _ rfl
  refine (require_alike _ _).bind fun _ _ _ => ?_
  refine Alike.mapM_eq _ fun signerSeeds _ => ?_
  refine (translate_alike hW (translateSlice_plain ..)).bind ?_
  rintro seeds _ rfl
  refine (require_alike _ _).bind fun _ _ _ => ?_
  refine (Alike.mapM_eq _ fun seed _ => translate_alike hW (translateSlice_plain ..)).bind ?_
  rintro seeds _ rfl
  exact ofResult_self _

end Instruction

/-! ## The accounts of the caller -/

section Accounts

variable {mode : MappingMode} {checkAligned : Bool} (hguards : f.Guards W mode checkAligned)
  (hstricter : mode.stricterAbiAndRuntimeConstraints = true)

/-- With stricter constraints, the data of an account is nowhere, or at a place in the buffer that
follows from its address. -/
def SerializedIn (f : CallerFrame) (mode : MappingMode) (checkAligned : Bool) (vmAddr : U64)
    (originalDataLen : Nat) (data : HostSlice) : Prop :=
  data.len = 0 ∨ mode.isDirect = false ∧
    data.len ≤ addressSpaceReservedForAccount checkAligned originalDataLen ∧
    ∃ start, Backed f.common.regions mmInputStart 1 start ∧
      data.addr = start + U64.saturatingSub vmAddr mmInputStart

include hguards in
theorem SerializedIn.misses {i : IndexOfAccount} {metadata : SerializedAccountMetadata}
    (hmetadata : f.accountsMetadata[i]? = some metadata) {serialized : HostSlice}
    (h : SerializedIn f mode checkAligned metadata.vmDataAddr metadata.originalDataLen serialized)
    (hkey : f.keyAt i ≠ some instructionsSysvarId) :
    ∀ j < serialized.len, serialized.addr.toNat + j ∉ W := by
  intro j hj
  rcases h with hempty | ⟨hdirect, hlen, start, hstart, haddr⟩
  · omega
  · rw [haddr]
    exact hguards.data hdirect i metadata hkey hmetadata start hstart j (hj.trans_le hlen)

section Pointers

include hguards

theorem lamportsPointer_alike {metadata : SerializedAccountMetadata}
    (hmetadata : metadata ∈ f.accountsMetadata) (checkAligned : Bool) :
    Alike f W data (fun a b => a = b ∧ ∀ j < 8, a.toNat + j ∉ W)
      (translate (translateTypeMutForCpi .u64 metadata.vmLamportsAddr checkAligned))
      (translate (translateTypeMutForCpi .u64 metadata.vmLamportsAddr checkAligned)) := by
  refine (pointer_alike hguards.shields _ _ _).mono fun a b h => ⟨h.1, ?_⟩
  exact h.2.misses hguards.shields rfl (hguards.lamports _ hmetadata)

theorem ownerPointer_alike {metadata : SerializedAccountMetadata}
    (hmetadata : metadata ∈ f.accountsMetadata) (checkAligned : Bool) :
    Alike f W data (fun a b => a = b ∧ ∀ j < 32, a.toNat + j ∉ W)
      (translate (translateTypeMutForCpi .pubkey metadata.vmOwnerAddr checkAligned))
      (translate (translateTypeMutForCpi .pubkey metadata.vmOwnerAddr checkAligned)) := by
  refine (pointer_alike hguards.shields _ _ _).mono fun a b h => ⟨h.1, ?_⟩
  exact h.2.misses hguards.shields rfl (hguards.owner _ hmetadata)

end Pointers

include hguards hstricter

theorem getSerializedData_alike (vmAddr : U64) (originalDataLen len : Nat) :
    Alike f W data
      (fun a b => a = b ∧ SerializedIn f mode checkAligned vmAddr originalDataLen a)
      (CallerAccount.getSerializedData mode checkAligned vmAddr originalDataLen len)
      (CallerAccount.getSerializedData mode checkAligned vmAddr originalDataLen len) := by
  refine (require_alike _ _).bind fun _ _ hrequired => ?_
  have hlen : len ≤ addressSpaceReservedForAccount checkAligned originalDataLen := by
    simpa [hstricter] using hrequired
  refine .ite (fun _ => .pure ⟨rfl, .inl rfl⟩) fun hdirect => ?_
  refine .ite (fun _ => ?_) fun hnot => (hnot hstricter).elim
  refine (inputPointer_alike hguards.shields).bind ?_
  rintro start _ ⟨rfl, hstart⟩
  exact .pure ⟨rfl, .inr ⟨by simpa using hdirect, hlen, start, hstart, rfl⟩⟩

theorem fromFields_alike {i : IndexOfAccount} {metadata : SerializedAccountMetadata}
    (hmetadata : f.accountsMetadata[i]? = some metadata) {lamports owner : U64}
    (hlamports : ∀ j < 8, lamports.toNat + j ∉ W) (howner : ∀ j < 32, owner.toNat + j ∉ W)
    {vmDataAddr : U64} (hdata : vmDataAddr = metadata.vmDataAddr) (dataLen vmLenAddr : U64) :
    Alike f W data (fun a b => a = b ∧ a.Shielded W (f.keyAt i))
      (CallerAccount.fromFields mode checkAligned metadata lamports owner vmDataAddr dataLen
        vmLenAddr)
      (CallerAccount.fromFields mode checkAligned metadata lamports owner vmDataAddr dataLen
        vmLenAddr) := by
  subst hdata
  refine (require_alike _ _).bind fun _ _ hrequired => ?_
  have hbelow : vmLenAddr < mmInputStart := by
    simpa [hstricter] using hrequired
  refine (pointer_alike hguards.shields .u64 vmLenAddr false).bind ?_
  rintro refToLenInVm _ ⟨rfl, hpoints⟩
  have hlength := hpoints.misses hguards.shields rfl (hguards.below_input hbelow)
  have hread : Alike f W data Eq
      (if mode.stricterAbiAndRuntimeConstraints then derefU64 refToLenInVm else pure dataLen)
      (if mode.stricterAbiAndRuntimeConstraints then derefU64 refToLenInVm else pure dataLen) :=
    .ite (fun _ => derefU64_alike hlength) fun _ => .pure rfl
  refine hread.bind ?_
  rintro len _ rfl
  refine (getSerializedData_alike hguards hstricter _ _ _).bind ?_
  rintro serialized _ ⟨rfl, hserialized⟩
  exact .pure ⟨rfl, hlamports, howner, hlength, hserialized.misses hguards hmetadata⟩

theorem fromAccountInfo_alike {i : IndexOfAccount} {metadata : SerializedAccountMetadata}
    (hmetadata : f.accountsMetadata[i]? = some metadata) (vmAddr : U64)
    (accountInfo : List UInt8) :
    Alike f W data (fun a b => a = b ∧ a.Shielded W (f.keyAt i))
      (CallerAccount.fromAccountInfo mode checkAligned vmAddr accountInfo metadata)
      (CallerAccount.fromAccountInfo mode checkAligned vmAddr accountInfo metadata) := by
  have hmem := List.mem_of_getElem? hmetadata
  refine (when_alike fun _ => (checkAccountInfoPointer_alike _ _).bind fun _ _ _ =>
    checkAccountInfoPointer_alike _ _).bind fun _ _ howner => ?_
  rw [howner hstricter]
  refine (translate_alike hguards.shields (translateType_plain ..)).bind ?_
  rintro ptr _ rfl
  refine (when_alike fun _ => (require_alike _ _).bind fun _ _ _ =>
    checkAccountInfoPointer_alike _ _).bind fun _ _ hlamports => ?_
  rw [hlamports hstricter]
  refine (lamportsPointer_alike hguards hmem checkAligned).bind ?_
  rintro lamports _ ⟨rfl, hlamports⟩
  refine (ownerPointer_alike hguards hmem checkAligned).bind ?_
  rintro owner _ ⟨rfl, howner⟩
  refine (require_alike _ _).bind fun _ _ _ => ?_
  refine (translate_alike hguards.shields (translateType_plain ..)).bind ?_
  rintro dataSlice _ rfl
  refine (when_alike fun _ => checkAccountInfoPointer_alike _ _).bind fun _ _ hdata => ?_
  refine (when_alike fun _ => consumeBytes_alike _).bind fun _ _ _ => ?_
  exact fromFields_alike hguards hstricter hmetadata hlamports howner (hdata hstricter) _ _

theorem fromSolAccountInfo_alike {i : IndexOfAccount} {metadata : SerializedAccountMetadata}
    (hmetadata : f.accountsMetadata[i]? = some metadata) (vmAddr : U64)
    (accountInfo : List UInt8) :
    Alike f W data (fun a b => a = b ∧ a.Shielded W (f.keyAt i))
      (CallerAccount.fromSolAccountInfo mode checkAligned vmAddr accountInfo metadata)
      (CallerAccount.fromSolAccountInfo mode checkAligned vmAddr accountInfo metadata) := by
  have hmem := List.mem_of_getElem? hmetadata
  have hchecks : Alike f W data (fun _ _ => wordAt accountInfo 32 = metadata.vmOwnerAddr ∧
        wordAt accountInfo 8 = metadata.vmLamportsAddr ∧
        wordAt accountInfo 24 = metadata.vmDataAddr)
      (do
        checkAccountInfoPointer (wordAt accountInfo 0) metadata.vmKeyAddr
        checkAccountInfoPointer (wordAt accountInfo 32) metadata.vmOwnerAddr
        checkAccountInfoPointer (wordAt accountInfo 8) metadata.vmLamportsAddr
        checkAccountInfoPointer (wordAt accountInfo 24) metadata.vmDataAddr)
      (do
        checkAccountInfoPointer (wordAt accountInfo 0) metadata.vmKeyAddr
        checkAccountInfoPointer (wordAt accountInfo 32) metadata.vmOwnerAddr
        checkAccountInfoPointer (wordAt accountInfo 8) metadata.vmLamportsAddr
        checkAccountInfoPointer (wordAt accountInfo 24) metadata.vmDataAddr) := by
    refine (checkAccountInfoPointer_alike _ _).bind fun _ _ _ => ?_
    refine (checkAccountInfoPointer_alike _ _).bind fun _ _ howner => ?_
    refine (checkAccountInfoPointer_alike _ _).bind fun _ _ hlamports => ?_
    exact (checkAccountInfoPointer_alike _ _).mono fun _ _ hdata => ⟨howner, hlamports, hdata⟩
  refine (when_alike fun _ => hchecks).bind fun _ _ hpointers => ?_
  obtain ⟨howner, hlamports, hdata⟩ := hpointers hstricter
  rw [howner, hlamports]
  refine (lamportsPointer_alike hguards hmem checkAligned).bind ?_
  rintro lamports _ ⟨rfl, hlamports⟩
  refine (ownerPointer_alike hguards hmem checkAligned).bind ?_
  rintro owner _ ⟨rfl, howner⟩
  refine (when_alike fun _ => consumeBytes_alike _).bind fun _ _ _ => ?_
  exact fromFields_alike hguards hstricter hmetadata hlamports howner hdata _ _

theorem fromInfo_alike (abi : Abi) {i : IndexOfAccount} {metadata : SerializedAccountMetadata}
    (hmetadata : f.accountsMetadata[i]? = some metadata) (vmAddr : U64)
    (accountInfo : List UInt8) :
    Alike f W data (fun a b => a = b ∧ a.Shielded W (f.keyAt i))
      (abi.fromInfo mode checkAligned vmAddr accountInfo metadata)
      (abi.fromInfo mode checkAligned vmAddr accountInfo metadata) := by
  cases abi with
  | rust => exact fromAccountInfo_alike hguards hstricter hmetadata vmAddr accountInfo
  | c => exact fromSolAccountInfo_alike hguards hstricter hmetadata vmAddr accountInfo

/-! ## Updating the accounts of the callee -/

section Update

variable {key : Pubkey} {caller : CallerAccount} {callee callee' : BorrowedInstructionAccount}

theorem updateCalleeLength_alike (hcallee : BorrowedTwins f data key callee callee')
    (postLen : Nat) :
    Alike f W data (BorrowedTwins f data key)
      (updateCalleeLength mode checkAligned caller callee postLen)
      (updateCalleeLength mode checkAligned caller callee' postLen) := by
  obtain ⟨rfl, hforeign, hkey⟩ := hcallee
  unfold updateCalleeLength
  dsimp only
  rw [hforeign.length]
  refine .ite (fun _ => ?_) fun _ => .pure ⟨rfl, hforeign, hkey⟩
  have hzero : Alike f W data (fun _ _ => True)
      (zeroUnused mode checkAligned caller callee.getData.length postLen)
      (zeroUnused mode checkAligned caller callee.getData.length postLen) := by
    refine (getSerializedData_alike hguards hstricter _ _ _).bind ?_
    rintro serialized _ ⟨rfl, -⟩
    exact (require_alike _ _).bind fun _ _ _ => write_alike _ _
  refine (when_alike fun _ => hzero).bind fun _ _ _ => ?_
  exact update_alike hkey fun accounts haccounts hkeys =>
    BorrowedInstructionAccount.setDataLength_twins hforeign haccounts hkeys postLen

omit hguards hstricter in
theorem updateCalleeBytes_alike (hcallee : BorrowedTwins f data key callee callee')
    (hcaller : caller.Shielded W (some key)) :
    Alike f W data (BorrowedTwins f data key) (updateCalleeBytes mode caller callee)
      (updateCalleeBytes mode caller callee') := by
  obtain ⟨rfl, hforeign, rfl⟩ := hcallee
  unfold updateCalleeBytes
  rw [callee.withSysvarData_canDataBeChanged data]
  refine .ite (fun hchange => ?_) fun _ => .pure ⟨rfl, hforeign, rfl⟩
  -- The data of an account is read only if the program may change it, and the sysvar is not its own.
  have hok : callee.canDataBeChanged = .ok () := by
    cases hresult : callee.canDataBeChanged with
    | ok _ => rfl
    | error err => simp [hresult, Except.isOk, Except.toBool] at hchange
  have hne : some callee.key ≠ some instructionsSysvarId := by
    intro hsome
    exact hforeign.key_ne_of_change hok (Option.some.inj hsome)
  refine (deref_alike (hcaller.data hne)).bind ?_
  rintro bytes _ rfl
  exact update_alike rfl fun accounts haccounts hkeys =>
    BorrowedInstructionAccount.setDataFromSlice_twins hforeign haccounts hkeys bytes

theorem syncCalleeData_alike (hcallee : BorrowedTwins f data key callee callee')
    (hcaller : caller.Shielded W (some key)) :
    Alike f W data (fun u u' => BorrowedTwins f data key u.1 u'.1 ∧ u.2 = u'.2)
      (syncCalleeData mode checkAligned caller callee)
      (syncCalleeData mode checkAligned caller callee') := by
  have hlength : callee'.getData.length = callee.getData.length := by
    rw [hcallee.1]
    exact hcallee.2.1.length
  unfold syncCalleeData
  refine .ite (fun _ => ?_) fun hnot => (hnot hstricter).elim
  refine (derefU64_alike hcaller.length).bind ?_
  rintro postLen _ rfl
  refine (updateCalleeLength_alike hguards hstricter hcallee _).bind fun resized resized' hresized => ?_
  refine (updateCalleeBytes_alike hresized hcaller).bind fun updated updated' hupdated => ?_
  rw [hlength]
  exact .pure ⟨hupdated, rfl⟩

theorem updateCalleeAccount_alike (hcallee : BorrowedTwins f data key callee callee')
    (hcaller : caller.Shielded W (some key)) :
    Alike f W data Eq (updateCalleeAccount mode checkAligned caller callee)
      (updateCalleeAccount mode checkAligned caller callee') := by
  obtain ⟨rfl, hforeign, hkey⟩ := hcallee
  refine (derefU64_alike hcaller.lamports).bind ?_
  rintro lamports _ rfl
  have hpay : Alike f W data (BorrowedTwins f data key)
      (if callee.getLamports ≠ lamports then
        update fun accounts => callee.setLamports accounts lamports
      else
        pure callee)
      (if (callee.withSysvarData data).getLamports ≠ lamports then
        update fun accounts => (callee.withSysvarData data).setLamports accounts lamports
      else
        pure (callee.withSysvarData data)) := by
    rw [callee.withSysvarData_getLamports data]
    refine .ite (fun _ => ?_) fun _ => .pure ⟨rfl, hforeign, hkey⟩
    exact update_alike hkey fun accounts haccounts hkeys =>
      BorrowedInstructionAccount.setLamports_twins hforeign haccounts hkeys lamports
  refine hpay.bind fun paid paid' hpaid => ?_
  refine (syncCalleeData_alike hguards hstricter hpaid hcaller).bind ?_
  rintro ⟨updated, mustUpdate⟩ ⟨_, _⟩ ⟨⟨rfl, hupdated, -⟩, rfl⟩
  refine (derefPubkey_alike hcaller.owner).bind ?_
  rintro owner _ rfl
  dsimp only
  rw [updated.withSysvarData_getOwner data]
  refine .ite (fun _ => ?_) fun _ => .pure rfl
  have hassign : Alike f W data (BorrowedTwins f data updated.key)
      (update fun accounts => updated.setOwner accounts owner)
      (update fun accounts => (updated.withSysvarData data).setOwner accounts owner) :=
    update_alike rfl fun accounts haccounts hkeys =>
      BorrowedInstructionAccount.setOwner_twins hupdated haccounts hkeys owner
  exact hassign.bind fun _ _ _ => .pure rfl

end Update

/-! ## Translating the accounts -/

section Translate

/-- A translated account whose pointers are harmless. -/
def TranslatedAlike (f : CallerFrame) (W : Set Nat) (a b : TranslatedAccount) : Prop :=
  a = b ∧ a.callerAccount.Shielded W (f.keyAt a.indexInCaller)

omit hguards hstricter in
theorem translatedAlike_lists {as bs : List TranslatedAccount}
    (h : List.Forall₂ (TranslatedAlike f W) as bs) :
    as = bs ∧ ∀ a ∈ as, a.callerAccount.Shielded W (f.keyAt a.indexInCaller) := by
  induction h with
  | nil => exact ⟨rfl, by simp⟩
  | cons hab _ ih => exact ⟨by rw [hab.1, ih.1], List.forall_mem_cons.mpr ⟨hab.2, ih.2⟩⟩

variable {t : AccountTranslation} (hmode : t.mode = mode) (haligned : t.checkAligned = checkAligned)
  (hmetadata : t.accountsMetadata = f.accountsMetadata)

include hmode haligned hmetadata

theorem translateCallerAccount_alike (instructionAccount : InstructionAccount)
    (indexInCaller : IndexOfAccount) (callee callee' : BorrowedInstructionAccount)
    (callerAccountIndex : Nat) :
    Alike f W data (TranslatedAlike f W)
      (translateCallerAccount t instructionAccount indexInCaller callee callerAccountIndex)
      (translateCallerAccount t instructionAccount indexInCaller callee' callerAccountIndex) := by
  subst hmode haligned
  have hlookup : Alike f W data
      (fun m m' => m = m' ∧ f.accountsMetadata[indexInCaller]? = some m)
      (ofResult (Outcome.okOr (.instruction .missingAccount) t.accountsMetadata[indexInCaller]?))
      (ofResult (Outcome.okOr (.instruction .missingAccount)
        t.accountsMetadata[indexInCaller]?)) := by
    rw [hmetadata]
    exact ofResult_alike (EffectTree.agree_self fun m hm => ⟨rfl, Outcome.okOr_eq_ok.mp hm⟩)
  refine hlookup.bind ?_
  rintro metadata _ ⟨rfl, hget⟩
  refine (ofResult_self _).bind ?_
  rintro accountInfo _ rfl
  refine (fromInfo_alike hguards hstricter t.abi hget _ _).bind ?_
  rintro callerAccount _ ⟨rfl, hshielded⟩
  have hcharge : Alike f W data Eq
      (if t.mode.stricterAbiAndRuntimeConstraints then do
        consumeBytes (← derefU64 callerAccount.refToLenInVm)
        return true
      else
        updateCalleeAccount t.mode t.checkAligned callerAccount callee)
      (if t.mode.stricterAbiAndRuntimeConstraints then do
        consumeBytes (← derefU64 callerAccount.refToLenInVm)
        return true
      else
        updateCalleeAccount t.mode t.checkAligned callerAccount callee') := by
    refine .ite (fun _ => ?_) fun hnot => (hnot hstricter).elim
    refine (derefU64_alike hshielded.length).bind ?_
    rintro len _ rfl
    exact (consumeBytes_alike _).bind fun _ _ _ => .pure rfl
  refine hcharge.bind ?_
  rintro updateCaller _ rfl
  exact .pure ⟨rfl, hshielded⟩

theorem translateAccount_alike (next : InstructionContext)
    (instructionAccount : InstructionAccount × Nat) :
    Alike f W data (Option.Rel (TranslatedAlike f W))
      (translateAccount t next instructionAccount)
      (translateAccount t (next.withSysvarData data) instructionAccount) := by
  unfold translateAccount
  refine (ofInstruction_self _).bind ?_
  rintro duplicate _ rfl
  refine .ite (fun _ => .pure .none) fun _ => ?_
  refine currentInstruction_alike.bind ?_
  rintro ic _ ⟨rfl, hic⟩
  refine (ofInstruction_self _).bind ?_
  rintro indexInCaller _ rfl
  refine (ofInstruction_alike (tryBorrowInstructionAccount_twins hic indexInCaller)).bind ?_
  rintro callee _ ⟨key, ⟨rfl, hforeign, -⟩, -⟩
  have hkey : (ic.withSysvarData data).transactionContext.getKeyOfAccountAtIndex
      instructionAccount.1.indexInTransaction = ic.transactionContext.getKeyOfAccountAtIndex
        instructionAccount.1.indexInTransaction :=
    ic.transactionContext.withSysvarData_getKeyOfAccountAtIndex data _
  rw [hkey]
  refine (ofInstruction_self _).bind ?_
  rintro accountKey _ rfl
  rw [callee.withSysvarData_isExecutable data, hforeign.length]
  refine .ite (fun _ => ?_) fun _ => ?_
  · exact (consumeBytes_alike _).bind fun _ _ _ => .pure .none
  · cases t.accountInfoKeys.findIdx? fun key => key == accountKey with
    | none => exact .throw _
    | some callerAccountIndex =>
        refine (translateCallerAccount_alike hguards hstricter hmode haligned hmetadata _ _ _ _
          _).bind fun a b hab => ?_
        exact .pure (.some hab)

end Translate

omit hguards hstricter in
theorem forall₂_reduceOption {α β : Type} {V : α → β → Prop} {as : List (Option α)}
    {bs : List (Option β)} (h : List.Forall₂ (Option.Rel V) as bs) :
    List.Forall₂ V as.reduceOption bs.reduceOption := by
  induction h with
  | nil => exact .nil
  | cons hab _ ih =>
      cases hab with
      | none => exact ih
      | some hV => exact .cons hV ih

theorem translateAccountsCommon_alike (abi : Abi) (accountInfosAddr : U64)
    (accountInfos : List (List UInt8)) (accountInfoKeys : List Pubkey) :
    Alike f W data (List.Forall₂ (TranslatedAlike f W))
      (translateAccountsCommon abi mode checkAligned accountInfosAddr accountInfos accountInfoKeys)
      (translateAccountsCommon abi mode checkAligned accountInfosAddr accountInfos
        accountInfoKeys) := by
  refine getContext_alike.bind ?_
  rintro c _ ⟨rfl, hc⟩
  have hnext : EffectTree.Agree (fun ic ic' => ic' = ic.withSysvarData data)
      c.transactionContext.getNextInstructionContext
      (c.withSysvarData data).transactionContext.getNextInstructionContext := by
    show EffectTree.Agree _ _ (c.transactionContext.withSysvarData data).getNextInstructionContext
    rw [c.transactionContext.withSysvarData_getNextInstructionContext data]
    exact EffectTree.agree_map fun _ _ => rfl
  refine (ofInstruction_alike hnext).bind ?_
  rintro next _ rfl
  refine currentInstruction_alike.bind fun _ _ _ => ?_
  have hsyscall : Alike f W data
      (fun m m' => m = m' ∧ m.accountsMetadata = f.accountsMetadata)
      (ofResult (Outcome.unwrap c.getSyscallContext.toOption))
      (ofResult (Outcome.unwrap (c.withSysvarData data).getSyscallContext.toOption)) := by
    refine ofResult_alike (EffectTree.agree_self fun m hm => ⟨rfl, hc.metadata m ?_⟩)
    have hsome := Outcome.unwrap_eq_ok.mp hm
    cases hget : c.getSyscallContext with
    | error err =>
        rw [hget] at hsome
        cases hsome
    | ok m' =>
        rw [hget] at hsome
        exact congrArg Except.ok (Option.some.inj hsome)
  refine hsyscall.bind ?_
  rintro syscallContext _ ⟨rfl, hmetadata⟩
  refine (Alike.mapM _ fun account _ =>
    translateAccount_alike (t := ⟨abi, mode, checkAligned, accountInfosAddr, accountInfos,
      accountInfoKeys, syscallContext.accountsMetadata⟩) hguards hstricter rfl rfl hmetadata next
      account).bind ?_
  intro as bs hlists
  exact .pure (forall₂_reduceOption hlists)

theorem translateAccounts_alike (abi : Abi) (accountInfosAddr accountInfosLen : U64) :
    Alike f W data (List.Forall₂ (TranslatedAlike f W))
      (translateAccounts abi mode checkAligned accountInfosAddr accountInfosLen)
      (translateAccounts abi mode checkAligned accountInfosAddr accountInfosLen) := by
  have hinfos : Alike f W data Eq
      (translateAccountInfos abi mode checkAligned accountInfosAddr accountInfosLen)
      (translateAccountInfos abi mode checkAligned accountInfosAddr accountInfosLen) := by
    refine (require_alike _ _).bind fun _ _ _ => ?_
    refine (translate_alike hguards.shields (translateSlice_plain ..)).bind ?_
    rintro accountInfos _ rfl
    have hcheck : Alike f W data (fun _ _ => True)
        (checkAccountInfos (elements abi.accountInfo accountInfos).length)
        (checkAccountInfos (elements abi.accountInfo accountInfos).length) := by
      refine getContext_alike.bind ?_
      rintro c _ ⟨rfl, -⟩
      exact (require_alike _ _).mono fun _ _ _ => trivial
    refine hcheck.bind fun _ _ _ => ?_
    refine getContext_alike.bind ?_
    rintro c _ ⟨rfl, -⟩
    refine (when_alike fun _ => consumeBytes_alike _).bind fun _ _ _ => ?_
    refine (Alike.mapM_eq _ fun accountInfo _ => ?_).bind ?_
    · refine (translate_alike hguards.shields (translateType_plain ..)).bind ?_
      rintro key _ rfl
      exact .pure rfl
    · rintro keys _ rfl
      exact .pure rfl
  refine hinfos.bind ?_
  rintro ⟨accountInfos, accountInfoKeys⟩ _ rfl
  exact translateAccountsCommon_alike hguards hstricter abi _ _ _

/-! ## Entering the invocation -/

theorem synchronizeAccount_alike {account : TranslatedAccount}
    (hshielded : account.callerAccount.Shielded W (f.keyAt account.indexInCaller)) :
    Alike f W data Eq (synchronizeAccount mode checkAligned account)
      (synchronizeAccount mode checkAligned account) := by
  refine currentInstruction_alike.bind ?_
  rintro ic _ ⟨rfl, hic⟩
  refine (ofInstruction_alike
    (tryBorrowInstructionAccount_twins hic account.indexInCaller)).bind ?_
  rintro callee callee' ⟨key, hcallee, hkey⟩
  rw [hkey] at hshielded
  refine (updateCalleeAccount_alike hguards hstricter hcallee hshielded).bind ?_
  rintro updateCaller _ rfl
  exact .pure rfl

end Accounts

/-- Preparing the next instruction leaves the current one alone. -/
theorem InvokeContext.RunsIn.prepare {c c' : InvokeContext} (hc : c.RunsIn f data)
    {instruction : Instruction} {signers : List Pubkey}
    (h : c.prepareNextInstruction instruction signers = .ok c') : c'.RunsIn f data := by
  have hconfigures := c.prepareNextInstruction_configures instruction signers
  rw [h] at hconfigures
  obtain ⟨_, _, _, _, _, tx, hconfigured, rfl⟩ := hconfigures
  have hlength := TransactionContext.configureNextInstruction_length hconfigured
  obtain ⟨last, -, rfl⟩ := TransactionContext.configureNextInstruction_ok hconfigured
  obtain ⟨index, program, hstack, hlt, htrace, hprogram, haccounts⟩ := hc.current
  refine ⟨hc.keys, hc.foreign, ⟨index, program, hstack, ?_, ?_, hprogram, ?_⟩, hc.metadata⟩
  · exact hlength ▸ hlt
  · unfold TransactionContext.getInstructionTraceLength at hlt
    rw [List.getElem?_append_left (by rwa [List.length_dropLast]), List.getElem?_dropLast,
      if_pos hlt]
    exact htrace
  · exact getElem?_mono (List.prefix_append _ _) haccounts

theorem prepareNextInstruction_alike {c : InvokeContext} (hc : c.RunsIn f data)
    (instruction : Instruction) (signers : List Pubkey) :
    Alike f W data (fun c' c'' => c'' = c'.withSysvarData data ∧ c'.RunsIn f data)
      (ofResult ((c.prepareNextInstruction instruction signers).mapError fun
        | .err err => .err (.instruction err)
        | .panic => .panic))
      (ofResult (((c.withSysvarData data).prepareNextInstruction instruction signers).mapError fun
        | .err err => .err (.instruction err)
        | .panic => .panic)) := by
  have hagree := (prepareNextInstruction_twins c data instruction signers).post
    fun c' hc' => hc.prepare hc'
  exact ofResult_alike (hagree.mapError _)

theorem enterPaidCpi_alike {mode : MappingMode} {checkAligned : Bool}
    (hguards : f.Guards W mode checkAligned)
    (hstricter : mode.stricterAbiAndRuntimeConstraints = true) (env : CpiEnvironment)
    (request : CpiRequest) :
    Alike f W data Eq (enterPaidCpi mode checkAligned env request)
      (enterPaidCpi mode checkAligned env request) := by
  refine (translateInstruction_alike hguards.shields _ _ _).bind ?_
  rintro instruction _ rfl
  refine currentInstruction_alike.bind ?_
  rintro ic _ ⟨rfl, -⟩
  rw [ic.withSysvarData_getProgramKey data]
  refine (ofInstruction_self _).bind ?_
  rintro callerProgramId _ rfl
  refine (translateSigners_alike hguards.shields _ _ _ _ _).bind ?_
  rintro signers _ rfl
  refine (require_alike _ _).bind fun _ _ _ => ?_
  refine getContext_alike.bind ?_
  rintro c _ ⟨rfl, hc⟩
  refine (prepareNextInstruction_alike hc instruction signers).bind ?_
  rintro prepared _ ⟨rfl, hprepared⟩
  refine (setContext_alike hprepared).bind fun _ _ _ => ?_
  refine (translateAccounts_alike hguards hstricter _ _ _).bind fun as bs htranslated => ?_
  obtain ⟨rfl, hshielded⟩ := translatedAlike_lists htranslated
  refine .ite (fun _ => ?_) fun hnot => (hnot hstricter).elim
  exact Alike.mapM_eq _ fun account hmem =>
    synchronizeAccount_alike hguards hstricter (hshielded account hmem)

/-- With stricter constraints, entering an invocation does the same to twins. -/
theorem enterCpi_alike {env : CpiEnvironment} {request : CpiRequest} {s t : CallerState}
    (hguards : f.Guards W s.context.featureSet.mapping s.context.getCheckAligned)
    (hstricter : s.context.featureSet.mapping.stricterAbiAndRuntimeConstraints = true)
    (htwins : CallerTwins f W data s t)
    (hquiet : (s.enterCpi env request).2.recorded = s.recorded) :
    (s.enterCpi env request).1 = (t.enterCpi env request).1 ∧
      CallerTwins f W data (s.enterCpi env request).2 (t.enterCpi env request).2 := by
  have hentry : ∀ u : CallerState, u.enterCpi env request =
      (consume u.context.executionCost.invokeUnits >>= fun _ => enterPaidCpi
        u.context.featureSet.mapping u.context.getCheckAligned env request).run.run cpiHandler u :=
    fun _ => rfl
  have hcost : t.context.executionCost = s.context.executionCost := by
    rw [htwins.context]
    rfl
  have hfeatures : t.context.featureSet = s.context.featureSet := by
    rw [htwins.context]
    rfl
  have haligned : t.context.getCheckAligned = s.context.getCheckAligned := by
    rw [htwins.context]
    exact withSysvarData_getCheckAligned _ _
  have halike : Alike f W data Eq
      (consume s.context.executionCost.invokeUnits >>= fun _ => enterPaidCpi
        s.context.featureSet.mapping s.context.getCheckAligned env request)
      (consume s.context.executionCost.invokeUnits >>= fun _ => enterPaidCpi
        s.context.featureSet.mapping s.context.getCheckAligned env request) :=
    (consume_alike _).bind fun _ _ _ => enterPaidCpi_alike hguards hstricter env request
  rw [hentry s] at hquiet ⊢
  rw [hentry t, hcost, hfeatures, haligned]
  obtain ⟨hagree, htwins'⟩ := halike s t htwins hquiet
  exact ⟨EffectTree.agree_eq.mp hagree, htwins'⟩

end Walk

end ProgramRuntime
end Gobble
