import Gobble.ProgramRuntime.Confinement
import Gobble.ProgramRuntime.CpiSecrecy
import Gobble.Sbpf.MappingAgreement

/-!
# CpiCallers — the callers that the runtime creates

What `CpiSecrecy` asks of a caller is what the runtime sees to when it creates the VM of a program:
the input is laid out in one pass, so that the data of the sysvar shares no address with anything
else, and the watched addresses are addresses of that data.
-/

namespace Gobble
namespace ProgramRuntime

open Lib Sbpf Sdk Context

/-! ## The place of the sysvar in the input -/

section Input

variable {ic : InstructionContext} {mode : MappingMode} {params : SerializedParameters}
  {im : InputImage}

/-- The ranges are offsets into the data of the sysvar. -/
def RangesFit (ic : InstructionContext) (ranges : List AddrRange) : Prop :=
  ∀ a ∈ ic.instructionAccounts, ∀ account,
    ic.transactionContext.accounts.accounts[a.indexInTransaction]? =
        some (instructionsSysvarId, account) →
      ∀ r ∈ ranges, r.stop.toNat ≤ account.data.length

/-- A watched address is an address of the sysvar's data. -/
theorem InputOk.watched_in_sysvar (h : ic.WellFormed)
    (hok : InputOk (isLoaderDeprecated ic) mode (entriesOf ic) ic.instructionData
      params.accountsMetadata params.instructionDataOffset im) (hcursor : im.cursor ≤ 2 ^ 63)
    {ranges vmRanges : List AddrRange} (hranges : RangesFit ic ranges)
    (hvm : forbiddenVmRanges ic params.accountsMetadata ranges = .ok vmRanges) {v : Nat}
    (hv : ∃ r ∈ (watchRanges .new vmRanges).watchedRanges, r.Contains v) :
    ∃ p ∈ im.placements, p.2.key = instructionsSysvarId ∧ p.1 ≤ v ∧
      v < p.1 + p.2.getData.length := by
  rw [watchRanges_contains] at hv
  cases hbase : sysvarVmDataAddr ic params.accountsMetadata with
  | none =>
      rw [forbiddenVmRanges_eq_nil hbase] at hvm
      cases hvm
      obtain ⟨r, hr, -⟩ := hv
      cases hr
  | some base =>
      rw [forbiddenVmRanges_eq hbase] at hvm
      obtain ⟨r, hr, k, hk, rfl⟩ :=
        (movedBy_contains (mapM_shiftRange_exact hvm) v).mp hv
      -- The address was taken from the first position of the sysvar.
      rw [sysvarVmDataAddr_eq_find h] at hbase
      obtain ⟨i, hfind, haddr⟩ := Option.bind_eq_some_iff.mp hbase
      obtain ⟨metadata, hmetadata, rfl⟩ := Option.map_eq_some_iff.mp haddr
      obtain ⟨hi, hsysvar, -⟩ := List.findIdx?_eq_some_iff_getElem.mp hfind
      have ha := List.getElem?_eq_getElem hi
      obtain ⟨metadata', borrowed, hmetadata', hdescribes, hget⟩ := hok.described_at h ha
      rw [hmetadata] at hmetadata'
      cases hmetadata'
      have hkey : borrowed.key = instructionsSysvarId := by
        rw [InstructionContext.isSysvar, TransactionAccounts.accountKey, hget, Option.map_some,
          beq_iff_eq] at hsysvar
        exact Option.some.inj hsysvar
      obtain ⟨c, hc, hvmData⟩ := hdescribes.data
      have hbelow := hok.below _ hc
      have hstart : metadata.vmDataAddr.toNat = c := by
        rw [hvmData, BitVec.toNat_ofNat, Nat.mod_eq_of_lt (by omega)]
      have hstop : r.stop.toNat ≤ borrowed.getData.length := by
        rw [hkey] at hget
        exact hranges _ (List.getElem_mem hi) _ hget r hr
      unfold AddrRange.Contains at hk
      exact ⟨(c, borrowed), hc, hkey, by dsimp only; omega, by dsimp only; omega⟩

end Input

/-! ## The memory of a new VM -/

namespace LoadedExecutable

/-- The regions of a program besides its input. -/
def ownRegions (exe : LoadedExecutable) (host : HostAllocation) (heapSize : Nat) :
    List MemoryRegion :=
  let stackGap :=
    if exe.sbpfVersion.stackFrameGaps && exe.config.enableStackFrameGaps then
      BitVec.ofNat 64 exe.config.stackFrameSize
    else
      0
  [exe.roRegion,
    MemoryRegion.newWritableGapped host.stackAddr (BitVec.ofNat 64 exe.stackSize) mmStackStart
      stackGap,
    MemoryRegion.newWritable host.heapAddr (BitVec.ofNat 64 heapSize) mmHeapStart]

/-- The host gives memory to the program that is not used otherwise, and none of it is mapped to the
first address of the input. -/
structure OwnMemory (exe : LoadedExecutable) (host : HostAllocation) (heapSize : Nat)
    (inputRegions : List MemoryRegion) : Prop where
  fits : ∀ r ∈ exe.ownRegions host heapSize, r.HostFits
  apart : (exe.ownRegions host heapSize ++ inputRegions).Pairwise fun r r' =>
    Disjoint r.hostBytes r'.hostBytes
  below : ∀ r ∈ exe.ownRegions host heapSize, r.vmToHost .store mmInputStart 1 = none

end LoadedExecutable

/-- What stays the same in a caller that runs in a new VM. -/
def createdFrame (ic : InstructionContext) (params : SerializedParameters)
    (common : CommonMemoryMapping) : CallerFrame :=
  { common
    accountKeys := ic.transactionContext.accounts.accountKeys
    programKey := ic.transactionContext.accounts.accountKey ic.programAccountIndexInTx
    instructionAccounts := ic.instructionAccounts
    accountsMetadata := params.accountsMetadata }

/-- The host bytes behind the watched addresses of the input. -/
def SerializedParameters.watchedBytes (params : SerializedParameters)
    (common : CommonMemoryMapping) : Set Nat :=
  { h | ∃ v, common.Watches v ∧ params.MapsTo v h }

section Created

variable {ic : InstructionContext} {mode : MappingMode} {params : SerializedParameters}
  {im : InputImage} {c : CommonMemoryMapping} {host : HostStorage} {isLoaderV1 : Bool}

/-- The watched addresses are addresses of the sysvar's data. -/
def WatchesSysvar (im : InputImage) (c : CommonMemoryMapping) : Prop :=
  ∀ v, c.Watches v → ∃ p ∈ im.placements, p.2.key = instructionsSysvarId ∧ p.1 ≤ v ∧
    v < p.1 + p.2.getData.length

theorem le_accountSpan (isLoaderV1 : Bool) (account : BorrowedInstructionAccount) :
    account.getData.length ≤ InputImage.accountSpan isLoaderV1 account :=
  Nat.le_add_right _ _

/-- What the format writes itself is not watched. -/
theorem InputImage.Apart.chunk_unwatched (hapart : im.Apart isLoaderV1) (hwatches : WatchesSysvar im c)
    {chunk : Nat × List UInt8} (hchunk : chunk ∈ im.chunks) :
    ∀ i < chunk.2.length, ¬ c.Watches (chunk.1 + i) := by
  intro i hi hv
  obtain ⟨p, hp, -, hlo, hhi⟩ := hwatches _ hv
  have hspan := le_accountSpan isLoaderV1 p.2
  rcases hapart.chunks p hp chunk hchunk with hle | hle <;> omega

/-- The address space of another account is not watched. -/
theorem InputImage.Apart.account_unwatched (hapart : im.Apart isLoaderV1)
    (hwatches : WatchesSysvar im c) {p : Nat × BorrowedInstructionAccount}
    (hp : p ∈ im.placements) (hkey : p.2.key ≠ instructionsSysvarId) :
    ∀ i < InputImage.accountSpan isLoaderV1 p.2, ¬ c.Watches (p.1 + i) := by
  intro i hi hv
  obtain ⟨q, hq, hsysvar, hlo, hhi⟩ := hwatches _ hv
  have hspan := le_accountSpan isLoaderV1 q.2
  have hne : p ≠ q := by
    rintro rfl
    exact hkey hsysvar
  -- One of the two was placed behind the other.
  have hordered : p.1 + InputImage.accountSpan isLoaderV1 p.2 ≤ q.1 ∨
      q.1 + InputImage.accountSpan isLoaderV1 q.2 ≤ p.1 := by
    have hpairs : im.placements.Pairwise fun p q =>
        p.1 + InputImage.accountSpan isLoaderV1 p.2 ≤ q.1 ∨
          q.1 + InputImage.accountSpan isLoaderV1 q.2 ≤ p.1 :=
      hapart.placements.imp .inl
    have : Std.Symm fun p q : Nat × BorrowedInstructionAccount =>
        p.1 + InputImage.accountSpan isLoaderV1 p.2 ≤ q.1 ∨
          q.1 + InputImage.accountSpan isLoaderV1 q.2 ≤ p.1 := ⟨fun _ _ h => h.symm⟩
    exact hpairs.forall hp hq hne
  omega

theorem parametersSize_of_not_direct (isLoaderV1 : Bool) (hmode : mode.isDirect = false)
    (entries : List SerializeAccount) (instructionData : List UInt8) :
    parametersSize isLoaderV1 mode entries instructionData =
      parametersSize isLoaderV1 MappingMode.contiguous entries instructionData := by
  have hsize : ∀ entry, accountSize isLoaderV1 mode entry =
      accountSize isLoaderV1 MappingMode.contiguous entry := by
    intro entry
    have hcontiguous : MappingMode.contiguous.isDirect = false := rfl
    cases entry <;> cases isLoaderV1 <;>
      simp [accountSize, accountSizeAligned, accountSizeUnaligned, hmode, hcontiguous]
  simp only [parametersSize, hsize]

/-- The start of the input is the start of the buffer, unless data is mapped directly. -/
theorem SerializedParameters.Shows.start_eq (hshows : params.Shows host mode im)
    (hmode : mode.isDirect = false) {r : MemoryRegion} (hr : r ∈ params.regions) {start : U64}
    (hstart : r.vmToHost .store mmInputStart 1 = some start) : start = host.bufferAddr := by
  have hone : (1 : U64).toNat = 1 := rfl
  obtain ⟨hlo, hhi, heq⟩ := MemoryRegion.vmToHost_continuous (hshows.fits r hr)
    (hshows.continuous r hr) hstart
  have hmaps : r.MapsTo mmInputStart.toNat start.toNat :=
    ⟨hshows.continuous r hr, hlo, by omega, heq⟩
  obtain ⟨i, -, hi, hhost⟩ := hshows.identity hmode r hr _ _ hmaps
  apply BitVec.eq_of_toNat_eq
  omega

/-- The input starts with the number of accounts. -/
theorem count_mem_chunks {isDirect : Bool} {entries : List SerializeAccount}
    {instructionData : List UInt8} {programId : Pubkey}
    {result : Outcome InstructionError (List SerializedAccountMetadata × U64)}
    (himage : (serializeInput isLoaderV1 entries instructionData programId).run.run
      (imageHandler isLoaderV1 isDirect) InputImage.start = (result, im)) :
    (mmInputStart.toNat, leBytes 8 entries.length) ∈ im.chunks := by
  obtain ⟨rest, hrest⟩ : ∃ rest, (serializeInput isLoaderV1 entries instructionData programId).run =
      .perform (.write (leBytes 8 entries.length)) rest := ⟨_, rfl⟩
  rw [hrest] at himage
  -- Nothing is ever removed from an image.
  have hkept := EffectTree.run_invariant (h := imageHandler isLoaderV1 isDirect)
    (I := fun im => (mmInputStart.toNat, leBytes 8 entries.length) ∈ im.chunks)
    (by
      intro op im hmem
      cases op with
      | write bytes => exact List.mem_append_left _ hmem
      | writeAccount account => exact hmem)
    (rest (.ok (BitVec.ofNat 64 mmInputStart.toNat)))
    (InputImage.start.write (leBytes 8 entries.length)) (List.mem_singleton_self _)
  have hfinal : (rest (.ok (BitVec.ofNat 64 mmInputStart.toNat))).run
      (imageHandler isLoaderV1 isDirect) (InputImage.start.write (leBytes 8 entries.length)) =
        (result, im) := himage
  rwa [hfinal] at hkept

/-- Everything that matters about the input of a new VM. -/
structure Lays (host : HostStorage) (ic : InstructionContext) (mode : MappingMode)
    (params : SerializedParameters) (im : InputImage) : Prop where
  ok : InputOk (isLoaderDeprecated ic) mode (entriesOf ic) ic.instructionData
    params.accountsMetadata params.instructionDataOffset im
  shows : params.Shows host mode im
  apart : im.Apart (isLoaderDeprecated ic)
  count : (mmInputStart.toNat, leBytes 8 (entriesOf ic).length) ∈ im.chunks
  cursor : im.cursor ≤ 2 ^ 63

theorem serializeParameters_lays (h : ic.WellFormed)
    (hlen : inputLen (entriesOf ic) ic.instructionData ≤ 2 ^ 62)
    (hkeeps : host.Keeps (inputSize ic mode) mode.isDirect ic.transactionContext.accounts)
    (hparams : serializeParameters host ic mode = .ok params) :
    ∃ im, Lays host ic mode params im := by
  obtain ⟨params', im, hparams', himage, hok, hshows⟩ := serializeParameters_spec h hlen hkeeps
  rw [hparams] at hparams'
  cases hparams'
  have hapart := EffectTree.run_invariant
    (imageHandler_apart (isLoaderDeprecated ic) mode.isDirect)
    (serializeInput (isLoaderDeprecated ic) (entriesOf ic) ic.instructionData
      (programKeyOf ic)).run InputImage.start (InputImage.start_apart _)
  rw [himage] at hapart
  exact ⟨im, hok, hshows, hapart, count_mem_chunks himage, InputOk.cursor_le h hlen hok⟩

namespace Lays

variable (hlays : Lays host ic mode params im)

include hlays

/-- The address of a chunk, as the metadata has it. -/
theorem toNat_chunk {chunk : Nat × List UInt8} (hchunk : chunk ∈ im.chunks) :
    (BitVec.ofNat 64 chunk.1).toNat = chunk.1 := by
  have hbelow := hlays.apart.chunks_below chunk hchunk
  have hcursor := hlays.cursor
  rw [BitVec.toNat_ofNat, Nat.mod_eq_of_lt (by omega)]

theorem toNat_placement {p : Nat × BorrowedInstructionAccount} (hp : p ∈ im.placements) :
    (BitVec.ofNat 64 p.1).toNat = p.1 := by
  have hbelow := hlays.apart.below p hp
  have hcursor := hlays.cursor
  rw [BitVec.toNat_ofNat, Nat.mod_eq_of_lt (by omega)]

/-- Where the data of an account is in the buffer, computed from the start of the buffer. -/
theorem toNat_dataPointer (hmode : mode.isDirect = false)
    (hfits : host.bufferAddr.toNat + inputSize ic mode ≤ u64Max)
    {p : Nat × BorrowedInstructionAccount} (hp : p ∈ im.placements) :
    (host.bufferAddr + U64.saturatingSub (BitVec.ofNat 64 p.1) mmInputStart).toNat =
      host.bufferAddr.toNat + (p.1 - mmInputStart.toNat) := by
  have hsize := parametersSize_of_not_direct (isLoaderDeprecated ic) hmode (entriesOf ic)
    ic.instructionData
  have hcursor := hlays.ok.cursor
  have hbelow := hlays.apart.below p hp
  have hbound : host.bufferAddr.toNat + (p.1 - mmInputStart.toNat) ≤ u64Max := by
    unfold inputSize at hfits
    omega
  rw [BitVec.toNat_add, U64.toNat_saturatingSub, hlays.toNat_placement hp,
    Nat.mod_eq_of_lt (by unfold u64Max at hbound; omega)]

/-- In the buffer, the address space of another account than the sysvar has no watched byte. -/
theorem data_unwatched (h : ic.WellFormed) (hmode : mode.isDirect = false)
    (hfits : host.bufferAddr.toNat + inputSize ic mode ≤ u64Max) (hwatches : WatchesSysvar im c)
    {i : Nat} {metadata : SerializedAccountMetadata}
    (hkey : (createdFrame ic params c).keyAt i ≠ some instructionsSysvarId)
    (hmetadata : params.accountsMetadata[i]? = some metadata) {j : Nat}
    (hj : j < addressSpaceReservedForAccount (!isLoaderDeprecated ic) metadata.originalDataLen) :
    (host.bufferAddr + U64.saturatingSub metadata.vmDataAddr mmInputStart).toNat + j ∉
      params.watchedBytes c := by
  -- The account at this position, and its place in the buffer.
  have hi : i < ic.instructionAccounts.length := by
    have hlt := (List.getElem?_eq_some_iff.mp hmetadata).1
    have hlength := hlays.ok.metadata.length
    simp only [entriesOf, List.length_map, List.length_range] at hlength
    exact hlength ▸ hlt
  obtain ⟨metadata', borrowed, hmetadata', hdescribes, hget⟩ :=
    hlays.ok.described_at h (List.getElem?_eq_getElem hi)
  rw [hmetadata] at hmetadata'
  cases hmetadata'
  obtain ⟨c', hplaced, haddr⟩ := hdescribes.data
  have hborrowed : borrowed.key ≠ instructionsSysvarId := by
    intro hsysvar
    refine hkey ?_
    show (ic.instructionAccounts[i]?.bind fun a =>
      ic.transactionContext.accounts.accountKeys[a.indexInTransaction]?) = _
    rw [List.getElem?_eq_getElem hi, Option.bind_some, ← TransactionAccounts.accountKey_eq_getElem?,
      TransactionAccounts.accountKey, hget, Option.map_some, hsysvar]
  have hspan : j < InputImage.accountSpan (isLoaderDeprecated ic) borrowed := by
    rw [hdescribes.originalDataLen] at hj
    unfold addressSpaceReservedForAccount at hj
    unfold InputImage.accountSpan
    cases hloader : isLoaderDeprecated ic <;> simp [hloader] at hj ⊢ <;> omega
  rw [haddr, hlays.toNat_dataPointer hmode hfits hplaced]
  -- A watched byte of the buffer is seen at one address, which is not one of this account.
  rintro ⟨v, hv, r, hr, hmaps⟩
  obtain ⟨k, -, hvk, hhost⟩ := hlays.shows.identity hmode r hr _ _ hmaps
  have habove := hlays.apart.above _ hplaced
  have heq : c' + j = v := by
    dsimp only at hhost habove
    omega
  exact hlays.apart.account_unwatched hwatches hplaced hborrowed j hspan (heq ▸ hv)

theorem guards (h : ic.WellFormed)
    (hkeeps : host.Keeps (inputSize ic mode) mode.isDirect ic.transactionContext.accounts)
    (hwatches : WatchesSysvar im c) (hshields : c.Shields (params.watchedBytes c))
    (honly : ∀ start, Backed c.regions mmInputStart 1 start →
      ∃ r ∈ params.regions, r.vmToHost .store mmInputStart 1 = some start) :
    (createdFrame ic params c).Guards (params.watchedBytes c) mode (!isLoaderDeprecated ic) where
  shields := hshields
  input := by
    intro v hv
    obtain ⟨p, hp, -, hlo, hhi⟩ := hwatches v hv
    have habove := hlays.apart.above p hp
    have hspan := le_accountSpan (isLoaderDeprecated ic) p.2
    have hlength := length_leBytes 8 (entriesOf ic).length
    rcases hlays.apart.chunks p hp _ hlays.count with hle | hle
    · dsimp only at hle
      omega
    · dsimp only at hle
      omega
  lamports := by
    intro metadata hmem
    obtain ⟨account, hdescribes⟩ := hlays.ok.metadata.described (entriesOf_ok h) hmem
    obtain ⟨c', hchunk, haddr⟩ := hdescribes.lamports
    rw [haddr, hlays.toNat_chunk hchunk]
    have hunwatched := hlays.apart.chunk_unwatched hwatches hchunk
    rw [length_leBytes] at hunwatched
    exact hunwatched
  owner := by
    intro metadata hmem
    obtain ⟨account, hdescribes⟩ := hlays.ok.metadata.described (entriesOf_ok h) hmem
    obtain ⟨c', hchunk, haddr⟩ := hdescribes.owner
    rw [haddr, hlays.toNat_chunk hchunk]
    have hunwatched := hlays.apart.chunk_unwatched hwatches hchunk
    rw [Vector.length_toList] at hunwatched
    exact hunwatched
  data := by
    intro hmode i metadata hkey hmetadata start hstart j hj
    obtain ⟨r, hr, hfirst⟩ := honly start hstart
    rw [hlays.shows.start_eq hmode hr hfirst]
    exact hlays.data_unwatched h hmode hkeeps.buffer_fits hwatches hkey hmetadata hj

end Lays

end Created

/-! ## The VM of an instruction -/

/-- A VM before its program runs, and what it was made from. -/
structure NewCaller where
  instructionContext : InstructionContext
  params : SerializedParameters
  caller : CallerState

/-- What `execute` does before it runs the program. -/
def createCaller (exe : LoadedExecutable) (host : HostAllocation) (s : RuntimeState) :
    Option NewCaller := do
  let ic ← s.context.transactionContext.getCurrentInstructionContext.toOption
  let params ← (serializeParameters host.storage ic s.context.featureSet.mapping).toOption
  let vmRanges ← (forbiddenVmRanges ic params.accountsMetadata
    s.context.forbiddenSysvarDataRanges).toOption
  match exe.payAndCreateVm host params s.context with
  | (.ok mapping, context) =>
      let memory := exe.loadMemory host params context.computeBudget.heapSize s.host
      return ⟨ic, params, ⟨⟨watchMemoryRanges mapping vmRanges, memory⟩, context⟩⟩
  | (.error _, _) => none

/-- The steps of `createCaller`. -/
structure Creates (exe : LoadedExecutable) (host : HostAllocation) (s : RuntimeState)
    (new : NewCaller) (vmRanges : List AddrRange) (mapping : MemoryMapping) : Prop where
  current : s.context.transactionContext.getCurrentInstructionContext = .ok new.instructionContext
  params : serializeParameters host.storage new.instructionContext s.context.featureSet.mapping =
    .ok new.params
  ranges : forbiddenVmRanges new.instructionContext new.params.accountsMetadata
    s.context.forbiddenSysvarDataRanges = .ok vmRanges
  vm : exe.payAndCreateVm host new.params s.context = (.ok mapping, new.caller.context)
  memory : new.caller.memory = ⟨watchMemoryRanges mapping vmRanges, exe.loadMemory host new.params
    new.caller.context.computeBudget.heapSize s.host⟩

section NewCaller

variable {exe : LoadedExecutable} {host : HostAllocation} {s : RuntimeState} {new : NewCaller}

theorem createCaller_eq_some (h : createCaller exe host s = some new) :
    ∃ vmRanges mapping, Creates exe host s new vmRanges mapping := by
  obtain ⟨ic, hic, h⟩ := Option.bind_eq_some_iff.mp h
  obtain ⟨params, hparams, h⟩ := Option.bind_eq_some_iff.mp h
  obtain ⟨vmRanges, hranges, h⟩ := Option.bind_eq_some_iff.mp h
  split at h
  · rename_i mapping context hvm
    cases h
    exact ⟨vmRanges, mapping, toOption_eq_some.mp hic, toOption_eq_some.mp hparams,
      toOption_eq_some.mp hranges, hvm, rfl⟩
  · cases h

/-- `execute` runs its program in this VM. -/
theorem execute_eq_runVm {w : World} {invoke : Invoke}
    (h : createCaller exe (w.allocate s) s = some new) (hwell : new.instructionContext.WellFormed) :
    execute w invoke exe s = runVm w invoke exe new.instructionContext
      (isLoaderDeprecated new.instructionContext) new.params new.caller.memory.mapping
      ⟨new.caller.context, new.caller.memory.host⟩ := by
  obtain ⟨vmRanges, mapping, hcreates⟩ := createCaller_eq_some h
  obtain ⟨owner, howner, hloader⟩ := getProgramOwner_eq hwell
  unfold execute
  simp only [hcreates.current, getProgramKey_eq hwell, howner, hcreates.params, hcreates.ranges,
    hcreates.vm, hcreates.memory, hloader, Bind.bind, Except.bind, Pure.pure, Except.pure]

theorem consumeChecked_eq {c c' : InvokeContext} {amount : U64} {result : Except BoxedError Unit}
    (h : c.consumeChecked amount = (result, c')) : c' = c.consume amount :=
  (congrArg Prod.snd h).symm

theorem setSyscallContext_ok {c c' : InvokeContext} {syscallContext : SyscallContext}
    (h : c.setSyscallContext syscallContext = .ok c') :
    c'.transactionContext = c.transactionContext ∧ c'.featureSet = c.featureSet ∧
      c'.getSyscallContext = .ok syscallContext := by
  unfold InvokeContext.setSyscallContext at h
  split at h
  · cases h
  · cases h
    refine ⟨rfl, rfl, ?_⟩
    simp [InvokeContext.getSyscallContext]

theorem createVm_ok {params : SerializedParameters} {c c' : InvokeContext}
    {mapping : MemoryMapping} (h : exe.createVm host params c = (.ok mapping, c')) :
    exe.createMemoryMapping host c.computeBudget.heapSize params.regions = .ok mapping ∧
      c.setSyscallContext
        ⟨⟨BitVec.ofNat 64 c.computeBudget.heapSize, 0⟩, params.accountsMetadata⟩ = .ok c' := by
  unfold LoadedExecutable.createVm at h
  dsimp only at h
  split at h
  · cases h
  · cases h
  · rename_i mapping' hmapping
    split at h
    · cases h
    · rename_i context hset
      cases h
      exact ⟨hmapping, hset⟩

/-- A VM that was paid for and created. -/
theorem payAndCreateVm_ok {params : SerializedParameters} {c c' : InvokeContext}
    {mapping : MemoryMapping} (h : exe.payAndCreateVm host params c = (.ok mapping, c')) :
    exe.createMemoryMapping host c.computeBudget.heapSize params.regions = .ok mapping ∧
      c'.transactionContext = c.transactionContext ∧ c'.featureSet = c.featureSet ∧
      ∃ allocator, c'.getSyscallContext = .ok ⟨allocator, params.accountsMetadata⟩ := by
  rw [LoadedExecutable.payAndCreateVm] at h
  split at h
  · cases h
  · rename_i paid hpaid
    rw [consumeChecked_eq hpaid] at h
    obtain ⟨hmapping, hset⟩ := createVm_ok h
    obtain ⟨htx, hfeatures, hsyscall⟩ := setSyscallContext_ok hset
    exact ⟨hmapping, htx, hfeatures, _, hsyscall⟩

/-- What entering an invocation needs of the context of a caller. -/
theorem Creates.runsIn {vmRanges : List AddrRange} {mapping : MemoryMapping}
    (h : Creates exe host s new vmRanges mapping) {reach : List IndexOfAccount}
    (hruns : s.context.transactionContext.RunsWithin reach) {data : List UInt8}
    (hforeign : s.context.transactionContext.accounts.Foreign
      (new.instructionContext.transactionContext.accounts.accountKey
        new.instructionContext.programAccountIndexInTx) data)
    (common : CommonMemoryMapping) :
    new.caller.context.RunsIn (createdFrame new.instructionContext new.params common) data := by
  obtain ⟨-, htx, -, allocator, hsyscall⟩ := payAndCreateVm_ok h.vm
  obtain ⟨index, accounts, hstack, haccounts, -⟩ := hruns.current
  -- The view that was serialized is the view of the current instruction.
  have hview := h.current
  unfold TransactionContext.getCurrentInstructionContext
    TransactionContext.getCurrentInstructionIndex at hview
  rw [hstack] at hview
  have hview : s.context.transactionContext.getInstructionContextAtIndexInTrace index =
      .ok new.instructionContext := hview
  unfold TransactionContext.getInstructionContextAtIndexInTrace at hview
  split at hview
  · cases hview
  · rename_i frame hframe
    have hic := (Except.ok.inj hview).symm
    have hsame : new.instructionContext.transactionContext = s.context.transactionContext := by
      rw [hic]
    have hprogram : new.instructionContext.programAccountIndexInTx =
        frame.programAccountIndexInTx := by
      rw [hic]
    have hinstruction : new.instructionContext.instructionAccounts = accounts := by
      rw [hic]
      dsimp only
      rw [haccounts, Option.getD_some]
    refine ⟨?_, ?_, ⟨index, frame.programAccountIndexInTx, ?_, ?_, ?_, ?_, ?_⟩, ?_⟩
    · rw [htx, ← hsame]
      rfl
    · rw [htx]
      exact hforeign
    · rw [htx, hstack]
    · rw [htx, ← hruns.synced.accounts]
      exact (List.getElem?_eq_some_iff.mp haccounts).1
    · rw [htx, hframe]
      rfl
    · rw [← hprogram, createdFrame, TransactionAccounts.accountKey_eq_getElem?]
    · rw [htx, haccounts, ← hinstruction]
      rfl
    · intro syscallContext hcontext
      rw [hsyscall] at hcontext
      cases hcontext
      rfl

/-- The alignment of pointers is checked unless the loader is the deprecated one. -/
theorem Creates.getCheckAligned_eq {vmRanges : List AddrRange} {mapping : MemoryMapping}
    (h : Creates exe host s new vmRanges mapping) (hwell : new.instructionContext.WellFormed) :
    new.caller.context.getCheckAligned = !isLoaderDeprecated new.instructionContext := by
  obtain ⟨-, htx, -, -⟩ := payAndCreateVm_ok h.vm
  obtain ⟨owner, howner, hloader⟩ := getProgramOwner_eq hwell
  unfold InvokeContext.getCheckAligned
  rw [htx, h.current, hloader]
  simp only [Bind.bind, Except.bind, howner]
  rfl

/-- **A new VM guards the data of the sysvar.**  The bytes behind the watched addresses of its input
are apart from everything that entering an invocation reads without telling the tracker. -/
theorem createCaller_guards (hnew : createCaller exe host s = some new)
    (hwell : new.instructionContext.WellFormed)
    (hlen : inputLen (entriesOf new.instructionContext) new.instructionContext.instructionData ≤
      2 ^ 62)
    (hkeeps : host.storage.Keeps (inputSize new.instructionContext s.context.featureSet.mapping)
      s.context.featureSet.mapping.isDirect
      new.instructionContext.transactionContext.accounts)
    (hown : exe.OwnMemory host s.context.computeBudget.heapSize new.params.regions)
    (hranges : RangesFit new.instructionContext s.context.forbiddenSysvarDataRanges) :
    ∃ c, new.caller.memory.mapping.common? = some c ∧
      (createdFrame new.instructionContext new.params c).Guards (new.params.watchedBytes c)
        new.caller.context.featureSet.mapping new.caller.context.getCheckAligned := by
  obtain ⟨vmRanges, mapping, hcreates⟩ := createCaller_eq_some hnew
  obtain ⟨hmapping, -, hfeatures, -⟩ := payAndCreateVm_ok hcreates.vm
  obtain ⟨im, hlays⟩ := serializeParameters_lays hwell hlen hkeeps hcreates.params
  have hmade := MemoryMapping.new_madeOf
    (exe.ownRegions host s.context.computeBudget.heapSize ++ new.params.regions) exe.config
    exe.sbpfVersion defaultAccessViolationHandler
  have hcreate : exe.createMemoryMapping host s.context.computeBudget.heapSize new.params.regions =
    MemoryMapping.newWithAccessViolationHandler
      (exe.ownRegions host s.context.computeBudget.heapSize ++ new.params.regions) exe.config
      exe.sbpfVersion defaultAccessViolationHandler := rfl
  rw [← hcreate, hmapping] at hmade
  obtain ⟨c, hc, hmade⟩ := hmade
  refine ⟨{ c with accessTracker := watchRanges c.accessTracker vmRanges }, ?_, ?_⟩
  · rw [hcreates.memory, watchMemoryRanges, MemoryMapping.modifyCommon_common, hc]
    rfl
  rw [hfeatures, hcreates.getCheckAligned_eq hwell, hmade.tracker]
  refine hlays.guards hwell hkeeps ?_ ⟨?_, ?_, hmade.disjoint hown.apart, ?_⟩ ?_
  · intro v hv
    exact hlays.ok.watched_in_sysvar hwell hlays.cursor hranges hcreates.ranges hv
  · unfold watchRanges
    split
    · exact MemoryAccessTracker.addWatchedRanges_wellFormed MemoryAccessTracker.new_wellFormed _
    · exact MemoryAccessTracker.new_wellFormed
  · intro r hr
    rcases hmade.added r hr with hr | hempty
    · rcases List.mem_append.mp hr with hr | hr
      · exact hown.fits r hr
      · exact hlays.shows.fits r hr
    · rw [MemoryRegion.HostFits, hempty]
      exact U64.toNat_le_u64Max _
  · rintro h ⟨v, hv, r, hr, hmaps⟩
    exact ⟨v, hv, r, hmade.kept r (List.mem_append_right _ hr), hmaps⟩
  · rintro start ⟨r, hr, hstart⟩
    rcases hmade.added r hr with hr | hempty
    · rcases List.mem_append.mp hr with hr | hr
      · rw [hown.below r hr] at hstart
        cases hstart
      · exact ⟨r, hr, hstart⟩
    · rw [MemoryRegion.vmToHost_empty hempty .store mmInputStart (by decide)] at hstart
      cases hstart

end NewCaller

end ProgramRuntime
end Gobble
