import Gobble.ProgramRuntime.CpiCallers

/-!
# CpiChannel — when an invocation is a channel around the tracker

With stricter constraints entering an invocation depends on watched bytes only if the tracker sees
it.  Without them it does not matter what the fields of an account info point to.  A program can say
that the lamports of one of its accounts are where the data of the instructions sysvar is: the
pointer is translated for writing, which is not recorded, and the number behind it becomes the
lamports of the account.
-/

namespace Gobble
namespace ProgramRuntime

open Lib Sbpf Sdk Context

/-! ## A program that reads the sysvar through a lamports pointer -/

namespace Leak

def programKey : Pubkey := Vector.replicate 32 1

def accountKey : Pubkey := Vector.replicate 32 2

def sysvarData : List UInt8 := [9, 0, 0, 0, 0, 0, 0, 0]

/-- The program, an account that it owns, and the sysvar. -/
def accounts : List (Pubkey × AccountSharedData) :=
  [(programKey,
      { lamports := 1, data := [], owner := bpfLoaderDeprecatedId, executable := true,
        rentEpoch := 0 }),
    (accountKey,
      { lamports := 5, data := [], owner := programKey, executable := false, rentEpoch := 0 }),
    (instructionsSysvarId,
      { lamports := 1, data := sysvarData, owner := sysvarId, executable := false,
        rentEpoch := 0 })]

def instructionAccounts : List InstructionAccount :=
  [⟨2, false, false⟩, ⟨1, false, true⟩, ⟨0, false, false⟩]

/-- The transaction after the instruction of the program has been entered. -/
def transaction : TransactionContext :=
  let configured := (TransactionContext.new accounts 5 64).configureNextInstruction 0
    instructionAccounts (dedupMapOf (indicesOf instructionAccounts)) [] none
  (configured.toOption.map fun tx => tx.push.2).getD (.new accounts 5 64)

/-- All of the sysvar's data is forbidden.  Entering the instruction has pushed a syscall context. -/
def context (direct : Bool) : InvokeContext :=
  { InvokeContext.new transaction [] ⟨⟨false, direct⟩, true, true, false, true⟩ ⟨200000, 32768⟩
      ⟨8, 1000, 250⟩ with
    syscallContext := [none]
    forbiddenSysvarDataRanges := [⟨0, 8⟩] }

/-- Without stricter constraints the mapping is the aligned one. -/
def executable : LoadedExecutable :=
  { config := { alignedMemoryMapping := true }
    sbpfVersion := .v0
    roRegion := .newReadonly 0x400000 8 mmBytecodeStart
    code := fun _ => .pure (.ok 0) }

def host : HostAllocation :=
  { storage :=
      { bufferAddr := 0x100000
        dataAddr := fun i => BitVec.ofNat 64 (0x1000000 * (i + 1))
        isShared := fun _ => false }
    stackAddr := 0x200000
    heapAddr := 0x300000 }

def create (direct : Bool) : Option NewCaller :=
  createCaller executable host ⟨context direct, fun _ => 0⟩

/-- What the program writes to its heap before it calls itself. -/
def heap : List UInt8 :=
  let start := mmHeapStart.toNat
  let words :=
    -- `SolInstruction`: the program id, one account, no data.
    [start + 112, start + 40, 1, start, 0,
      -- `SolAccountMeta`: the account, to be writable.
      start + 144, 1,
      -- `SolAccountInfo`: the lamports are said to be at the start of the sysvar's data.
      start + 144, mmInputStart.toNat + 59, 0, start, start + 112, 0, 0]
  words.flatMap (leBytes 8) ++ (programKey.toList ++ accountKey.toList)

def request : CpiRequest :=
  { abi := .c
    instructionAddr := mmHeapStart
    accountInfosAddr := mmHeapStart + 56
    accountInfosLen := 1
    signersSeedsAddr := 0
    signersSeedsLen := 0 }

/-- The program at the time of its syscall. -/
def caller (new : NewCaller) : CallerState :=
  { new.caller with
    memory.host := new.caller.memory.host.writeBytes host.heapAddr.toNat heap }

/-- The same program, with another first byte in its copy of the sysvar's data. -/
def twin (new : NewCaller) : CallerState :=
  { caller new with
    memory.host :=
      (caller new).memory.host.writeBytes (host.storage.bufferAddr.toNat + 59) [7] }

/-- The lamports of the account after the entry. -/
def lamportsAfter (s : CallerState) : Option U64 :=
  (s.enterCpi CpiEnvironment.plain request).2.context.transactionContext.accounts.accounts[1]?.map
    fun entry => entry.2.lamports

/-- What is computed about the VM. -/
@[mk_iff]
structure Facts (direct : Bool) (new : NewCaller) : Prop where
  wellFormed : new.instructionContext.WellFormed
  accounts_eq : new.instructionContext.transactionContext.accounts.accounts = accounts
  program : new.instructionContext.programAccountIndexInTx = 0
  size : inputSize new.instructionContext ⟨false, direct⟩ = 332
  length : inputLen (entriesOf new.instructionContext) new.instructionContext.instructionData = 8
  regions : new.params.regions = [.newWritable 0x100000 332 mmInputStart]
  watched : (new.caller.memory.mapping.common?.map fun c => c.accessTracker.watchedRanges) =
    some [⟨mmInputStart + 59, mmInputStart + 67⟩]
  sysvar : new.caller.context.withSysvarData sysvarData = new.caller.context
  quiet : ((caller new).enterCpi CpiEnvironment.plain request).2.recorded = (caller new).recorded
  succeeds : ((caller new).enterCpi CpiEnvironment.plain request).1.isOk = true
  lamports : lamportsAfter (caller new) = some 9
  lamports_twin : lamportsAfter (twin new) = some 7

instance (direct : Bool) (new : NewCaller) : Decidable (Facts direct new) :=
  decidable_of_iff _ (facts_iff direct new).symm

theorem create_facts (direct : Bool) : ∃ new, create direct = some new ∧ Facts direct new := by
  have hcheck : ((create direct).any fun new => decide (Facts direct new)) = true := by
    cases direct <;> decide +kernel
  obtain ⟨new, hnew, hfacts⟩ := (Option.any_eq_true _ _).mp hcheck
  exact ⟨new, hnew, of_decide_eq_true hfacts⟩

section Caller

variable {direct : Bool} {new : NewCaller}

/-- The buffer is below the memory of the accounts. -/
theorem Facts.keeps (h : Facts direct new) :
    host.storage.Keeps (inputSize new.instructionContext ⟨false, direct⟩) false
      new.instructionContext.transactionContext.accounts where
  buffer_fits := by
    rw [h.size]
    decide
  data_fits := fun hdirect => Bool.noConfusion hdirect
  buffer_apart := by
    intro i entry hentry
    rw [h.accounts_eq] at hentry
    have hi : i < 3 := (List.getElem?_eq_some_iff.mp hentry).1
    have haddr : (host.storage.dataAddr i).toNat = 0x1000000 * (i + 1) := by
      show (BitVec.ofNat 64 (0x1000000 * (i + 1))).toNat = _
      rw [BitVec.toNat_ofNat, Nat.mod_eq_of_lt (by omega)]
    have hbuffer : host.storage.bufferAddr.toNat = 0x100000 := rfl
    have hsize := h.size
    refine Set.disjoint_left.mpr ?_
    rintro a ⟨-, hhi⟩ ⟨hlo, -⟩
    omega
  data_apart := fun hdirect => Bool.noConfusion hdirect

theorem Facts.ownMemory (h : Facts direct new) :
    executable.OwnMemory host (context direct).computeBudget.heapSize new.params.regions := by
  have hheap : (context direct).computeBudget.heapSize = 32768 := rfl
  rw [h.regions, hheap]
  refine ⟨by decide +kernel, ?_, by decide +kernel⟩
  have hintervals : (executable.ownRegions host 32768 ++
      [MemoryRegion.newWritable 0x100000 332 mmInputStart]).Pairwise fun r r' =>
        r.hostAddr.toNat + r.len.toNat ≤ r'.hostAddr.toNat ∨
          r'.hostAddr.toNat + r'.len.toNat ≤ r.hostAddr.toNat := by
    decide +kernel
  refine hintervals.imp ?_
  rintro r r' hle
  refine Set.disjoint_left.mpr ?_
  rintro a ⟨hlo, hhi⟩ ⟨hlo', hhi'⟩
  omega

theorem Facts.rangesFit (h : Facts direct new) :
    RangesFit new.instructionContext (context direct).forbiddenSysvarDataRanges := by
  intro a _ account haccount r hr
  have hr : r ∈ [⟨0, 8⟩] := hr
  rw [List.mem_singleton.mp hr]
  rw [h.accounts_eq] at haccount
  have hlength : ∀ entry ∈ accounts, entry.1 = instructionsSysvarId →
      entry.2.data.length = 8 := by
    decide +kernel
  rw [hlength _ (List.mem_of_getElem? haccount) rfl]
  decide

theorem runsWithin : transaction.RunsWithin [0, 1, 2] := by
  refine ⟨⟨?_, ?_, ?_⟩, 0, instructionAccounts, ?_, ?_, ?_, ?_, ?_⟩
  all_goals decide +kernel

/-- The program does not own the sysvar. -/
theorem Facts.foreign (h : Facts direct new) :
    transaction.accounts.Foreign
      (new.instructionContext.transactionContext.accounts.accountKey
        new.instructionContext.programAccountIndexInTx) sysvarData := by
  have haccounts : transaction.accounts.accounts = accounts := by
    decide +kernel
  unfold TransactionAccounts.Foreign TransactionAccounts.accountKey
  rw [haccounts, h.accounts_eq, h.program]
  decide +kernel

/-- The program and its twin are callers as the runtime creates them, and they differ in a watched
byte only. -/
theorem exists_twins (hnew : create direct = some new) (h : Facts direct new) :
    ∃ f W, (caller new).context.featureSet.mapping = ⟨false, direct⟩ ∧
      f.Guards W ⟨false, direct⟩ (caller new).context.getCheckAligned ∧
      CallerTwins f W sysvarData (caller new) (twin new) := by
  have hmode : (context direct).featureSet.mapping = ⟨false, direct⟩ := rfl
  obtain ⟨vmRanges, mapping, hcreates⟩ := createCaller_eq_some hnew
  obtain ⟨-, -, hfeatures, -⟩ := payAndCreateVm_ok hcreates.vm
  obtain ⟨c, hc, hguards⟩ := createCaller_guards hnew h.wellFormed (by rw [h.length]; decide)
    (by rw [hmode]; exact h.keeps) h.ownMemory h.rangesFit
  rw [hfeatures, hmode] at hguards
  refine ⟨_, _, ?_, hguards, ⟨rfl, ⟨c, hc, hguards.shields.tracker, rfl, rfl⟩, ?_⟩, h.sysvar.symm,
    hcreates.runsIn runsWithin h.foreign c⟩
  · show new.caller.context.featureSet.mapping = _
    rw [hfeatures, hmode]
  -- The byte that differs is the first byte of the sysvar's data, which is watched.
  have hwatched : c.accessTracker.watchedRanges = [⟨mmInputStart + 59, mmInputStart + 67⟩] := by
    have hwatched := h.watched
    rw [hc] at hwatched
    exact Option.some.inj hwatched
  have hsecret : host.storage.bufferAddr.toNat + 59 ∈ new.params.watchedBytes c := by
    refine ⟨mmInputStart.toNat + 59, ⟨_, by rw [hwatched]; exact List.mem_singleton_self _, ?_⟩,
      _, by rw [h.regions]; exact List.mem_singleton_self _, ?_⟩
    · decide +kernel
    · decide +kernel
  intro a ha
  have hne : a ≠ host.storage.bufferAddr.toNat + 59 := by
    rintro rfl
    exact ha hsecret
  show (caller new).memory.host a =
    (caller new).memory.host.writeBytes (host.storage.bufferAddr.toNat + 59) [7] a
  unfold ByteMemory.writeBytes
  split
  · rw [List.getD_eq_getElem?_getD, List.getElem?_eq_none (by rw [List.length_singleton]; omega)]
    rfl
  · rfl

end Caller

end Leak

/-! ## The channel -/

/-- Entering the invocation ends alike in two callers, as far as the callee and its accounts are
concerned.  The sysvar has the given data in the second one. -/
structure CallerState.EntersLike (env : CpiEnvironment) (request : CpiRequest) (data : List UInt8)
    (s t : CallerState) : Prop where
  result : (s.enterCpi env request).1 = (t.enterCpi env request).1
  context : (t.enterCpi env request).2.context =
    (s.enterCpi env request).2.context.withSysvarData data
  /-- If the contexts were the same, then they still are. -/
  same : t.context = s.context →
    (t.enterCpi env request).2.context = (s.enterCpi env request).2.context

theorem Leak.Facts.not_entersLike {direct : Bool} {new : NewCaller} (h : Leak.Facts direct new) :
    ¬ (Leak.caller new).EntersLike CpiEnvironment.plain Leak.request Leak.sysvarData
      (Leak.twin new) := by
  intro hlike
  have hlamports : Leak.lamportsAfter (Leak.twin new) = Leak.lamportsAfter (Leak.caller new) := by
    unfold Leak.lamportsAfter
    rw [hlike.same rfl]
  rw [h.lamports, h.lamports_twin] at hlamports
  exact absurd hlamports (by decide)

/-- A caller is its own twin if the sysvar has the given data. -/
theorem CallerTwins.self {f : CallerFrame} {W : Set Nat} {data : List UInt8} {s t : CallerState}
    (h : CallerTwins f W data s t) (hsame : t.context = s.context) : CallerTwins f W data s s :=
  ⟨⟨rfl, h.memory.regions, fun _ _ => rfl⟩, hsame ▸ h.context, h.runs⟩

theorem entersLike_of_stricter {f : CallerFrame} {W : Set Nat} {data : List UInt8}
    {env : CpiEnvironment} {request : CpiRequest} {s t : CallerState}
    (hguards : f.Guards W s.context.featureSet.mapping s.context.getCheckAligned)
    (hstricter : s.context.featureSet.mapping.stricterAbiAndRuntimeConstraints = true)
    (htwins : CallerTwins f W data s t)
    (hquiet : (s.enterCpi env request).2.recorded = s.recorded) :
    s.EntersLike env request data t := by
  obtain ⟨hresult, hafter⟩ := enterCpi_alike hguards hstricter htwins hquiet
  refine ⟨hresult, hafter.context, fun hsame => ?_⟩
  obtain ⟨-, hself⟩ := enterCpi_alike hguards hstricter (htwins.self hsame) hquiet
  rw [hafter.context]
  exact hself.context.symm

/-- **An invocation is no channel around the tracker if and only if the constraints are strict.**
Two callers differ in bytes of the instructions sysvar that are watched, and the first one enters an
invocation without a forbidden access being recorded.  Under
`stricter_abi_and_runtime_constraints`, and under no other condition on the features, both end with
the same result, prepare the same instruction and leave the same accounts to the callee. -/
theorem enterCpi_hides_watched_bytes_iff (mode : MappingMode) :
    (∀ (env : CpiEnvironment) (request : CpiRequest) (f : CallerFrame) (W : Set Nat)
        (data : List UInt8) (s t : CallerState), s.context.featureSet.mapping = mode →
      f.Guards W mode s.context.getCheckAligned → CallerTwins f W data s t →
      (s.enterCpi env request).2.recorded = s.recorded → s.EntersLike env request data t) ↔
    mode.stricterAbiAndRuntimeConstraints = true := by
  constructor
  · intro hall
    by_contra hstricter
    have hmode : mode = ⟨false, mode.accountDataDirectMapping⟩ := by
      rcases mode with ⟨_ | _, _⟩
      · rfl
      · exact absurd rfl hstricter
    obtain ⟨new, hnew, hfacts⟩ := Leak.create_facts mode.accountDataDirectMapping
    obtain ⟨f, W, hcaller, hguards, htwins⟩ := Leak.exists_twins hnew hfacts
    rw [← hmode] at hcaller hguards
    have hlike := hall _ _ f W _ _ _ hcaller hguards htwins hfacts.quiet
    exact hfacts.not_entersLike hlike
  · intro hstricter env request f W data s t hmode hguards htwins hquiet
    subst hmode
    exact entersLike_of_stricter hguards hstricter htwins hquiet

/-- The program reads the number 9 from the sysvar where its twin reads 7, and nothing is recorded. -/
theorem enterCpi_leaks_watched_bytes :
    ∃ new f W, Leak.create false = some new ∧
      (Leak.caller new).context.featureSet.mapping = ⟨false, false⟩ ∧
      f.Guards W ⟨false, false⟩ (Leak.caller new).context.getCheckAligned ∧
      CallerTwins f W Leak.sysvarData (Leak.caller new) (Leak.twin new) ∧
      (Leak.twin new).context = (Leak.caller new).context ∧
      ((Leak.caller new).enterCpi CpiEnvironment.plain Leak.request).2.recorded =
        (Leak.caller new).recorded ∧
      ((Leak.caller new).enterCpi CpiEnvironment.plain Leak.request).1.isOk = true ∧
      Leak.lamportsAfter (Leak.caller new) = some 9 ∧
      Leak.lamportsAfter (Leak.twin new) = some 7 ∧
      ¬ (Leak.caller new).EntersLike CpiEnvironment.plain Leak.request Leak.sysvarData
        (Leak.twin new) := by
  obtain ⟨new, hnew, hfacts⟩ := Leak.create_facts false
  obtain ⟨f, W, hcaller, hguards, htwins⟩ := Leak.exists_twins hnew hfacts
  exact ⟨new, f, W, hnew, hcaller, hguards, htwins, rfl, hfacts.quiet, hfacts.succeeds,
    hfacts.lamports, hfacts.lamports_twin, hfacts.not_entersLike⟩

end ProgramRuntime
end Gobble
