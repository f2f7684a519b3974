import Gobble.ProgramRuntime.CpiSafety
import Gobble.ProgramRuntime.RoundTrip
import Mathlib.Order.Interval.Set.Disjoint

/-!
# CpiView — a caller sees what its callee has done

When an invocation returns, the accounts that the callee could write are copied to the memory of the
caller, one after the other.  A caller may let the pointers of its accounts overlap, and then it sees
what was written last.  If they do not overlap (`Footprint`), its memory shows the accounts as they are
(`CallerAccount.Shows`), and copying them back before the next invocation changes nothing: no update of
the callee is lost.
-/

namespace Gobble
namespace ProgramRuntime

open Lib Sbpf Sdk Context Translation EffectTree CpiM

/-! ## Footprints -/

/-- Host bytes of the fields of an account. -/
structure Footprint where
  lamports : Set Nat
  owner : Set Nat
  length : Set Nat
  data : Set Nat

namespace Footprint

def all (F : Footprint) : Set Nat :=
  F.lamports ∪ F.owner ∪ F.length ∪ F.data

/-- The fields of the account do not overlap. -/
structure Apart (F : Footprint) : Prop where
  lamports_owner : Disjoint F.lamports F.owner
  lamports_length : Disjoint F.lamports F.length
  lamports_data : Disjoint F.lamports F.data
  owner_length : Disjoint F.owner F.length
  owner_data : Disjoint F.owner F.data
  length_data : Disjoint F.length F.data

variable {F : Footprint} {a : Nat}

theorem mem_all_lamports (h : a ∈ F.lamports) : a ∈ F.all := Or.inl (Or.inl (Or.inl h))

theorem mem_all_owner (h : a ∈ F.owner) : a ∈ F.all := Or.inl (Or.inl (Or.inr h))

theorem mem_all_length (h : a ∈ F.length) : a ∈ F.all := Or.inl (Or.inr h)

theorem mem_all_data (h : a ∈ F.data) : a ∈ F.all := Or.inr h

end Footprint

/-- All that can be reached through the pointers of an account is in the footprint: the fields, the slice
of the data as it is, and every slice that the data can get when the callee returns.  The serialized
length stands in front of the data. -/
structure CallerAccount.Occupies (a : CallerAccount) (mode : MappingMode) (checkAligned : Bool)
    (regions : List MemoryRegion) (F : Footprint) : Prop where
  lamports : Spans F.lamports a.lamports 8
  owner : Spans F.owner a.owner 32
  length : Spans F.length a.refToLenInVm 8
  slice : Spans F.data a.serializedData.addr a.serializedData.len
  serializedLen : ∀ {host : U64}, Backed regions (U64.saturatingSub a.vmDataAddr 8) 8 host →
    Spans F.data host 8
  data : ∀ len ≤ addressSpaceReservedAtExit mode checkAligned a.originalDataLen,
    DataWithin F.data mode checkAligned regions a.vmDataAddr a.originalDataLen len

/-- The memory of the caller shows the account as it is: lamports, owner and length, and the data if it
is copied.  Data that is mapped directly is in its place anyway. -/
structure CallerAccount.Shows (a : CallerAccount) (mode : MappingMode) (host : ByteMemory)
    (callee : BorrowedInstructionAccount) : Prop where
  lamports : host.readBytes a.lamports.toNat 8 = leBytes 8 callee.getLamports.toNat
  owner : host.readBytes a.owner.toNat 32 = callee.getOwner.toList
  length : (BitVec.ofNat 64 (leNat (host.readBytes a.refToLenInVm.toNat 8)) : U64).toNat =
    callee.getData.length
  data : mode.isDirect = false → a.serializedData.len = callee.getData.length ∧
    host.readBytes a.serializedData.addr.toNat callee.getData.length = callee.getData

section View

variable {mode : MappingMode} {checkAligned : Bool} {regions : List MemoryRegion} {F : Footprint}
  {s : CallerState} {caller : CallerAccount} {callee : BorrowedInstructionAccount} {P : Set Nat}

/-- A field is as it was if only other bytes have changed. -/
theorem Spans.readBytes_eq {A : Set Nat} {addr : U64} {len : Nat} (h : Spans A addr len)
    {host host' : ByteMemory} (hagree : ByteMemory.AgreeOutside P host host') (hapart : Disjoint A P) :
    host'.readBytes addr.toNat len = host.readBytes addr.toNat len :=
  (hagree.readBytes fun i hi => Set.disjoint_left.mp hapart (h.mem i hi)).symm

theorem CallerAccount.Shows.kept {host host' : ByteMemory} (h : caller.Shows mode host callee)
    (hcaller : caller.Occupies mode checkAligned regions F)
    (hagree : ByteMemory.AgreeOutside P host host') (hapart : Disjoint F.all P) :
    caller.Shows mode host' callee where
  lamports := by
    rw [hcaller.lamports.readBytes_eq hagree (hapart.mono_left fun _ => Footprint.mem_all_lamports)]
    exact h.lamports
  owner := by
    rw [hcaller.owner.readBytes_eq hagree (hapart.mono_left fun _ => Footprint.mem_all_owner)]
    exact h.owner
  length := by
    rw [hcaller.length.readBytes_eq hagree (hapart.mono_left fun _ => Footprint.mem_all_length)]
    exact h.length
  data := fun hdirect => by
    obtain ⟨hlen, hdata⟩ := h.data hdirect
    have hslice := hcaller.slice
    rw [hlen] at hslice
    rw [hslice.readBytes_eq hagree (hapart.mono_left fun _ => Footprint.mem_all_data)]
    exact ⟨hlen, hdata⟩

/-! ## One account -/

/-- Steps that write a part of the footprint. -/
theorem Runs.widen {α : Type} {x : CpiM α} {Q : α → CallerState → Prop} {P' : Set Nat}
    (h : CpiM.Runs (bounds P still) x s Q) (hsub : P ⊆ P') :
    CpiM.Runs (bounds P' still) x s fun a t =>
      ByteMemory.AgreeOutside P s.memory.host t.memory.host ∧ Q a t := by
  have hwide := EffectTree.Runs.weaken (G := bounds P' still) h fun t ht =>
    ⟨ht.regions, fun a ha => ht.host a fun hmem => ha (hsub hmem), ht.syscall, ht.transaction⟩
  exact hwide.mono fun a t _ hQ => ⟨hQ.1.host, hQ.2⟩

theorem write_shows {hostAddr : U64} {bytes : List UInt8} {len : Nat} (hlen : bytes.length = len)
    (h : Spans P hostAddr len) :
    CpiM.Runs (bounds P still) (CpiM.write hostAddr bytes) s fun _ t =>
      t.memory.host.readBytes hostAddr.toNat len = bytes := by
  subst hlen
  refine (runs_write h).mono ?_
  rintro _ _ - rfl
  exact ByteMemory.readBytes_writeBytes _ _ _

theorem writeLength_shows (hcaller : caller.Occupies mode checkAligned regions F) (hF : F.Apart)
    (hs : s.memory.regions? = some regions) {postLen : Nat} (hlen : postLen < 2 ^ 64) :
    CpiM.Runs (bounds (F.length ∪ F.data) still) (caller.writeLength checkAligned postLen) s fun _ t =>
      (BitVec.ofNat 64 (leNat (t.memory.host.readBytes caller.refToLenInVm.toNat 8)) : U64).toNat =
        postLen := by
  have hwidth := length_leBytes 8 postLen
  refine (Runs.widen (write_shows hwidth hcaller.length) Set.subset_union_left).bind
    fun _ t ht hread => ?_
  refine (runs_pointer (ht.regions.trans hs) .u64 _ _).bind fun pointer t₁ ht₁ hpointer => ?_
  -- The length in front of the data is in the footprint of the data, not in that of the length.
  have hfield := hcaller.serializedLen hpointer.2
  refine (Runs.widen (write_shows hwidth hfield) Set.subset_union_right).mono fun _ t₂ _ ht₂ => ?_
  rw [hcaller.length.readBytes_eq ht₂.1 hF.length_data, hpointer.1, hread.2,
    leNat_leBytes_of_lt (by omega), U64.toNat_ofNat (by unfold u64Max; omega)]

theorem updateCallerLength_shows (hcaller : caller.Occupies mode checkAligned regions F)
    (hF : F.Apart) (hs : s.memory.regions? = some regions) {prevLen postLen : Nat}
    (hprev : (BitVec.ofNat 64
      (leNat (s.memory.host.readBytes caller.refToLenInVm.toNat 8)) : U64).toNat = prevLen)
    (hlen : postLen < 2 ^ 64)
    (hroom : prevLen ≠ postLen →
      postLen ≤ addressSpaceReservedAtExit mode checkAligned caller.originalDataLen) :
    CpiM.Runs (bounds (F.length ∪ F.data) still)
      (updateCallerLength mode checkAligned caller prevLen postLen) s fun resized t =>
        (∃ slice, resized = { caller with serializedData := slice } ∧
          Spans F.data slice.addr slice.len) ∧
        (BitVec.ofNat 64 (leNat (t.memory.host.readBytes caller.refToLenInVm.toNat 8)) : U64).toNat =
          postLen := by
  unfold updateCallerLength
  split
  · rename_i hne
    refine (Runs.widen (resizeSlice_runs hcaller.slice (hcaller.data postLen (hroom hne)) hs prevLen)
      Set.subset_union_right).bind ?_
    rintro _ t ht ⟨-, slice, rfl, hslice⟩
    -- Only the slice is new, and it stays in the footprint of the data.
    have hresized : CallerAccount.Occupies { caller with serializedData := slice } mode checkAligned
        regions F :=
      ⟨hcaller.lamports, hcaller.owner, hcaller.length, hslice, hcaller.serializedLen, hcaller.data⟩
    exact (writeLength_shows hresized hF (ht.regions.trans hs) hlen).bind fun _ _ _ hread =>
      runs_pure ⟨⟨slice, rfl, hslice⟩, hread⟩
  · -- The length has not changed, so what was read before is still right.
    rename_i hsame
    exact runs_pure ⟨⟨_, rfl, hcaller.slice⟩, hprev.trans (not_not.mp hsame)⟩

theorem updateCallerData_shows
    (hslice : Spans P caller.serializedData.addr caller.serializedData.len) :
    CpiM.Runs (bounds P still) (updateCallerData mode caller callee) s fun _ t =>
      mode.isDirect = false → caller.serializedData.len = callee.getData.length ∧
        t.memory.host.readBytes caller.serializedData.addr.toNat callee.getData.length =
          callee.getData := by
  unfold updateCallerData
  split
  · rename_i hdirect
    exact runs_pure fun h => absurd (h.symm.trans hdirect) Bool.false_ne_true
  · refine runs_require.bind ?_
    rintro _ t - ⟨rfl, hsame⟩
    -- The lengths are compared before the bytes are copied.
    have hlen := beq_iff_eq.mp hsame
    exact (write_shows rfl (hlen ▸ hslice)).mono fun _ _ _ hread _ => ⟨hlen, hread⟩

/-- After the update the memory shows the account, and only its footprint has been written. -/
theorem updateCallerAccount_shows (hcaller : caller.Occupies mode checkAligned regions F)
    (hF : F.Apart) (hs : s.memory.regions? = some regions)
    (hlen : callee.getData.length < 2 ^ 64) :
    CpiM.Runs (bounds F.all still) (updateCallerAccount mode checkAligned caller callee) s
      fun updated t => updated.Occupies mode checkAligned regions F ∧
        updated.Shows mode t.memory.host callee := by
  refine (Runs.widen (write_shows (length_leBytes 8 _) hcaller.lamports)
    fun _ => Footprint.mem_all_lamports).bind fun _ t₁ ht₁ hlamports => ?_
  refine (Runs.widen (write_shows Vector.length_toList hcaller.owner)
    fun _ => Footprint.mem_all_owner).bind fun _ t₂ ht₂ howner => ?_
  refine (runs_derefU64 _).bind ?_
  rintro prevLen t₃ - ⟨rfl, hprev⟩
  refine runs_require.bind ?_
  rintro _ t₄ - ⟨rfl, hallowed⟩
  -- Without stricter constraints the room is checked only if the length has changed.
  have hroom : prevLen.toNat ≠ callee.getData.length → callee.getData.length ≤
      addressSpaceReservedAtExit mode checkAligned caller.originalDataLen := by
    intro hne
    simpa [hne] using hallowed
  refine (Runs.widen (updateCallerLength_shows hcaller hF (ht₂.regions.trans (ht₁.regions.trans hs))
    (congrArg BitVec.toNat hprev.symm) hlen hroom) (Set.union_subset
      (fun _ => Footprint.mem_all_length) fun _ => Footprint.mem_all_data)).bind ?_
  rintro _ t₅ - ⟨hagree₅, ⟨slice, rfl, hslice⟩, hlength⟩
  have hcopied : CpiM.Runs (bounds F.data still)
      (updateCallerData mode { caller with serializedData := slice } callee) t₅ _ :=
    updateCallerData_shows hslice
  refine (Runs.widen hcopied fun _ => Footprint.mem_all_data).bind fun _ t₆ _ hdata => ?_
  obtain ⟨hagree₆, hdata⟩ := hdata
  apply runs_pure
  refine ⟨⟨hcaller.lamports, hcaller.owner, hcaller.length, hslice, hcaller.serializedLen,
    hcaller.data⟩, ?_, ?_, ?_, hdata⟩
  -- What was written first has not been overwritten.
  · rw [hcaller.lamports.readBytes_eq hagree₆ hF.lamports_data,
      hcaller.lamports.readBytes_eq hagree₅
        (Set.disjoint_union_right.mpr ⟨hF.lamports_length, hF.lamports_data⟩),
      hcaller.lamports.readBytes_eq howner.1 hF.lamports_owner]
    exact hlamports.2
  · rw [hcaller.owner.readBytes_eq hagree₆ hF.owner_data,
      hcaller.owner.readBytes_eq hagree₅
        (Set.disjoint_union_right.mpr ⟨hF.owner_length, hF.owner_data⟩)]
    exact howner.2
  · rw [hcaller.length.readBytes_eq hagree₆ hF.length_data]
    exact hlength

/-! ## All accounts -/

/-- The bytes that the turn of an account writes. -/
def TranslatedAccount.touched (F : TranslatedAccount → Footprint) (account : TranslatedAccount) :
    Set Nat :=
  { a | account.updateCallerAccountInfo = true ∧ a ∈ (F account).all }

theorem TranslatedAccount.all_subset_touched {F : TranslatedAccount → Footprint}
    {account : TranslatedAccount} (hlive : account.updateCallerAccountInfo = true) :
    (F account).all ⊆ account.touched F :=
  fun _ ha => ⟨hlive, ha⟩

/-- The accounts that are to be updated have footprints that do not overlap. -/
structure Separated (mode : MappingMode) (checkAligned : Bool) (regions : List MemoryRegion)
    (F : TranslatedAccount → Footprint) (accounts : List TranslatedAccount) : Prop where
  occupies : ∀ account ∈ accounts, account.updateCallerAccountInfo = true →
    account.callerAccount.Occupies mode checkAligned regions (F account)
  fields : ∀ account ∈ accounts, account.updateCallerAccountInfo = true → (F account).Apart
  accounts : accounts.Pairwise fun account other => Disjoint (account.touched F) (other.touched F)

/-- What the turn of an account establishes: the new record is still in the footprint, and the memory
shows the account. -/
def Exited (mode : MappingMode) (checkAligned : Bool) (regions : List MemoryRegion)
    (F : TranslatedAccount → Footprint) (ic : InstructionContext) (account updated : TranslatedAccount)
    (t : CallerState) : Prop :=
  account.updateCallerAccountInfo = true →
    ∃ callee, ic.tryBorrowInstructionAccount account.indexInCaller = .ok callee ∧
      updated.callerAccount.Occupies mode checkAligned regions (F account) ∧
      updated.callerAccount.Shows mode t.memory.host callee

section Loop

variable {F : TranslatedAccount → Footprint} {ic : InstructionContext}
  {accounts : List TranslatedAccount}

theorem exitAccount_shows (hseparated : Separated mode checkAligned regions F accounts)
    (hs : s.memory.regions? = some regions)
    (hdata : ∀ index callee, ic.tryBorrowInstructionAccount index = .ok callee →
      callee.getData.length ≤ maxAccountDataLen)
    {account : TranslatedAccount} (haccount : account ∈ accounts) :
    CpiM.Runs (bounds (account.touched F) still) (exitAccount mode checkAligned ic account) s
      (Exited mode checkAligned regions F ic account) := by
  refine (runs_ofInstruction (Q := fun callee t =>
    t = s ∧ ic.tryBorrowInstructionAccount account.indexInCaller = .ok callee) fun callee h =>
      ⟨rfl, h⟩).bind ?_
  rintro callee t - ⟨rfl, hcallee⟩
  split
  · rename_i hlive
    -- The length is written as a word of 64 bits.
    have hsmall : callee.getData.length < 2 ^ 64 :=
      Nat.lt_of_le_of_lt (hdata _ callee hcallee) (by decide)
    have hupdate := updateCallerAccount_shows (hseparated.occupies account haccount hlive)
      (hseparated.fields account haccount hlive) hs hsmall
    refine (Runs.widen hupdate (TranslatedAccount.all_subset_touched hlive)).bind
      fun updated t' _ hshows => ?_
    exact runs_pure fun _ => ⟨callee, hcallee, hshows.2⟩
  · rename_i hskipped
    exact runs_pure fun hlive => absurd hlive hskipped

/-- What has been established for an account is kept by the turns of the others. -/
theorem Exited.kept {account updated other : TranslatedAccount} {t t' : CallerState}
    (h : Exited mode checkAligned regions F ic account updated t)
    (hapart : Disjoint (account.touched F) (other.touched F))
    (hbounds : Bounded (other.touched F) still t t') :
    Exited mode checkAligned regions F ic account updated t' := by
  intro hlive
  obtain ⟨callee, hcallee, hoccupies, hshows⟩ := h hlive
  have hall : Disjoint (F account).all (other.touched F) :=
    hapart.mono_left (TranslatedAccount.all_subset_touched hlive)
  exact ⟨callee, hcallee, hoccupies, hshows.kept hoccupies hbounds.host hall⟩

theorem exitAccounts_shows (hseparated : Separated mode checkAligned regions F accounts)
    (hs : s.memory.regions? = some regions)
    (hdata : ∀ entry ∈ s.context.transactionContext.accounts.accounts,
      entry.2.data.length ≤ maxAccountDataLen) :
    CpiM.Runs (bounds Set.univ still) (exitAccounts mode checkAligned accounts) s fun exited t =>
      s.context.transactionContext.getCurrentInstructionContext = .ok exited.1 ∧
        List.Forall₂ (fun account updated =>
          Exited mode checkAligned regions F exited.1 account updated t) accounts exited.2 := by
  refine runs_currentInstruction.bind ?_
  rintro ic s - ⟨rfl, hic⟩
  -- The accounts that are borrowed are accounts of the transaction.
  have hborrowed : ∀ index callee, ic.tryBorrowInstructionAccount index = .ok callee →
      callee.getData.length ≤ maxAccountDataLen := by
    intro index callee hcallee
    have hof := (tryBorrowInstructionAccount_borrows hic hcallee).2
    exact hdata _ (List.mem_of_getElem? hof)
  -- The turn of each account is bounded by its own footprint, so the later ones do not undo it.
  have hloop := runs_mapM_frame (h := cpiHandler) (G := bounds Set.univ still) (s := s)
    (H := fun account => bounds (account.touched F) still)
    (V := Exited mode checkAligned regions F ic) (f := exitAccount mode checkAligned ic) accounts
    (fun account haccount t ht =>
      exitAccount_shows hseparated (ht.regions.trans hs) hborrowed haccount)
    (fun account _ t t' ht => ⟨ht.regions, fun a ha => absurd (Set.mem_univ a) ha, ht.syscall,
      ht.transaction⟩)
    (hseparated.accounts.imp fun hapart updated t t' hexited ht => hexited.kept hapart ht)
    (K := fun _ => True) (fun _ _ _ _ _ _ => trivial) trivial
  exact hloop.bind fun updated t _ hupdated => runs_pure ⟨hic, hupdated.2⟩

end Loop

end View

/-! ## Copying back -/

namespace CpiM

variable {α β : Type} {s : CallerState}

/-- The program returns a value and changes nothing. -/
def Leaves (s : CallerState) (x : CpiM α) (a : α) : Prop :=
  x.run.run cpiHandler s = (.ok a, s)

theorem leaves_pure (a : α) : Leaves s (pure a) a :=
  rfl

theorem Leaves.bind {x : CpiM α} {f : α → CpiM β} {a : α} {b : β} (hx : Leaves s x a)
    (hf : Leaves s (f a) b) : Leaves s (x >>= f) b := by
  unfold Leaves at hx hf ⊢
  rw [run_bind_eq, hx]
  exact hf

theorem leaves_deref (hostAddr : U64) (len : Nat) :
    Leaves s (deref hostAddr len) (s.memory.host.readBytes hostAddr.toNat len) :=
  rfl

theorem leaves_derefU64 {hostAddr : U64} {value : U64}
    (h : BitVec.ofNat 64 (leNat (s.memory.host.readBytes hostAddr.toNat 8)) = value) :
    Leaves s (derefU64 hostAddr) value := by
  subst h
  rfl

theorem leaves_derefPubkey {hostAddr : U64} {key : Pubkey}
    (h : s.memory.host.readBytes hostAddr.toNat 32 = key.toList) :
    Leaves s (derefPubkey hostAddr) key := by
  refine (leaves_deref hostAddr 32).bind ?_
  rw [h, pubkeyOfBytes_toList]
  exact leaves_pure key

theorem leaves_getContext : Leaves s getContext s.context :=
  rfl

theorem leaves_update {setter : TransactionAccounts → BorrowedInstructionAccount.Updated}
    {callee : BorrowedInstructionAccount}
    (h : setter s.context.transactionContext.accounts =
      .ok (callee, s.context.transactionContext.accounts)) : Leaves s (update setter) callee := by
  refine leaves_getContext.bind ?_
  rw [h]
  rfl

end CpiM

/-- The data of the account may be written over itself, if it may be written at all. -/
def CallerState.Rewrites (s : CallerState) (callee : BorrowedInstructionAccount) : Prop :=
  callee.canDataBeChanged = .ok () →
    callee.setDataFromSlice s.context.transactionContext.accounts callee.getData =
      .ok (callee, s.context.transactionContext.accounts)

section CopyingBack

variable {mode : MappingMode} {checkAligned : Bool} {s : CallerState} {caller : CallerAccount}
  {callee : BorrowedInstructionAccount}

theorem updateCalleeBytes_leaves (hshows : caller.Shows mode s.memory.host callee)
    (hset : s.Rewrites callee) :
    Leaves s (updateCalleeBytes mode caller callee) callee := by
  unfold updateCalleeBytes
  split
  · rename_i hcopied
    rw [Bool.and_eq_true, Bool.not_eq_true'] at hcopied
    -- The bytes are written over the account only if they are copied and the account is writable.
    have hdirect : mode.isDirect = false := by
      rw [MappingMode.isDirect, hcopied.1, Bool.and_false]
    obtain ⟨hlen, hdata⟩ := hshows.data hdirect
    have hchange : callee.canDataBeChanged = .ok () := by
      cases hresult : callee.canDataBeChanged with
      | ok _ => rfl
      | error err =>
          rw [hresult] at hcopied
          cases hcopied.2
    refine (leaves_deref _ _).bind ?_
    rw [hlen, hdata]
    exact leaves_update (hset hchange)
  · exact leaves_pure callee

theorem updateCalleeData_leaves (hdirect : mode.isDirect = false)
    (hshows : caller.Shows mode s.memory.host callee)
    (hset : s.Rewrites callee) :
    Leaves s (updateCalleeData caller callee) callee := by
  obtain ⟨hlen, hdata⟩ := hshows.data hdirect
  unfold updateCalleeData
  refine (leaves_deref _ _).bind (leaves_getContext.bind ?_)
  rw [hlen, hdata]
  split
  · rename_i hresize
    exact leaves_update (hset (BorrowedInstructionAccount.canDataBeResized_ok hresize).2)
  · -- The account may not be written, and the bytes are those it has.
    rw [if_neg (not_not.mpr rfl)]
    exact leaves_pure callee

theorem syncCalleeData_leaves (hshows : caller.Shows mode s.memory.host callee)
    (hset : s.Rewrites callee) :
    Leaves s (syncCalleeData mode checkAligned caller callee) (callee, false) := by
  unfold syncCalleeData
  split
  · refine (leaves_derefU64 rfl).bind ?_
    rw [hshows.length]
    -- The length is the one in the caller's memory, so the account is not resized.
    have hlength : Leaves s
        (updateCalleeLength mode checkAligned caller callee callee.getData.length) callee := by
      unfold updateCalleeLength
      rw [if_neg (not_not.mpr rfl)]
      exact leaves_pure callee
    refine hlength.bind ((updateCalleeBytes_leaves hshows hset).bind ?_)
    rw [bne_self_eq_false]
    exact leaves_pure _
  · rename_i hlegacy
    -- Data is mapped directly with stricter constraints only.
    have hdirect : mode.isDirect = false := by
      rw [MappingMode.isDirect, Bool.not_eq_true _ |>.mp hlegacy, Bool.false_and]
    exact (updateCalleeData_leaves hdirect hshows hset).bind (leaves_pure _)

/-- Copying an account back from a memory that shows it. -/
theorem updateCalleeAccount_leaves (hshows : caller.Shows mode s.memory.host callee)
    (hset : s.Rewrites callee) :
    Leaves s (updateCalleeAccount mode checkAligned caller callee) false := by
  have hlamports : BitVec.ofNat 64 (leNat (s.memory.host.readBytes caller.lamports.toNat 8)) =
      callee.getLamports := by
    rw [hshows.lamports, leNat_leBytes_of_lt callee.getLamports.isLt, BitVec.ofNat_toNat,
      BitVec.setWidth_eq]
  refine (leaves_derefU64 hlamports).bind ?_
  rw [if_neg (not_not.mpr rfl)]
  refine (leaves_pure callee).bind ((syncCalleeData_leaves hshows hset).bind ?_)
  refine (leaves_derefPubkey hshows.owner).bind ?_
  rw [if_neg (not_not.mpr rfl)]
  exact leaves_pure false

end CopyingBack

/-! ## The two accounts that have changed -/

namespace Growing

/-- The accounts of the program, as they are found through the account infos on the heap. -/
def translated (mode : MappingMode) : List TranslatedAccount :=
  [{ indexInCaller := 0
     callerAccount :=
      { lamports := 0x400050
        owner := 0x400030
        originalDataLen := 1
        serializedData := if mode.isDirect then ⟨1, 0⟩ else ⟨0x400060, 1⟩
        vmDataAddr := mmInputStart + 0x60
        refToLenInVm := 0x300058 }
     updateCallerAccountRegion := true
     updateCallerAccountInfo := true },
   { indexInCaller := 1
     callerAccount :=
      { lamports := nextFields mode + 0x57
        owner := nextFields mode + 0x37
        originalDataLen := 2
        serializedData := if mode.isDirect then ⟨1, 0⟩ else ⟨0x4028c8, 2⟩
        vmDataAddr := mmInputStart + 0x28c8
        refToLenInVm := 0x300090 }
     updateCallerAccountRegion := true
     updateCallerAccountInfo := true }]

/-- The caller when the callee has changed the accounts. -/
def returned (mode : MappingMode) : CallerState :=
  { caller mode with
    context.transactionContext.accounts := changed (caller mode).context.transactionContext.accounts }

/-- Host address of the key of an account, which is followed by its other fields. -/
def fieldsAt (mode : MappingMode) (account : TranslatedAccount) : Nat :=
  if account.indexInCaller = 0 then 0x400010 else (nextFields mode).toNat + 0x17

/-- The room for the data in the buffer. -/
def room (mode : MappingMode) (account : TranslatedAccount) : Nat :=
  if mode.isDirect then 0 else account.callerAccount.originalDataLen + maxPermittedDataIncrease

/-- The length in the account info is on the heap; the one in the buffer stands in front of the data. -/
def footprint (mode : MappingMode) (account : TranslatedAccount) : Footprint where
  owner := Set.Ico (fieldsAt mode account + 0x20) (fieldsAt mode account + 0x40)
  lamports := Set.Ico (fieldsAt mode account + 0x40) (fieldsAt mode account + 0x48)
  length := Set.Ico account.callerAccount.refToLenInVm.toNat
    (account.callerAccount.refToLenInVm.toNat + 8)
  data := Set.Ico (fieldsAt mode account + 0x48) (fieldsAt mode account + 0x50 + room mode account)

theorem spans_Ico {addr : U64} {len lo hi : Nat} (hlo : lo ≤ addr.toNat)
    (hhi : addr.toNat + len ≤ hi) (hfits : hi ≤ 2 ^ 64) : Spans (Set.Ico lo hi) addr len :=
  spans_of_fits (hhi.trans hfits) fun i hi => ⟨hlo.trans (Nat.le_add_right _ i), by omega⟩

/-- Where the fields of the accounts are. -/
theorem placed : ∀ mode ∈ modes, ∀ account ∈ translated mode,
    fieldsAt mode account + 0x50 + room mode account ≤ 2 ^ 64 ∧
      account.callerAccount.owner.toNat = fieldsAt mode account + 0x20 ∧
      account.callerAccount.lamports.toNat = fieldsAt mode account + 0x40 ∧
      account.callerAccount.refToLenInVm.toNat + 8 ≤ 2 ^ 64 := by
  decide +kernel

/-- Where the slices of their data are, if there are any. -/
theorem sliced : ∀ mode ∈ modes, ∀ account ∈ translated mode,
    account.callerAccount.serializedData.len = 0 ∨
      account.callerAccount.serializedData.addr.toNat = fieldsAt mode account + 0x50 ∧
        account.callerAccount.serializedData.len ≤ room mode account := by
  decide +kernel

/-- The serialized lengths are in front of the data. -/
theorem serialized_lengths : ∀ mode ∈ modes, ∀ account ∈ translated mode,
    ((regions mode).filterMap fun r => r.vmToHost .store
      (U64.saturatingSub account.callerAccount.vmDataAddr 8) 8).all fun host =>
        host.toNat == fieldsAt mode account + 0x48 := by
  decide +kernel

/-- Without stricter constraints the data is in the one region of the input. -/
theorem legacy_data : ∀ account ∈ translated ⟨false, false⟩, ∀ r ∈ regions ⟨false, false⟩,
    r.HostFits ∧ r.vmGapShift = 63 ∧
      (r.vmAddr.toNat ≤ account.callerAccount.vmDataAddr.toNat →
        account.callerAccount.vmDataAddr.toNat ≤ r.vmAddr.toNat + r.len.toNat →
          r.hostAddr.toNat + (account.callerAccount.vmDataAddr.toNat - r.vmAddr.toNat) =
            fieldsAt ⟨false, false⟩ account + 0x50) := by
  decide +kernel

/-- With stricter constraints it is where the start of the input points to. -/
theorem copied_data : ∀ account ∈ translated ⟨true, false⟩,
    ((0x400000 : U64) + U64.saturatingSub account.callerAccount.vmDataAddr mmInputStart).toNat =
      fieldsAt ⟨true, false⟩ account + 0x50 := by
  decide +kernel

theorem data_within {mode : MappingMode} (hmode : mode ∈ modes) {account : TranslatedAccount}
    (haccount : account ∈ translated mode) {len : Nat}
    (hlen : len ≤ addressSpaceReservedAtExit mode true account.callerAccount.originalDataLen) :
    DataWithin (footprint mode account).data mode true (regions mode) account.callerAccount.vmDataAddr
      account.callerAccount.originalDataLen len := by
  have hfits := (placed mode hmode account haccount).1
  simp only [modes, List.mem_cons, List.not_mem_nil, or_false] at hmode
  rcases hmode with rfl | rfl | rfl
  · -- Without stricter constraints the slice is translated, in whichever region it is.
    have hroom : len ≤ room ⟨false, false⟩ account := hlen
    have hsmall : len < 2 ^ 64 := by omega
    refine ⟨fun _ => hsmall, fun _ {host} hbacked => ?_, fun hstricter => Bool.noConfusion hstricter⟩
    obtain ⟨r, hr, hhost⟩ := hbacked
    obtain ⟨hregion, hgap, hat⟩ := legacy_data account haccount r hr
    obtain ⟨hlo, hhi, hvalue⟩ := MemoryRegion.vmToHost_continuous hregion hgap hhost
    have haddr := hat hlo (by omega)
    exact spans_Ico (by omega) (by omega) hfits
  · -- With copied data it is computed from the start of the input.
    refine ⟨fun hlax => Bool.noConfusion hlax, fun hlax => Bool.noConfusion hlax,
      fun _ _ {start} hstart => ?_⟩
    rw [backed_iff, input_start _ (by decide), List.mem_singleton] at hstart
    have haddr := copied_data account haccount
    rw [hstart]
    exact spans_Ico (by omega) (Nat.add_le_add_right haddr.le _) hfits
  · -- With direct mapping there is none.
    exact ⟨fun hlax => Bool.noConfusion hlax, fun hlax => Bool.noConfusion hlax,
      fun _ hcopied => Bool.noConfusion hcopied⟩

theorem occupies {mode : MappingMode} (hmode : mode ∈ modes) {account : TranslatedAccount}
    (haccount : account ∈ translated mode) :
    account.callerAccount.Occupies mode true (regions mode) (footprint mode account) := by
  obtain ⟨hfits, howner, hlamports, hlength⟩ := placed mode hmode account haccount
  refine ⟨spans_Ico hlamports.ge (by omega) (by omega), spans_Ico howner.ge (by omega) (by omega),
    spans_Ico le_rfl le_rfl hlength, ?_, fun {host} hbacked => ?_, fun len hlen =>
      data_within hmode haccount hlen⟩
  · rcases sliced mode hmode account haccount with hempty | ⟨haddr, hlen⟩
    · rw [hempty]
      exact spans_empty _ _
    · exact spans_Ico (by omega) (by omega) hfits
  · have hat := List.all_eq_true.mp (serialized_lengths mode hmode account haccount) host
      (backed_iff.mp hbacked)
    have haddr := beq_iff_eq.mp hat
    exact spans_Ico (by omega) (by omega) hfits

theorem mem_footprint {mode : MappingMode} {account : TranslatedAccount} {a : Nat}
    (h : a ∈ (footprint mode account).all) :
    (account.callerAccount.refToLenInVm.toNat ≤ a ∧ a < account.callerAccount.refToLenInVm.toNat + 8) ∨
      fieldsAt mode account + 0x20 ≤ a ∧ a < fieldsAt mode account + 0x50 + room mode account := by
  simp only [Footprint.all, footprint, Set.mem_union, Set.mem_Ico] at h
  omega

/-- The heap is below the buffer. -/
theorem fields_apart : ∀ mode ∈ modes, ∀ account ∈ translated mode,
    account.callerAccount.refToLenInVm.toNat + 8 ≤ fieldsAt mode account := by
  decide +kernel

theorem accounts_apart : ∀ mode ∈ modes, (translated mode).Pairwise fun account other =>
    account.callerAccount.refToLenInVm.toNat + 8 ≤ other.callerAccount.refToLenInVm.toNat ∧
      other.callerAccount.refToLenInVm.toNat + 8 ≤ fieldsAt mode account ∧
      fieldsAt mode account + 0x50 + room mode account ≤ fieldsAt mode other + 0x20 := by
  decide +kernel

theorem separated {mode : MappingMode} (hmode : mode ∈ modes) :
    Separated mode true (regions mode) (footprint mode) (translated mode) where
  occupies := fun _ haccount _ => occupies hmode haccount
  fields := fun account haccount _ => by
    have hlength := fields_apart mode hmode account haccount
    constructor
    all_goals
      refine Set.Ico_disjoint_Ico.mpr ?_
      omega
  accounts := (accounts_apart mode hmode).imp fun {account other} hapart => by
    refine Set.disjoint_left.mpr fun a ha hother => ?_
    have hmem := mem_footprint ha.2
    have hmem' := mem_footprint hother.2
    omega

end Growing

/-! ## No lost update -/

/-- Lamports and data of an account of the caller. -/
def Growing.contents (ic : InstructionContext) (index : IndexOfAccount) :
    Option (U64 × List UInt8) :=
  (ic.tryBorrowInstructionAccount index).toOption.map fun callee =>
    (callee.getLamports, callee.getData)

/-- The invocation is entered with the two accounts.  After it the memory of the caller shows both of
them as the callee has left them, and copying them back changes nothing. -/
def Growing.LosesNothing (mode : MappingMode) : Prop :=
  ((caller mode).enterCpi CpiEnvironment.plain request).1.toOption = some (translated mode) ∧
    ∃ ic updated t, (exitAccounts mode true (translated mode)).run.run cpiHandler (returned mode) =
        (.ok (ic, updated), t) ∧
      contents ic 0 = some (4, [3, 4]) ∧ contents ic 1 = some (8, [8, 9]) ∧
      List.Forall₂ (fun account shown => account.updateCallerAccountInfo = true →
        ∃ callee, ic.tryBorrowInstructionAccount account.indexInCaller = .ok callee ∧
          shown.callerAccount.Shows mode t.memory.host callee ∧
          (updateCalleeAccount mode true shown.callerAccount callee).run.run cpiHandler t =
            (.ok false, t)) (translated mode) updated

end ProgramRuntime
end Gobble
