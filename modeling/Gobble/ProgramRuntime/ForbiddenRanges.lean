import Gobble.ProgramRuntime.InstructionInput
import Gobble.Sbpf.VmMemory

/-!
# ForbiddenRanges — the VM addresses that are watched

Model of the part of `execute` in `program-runtime/src/vm.rs` that turns forbidden byte offsets of
the instructions sysvar into VM addresses, and the comparison with the input that the program gets:
an address is watched if and only if it shows a forbidden byte.
-/

namespace Gobble
namespace Context

/-- Is this account the instructions sysvar. -/
def InstructionContext.isSysvar (ic : InstructionContext) (a : InstructionAccount) : Bool :=
  ic.transactionContext.accounts.accountKey a.indexInTransaction == some Sdk.instructionsSysvarId

end Context

namespace ProgramRuntime

open Lib Sbpf Sdk Context

/-! ## The computation -/

/-- The loop over the instruction accounts: the address of the data of the first account that is the
instructions sysvar. -/
def findSysvarDataAddr (ic : InstructionContext)
    (accountsMetadata : List SerializedAccountMetadata) : List IndexOfAccount → Option U64
  | [] => none
  | i :: rest =>
      match ic.getIndexOfInstructionAccountInTransaction i with
      | .error _ => findSysvarDataAddr ic accountsMetadata rest
      | .ok txIdx =>
          match ic.transactionContext.getKeyOfAccountAtIndex txIdx with
          | .error _ => findSysvarDataAddr ic accountsMetadata rest
          | .ok key =>
              if key == instructionsSysvarId then
                accountsMetadata[i]?.map SerializedAccountMetadata.vmDataAddr
              else
                findSysvarDataAddr ic accountsMetadata rest

def sysvarVmDataAddr (ic : InstructionContext)
    (accountsMetadata : List SerializedAccountMetadata) : Option U64 :=
  findSysvarDataAddr ic accountsMetadata (List.range ic.getNumberOfInstructionAccounts)

def forbiddenVmRanges (ic : InstructionContext)
    (accountsMetadata : List SerializedAccountMetadata)
    (forbiddenSysvarDataRanges : List AddrRange) : Outcome InstructionError (List AddrRange) :=
  if !forbiddenSysvarDataRanges.isEmpty then
    match sysvarVmDataAddr ic accountsMetadata with
    | some baseAddr => forbiddenSysvarDataRanges.mapM (shiftRange baseAddr)
    | none => .ok []
  else
    .ok []

/-- The tracker of a new VM, after the ranges have been added to it. -/
def watchRanges (tracker : MemoryAccessTracker) (vmRanges : List AddrRange) : MemoryAccessTracker :=
  if !vmRanges.isEmpty then tracker.addWatchedRanges vmRanges else tracker

/-! ## The tracker -/

/-- A fresh tracker watches what the ranges cover. -/
theorem watchRanges_contains (vmRanges : List AddrRange) (v : Nat) :
    (∃ r ∈ (watchRanges .new vmRanges).watchedRanges, r.Contains v) ↔
      ∃ r ∈ vmRanges, r.Contains v := by
  have hwatched : (watchRanges .new vmRanges).watchedRanges =
      vmRanges.filter fun r => !r.isEmpty := by
    unfold watchRanges
    cases vmRanges with
    | nil => rfl
    | cons r rest => exact MemoryAccessTracker.addWatchedRanges_watched _ _
  rw [hwatched]
  constructor
  · rintro ⟨r, hr, hv⟩
    exact ⟨r, (List.mem_filter.mp hr).1, hv⟩
  · rintro ⟨r, hr, hv⟩
    refine ⟨r, List.mem_filter.mpr ⟨hr, ?_⟩, hv⟩
    have hnonempty : r.isEmpty = false := by
      rw [AddrRange.isEmpty_eq_false_iff]
      unfold AddrRange.Contains at hv
      omega
    simp [hnonempty]

/-! ## Finding the sysvar -/

section Find

variable {ic : InstructionContext} {metas : List SerializedAccountMetadata}

/-- One account of the loop. -/
theorem findSysvarDataAddr_cons (h : ic.WellFormed) {i : Nat} {a : InstructionAccount}
    (ha : ic.instructionAccounts[i]? = some a) (rest : List IndexOfAccount) :
    ∃ key account, ic.transactionContext.accounts.accounts[a.indexInTransaction]? =
        some (key, account) ∧
      findSysvarDataAddr ic metas (i :: rest) =
        if key == instructionsSysvarId then metas[i]?.map SerializedAccountMetadata.vmDataAddr
        else findSysvarDataAddr ic metas rest := by
  obtain ⟨borrowed, -, -, hget⟩ := h.tryBorrowInstructionAccount_eq ha
  refine ⟨borrowed.key, borrowed.account, hget, ?_⟩
  have hkey : ic.transactionContext.getKeyOfAccountAtIndex a.indexInTransaction =
      .ok borrowed.key := by
    simp only [TransactionContext.getKeyOfAccountAtIndex, TransactionAccounts.accountKey, hget]
    rfl
  simp only [findSysvarDataAddr, InstructionContext.getIndexOfInstructionAccountInTransaction, ha,
    hkey]

theorem key_injective (hkeys : ic.transactionContext.accounts.accountKeys.Nodup) {i j : Nat}
    {key : Pubkey} {account account' : AccountSharedData}
    (hi : ic.transactionContext.accounts.accounts[i]? = some (key, account))
    (hj : ic.transactionContext.accounts.accounts[j]? = some (key, account')) : i = j := by
  have hi' : ic.transactionContext.accounts.accountKeys[i]? = some key := by
    simp [TransactionAccounts.accountKeys, hi]
  have hj' : ic.transactionContext.accounts.accountKeys[j]? = some key := by
    simp [TransactionAccounts.accountKeys, hj]
  obtain ⟨hlt, -⟩ := List.getElem?_eq_some_iff.mp hi'
  exact (List.getElem?_inj hlt hkeys).mp (hi'.trans hj'.symm)

/-- The loop takes the metadata at the first position of the sysvar. -/
theorem sysvarVmDataAddr_eq_find (h : ic.WellFormed) :
    sysvarVmDataAddr ic metas = (ic.instructionAccounts.findIdx? (ic.isSysvar)).bind
      fun i => metas[i]?.map SerializedAccountMetadata.vmDataAddr := by
  have hloop : ∀ m k, k + m = ic.instructionAccounts.length →
      findSysvarDataAddr ic metas (List.range' k m) =
        ((ic.instructionAccounts.drop k).findIdx? (ic.isSysvar)).bind
          fun i => metas[k + i]?.map SerializedAccountMetadata.vmDataAddr := by
    intro m
    induction m with
    | zero =>
        intro k hlen
        rw [List.drop_eq_nil_of_le (by omega)]
        rfl
    | succ m ih =>
        intro k hlen
        have hk : k < ic.instructionAccounts.length := by omega
        obtain ⟨key, account, haccount, heq⟩ := findSysvarDataAddr_cons h
          (List.getElem?_eq_getElem hk) (List.range' (k + 1) m)
        have hkey : ic.isSysvar ic.instructionAccounts[k] =
            (key == instructionsSysvarId) := by
          simp [InstructionContext.isSysvar, TransactionAccounts.accountKey, haccount]
        rw [List.range'_succ, heq, List.drop_eq_getElem_cons hk, List.findIdx?_cons, hkey,
          ih (k + 1) (by omega)]
        cases key == instructionsSysvarId with
        | true => simp
        | false =>
            simp only [Bool.false_eq_true, if_false, Option.bind_map]
            congr 1
            funext i
            rw [Function.comp_apply, Nat.add_right_comm, Nat.add_assoc]
  rw [sysvarVmDataAddr, h.getNumberOfInstructionAccounts_eq, List.range_eq_range',
    hloop _ 0 (Nat.zero_add _), List.drop_zero]
  simp

/-- If no two accounts of the transaction have one key, this is the first position of the account. -/
theorem sysvarVmDataAddr_eq (h : ic.WellFormed)
    (hkeys : ic.transactionContext.accounts.accountKeys.Nodup) {i : Nat} {a : InstructionAccount}
    (ha : ic.instructionAccounts[i]? = some a) {account : AccountSharedData}
    (hsysvar : ic.transactionContext.accounts.accounts[a.indexInTransaction]? =
      some (instructionsSysvarId, account)) :
    sysvarVmDataAddr ic metas =
      metas[ic.firstPosition a.indexInTransaction]?.map SerializedAccountMetadata.vmDataAddr := by
  have hsame : ∀ b ∈ ic.instructionAccounts, ic.isSysvar b =
      (b.indexInTransaction == a.indexInTransaction) := by
    intro b hb
    obtain ⟨j, hj⟩ := List.getElem?_of_mem hb
    obtain ⟨borrowed, -, -, hget⟩ := h.tryBorrowInstructionAccount_eq hj
    rw [Bool.eq_iff_iff, InstructionContext.isSysvar, beq_iff_eq, beq_iff_eq,
      TransactionAccounts.accountKey]
    constructor
    · intro hkey
      rw [hget, Option.map_some, Option.some.injEq] at hkey
      rw [show borrowed.key = instructionsSysvarId from hkey] at hget
      exact key_injective hkeys hget hsysvar
    · intro hindex
      rw [hindex, hsysvar]
      rfl
  have hfind : ic.instructionAccounts.findIdx? (ic.isSysvar) =
      some (ic.firstPosition a.indexInTransaction) := by
    obtain ⟨b, hb, hbindex⟩ := InstructionContext.firstPosition_spec ha
    obtain ⟨hlt, hget⟩ := List.getElem?_eq_some_iff.mp hb
    rw [List.findIdx?_eq_some_iff_findIdx_eq, List.findIdx_eq hlt]
    refine ⟨hlt, ?_, fun j hj => ?_⟩
    · rw [hget, hsame b (List.mem_of_getElem? hb), hbindex, beq_self_eq_true]
    · rw [hsame _ (List.getElem_mem _)]
      exact List.not_of_lt_findIdx hj
  rw [sysvarVmDataAddr_eq_find h, hfind]
  rfl

/-- The loop returns an address of the metadata, and only if the sysvar is there. -/
theorem findSysvarDataAddr_eq_some {indices : List IndexOfAccount} {base : U64}
    (h : findSysvarDataAddr ic metas indices = some base) :
    (∃ m ∈ metas, m.vmDataAddr = base) ∧
      ∃ a ∈ ic.instructionAccounts,
        ic.transactionContext.accounts.accountKey a.indexInTransaction =
          some instructionsSysvarId := by
  induction indices with
  | nil => cases h
  | cons i rest ih =>
      unfold findSysvarDataAddr at h
      split at h
      · exact ih h
      · rename_i index hindex
        split at h
        · exact ih h
        · rename_i key hkey
          split at h
          · rename_i hsysvar
            obtain ⟨m, hm, haddr⟩ := Option.map_eq_some_iff.mp h
            refine ⟨⟨m, List.mem_of_getElem? hm, haddr⟩, ?_⟩
            unfold InstructionContext.getIndexOfInstructionAccountInTransaction at hindex
            split at hindex
            · cases hindex
            · rename_i a ha
              cases hindex
              refine ⟨a, List.mem_of_getElem? ha, ?_⟩
              unfold TransactionContext.getKeyOfAccountAtIndex at hkey
              split at hkey
              · rename_i key' hkey'
                cases hkey
                rw [hkey', eq_of_beq hsysvar]
              · cases hkey
          · exact ih h

theorem sysvarVmDataAddr_eq_none
    (habsent : ∀ a ∈ ic.instructionAccounts,
      ic.transactionContext.accounts.accountKey a.indexInTransaction ≠ some instructionsSysvarId) :
    sysvarVmDataAddr ic metas = none := by
  rw [Option.eq_none_iff_forall_ne_some]
  intro base hbase
  obtain ⟨-, a, ha, hkey⟩ := findSysvarDataAddr_eq_some hbase
  exact habsent a ha hkey

end Find

/-! ## What is watched -/

def SerializedParameters.MapsTo (params : SerializedParameters) (v h : Nat) : Prop :=
  ∃ r ∈ params.regions, r.MapsTo v h

/-- The host memory has the buffer and the data of the accounts where the host keeps them. -/
structure HostStorage.Stores (host : HostStorage) (mem : ByteMemory) (buffer : AlignedMemory)
    (accounts : TransactionAccounts) : Prop where
  buffer : mem.readBytes host.bufferAddr.toNat buffer.len = buffer.bytes
  data : ∀ (i : Nat) entry, accounts.accounts[i]? = some entry →
    mem.readBytes (host.dataAddr i).toNat entry.2.data.length = entry.2.data

/-- The sysvar `account`, at `index` in the transaction, is shown at `base` from the host bytes at
`start`, and watched there. -/
structure SysvarWatched (host : HostStorage) (ic : InstructionContext)
    (params : SerializedParameters) (index : IndexOfAccount) (account : AccountSharedData)
    (base : U64) (start : Nat) : Prop where
  /-- `execute` picks this address. -/
  base_eq : sysvarVmDataAddr ic params.accountsMetadata = some base
  /-- Address `base + k` shows byte `k` of the data. -/
  shown : ∀ k, k < account.data.length → params.MapsTo (base.toNat + k) (start + k)
  data : ∀ mem, host.Stores mem params.buffer ic.transactionContext.accounts →
    mem.readBytes start account.data.length = account.data
  /-- No other address shows a byte of the data, be it of this copy or of the account's own
  memory. -/
  only : ∀ v h, params.MapsTo v h →
    ((∃ k, k < account.data.length ∧ h = start + k) ∨ h ∈ host.dataBytes index account) →
      ∃ k, k < account.data.length ∧ v = base.toNat + k ∧ h = start + k
  /-- Ranges of offsets are turned into ranges of addresses. -/
  registered : ∀ ranges : List AddrRange,
    (∀ r ∈ ranges, r.start.toNat ≤ r.stop.toNat ∧ r.stop.toNat ≤ account.data.length) →
      ∃ vmRanges, forbiddenVmRanges ic params.accountsMetadata ranges = .ok vmRanges
  /-- An address is watched if and only if it shows a forbidden byte. -/
  watched : ∀ ranges vmRanges : List AddrRange,
    (∀ r ∈ ranges, r.stop.toNat ≤ account.data.length) →
    forbiddenVmRanges ic params.accountsMetadata ranges = .ok vmRanges →
      ∀ v, (∃ r ∈ (watchRanges .new vmRanges).watchedRanges, r.Contains v) ↔
        ∃ r ∈ ranges, ∃ k, r.Contains k ∧ params.MapsTo v (start + k)

theorem forbiddenVmRanges_eq {ic : InstructionContext} {metas : List SerializedAccountMetadata}
    {base : U64} (hbase : sysvarVmDataAddr ic metas = some base) (ranges : List AddrRange) :
    forbiddenVmRanges ic metas ranges = ranges.mapM (shiftRange base) := by
  cases ranges with
  | nil => rfl
  | cons r rest => simp [forbiddenVmRanges, hbase]

theorem forbiddenVmRanges_eq_nil {ic : InstructionContext}
    {metas : List SerializedAccountMetadata} (hnone : sysvarVmDataAddr ic metas = none)
    (ranges : List AddrRange) : forbiddenVmRanges ic metas ranges = .ok [] := by
  cases ranges with
  | nil => rfl
  | cons r rest => simp [forbiddenVmRanges, hnone]

theorem readBytes_of_holds {mem : ByteMemory} {addr pos : Nat} {m : AlignedMemory}
    {bytes : List UInt8} (hmem : mem.readBytes addr m.len = m.bytes) (hholds : m.Holds pos bytes) :
    mem.readBytes (addr + pos) bytes.length = bytes := by
  refine List.ext_getElem? fun k => ?_
  by_cases hk : k < bytes.length
  · rw [← hholds.getElem? hk, ← hmem]
    rcases hholds with ⟨front, rest, hm, rfl⟩
    have hlen : front.length + k < m.len := by
      simp only [AlignedMemory.len, hm, List.length_append]
      omega
    simp [ByteMemory.readBytes, hk, hlen, Nat.add_assoc]
  · have hge : bytes.length ≤ k := Nat.le_of_not_lt hk
    rw [List.getElem?_eq_none (by simpa using hge), List.getElem?_eq_none hge]

section Watched

variable {ic : InstructionContext} {host : HostStorage} {mode : MappingMode}
  {params : SerializedParameters} {im : InputImage}

/-- A host byte is seen at one address of the input. -/
theorem SerializedParameters.Shows.mapsTo_injective (h : params.Shows host mode im) {v v' a : Nat}
    (hv : params.MapsTo v a) (hv' : params.MapsTo v' a) : v = v' := by
  rcases hv with ⟨r, hr, hmaps⟩
  rcases hv' with ⟨r', hr', hmaps'⟩
  have hsame := MemoryRegion.eq_of_mem_hostBytes h.apart hr hr' hmaps.mem_hostBytes
    hmaps'.mem_hostBytes
  subst hsame
  exact hmaps.injective hmaps'

/-- The account that an instruction lists is described at the first position it has. -/
theorem InputOk.described_first (h : ic.WellFormed)
    (hok : InputOk (isLoaderDeprecated ic) mode (entriesOf ic) ic.instructionData
      params.accountsMetadata params.instructionDataOffset im) {i : Nat} {a : InstructionAccount}
    (ha : ic.instructionAccounts[i]? = some a) :
    ∃ metadata borrowed,
      params.accountsMetadata[ic.firstPosition a.indexInTransaction]? = some metadata ∧
      Describes im borrowed metadata ∧ borrowed.getIndexInTransaction = a.indexInTransaction ∧
      ic.transactionContext.accounts.accounts[a.indexInTransaction]? =
        some (borrowed.key, borrowed.account) := by
  obtain ⟨b, hb, hindex⟩ := InstructionContext.firstPosition_spec ha
  obtain ⟨hlt, -⟩ := List.getElem?_eq_some_iff.mp hb
  obtain ⟨b', borrowed, hb', hborrow, hinstr, hcase⟩ := entryAt_cases h hlt
  rw [hb] at hb'
  cases hb'
  obtain ⟨borrowed', hborrow', -, hget⟩ := h.tryBorrowInstructionAccount_eq hb
  rw [hborrow] at hborrow'
  cases hborrow'
  rw [hindex] at hcase hget
  rcases hcase with ⟨-, hentry⟩ | ⟨hbefore, -⟩
  · obtain ⟨metadata, hmetadata, hdescribes⟩ := hok.metadata.accounts _ _ _
      ((entriesOf_getElem? hlt).trans (congrArg some hentry))
    refine ⟨metadata, borrowed, hmetadata, hdescribes, ?_, hget⟩
    rw [BorrowedInstructionAccount.getIndexInTransaction, hinstr, hindex]
  · exact absurd hbefore (Nat.lt_irrefl _)

/-- The metadata at any position describes the account at that position. -/
theorem InputOk.described_at (h : ic.WellFormed)
    (hok : InputOk (isLoaderDeprecated ic) mode (entriesOf ic) ic.instructionData
      params.accountsMetadata params.instructionDataOffset im) {i : Nat} {a : InstructionAccount}
    (ha : ic.instructionAccounts[i]? = some a) :
    ∃ metadata borrowed, params.accountsMetadata[i]? = some metadata ∧
      Describes im borrowed metadata ∧
      ic.transactionContext.accounts.accounts[a.indexInTransaction]? =
        some (borrowed.key, borrowed.account) := by
  obtain ⟨hi, -⟩ := List.getElem?_eq_some_iff.mp ha
  obtain ⟨metadata, borrowed, hmetadata, hdescribes, -, hget⟩ := hok.described_first h ha
  refine ⟨metadata, borrowed, ?_, hdescribes, hget⟩
  obtain ⟨a', borrowed', ha', -, -, hcase⟩ := entryAt_cases h hi
  rw [ha] at ha'
  cases ha'
  rcases hcase with ⟨hfirst, -⟩ | ⟨-, hentry⟩
  · rwa [hfirst] at hmetadata
  · -- A duplicate has the metadata of the first position of the account.
    obtain ⟨metadata', hmetadata', hposition⟩ := hok.metadata.duplicates i _
      ((entriesOf_getElem? hi).trans (congrArg some hentry))
    rw [List.nil_append, hmetadata] at hposition
    cases hposition
    exact hmetadata'

section Placed

variable {index : IndexOfAccount} {key : Pubkey} {account : AccountSharedData} {start : Nat}

/-- The host has the data of an account where the input shows it. -/
theorem readBytes_of_placed
    (hget : ic.transactionContext.accounts.accounts[index]? = some (key, account))
    (hplaced : if mode.isDirect then start = (host.dataAddr index).toNat
      else ∃ pos, start = host.bufferAddr.toNat + pos ∧ params.buffer.Holds pos account.data)
    {mem : ByteMemory} (hmem : host.Stores mem params.buffer ic.transactionContext.accounts) :
    mem.readBytes start account.data.length = account.data := by
  cases hdirect : mode.isDirect with
  | true =>
      rw [hdirect, if_pos rfl] at hplaced
      rw [hplaced]
      exact hmem.data _ _ hget
  | false =>
      rw [hdirect, if_neg Bool.false_ne_true] at hplaced
      rcases hplaced with ⟨pos, rfl, hholds⟩
      exact readBytes_of_holds hmem.buffer hholds

/-- A byte of the account's own memory is shown only as a byte of its place in the input. -/
theorem own_byte_of_placed
    (hkeeps : host.Keeps (inputSize ic mode) mode.isDirect ic.transactionContext.accounts)
    (hused : im.used = inputSize ic mode) (hshows : params.Shows host mode im)
    (hget : ic.transactionContext.accounts.accounts[index]? = some (key, account))
    (hplaced : if mode.isDirect then start = (host.dataAddr index).toNat
      else ∃ pos, start = host.bufferAddr.toNat + pos ∧ params.buffer.Holds pos account.data)
    {v x : Nat} (hmaps : params.MapsTo v x) (hown : x ∈ host.dataBytes index account) :
    ∃ k, k < account.data.length ∧ x = start + k := by
  cases hdirect : mode.isDirect with
  | true =>
      rw [hdirect, if_pos rfl] at hplaced
      rcases hown with ⟨hlo, hhi⟩
      exact ⟨x - start, by omega, by omega⟩
  | false =>
      -- Without direct mapping only buffer bytes are shown.
      rcases hmaps with ⟨r, hr, hmap⟩
      rcases hshows.identity hdirect r hr v x hmap with ⟨j, hj, -, rfl⟩
      rw [hshows.buffer_len, hused] at hj
      have hbuffer : host.bufferAddr.toNat + j ∈ host.bufferBytes 0 (inputSize ic mode) :=
        ⟨by omega, Nat.add_lt_add_left hj _⟩
      exact absurd hown (Set.disjoint_left.mp (hkeeps.buffer_apart _ _ hget) hbuffer)

end Placed

/-- If the input shows `len` bytes at `base`, the shifted ranges are watched where the input shows
the bytes of the ranges. -/
theorem SerializedParameters.Shows.watched_iff (hshows : params.Shows host mode im) {base : U64}
    {start len : Nat} (hshown : ∀ k, k < len → params.MapsTo (base.toNat + k) (start + k))
    {ranges vmRanges : List AddrRange} (hranges : ∀ r ∈ ranges, r.stop.toNat ≤ len)
    (hvm : (ranges.mapM (shiftRange base) : Outcome InstructionError _) = .ok vmRanges) (v : Nat) :
    (∃ r ∈ (watchRanges .new vmRanges).watchedRanges, r.Contains v) ↔
      ∃ r ∈ ranges, ∃ k, r.Contains k ∧ params.MapsTo v (start + k) := by
  have hlt : ∀ r ∈ ranges, ∀ k, r.Contains k → k < len := by
    intro r hr k hk
    exact Nat.lt_of_lt_of_le hk.2 (hranges r hr)
  rw [watchRanges_contains, movedBy_contains (mapM_shiftRange_exact hvm)]
  constructor
  · rintro ⟨r, hr, k, hk, rfl⟩
    exact ⟨r, hr, k, hk, hshown k (hlt r hr k hk)⟩
  · rintro ⟨r, hr, k, hk, hmaps⟩
    exact ⟨r, hr, k, hk, hshows.mapsTo_injective hmaps (hshown k (hlt r hr k hk))⟩

theorem sysvarWatched_of_shows (h : ic.WellFormed)
    (hkeys : ic.transactionContext.accounts.accountKeys.Nodup)
    (hkeeps : host.Keeps (inputSize ic mode) mode.isDirect ic.transactionContext.accounts)
    (hok : InputOk (isLoaderDeprecated ic) mode (entriesOf ic) ic.instructionData
      params.accountsMetadata params.instructionDataOffset im)
    (hcursor : im.cursor ≤ u64Max) (hshows : params.Shows host mode im) {i : Nat}
    {a : InstructionAccount} (ha : ic.instructionAccounts[i]? = some a)
    {account : AccountSharedData}
    (hsysvar : ic.transactionContext.accounts.accounts[a.indexInTransaction]? =
      some (instructionsSysvarId, account)) :
    ∃ base start, SysvarWatched host ic params a.indexInTransaction account base start := by
  -- The metadata of the sysvar, and where its data is.
  obtain ⟨metadata, borrowed, hmetadata, hdescribes, hindex, hget⟩ := hok.described_first h ha
  have haccount : borrowed.getData = account.data := by
    rw [hsysvar, Option.some.injEq, Prod.mk.injEq] at hget
    rw [BorrowedInstructionAccount.getData, ← hget.2]
  obtain ⟨c, hc, haddr⟩ := hdescribes.data
  obtain ⟨start, hwindow, hplaced⟩ := hshows.placed _ hc
  have hend := hok.below _ hc
  simp only [haccount, hindex] at hwindow hend hplaced
  have hbase : metadata.vmDataAddr.toNat = c := by
    rw [haddr, U64.toNat_ofNat (by omega)]
  have hbaseEq : sysvarVmDataAddr ic params.accountsMetadata = some metadata.vmDataAddr := by
    rw [sysvarVmDataAddr_eq h hkeys ha hsysvar, hmetadata]
    rfl
  have hshown : ∀ k, k < account.data.length →
      params.MapsTo (metadata.vmDataAddr.toNat + k) (start + k) := by
    intro k hk
    rw [hbase]
    exact hwindow k hk
  refine ⟨metadata.vmDataAddr, start, hbaseEq, hshown, ?_, ?_, ?_, ?_⟩
  · intro mem hmem
    exact readBytes_of_placed hsysvar hplaced hmem
  · intro v x hmaps hx
    have hshownByte : ∃ k, k < account.data.length ∧ x = start + k := by
      rcases hx with hx | hown
      · exact hx
      · exact own_byte_of_placed hkeeps hok.used hshows hsysvar hplaced hmaps hown
    obtain ⟨k, hk, rfl⟩ := hshownByte
    exact ⟨k, hk, hshows.mapsTo_injective hmaps (hshown k hk), rfl⟩
  · intro ranges hranges
    rw [forbiddenVmRanges_eq hbaseEq]
    refine mapM_shiftRange_ok fun r hr => ?_
    have := hranges r hr
    omega
  · intro ranges vmRanges hranges hvm v
    rw [forbiddenVmRanges_eq hbaseEq] at hvm
    exact hshows.watched_iff hshown hranges hvm v

/-- The input of an instruction ends in the lower half of the address space. -/
theorem InputOk.cursor_le (h : ic.WellFormed)
    (hlen : inputLen (entriesOf ic) ic.instructionData ≤ 2 ^ 62)
    (hok : InputOk (isLoaderDeprecated ic) mode (entriesOf ic) ic.instructionData
      params.accountsMetadata params.instructionDataOffset im) : im.cursor ≤ 2 ^ 63 := by
  have hcount := h.count
  have hsize := parametersSize_le (isLoaderDeprecated ic) MappingMode.contiguous (entriesOf ic)
    ic.instructionData
  have hlength : (entriesOf ic).length = ic.instructionAccounts.length := by simp [entriesOf]
  have hstart : mmInputStart.toNat = 0x400000000 := rfl
  have hcursor := hok.cursor
  unfold maxAccountsPerInstruction at hcount
  omega

/-- So the address of the sysvar leaves room for offsets. -/
theorem sysvarVmDataAddr_le (h : ic.WellFormed)
    (hlen : inputLen (entriesOf ic) ic.instructionData ≤ 2 ^ 62)
    (hkeeps : host.Keeps (inputSize ic mode) mode.isDirect ic.transactionContext.accounts)
    (hrun : serializeParameters host ic mode = .ok params) {base : U64}
    (hbase : sysvarVmDataAddr ic params.accountsMetadata = some base) : base.toNat ≤ 2 ^ 63 := by
  obtain ⟨params', im, hrun', -, hok, -⟩ := serializeParameters_spec h hlen hkeeps
  rw [hrun] at hrun'
  cases hrun'
  obtain ⟨⟨metadata, hmetadata, rfl⟩, -⟩ := findSysvarDataAddr_eq_some hbase
  obtain ⟨account, hdescribes⟩ := hok.metadata.described (entriesOf_ok h) hmetadata
  obtain ⟨c, hc, haddr⟩ := hdescribes.data
  have hbelow := hok.below _ hc
  have hcursor := InputOk.cursor_le h hlen hok
  rw [haddr, BitVec.toNat_ofNat]
  exact Nat.le_trans (Nat.mod_le _ _) (by omega)

/-- **The runtime watches the forbidden bytes and nothing else.**  The input of an instruction that
lists the instructions sysvar shows the sysvar's data at one place, and the watched addresses are
those that show a forbidden byte; without the sysvar nothing is watched. -/
theorem execute_watches_forbidden_bytes (ic : InstructionContext) (h : ic.WellFormed)
    (hkeys : ic.transactionContext.accounts.accountKeys.Nodup)
    (hlen : inputLen (entriesOf ic) ic.instructionData ≤ 2 ^ 62) (mode : MappingMode)
    (host : HostStorage)
    (hkeeps : host.Keeps (inputSize ic mode) mode.isDirect ic.transactionContext.accounts) :
    ∃ params, serializeParameters host ic mode = .ok params ∧
      (params.regions.Pairwise fun r r' =>
        r.vmAddr.toNat < r'.vmAddr.toNat ∧ r.vmAddr.toNat + r.len.toNat ≤ r'.vmAddr.toNat) ∧
      params.regions.head?.map MemoryRegion.vmAddr = some mmInputStart ∧
      (∀ a ∈ ic.instructionAccounts, ∀ account,
        ic.transactionContext.accounts.accounts[a.indexInTransaction]? =
            some (instructionsSysvarId, account) →
          ∃ base start, SysvarWatched host ic params a.indexInTransaction account base start) ∧
      ((∀ a ∈ ic.instructionAccounts,
          ic.transactionContext.accounts.accountKey a.indexInTransaction ≠
            some instructionsSysvarId) →
        ∀ ranges, forbiddenVmRanges ic params.accountsMetadata ranges = .ok []) := by
  rcases serializeParameters_spec h hlen hkeeps with ⟨params, im, hrun, -, hok, hshows⟩
  refine ⟨params, hrun, hshows.sorted, hshows.first, ?_, ?_⟩
  · intro a ha account hsysvar
    obtain ⟨i, hi⟩ := List.getElem?_of_mem ha
    have hcursor := InputOk.cursor_le h hlen hok
    refine sysvarWatched_of_shows h hkeys hkeeps hok ?_ hshows hi hsysvar
    unfold u64Max
    omega
  · intro habsent ranges
    exact forbiddenVmRanges_eq_nil (sysvarVmDataAddr_eq_none habsent) ranges

/-- The sample instruction lists the sysvar, and with direct mapping its eight bytes are watched in
the account's own memory. -/
theorem execute_watches_forbidden_bytes_sample :
    ∃ params account base start,
      serializeParameters sampleHost sampleInstruction ⟨true, true⟩ = .ok params ∧
      sampleInstruction.transactionContext.accounts.accounts[1]? =
        some (instructionsSysvarId, account) ∧
      account.data.length = 8 ∧
      SysvarWatched sampleHost sampleInstruction params 1 account base start := by
  rcases execute_watches_forbidden_bytes sampleInstruction sampleInstruction_wellFormed
    (by decide +kernel) (by decide +kernel) ⟨true, true⟩ sampleHost (sampleHost_keeps _) with
    ⟨params, hrun, -, -, hsysvar, -⟩
  rcases hsysvar ⟨1, false, false⟩ (List.mem_cons_self ..) _ rfl with ⟨base, start, hwatched⟩
  exact ⟨params, _, base, start, hrun, rfl, rfl, hwatched⟩

end Watched

end ProgramRuntime
end Gobble
