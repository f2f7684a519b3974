import Gobble.Lib.FirstIndex
import Gobble.ProgramRuntime.InstructionInput
import Gobble.ProgramRuntime.InvokeContext
import Mathlib.Data.List.Forall2

/-!
# Prepare — instructions as the runtime prepares them

Two functions prepare an instruction: one from the indices of a message, one from the keys that a
program passes to a cross-program invocation.  Each builds the deduplication map account by account,
with its own comparison against the number of accounts so far.  Both maps are tables of first
positions (`CalleeAccounts.Indexes`), so an instruction that has been entered is well formed.
-/

namespace Gobble
namespace ProgramRuntime

open Lib Sbpf Sdk Context

/-- The map of an instruction with these accounts. -/
def dedupMapOf (indices : List IndexOfAccount) : List Nat :=
  firstIndices maxAccountsPerTransaction noIndex indices

def indicesOf (accounts : List InstructionAccount) : List IndexOfAccount :=
  accounts.map InstructionAccount.indexInTransaction

theorem set_self_of_getElem? {α : Type} {l : List α} {i : Nat} {a : α} (h : l[i]? = some a) :
    l.set i a = l := by
  obtain ⟨hi, rfl⟩ := List.getElem?_eq_some_iff.mp h
  exact List.set_getElem_self hi

/-! ## Building the map -/

namespace CalleeAccounts

/-- The accounts so far are those with the given indices in the transaction, and the map is theirs. -/
structure Indexes (callee : CalleeAccounts) (indices : List IndexOfAccount) : Prop where
  accounts : indicesOf callee.accounts = indices
  calleeMap : callee.calleeMap = dedupMapOf indices
  bounded : ∀ index ∈ indices, index < maxAccountsPerTransaction

variable {callee callee' : CalleeAccounts} {indices : List IndexOfAccount}

theorem empty_indexes : Indexes ⟨emptyCalleeMap, []⟩ [] :=
  ⟨rfl, firstIndices_nil.symm, by simp⟩

theorem Indexes.length (h : callee.Indexes indices) : callee.accounts.length = indices.length := by
  rw [← h.accounts, indicesOf, List.length_map]

theorem Indexes.bounded_concat (h : callee.Indexes indices) {index : IndexOfAccount}
    (hindex : index < maxAccountsPerTransaction) :
    ∀ index' ∈ indices ++ [index], index' < maxAccountsPerTransaction := by
  intro index' hmem
  rcases List.mem_append.mp hmem with hmem | hmem
  · exact h.bounded index' hmem
  · rw [List.mem_singleton.mp hmem]
    exact hindex

/-- A position in the map is one of an account, unless the account is new. -/
theorem Indexes.getElem? (h : callee.Indexes indices) {index : IndexOfAccount}
    (hindex : index < maxAccountsPerTransaction) :
    callee.calleeMap[index]? =
      some (if index ∈ indices then indices.idxOf index else noIndex) := by
  rw [h.calleeMap]
  exact getElem?_firstIndices hindex

theorem addTopLevel_indexes (isSigner isWritable : Nat → Bool) (h : callee.Indexes indices)
    (hlen : indices.length < noIndex) (index : UInt8) :
    (callee.addTopLevel isSigner isWritable index).Indexes (indices ++ [index.toNat]) := by
  have hlt : index.toNat < maxAccountsPerTransaction := index.toNat_lt
  refine ⟨by simp [addTopLevel, indicesOf, ← h.accounts], ?_, h.bounded_concat hlt⟩
  unfold addTopLevel
  dsimp only
  rw [List.getD_eq_getElem?_getD, h.getElem? hlt, Option.getD_some, h.length]
  by_cases hmem : index.toNat ∈ indices
  · have hle := (List.idxOf_lt_length_iff.mpr hmem).le
    rw [if_pos hmem, if_neg (Nat.not_lt.mpr hle), h.calleeMap]
    exact (firstIndices_concat_of_mem hmem).symm
  · -- The entry still has its initial value, which is larger than any position.
    have hmod : indices.length % 2 ^ 16 = indices.length :=
      Nat.mod_eq_of_lt (Nat.lt_trans hlen (by decide))
    rw [if_neg hmem, if_pos hlen, hmod, h.calleeMap]
    exact (firstIndices_concat_of_not_mem hmem).symm

theorem foldl_addTopLevel_indexes (isSigner isWritable : Nat → Bool) (accounts : List UInt8)
    (h : callee.Indexes indices) (hlen : indices.length + accounts.length ≤ noIndex) :
    (accounts.foldl (addTopLevel isSigner isWritable) callee).Indexes
      (indices ++ accounts.map UInt8.toNat) := by
  induction accounts generalizing callee indices with
  | nil =>
      rw [List.map_nil, List.append_nil]
      exact h
  | cons index rest ih =>
      rw [List.length_cons] at hlen
      have hstep := addTopLevel_indexes isSigner isWritable h (by omega) index
      rw [List.foldl_cons, List.map_cons, List.append_cons]
      refine ih hstep ?_
      rw [List.length_append, List.length_singleton]
      omega

/-- One account of a cross-program invocation: whichever way the flags go, the indices get one more
element. -/
theorem addMeta_indexes {tx : TransactionContext} {accountMeta : AccountMeta}
    (h : callee.Indexes indices) (hlen : indices.length < noIndex)
    (hok : callee.addMeta tx accountMeta = .ok callee') :
    ∃ index, tx.findIndexOfAccount accountMeta.pubkey = some index ∧
      callee'.Indexes (indices ++ [index]) := by
  obtain ⟨index, hfound, hok⟩ := bind_eq_ok hok
  obtain ⟨position, hposition, hok⟩ := bind_eq_ok hok
  rw [Outcome.okOr_eq_ok] at hfound
  rw [Outcome.unwrap_eq_ok] at hposition
  refine ⟨index, hfound, ?_⟩
  have hindex : index < maxAccountsPerTransaction := by
    have hlt := (List.getElem?_eq_some_iff.mp hposition).1
    rwa [h.calleeMap, dedupMapOf, length_firstIndices] at hlt
  rw [h.getElem? hindex, Option.some.injEq] at hposition
  by_cases hmem : index ∈ indices
  · rw [if_pos hmem] at hposition
    have hlt := List.idxOf_lt_length_iff.mpr hmem
    rw [← h.length, hposition] at hlt
    have hfirst := List.getElem?_eq_getElem hlt
    have hsame : indices[position]? = some index := by
      have hget := List.getElem?_eq_getElem (List.idxOf_lt_length_iff.mpr hmem)
      rwa [List.getElem_idxOf, hposition] at hget
    have hindices : (callee.accounts[position]).indexInTransaction = index := by
      rw [← h.accounts, indicesOf, List.getElem?_map, hfirst] at hsame
      exact Option.some.inj hsame
    rw [hfirst] at hok
    cases hok
    refine ⟨?_, h.calleeMap.trans (firstIndices_concat_of_mem hmem).symm, h.bounded_concat hindex⟩
    have hset : indices.set position index = indices := set_self_of_getElem? hsame
    simp only [indicesOf, List.map_append, List.map_set, List.map_singleton, addFlags, hindices]
    rw [← indicesOf, h.accounts, hset]
  · rw [if_neg hmem] at hposition
    have hnone : callee.accounts[position]? = none := by
      apply List.getElem?_eq_none
      rw [h.length]
      omega
    have hmod : indices.length % 2 ^ 16 = indices.length :=
      Nat.mod_eq_of_lt (Nat.lt_trans hlen (by decide))
    rw [hnone] at hok
    cases hok
    refine ⟨by simp [indicesOf, ← h.accounts], ?_, h.bounded_concat hindex⟩
    rw [h.length, hmod, h.calleeMap]
    exact (firstIndices_concat_of_not_mem hmem).symm

theorem foldlM_addMeta_indexes {tx : TransactionContext} {metas : List AccountMeta}
    (h : callee.Indexes indices) (hlen : indices.length + metas.length ≤ noIndex)
    (hok : metas.foldlM (addMeta tx) callee = .ok callee') :
    ∃ new, List.Forall₂ (fun m index => tx.findIndexOfAccount m.pubkey = some index) metas new ∧
      callee'.Indexes (indices ++ new) := by
  induction metas generalizing callee indices with
  | nil =>
      cases hok
      exact ⟨[], .nil, by rwa [List.append_nil]⟩
  | cons m rest ih =>
      rw [List.length_cons] at hlen
      rw [List.foldlM_cons] at hok
      obtain ⟨next, hnext, hok⟩ := bind_eq_ok hok
      obtain ⟨index, hfound, hindexes⟩ := addMeta_indexes h (by omega) hnext
      obtain ⟨new, hnew, hfinal⟩ := ih hindexes (by
        rw [List.length_append, List.length_singleton]
        omega) hok
      exact ⟨index :: new, .cons hfound hnew, by rwa [List.append_cons]⟩

end CalleeAccounts

/-! ## Privileges -/

section Privileges

variable {caller : InstructionContext} {instruction : Instruction} {signers : List Pubkey}
  {calleeMap : List Nat}

/-- The second loop changes flags only, and looks up every account in the instruction of the caller
when it comes to the first position of the account. -/
theorem checkPrivileges_ok {accounts accounts' : List InstructionAccount} {currentIndex : Nat}
    (h : checkPrivileges caller instruction signers calleeMap accounts currentIndex =
      .ok accounts') :
    indicesOf accounts' = indicesOf accounts ∧
      ∃ index, (indicesOf accounts)[currentIndex]? = some index ∧
        (calleeMap[index]? = some currentIndex →
          ∃ indexInCaller, caller.getIndexOfAccountInInstruction index = .ok indexInCaller) := by
  obtain ⟨account, haccount, h⟩ := bind_eq_ok h
  obtain ⟨indexInCallee, hcallee, h⟩ := bind_eq_ok h
  rw [Outcome.unwrap_eq_ok] at haccount hcallee
  have hindex : (indicesOf accounts)[currentIndex]? = some account.indexInTransaction := by
    rw [indicesOf, List.getElem?_map, haccount]
    rfl
  split at h
  · rename_i hne
    obtain ⟨reference, -, h⟩ := bind_eq_ok h
    cases h
    refine ⟨?_, _, hindex, fun hfirst => ?_⟩
    · rw [indicesOf, List.map_set]
      exact set_self_of_getElem? hindex
    · rw [hcallee] at hfirst
      exact (hne (Option.some.inj hfirst).symm).elim
  · obtain ⟨indexInCaller, hcaller, h⟩ := bind_eq_ok h
    rw [Outcome.lift_eq_ok] at hcaller
    obtain ⟨accountMeta, -, h⟩ := bind_eq_ok h
    obtain ⟨callerAccount, -, h⟩ := bind_eq_ok h
    split at h
    · cases h
    · split at h
      · cases h
      · cases h
        exact ⟨rfl, _, hindex, fun _ => ⟨indexInCaller, hcaller⟩⟩

theorem foldlM_checkPrivileges_ok {positions : List Nat}
    {accounts accounts' : List InstructionAccount}
    (h : positions.foldlM (checkPrivileges caller instruction signers calleeMap) accounts =
      .ok accounts') :
    indicesOf accounts' = indicesOf accounts ∧
      ∀ position ∈ positions, ∃ index, (indicesOf accounts)[position]? = some index ∧
        (calleeMap[index]? = some position →
          ∃ indexInCaller, caller.getIndexOfAccountInInstruction index = .ok indexInCaller) := by
  induction positions generalizing accounts with
  | nil =>
      cases h
      exact ⟨rfl, by simp⟩
  | cons position rest ih =>
      rw [List.foldlM_cons] at h
      obtain ⟨next, hnext, h⟩ := bind_eq_ok h
      obtain ⟨hsame, hhead⟩ := checkPrivileges_ok hnext
      obtain ⟨hfinal, htail⟩ := ih h
      rw [hsame] at hfinal htail
      refine ⟨hfinal, ?_⟩
      intro position' hposition
      rcases List.mem_cons.mp hposition with rfl | hposition
      · exact hhead
      · exact htail position' hposition

end Privileges

/-! ## The prepared instruction -/

/-- `c'` is `c` with an instruction configured in it. -/
structure Prepared (c c' : InvokeContext) (programIndex : IndexOfAccount)
    (accounts : List InstructionAccount) (data : List UInt8) : Prop where
  configured : ∃ callerIndex, c.transactionContext.configureNextInstruction programIndex accounts
    (dedupMapOf (indicesOf accounts)) data callerIndex = .ok c'.transactionContext
  rest : c' = { c with transactionContext := c'.transactionContext }

section Prepared

variable {c c' : InvokeContext}

theorem prepareNextTopLevelInstruction_prepared {isSigner isWritable : Nat → Bool}
    {instruction : CompiledInstruction} {programIndex : IndexOfAccount}
    (hlen : instruction.accounts.length ≤ noIndex)
    (h : c.prepareNextTopLevelInstruction isSigner isWritable instruction programIndex = .ok c') :
    ∃ accounts, indicesOf accounts = instruction.accounts.map UInt8.toNat ∧
      Prepared c c' programIndex accounts instruction.data := by
  have hindexes := CalleeAccounts.foldl_addTopLevel_indexes isSigner isWritable
    instruction.accounts CalleeAccounts.empty_indexes (by simpa using hlen)
  obtain ⟨tx, hconfigured, h⟩ := bind_eq_ok h
  cases h
  refine ⟨_, hindexes.accounts, ⟨none, ?_⟩, rfl⟩
  rwa [hindexes.accounts, ← hindexes.calleeMap]

/-- A cross-program invocation that has been prepared: its accounts and its program are accounts of
the transaction, and of the caller's instruction. -/
theorem prepareNextInstruction_prepared {instruction : Instruction} {signers : List Pubkey}
    (hlen : instruction.accounts.length ≤ noIndex)
    (h : c.prepareNextInstruction instruction signers = .ok c') :
    ∃ caller programIndex accounts,
      c.transactionContext.getCurrentInstructionContext = .ok caller ∧
      c.transactionContext.findIndexOfAccount instruction.programId = some programIndex ∧
      List.Forall₂ (fun m index => c.transactionContext.findIndexOfAccount m.pubkey = some index)
        instruction.accounts (indicesOf accounts) ∧
      (∀ index ∈ indicesOf accounts, ∃ indexInCaller,
        caller.getIndexOfAccountInInstruction index = .ok indexInCaller) ∧
      Prepared c c' programIndex accounts instruction.data := by
  obtain ⟨caller, hcaller, h⟩ := bind_eq_ok h
  obtain ⟨callee, hcallee, h⟩ := bind_eq_ok h
  obtain ⟨accounts, haccounts, h⟩ := bind_eq_ok h
  obtain ⟨programIndex, hprogram, h⟩ := bind_eq_ok h
  rw [Outcome.lift_eq_ok] at hcaller
  rw [Outcome.okOr_eq_ok] at hprogram
  obtain ⟨indices, hfound, hindexes⟩ := CalleeAccounts.foldlM_addMeta_indexes
    CalleeAccounts.empty_indexes (by simpa using hlen) hcallee
  rw [List.nil_append] at hindexes
  obtain ⟨hsame, hlookup⟩ := foldlM_checkPrivileges_ok haccounts
  rw [hindexes.accounts] at hsame hlookup
  split at h
  · cases h
  · obtain ⟨callerIndex, -, h⟩ := bind_eq_ok h
    obtain ⟨tx, hconfigured, h⟩ := bind_eq_ok h
    rw [Outcome.lift_eq_ok] at hconfigured
    cases h
    refine ⟨caller, programIndex, accounts, hcaller, hprogram, hsame.symm ▸ hfound, ?_,
      ⟨some (callerIndex % 2 ^ 16), ?_⟩, rfl⟩
    · intro index hindex
      rw [hsame] at hindex
      -- The loop has been at the first position of the account.
      have hlt := List.idxOf_lt_length_iff.mpr hindex
      obtain ⟨index', hget, hcaller⟩ := hlookup (indices.idxOf index) (by
        rw [List.mem_range, hindexes.length]
        exact hlt)
      have hself : index' = index := by
        rw [List.getElem?_eq_getElem hlt, List.getElem_idxOf] at hget
        exact (Option.some.inj hget).symm
      subst hself
      apply hcaller
      rw [hindexes.getElem? (hindexes.bounded _ hindex), if_pos hindex]
    · rwa [hsame, ← hindexes.calleeMap]

/-- The prepared instruction once it has been entered. -/
theorem Prepared.entered {programIndex : IndexOfAccount} {accounts : List InstructionAccount}
    {data : List UInt8} {entered : InvokeContext} (h : Prepared c c' programIndex accounts data)
    (hsynced : c.transactionContext.Synced) (hpush : c'.push = (.ok (), entered)) :
    entered.transactionContext.Synced ∧
      entered.transactionContext.accounts.accountKeys =
        c.transactionContext.accounts.accountKeys ∧
      ∃ nestingLevel, entered.transactionContext.getCurrentInstructionContext = .ok
        { transactionContext := entered.transactionContext
          indexInTrace := c.transactionContext.getInstructionTraceLength
          nestingLevel
          programAccountIndexInTx := programIndex
          instructionAccounts := accounts
          dedupMap := dedupMapOf (indicesOf accounts)
          instructionData := data } := by
  obtain ⟨callerIndex, hconfigured⟩ := h.configured
  rcases c'.push_cases with ⟨err, heq⟩ | heq
  · rw [heq] at hpush
    cases hpush
  · rw [heq, Prod.mk.injEq] at hpush
    obtain ⟨hresult, rfl⟩ := hpush
    exact TransactionContext.configured_pushed hsynced hconfigured hresult

/-- The program of an instruction that has been entered is an account of the transaction. -/
theorem Prepared.program_lt {programIndex : IndexOfAccount} {accounts : List InstructionAccount}
    {data : List UInt8} (h : Prepared c c' programIndex accounts data)
    (hpush : c'.push.1 = .ok ()) : programIndex < c.transactionContext.accounts.len := by
  obtain ⟨callerIndex, hconfigured⟩ := h.configured
  obtain ⟨frame, hframe, hlt⟩ := InvokeContext.push_ok_program hpush
  obtain ⟨last, -, htx⟩ := TransactionContext.configureNextInstruction_ok hconfigured
  rw [htx] at hframe hlt
  rw [List.getLast?_concat, Option.some.injEq] at hframe
  rw [← hframe] at hlt
  exact hlt

/-- The prepared instruction before it is entered. -/
theorem Prepared.next {programIndex : IndexOfAccount} {accounts : List InstructionAccount}
    {data : List UInt8} (h : Prepared c c' programIndex accounts data)
    (hsynced : c.transactionContext.Synced) :
    ∃ nestingLevel, c'.transactionContext.getNextInstructionContext = .ok
      { transactionContext := c'.transactionContext
        indexInTrace := c.transactionContext.getInstructionTraceLength
        nestingLevel
        programAccountIndexInTx := programIndex
        instructionAccounts := accounts
        dedupMap := dedupMapOf (indicesOf accounts)
        instructionData := data } := by
  obtain ⟨callerIndex, hconfigured⟩ := h.configured
  exact TransactionContext.configured_next hsynced hconfigured

/-- The map of the accounts gives their first positions. -/
theorem givesFirstPositions_of_dedupMapOf {ic : InstructionContext}
    (hmap : ic.dedupMap = dedupMapOf (indicesOf ic.instructionAccounts))
    (hindices : ∀ index ∈ indicesOf ic.instructionAccounts, index < maxAccountsPerTransaction) :
    ic.GivesFirstPositions := by
  intro a ha
  have hmem : a.indexInTransaction ∈ indicesOf ic.instructionAccounts := List.mem_map_of_mem ha
  rw [hmap, dedupMapOf, getElem?_firstIndices_of_mem (hindices _ hmem) hmem]
  -- The first position among the indices is the first position among the accounts.
  rw [InstructionContext.firstPosition, indicesOf, List.idxOf, List.findIdx_map]
  rfl

/-- An instruction with the map of its accounts is well formed. -/
theorem wellFormed_of_dedupMapOf {ic : InstructionContext}
    (hcount : ic.instructionAccounts.length ≤ maxAccountsPerInstruction)
    (hlen : ic.transactionContext.accounts.len ≤ maxAccountsPerTransaction)
    (hmap : ic.dedupMap = dedupMapOf (indicesOf ic.instructionAccounts))
    (hindices : ∀ index ∈ indicesOf ic.instructionAccounts,
      index < ic.transactionContext.accounts.len)
    (hprogram : ic.programAccountIndexInTx < ic.transactionContext.accounts.len) :
    ic.WellFormed where
  count := hcount
  index_lt := fun a ha => hindices _ (List.mem_map_of_mem ha)
  dedup := givesFirstPositions_of_dedupMapOf hmap fun index hindex =>
    Nat.lt_of_lt_of_le (hindices index hindex) hlen
  program_lt := hprogram
  program_ne := by
    have hbound := Nat.lt_of_lt_of_le hprogram hlen
    exact Nat.ne_of_lt (Nat.lt_trans hbound (by decide))

end Prepared

end ProgramRuntime
end Gobble
