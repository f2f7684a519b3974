import Gobble.Lib.OwnerTable
import Gobble.ProgramRuntime.AccountSafety

/-!
# Privileges — a program cannot give away more than it has

An instruction that is invoked may name an account several times, with different flags.
`prepare_next_instruction` merges them in two loops: the first one collects the flags of an account at
its first position, the second one copies them to the other positions, and compares the first position
with the instruction of the caller.  So all positions of an account have the flags that any of them asks
for, and the caller has them too, or has signed for the account with its own seeds.

It follows by induction over the execution that no account is writable in any instruction that is not
writable in the top-level instruction.
-/

namespace Gobble
namespace ProgramRuntime

open Lib Sbpf Sdk Context

/-! ## Merging flags -/

/-- The account with the flags that any of the references to it asks for. -/
def mergedFlags (refs : List InstructionAccount) (index : IndexOfAccount) : InstructionAccount :=
  ⟨index, refs.any fun r => r.indexInTransaction == index && r.isSigner,
    refs.any fun r => r.indexInTransaction == index && r.isWritable⟩

/-- No flag is set that is not set in `merged`. -/
structure FlagsWithin (account merged : InstructionAccount) : Prop where
  signer : account.isSigner = true → merged.isSigner = true
  writable : account.isWritable = true → merged.isWritable = true

section Merging

variable {refs : List InstructionAccount} {index : IndexOfAccount}

theorem indicesOf_concat (refs : List InstructionAccount) (r : InstructionAccount) :
    indicesOf (refs ++ [r]) = indicesOf refs ++ [r.indexInTransaction] := by
  simp [indicesOf]

theorem mergedFlags_concat_self (refs : List InstructionAccount) (r : InstructionAccount) :
    mergedFlags (refs ++ [r]) r.indexInTransaction =
      addFlags (mergedFlags refs r.indexInTransaction) r.isSigner r.isWritable := by
  simp [mergedFlags, addFlags]

theorem mergedFlags_concat_of_ne {r : InstructionAccount} (h : r.indexInTransaction ≠ index) :
    mergedFlags (refs ++ [r]) index = mergedFlags refs index := by
  simp [mergedFlags, h]

theorem mergedFlags_of_not_mem (h : index ∉ indicesOf refs) :
    mergedFlags refs index = ⟨index, false, false⟩ := by
  have hnone : ∀ r ∈ refs, (r.indexInTransaction == index) = false := by
    intro r hr
    refine beq_eq_false_iff_ne.mpr fun heq => h ?_
    rw [← heq]
    exact List.mem_map_of_mem hr
  simp only [mergedFlags, InstructionAccount.mk.injEq, List.any_eq_false, true_and]
  constructor
  · intro r hr
    simp [hnone r hr]
  · intro r hr
    simp [hnone r hr]

theorem FlagsWithin.concat {account r : InstructionAccount}
    (h : FlagsWithin account (mergedFlags refs account.indexInTransaction)) :
    FlagsWithin account (mergedFlags (refs ++ [r]) account.indexInTransaction) := by
  constructor
  · intro hsigner
    have hold := h.signer hsigner
    simp only [mergedFlags, List.any_append, Bool.or_eq_true] at hold ⊢
    exact .inl hold
  · intro hwritable
    have hold := h.writable hwritable
    simp only [mergedFlags, List.any_append, Bool.or_eq_true] at hold ⊢
    exact .inl hold

/-- With the merged flags added, an account has just those. -/
theorem FlagsWithin.addFlags_eq {account : InstructionAccount}
    (h : FlagsWithin account (mergedFlags refs account.indexInTransaction)) :
    addFlags account (mergedFlags refs account.indexInTransaction).isSigner
        (mergedFlags refs account.indexInTransaction).isWritable =
      mergedFlags refs account.indexInTransaction := by
  generalize hmerged : mergedFlags refs account.indexInTransaction = merged at h
  have hindex : merged.indexInTransaction = account.indexInTransaction := by
    rw [← hmerged]
    rfl
  obtain ⟨index, isSigner, isWritable⟩ := account
  obtain ⟨index', isSigner', isWritable'⟩ := merged
  obtain ⟨hsigner, hwritable⟩ := h
  dsimp only at hindex hsigner hwritable
  simp only [addFlags, InstructionAccount.mk.injEq]
  refine ⟨hindex.symm, ?_, ?_⟩
  · cases isSigner with
    | false => rfl
    | true => exact (hsigner rfl).symm
  · cases isWritable with
    | false => rfl
    | true => exact (hwritable rfl).symm

/-- The accounts of the callee while references are merged: each first position has all the flags that
have been asked for, and no other position has more. -/
structure CalleeAccounts.Merges (callee : CalleeAccounts) (refs : List InstructionAccount) :
    Prop where
  indexes : callee.Indexes (indicesOf refs)
  within : ∀ {j : Nat} {account}, callee.accounts[j]? = some account →
    FlagsWithin account (mergedFlags refs account.indexInTransaction)
  first : ∀ index ∈ indicesOf refs,
    callee.accounts[(indicesOf refs).idxOf index]? = some (mergedFlags refs index)

namespace CalleeAccounts

variable {callee callee' : CalleeAccounts}

theorem empty_merges : Merges ⟨emptyCalleeMap, []⟩ [] :=
  ⟨empty_indexes, fun h => (by cases h), fun _ h => (by cases h)⟩

/-- The flags of a merged account, in its own terms. -/
theorem flagsWithin_refl (account : InstructionAccount) : FlagsWithin account account :=
  ⟨id, id⟩

/-- A reference to an account that has been seen: the merged flags stand at both positions. -/
theorem Merges.repeated {r : InstructionAccount} (h : callee.Merges refs)
    (hmem : r.indexInTransaction ∈ indicesOf refs) (hindexes : callee'.Indexes (indicesOf (refs ++ [r])))
    (haccounts : callee'.accounts =
      callee.accounts.set ((indicesOf refs).idxOf r.indexInTransaction)
        (mergedFlags (refs ++ [r]) r.indexInTransaction) ++
        [mergedFlags (refs ++ [r]) r.indexInTransaction]) : callee'.Merges (refs ++ [r]) := by
  -- First positions are positions of the accounts that are there already.
  have hbound : ∀ index ∈ indicesOf refs, (indicesOf refs).idxOf index < callee.accounts.length := by
    intro index hindex
    rw [h.indexes.length]
    exact List.idxOf_lt_length_iff.mpr hindex
  refine ⟨hindexes, ?_, ?_⟩
  · intro j account hj
    rw [haccounts, List.getElem?_append] at hj
    split at hj
    · -- The position that was overwritten has the merged flags, the others have what they had.
      rw [List.getElem?_set] at hj
      split at hj
      · rw [if_pos (hbound _ hmem)] at hj
        cases hj
        exact flagsWithin_refl _
      · exact (h.within hj).concat
    · rw [List.getElem?_singleton] at hj
      split at hj
      · cases hj
        exact flagsWithin_refl _
      · cases hj
  · intro index hindex
    rw [indicesOf_concat] at hindex ⊢
    have hold : index ∈ indicesOf refs := by
      rcases List.mem_append.mp hindex with hold | hnew
      · exact hold
      · rw [List.mem_singleton.mp hnew]
        exact hmem
    rw [List.idxOf_append_of_mem hold, haccounts,
      List.getElem?_append_left (by rw [List.length_set]; exact hbound index hold)]
    -- Different accounts have different first positions.
    by_cases hsame : index = r.indexInTransaction
    · rw [hsame, List.getElem?_set_self (hbound _ hmem)]
    · have hother : (indicesOf refs).idxOf r.indexInTransaction ≠ (indicesOf refs).idxOf index :=
        fun heq => hsame ((List.idxOf_inj hmem).mp heq).symm
      rw [List.getElem?_set_ne hother, mergedFlags_concat_of_ne (Ne.symm hsame)]
      exact h.first index hold

/-- A reference to an account that has not been seen. -/
theorem Merges.new {r : InstructionAccount} (h : callee.Merges refs)
    (hmem : r.indexInTransaction ∉ indicesOf refs) (hindexes : callee'.Indexes (indicesOf (refs ++ [r])))
    (haccounts : callee'.accounts = callee.accounts ++ [r]) : callee'.Merges (refs ++ [r]) := by
  have hmerged : mergedFlags (refs ++ [r]) r.indexInTransaction = r := by
    rw [mergedFlags_concat_self, mergedFlags_of_not_mem hmem]
    simp [addFlags]
  refine ⟨hindexes, ?_, ?_⟩
  · intro j account hj
    rw [haccounts, List.getElem?_append] at hj
    split at hj
    · exact (h.within hj).concat
    · rw [List.getElem?_singleton] at hj
      split at hj
      · cases hj
        rw [hmerged]
        exact flagsWithin_refl _
      · cases hj
  · intro index hindex
    rw [indicesOf_concat] at hindex ⊢
    by_cases hold : index ∈ indicesOf refs
    · have hbound : (indicesOf refs).idxOf index < callee.accounts.length := by
        rw [h.indexes.length]
        exact List.idxOf_lt_length_iff.mpr hold
      have hother : r.indexInTransaction ≠ index := by
        rintro rfl
        exact hmem hold
      rw [List.idxOf_append_of_mem hold, haccounts, List.getElem?_append_left hbound,
        mergedFlags_concat_of_ne hother]
      exact h.first index hold
    · obtain rfl : index = r.indexInTransaction := by
        rcases List.mem_append.mp hindex with hmem' | hmem'
        · exact absurd hmem' hold
        · exact List.mem_singleton.mp hmem'
      rw [List.idxOf_append_of_notMem hold, List.idxOf_cons_self, Nat.add_zero, haccounts,
        ← h.indexes.length, List.getElem?_concat_length, hmerged]

theorem addMeta_merges {tx : TransactionContext} {m : AccountMeta} (h : callee.Merges refs)
    (hlen : refs.length < noIndex) (hok : callee.addMeta tx m = .ok callee') :
    ∃ index, tx.findIndexOfAccount m.pubkey = some index ∧
      callee'.Merges (refs ++ [⟨index, m.isSigner, m.isWritable⟩]) := by
  have hcount : (indicesOf refs).length = refs.length := by simp [indicesOf]
  obtain ⟨index, hfound, hindexes⟩ := addMeta_indexes h.indexes (hcount ▸ hlen) hok
  refine ⟨index, hfound, ?_⟩
  obtain ⟨index', hfound', hok⟩ := bind_eq_ok hok
  obtain ⟨position, hposition, hok⟩ := bind_eq_ok hok
  rw [Outcome.okOr_eq_ok, hfound, Option.some.injEq] at hfound'
  subst hfound'
  rw [Outcome.unwrap_eq_ok, h.indexes.getElem? (hindexes.bounded index (by simp)),
    Option.some.injEq] at hposition
  have hindexes' : callee'.Indexes (indicesOf (refs ++ [⟨index, m.isSigner, m.isWritable⟩])) := by
    rw [indicesOf_concat]
    exact hindexes
  -- The map of the callee tells whether the account has been seen.
  by_cases hmem : index ∈ indicesOf refs
  · rw [if_pos hmem] at hposition
    rw [← hposition, h.first index hmem] at hok
    refine h.repeated hmem hindexes' ?_
    rw [mergedFlags_concat_self]
    cases hok
    rfl
  · rw [if_neg hmem] at hposition
    have hnone : callee.accounts[position]? = none := by
      apply List.getElem?_eq_none
      rw [h.indexes.length, hcount]
      omega
    rw [hnone] at hok
    refine h.new hmem hindexes' ?_
    cases hok
    rfl

/-- Any position may be given the merged flags. -/
theorem Merges.set {calleeMap : List Nat} {accounts : List InstructionAccount} {k : Nat}
    {account : InstructionAccount} (h : Merges ⟨calleeMap, accounts⟩ refs)
    (haccount : accounts[k]? = some account) :
    Merges ⟨calleeMap, accounts.set k (mergedFlags refs account.indexInTransaction)⟩ refs := by
  have hset : (accounts.set k (mergedFlags refs account.indexInTransaction))[k]? =
      some (mergedFlags refs account.indexInTransaction) :=
    List.getElem?_set_self (List.getElem?_eq_some_iff.mp haccount).1
  have hindices : (indicesOf accounts)[k]? = some account.indexInTransaction := by
    rw [indicesOf, List.getElem?_map, haccount]
    rfl
  refine ⟨⟨?_, h.indexes.calleeMap, h.indexes.bounded⟩, ?_, ?_⟩
  · rw [indicesOf, List.map_set]
    exact (set_self_of_getElem? hindices).trans h.indexes.accounts
  · intro j account' hj
    by_cases hjk : k = j
    · subst hjk
      rw [hset] at hj
      cases hj
      exact flagsWithin_refl _
    · rw [List.getElem?_set_ne hjk] at hj
      exact h.within hj
  · intro index hindex
    by_cases hjk : k = (indicesOf refs).idxOf index
    · have hsame : account.indexInTransaction = index := by
        have hget := List.getElem?_eq_getElem (List.idxOf_lt_length_iff.mpr hindex)
        rw [List.getElem_idxOf, ← hjk, ← h.indexes.accounts, hindices] at hget
        exact Option.some.inj hget
      rw [← hjk, ← hsame]
      exact hset
    · rw [List.getElem?_set_ne hjk]
      exact h.first index hindex

/-- A reference as the instruction makes it. -/
def Refers (tx : TransactionContext) (m : AccountMeta) (r : InstructionAccount) : Prop :=
  tx.findIndexOfAccount m.pubkey = some r.indexInTransaction ∧ r.isSigner = m.isSigner ∧
    r.isWritable = m.isWritable

/-- The first loop. -/
theorem foldlM_addMeta_merges {tx : TransactionContext} {metas : List AccountMeta}
    (h : callee.Merges refs) (hlen : refs.length + metas.length ≤ noIndex)
    (hok : metas.foldlM (addMeta tx) callee = .ok callee') :
    ∃ new, List.Forall₂ (Refers tx) metas new ∧ callee'.Merges (refs ++ new) := by
  induction metas generalizing callee refs with
  | nil =>
      cases hok
      exact ⟨[], .nil, by rwa [List.append_nil]⟩
  | cons m rest ih =>
      rw [List.length_cons] at hlen
      rw [List.foldlM_cons] at hok
      obtain ⟨next, hnext, hok⟩ := bind_eq_ok hok
      obtain ⟨index, hfound, hmerges⟩ := addMeta_merges h (by omega) hnext
      obtain ⟨new, hnew, hfinal⟩ := ih hmerges (by
        rw [List.length_append, List.length_singleton]
        omega) hok
      exact ⟨_ :: new, .cons ⟨hfound, rfl, rfl⟩ hnew, by rwa [List.append_cons]⟩

end CalleeAccounts

end Merging

/-! ## Comparing with the caller -/

/-- The caller has the account, with the flags that are asked for, or signs for it. -/
structure Grants (caller : InstructionContext) (pubkey : Pubkey) (signers : List Pubkey)
    (account : InstructionAccount) : Prop where
  intro ::
  granted : ∃ callerAccount ∈ caller.instructionAccounts,
    callerAccount.indexInTransaction = account.indexInTransaction ∧
    (account.isWritable = true → callerAccount.isWritable = true) ∧
    (account.isSigner = true → callerAccount.isSigner = true ∨ pubkey ∈ signers)

section Comparing

variable {caller : InstructionContext} {instruction : Instruction} {signers : List Pubkey}
  {calleeMap : List Nat} {accounts accounts' : List InstructionAccount}
  {refs : List InstructionAccount}

/-- The position that the map of the caller has for an account is one of the account. -/
theorem getIndexOfAccountInInstruction_ok
    (hmap : caller.dedupMap = dedupMapOf (indicesOf caller.instructionAccounts))
    (hlen : caller.instructionAccounts.length ≤ noIndex) {index position : IndexOfAccount}
    (h : caller.getIndexOfAccountInInstruction index = .ok position) {account : InstructionAccount}
    (haccount : caller.instructionAccounts[position]? = some account) :
    account.indexInTransaction = index := by
  have hmem := mem_indicesOf_of_getIndexOfAccountInInstruction hmap hlen h
  unfold InstructionContext.getIndexOfAccountInInstruction at h
  split at h
  · cases h
  · rename_i entry hentry
    split at h
    · cases h
    · cases h
      have hindex : index < maxAccountsPerTransaction := by
        have hbound := (List.getElem?_eq_some_iff.mp hentry).1
        rwa [hmap, dedupMapOf, length_firstIndices] at hbound
      rw [hmap, dedupMapOf, getElem?_firstIndices hindex, if_pos hmem, Option.some.injEq] at hentry
      have hget : (indicesOf caller.instructionAccounts)[position]? = some index := by
        rw [← hentry, List.getElem?_eq_getElem (List.idxOf_lt_length_iff.mpr hmem), List.getElem_idxOf]
      rw [indicesOf, List.getElem?_map, haccount] at hget
      exact Option.some.inj hget

/-- One position of the second loop: it has the merged flags afterwards, and the first position of an
account is compared with the caller. -/
theorem checkPrivileges_merges
    (hmap : caller.dedupMap = dedupMapOf (indicesOf caller.instructionAccounts))
    (hlen : caller.instructionAccounts.length ≤ noIndex)
    (h : CalleeAccounts.Merges ⟨calleeMap, accounts⟩ refs) {k : Nat}
    (hok : checkPrivileges caller instruction signers calleeMap accounts k = .ok accounts') :
    CalleeAccounts.Merges ⟨calleeMap, accounts'⟩ refs ∧ ∃ index, (indicesOf refs)[k]? = some index ∧
      accounts'[k]? = some (mergedFlags refs index) ∧ (∀ j, j ≠ k → accounts'[j]? = accounts[j]?) ∧
      ((indicesOf refs).idxOf index = k → ∃ m, instruction.accounts[k]? = some m ∧
        Grants caller m.pubkey signers (mergedFlags refs index)) := by
  obtain ⟨account, haccount, hok⟩ := bind_eq_ok hok
  obtain ⟨position, hposition, hok⟩ := bind_eq_ok hok
  rw [Outcome.unwrap_eq_ok] at haccount hposition
  have hindex : (indicesOf refs)[k]? = some account.indexInTransaction := by
    rw [← h.indexes.accounts, indicesOf, List.getElem?_map, haccount]
    rfl
  have hmem : account.indexInTransaction ∈ indicesOf refs := List.mem_of_getElem? hindex
  have hfirst := h.first _ hmem
  -- The map has the first position of the account.
  have hself : (indicesOf refs).idxOf account.indexInTransaction = position := by
    have hentry := h.indexes.getElem? (h.indexes.bounded _ hmem)
    rw [if_pos hmem, hposition] at hentry
    exact (Option.some.inj hentry).symm
  rw [hself] at hfirst
  split at hok
  · -- A later position: the flags of the first one are added.
    rename_i hne
    obtain ⟨reference, hreference, hok⟩ := bind_eq_ok hok
    rw [Outcome.okOr_eq_ok, hfirst, Option.some.injEq] at hreference
    subst hreference
    rw [(h.within haccount).addFlags_eq] at hok
    cases hok
    refine ⟨h.set haccount, _, hindex, ?_, fun j hj => List.getElem?_set_ne (Ne.symm hj), ?_⟩
    · exact List.getElem?_set_self (List.getElem?_eq_some_iff.mp haccount).1
    · intro hk
      rw [hself] at hk
      exact absurd hk.symm hne
  · -- The first position: its flags are merged already, and the caller is asked for them.
    rename_i hk
    rw [not_not] at hk
    subst hk
    obtain ⟨indexInCaller, hcaller, hok⟩ := bind_eq_ok hok
    obtain ⟨m, hm, hok⟩ := bind_eq_ok hok
    obtain ⟨callerAccount, hcallerAccount, hok⟩ := bind_eq_ok hok
    rw [Outcome.lift_eq_ok] at hcaller
    rw [Outcome.unwrap_eq_ok] at hm hcallerAccount
    rw [hfirst, Option.some.injEq] at haccount
    split at hok
    · cases hok
    · rename_i hwritable
      split at hok
      · cases hok
      · rename_i hsigner
        cases hok
        refine ⟨h, _, hindex, hfirst, fun _ _ => rfl, fun _ => ⟨m, hm, callerAccount,
          List.mem_of_getElem? hcallerAccount,
          getIndexOfAccountInInstruction_ok hmap hlen hcaller hcallerAccount, ?_, ?_⟩⟩
        · intro hmerged
          rw [haccount] at hmerged
          simpa [hmerged] using hwritable
        · intro hmerged
          rw [haccount] at hmerged
          simp only [hmerged, Bool.true_and, Bool.not_eq_true', Bool.not_eq_false] at hsigner
          rw [Bool.or_eq_true, List.contains_iff_mem] at hsigner
          exact hsigner

/-- The second loop. -/
theorem foldlM_checkPrivileges_merges
    (hmap : caller.dedupMap = dedupMapOf (indicesOf caller.instructionAccounts))
    (hlen : caller.instructionAccounts.length ≤ noIndex) {positions : List Nat}
    (h : CalleeAccounts.Merges ⟨calleeMap, accounts⟩ refs)
    (hok : positions.foldlM (checkPrivileges caller instruction signers calleeMap) accounts =
      .ok accounts') :
    ∀ k index, (indicesOf refs)[k]? = some index →
      (accounts[k]? = some (mergedFlags refs index) ∨ k ∈ positions →
        accounts'[k]? = some (mergedFlags refs index)) ∧
      (k ∈ positions → (indicesOf refs).idxOf index = k → ∃ m, instruction.accounts[k]? = some m ∧
        Grants caller m.pubkey signers (mergedFlags refs index)) := by
  induction positions generalizing accounts with
  | nil =>
      cases hok
      intro k index _
      refine ⟨fun hk => ?_, fun hk => by cases hk⟩
      rcases hk with hk | hk
      · exact hk
      · cases hk
  | cons position rest ih =>
      rw [List.foldlM_cons] at hok
      obtain ⟨next, hnext, hok⟩ := bind_eq_ok hok
      obtain ⟨hmerges, index', hindex', hset, hother, hgrants⟩ :=
        checkPrivileges_merges hmap hlen h hnext
      intro k index hindex
      obtain ⟨hflags, hrest⟩ := ih hmerges hok k index hindex
      -- A position is visited once; before and after that it is left alone.
      by_cases hk : k = position
      · subst hk
        obtain rfl : index' = index := Option.some.inj (hindex'.symm.trans hindex)
        exact ⟨fun _ => hflags (.inl hset), fun _ => hgrants⟩
      · have hmem : k ∈ position :: rest → k ∈ rest := fun hmem =>
          (List.mem_cons.mp hmem).resolve_left hk
        refine ⟨fun hbefore => hflags ?_, fun hpositions => hrest (hmem hpositions)⟩
        rcases hbefore with hbefore | hpositions
        · exact .inl ((hother k hk).trans hbefore)
        · exact .inr (hmem hpositions)

end Comparing

/-! ## The prepared instruction -/

section Prepared

variable {reach : List IndexOfAccount} {c c' : InvokeContext} {instruction : Instruction}
  {signers : List Pubkey}

/-- What the two loops together make of the references of an instruction. -/
theorem prepareNextInstruction_merges (hc : c.transactionContext.RunsWithin reach)
    (hlen : instruction.accounts.length ≤ noIndex)
    (h : c.prepareNextInstruction instruction signers = .ok c') :
    ∃ caller programIndex refs,
      c.transactionContext.getCurrentInstructionContext = .ok caller ∧
      List.Forall₂ (CalleeAccounts.Refers c.transactionContext) instruction.accounts refs ∧
      (∀ r ∈ refs, ∃ m ∈ instruction.accounts,
        c.transactionContext.findIndexOfAccount m.pubkey = some r.indexInTransaction ∧
        Grants caller m.pubkey signers (mergedFlags refs r.indexInTransaction)) ∧
      Prepared c c' programIndex (refs.map fun r => mergedFlags refs r.indexInTransaction)
        instruction.data := by
  obtain ⟨caller, hcaller, h⟩ := bind_eq_ok h
  obtain ⟨callee, hcallee, h⟩ := bind_eq_ok h
  obtain ⟨accounts, haccounts, h⟩ := bind_eq_ok h
  obtain ⟨programIndex, -, h⟩ := bind_eq_ok h
  rw [Outcome.lift_eq_ok] at hcaller
  obtain ⟨hmap, hcallerLen, -⟩ := hc.view hcaller
  obtain ⟨refs, hrefers, hmerges⟩ := CalleeAccounts.foldlM_addMeta_merges
    CalleeAccounts.empty_merges (by simpa using hlen) hcallee
  rw [List.nil_append] at hmerges
  have hfinal := foldlM_checkPrivileges_merges hmap hcallerLen hmerges haccounts
  have hcount : callee.accounts.length = refs.length := by
    rw [hmerges.indexes.length, indicesOf, List.length_map]
  -- Every position has been visited.
  have hmerged : accounts = refs.map fun r => mergedFlags refs r.indexInTransaction := by
    refine List.ext_getElem? fun k => ?_
    rw [List.getElem?_map]
    cases hk : refs[k]? with
    | none =>
        have hsame := (foldlM_checkPrivileges_ok haccounts).1
        have hlength : accounts.length = callee.accounts.length := by
          simpa [indicesOf] using congrArg List.length hsame
        rw [List.getElem?_eq_none_iff, ← hcount, ← hlength] at hk
        rw [List.getElem?_eq_none_iff.mpr hk]
        rfl
    | some r =>
        have hlt := (List.getElem?_eq_some_iff.mp hk).1
        refine (hfinal k r.indexInTransaction ?_).1 (.inr ?_)
        · rw [indicesOf, List.getElem?_map, hk]
          rfl
        · rw [List.mem_range, hcount]
          exact hlt
  have hindices : indicesOf accounts = indicesOf refs := by
    rw [hmerged, indicesOf, indicesOf, List.map_map]
    rfl
  split at h
  · cases h
  · obtain ⟨callerIndex, -, h⟩ := bind_eq_ok h
    obtain ⟨tx, hconfigured, h⟩ := bind_eq_ok h
    rw [Outcome.lift_eq_ok] at hconfigured
    cases h
    refine ⟨caller, programIndex, refs, hcaller, hrefers, fun r hr => ?_, ?_⟩
    · -- The account was compared at its first position.
      have hmem : r.indexInTransaction ∈ indicesOf refs := List.mem_map_of_mem hr
      have hlt := List.idxOf_lt_length_iff.mpr hmem
      obtain ⟨k, hk, hget⟩ : ∃ k, (indicesOf refs).idxOf r.indexInTransaction = k ∧
          (indicesOf refs)[k]? = some r.indexInTransaction :=
        ⟨_, rfl, by rw [List.getElem?_eq_getElem hlt, List.getElem_idxOf]⟩
      have hvisited : k ∈ List.range callee.accounts.length := by
        rw [List.mem_range, hmerges.indexes.length, ← hk]
        exact hlt
      obtain ⟨m, hm, hgrants⟩ := (hfinal k _ hget).2 hvisited hk
      obtain ⟨r', hr', hfound, -⟩ := forall₂_getElem? hrefers hm
      have hsame : r'.indexInTransaction = r.indexInTransaction := by
        rw [indicesOf, List.getElem?_map, hr'] at hget
        exact Option.some.inj hget
      exact ⟨m, List.mem_of_getElem? hm, hsame ▸ hfound, hgrants⟩
    · rw [← hmerged]
      refine ⟨⟨some (callerIndex % 2 ^ 16), ?_⟩, rfl⟩
      rwa [hindices, ← hmerges.indexes.calleeMap]

end Prepared

end ProgramRuntime

namespace Context

open Lib Sbpf Sdk

/-- The instruction has the account as a signer. -/
def Authority.Signs (a : Authority) (index : IndexOfAccount) : Prop :=
  ∃ account ∈ a.accounts, account.indexInTransaction = index ∧ account.isSigner = true

/-- An account is found at a position where its key stands. -/
theorem TransactionContext.findIndexOfAccount_key {tx : TransactionContext} {key : Pubkey}
    {index : IndexOfAccount} (h : tx.findIndexOfAccount key = some index) :
    tx.accounts.accountKey index = some key := by
  obtain ⟨hlt, hkey, -⟩ := List.findIdx?_eq_some_iff_getElem.mp h
  rw [TransactionAccounts.accountKey_eq_getElem?, List.getElem?_eq_getElem hlt, eq_of_beq hkey]

end Context

namespace ProgramRuntime

open Lib Sbpf Sdk Context

section Privileges

variable {reach : List IndexOfAccount} {c c' entered : InvokeContext}

/-- A flag of a merged account is one that some reference to its key asks for. -/
theorem any_refs_iff {tx : TransactionContext} {metas : List AccountMeta}
    {refs : List InstructionAccount} (h : List.Forall₂ (CalleeAccounts.Refers tx) metas refs)
    {flag : InstructionAccount → Bool} {flag' : AccountMeta → Bool}
    (hflag : ∀ m r, CalleeAccounts.Refers tx m r → flag r = flag' m) {pubkey : Pubkey}
    {index : IndexOfAccount} (hfound : tx.findIndexOfAccount pubkey = some index) :
    (refs.any fun r => r.indexInTransaction == index && flag r) = true ↔
      ∃ m ∈ metas, m.pubkey = pubkey ∧ flag' m = true := by
  rw [List.any_eq_true]
  constructor
  · rintro ⟨r, hr, hboth⟩
    rw [Bool.and_eq_true, beq_iff_eq] at hboth
    obtain ⟨i, hi⟩ := List.mem_iff_getElem?.mp hr
    obtain ⟨m, hm, hrefers⟩ := forall₂_getElem? h.flip hi
    refine ⟨m, List.mem_of_getElem? hm, ?_, ?_⟩
    · have hkey := TransactionContext.findIndexOfAccount_key hrefers.1
      rw [hboth.1, TransactionContext.findIndexOfAccount_key hfound] at hkey
      exact (Option.some.inj hkey).symm
    · rw [← hflag m r hrefers]
      exact hboth.2
  · rintro ⟨m, hm, rfl, hset⟩
    obtain ⟨i, hi⟩ := List.mem_iff_getElem?.mp hm
    obtain ⟨r, hr, hrefers⟩ := forall₂_getElem? h hi
    refine ⟨r, List.mem_of_getElem? hr, ?_⟩
    rw [Bool.and_eq_true, beq_iff_eq, hflag m r hrefers]
    exact ⟨Option.some.inj (hrefers.1.symm.trans hfound), hset⟩

/-- The accounts of an invoked instruction.  There is one for each reference, it is the account that was
asked for, it is writable or a signer in all positions if any reference to its key asks for it, and only
if the caller has it as a writable account, or as a signer unless it signs for it. -/
theorem entered_instruction_privileges (hc : c.transactionContext.RunsWithin reach)
    (instruction : CheckedInstruction) (signers : List Pubkey)
    (hprepare : c.prepareNextInstruction instruction.toInstruction signers = .ok c')
    (hpush : c'.push = (.ok (), entered)) :
    entered.transactionContext.authority.accounts.length = instruction.accounts.length ∧
    ∀ (i : Nat) (m : AccountMeta), instruction.accounts[i]? = some m →
      ∃ account, entered.transactionContext.authority.accounts[i]? = some account ∧
        c.transactionContext.accounts.accountKey account.indexInTransaction = some m.pubkey ∧
        (account.isWritable = true ↔
          ∃ m' ∈ instruction.accounts, m'.pubkey = m.pubkey ∧ m'.isWritable = true) ∧
        (account.isSigner = true ↔
          ∃ m' ∈ instruction.accounts, m'.pubkey = m.pubkey ∧ m'.isSigner = true) ∧
        (account.isWritable = true →
          c.transactionContext.authority.MayWrite account.indexInTransaction) ∧
        (account.isSigner = true →
          c.transactionContext.authority.Signs account.indexInTransaction ∨ m.pubkey ∈ signers) := by
  have hbound : instruction.accounts.length ≤ noIndex := instruction.bounded.trans (by decide)
  obtain ⟨caller, programIndex, refs, hcaller, hrefers, hgrants, hprepared⟩ :=
    prepareNextInstruction_merges hc hbound hprepare
  obtain ⟨-, -, nestingLevel, hview⟩ := hprepared.entered hc.synced hpush
  have haccounts : entered.transactionContext.authority.accounts =
      refs.map fun r => mergedFlags refs r.indexInTransaction := by
    rw [TransactionContext.authority, hview]
    rfl
  have hauthority : c.transactionContext.authority.accounts = caller.instructionAccounts := by
    rw [TransactionContext.authority, hcaller]
    rfl
  rw [haccounts]
  refine ⟨by rw [List.length_map, hrefers.length_eq], fun i m hm => ?_⟩
  obtain ⟨r, hr, hrm⟩ := forall₂_getElem? hrefers hm
  refine ⟨mergedFlags refs r.indexInTransaction, by rw [List.getElem?_map, hr, Option.map_some],
    TransactionContext.findIndexOfAccount_key hrm.1, any_refs_iff hrefers (fun m r h => h.2.2) hrm.1,
    any_refs_iff hrefers (fun m r h => h.2.1) hrm.1, ?_⟩
  obtain ⟨m', -, hfound, callerAccount, hmem, hindex, hwritable, hsigner⟩ :=
    hgrants r (List.mem_of_getElem? hr)
  -- Two references to the same position of the transaction have the same key.
  have hkey : m'.pubkey = m.pubkey := by
    have hkey := TransactionContext.findIndexOfAccount_key hfound
    rw [TransactionContext.findIndexOfAccount_key hrm.1] at hkey
    exact (Option.some.inj hkey).symm
  refine ⟨fun hset => ⟨callerAccount, hauthority ▸ hmem, hindex, hwritable hset⟩, fun hset => ?_⟩
  rcases hsigner hset with hsigns | hsigns
  · exact .inl ⟨callerAccount, hauthority ▸ hmem, hindex, hsigns⟩
  · exact .inr (hkey ▸ hsigns)

end Privileges

section Instance

def delegatedKey : Pubkey := Vector.replicate 32 1
def delegatingProgram : Pubkey := Vector.replicate 32 9

theorem length_two_bounded : ([0, 1] : List UInt8).length < 2 ^ 16 := by
  decide

/-- A program is executed that has a writable account. -/
def delegating : InvokeContext :=
  let accounts := [(delegatedKey, ⟨100, [], sysvarId, false, 0⟩),
    (delegatingProgram, ⟨1, [], nativeLoaderId, true, 0⟩)]
  let context := InvokeContext.new (.new accounts 5 64) [] ⟨⟨true, true⟩, true, true, true, true⟩
    ⟨1000, 0⟩ ⟨0, 0, 1⟩
  ((context.prepareNextTopLevelInstruction (fun _ => false) (fun index => decide (index = 0))
    ⟨1, [0, 1], [], length_two_bounded⟩ 1).toOption.getD context).push.2

theorem length_delegated_bounded : [AccountMeta.mk delegatedKey false false,
    AccountMeta.mk delegatedKey false true].length ≤ maxAccountsPerInstruction := by
  decide

/-- The program invokes itself, and names the account twice. -/
def delegatedTwice : CheckedInstruction :=
  ⟨⟨delegatingProgram, [⟨delegatedKey, false, false⟩, ⟨delegatedKey, false, true⟩], []⟩,
    length_delegated_bounded⟩

theorem delegating_runsWithin : delegating.transactionContext.RunsWithin [0, 1] :=
  ⟨⟨by decide +kernel, by decide +kernel, by decide +kernel⟩, 0,
    [⟨0, false, true⟩, ⟨1, false, false⟩], by decide +kernel, by decide +kernel, by decide +kernel,
    by decide, by decide⟩

/-- The callee has two accounts.  The first one is writable too, which the caller allows, and none is a
signer. -/
theorem delegatedTwice_privileges :
    ∃ c' entered account, delegating.prepareNextInstruction delegatedTwice.toInstruction [] = .ok c' ∧
      c'.push = (.ok (), entered) ∧
      entered.transactionContext.authority.accounts.length = 2 ∧
      entered.transactionContext.authority.accounts[0]? = some account ∧
      delegating.transactionContext.accounts.accountKey account.indexInTransaction =
        some delegatedKey ∧
      account.isWritable = true ∧
      delegating.transactionContext.authority.MayWrite account.indexInTransaction ∧
      ¬ account.isSigner = true := by
  have hpushed : (delegating.prepareNextInstruction delegatedTwice.toInstruction []).toOption.map
      (fun c' => c'.push.1) = some (.ok ()) := by
    decide +kernel
  cases hprepare : delegating.prepareNextInstruction delegatedTwice.toInstruction [] with
  | error fault =>
      rw [hprepare] at hpushed
      cases hpushed
  | ok c' =>
      rw [hprepare] at hpushed
      have hpush : c'.push = (.ok (), c'.push.2) := Prod.ext (Option.some.inj hpushed) rfl
      obtain ⟨hcount, hpositions⟩ := entered_instruction_privileges delegating_runsWithin
        delegatedTwice [] hprepare hpush
      obtain ⟨account, haccount, hkey, hwritable, hsigner, hmay, -⟩ := hpositions 0 _ rfl
      have hwrites := hwritable.mpr ⟨⟨delegatedKey, false, true⟩, by decide, rfl, rfl⟩
      have hunsigned : ∀ m ∈ delegatedTwice.accounts, ¬ m.isSigner = true := by decide
      refine ⟨c', c'.push.2, account, rfl, hpush, hcount, haccount, hkey, hwrites, hmay hwrites, ?_⟩
      rw [hsigner]
      rintro ⟨m, hm, -, hsigns⟩
      exact hunsigned m hm hsigns

end Instance

/-! ## Nested invocations -/

/-- What the instruction may write is in `W`. -/
def WritesWithin (W : IndexOfAccount → Prop) (a : Authority) : Prop :=
  ∀ index, a.MayWrite index → W index

/-- What the instruction that was configured last may write is in `W`. -/
def OffersWithin (W : IndexOfAccount → Prop) (tx : TransactionContext) : Prop :=
  ∀ accounts, tx.instructionAccounts.getLast? = some accounts →
    ∀ account ∈ accounts, account.isWritable = true → W account.indexInTransaction

/-- All instructions that were entered by an invocation write in `W` only. -/
structure Invocation.WritesWithin (W : IndexOfAccount → Prop) (tx : TransactionContext)
    (call : Invocation) : Prop where
  entries : Execution.Under (ProgramRuntime.WritesWithin W) call.execution.entries
  resumes : call.result.isOk = true → tx.Resumes call.state.context.transactionContext

/-- Also in a run that panics later, all instructions that were entered write in `W` only. -/
def Abort.WritesWithin (W : IndexOfAccount → Prop) : Abort → Prop :=
  Abort.Entered fun entry => ProgramRuntime.WritesWithin W entry.transactionContext.authority

def Invoke.Attenuates (W : IndexOfAccount → Prop) (reach : List IndexOfAccount) (invoke : Invoke) :
    Prop :=
  ∀ (s : RuntimeState) (tx : TransactionContext), tx.Readies reach s.context.transactionContext →
    OffersWithin W s.context.transactionContext →
      Ends (·.WritesWithin W tx) (·.WritesWithin W) (invoke s)

section Nested

variable {W : IndexOfAccount → Prop} {reach : List IndexOfAccount} {c : InvokeContext}

/-- What a program offers to another one, it may write itself. -/
theorem prepareNextInstruction_offers (hc : c.transactionContext.Executes reach)
    (hwrites : WritesWithin W c.transactionContext.authority) (instruction : CheckedInstruction)
    (signers : List Pubkey) :
    Ends (fun c' => TransactionContext.Readies reach c.transactionContext c'.transactionContext ∧
        OffersWithin W c'.transactionContext) (fun _ => True)
      (c.prepareNextInstruction instruction.toInstruction signers) := by
  have hreadies := prepareNextInstruction_readies hc instruction signers
  cases hprepare : c.prepareNextInstruction instruction.toInstruction signers with
  | error fault => trivial
  | ok c' =>
      rw [hprepare] at hreadies
      refine ⟨hreadies.1, fun accounts hlast account haccount hwritable => ?_⟩
      have hbound : instruction.accounts.length ≤ noIndex := instruction.bounded.trans (by decide)
      obtain ⟨caller, programIndex, refs, hcaller, -, hgrants, hprepared⟩ :=
        prepareNextInstruction_merges hc.toRunsWithin hbound hprepare
      obtain ⟨callerIndex, hconfigured⟩ := hprepared.configured
      obtain ⟨last, -, htx⟩ := TransactionContext.configureNextInstruction_ok hconfigured
      rw [htx, List.getLast?_concat, Option.some.injEq] at hlast
      rw [← hlast] at haccount
      obtain ⟨r, hr, rfl⟩ := List.mem_map.mp haccount
      obtain ⟨m, -, -, callerAccount, hmem, hindex, hgranted, -⟩ := hgrants r hr
      refine hwrites _ ⟨callerAccount, ?_, hindex, hgranted hwritable⟩
      rw [TransactionContext.authority, hcaller]
      exact hmem

theorem OffersWithin.of_sameInstructions {tx tx' : TransactionContext} (h : OffersWithin W tx)
    (hsame : tx.SameInstructions tx') : OffersWithin W tx' := by
  obtain ⟨accounts, returnData, -, rfl⟩ := hsame
  exact h

theorem attenuates_rule {invoke : Invoke} (hinvoke : invoke.Attenuates W reach)
    (hc : c.transactionContext.Executes reach)
    (hwrites : WritesWithin W c.transactionContext.authority) :
    RunRule invoke c
      (fun b calls c' => Execution.Under (WritesWithin W) (Execution.entriesOfCalls calls) ∧
        (b = true → c.transactionContext.Resumes c'.transactionContext))
      (fun calls c' => Execution.Under (WritesWithin W) (Execution.entriesOfCalls calls) ∧
        ∃ tx, c.transactionContext.Resumes tx ∧ tx.Readies reach c'.transactionContext ∧
          OffersWithin W c'.transactionContext)
      (fun b _ calls c' => Execution.Under (WritesWithin W) (Execution.entriesOfCalls calls) ∧
        (b = true → c.transactionContext.Resumes c'.transactionContext))
      (·.WritesWithin W) where
  start := ⟨fun _ h => (by cases h), fun _ => .refl _⟩
  step := fun h hlocal =>
    ⟨h.1, fun hb => (h.2 hb).trans (.of_sameInstructions hlocal.instructions)⟩
  prepare := by
    rintro calls c' instruction signers ⟨hentries, hresumes⟩
    have hresumes := hresumes rfl
    have hoffers := prepareNextInstruction_offers (hresumes.executes hc)
      (hresumes.authority_eq hc ▸ hwrites) instruction signers
    refine hoffers.mono ?_ fun _ => id
    rintro c'' ⟨hreadies, hoffered⟩
    exact ⟨hentries, _, hresumes, hreadies, hoffered⟩
  sync := by
    rintro calls c' c'' ⟨hentries, tx, hresumes, hreadies, hoffered⟩ hlocal
    exact ⟨hentries, tx, hresumes, hreadies.of_sameInstructions hlocal.instructions,
      hoffered.of_sameInstructions hlocal.instructions⟩
  process := by
    rintro calls c' host ⟨hentries, tx, hresumes, hreadies, hoffered⟩
    refine (hinvoke ⟨c', host⟩ tx hreadies hoffered).mono ?_ fun _ habort => habort.after hentries
    intro call hcall
    refine ⟨?_, fun hok => hresumes.trans (hcall.resumes hok)⟩
    rw [Execution.entriesOfCalls_append, Execution.entriesOfCalls_singleton]
    exact List.forall_mem_append.mpr ⟨hentries, hcall.entries⟩
  weaken := fun h => ⟨h.1, Bool.noConfusion⟩
  abandon := fun h => ⟨h.1, Bool.noConfusion⟩
  panic := fun h => h.1
  leave := id
  collect := fun h _ => h
  returnedStep := fun h hlocal =>
    ⟨h.1, fun hb => (h.2 hb).trans (.of_sameInstructions hlocal.instructions)⟩
  returnedWeaken := fun h => ⟨h.1, Bool.noConfusion⟩

/-- An instruction that is entered may write what it was offered. -/
theorem push_writesWithin {tx : TransactionContext} {context : InvokeContext}
    (hreadies : tx.Readies reach c.transactionContext) (hoffered : OffersWithin W c.transactionContext)
    (hpush : c.push = (.ok (), context)) : WritesWithin W context.transactionContext.authority := by
  obtain ⟨hok, htx⟩ := push_ok_transactionContext hpush
  rw [htx]
  rintro _ ⟨account, haccount, rfl, hwritable⟩
  exact hoffered _ (hreadies.push_accounts hok) account haccount hwritable

/-- The induction is on the fuel. -/
theorem processInstructionWithFuel_attenuates (w : World) (fuel : Nat) :
    (processInstructionWithFuel w fuel).Attenuates W reach := by
  have hrejected : ∀ (tx : TransactionContext) (err : InstructionError) (c : InvokeContext)
      (s : RuntimeState), Invocation.WritesWithin W tx ⟨.error err, .rejected c, s⟩ :=
    fun tx err c s => ⟨fun _ h => (by cases h), Bool.noConfusion⟩
  induction fuel with
  | zero =>
      intro s tx _ _
      unfold processInstructionWithFuel
      split
      · exact hrejected tx _ _ _
      · exact Abort.Entered.outOfFuel
  | succ fuel ih =>
      intro s tx hreadies hoffered
      unfold processInstructionWithFuel
      split
      · exact hrejected tx _ _ _
      · rename_i context hpush
        obtain ⟨hok, htx⟩ := push_ok_transactionContext hpush
        obtain ⟨hexecutes, hleave⟩ := hreadies.push hok
        have hwrites := push_writesWithin hreadies hoffered hpush
        rw [← htx] at hexecutes hleave
        have hchain := (attenuates_rule ih hexecutes hwrites).processExecutableChain_ends w s.host
        have habort : ∀ abort, (∃ inner : Abort, inner.WritesWithin W ∧ abort = inner.inside context) →
            abort.WritesWithin W := by
          rintro _ ⟨inner, hinner, rfl⟩
          exact hinner.inside hwrites
        refine (hchain.mono (fun _ => id) habort).bind ?_
        rintro chain ⟨vm, calls, hexecution, hentries, hresumes⟩
        refine ⟨?_, fun hboth => ?_⟩
        · show Execution.Under (WritesWithin W) chain.execution.entries
          rw [hexecution]
          exact List.forall_mem_cons.mpr ⟨hwrites, hentries⟩
        · have hresult : chain.result.isOk = true := by
            have hboth' : (andThen chain.result chain.state.context.pop.1).isOk = true := hboth
            cases hresult : chain.result with
            | ok _ => rfl
            | error err =>
                rw [hresult] at hboth'
                cases hboth'
          exact hleave (hresumes hresult)

/-- Whatever the programs do, an account that is writable in some instruction of the execution is
writable in the instruction that was prepared; so it is if the execution ends in a panic. -/
theorem processInstruction_attenuates (w : World) {s : RuntimeState} {tx : TransactionContext}
    (hreadies : tx.Readies reach s.context.transactionContext)
    (hoffered : OffersWithin W s.context.transactionContext) :
    Ends (·.WritesWithin W tx) (·.WritesWithin W) (processInstruction w s) :=
  processInstructionWithFuel_attenuates w _ s tx hreadies hoffered

end Nested

end ProgramRuntime
end Gobble
