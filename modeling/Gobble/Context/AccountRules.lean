import Gobble.Context.BorrowedAccount
import Gobble.Context.Transaction
import Mathlib.Logic.Relation

/-!
# AccountRules — what an instruction may do to its accounts

A program changes accounts through borrows, and the setters of a borrow enforce the rules: a read-only
account does not change, only its owner may change the data, the owner or the executable flag of an
account or take lamports from it, and every change of a balance is counted.  The rules are stated here
once for all setters (`AccountChange.apply_obeys`).

`Authority` is what the rules depend on.  `Authority.Edits` relates the accounts before and after any
number of changes under one authority; that is all that results about whole executions use.
-/

namespace Gobble
namespace Context

open Lib Sbpf Sdk

/-! ## Changes -/

/-- A call of a setter.  That of `set_executable` comes with the rent that is in force. -/
inductive AccountChange where
  | owner (pubkey : Pubkey)
  | lamports (lamports : U64)
  | data (data : List UInt8)
  | dataLength (newLength : Nat)
  | extend (data : List UInt8)
  | writeMut (bytes : List UInt8)
  | addLamports (lamports : U64)
  | subLamports (lamports : U64)
  | executable (isRentExempt : U64 → Nat → Bool) (isExecutable : Bool)

def AccountChange.apply (b : BorrowedInstructionAccount) (accounts : TransactionAccounts) :
    AccountChange → BorrowedInstructionAccount.Updated
  | .owner pubkey => b.setOwner accounts pubkey
  | .lamports amount => b.setLamports accounts amount
  | .data bytes => b.setDataFromSlice accounts bytes
  | .dataLength newLength => b.setDataLength accounts newLength
  | .extend bytes => b.extendFromSlice accounts bytes
  | .writeMut bytes => b.writeDataMut accounts bytes
  | .addLamports amount => b.checkedAddLamports accounts amount
  | .subLamports amount => b.checkedSubLamports accounts amount
  | .executable isRentExempt isExecutable => b.setExecutable accounts isRentExempt isExecutable

/-- What programs that do not own an account leave of it: they may at most credit it. -/
structure AccountSharedData.Respected (account account' : AccountSharedData) : Prop where
  owner : account'.owner = account.owner
  data : account'.data = account.data
  executable : account'.executable = account.executable
  lamports : account.lamports ≤ account'.lamports

theorem AccountSharedData.Respected.refl (account : AccountSharedData) : account.Respected account :=
  ⟨rfl, rfl, rfl, BitVec.le_refl _⟩

theorem AccountSharedData.Respected.trans {account account' account'' : AccountSharedData}
    (h : account.Respected account') (h' : account'.Respected account'') :
    account.Respected account'' :=
  ⟨h'.owner.trans h.owner, h'.data.trans h.data, h'.executable.trans h.executable,
    BitVec.le_trans h.lamports h'.lamports⟩

namespace BorrowedInstructionAccount

/-- The borrow shows the account as it is. -/
def IsOf (b : BorrowedInstructionAccount) (accounts : TransactionAccounts) : Prop :=
  accounts.accounts[b.getIndexInTransaction]? = some (b.key, b.account)

/-- What the holder of a borrow may make of the account. -/
structure Permits (b : BorrowedInstructionAccount) (account : AccountSharedData) : Prop where
  readonly : b.isWritable = false → account = b.account
  foreign : b.isOwnedByCurrentProgram = false → b.account.Respected account

/-- A setter keeps to the rules, writes the account that the borrow is for, and counts lamports. -/
structure Obeys (b : BorrowedInstructionAccount) (accounts : TransactionAccounts)
    (b' : BorrowedInstructionAccount) (accounts' : TransactionAccounts) : Prop where
  permits : b.Permits b'.account
  borrow : b' = { b with account := b'.account }
  written : accounts'.accounts = (accounts.setAccount b.getIndexInTransaction b'.account).accounts
  counted : accounts'.lamportsDelta - accounts.lamportsDelta =
    b'.account.lamports.toNat - b.account.lamports.toNat

variable {b : BorrowedInstructionAccount} {accounts : TransactionAccounts}

theorem permits_self : b.Permits b.account :=
  ⟨fun _ => rfl, fun _ => .refl _⟩

/-- The owner may do everything with a writable account. -/
theorem permits_of_owned (howned : b.isOwnedByCurrentProgram = true) (hwritable : b.isWritable = true)
    (account : AccountSharedData) : b.Permits account :=
  ⟨fun h => absurd (h.symm.trans hwritable) Bool.false_ne_true,
    fun h => absurd (h.symm.trans howned) Bool.false_ne_true⟩

theorem setAccount_self (h : b.IsOf accounts) :
    accounts.setAccount b.getIndexInTransaction b.account = accounts := by
  have hsame : accounts.accounts.modify b.getIndexInTransaction (fun entry => (entry.1, b.account)) =
      accounts.accounts := by
    refine List.ext_getElem? fun j => ?_
    rw [List.getElem?_modify]
    split
    · rename_i hj
      rw [← hj, h]
      rfl
    · exact Option.map_id'
  unfold TransactionAccounts.setAccount
  rw [hsame]

/-- A setter that finds nothing to do. -/
theorem obeys_self (h : b.IsOf accounts) : b.Obeys accounts b accounts :=
  ⟨permits_self, rfl, by rw [setAccount_self h], by omega⟩

/-- The owner writes to an account that is writable, and does not touch the balance. -/
theorem obeys_of_owned (howned : b.isOwnedByCurrentProgram = true) (hwritable : b.isWritable = true)
    {t : TransactionAccounts} (haccounts : t.accounts = accounts.accounts)
    (hdelta : t.lamportsDelta = accounts.lamportsDelta) {account : AccountSharedData}
    (hlamports : account.lamports = b.account.lamports) :
    b.Obeys accounts (b.save t account).1 (b.save t account).2 := by
  refine ⟨permits_of_owned howned hwritable _, rfl, ?_, ?_⟩
  · simp only [save, TransactionAccounts.setAccount, haccounts]
  · simp [save, TransactionAccounts.setAccount, hdelta, hlamports]

theorem canDataBeChanged_ok (h : b.canDataBeChanged = .ok ()) :
    b.isWritable = true ∧ b.isOwnedByCurrentProgram = true := by
  unfold canDataBeChanged at h
  split at h
  · cases h
  · rename_i hwritable
    split at h
    · cases h
    · rename_i howned
      exact ⟨by simpa using hwritable, by simpa using howned⟩

theorem setOwner_obeys (h : b.IsOf accounts) (pubkey : Pubkey) :
    Ends (fun r => b.Obeys accounts r.1 r.2) (fun _ => True) (b.setOwner accounts pubkey) := by
  unfold setOwner
  split
  · trivial
  · rename_i howned
    split
    · trivial
    · rename_i hwritable
      split
      · trivial
      · split
        · exact obeys_self h
        · exact obeys_of_owned (by simpa using howned) (by simpa using hwritable) rfl rfl rfl

theorem setLamports_obeys (h : b.IsOf accounts) (lamports : U64) :
    Ends (fun r => b.Obeys accounts r.1 r.2) (fun _ => True) (b.setLamports accounts lamports) := by
  unfold setLamports
  dsimp only
  split
  · trivial
  · rename_i hspend
    split
    · trivial
    · rename_i hwritable
      split
      · exact obeys_self h
      · -- Everybody may credit an account, so this setter is not one for owners only.
        unfold TransactionAccounts.addLamportsDelta
        split
        · refine ⟨⟨fun hreadonly => ?_, fun hforeign => ⟨rfl, rfl, rfl, ?_⟩⟩, rfl, rfl, ?_⟩
          · simp [hreadonly] at hwritable
          · simp only [hforeign, Bool.not_false, Bool.true_and, decide_eq_true_eq] at hspend
            exact BitVec.not_lt.mp hspend
          · simp only [save, TransactionAccounts.setAccount, getLamports]
            omega
        · trivial

theorem setDataFromSlice_obeys (data : List UInt8) :
    Ends (fun r => b.Obeys accounts r.1 r.2) (fun _ => True) (b.setDataFromSlice accounts data) := by
  unfold setDataFromSlice
  cases hresize : b.canDataBeResized accounts data.length with
  | error err => trivial
  | ok _ =>
      obtain ⟨hwritable, howned⟩ := canDataBeChanged_ok (canDataBeResized_ok hresize).2
      refine obeys_of_owned howned hwritable ?_ ?_ ?_ <;> rfl

theorem setDataLength_obeys (h : b.IsOf accounts) (newLength : Nat) :
    Ends (fun r => b.Obeys accounts r.1 r.2) (fun _ => True) (b.setDataLength accounts newLength) := by
  unfold setDataLength
  cases hresize : b.canDataBeResized accounts newLength with
  | error err => trivial
  | ok _ =>
      obtain ⟨hwritable, howned⟩ := canDataBeChanged_ok (canDataBeResized_ok hresize).2
      dsimp only [Bind.bind, Except.bind]
      split
      · exact obeys_self h
      · refine obeys_of_owned howned hwritable ?_ ?_ ?_ <;> rfl

theorem extendFromSlice_obeys (h : b.IsOf accounts) (data : List UInt8) :
    Ends (fun r => b.Obeys accounts r.1 r.2) (fun _ => True) (b.extendFromSlice accounts data) := by
  unfold extendFromSlice
  dsimp only
  cases hresize : b.canDataBeResized accounts (b.getData.length + data.length) with
  | error err => trivial
  | ok _ =>
      obtain ⟨hwritable, howned⟩ := canDataBeChanged_ok (canDataBeResized_ok hresize).2
      dsimp only [Bind.bind, Except.bind]
      split
      · exact obeys_self h
      · refine obeys_of_owned howned hwritable ?_ ?_ ?_ <;> rfl

theorem writeDataMut_obeys (bytes : List UInt8) :
    Ends (fun r => b.Obeys accounts r.1 r.2) (fun _ => True) (b.writeDataMut accounts bytes) := by
  unfold writeDataMut
  cases hchange : b.canDataBeChanged with
  | error err => trivial
  | ok _ =>
      obtain ⟨hwritable, howned⟩ := canDataBeChanged_ok hchange
      refine obeys_of_owned howned hwritable ?_ ?_ ?_ <;> rfl

theorem checkedAddLamports_obeys (h : b.IsOf accounts) (lamports : U64) :
    Ends (fun r => b.Obeys accounts r.1 r.2) (fun _ => True)
      (b.checkedAddLamports accounts lamports) := by
  unfold checkedAddLamports
  split
  · exact setLamports_obeys h _
  · trivial

theorem checkedSubLamports_obeys (h : b.IsOf accounts) (lamports : U64) :
    Ends (fun r => b.Obeys accounts r.1 r.2) (fun _ => True)
      (b.checkedSubLamports accounts lamports) := by
  unfold checkedSubLamports
  split
  · exact setLamports_obeys h _
  · trivial

theorem setExecutable_obeys (h : b.IsOf accounts) (isRentExempt : U64 → Nat → Bool)
    (isExecutable : Bool) :
    Ends (fun r => b.Obeys accounts r.1 r.2) (fun _ => True)
      (b.setExecutable accounts isRentExempt isExecutable) := by
  unfold setExecutable
  split
  · trivial
  · split
    · trivial
    · rename_i howned
      split
      · trivial
      · rename_i hwritable
        split
        · exact obeys_self h
        · exact obeys_of_owned (by simpa using howned) (by simpa using hwritable) rfl rfl rfl

/-- The borrow is still one of the account as it is. -/
theorem Obeys.isOf {b' : BorrowedInstructionAccount} {accounts' : TransactionAccounts}
    (h : b.Obeys accounts b' accounts') (hb : b.IsOf accounts) : b'.IsOf accounts' := by
  unfold IsOf at hb ⊢
  rw [h.written, h.borrow]
  simp only [TransactionAccounts.setAccount]
  show (accounts.accounts.modify b.getIndexInTransaction _)[b.getIndexInTransaction]? = _
  rw [List.getElem?_modify, hb]
  simp

end BorrowedInstructionAccount

open BorrowedInstructionAccount

/-- Every setter obeys the rules. -/
theorem AccountChange.apply_obeys {b b' : BorrowedInstructionAccount}
    {accounts accounts' : TransactionAccounts} (hb : b.IsOf accounts) {change : AccountChange}
    (h : change.apply b accounts = .ok (b', accounts')) : b.Obeys accounts b' accounts' := by
  have hends : Ends (fun r => b.Obeys accounts r.1 r.2) (fun _ => True)
      (change.apply b accounts) := by
    cases change with
    | owner pubkey => exact setOwner_obeys hb pubkey
    | lamports amount => exact setLamports_obeys hb amount
    | data bytes => exact setDataFromSlice_obeys bytes
    | dataLength newLength => exact setDataLength_obeys hb newLength
    | extend bytes => exact extendFromSlice_obeys hb bytes
    | writeMut bytes => exact writeDataMut_obeys bytes
    | addLamports amount => exact checkedAddLamports_obeys hb amount
    | subLamports amount => exact checkedSubLamports_obeys hb amount
    | executable isRentExempt isExecutable =>
        exact setExecutable_obeys hb isRentExempt isExecutable
  rw [h] at hends
  exact hends

/-! ## Authority -/

/-- What decides which changes an instruction may make: its accounts and its program. -/
structure Authority where
  accounts : List InstructionAccount
  program : Option Pubkey
  deriving DecidableEq

namespace Authority

variable {a : Authority} {t t' t'' : TransactionAccounts}

/-- A borrow on behalf of the instruction. -/
structure Holds (a : Authority) (b : BorrowedInstructionAccount) : Prop where
  account : b.instructionAccount ∈ a.accounts
  program : b.programKey = a.program

/-- One change. -/
def Edit (a : Authority) (t t' : TransactionAccounts) : Prop :=
  ∃ b b', a.Holds b ∧ b.IsOf t ∧ b.Obeys t b' t'

/-- Any number of changes. -/
def Edits (a : Authority) : TransactionAccounts → TransactionAccounts → Prop :=
  Relation.ReflTransGen a.Edit

theorem Edits.refl (a : Authority) (t : TransactionAccounts) : a.Edits t t :=
  Relation.ReflTransGen.refl

theorem Edits.trans (h : a.Edits t t') (h' : a.Edits t' t'') : a.Edits t t'' :=
  Relation.ReflTransGen.trans h h'

theorem Edit.edits (h : a.Edit t t') : a.Edits t t' :=
  Relation.ReflTransGen.single h

/-- Whatever single changes keep, all changes keep. -/
theorem Edits.keeps {R : TransactionAccounts → TransactionAccounts → Prop} (hrefl : ∀ t, R t t)
    (htrans : ∀ {t t' t''}, R t t' → R t' t'' → R t t'') (hedit : ∀ {t t'}, a.Edit t t' → R t t')
    (h : a.Edits t t') : R t t' := by
  induction h with
  | refl => exact hrefl t
  | tail _ hlast ih => exact htrans ih (hedit hlast)

theorem Edit.keys (h : a.Edit t t') : t'.accountKeys = t.accountKeys := by
  obtain ⟨b, b', -, -, hobeys⟩ := h
  have hkeys := t.accountKeys_setAccount b.getIndexInTransaction b'.account
  unfold TransactionAccounts.accountKeys at hkeys ⊢
  rw [hobeys.written, hkeys]

theorem Edits.keys (h : a.Edits t t') : t'.accountKeys = t.accountKeys :=
  h.keeps (R := fun t t' => t'.accountKeys = t.accountKeys) (fun _ => rfl)
    (fun h h' => h'.trans h) Edit.keys

end Authority

/-! ## Lamports are conserved -/

theorem sum_map_modify {α : Type} (f : α → Nat) (g : α → α) {l : List α} {i : Nat} {x : α}
    (h : l[i]? = some x) : ((l.modify i g).map f).sum + f x = (l.map f).sum + f (g x) := by
  induction l generalizing i with
  | nil => cases h
  | cons y l ih =>
      cases i with
      | zero =>
          cases h
          simp only [List.modify_zero_cons, List.map_cons, List.sum_cons]
          omega
      | succ i =>
          have hrest := ih (i := i) h
          simp only [List.modify_succ_cons, List.map_cons, List.sum_cons]
          omega

namespace TransactionAccounts

def totalLamports (t : TransactionAccounts) : Nat :=
  (t.accounts.map fun entry => entry.2.lamports.toNat).sum

/-- The lamports there were before the changes that `lamportsDelta` counts. -/
def openingLamports (t : TransactionAccounts) : Int :=
  t.totalLamports - t.lamportsDelta

theorem totalLamports_setAccount {t : TransactionAccounts} {index : IndexOfAccount} {key : Pubkey}
    {account : AccountSharedData} (h : t.accounts[index]? = some (key, account))
    (account' : AccountSharedData) :
    (t.setAccount index account').totalLamports + account.lamports.toNat =
      t.totalLamports + account'.lamports.toNat :=
  sum_map_modify (fun entry => entry.2.lamports.toNat) (fun entry => (entry.1, account')) h

/-- An account other than the one that is set. -/
theorem getElem?_setAccount_of_ne {t : TransactionAccounts} {index index' : IndexOfAccount}
    (h : index ≠ index') (account : AccountSharedData) :
    (t.setAccount index account).accounts[index']? = t.accounts[index']? := by
  simp [setAccount, h]

theorem getElem?_setAccount_self {t : TransactionAccounts} {index : IndexOfAccount} {key : Pubkey}
    {account : AccountSharedData} (h : t.accounts[index]? = some (key, account))
    (account' : AccountSharedData) :
    (t.setAccount index account').accounts[index]? = some (key, account') := by
  simp [setAccount, h]

/-- The accounts of a program are left to it. -/
def Respects (program : Pubkey) (t t' : TransactionAccounts) : Prop :=
  ∀ (index : IndexOfAccount) (key : Pubkey) (account : AccountSharedData),
    t.accounts[index]? = some (key, account) → account.owner = program →
      ∃ account', t'.accounts[index]? = some (key, account') ∧ account.Respected account'

theorem Respects.refl (program : Pubkey) (t : TransactionAccounts) : t.Respects program t :=
  fun _ _ account h _ => ⟨account, h, .refl account⟩

theorem Respects.trans {program : Pubkey} {t t' t'' : TransactionAccounts}
    (h : Respects program t t') (h' : Respects program t' t'') : Respects program t t'' := by
  intro index key account haccount howner
  obtain ⟨account', haccount', hrespected⟩ := h index key account haccount howner
  obtain ⟨account'', haccount'', hrespected'⟩ :=
    h' index key account' haccount' (hrespected.owner.trans howner)
  exact ⟨account'', haccount'', hrespected.trans hrespected'⟩

end TransactionAccounts

/-! ## What edits keep -/

namespace Authority

open TransactionAccounts

variable {a : Authority} {t t' : TransactionAccounts}

/-- The instruction has the account, and has it as a writable one. -/
def MayWrite (a : Authority) (index : IndexOfAccount) : Prop :=
  ∃ account ∈ a.accounts, account.indexInTransaction = index ∧ account.isWritable = true

theorem Edit.openingLamports_eq (h : a.Edit t t') : t'.openingLamports = t.openingLamports := by
  obtain ⟨b, b', -, hb, hobeys⟩ := h
  have htotal := totalLamports_setAccount hb b'.account
  have hwritten : t'.totalLamports =
      (t.setAccount b.getIndexInTransaction b'.account).totalLamports := by
    unfold totalLamports
    rw [hobeys.written]
  have hcounted := hobeys.counted
  unfold openingLamports
  omega

theorem Edit.keeps_readonly (h : a.Edit t t') {index : IndexOfAccount} (hindex : ¬ a.MayWrite index) :
    t'.accounts[index]? = t.accounts[index]? := by
  obtain ⟨b, b', hholds, hb, hobeys⟩ := h
  rw [hobeys.written]
  by_cases hself : b.getIndexInTransaction = index
  · have hreadonly : b.isWritable = false :=
      Bool.eq_false_iff.mpr fun hwritable => hindex ⟨_, hholds.account, hself, hwritable⟩
    rw [hobeys.permits.readonly hreadonly, setAccount_self hb]
  · exact getElem?_setAccount_of_ne hself _

theorem Edit.respects (h : a.Edit t t') {program : Pubkey} (hprogram : a.program ≠ some program) :
    t.Respects program t' := by
  obtain ⟨b, b', hholds, hb, hobeys⟩ := h
  intro index key account haccount howner
  rw [hobeys.written]
  by_cases hself : b.getIndexInTransaction = index
  · subst hself
    have hsame : (b.key, b.account) = (key, account) := Option.some.inj (hb.symm.trans haccount)
    obtain ⟨rfl, rfl⟩ := Prod.mk.inj hsame
    have hforeign : b.isOwnedByCurrentProgram = false := by
      unfold isOwnedByCurrentProgram
      split
      · rename_i programKey hkey
        refine beq_eq_false_iff_ne.mpr fun heq => hprogram ?_
        rw [← hholds.program, hkey, heq, ← howner]
        rfl
      · rfl
    exact ⟨b'.account, getElem?_setAccount_self hb _, hobeys.permits.foreign hforeign⟩
  · exact ⟨account, (getElem?_setAccount_of_ne hself _).trans haccount, .refl account⟩

end Authority

/-! ## Entering an instruction -/

namespace TransactionContext

open TransactionAccounts

/-- Storing the index of the top-level instruction changes the data of the instructions sysvar. -/
structure StoresIndex (t t' : TransactionAccounts) : Prop where
  openingLamports : t'.openingLamports = t.openingLamports
  others : ∀ (index : IndexOfAccount) (key : Pubkey) (account : AccountSharedData),
    t.accounts[index]? = some (key, account) → key ≠ instructionsSysvarId →
      t'.accounts[index]? = some (key, account)

theorem storesIndex_self (t : TransactionAccounts) : StoresIndex t t :=
  ⟨rfl, fun _ _ _ h _ => h⟩

theorem storeTopLevelIndex_storesIndex (tx : TransactionContext) :
    StoresIndex tx.accounts tx.storeTopLevelIndex.2.accounts := by
  rcases tx.storeTopLevelIndex_cases with
    ⟨err, heq⟩ | ⟨-, heq⟩ | ⟨index, account, data, hindex, hborrow, -, heq⟩
  · rw [heq]
    exact storesIndex_self _
  · rw [heq]
    exact storesIndex_self _
  · rw [heq]
    obtain ⟨hlt, hkey, -⟩ := List.findIdx?_eq_some_iff_getElem.mp hindex
    have hentry : tx.accounts.accounts[index]? = some (instructionsSysvarId, account) := by
      unfold tryBorrow at hborrow
      unfold accountKeys at hlt hkey
      rw [List.getElem_map] at hkey
      rw [List.length_map] at hlt
      rw [List.getElem?_eq_getElem hlt] at hborrow ⊢
      rw [← eq_of_beq hkey, ← Except.ok.inj hborrow]
      rfl
    refine ⟨?_, fun index' key account' haccount hne => ?_⟩
    · have htotal := totalLamports_setAccount hentry { account with data }
      unfold openingLamports
      show ((tx.accounts.setAccount index { account with data }).totalLamports : Int) -
        tx.accounts.lamportsDelta = _
      dsimp only at htotal
      omega
    · have hother : index ≠ index' := by
        rintro rfl
        rw [hentry, Option.some.injEq, Prod.mk.injEq] at haccount
        exact hne haccount.1.symm
      exact (getElem?_setAccount_of_ne hother _).trans haccount

theorem push_storesIndex (tx : TransactionContext) : StoresIndex tx.accounts tx.push.2.accounts := by
  rcases tx.push_cases with ⟨err, trace, heq⟩ | ⟨frame, -, -, heq⟩
  · rw [heq]
    exact storesIndex_self _
  · rw [heq]
    exact storeTopLevelIndex_storesIndex (tx.pushed frame)

end TransactionContext

end Context
end Gobble
