import Gobble.Lib.TwoRuns
import Gobble.ProgramRuntime.Cpi

/-!
# Twins — contexts that differ in the data of the instructions sysvar

With direct mapping the data of an account is the memory that a program sees, so a context with other
bytes in the instructions sysvar is part of what a caller's memory can be.  This file is about
`withSysvarData`, which puts other data of the same length into that account.  Looking accounts up,
borrowing them and preparing an instruction do not depend on the data.  Changing an account does, but
a program that does not own the sysvar cannot change its data, and fails in the attempt for reasons
that have nothing to do with the bytes.
-/

namespace Gobble
namespace Context

open Lib Sbpf Sdk

/-- An account, with other data if its key is that of the instructions sysvar. -/
def replaceSysvarData (data : List UInt8) (key : Pubkey) (account : AccountSharedData) :
    AccountSharedData :=
  if key = instructionsSysvarId then { account with data } else account

def TransactionAccounts.withSysvarData (t : TransactionAccounts) (data : List UInt8) :
    TransactionAccounts :=
  { t with accounts := t.accounts.map fun entry =>
      (entry.1, replaceSysvarData data entry.1 entry.2) }

def TransactionContext.withSysvarData (tx : TransactionContext) (data : List UInt8) :
    TransactionContext :=
  { tx with accounts := tx.accounts.withSysvarData data }

def InstructionContext.withSysvarData (ic : InstructionContext) (data : List UInt8) :
    InstructionContext :=
  { ic with transactionContext := ic.transactionContext.withSysvarData data }

def BorrowedInstructionAccount.withSysvarData (b : BorrowedInstructionAccount)
    (data : List UInt8) : BorrowedInstructionAccount :=
  { b with account := replaceSysvarData data b.key b.account }

section Fields

variable (data : List UInt8) (key : Pubkey) (account : AccountSharedData)

@[simp] theorem replaceSysvarData_lamports :
    (replaceSysvarData data key account).lamports = account.lamports := by
  unfold replaceSysvarData
  split <;> rfl

@[simp] theorem replaceSysvarData_owner :
    (replaceSysvarData data key account).owner = account.owner := by
  unfold replaceSysvarData
  split <;> rfl

@[simp] theorem replaceSysvarData_executable :
    (replaceSysvarData data key account).executable = account.executable := by
  unfold replaceSysvarData
  split <;> rfl

/-- Other accounts are left alone. -/
theorem replaceSysvarData_of_ne {key : Pubkey} (hkey : key ≠ instructionsSysvarId) :
    replaceSysvarData data key account = account :=
  if_neg hkey

end Fields

/-! ## Looking things up -/

namespace TransactionAccounts

variable (t : TransactionAccounts) (data : List UInt8)

theorem withSysvarData_getElem? (i : Nat) :
    (t.withSysvarData data).accounts[i]? =
      t.accounts[i]?.map fun entry => (entry.1, replaceSysvarData data entry.1 entry.2) := by
  simp [withSysvarData]

@[simp] theorem withSysvarData_accountKeys :
    (t.withSysvarData data).accountKeys = t.accountKeys := by
  simp [withSysvarData, accountKeys, Function.comp_def]

@[simp] theorem withSysvarData_accountKey (i : IndexOfAccount) :
    (t.withSysvarData data).accountKey i = t.accountKey i := by
  simp [accountKey, withSysvarData_getElem?, Function.comp_def]

/-- Writing an account back, seen with other data in the sysvar. -/
theorem withSysvarData_setAccount {index : IndexOfAccount} {key : Pubkey}
    (hkey : t.accountKey index = some key) (account : AccountSharedData) :
    (t.withSysvarData data).setAccount index (replaceSysvarData data key account) =
      (t.setAccount index account).withSysvarData data := by
  have haccounts : (t.accounts.map fun entry =>
        (entry.1, replaceSysvarData data entry.1 entry.2)).modify index
          (fun entry => (entry.1, replaceSysvarData data key account)) =
      (t.accounts.modify index fun entry => (entry.1, account)).map fun entry =>
        (entry.1, replaceSysvarData data entry.1 entry.2) := by
    refine List.ext_getElem? fun i => ?_
    simp only [List.getElem?_modify, List.getElem?_map]
    cases hentry : t.accounts[i]? with
    | none => rfl
    | some entry =>
        -- At the position that is written, `key` is the key of the entry.
        by_cases hi : index = i
        · subst hi
          simp only [accountKey, hentry, Option.map_some, Option.some.injEq] at hkey
          simp [hkey]
        · simp [hi]
  simp only [setAccount, withSysvarData, haccounts]

end TransactionAccounts

namespace TransactionContext

variable (tx : TransactionContext) (data : List UInt8)

@[simp] theorem withSysvarData_findIndexOfAccount (key : Pubkey) :
    (tx.withSysvarData data).findIndexOfAccount key = tx.findIndexOfAccount key := by
  simp [findIndexOfAccount, withSysvarData]

@[simp] theorem withSysvarData_getKeyOfAccountAtIndex (i : IndexOfAccount) :
    (tx.withSysvarData data).getKeyOfAccountAtIndex i = tx.getKeyOfAccountAtIndex i := by
  simp [getKeyOfAccountAtIndex, withSysvarData]

theorem withSysvarData_getInstructionContextAtIndexInTrace (i : Nat) :
    (tx.withSysvarData data).getInstructionContextAtIndexInTrace i =
      (tx.getInstructionContextAtIndexInTrace i).map fun ic => ic.withSysvarData data := by
  have htrace : (tx.withSysvarData data).instructionTrace = tx.instructionTrace := rfl
  unfold getInstructionContextAtIndexInTrace
  rw [htrace]
  cases tx.instructionTrace[i]? with
  | none => rfl
  | some frame => rfl

theorem withSysvarData_getNextInstructionContext :
    (tx.withSysvarData data).getNextInstructionContext =
      tx.getNextInstructionContext.map fun ic => ic.withSysvarData data :=
  tx.withSysvarData_getInstructionContextAtIndexInTrace data _

theorem withSysvarData_getCurrentInstructionContext :
    (tx.withSysvarData data).getCurrentInstructionContext =
      tx.getCurrentInstructionContext.map fun ic => ic.withSysvarData data := by
  have hindex : (tx.withSysvarData data).getCurrentInstructionIndex =
      tx.getCurrentInstructionIndex := rfl
  unfold getCurrentInstructionContext
  rw [hindex]
  cases tx.getCurrentInstructionIndex with
  | error err => rfl
  | ok i => exact tx.withSysvarData_getInstructionContextAtIndexInTrace data i

theorem withSysvarData_configureNextInstruction (programIndex : IndexOfAccount)
    (accounts : List InstructionAccount) (map : List Nat) (instructionData : List UInt8)
    (callerIndex : Option Nat) :
    (tx.withSysvarData data).configureNextInstruction programIndex accounts map instructionData
        callerIndex =
      (tx.configureNextInstruction programIndex accounts map instructionData callerIndex).map
        fun tx => tx.withSysvarData data := by
  have htrace : (tx.withSysvarData data).instructionTrace = tx.instructionTrace := rfl
  unfold configureNextInstruction
  rw [htrace]
  cases tx.instructionTrace.getLast? with
  | none => rfl
  | some frame => rfl

end TransactionContext

namespace InstructionContext

variable (ic : InstructionContext) (data : List UInt8)

@[simp] theorem withSysvarData_getProgramKey :
    (ic.withSysvarData data).getProgramKey = ic.getProgramKey := by
  have hindex : (ic.withSysvarData data).getIndexOfProgramAccountInTransaction =
      ic.getIndexOfProgramAccountInTransaction := rfl
  unfold getProgramKey
  rw [hindex]
  cases ic.getIndexOfProgramAccountInTransaction with
  | error err => rfl
  | ok i => exact ic.transactionContext.withSysvarData_getKeyOfAccountAtIndex data i

@[simp] theorem withSysvarData_getProgramOwner :
    (ic.withSysvarData data).getProgramOwner = ic.getProgramOwner := by
  have hindex : (ic.withSysvarData data).getIndexOfProgramAccountInTransaction =
      ic.getIndexOfProgramAccountInTransaction := rfl
  unfold getProgramOwner
  rw [hindex]
  cases ic.getIndexOfProgramAccountInTransaction with
  | error err => rfl
  | ok i =>
      simp only [Bind.bind, Except.bind, TransactionAccounts.tryBorrow, withSysvarData,
        TransactionContext.withSysvarData, TransactionAccounts.withSysvarData_getElem?]
      cases ic.transactionContext.accounts.accounts[i]? with
      | none => rfl
      | some entry => simp [Pure.pure, Except.pure]

theorem withSysvarData_tryBorrowInstructionAccount (i : IndexOfAccount) :
    (ic.withSysvarData data).tryBorrowInstructionAccount i =
      (ic.tryBorrowInstructionAccount i).map fun b => b.withSysvarData data := by
  have haccounts : (ic.withSysvarData data).instructionAccounts = ic.instructionAccounts := rfl
  unfold tryBorrowInstructionAccount
  rw [haccounts]
  cases ic.instructionAccounts[i]? with
  | none => rfl
  | some a =>
      simp only [withSysvarData, TransactionContext.withSysvarData,
        TransactionAccounts.withSysvarData_getElem?, TransactionAccounts.withSysvarData_accountKey]
      cases ic.transactionContext.accounts.accounts[a.indexInTransaction]? with
      | none => rfl
      | some entry => rfl

end InstructionContext

/-! ## Changing accounts -/

/-- No account with the key of the sysvar is owned by the program, and its data has the length of
`data`. -/
def TransactionAccounts.Foreign (programKey : Option Pubkey) (data : List UInt8)
    (t : TransactionAccounts) : Prop :=
  ∀ entry ∈ t.accounts, entry.1 = instructionsSysvarId →
    programKey ≠ some entry.2.owner ∧ entry.2.data.length = data.length

namespace BorrowedInstructionAccount

/-- The same for a borrowed account, which has the key that stands in the transaction. -/
structure Foreign (programKey : Option Pubkey) (keys : List Pubkey) (data : List UInt8)
    (b : BorrowedInstructionAccount) : Prop where
  programKey_eq : b.programKey = programKey
  key : keys[b.getIndexInTransaction]? = some b.key
  foreign : b.key = instructionsSysvarId →
    programKey ≠ some b.getOwner ∧ b.getData.length = data.length

section Twins

variable (b : BorrowedInstructionAccount) (data : List UInt8)

@[simp] theorem withSysvarData_getIndexInTransaction :
    (b.withSysvarData data).getIndexInTransaction = b.getIndexInTransaction := rfl

@[simp] theorem withSysvarData_isWritable :
    (b.withSysvarData data).isWritable = b.isWritable := rfl

@[simp] theorem withSysvarData_getLamports :
    (b.withSysvarData data).getLamports = b.getLamports :=
  replaceSysvarData_lamports ..

@[simp] theorem withSysvarData_getOwner : (b.withSysvarData data).getOwner = b.getOwner :=
  replaceSysvarData_owner ..

@[simp] theorem withSysvarData_isExecutable :
    (b.withSysvarData data).isExecutable = b.isExecutable :=
  replaceSysvarData_executable ..

@[simp] theorem withSysvarData_isOwnedByCurrentProgram :
    (b.withSysvarData data).isOwnedByCurrentProgram = b.isOwnedByCurrentProgram := by
  unfold isOwnedByCurrentProgram
  rw [withSysvarData_getOwner]
  rfl

@[simp] theorem withSysvarData_canDataBeChanged :
    (b.withSysvarData data).canDataBeChanged = b.canDataBeChanged := by
  unfold canDataBeChanged
  rw [withSysvarData_isWritable, withSysvarData_isOwnedByCurrentProgram]

theorem withSysvarData_of_ne (hkey : b.key ≠ instructionsSysvarId) :
    b.withSysvarData data = b := by
  unfold withSysvarData
  rw [replaceSysvarData_of_ne data b.account hkey]

variable {b data} {programKey : Option Pubkey} {keys : List Pubkey}

theorem Foreign.length (h : b.Foreign programKey keys data) :
    (b.withSysvarData data).getData.length = b.getData.length := by
  unfold withSysvarData getData replaceSysvarData
  split
  · rename_i hkey
    exact (h.foreign hkey).2.symm
  · rfl

/-- The sysvar is not owned by the current program. -/
theorem Foreign.not_owned (h : b.Foreign programKey keys data)
    (hkey : b.key = instructionsSysvarId) : b.isOwnedByCurrentProgram = false := by
  have howner := (h.foreign hkey).1
  unfold isOwnedByCurrentProgram
  rw [h.programKey_eq]
  cases programKey with
  | none => rfl
  | some key => simpa using howner

end Twins

/-- How the results of a setter on `b` are related: what is borrowed is still the same account, and
the second result is the twin of the first. -/
structure UpdatedTwins (programKey : Option Pubkey) (keys : List Pubkey) (data : List UInt8)
    (b : BorrowedInstructionAccount) (u u' : BorrowedInstructionAccount × TransactionAccounts) :
    Prop where
  borrowed : u'.1 = u.1.withSysvarData data
  accounts : u'.2 = u.2.withSysvarData data
  foreign : u.1.Foreign programKey keys data
  accountsForeign : u.2.Foreign programKey data
  keys : u.2.accountKeys = keys
  key : u.1.key = b.key

section Saving

variable {b : BorrowedInstructionAccount} {data : List UInt8} {programKey : Option Pubkey}
  {keys : List Pubkey} {accounts : TransactionAccounts}

/-- Writing through the borrow.  The sysvar keeps an owner other than the program and the length of
its data. -/
theorem save_twins (hb : b.Foreign programKey keys data)
    (haccounts : accounts.Foreign programKey data) (hkeys : accounts.accountKeys = keys)
    (account : AccountSharedData)
    (hforeign : b.key = instructionsSysvarId →
      programKey ≠ some account.owner ∧ account.data.length = data.length) :
    UpdatedTwins programKey keys data b (b.save accounts account)
      ((b.withSysvarData data).save (accounts.withSysvarData data)
        (replaceSysvarData data b.key account)) := by
  have hkey : accounts.accountKey b.getIndexInTransaction = some b.key := by
    have hb := hb.key
    rwa [← hkeys, TransactionAccounts.accountKeys, List.getElem?_map] at hb
  refine ⟨rfl, ?_, ⟨hb.programKey_eq, hb.key, hforeign⟩, ?_, ?_, rfl⟩
  · exact accounts.withSysvarData_setAccount data hkey account
  · intro entry hentry hsysvar
    obtain ⟨i, hi⟩ := List.getElem?_of_mem hentry
    simp only [save, TransactionAccounts.setAccount, List.getElem?_modify] at hi
    obtain ⟨old, hold, hnew⟩ := Option.map_eq_some_iff.mp hi
    -- The account that was written is foreign by assumption, the others were so before.
    by_cases hindex : b.getIndexInTransaction = i
    · rw [if_pos hindex] at hnew
      subst hnew
      rw [TransactionAccounts.accountKey, hindex, hold, Option.map_some,
        Option.some.injEq] at hkey
      exact hforeign (hkey.symm.trans hsysvar)
    · rw [if_neg hindex] at hnew
      subst hnew
      exact haccounts _ (List.mem_of_getElem? hold) hsysvar
  · rw [accountKeys_save, hkeys]

/-- A setter that does nothing. -/
theorem unchanged_twins (hb : b.Foreign programKey keys data)
    (haccounts : accounts.Foreign programKey data) (hkeys : accounts.accountKeys = keys) :
    UpdatedTwins programKey keys data b (b, accounts)
      (b.withSysvarData data, accounts.withSysvarData data) :=
  ⟨rfl, rfl, hb, haccounts, hkeys, rfl⟩

/-- An account that is owned by the program is not the sysvar. -/
theorem Foreign.key_ne (h : b.Foreign programKey keys data)
    (howned : b.isOwnedByCurrentProgram = true) : b.key ≠ instructionsSysvarId := by
  intro hkey
  rw [h.not_owned hkey] at howned
  cases howned

theorem Foreign.key_ne_of_change (h : b.Foreign programKey keys data)
    (hchange : b.canDataBeChanged = .ok ()) : b.key ≠ instructionsSysvarId := by
  unfold canDataBeChanged at hchange
  split at hchange
  · cases hchange
  · split at hchange
    · cases hchange
    · rename_i howned
      exact h.key_ne (by simpa using howned)

theorem Foreign.canDataBeResized_eq (h : b.Foreign programKey keys data)
    (accounts : TransactionAccounts) (newLen : Nat) :
    (b.withSysvarData data).canDataBeResized (accounts.withSysvarData data) newLen =
      b.canDataBeResized accounts newLen := by
  unfold canDataBeResized
  rw [h.length, withSysvarData_isOwnedByCurrentProgram, withSysvarData_canDataBeChanged]
  rfl

/-- If the setter is about to write data, the account is not the sysvar. -/
theorem saveData_twins (hb : b.Foreign programKey keys data)
    (haccounts : accounts.Foreign programKey data) (hkeys : accounts.accountKeys = keys)
    (hchange : b.canDataBeChanged = .ok ()) (newData : List UInt8) :
    UpdatedTwins programKey keys data b (b.save accounts { b.account with data := newData })
      ((b.withSysvarData data).save (accounts.withSysvarData data)
        { (b.withSysvarData data).account with data := newData }) := by
  have hne := hb.key_ne_of_change hchange
  have htwins := save_twins hb haccounts hkeys { b.account with data := newData }
    fun hkey => (hne hkey).elim
  rw [replaceSysvarData_of_ne data _ hne] at htwins
  rwa [show (b.withSysvarData data).account = b.account from
    replaceSysvarData_of_ne data b.account hne]

section Setters

variable (hb : b.Foreign programKey keys data) (haccounts : accounts.Foreign programKey data)
  (hkeys : accounts.accountKeys = keys)

include hb haccounts hkeys

/-- Who does not own the account fails before the data is looked at. -/
theorem setOwner_twins (pubkey : Pubkey) :
    EffectTree.Agree (UpdatedTwins programKey keys data b) (b.setOwner accounts pubkey)
      ((b.withSysvarData data).setOwner (accounts.withSysvarData data) pubkey) := by
  by_cases howned : b.isOwnedByCurrentProgram = true
  · have hne := hb.key_ne howned
    have htwins := save_twins hb haccounts hkeys { b.account with owner := pubkey }
      fun hkey => (hne hkey).elim
    have hsame := unchanged_twins hb haccounts hkeys
    rw [replaceSysvarData_of_ne data _ hne] at htwins
    rw [b.withSysvarData_of_ne data hne] at htwins hsame ⊢
    unfold setOwner
    split
    · rfl
    · split
      · rfl
      · split
        · rfl
        · split
          · exact hsame
          · exact htwins
  · unfold setOwner
    rw [withSysvarData_isOwnedByCurrentProgram]
    simp [howned, EffectTree.Agree]

theorem setLamports_twins (lamports : U64) :
    EffectTree.Agree (UpdatedTwins programKey keys data b) (b.setLamports accounts lamports)
      ((b.withSysvarData data).setLamports (accounts.withSysvarData data) lamports) := by
  unfold setLamports
  rw [withSysvarData_isOwnedByCurrentProgram, withSysvarData_getLamports, withSysvarData_isWritable]
  dsimp only
  split
  · rfl
  · split
    · rfl
    · split
      · exact unchanged_twins hb haccounts hkeys
      · have hdelta : (accounts.withSysvarData data).lamportsDelta = accounts.lamportsDelta := rfl
        unfold TransactionAccounts.addLamportsDelta
        rw [hdelta]
        split
        · have hsaved : { (b.withSysvarData data).account with lamports } =
              replaceSysvarData data b.key { b.account with lamports } := by
            unfold withSysvarData replaceSysvarData
            split <;> rfl
          have hpaid : ({ accounts with lamportsDelta := accounts.lamportsDelta +
              (lamports.toNat - b.getLamports.toNat) } : TransactionAccounts).Foreign programKey
                data := haccounts
          have htwins := save_twins hb hpaid hkeys { b.account with lamports } hb.foreign
          rw [← hsaved] at htwins
          exact htwins
        · rfl

theorem setDataFromSlice_twins (newData : List UInt8) :
    EffectTree.Agree (UpdatedTwins programKey keys data b) (b.setDataFromSlice accounts newData)
      ((b.withSysvarData data).setDataFromSlice (accounts.withSysvarData data) newData) := by
  unfold setDataFromSlice
  rw [hb.canDataBeResized_eq, hb.length]
  cases hresize : b.canDataBeResized accounts newData.length with
  | error err => rfl
  | ok _ =>
      have hchange := (canDataBeResized_ok hresize).2
      have hresized : (accounts.updateAccountsResizeDelta b.getData.length
          newData.length).Foreign programKey data := haccounts
      exact saveData_twins hb hresized hkeys hchange newData

theorem setDataLength_twins (newLength : Nat) :
    EffectTree.Agree (UpdatedTwins programKey keys data b) (b.setDataLength accounts newLength)
      ((b.withSysvarData data).setDataLength (accounts.withSysvarData data) newLength) := by
  unfold setDataLength
  rw [hb.canDataBeResized_eq, hb.length]
  cases hresize : b.canDataBeResized accounts newLength with
  | error err => rfl
  | ok _ =>
      have hchange := (canDataBeResized_ok hresize).2
      have hne := hb.key_ne_of_change hchange
      dsimp only [Bind.bind, Except.bind]
      split
      · exact unchanged_twins hb haccounts hkeys
      · rw [show (b.withSysvarData data).getData = b.getData by
          rw [b.withSysvarData_of_ne data hne]]
        have hresized : (accounts.updateAccountsResizeDelta b.getData.length
            newLength).Foreign programKey data := haccounts
        exact saveData_twins hb hresized hkeys hchange _

end Setters

end Saving

end BorrowedInstructionAccount

end Context

/-! ## The invoke context -/

namespace ProgramRuntime

open Lib Sbpf Sdk Context

def InvokeContext.withSysvarData (c : InvokeContext) (data : List UInt8) : InvokeContext :=
  { c with transactionContext := c.transactionContext.withSysvarData data }

section Invoke

variable (c : InvokeContext) (data : List UInt8)

theorem withSysvarData_getCheckAligned :
    (c.withSysvarData data).getCheckAligned = c.getCheckAligned := by
  have hcurrent : (c.withSysvarData data).transactionContext.getCurrentInstructionContext =
      c.transactionContext.getCurrentInstructionContext.map fun ic => ic.withSysvarData data :=
    c.transactionContext.withSysvarData_getCurrentInstructionContext data
  unfold InvokeContext.getCheckAligned
  rw [hcurrent]
  cases c.transactionContext.getCurrentInstructionContext with
  | error err => rfl
  | ok ic =>
      have howner := ic.withSysvarData_getProgramOwner data
      simp only [Except.map, Bind.bind, Except.bind, howner]

theorem addMeta_withSysvarData (tx : TransactionContext) :
    CalleeAccounts.addMeta (tx.withSysvarData data) = CalleeAccounts.addMeta tx := by
  funext callee accountMeta
  unfold CalleeAccounts.addMeta
  rw [tx.withSysvarData_findIndexOfAccount data]

theorem checkPrivileges_withSysvarData (caller : InstructionContext) :
    checkPrivileges (caller.withSysvarData data) = checkPrivileges caller :=
  rfl

theorem agree_lift {ε α β : Type} {V : α → β → Prop} {x : Except ε α} {y : Except ε β}
    (h : EffectTree.Agree V x y) :
    EffectTree.Agree V (Outcome.lift x : Outcome ε α) (Outcome.lift y) := by
  cases x <;> cases y
  · exact congrArg Fault.err h
  · exact h
  · exact h
  · exact h

theorem getCurrentInstructionContext_twins (tx : TransactionContext) :
    EffectTree.Agree (fun ic ic' => ic' = ic.withSysvarData data ∧
        tx.getCurrentInstructionContext = .ok ic)
      tx.getCurrentInstructionContext (tx.withSysvarData data).getCurrentInstructionContext := by
  rw [tx.withSysvarData_getCurrentInstructionContext data]
  exact EffectTree.agree_map fun ic hic => ⟨rfl, hic⟩

/-- Preparing an instruction does not depend on the data of accounts. -/
theorem prepareNextInstruction_twins (instruction : Instruction) (signers : List Pubkey) :
    EffectTree.Agree (fun c' c'' => c'' = c'.withSysvarData data)
      (c.prepareNextInstruction instruction signers)
      ((c.withSysvarData data).prepareNextInstruction instruction signers) := by
  have hself : ∀ {α : Type} (x : Outcome InstructionError α), EffectTree.Agree Eq x x :=
    fun x => EffectTree.agree_self fun _ _ => rfl
  have hfind := c.transactionContext.withSysvarData_findIndexOfAccount data instruction.programId
  unfold InvokeContext.prepareNextInstruction
  refine (agree_lift (getCurrentInstructionContext_twins data c.transactionContext)).bind ?_
  rintro caller _ ⟨rfl, -⟩
  simp only [InvokeContext.withSysvarData, addMeta_withSysvarData, checkPrivileges_withSysvarData,
    hfind]
  refine (hself _).bind ?_
  rintro callee _ rfl
  refine (hself _).bind ?_
  rintro accounts _ rfl
  refine (hself _).bind ?_
  rintro programIndex _ rfl
  have hindex : (caller.withSysvarData data).getIndexOfAccountInInstruction programIndex =
      caller.getIndexOfAccountInInstruction programIndex := rfl
  rw [hindex]
  cases caller.getIndexOfAccountInInstruction programIndex with
  | error err => rfl
  | ok _ =>
      refine (hself _).bind ?_
      rintro callerIndex _ rfl
      rw [c.transactionContext.withSysvarData_configureNextInstruction data]
      refine (agree_lift (EffectTree.agree_map (V := fun tx tx' => tx' = tx.withSysvarData data)
        fun _ _ => rfl)).bind ?_
      rintro tx _ rfl
      exact rfl

end Invoke

end ProgramRuntime
end Gobble
