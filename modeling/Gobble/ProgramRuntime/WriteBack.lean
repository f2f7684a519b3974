import Gobble.Context.AccountRules
import Gobble.Lib.Guarantee
import Gobble.ProgramRuntime.GuardedCode

/-!
# WriteBack — the rules for accounts hold whatever a program wrote

After a program has ended, the accounts of its instruction are updated from its memory.  The memory can
hold anything.  `deserialize_parameters` calls the setters of borrowed accounts, so what it does to the
accounts is an edit under the authority of the instruction, whether it succeeds or stops at an error.
-/

namespace Gobble
namespace Context

open Lib Sbpf Sdk

/-- The authority of an instruction. -/
def InstructionContext.authority (ic : InstructionContext) : Authority :=
  ⟨ic.instructionAccounts, ic.transactionContext.accounts.accountKey ic.programAccountIndexInTx⟩

/-- Code that acts for the instruction edits accounts under its authority. -/
def Authority.guarantee (a : Authority) : Guarantee TransactionAccounts :=
  ⟨a.Edits, .refl a, .trans⟩

/-- A borrow of an account as it is, on behalf of the instruction. -/
structure Authority.Borrows (a : Authority) (b : BorrowedInstructionAccount)
    (t : TransactionAccounts) : Prop where
  holds : a.Holds b
  isOf : b.IsOf t

/-- A setter that is called with a borrow. -/
theorem Authority.Borrows.apply {a : Authority} {b b' : BorrowedInstructionAccount}
    {t t' : TransactionAccounts} (h : a.Borrows b t) {change : AccountChange}
    (happly : change.apply b t = .ok (b', t')) : a.Edits t t' ∧ a.Borrows b' t' := by
  have hobeys := AccountChange.apply_obeys h.isOf happly
  refine ⟨Edit.edits ⟨b, b', h.holds, h.isOf, hobeys⟩, ⟨?_, ?_⟩, hobeys.isOf h.isOf⟩
  · rw [hobeys.borrow]
    exact h.holds.account
  · rw [hobeys.borrow]
    exact h.holds.program

end Context

namespace ProgramRuntime

open Lib Sbpf Sdk Context DeserializeM

/-! ## Edits of a computation -/

/-- The computation edits the accounts under the authority, and what it returns is in `Q`. -/
abbrev DeserializeM.Runs {α : Type} (a : Authority) (m : DeserializeM α) (t : TransactionAccounts)
    (Q : α → TransactionAccounts → Prop) : Prop :=
  Ran a.guarantee t Q (m.run.run t)

namespace DeserializeM

variable {α β : Type} {a : Authority} {t : TransactionAccounts}
  {Q : α → TransactionAccounts → Prop}

theorem runs_pure {x : α} (h : Q x t) : Runs a (pure x) t Q :=
  ran_ok h

theorem runs_throw (err : InstructionError) : Runs a (throw err) t Q :=
  ran_error err

theorem runs_get {Q : TransactionAccounts → TransactionAccounts → Prop} (h : Q t t) :
    Runs a get t Q :=
  ran_ok h

theorem runs_bind {m : DeserializeM α} {f : α → DeserializeM β}
    {R : β → TransactionAccounts → Prop} (hm : Runs a m t Q)
    (hf : ∀ x t', a.Edits t t' → Q x t' → Runs a (f x) t' R) : Runs a (m >>= f) t R := by
  have hrun : (m >>= f).run.run t = continueWith (m.run.run t) fun x t' => (f x).run.run t' := by
    have hcont : (m >>= f).run.run t =
        (ExceptT.bindCont f (m.run.run t).1).run (m.run.run t).2 := rfl
    rw [hcont]
    unfold continueWith
    cases (m.run.run t).1 with
    | ok x => rfl
    | error err => rfl
  unfold Runs
  rw [hrun]
  exact Ran.continueWith hm hf

theorem runs_lift {x : Except InstructionError α} (h : ∀ y, x = .ok y → Q y t) :
    Runs a (lift x) t Q := by
  cases x with
  | ok y => exact runs_pure (h y rfl)
  | error err => exact runs_throw err

/-- Reading the buffer leaves the accounts alone. -/
theorem runs_getBytes (buffer : List UInt8) (start len : Nat) :
    Runs a (getBytes buffer start len) t fun _ t' => t' = t := by
  unfold getBytes
  split
  · exact runs_pure rfl
  · exact runs_throw _

theorem runs_getU64 (buffer : List UInt8) (start : Nat) :
    Runs a (getU64 buffer start) t fun _ t' => t' = t :=
  runs_bind (runs_getBytes buffer start 8) fun _ _ _ h => runs_pure h

theorem runs_borrow {ic : InstructionContext} (hkeys : t.accountKeys =
      ic.transactionContext.accounts.accountKeys) (index : IndexOfAccount) :
    Runs ic.authority (borrow ic index) t ic.authority.Borrows := by
  refine runs_bind (runs_get (Q := fun accounts t' => accounts = t ∧ t' = t) ⟨rfl, rfl⟩) ?_
  rintro accounts t' - ⟨rfl, rfl⟩
  refine runs_lift fun b hb => ?_
  obtain ⟨hmem, hprogram, hof⟩ := tryBorrowInstructionAccount_ok hb
  refine ⟨⟨hmem, ?_⟩, hof⟩
  rw [hprogram]
  simp only [InstructionContext.authority, TransactionAccounts.accountKey_eq_getElem?, hkeys]

/-- Calling a setter. -/
theorem runs_update {b : BorrowedInstructionAccount} (h : a.Borrows b t) (change : AccountChange) :
    Runs a (update fun accounts => change.apply b accounts) t a.Borrows := by
  have hrun : (update fun accounts => change.apply b accounts).run.run t =
      ((lift (change.apply b t) : DeserializeM _) >>= fun r => do
        set r.2
        return r.1).run.run t := rfl
  cases happly : change.apply b t with
  | error err =>
      rw [happly] at hrun
      exact ⟨by rw [hrun]; exact .refl a t, fun x hx => by rw [hrun] at hx; cases hx⟩
  | ok r =>
      obtain ⟨b', t'⟩ := r
      obtain ⟨hedits, hborrows⟩ := h.apply happly
      rw [happly] at hrun
      refine ⟨by rw [hrun]; exact hedits, fun x hx => ?_⟩
      rw [hrun] at hx ⊢
      cases hx
      exact hborrows

theorem runs_foldlM {ι : Type} {f : β → ι → DeserializeM β}
    (hf : ∀ b i t', a.Edits t t' → Runs a (f b i) t' fun _ _ => True) (entries : List ι) (b : β) :
    Runs a (entries.foldlM f b) t fun _ _ => True := by
  induction entries generalizing b t with
  | nil => exact runs_pure trivial
  | cons entry rest ih =>
      refine runs_bind (hf b entry t (.refl a t)) fun b' t' hedits _ => ?_
      exact ih (fun b i t'' hedits' => hf b i t'' (hedits.trans hedits')) b'

end DeserializeM

/-! ## Deserialization -/

section Deserialization

variable {a : Authority} {t : TransactionAccounts} {b : BorrowedInstructionAccount}

theorem deserializeData_runs (h : a.Borrows b t) (mode : MappingMode) (buffer : List UInt8)
    (start len : Nat) : Runs a (deserializeData mode buffer start len b) t a.Borrows := by
  unfold deserializeData
  split
  · refine runs_bind (runs_getBytes buffer start len) ?_
    rintro data _ - rfl
    refine runs_bind (runs_get (Q := fun accounts t' => t' = _) rfl) ?_
    rintro accounts _ - rfl
    split
    · exact runs_update h (.data data)
    · split
      · exact runs_throw _
      · exact runs_pure h
  · split
    · refine runs_bind (runs_getBytes buffer start len) ?_
      rintro data _ - rfl
      exact runs_update h (.data data)
    · split
      · exact runs_update h (.dataLength len)
      · exact runs_pure h

theorem deserializeLamports_runs (h : a.Borrows b t) (buffer : List UInt8) (start : Nat) :
    Runs a (deserializeLamports buffer start b) t a.Borrows := by
  refine runs_bind (runs_getU64 buffer start) ?_
  rintro lamports _ - rfl
  split
  · exact runs_update h (.lamports lamports)
  · exact runs_pure h

variable {ic : InstructionContext}

theorem deserializeAccountUnaligned_runs
    (hkeys : t.accountKeys = ic.transactionContext.accounts.accountKeys) (mode : MappingMode)
    (buffer : List UInt8) (start : Nat) (account : IndexOfAccount × Nat) :
    Runs ic.authority (deserializeAccountUnaligned ic mode buffer start account) t
      fun _ _ => True := by
  refine runs_bind (runs_lift (Q := fun _ t' => t' = t) fun _ _ => rfl) ?_
  rintro duplicate _ - rfl
  cases duplicate with
  | some _ => exact runs_pure trivial
  | none =>
      refine runs_bind (runs_borrow hkeys account.1) fun b t₁ _ hb => ?_
      refine runs_bind (deserializeLamports_runs hb ..) fun b t₂ _ hb => ?_
      exact runs_bind (deserializeData_runs hb ..) fun b t₃ _ _ => runs_pure trivial

theorem deserializeAccountAligned_runs
    (hkeys : t.accountKeys = ic.transactionContext.accounts.accountKeys) (mode : MappingMode)
    (buffer : List UInt8) (start : Nat) (account : IndexOfAccount × Nat) :
    Runs ic.authority (deserializeAccountAligned ic mode buffer start account) t
      fun _ _ => True := by
  refine runs_bind (runs_lift (Q := fun _ t' => t' = t) fun _ _ => rfl) ?_
  rintro duplicate _ - rfl
  cases duplicate with
  | some _ => exact runs_pure trivial
  | none =>
      refine runs_bind (runs_borrow hkeys account.1) fun b t₁ _ hb => ?_
      refine runs_bind (runs_getBytes ..) ?_
      rintro ownerBytes _ - rfl
      refine runs_bind (deserializeLamports_runs hb ..) fun b t₂ _ hb => ?_
      refine runs_bind (runs_getU64 ..) ?_
      rintro postLen t₃ - rfl
      dsimp only
      split
      · exact runs_bind (runs_throw (Q := fun _ _ => False) _) fun _ _ _ h => h.elim
      · refine runs_bind (deserializeData_runs hb ..) fun b t₄ _ hb => ?_
        split
        · exact runs_bind (runs_update hb (.owner _)) fun _ _ _ _ => runs_pure trivial
        · exact runs_pure trivial

/-- Whatever the buffer holds. -/
theorem deserializeParameters_runs
    (hkeys : t.accountKeys = ic.transactionContext.accounts.accountKeys) (mode : MappingMode)
    (buffer : List UInt8) (accountsMetadata : List SerializedAccountMetadata) :
    Runs ic.authority (deserializeParameters ic mode buffer accountsMetadata) t fun _ _ => True := by
  refine runs_bind (runs_lift (Q := fun _ t' => t' = t) fun _ _ => rfl) ?_
  rintro owner _ - rfl
  dsimp only
  split
  · exact runs_bind (runs_foldlM (fun start account t' hedits =>
      deserializeAccountUnaligned_runs (hedits.keys.trans hkeys) mode buffer start account) _ _)
        fun _ _ _ _ => runs_pure trivial
  · exact runs_bind (runs_foldlM (fun start account t' hedits =>
      deserializeAccountAligned_runs (hedits.keys.trans hkeys) mode buffer start account) _ _)
        fun _ _ _ _ => runs_pure trivial

end Deserialization

end ProgramRuntime
end Gobble
