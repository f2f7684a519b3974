import Gobble.Lib.Outcome
import Mathlib.Tactic.Common

/-!
# EffectTree — programs as trees over an interface of operations

A value of `EffectTree Op Ret α` is a program that performs operations `op : Op`, each answered by
a value of `Ret op`, and finally returns a value of `α`.  The tree says nothing about what the
operations do; a `Handler` gives them a meaning on a state type `σ`.

The point of the separation is the **simulation rule** `run_simulation`: two runs of the *same* tree,
possibly under two handlers, stay related as long as every operation the first run performs is
answered alike in related states.  The rule is proved once, by induction on the tree, whatever the
program is.
-/

namespace Gobble
namespace Lib

inductive EffectTree (Op : Type) (Ret : Op → Type) (α : Type) where
  | pure (a : α)
  | perform (op : Op) (k : Ret op → EffectTree Op Ret α)

namespace EffectTree

variable {Op : Type} {Ret : Op → Type} {α β σ : Type}

/-- Sequencing: graft `f a` at every leaf `a`. -/
def bind : EffectTree Op Ret α → (α → EffectTree Op Ret β) → EffectTree Op Ret β
  | pure a, f => f a
  | perform op k, f => perform op fun r => (k r).bind f

/-- The program that performs one operation and returns its answer. -/
def call (op : Op) : EffectTree Op Ret (Ret op) :=
  perform op pure

instance : Monad (EffectTree Op Ret) where
  pure := pure
  bind := bind

@[simp] theorem pure_bind (a : α) (f : α → EffectTree Op Ret β) :
    (pure a : EffectTree Op Ret α).bind f = f a :=
  rfl

@[simp] theorem perform_bind (op : Op) (k : Ret op → EffectTree Op Ret α)
    (f : α → EffectTree Op Ret β) :
    (perform op k).bind f = perform op fun r => (k r).bind f :=
  rfl

theorem bind_pure (t : EffectTree Op Ret α) : t.bind pure = t := by
  induction t with
  | pure a => rfl
  | perform op k ih => exact congrArg (perform op) (funext ih)

theorem bind_assoc {γ : Type} (t : EffectTree Op Ret α) (f : α → EffectTree Op Ret β)
    (g : β → EffectTree Op Ret γ) : (t.bind f).bind g = t.bind fun a => (f a).bind g := by
  induction t with
  | pure a => rfl
  | perform op k ih => exact congrArg (perform op) (funext ih)

instance : LawfulMonad (EffectTree Op Ret) :=
  LawfulMonad.mk' _ bind_pure (fun _ _ => rfl) bind_assoc

/-! ## Running a tree -/

/-- A meaning for every operation on a state type. -/
abbrev Handler (Op : Type) (Ret : Op → Type) (σ : Type) : Type :=
  (op : Op) → σ → Ret op × σ

def run (h : Handler Op Ret σ) : EffectTree Op Ret α → σ → α × σ
  | pure a, s => (a, s)
  | perform op k, s => run h (k (h op s).1) (h op s).2

@[simp] theorem run_pure (h : Handler Op Ret σ) (a : α) (s : σ) :
    run h (pure a) s = (a, s) :=
  rfl

@[simp] theorem run_perform (h : Handler Op Ret σ) (op : Op) (k : Ret op → EffectTree Op Ret α)
    (s : σ) : run h (perform op k) s = run h (k (h op s).1) (h op s).2 :=
  rfl

@[simp] theorem run_bind (h : Handler Op Ret σ) (t : EffectTree Op Ret α)
    (f : α → EffectTree Op Ret β) (s : σ) :
    run h (t.bind f) s = run h (f (run h t s).1) (run h t s).2 := by
  induction t generalizing s with
  | pure a => rfl
  | perform op k ih => exact ih _ _

/-- The same program over a larger interface. -/
def embed {Op' : Type} {Ret' : Op' → Type} (f : Op → Op') (answer : ∀ op, Ret' (f op) → Ret op) :
    EffectTree Op Ret α → EffectTree Op' Ret' α
  | pure a => pure a
  | perform op k => perform (f op) fun r => (k (answer op r)).embed f answer

/-- The embedded program runs on a part of the larger state, if its operations do. -/
theorem run_embed {Op' : Type} {Ret' : Op' → Type} {τ : Type} {f : Op → Op'}
    {answer : ∀ op, Ret' (f op) → Ret op} {h : Handler Op Ret σ} {h' : Handler Op' Ret' τ}
    (get : τ → σ) (put : σ → τ → τ) (hget : ∀ s t, get (put s t) = s)
    (hput : ∀ s s' t, put s (put s' t) = put s t) (hself : ∀ t, put (get t) t = t)
    (hstep : ∀ op t, (answer op (h' (f op) t).1, (h' (f op) t).2) =
      ((h op (get t)).1, put (h op (get t)).2 t))
    (p : EffectTree Op Ret α) (t : τ) :
    run h' (p.embed f answer) t = ((run h p (get t)).1, put (run h p (get t)).2 t) := by
  induction p generalizing t with
  | pure a => rw [embed, run_pure, run_pure, hself]
  | perform op k ih =>
      obtain ⟨hanswer, hstate⟩ := Prod.mk.inj (hstep op t)
      rw [embed, run_perform, run_perform, hanswer, ih, hstate, hget, hput]

/-! ## Properties of the operations of a run -/

/-- `P op s` holds for every operation `op` that the run from `s` performs, at the state `s` it is
performed in. -/
def Along (h : Handler Op Ret σ) (P : Op → σ → Prop) : EffectTree Op Ret α → σ → Prop
  | pure _, _ => True
  | perform op k, s => P op s ∧ Along h P (k (h op s).1) (h op s).2

variable {h : Handler Op Ret σ} {P Q : Op → σ → Prop}

@[simp] theorem along_pure (a : α) (s : σ) :
    Along h P (pure a : EffectTree Op Ret α) s ↔ True :=
  Iff.rfl

@[simp] theorem along_perform (op : Op) (k : Ret op → EffectTree Op Ret α) (s : σ) :
    Along h P (perform op k) s ↔ P op s ∧ Along h P (k (h op s).1) (h op s).2 :=
  Iff.rfl

theorem along_bind (t : EffectTree Op Ret α) (f : α → EffectTree Op Ret β) (s : σ) :
    Along h P (t.bind f) s ↔ Along h P t s ∧ Along h P (f (run h t s).1) (run h t s).2 := by
  induction t generalizing s with
  | pure a => simp
  | perform op k ih =>
      simp only [perform_bind, along_perform, run_perform, ih, and_assoc]

theorem along_and (t : EffectTree Op Ret α) (s : σ) :
    Along h (fun op s => P op s ∧ Q op s) t s ↔ Along h P t s ∧ Along h Q t s := by
  induction t generalizing s with
  | pure a => simp
  | perform op k ih =>
      simp only [along_perform, ih]
      constructor
      · rintro ⟨⟨hp, hq⟩, hps, hqs⟩
        exact ⟨⟨hp, hps⟩, hq, hqs⟩
      · rintro ⟨⟨hp, hps⟩, hq, hqs⟩
        exact ⟨⟨hp, hq⟩, hps, hqs⟩

/-- A property that every operation preserves holds at the end of a run. -/
theorem run_invariant {I : σ → Prop} (hstep : ∀ op s, I s → I (h op s).2)
    (t : EffectTree Op Ret α) (s : σ) (hs : I s) : I (run h t s).2 := by
  induction t generalizing s with
  | pure a => exact hs
  | perform op k ih => exact ih _ _ (hstep op s hs)

/-! ## Programs with errors -/

/-- The run from `s` returns `a` without an error, ends in `s'`, and performs only operations that
`P` allows. -/
structure Succeeds {ε : Type} (h : Handler Op Ret σ) (P : Op → σ → Prop)
    (t : ExceptT ε (EffectTree Op Ret) α) (s : σ) (a : α) (s' : σ) : Prop where
  run_eq : run h t.run s = (.ok a, s')
  along : Along h P t.run s

section Succeeds

variable {ε : Type} {s s' s'' : σ} {a : α} {b : β}

theorem succeeds_pure (a : α) (s : σ) :
    Succeeds h P (Pure.pure a : ExceptT ε (EffectTree Op Ret) α) s a s :=
  ⟨rfl, trivial⟩

theorem Succeeds.bind {t : ExceptT ε (EffectTree Op Ret) α}
    {f : α → ExceptT ε (EffectTree Op Ret) β} (ht : Succeeds h P t s a s')
    (hf : Succeeds h P (f a) s' b s'') : Succeeds h P (t >>= f) s b s'' := by
  have hbind : (t >>= f).run = t.run.bind (fun r => ExceptT.bindCont f r) := rfl
  constructor
  · rw [hbind, run_bind, ht.run_eq]
    exact hf.run_eq
  · rw [hbind, along_bind, ht.run_eq]
    exact ⟨ht.along, hf.along⟩

end Succeeds

/-- If the program returns without an error, `R` relates the state before it to the state after it. -/
def Ensures {ε : Type} (h : Handler Op Ret σ) (R : σ → σ → Prop)
    (t : ExceptT ε (EffectTree Op Ret) α) : Prop :=
  ∀ s a s', run h t.run s = (.ok a, s') → R s s'

section Ensures

variable {ε γ : Type} {R S T : σ → σ → Prop}

theorem ensures_pure (hrefl : ∀ s, R s s) (a : α) :
    Ensures h R (Pure.pure a : ExceptT ε (EffectTree Op Ret) α) := by
  intro s b s' hrun
  cases hrun
  exact hrefl s

theorem ensures_throw (e : ε) : Ensures h R (throw e : ExceptT ε (EffectTree Op Ret) α) := by
  intro s b s' hrun
  cases hrun

theorem Ensures.bind {t : ExceptT ε (EffectTree Op Ret) α}
    {f : α → ExceptT ε (EffectTree Op Ret) β} (ht : Ensures h R t) (hf : ∀ a, Ensures h S (f a))
    (htrans : ∀ {s s' s''}, R s s' → S s' s'' → T s s'') : Ensures h T (t >>= f) := by
  intro s b s'' hrun
  have hbind : (t >>= f).run = t.run.bind (fun r => ExceptT.bindCont f r) := rfl
  rw [hbind, run_bind] at hrun
  cases hfirst : run h t.run s with
  | mk result s' =>
      rw [hfirst] at hrun
      cases result with
      | error e => cases hrun
      | ok a => exact htrans (ht s a s' hfirst) (hf a s' b s'' hrun)

/-- A loop over a list, with a relation that depends on the part of the list that is done. -/
theorem ensures_foldlM {R : List γ → σ → σ → Prop} (hnil : ∀ s, R [] s s)
    (hcons : ∀ {x xs s s' s''}, R [x] s s' → R xs s' s'' → R (x :: xs) s s'')
    {f : β → γ → ExceptT ε (EffectTree Op Ret) β} {xs : List γ}
    (hf : ∀ acc, ∀ x ∈ xs, Ensures h (R [x]) (f acc x)) (acc : β) :
    Ensures h (R xs) (xs.foldlM f acc) := by
  induction xs generalizing acc with
  | nil => exact ensures_pure hnil acc
  | cons x xs ih =>
      rw [List.foldlM_cons]
      refine (hf acc x List.mem_cons_self).bind (fun acc' => ih (fun acc y hy => ?_) acc') hcons
      exact hf acc y (List.mem_cons_of_mem _ hy)

end Ensures

/-! ## Counting what a run does -/

section Measure

variable (μ : σ → Nat)

/-- A measure no operation lowers is not lowered by a run. -/
theorem run_mono (hmono : ∀ op s, μ s ≤ μ (h op s).2) (t : EffectTree Op Ret α) (s : σ) :
    μ s ≤ μ (run h t s).2 := by
  induction t generalizing s with
  | pure a => exact Nat.le_refl _
  | perform op k ih => exact Nat.le_trans (hmono op s) (ih _ _)

/-- If a run ends below a bound of such a measure, every operation of the run stays below it. -/
theorem along_of_run_le (hmono : ∀ op s, μ s ≤ μ (h op s).2) {b : Nat}
    (t : EffectTree Op Ret α) (s : σ) (hrun : μ (run h t s).2 ≤ b) :
    Along h (fun op s => μ (h op s).2 ≤ b) t s := by
  induction t generalizing s with
  | pure a => trivial
  | perform op k ih =>
      refine ⟨Nat.le_trans ?_ hrun, ih _ _ hrun⟩
      exact run_mono μ hmono (k (h op s).1) (h op s).2

/-- If a run leaves a measure unchanged that no operation lowers, then every single operation of
the run left it unchanged. -/
theorem along_of_run_eq (hmono : ∀ op s, μ s ≤ μ (h op s).2) (t : EffectTree Op Ret α) (s : σ)
    (hrun : μ (run h t s).2 = μ s) : Along h (fun op s => μ (h op s).2 = μ s) t s := by
  induction t generalizing s with
  | pure a => trivial
  | perform op k ih =>
      have hop : μ s ≤ μ (h op s).2 := hmono op s
      have hrest : μ (h op s).2 ≤ μ (run h (k (h op s).1) (h op s).2).2 :=
        run_mono μ hmono (k (h op s).1) (h op s).2
      have hrun' : μ (run h (k (h op s).1) (h op s).2).2 = μ s := hrun
      have hkeep : μ (h op s).2 = μ s := by omega
      refine ⟨hkeep, ih _ _ ?_⟩
      rw [hrun', hkeep]

end Measure

/-! ## Operations that can abort -/

section Exec

variable {ε : Type}

/-- A meaning for every operation that may abort the run for a reason in `ε`. -/
abbrev AbortingHandler (Op : Type) (Ret : Op → Type) (ε σ : Type) : Type :=
  (op : Op) → σ → Except ε (Ret op × σ)

def exec (h : AbortingHandler Op Ret ε σ) : EffectTree Op Ret α → σ → Except ε (α × σ)
  | pure a, s => .ok (a, s)
  | perform op k, s =>
      match h op s with
      | .ok (r, s') => exec h (k r) s'
      | .error e => .error e

/-- The rule for runs that can abort: what every operation keeps holds at the end, and a run aborts
only for a reason that some operation has in a state where the invariant holds. -/
theorem exec_ends {h : AbortingHandler Op Ret ε σ} {I : σ → Prop} {E : ε → Prop}
    (hstep : ∀ op s, I s → Ends (fun r => I r.2) E (h op s)) (t : EffectTree Op Ret α) (s : σ)
    (hs : I s) : Ends (fun r => I r.2) E (exec h t s) := by
  induction t generalizing s with
  | pure a => exact hs
  | perform op k ih =>
      have hop := hstep op s hs
      unfold exec
      cases heq : h op s with
      | error e =>
          rw [heq] at hop
          exact hop
      | ok r =>
          rw [heq] at hop
          exact ih r.1 r.2 hop

end Exec

/-! ## Two runs -/

/-- The simulation rule.  Two handlers give the operations a meaning on two state types, and `R`
relates the states.  If every operation that the first run performs is answered alike in `R`-related
states and keeps them related, then both runs return the same value in related states. -/
theorem run_simulation {τ : Type} {g : Handler Op Ret τ} {R : σ → τ → Prop}
    (hstep : ∀ op s t, R s t → P op s → (h op s).1 = (g op t).1 ∧ R (h op s).2 (g op t).2)
    (tree : EffectTree Op Ret α) (s : σ) (t : τ) (hR : R s t) (halong : Along h P tree s) :
    (run h tree s).1 = (run g tree t).1 ∧ R (run h tree s).2 (run g tree t).2 := by
  induction tree generalizing s t with
  | pure a => exact ⟨rfl, hR⟩
  | perform op k ih =>
      rcases halong with ⟨hop, hrest⟩
      rcases hstep op s t hR hop with ⟨hret, hR'⟩
      -- Both runs continue with the same subtree because the answers agree.
      have := ih (h op s).1 (h op s).2 (g op t).2 hR' hrest
      simpa only [run_perform, ← hret] using this

/-- The two-run rule: the simulation rule for two runs under one handler. -/
theorem run_related {R : σ → σ → Prop}
    (hstep : ∀ op s₁ s₂, R s₁ s₂ → P op s₁ →
      (h op s₁).1 = (h op s₂).1 ∧ R (h op s₁).2 (h op s₂).2)
    (t : EffectTree Op Ret α) (s₁ s₂ : σ) (hR : R s₁ s₂) (halong : Along h P t s₁) :
    (run h t s₁).1 = (run h t s₂).1 ∧ R (run h t s₁).2 (run h t s₂).2 :=
  run_simulation hstep t s₁ s₂ hR halong

end EffectTree

end Lib
end Gobble
