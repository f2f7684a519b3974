import Gobble.Lib.EffectTree

/-!
# TwoRuns — comparing the runs of two programs with errors

`EffectTree.run_related` compares two runs of one tree, whose operations must be answered alike.
Often they are not: the states that are compared differ, and so does what is read from them.  Here
two programs are compared whose intermediate values are related, not equal.  The judgement
`TwoRuns V x y` says that `x` and `y`, started in related states, return related values or fail with
the same error, and leave related states, provided that the run of `x` does not raise a measure.

The rules follow the structure of programs: one for each construct, and the relation between the
states is the invariant of all of them.
-/

namespace Gobble
namespace Lib
namespace EffectTree

variable {Op : Type} {Ret : Op → Type} {α α' β β' σ ε : Type}

/-- Two results agree if they are related values or the same error. -/
def Agree (V : α → β → Prop) : Except ε α → Except ε β → Prop
  | .ok a, .ok b => V a b
  | .error e, .error e' => e = e'
  | _, _ => False

/-- If the run of `x` leaves the measure as it is, then the run of `y` from a related state agrees
with it. -/
def TwoRuns (h : Handler Op Ret σ) (μ : σ → Nat) (R : σ → σ → Prop) (V : α → β → Prop)
    (x : ExceptT ε (EffectTree Op Ret) α) (y : ExceptT ε (EffectTree Op Ret) β) : Prop :=
  ∀ s t, R s t → μ (run h x.run s).2 = μ s →
    Agree V (run h x.run s).1 (run h y.run t).1 ∧ R (run h x.run s).2 (run h y.run t).2

section Agree

variable {V : α → β → Prop} {V' : α' → β' → Prop}

theorem Agree.mono {V' : α → β → Prop} {x : Except ε α} {y : Except ε β} (hxy : Agree V x y)
    (hV : ∀ a b, V a b → V' a b) : Agree V' x y := by
  cases x <;> cases y
  · exact hxy
  · exact hxy
  · exact hxy
  · exact hV _ _ hxy

theorem Agree.bind {x : Except ε α} {y : Except ε β} {f : α → Except ε α'} {g : β → Except ε β'}
    (hxy : Agree V x y) (hfg : ∀ a b, V a b → Agree V' (f a) (g b)) :
    Agree V' (x >>= f) (y >>= g) := by
  cases x <;> cases y
  · exact hxy
  · exact hxy.elim
  · exact hxy.elim
  · exact hfg _ _ hxy

theorem Agree.post {P : α → Prop} {x : Except ε α} {y : Except ε β} (hxy : Agree V x y)
    (hP : ∀ a, x = .ok a → P a) : Agree (fun a b => V a b ∧ P a) x y := by
  cases x <;> cases y
  · exact hxy
  · exact hxy
  · exact hxy
  · exact ⟨hxy, hP _ rfl⟩

theorem Agree.mapError {δ : Type} {x : Except ε α} {y : Except ε β} (hxy : Agree V x y)
    (f : ε → δ) : Agree V (x.mapError f) (y.mapError f) := by
  cases x <;> cases y
  · exact congrArg f hxy
  · exact hxy
  · exact hxy
  · exact hxy

/-- Results that differ by a function on the values. -/
theorem agree_map {x : Except ε α} {f : α → β} (hV : ∀ a, x = .ok a → V a (f a)) :
    Agree V x (x.map f) := by
  cases x with
  | error e => rfl
  | ok a => exact hV a rfl

theorem agree_eq {x y : Except ε α} : Agree Eq x y ↔ x = y := by
  cases x <;> cases y <;> simp [Agree]

theorem agree_self {V : α → α → Prop} {x : Except ε α} (hV : ∀ a, x = .ok a → V a a) :
    Agree V x x := by
  cases x with
  | error e => rfl
  | ok a => exact hV a rfl

end Agree

section Rules

variable {h : Handler Op Ret σ} {μ : σ → Nat} {R : σ → σ → Prop} {V : α → β → Prop}
  {V' : α' → β' → Prop}

theorem TwoRuns.mono {V' : α → β → Prop} {x : ExceptT ε (EffectTree Op Ret) α}
    {y : ExceptT ε (EffectTree Op Ret) β} (hxy : TwoRuns h μ R V x y)
    (hV : ∀ a b, V a b → V' a b) : TwoRuns h μ R V' x y := by
  intro s t hR hquiet
  obtain ⟨hagree, hR'⟩ := hxy s t hR hquiet
  exact ⟨hagree.mono hV, hR'⟩

theorem TwoRuns.pure {a : α} {b : β} (hV : V a b) :
    TwoRuns h μ R V (Pure.pure a : ExceptT ε (EffectTree Op Ret) α) (Pure.pure b) :=
  fun _ _ hR _ => ⟨hV, hR⟩

theorem TwoRuns.throw (e : ε) :
    TwoRuns h μ R V (throw e : ExceptT ε (EffectTree Op Ret) α) (throw e) :=
  fun _ _ hR _ => ⟨rfl, hR⟩

/-- The rule for programs without errors. -/
theorem TwoRuns.lift {x : EffectTree Op Ret α} {y : EffectTree Op Ret β}
    (hxy : ∀ s t, R s t → μ (run h x s).2 = μ s →
      V (run h x s).1 (run h y t).1 ∧ R (run h x s).2 (run h y t).2) :
    TwoRuns h μ R V (ExceptT.lift x : ExceptT ε (EffectTree Op Ret) α) (ExceptT.lift y) := by
  have hlift : ∀ {γ : Type} (z : EffectTree Op Ret γ) (u : σ),
      run h (ExceptT.lift z : ExceptT ε (EffectTree Op Ret) γ).run u =
        (.ok (run h z u).1, (run h z u).2) :=
    fun z u => run_bind h z _ u
  intro s t hR hquiet
  rw [hlift] at hquiet ⊢
  rw [hlift]
  exact hxy s t hR hquiet

/-- What holds of the values of the first program in any run from a related state. -/
theorem TwoRuns.post {P : α → Prop} {x : ExceptT ε (EffectTree Op Ret) α}
    {y : ExceptT ε (EffectTree Op Ret) β} (hxy : TwoRuns h μ R V x y)
    (hP : ∀ s t, R s t → ∀ a, (run h x.run s).1 = .ok a → P a) :
    TwoRuns h μ R (fun a b => V a b ∧ P a) x y := by
  intro s t hR hquiet
  obtain ⟨hagree, hR'⟩ := hxy s t hR hquiet
  exact ⟨hagree.post (hP s t hR), hR'⟩

theorem TwoRuns.ite {c : Prop} [Decidable c] {x x' : ExceptT ε (EffectTree Op Ret) α}
    {y y' : ExceptT ε (EffectTree Op Ret) β} (hthen : c → TwoRuns h μ R V x y)
    (helse : ¬ c → TwoRuns h μ R V x' y') :
    TwoRuns h μ R V (if c then x else x') (if c then y else y') := by
  split
  · rename_i hc
    exact hthen hc
  · rename_i hc
    exact helse hc

section Sequences

variable (hmono : ∀ op s, μ s ≤ μ (h op s).2)

include hmono

/-- The rule for sequences.  The measure is not raised by the first part because no operation lowers
it in the second. -/
theorem TwoRuns.bind {x : ExceptT ε (EffectTree Op Ret) α} {y : ExceptT ε (EffectTree Op Ret) β}
    {f : α → ExceptT ε (EffectTree Op Ret) α'} {g : β → ExceptT ε (EffectTree Op Ret) β'}
    (hxy : TwoRuns h μ R V x y) (hfg : ∀ a b, V a b → TwoRuns h μ R V' (f a) (g b)) :
    TwoRuns h μ R V' (x >>= f) (y >>= g) := by
  intro s t hR hquiet
  have hbind : ∀ {γ γ' : Type} (z : ExceptT ε (EffectTree Op Ret) γ)
      (k : γ → ExceptT ε (EffectTree Op Ret) γ') (u : σ),
      run h (z >>= k).run u =
        run h (ExceptT.bindCont k (run h z.run u).1) (run h z.run u).2 :=
    fun z k u => run_bind h z.run _ u
  rw [hbind] at hquiet ⊢
  rw [hbind]
  have hfirst : μ s ≤ μ (run h x.run s).2 := run_mono μ hmono x.run s
  have hsecond : μ (run h x.run s).2 ≤ μ s := by
    rw [← hquiet]
    exact run_mono μ hmono _ _
  have hsame : μ (run h x.run s).2 = μ s := Nat.le_antisymm hsecond hfirst
  obtain ⟨hagree, hR'⟩ := hxy s t hR hsame
  cases hx : (run h x.run s).1 with
  | error e =>
      rw [hx] at hagree
      cases hy : (run h y.run t).1 with
      | error e' =>
          rw [hy] at hagree
          exact ⟨hagree, hR'⟩
      | ok b =>
          rw [hy] at hagree
          exact hagree.elim
  | ok a =>
      rw [hx] at hagree hquiet
      cases hy : (run h y.run t).1 with
      | error e' =>
          rw [hy] at hagree
          exact hagree.elim
      | ok b =>
          rw [hy] at hagree
          exact hfg a b hagree _ _ hR' (hquiet.trans hsame.symm)

/-- The rule for loops over one list. -/
theorem TwoRuns.mapM {γ : Type} {f : γ → ExceptT ε (EffectTree Op Ret) α}
    {g : γ → ExceptT ε (EffectTree Op Ret) β} (l : List γ)
    (hfg : ∀ c ∈ l, TwoRuns h μ R V (f c) (g c)) :
    TwoRuns h μ R (List.Forall₂ V) (l.mapM f) (l.mapM g) := by
  induction l with
  | nil => exact .pure .nil
  | cons c l ih =>
      rw [List.mapM_cons, List.mapM_cons]
      refine .bind hmono (hfg c List.mem_cons_self) fun a b hab => ?_
      refine .bind hmono (ih fun c' hc' => hfg c' (List.mem_cons_of_mem c hc')) ?_
      intro as bs hrest
      exact .pure (.cons hab hrest)

end Sequences

end Rules

end EffectTree
end Lib
end Gobble
