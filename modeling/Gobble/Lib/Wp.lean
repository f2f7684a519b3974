import Gobble.Lib.EffectTree

/-!
# Wp — postconditions of programs with state and errors

A program over an interface of operations that also has a state and can fail is a value of
`ExceptT ε (StateT σ (EffectTree Op Ret)) α`.  `wp x Q E s` says what such a program does from the
state `s` *whatever the answers of its operations are*: it returns a value and a state in `Q`, or it
fails with an error and a state in `E`.

There is one equation for each construct, so that `wp` of a program is computed by rewriting.
-/

namespace Gobble
namespace Lib

namespace EffectTree

variable {Op : Type} {Ret : Op → Type} {α β σ : Type} {P Q : α → Prop}

/-- Every value that the program can return is in `P`. -/
def Leaves (P : α → Prop) : EffectTree Op Ret α → Prop
  | pure a => P a
  | perform _ k => ∀ r, Leaves P (k r)

theorem Leaves.mono {t : EffectTree Op Ret α} (h : Leaves P t) (hPQ : ∀ a, P a → Q a) :
    Leaves Q t := by
  induction t with
  | pure a => exact hPQ a h
  | perform op k ih => exact fun r => ih r (h r)

theorem leaves_bind {R : β → Prop} (t : EffectTree Op Ret α) (f : α → EffectTree Op Ret β) :
    Leaves R (t.bind f) ↔ Leaves (fun a => Leaves R (f a)) t := by
  induction t with
  | pure a => exact Iff.rfl
  | perform op k ih => exact forall_congr' ih

/-- The program can return `a`. -/
def Returns (a : α) : EffectTree Op Ret α → Prop
  | pure b => b = a
  | perform _ k => ∃ r, Returns a (k r)

theorem leaves_returns (t : EffectTree Op Ret α) : Leaves (fun a => Returns a t) t := by
  induction t with
  | pure a => rfl
  | perform op k ih => exact fun r => (ih r).mono fun a ha => ⟨r, ha⟩

theorem Leaves.of_returns {t : EffectTree Op Ret α} {a : α} (h : Leaves P t) (ha : Returns a t) :
    P a := by
  induction t with
  | pure b => exact ha ▸ h
  | perform op k ih =>
      obtain ⟨r, hr⟩ := ha
      exact ih r (h r) hr

theorem Leaves.run {t : EffectTree Op Ret α} (ht : Leaves P t) (h : Handler Op Ret σ) (s : σ) :
    P (run h t s).1 := by
  induction t generalizing s with
  | pure a => exact ht
  | perform op k ih => exact ih _ (ht _) _

end EffectTree

open EffectTree

section Wp

variable {Op : Type} {Ret : Op → Type} {ε σ α β : Type}

/-- The weakest precondition of a program with state and errors. -/
def wp (x : ExceptT ε (StateT σ (EffectTree Op Ret)) α) (Q : α → σ → Prop) (E : ε → σ → Prop)
    (s : σ) : Prop :=
  (x.run.run s).Leaves fun r => Ends (fun a => Q a r.2) (fun e => E e r.2) r.1

variable {Q Q' : α → σ → Prop} {E E' : ε → σ → Prop} {s : σ}
  {x : ExceptT ε (StateT σ (EffectTree Op Ret)) α}

theorem wp_mono (h : wp x Q E s) (hQ : ∀ a s, Q a s → Q' a s) (hE : ∀ e s, E e s → E' e s) :
    wp x Q' E' s :=
  EffectTree.Leaves.mono h fun r hr => hr.mono (fun a => hQ a r.2) fun e => hE e r.2

@[simp] theorem wp_pure (a : α) :
    wp (pure a : ExceptT ε (StateT σ (EffectTree Op Ret)) α) Q E s ↔ Q a s :=
  Iff.rfl

@[simp] theorem wp_throw (e : ε) :
    wp (throw e : ExceptT ε (StateT σ (EffectTree Op Ret)) α) Q E s ↔ E e s :=
  Iff.rfl

@[simp] theorem wp_bind {R : β → σ → Prop}
    (f : α → ExceptT ε (StateT σ (EffectTree Op Ret)) β) :
    wp (x >>= f) R E s ↔ wp x (fun a s => wp (f a) R E s) E s := by
  have hbind : (x >>= f).run.run s = (x.run.run s).bind fun r =>
      (ExceptT.bindCont f r.1).run r.2 := rfl
  unfold wp
  rw [hbind, EffectTree.leaves_bind]
  constructor
  · intro h
    refine EffectTree.Leaves.mono h ?_
    rintro ⟨r, s'⟩ hr
    cases r with
    | ok a => exact hr
    | error e => exact hr
  · intro h
    refine EffectTree.Leaves.mono h ?_
    rintro ⟨r, s'⟩ hr
    cases r with
    | ok a => exact hr
    | error e => exact hr

@[simp] theorem wp_get {R : σ → σ → Prop} :
    wp (get : ExceptT ε (StateT σ (EffectTree Op Ret)) σ) R E s ↔ R s s :=
  Iff.rfl

@[simp] theorem wp_modify {R : PUnit → σ → Prop} (f : σ → σ) :
    wp (modify f : ExceptT ε (StateT σ (EffectTree Op Ret)) PUnit) R E s ↔ R ⟨⟩ (f s) :=
  Iff.rfl

@[simp] theorem wp_lift (t : EffectTree Op Ret α) :
    wp (ExceptT.lift (StateT.lift t) : ExceptT ε (StateT σ (EffectTree Op Ret)) α) Q E s ↔
      t.Leaves fun a => Q a s := by
  have hlift : (ExceptT.lift (StateT.lift t) :
      ExceptT ε (StateT σ (EffectTree Op Ret)) α).run.run s = t.bind fun a => .pure (.ok a, s) := by
    show (t.bind fun a => .pure (a, s)).bind
      (fun r => .pure ((Except.ok r.1 : Except ε α), r.2)) = _
    rw [EffectTree.bind_assoc]
    rfl
  unfold wp
  rw [hlift, EffectTree.leaves_bind]
  exact Iff.rfl

end Wp

end Lib
end Gobble
