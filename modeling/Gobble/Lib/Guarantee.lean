import Gobble.Lib.EffectTree
import Gobble.Lib.Outcome

/-!
# Guarantee — what a program does to its state, whether it fails or not

A *guarantee* is a relation between the states before and after a step that is kept by doing nothing and
by doing one thing after the other.  `Ran G s Q r` says of a run from `s` with the result `r` that it
kept the guarantee even if it failed, and that what it returned is in `Q` if it did not.  There is a rule
for each construct of programs with errors over an interface of operations (`Runs`); a program is
walked through once for everything that is to be shown about it.
-/

namespace Gobble
namespace Lib

structure Guarantee (σ : Type) where
  rel : σ → σ → Prop
  refl : ∀ s, rel s s
  trans : ∀ {s s' s''}, rel s s' → rel s' s'' → rel s s''

section Ran

variable {ε α β σ : Type} {G H : Guarantee σ} {s : σ} {Q Q' : α → σ → Prop}

/-- A run that started at `s`. -/
structure Ran (G : Guarantee σ) (s : σ) (Q : α → σ → Prop) (r : Except ε α × σ) : Prop where
  kept : G.rel s r.2
  post : ∀ a, r.1 = .ok a → Q a r.2

theorem ran_ok {a : α} (h : Q a s) : Ran G s Q ((.ok a : Except ε α), s) := by
  refine ⟨G.refl s, fun b hb => ?_⟩
  cases hb
  exact h

theorem ran_error (e : ε) : Ran G s Q ((.error e : Except ε α), s) :=
  ⟨G.refl s, fun _ hb => by cases hb⟩

theorem Ran.mono {r : Except ε α × σ} (h : Ran G s Q r) (hQ : ∀ a s', G.rel s s' → Q a s' → Q' a s') :
    Ran G s Q' r :=
  ⟨h.kept, fun a ha => hQ a r.2 h.kept (h.post a ha)⟩

/-- A stronger guarantee may be forgotten; what it says about the whole run is still known. -/
theorem Ran.weaken {r : Except ε α × σ} (h : Ran H s Q r) (hGH : ∀ s', H.rel s s' → G.rel s s') :
    Ran G s (fun a s' => H.rel s s' ∧ Q a s') r :=
  ⟨hGH r.2 h.kept, fun a ha => ⟨h.kept, h.post a ha⟩⟩

/-- Go on with the result of a run. -/
def continueWith (r : Except ε α × σ) (k : α → σ → Except ε β × σ) : Except ε β × σ :=
  match r.1 with
  | .ok a => k a r.2
  | .error e => (.error e, r.2)

theorem Ran.continueWith {r : Except ε α × σ} {k : α → σ → Except ε β × σ} {R : β → σ → Prop}
    (h : Ran G s Q r) (hk : ∀ a s', G.rel s s' → Q a s' → Ran G s' R (k a s')) :
    Ran G s R (continueWith r k) := by
  obtain ⟨result, s'⟩ := r
  cases result with
  | error e => exact ⟨h.kept, fun _ hb => by cases hb⟩
  | ok a =>
      obtain ⟨hkept, hpost⟩ := hk a s' h.kept (h.post a rfl)
      exact ⟨G.trans h.kept hkept, hpost⟩

end Ran

namespace EffectTree

variable {Op : Type} {Ret : Op → Type} {ε α β ι σ : Type} {h : Handler Op Ret σ} {G H : Guarantee σ}
  {s : σ} {Q Q' : α → σ → Prop}

/-- The run of a program with errors. -/
def Runs (h : Handler Op Ret σ) (G : Guarantee σ) (x : ExceptT ε (EffectTree Op Ret) α) (s : σ)
    (Q : α → σ → Prop) : Prop :=
  Ran G s Q (run h x.run s)

theorem runs_pure {a : α} (ha : Q a s) :
    Runs h G (Pure.pure a : ExceptT ε (EffectTree Op Ret) α) s Q :=
  ran_ok ha

theorem runs_throw (e : ε) : Runs h G (throw e : ExceptT ε (EffectTree Op Ret) α) s Q :=
  ran_error e

theorem Runs.mono {x : ExceptT ε (EffectTree Op Ret) α} (hx : Runs h G x s Q)
    (hQ : ∀ a s', G.rel s s' → Q a s' → Q' a s') : Runs h G x s Q' :=
  Ran.mono hx hQ

theorem Runs.weaken {x : ExceptT ε (EffectTree Op Ret) α} (hx : Runs h H x s Q)
    (hGH : ∀ s', H.rel s s' → G.rel s s') : Runs h G x s fun a s' => H.rel s s' ∧ Q a s' :=
  Ran.weaken hx hGH

theorem run_bind_eq (x : ExceptT ε (EffectTree Op Ret) α)
    (f : α → ExceptT ε (EffectTree Op Ret) β) (s : σ) :
    run h (x >>= f).run s = continueWith (run h x.run s) fun a s' => run h (f a).run s' := by
  have hbind : run h (x >>= f).run s =
      run h (ExceptT.bindCont f (run h x.run s).1) (run h x.run s).2 := run_bind ..
  rw [hbind]
  unfold continueWith
  cases (run h x.run s).1 with
  | ok a => rfl
  | error e => rfl

theorem Runs.bind {x : ExceptT ε (EffectTree Op Ret) α} {f : α → ExceptT ε (EffectTree Op Ret) β}
    {R : β → σ → Prop} (hx : Runs h G x s Q)
    (hf : ∀ a s', G.rel s s' → Q a s' → Runs h G (f a) s' R) : Runs h G (x >>= f) s R := by
  unfold Runs
  rw [run_bind_eq]
  exact Ran.continueWith hx hf

/-- A program without errors. -/
theorem runs_lift {t : EffectTree Op Ret α} (hG : G.rel s (run h t s).2)
    (hQ : Q (run h t s).1 (run h t s).2) :
    Runs h G (ExceptT.lift t : ExceptT ε (EffectTree Op Ret) α) s Q := by
  have hlift : run h (ExceptT.lift t : ExceptT ε (EffectTree Op Ret) α).run s =
      (.ok (run h t s).1, (run h t s).2) := run_bind h t (fun a => .pure (Except.ok a)) s
  unfold Runs
  rw [hlift]
  refine ⟨hG, fun a ha => ?_⟩
  cases ha
  exact hQ

/-- One operation. -/
theorem runs_call {op : Op} {R : Ret op → σ → Prop} (hG : G.rel s (h op s).2)
    (hR : R (h op s).1 (h op s).2) :
    Runs h G (ExceptT.lift (call op) : ExceptT ε (EffectTree Op Ret) (Ret op)) s R :=
  runs_lift hG hR

/-- A loop that collects values. -/
theorem runs_mapM {V : α → Prop} {f : ι → ExceptT ε (EffectTree Op Ret) α} (l : List ι)
    (hf : ∀ i ∈ l, ∀ s', G.rel s s' → Runs h G (f i) s' fun a _ => V a) :
    Runs h G (l.mapM f) s fun as _ => ∀ a ∈ as, V a := by
  induction l generalizing s with
  | nil => exact runs_pure fun a ha => by cases ha
  | cons i rest ih =>
      rw [List.mapM_cons]
      refine (hf i List.mem_cons_self s (G.refl s)).bind fun a s' hs' ha => ?_
      refine (ih (fun j hj s'' hs'' => hf j (List.mem_cons_of_mem i hj) s''
        (G.trans hs' hs''))).bind fun as s'' _ has => ?_
      exact runs_pure (List.forall_mem_cons.mpr ⟨ha, has⟩)

/-- A loop whose turns leave each other's results alone.  Turn `i` keeps a guarantee of its own, and what
it has established is stable under the guarantees of the turns after it. -/
theorem runs_mapM_frame {H : ι → Guarantee σ} {V : ι → α → σ → Prop}
    {f : ι → ExceptT ε (EffectTree Op Ret) α} (l : List ι)
    (hf : ∀ i ∈ l, ∀ s', G.rel s s' → Runs h (H i) (f i) s' (V i))
    (hle : ∀ i ∈ l, ∀ t t', (H i).rel t t' → G.rel t t')
    (hstable : l.Pairwise fun i j => ∀ a t t', V i a t → (H j).rel t t' → V i a t')
    {K : σ → Prop} (hK : ∀ i ∈ l, ∀ t t', K t → (H i).rel t t' → K t') (hs : K s) :
    Runs h G (l.mapM f) s fun as t => K t ∧ List.Forall₂ (fun i a => V i a t) l as := by
  induction l generalizing s K with
  | nil => exact runs_pure ⟨hs, .nil⟩
  | cons i rest ih =>
      rw [List.mapM_cons]
      obtain ⟨hlater, hrest⟩ := List.pairwise_cons.mp hstable
      have hfirst := (hf i List.mem_cons_self s (G.refl s)).weaken (G := G)
        (hle i List.mem_cons_self s)
      refine hfirst.bind fun a s' hs' ha => ?_
      -- What the first turn has established is carried through the others like `K`.
      refine (ih (fun j hj s'' hs'' => hf j (List.mem_cons_of_mem i hj) s'' (G.trans hs' hs''))
        (fun j hj => hle j (List.mem_cons_of_mem i hj)) hrest (K := fun t => K t ∧ V i a t)
        (fun j hj t t' ht hrel => ⟨hK j (List.mem_cons_of_mem i hj) t t' ht.1 hrel,
          hlater j hj a t t' ht.2 hrel⟩)
        ⟨hK i List.mem_cons_self s s' hs ha.1, ha.2⟩).bind fun as t _ has => ?_
      exact runs_pure ⟨has.1.1, .cons has.1.2 has.2⟩

end EffectTree

end Lib
end Gobble
