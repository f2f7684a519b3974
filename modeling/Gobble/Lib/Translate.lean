import Gobble.Lib.EffectTree

/-!
# Translate — programs over a derived interface

An interface of operations can be built from another one: each of its operations is a program over
the other interface.  `translate` replaces the operations of a tree by those programs.  If the programs
do what a handler of the derived interface says, a translated tree runs as the tree itself does.
-/

namespace Gobble
namespace Lib

namespace EffectTree

variable {Op Op' : Type} {Ret : Op → Type} {Ret' : Op' → Type} {α β σ ε : Type}

/-- Replace each operation by a program. -/
def translate (f : (op : Op) → EffectTree Op' Ret' (Ret op)) :
    EffectTree Op Ret α → EffectTree Op' Ret' α
  | pure a => pure a
  | perform op k => (f op).bind fun r => (k r).translate f

theorem run_translate {f : (op : Op) → EffectTree Op' Ret' (Ret op)} {g : Handler Op' Ret' σ}
    {h : Handler Op Ret σ} (hf : ∀ op s, run g (f op) s = h op s) (t : EffectTree Op Ret α) (s : σ) :
    run g (t.translate f) s = run h t s := by
  induction t generalizing s with
  | pure a => rfl
  | perform op k ih =>
      calc run g ((perform op k).translate f) s
          = run g ((k (run g (f op) s).1).translate f) (run g (f op) s).2 := run_bind ..
        _ = run h (k (run g (f op) s).1) (run g (f op) s).2 := ih _ _
        _ = run h (perform op k) s := by rw [hf, run_perform]

/-! ## Operations that can abort -/

theorem exec_perform (g : AbortingHandler Op Ret ε σ) (op : Op) (k : Ret op → EffectTree Op Ret α)
    (s : σ) : exec g (perform op k) s = g op s >>= fun r => exec g (k r.1) r.2 := by
  rw [exec]
  cases g op s with
  | ok r => rfl
  | error e => rfl

theorem exec_bind (g : AbortingHandler Op Ret ε σ) (t : EffectTree Op Ret α)
    (f : α → EffectTree Op Ret β) (s : σ) :
    exec g (t.bind f) s = exec g t s >>= fun r => exec g (f r.1) r.2 := by
  induction t generalizing s with
  | pure a => rfl
  | perform op k ih =>
      rw [perform_bind, exec_perform, exec_perform]
      cases g op s with
      | ok r => exact ih r.1 r.2
      | error e => rfl

theorem exec_translate {f : (op : Op) → EffectTree Op' Ret' (Ret op)}
    {g : AbortingHandler Op' Ret' ε σ} {h : AbortingHandler Op Ret ε σ}
    (hf : ∀ op s, exec g (f op) s = h op s) (t : EffectTree Op Ret α) (s : σ) :
    exec g (t.translate f) s = exec h t s := by
  induction t generalizing s with
  | pure a => rfl
  | perform op k ih =>
      rw [translate, exec_bind, hf, exec_perform]
      cases h op s with
      | ok r => exact ih r.1 r.2
      | error e => rfl

/-- Operations that are embedded, and that do not abort there. -/
theorem exec_embed {f : Op → Op'} {answer : ∀ op, Ret' (f op) → Ret op} {h : Handler Op Ret σ}
    {g : AbortingHandler Op' Ret' ε σ}
    (hg : ∀ op s, ∃ r, g (f op) s = .ok (r, (h op s).2) ∧ answer op r = (h op s).1)
    (t : EffectTree Op Ret α) (s : σ) : exec g (t.embed f answer) s = .ok (run h t s) := by
  induction t generalizing s with
  | pure a => rfl
  | perform op k ih =>
      obtain ⟨r, hr, hanswer⟩ := hg op s
      rw [embed, exec_perform, hr, run_perform, ← hanswer]
      exact ih _ _

end EffectTree

end Lib
end Gobble
