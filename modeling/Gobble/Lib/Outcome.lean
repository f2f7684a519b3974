import Mathlib.Tactic.Common

/-!
# Outcome — results of code that can return an error or panic

A function of the source that returns `Result<T, E>` and may also panic (an index out of bounds, a
division by zero, an `unwrap`) is modelled with results in `Outcome E T`, so that a panic is a
visible outcome and not an arbitrary value.
-/

namespace Gobble
namespace Lib

/-- The ways a computation can fail to return a value. -/
inductive Fault (ε : Type) where
  | err (e : ε)
  | panic
  deriving DecidableEq, Repr

abbrev Outcome (ε α : Type) := Except (Fault ε) α

namespace Outcome

variable {ε α : Type}

def err (e : ε) : Outcome ε α := .error (.err e)

/-- Named after the macro; a function that cannot go on. -/
def panic : Outcome ε α := .error .panic

/-- `Option::unwrap`, indexing, and every other access that panics when there is no value. -/
def unwrap : Option α → Outcome ε α
  | some a => .ok a
  | none => panic

/-- `Option::ok_or`. -/
def okOr (e : ε) : Option α → Outcome ε α
  | some a => .ok a
  | none => err e

/-- A plain result as an outcome. -/
def lift : Except ε α → Outcome ε α
  | .ok a => .ok a
  | .error e => err e

/-- `Result::map_err`; a panic stays a panic. -/
def mapErr {δ : Type} (f : ε → δ) : Outcome ε α → Outcome δ α
  | .ok a => .ok a
  | .error (.err e) => err (f e)
  | .error .panic => panic

theorem unwrap_eq_ok {o : Option α} {a : α} : (unwrap o : Outcome ε α) = .ok a ↔ o = some a := by
  cases o <;> simp [unwrap, panic]

theorem okOr_eq_ok {e : ε} {o : Option α} {a : α} : okOr e o = .ok a ↔ o = some a := by
  cases o <;> simp [okOr, err]

theorem lift_eq_ok {x : Except ε α} {a : α} : lift x = .ok a ↔ x = .ok a := by
  cases x <;> simp [lift, err]

end Outcome

/-! ## Sequences -/

/-- A sequence of two computations that returns a value consists of two that do. -/
theorem bind_eq_ok {ε α β : Type} {x : Except ε α} {f : α → Except ε β} {b : β}
    (h : x >>= f = .ok b) : ∃ a, x = .ok a ∧ f a = .ok b := by
  cases x with
  | ok a => exact ⟨a, rfl, h⟩
  | error e => cases h

theorem toOption_eq_some {ε α : Type} {x : Except ε α} {a : α} :
    x.toOption = some a ↔ x = .ok a := by
  cases x with
  | error err => simp [Except.toOption]
  | ok b => simp [Except.toOption]

section MapM

variable {ε α β : Type} {f : α → Except ε β}

theorem mapM_cons_eq_ok {a : α} {l : List α} {r : List β} :
    (a :: l).mapM f = .ok r ↔ ∃ b rest, f a = .ok b ∧ l.mapM f = .ok rest ∧ r = b :: rest := by
  rw [List.mapM_cons]
  constructor
  · intro h
    obtain ⟨b, hb, h⟩ := bind_eq_ok h
    obtain ⟨rest, hrest, h⟩ := bind_eq_ok h
    cases h
    exact ⟨b, rest, hb, hrest, rfl⟩
  · rintro ⟨b, rest, hb, hrest, rfl⟩
    rw [hb, hrest]
    rfl

theorem length_of_mapM_eq_ok {l : List α} {r : List β} (h : l.mapM f = .ok r) :
    r.length = l.length := by
  induction l generalizing r with
  | nil =>
      cases h
      rfl
  | cons a l ih =>
      obtain ⟨b, rest, -, hrest, rfl⟩ := mapM_cons_eq_ok.mp h
      rw [List.length_cons, List.length_cons, ih hrest]

/-- Every element has been mapped to the element at the same position. -/
theorem getElem?_of_mapM_eq_ok {l : List α} {r : List β} (h : l.mapM f = .ok r) (i : Nat) :
    l[i]?.map f = r[i]?.map .ok := by
  induction l generalizing r i with
  | nil =>
      cases h
      rfl
  | cons a l ih =>
      obtain ⟨b, rest, hb, hrest, rfl⟩ := mapM_cons_eq_ok.mp h
      cases i with
      | zero => simp [hb]
      | succ i => simpa using ih hrest i

theorem ok_of_mapM_eq_ok {l : List α} {r : List β} (h : l.mapM f = .ok r) {a : α} (ha : a ∈ l) :
    ∃ b, f a = .ok b := by
  obtain ⟨i, hi⟩ := List.mem_iff_getElem?.mp ha
  have hget := getElem?_of_mapM_eq_ok h i
  rw [hi, Option.map_some] at hget
  cases hr : r[i]? with
  | none => simp [hr] at hget
  | some b => exact ⟨b, by simpa [hr] using hget⟩

end MapM

/-! ## Postconditions -/

section Ends

variable {ε α β : Type} {P Q : α → Prop} {R : β → Prop} {E F : ε → Prop}

/-- The computation returns a value in `P` or fails with an error in `E`. -/
def Ends (P : α → Prop) (E : ε → Prop) : Except ε α → Prop
  | .ok a => P a
  | .error e => E e

theorem Ends.mono {x : Except ε α} (h : Ends P E x) (hP : ∀ a, P a → Q a) (hE : ∀ e, E e → F e) :
    Ends Q F x := by
  cases x with
  | ok a => exact hP a h
  | error e => exact hE e h

theorem Ends.bind {x : Except ε α} {f : α → Except ε β} (hx : Ends P E x)
    (hf : ∀ a, P a → Ends R E (f a)) : Ends R E (x >>= f) := by
  cases x with
  | ok a => exact hf a hx
  | error e => exact hx

theorem Ends.mapError {δ : Type} {D : δ → Prop} {x : Except ε α} (h : Ends P E x) {f : ε → δ}
    (hf : ∀ e, E e → D (f e)) : Ends P D (x.mapError f) := by
  cases x with
  | ok a => exact h
  | error e => exact hf e h

/-- Nothing has to be known about the first of two computations if every error is allowed. -/
theorem Ends.bind_any {x : Except ε α} {f : α → Except ε β} (hf : ∀ a, Ends R E (f a))
    (hE : ∀ e, E e) : Ends R E (x >>= f) :=
  Ends.bind (P := fun _ => True) (E := E) (by cases x with | ok a => trivial | error e => exact hE e)
    fun a _ => hf a

/-- An invariant of a loop. -/
theorem Ends.foldlM {σ : Type} {I : σ → Prop} {f : σ → α → Except ε σ}
    (hf : ∀ s a, I s → Ends I E (f s a)) (l : List α) {s : σ} (hs : I s) :
    Ends I E (l.foldlM f s) := by
  induction l generalizing s with
  | nil => exact hs
  | cons a l ih => exact (hf s a hs).bind fun s' hs' => ih hs'

/-- The same for every element of a list. -/
theorem Ends.mapM {f : α → Except ε β} {l : List α} (hf : ∀ a ∈ l, Ends (fun _ => True) E (f a)) :
    Ends (fun _ => True) E (l.mapM f) := by
  induction l with
  | nil => trivial
  | cons a l ih =>
      rw [List.mapM_cons]
      refine (hf a List.mem_cons_self).bind fun _ _ => ?_
      exact (ih fun b hb => hf b (List.mem_cons_of_mem a hb)).bind fun _ _ => trivial

end Ends

end Lib
end Gobble
