import Mathlib.Data.List.Basic
import Mathlib.Tactic.Ring

/-!
# Bytes — little-endian numbers and flat byte memories

* `leBytes w n` / `leNat`: a natural number as `w` bytes, least significant first, and back.
* `slice` / `readLe`: a part of a byte string, and the number written at a position of it.
* `StandsAt`: a byte string inside of a longer one, taken apart from left to right.
* `ByteMemory`: a byte for every address, with `readBytes` and `writeBytes`.
* `AgreeOutside W`: two memories that can be told apart only on the addresses in `W`.  Writing the
  same bytes to both memories keeps the relation, and a read that misses `W` cannot tell them apart.
-/

namespace Gobble
namespace Lib

/-! ## Little-endian numbers -/

/-- The `w` low bytes of `n`, least significant first. -/
def leBytes : Nat → Nat → List UInt8
  | 0, _ => []
  | w + 1, n => UInt8.ofNat n :: leBytes w (n / 256)

/-- The number whose bytes are given, least significant first. -/
def leNat : List UInt8 → Nat
  | [] => 0
  | b :: bs => b.toNat + 256 * leNat bs

@[simp] theorem length_leBytes (w n : Nat) : (leBytes w n).length = w := by
  induction w generalizing n with
  | zero => rfl
  | succ w ih => simp [leBytes, ih]

theorem leNat_leBytes (w n : Nat) : leNat (leBytes w n) = n % 256 ^ w := by
  induction w generalizing n with
  | zero => simp [leBytes, leNat, Nat.mod_one]
  | succ w ih =>
      have hbyte : (UInt8.ofNat n).toNat = n % 256 := by simp
      rw [leBytes, leNat, hbyte, ih, Nat.pow_succ', Nat.mod_mul]

theorem leNat_leBytes_of_lt {w n : Nat} (h : n < 256 ^ w) : leNat (leBytes w n) = n := by
  rw [leNat_leBytes, Nat.mod_eq_of_lt h]

/-! ## Byte strings -/

/-- The bytes at the positions `start..stop`. -/
def slice (bytes : List UInt8) (start stop : Nat) : List UInt8 :=
  (bytes.drop start).take (stop - start)

/-- The `w`-byte number at a position, if the string is long enough. -/
def readLe (w : Nat) (bytes : List UInt8) (pos : Nat) : Option Nat :=
  if pos + w ≤ bytes.length then some (leNat ((bytes.drop pos).take w)) else none

/-- Reading what was written between `front` and `rest`. -/
theorem readLe_append {w n pos : Nat} {front rest : List UInt8} (hpos : pos = front.length)
    (hn : n < 256 ^ w) : readLe w (front ++ leBytes w n ++ rest) pos = some n := by
  subst hpos
  have hfit : front.length + w ≤ (front ++ leBytes w n ++ rest).length := by
    simp
  have hbytes : ((front ++ leBytes w n ++ rest).drop front.length).take w = leBytes w n := by
    rw [List.append_assoc, List.drop_left, List.take_left' (length_leBytes w n)]
  rw [readLe, if_pos hfit, hbytes, leNat_leBytes_of_lt hn]

/-- A slice of a string that stands at `front.length` inside a longer one. -/
theorem slice_append (front middle rest : List UInt8) {a b : Nat} (hb : b ≤ middle.length) :
    slice (front ++ middle ++ rest) (front.length + a) (front.length + b) = slice middle a b := by
  unfold slice
  have hlen : front.length + b - (front.length + a) = b - a := by omega
  rw [hlen, List.append_assoc, ← List.drop_drop, List.drop_left]
  by_cases hab : a ≤ b
  · rw [List.drop_append_of_le_length (by omega), List.take_append_of_le_length]
    rw [List.length_drop]
    omega
  · have hzero : b - a = 0 := by omega
    rw [hzero, List.take_zero, List.take_zero]

/-- The bytes at position `pos` are `part`. -/
def StandsAt (bytes : List UInt8) (pos : Nat) (part : List UInt8) : Prop :=
  ∃ front rest, bytes = front ++ (part ++ rest) ∧ front.length = pos

section StandsAt

variable {bytes part a b : List UInt8} {pos : Nat}

theorem StandsAt.left (h : StandsAt bytes pos (a ++ b)) : StandsAt bytes pos a := by
  obtain ⟨front, rest, rfl, hpos⟩ := h
  exact ⟨front, b ++ rest, by rw [List.append_assoc], hpos⟩

theorem StandsAt.right (h : StandsAt bytes pos (a ++ b)) {n : Nat} (hlen : a.length = n) :
    StandsAt bytes (pos + n) b := by
  obtain ⟨front, rest, rfl, hpos⟩ := h
  refine ⟨front ++ a, rest, by simp only [List.append_assoc], ?_⟩
  rw [List.length_append, hpos, hlen]

theorem StandsAt.fits (h : StandsAt bytes pos part) : pos + part.length ≤ bytes.length := by
  obtain ⟨front, rest, rfl, rfl⟩ := h
  simp only [List.length_append]
  omega

theorem StandsAt.take_drop (h : StandsAt bytes pos part) :
    (bytes.drop pos).take part.length = part := by
  obtain ⟨front, rest, rfl, rfl⟩ := h
  rw [List.drop_left, List.take_left]

end StandsAt

/-! ## Byte memories -/

/-- A byte for every address. -/
abbrev ByteMemory := Nat → UInt8

namespace ByteMemory

def readBytes (m : ByteMemory) (addr len : Nat) : List UInt8 :=
  (List.range len).map fun i => m (addr + i)

def writeBytes (m : ByteMemory) (addr : Nat) (bytes : List UInt8) : ByteMemory :=
  fun a => if addr ≤ a then bytes.getD (a - addr) (m a) else m a

/-- Set `len` bytes to one value. -/
def fill (m : ByteMemory) (addr len : Nat) (value : UInt8) : ByteMemory :=
  fun a => if addr ≤ a ∧ a < addr + len then value else m a

@[simp] theorem length_readBytes (m : ByteMemory) (addr len : Nat) :
    (m.readBytes addr len).length = len := by
  simp [readBytes]

theorem readBytes_congr {m₁ m₂ : ByteMemory} {addr len : Nat}
    (h : ∀ i, i < len → m₁ (addr + i) = m₂ (addr + i)) :
    m₁.readBytes addr len = m₂.readBytes addr len := by
  apply List.map_congr_left
  intro i hi
  exact h i (List.mem_range.mp hi)

/-- The memories are equal on every address outside `W`. -/
def AgreeOutside (W : Set Nat) (m₁ m₂ : ByteMemory) : Prop :=
  ∀ a, a ∉ W → m₁ a = m₂ a

theorem AgreeOutside.readBytes {W : Set Nat} {m₁ m₂ : ByteMemory} (h : AgreeOutside W m₁ m₂)
    {addr len : Nat} (hmiss : ∀ i, i < len → addr + i ∉ W) :
    m₁.readBytes addr len = m₂.readBytes addr len :=
  readBytes_congr fun i hi => h _ (hmiss i hi)

theorem AgreeOutside.writeBytes {W : Set Nat} {m₁ m₂ : ByteMemory} (h : AgreeOutside W m₁ m₂)
    (addr : Nat) (bytes : List UInt8) :
    AgreeOutside W (m₁.writeBytes addr bytes) (m₂.writeBytes addr bytes) := by
  intro a ha
  unfold ByteMemory.writeBytes
  rw [h a ha]

/-- Reading back what was written. -/
theorem readBytes_writeBytes (m : ByteMemory) (addr : Nat) (bytes : List UInt8) :
    (m.writeBytes addr bytes).readBytes addr bytes.length = bytes := by
  refine List.ext_getElem (by simp [readBytes]) fun i hi hi' => ?_
  simp [readBytes, writeBytes, hi']

end ByteMemory

end Lib
end Gobble
