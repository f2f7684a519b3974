import Gobble.Lib.Trace
import Gobble.Sbpf.AddrRange

/-!
# AccessTracker — the record of forbidden reads kept by a VM

Model of `MemoryAccessTracker` in `sbpf/src/memory_region.rs`.  The three cells of the source
(`watched_ranges`, `forbidden_accesses`, `enabled`) are the three fields of a record, and the
methods that change them through interior mutability return the changed record.

The second half states what the tracker is *for* in terms of the history of calls alone, and shows
that the tracker computes exactly that after every finite history.
-/

namespace Gobble
namespace Sbpf

open Lib

structure MemoryAccessTracker where
  /-- Forbidden address ranges to watch for reads. -/
  watchedRanges : List AddrRange
  /-- `(address, size)` of the forbidden accesses detected. -/
  forbiddenAccesses : List (U64 × U64)
  enabled : Bool
  deriving DecidableEq, Repr

namespace MemoryAccessTracker

def new : MemoryAccessTracker :=
  { watchedRanges := [], forbiddenAccesses := [], enabled := false }

def addWatchedRange (t : MemoryAccessTracker) (range : AddrRange) : MemoryAccessTracker :=
  if !range.isEmpty then
    { t with watchedRanges := t.watchedRanges ++ [range], enabled := true }
  else
    t

def addWatchedRanges (t : MemoryAccessTracker) (ranges : List AddrRange) : MemoryAccessTracker :=
  let watched := ranges.foldl
    (fun watched range => if !range.isEmpty then watched ++ [range] else watched) t.watchedRanges
  { t with
    watchedRanges := watched
    enabled := if !watched.isEmpty then true else t.enabled }

/-- The loop of `check_access`: push once at the first overlapping range, then stop. -/
def checkRanges (vmAddr len readEnd : U64) :
    List AddrRange → List (U64 × U64) → List (U64 × U64)
  | [], forbidden => forbidden
  | watch :: watched, forbidden =>
      if vmAddr < watch.stop ∧ readEnd > watch.start then
        forbidden ++ [(vmAddr, len)]
      else
        checkRanges vmAddr len readEnd watched forbidden

def checkAccess (t : MemoryAccessTracker) (vmAddr len : U64) : MemoryAccessTracker :=
  if !t.enabled then
    t
  else
    let readEnd := U64.saturatingAdd vmAddr len
    { t with
      forbiddenAccesses := checkRanges vmAddr len readEnd t.watchedRanges t.forbiddenAccesses }

def hasForbiddenAccesses (t : MemoryAccessTracker) : Bool :=
  !t.forbiddenAccesses.isEmpty

def reset (t : MemoryAccessTracker) : MemoryAccessTracker :=
  { t with forbiddenAccesses := [] }

def clear (_t : MemoryAccessTracker) : MemoryAccessTracker :=
  { watchedRanges := [], forbiddenAccesses := [], enabled := false }

/-! ## The overlap test is exact -/

/-- The byte interval `[vmAddr, vmAddr + len)`, taken in unbounded integers, has a byte in common
with one of the ranges. -/
def SharesByte (vmAddr len : U64) (ranges : List AddrRange) : Prop :=
  ∃ r ∈ ranges, ∃ x, vmAddr.toNat ≤ x ∧ x < vmAddr.toNat + len.toNat ∧ r.Contains x

theorem sharesByte_iff (vmAddr len : U64) (ranges : List AddrRange) :
    SharesByte vmAddr len ranges ↔
      ∃ r ∈ ranges,
        max vmAddr.toNat r.start.toNat < min (vmAddr.toNat + len.toNat) r.stop.toNat := by
  constructor
  · rintro ⟨r, hr, x, hx₁, hx₂, hx₃, hx₄⟩
    exact ⟨r, hr, by omega⟩
  · rintro ⟨r, hr, hlt⟩
    refine ⟨r, hr, max vmAddr.toNat r.start.toNat, ?_, ?_, ?_, ?_⟩ <;> omega

instance (vmAddr len : U64) (ranges : List AddrRange) :
    Decidable (SharesByte vmAddr len ranges) :=
  decidable_of_iff _ (sharesByte_iff vmAddr len ranges).symm

/-- The saturated end of the access agrees with the exact one: a range that is not empty starts
strictly below the largest address, which is where the sum is cut off. -/
theorem overlap_iff {vmAddr len : U64} {r : AddrRange} (hlen : 0 < len.toNat)
    (hr : r.isEmpty = false) :
    (vmAddr < r.stop ∧ U64.saturatingAdd vmAddr len > r.start) ↔
      ∃ x, vmAddr.toNat ≤ x ∧ x < vmAddr.toNat + len.toNat ∧ r.Contains x := by
  have hne : r.start.toNat < r.stop.toNat := (AddrRange.isEmpty_eq_false_iff r).mp hr
  have hstop : r.stop.toNat ≤ u64Max := U64.toNat_le_u64Max r.stop
  rw [gt_iff_lt, BitVec.lt_def, BitVec.lt_def, U64.toNat_saturatingAdd]
  constructor
  · rintro ⟨hlt, hgt⟩
    refine ⟨max vmAddr.toNat r.start.toNat, ?_, ?_, ?_, ?_⟩ <;> omega
  · rintro ⟨x, hx₁, hx₂, hx₃, hx₄⟩
    omega

/-- The overlap test succeeds for one of the ranges. -/
def Marks (vmAddr len : U64) (ranges : List AddrRange) : Prop :=
  ∃ r ∈ ranges, vmAddr < r.stop ∧ U64.saturatingAdd vmAddr len > r.start

instance (vmAddr len : U64) (ranges : List AddrRange) : Decidable (Marks vmAddr len ranges) :=
  inferInstanceAs (Decidable (∃ r ∈ ranges, _))

theorem checkRanges_eq (vmAddr len : U64) (ranges : List AddrRange)
    (forbidden : List (U64 × U64)) :
    checkRanges vmAddr len (U64.saturatingAdd vmAddr len) ranges forbidden =
      if Marks vmAddr len ranges then forbidden ++ [(vmAddr, len)] else forbidden := by
  induction ranges with
  | nil =>
      have hnone : ¬ Marks vmAddr len [] := by
        rintro ⟨r, hr, -⟩
        cases hr
      rw [checkRanges, if_neg hnone]
  | cons r rs ih =>
      have hcons : Marks vmAddr len (r :: rs) ↔
          (vmAddr < r.stop ∧ U64.saturatingAdd vmAddr len > r.start) ∨ Marks vmAddr len rs := by
        unfold Marks
        simp only [List.mem_cons, exists_eq_or_imp]
      by_cases hover : vmAddr < r.stop ∧ U64.saturatingAdd vmAddr len > r.start
      · rw [checkRanges, if_pos hover, if_pos (hcons.mpr (.inl hover))]
      · rw [checkRanges, if_neg hover, ih]
        simp only [hcons, or_iff_right hover]

/-- For an access to at least one byte the test is exact. -/
theorem marks_iff_sharesByte {vmAddr len : U64} {ranges : List AddrRange} (hlen : 0 < len.toNat)
    (hne : ∀ r ∈ ranges, r.isEmpty = false) :
    Marks vmAddr len ranges ↔ SharesByte vmAddr len ranges := by
  constructor
  · rintro ⟨r, hr, hover⟩
    exact ⟨r, hr, (overlap_iff hlen (hne r hr)).mp hover⟩
  · rintro ⟨r, hr, hshare⟩
    exact ⟨r, hr, (overlap_iff hlen (hne r hr)).mpr hshare⟩

/-- An access to no byte at all passes the test strictly inside of a range. -/
theorem marks_zero_iff {vmAddr len : U64} {ranges : List AddrRange} (hlen : len.toNat = 0) :
    Marks vmAddr len ranges ↔ ∃ r ∈ ranges, r.start < vmAddr ∧ vmAddr < r.stop := by
  have hsum : U64.saturatingAdd vmAddr len = vmAddr := by
    have hmax := U64.toNat_le_u64Max vmAddr
    apply BitVec.eq_of_toNat_eq
    rw [U64.toNat_saturatingAdd]
    omega
  unfold Marks
  rw [hsum]
  exact exists_congr fun r => and_congr_right fun _ => and_comm

/-! ## What one call does -/

/-- The representation invariant: only non-empty ranges are watched, and tracking is on exactly
when there is something to watch. -/
structure WellFormed (t : MemoryAccessTracker) : Prop where
  nonempty : ∀ r ∈ t.watchedRanges, r.isEmpty = false
  enabled_iff : t.enabled = true ↔ t.watchedRanges ≠ []

theorem new_wellFormed : new.WellFormed where
  nonempty := by
    intro r hr
    cases hr
  enabled_iff := by simp [new]

@[simp] theorem checkAccess_watched (t : MemoryAccessTracker) (vmAddr len : U64) :
    (t.checkAccess vmAddr len).watchedRanges = t.watchedRanges := by
  unfold checkAccess
  split <;> rfl

@[simp] theorem checkAccess_enabled (t : MemoryAccessTracker) (vmAddr len : U64) :
    (t.checkAccess vmAddr len).enabled = t.enabled := by
  unfold checkAccess
  split <;> rfl

theorem checkAccess_wellFormed {t : MemoryAccessTracker} (ht : t.WellFormed) (vmAddr len : U64) :
    (t.checkAccess vmAddr len).WellFormed where
  nonempty := by simpa using ht.nonempty
  enabled_iff := by simpa using ht.enabled_iff

theorem checkRanges_grows (vmAddr len readEnd : U64) (ranges : List AddrRange)
    (forbidden : List (U64 × U64)) :
    forbidden <+: checkRanges vmAddr len readEnd ranges forbidden := by
  induction ranges with
  | nil => exact List.prefix_rfl
  | cons r rs ih =>
      unfold checkRanges
      split
      · exact List.prefix_append _ _
      · exact ih

/-- A check never removes an entry. -/
theorem checkAccess_grows (t : MemoryAccessTracker) (vmAddr len : U64) :
    t.forbiddenAccesses <+: (t.checkAccess vmAddr len).forbiddenAccesses := by
  unfold checkAccess
  split
  · exact List.prefix_rfl
  · exact checkRanges_grows _ _ _ _ _

theorem addWatchedRanges_watched (t : MemoryAccessTracker) (ranges : List AddrRange) :
    (t.addWatchedRanges ranges).watchedRanges =
      t.watchedRanges ++ ranges.filter fun r => !r.isEmpty := by
  unfold addWatchedRanges
  dsimp only
  generalize t.watchedRanges = watched
  induction ranges generalizing watched with
  | nil => simp
  | cons r rs ih =>
      rw [List.foldl_cons, ih]
      cases hr : r.isEmpty <;> simp [hr]

theorem addWatchedRanges_wellFormed {t : MemoryAccessTracker} (ht : t.WellFormed)
    (ranges : List AddrRange) : (t.addWatchedRanges ranges).WellFormed where
  nonempty := by
    intro r hr
    rw [addWatchedRanges_watched, List.mem_append, List.mem_filter] at hr
    rcases hr with hr | ⟨-, hr⟩
    · exact ht.nonempty r hr
    · simpa using hr
  enabled_iff := by
    have hwatched := addWatchedRanges_watched t ranges
    constructor
    · intro hen hnil
      have hold : t.watchedRanges = [] := by
        rw [hnil] at hwatched
        exact (List.append_eq_nil_iff.mp hwatched.symm).1
      have hdis : t.enabled = false := by
        have := ht.enabled_iff
        simp only [hold, ne_eq, not_true_eq_false, iff_false, Bool.not_eq_true] at this
        exact this
      have hen' : (t.addWatchedRanges ranges).enabled = t.enabled := by
        unfold addWatchedRanges at hnil ⊢
        dsimp only at hnil ⊢
        rw [hnil]
        rfl
      rw [hen', hdis] at hen
      cases hen
    · intro hne
      unfold addWatchedRanges at hne ⊢
      dsimp only at hne ⊢
      rw [if_pos (by simpa using hne)]

theorem addWatchedRange_eq (t : MemoryAccessTracker) (ht : t.WellFormed) (range : AddrRange) :
    t.addWatchedRange range = t.addWatchedRanges [range] := by
  unfold addWatchedRange addWatchedRanges
  cases hr : range.isEmpty with
  | false => simp [hr]
  | true =>
      have hen : (if !t.watchedRanges.isEmpty then true else t.enabled) = t.enabled := by
        by_cases hnil : t.watchedRanges = []
        · simp [hnil]
        · have := ht.enabled_iff.mpr hnil
          simp [this]
      simp only [List.foldl_cons, List.foldl_nil, hr, Bool.not_true, Bool.false_eq_true, if_false,
        hen]

/-- Tracking is on whenever the test could succeed, so the switch does not matter. -/
theorem checkAccess_marks {t : MemoryAccessTracker} (ht : t.WellFormed) (vmAddr len : U64) :
    t.checkAccess vmAddr len =
      { t with
        forbiddenAccesses :=
          if Marks vmAddr len t.watchedRanges then t.forbiddenAccesses ++ [(vmAddr, len)]
          else t.forbiddenAccesses } := by
  unfold checkAccess
  cases hen : t.enabled with
  | false =>
      have hnil : t.watchedRanges = [] := by
        by_contra hne
        have := ht.enabled_iff.mpr hne
        rw [hen] at this
        cases this
      have hnone : ¬ Marks vmAddr len t.watchedRanges := by
        rw [hnil]
        rintro ⟨r, hr, -⟩
        cases hr
      rw [if_pos (by simp), if_neg hnone]
      cases t
      simp_all
  | true =>
      rw [if_neg (by simp)]
      dsimp only
      rw [checkRanges_eq]

theorem checkAccess_eq {t : MemoryAccessTracker} (ht : t.WellFormed) {vmAddr len : U64}
    (hlen : 0 < len.toNat) :
    t.checkAccess vmAddr len =
      { t with
        forbiddenAccesses :=
          if SharesByte vmAddr len t.watchedRanges then t.forbiddenAccesses ++ [(vmAddr, len)]
          else t.forbiddenAccesses } := by
  rw [checkAccess_marks ht]
  simp only [marks_iff_sharesByte hlen ht.nonempty]

/-! ## The trace specification -/

/-- A call of one of the methods that change the tracker; an access reads at least one byte. -/
inductive Call where
  | addWatchedRange (range : AddrRange)
  | addWatchedRanges (ranges : List AddrRange)
  | checkAccess (vmAddr len : U64) (pos : 0 < len.toNat)
  | reset
  | clear

def apply (t : MemoryAccessTracker) : Call → MemoryAccessTracker
  | .addWatchedRange range => t.addWatchedRange range
  | .addWatchedRanges ranges => t.addWatchedRanges ranges
  | .checkAccess vmAddr len _ => t.checkAccess vmAddr len
  | .reset => t.reset
  | .clear => t.clear

/-- The tracker after a history of calls, starting from `new()`. -/
def afterCalls (calls : List Call) : MemoryAccessTracker :=
  calls.foldl apply new

namespace Call

def isClear : Call → Bool
  | .clear => true
  | _ => false

def isResetOrClear : Call → Bool
  | .reset => true
  | .clear => true
  | _ => false

/-- The non-empty ranges a call adds. -/
def added : Call → List AddrRange
  | .addWatchedRange range => [range].filter fun r => !r.isEmpty
  | .addWatchedRanges ranges => ranges.filter fun r => !r.isEmpty
  | _ => []

/-- What a call records when `watched` are the ranges watched at that time. -/
def recorded (watched : List AddrRange) : Call → Option (U64 × U64)
  | .checkAccess vmAddr len _ =>
      if SharesByte vmAddr len watched then some (vmAddr, len) else none
  | _ => none

end Call

/-- The non-empty ranges added since the last `clear`, in order. -/
def watchedSpec (calls : List Call) : List AddrRange :=
  (sinceLast Call.isClear calls).flatMap Call.added

/-- The accesses since the last `reset` or `clear` that share a byte with a range watched at the
time of the call (the calls before position `i` decide what was watched at position `i`). -/
def forbiddenSpec (calls : List Call) : List (U64 × U64) :=
  (sinceLast (fun c => c.1.isResetOrClear) calls.zipIdx).filterMap fun c =>
    c.1.recorded (watchedSpec (calls.take c.2))

theorem watchedSpec_concat (calls : List Call) (c : Call) :
    watchedSpec (calls ++ [c]) = if c.isClear then [] else watchedSpec calls ++ c.added := by
  unfold watchedSpec
  rw [sinceLast_concat]
  cases c.isClear <;> simp

theorem forbiddenSpec_concat (calls : List Call) (c : Call) :
    forbiddenSpec (calls ++ [c]) =
      if c.isResetOrClear then []
      else forbiddenSpec calls ++ (c.recorded (watchedSpec calls)).toList := by
  unfold forbiddenSpec
  rw [List.zipIdx_append, List.zipIdx_singleton, sinceLast_concat]
  cases hc : c.isResetOrClear with
  | true => simp
  | false =>
      simp only [Nat.zero_add, Bool.false_eq_true, if_false, List.filterMap_append]
      congr 1
      · -- Positions of earlier calls do not see the appended call.
        apply List.filterMap_congr
        intro d hd
        have hmem : d ∈ calls.zipIdx := sinceLast_subset _ _ d hd
        have hlt : d.2 < calls.length := List.snd_lt_of_mem_zipIdx hmem
        rw [List.take_append_of_le_length (Nat.le_of_lt hlt)]
      · cases h : c.recorded (watchedSpec calls) <;> simp [h]

theorem apply_wellFormed {t : MemoryAccessTracker} (ht : t.WellFormed) (c : Call) :
    (t.apply c).WellFormed := by
  cases c with
  | addWatchedRange range =>
      rw [apply, addWatchedRange_eq t ht]
      exact addWatchedRanges_wellFormed ht [range]
  | addWatchedRanges ranges => exact addWatchedRanges_wellFormed ht ranges
  | checkAccess vmAddr len pos => exact checkAccess_wellFormed ht vmAddr len
  | reset => exact ⟨ht.nonempty, ht.enabled_iff⟩
  | clear => exact new_wellFormed

theorem apply_watched {t : MemoryAccessTracker} (ht : t.WellFormed) (c : Call) :
    (t.apply c).watchedRanges = if c.isClear then [] else t.watchedRanges ++ c.added := by
  cases c with
  | addWatchedRange range =>
      rw [apply, addWatchedRange_eq t ht, addWatchedRanges_watched]
      rfl
  | addWatchedRanges ranges =>
      rw [apply, addWatchedRanges_watched]
      rfl
  | checkAccess vmAddr len pos => simp [apply, Call.isClear, Call.added]
  | reset => simp [apply, reset, Call.isClear, Call.added]
  | clear => rfl

theorem apply_forbidden {t : MemoryAccessTracker} (ht : t.WellFormed) (c : Call) :
    (t.apply c).forbiddenAccesses =
      if c.isResetOrClear then []
      else t.forbiddenAccesses ++ (c.recorded t.watchedRanges).toList := by
  cases c with
  | addWatchedRange range =>
      rw [apply, addWatchedRange_eq t ht]
      simp [addWatchedRanges, Call.isResetOrClear, Call.recorded]
  | addWatchedRanges ranges => simp [apply, addWatchedRanges, Call.isResetOrClear, Call.recorded]
  | checkAccess vmAddr len pos =>
      rw [apply, checkAccess_eq ht pos]
      by_cases hshare : SharesByte vmAddr len t.watchedRanges <;>
        simp [Call.isResetOrClear, Call.recorded, hshare]
  | reset => rfl
  | clear => rfl

theorem afterCalls_concat (calls : List Call) (c : Call) :
    afterCalls (calls ++ [c]) = (afterCalls calls).apply c := by
  simp [afterCalls]

theorem afterCalls_wellFormed (calls : List Call) : (afterCalls calls).WellFormed := by
  induction calls using List.reverseRecOn with
  | nil => exact new_wellFormed
  | append_singleton calls c ih =>
      rw [afterCalls_concat]
      exact apply_wellFormed ih c

/-- After every history of calls the tracker is enabled iff something is watched, watches the
non-empty ranges added since the last `clear`, and has recorded, in order and each once, the
accesses since the last `reset` or `clear` that touched a range watched at the time. -/
theorem afterCalls_meets_spec (calls : List Call) :
    ((afterCalls calls).enabled = true ↔ (afterCalls calls).watchedRanges ≠ []) ∧
      (afterCalls calls).watchedRanges = watchedSpec calls ∧
      (afterCalls calls).forbiddenAccesses = forbiddenSpec calls := by
  refine ⟨(afterCalls_wellFormed calls).enabled_iff, ?_⟩
  induction calls using List.reverseRecOn with
  | nil => exact ⟨rfl, rfl⟩
  | append_singleton calls c ih =>
      rcases ih with ⟨ihw, ihf⟩
      have hwf := afterCalls_wellFormed calls
      rw [afterCalls_concat, watchedSpec_concat, forbiddenSpec_concat]
      constructor
      · rw [apply_watched hwf, ihw]
      · rw [apply_forbidden hwf, ihw, ihf]

end MemoryAccessTracker

end Sbpf
end Gobble
