import Gobble.Sbpf.AddrRange
import Gobble.Sdk.InstructionsSysvar

/-!
# SysvarOffsets — where forbidden instruction bytes stand in the sysvar

Model of `GobbleDetector::calculate_forbidden_sysvar_offsets` in `gobble-lib/src/lib.rs`.  Offsets are
`usize` values, and a sum or product that does not fit panics, as it does in the debug build.

`calculateForbiddenSysvarOffsets_spec` compares the computed offsets with the format of the sysvar:
they select the forbidden bytes of the target instruction and nothing else.
-/

namespace Gobble
namespace Detector

open Lib Sbpf Sdk

structure DetectionConfig where
  /-- Instruction index to watch. -/
  instructionIndex : Nat
  /-- Forbidden byte ranges within the instruction data. -/
  forbiddenRanges : List AddrRange
  deriving DecidableEq, Repr

/-- Simplified instruction info for address calculation. -/
structure InstructionInfo where
  numAccounts : U64
  dataLen : U64
  deriving DecidableEq, Repr

inductive DetectorError where
  | invalidInstructionIndex (index have_ : Nat)
  | rangeExceedsData (range : AddrRange) (dataLen : U64)
  deriving DecidableEq, Repr

/-- Over the fields in front of the data of an instruction. -/
def skipHeader (instr : InstructionInfo) (offset : U64) : Outcome DetectorError U64 := do
  -- The number of accounts, and flags and key of each.
  let offset ← U64.addOrPanic offset 2
  let accounts ← U64.mulOrPanic instr.numAccounts 33
  let offset ← U64.addOrPanic offset accounts
  -- The program id, and the length of the data.
  let offset ← U64.addOrPanic offset 32
  U64.addOrPanic offset 2

/-- The loop over the instructions before the target. -/
def skipInstructions (instructionIndex : Nat) :
    (idx : Nat) → List InstructionInfo → U64 → Outcome DetectorError U64
  | _, [], offset => .ok offset
  | idx, instr :: rest, offset =>
      if idx = instructionIndex then .ok offset
      else do
        let offset ← skipHeader instr offset
        let offset ← U64.addOrPanic offset instr.dataLen
        skipInstructions instructionIndex (idx + 1) rest offset

/-- The loop over the forbidden ranges. -/
def shiftRanges (dataLen offset : U64) : List AddrRange → Outcome DetectorError (List AddrRange)
  | [] => .ok []
  | range :: rest =>
      if range.stop > dataLen then
        Outcome.err (.rangeExceedsData range dataLen)
      else do
        let shifted ← shiftRange offset range
        let rest ← shiftRanges dataLen offset rest
        return shifted :: rest

/-- The offset of the data of the target. -/
def dataStart (instructionIndex : Nat) (target : InstructionInfo)
    (instructions : List InstructionInfo) : Outcome DetectorError U64 := do
  -- `num_instructions` and the offset table
  let table ← U64.mulOrPanic 2 (BitVec.ofNat 64 instructions.length)
  let offset ← U64.addOrPanic 2 table
  let offset ← skipInstructions instructionIndex 0 instructions offset
  skipHeader target offset

def calculateForbiddenSysvarOffsets (config : DetectionConfig)
    (instructions : List InstructionInfo) : Outcome DetectorError (List AddrRange) :=
  match instructions[config.instructionIndex]? with
  | none => Outcome.err (.invalidInstructionIndex config.instructionIndex instructions.length)
  | some target => do
      let offset ← dataStart config.instructionIndex target instructions
      shiftRanges target.dataLen offset config.forbiddenRanges

/-- What the command line tool passes for an instruction. -/
def InstructionInfo.ofInstruction (ix : BorrowedInstruction) : InstructionInfo :=
  { numAccounts := BitVec.ofNat 64 ix.accounts.length
    dataLen := BitVec.ofNat 64 ix.data.length }

/-! ## The running offset is the position of the encoder -/

/-- The lengths of an instruction fit into machine words, as those of every slice do. -/
def Countable (ix : BorrowedInstruction) : Prop :=
  ix.accounts.length ≤ u64Max ∧ ix.data.length ≤ u64Max

theorem skipHeader_eq {ix : BorrowedInstruction} (hix : Countable ix) (offset : U64) :
    skipHeader (InstructionInfo.ofInstruction ix) offset =
      U64.ofNatOrPanic (offset.toNat + ix.encodeHeader.length) := by
  have haccounts : (InstructionInfo.ofInstruction ix).numAccounts.toNat = ix.accounts.length :=
    U64.toNat_ofNat hix.1
  have hlength : offset.toNat + ix.encodeHeader.length =
      offset.toNat + 2 + ix.accounts.length * 33 + 32 + 2 := by
    rw [length_encodeHeader]
    omega
  rw [hlength]
  refine U64.ofNatOrPanic_bind (g := fun n => n + ix.accounts.length * 33 + 32 + 2) (fun c => ?_)
    (by omega)
  unfold U64.mulOrPanic
  rw [haccounts]
  refine U64.ofNatOrPanic_bind (g := fun n => c.toNat + n + 32 + 2) (fun accounts => ?_) (by omega)
  refine U64.ofNatOrPanic_bind (g := fun n => n + 32 + 2) (fun c => ?_) (by omega)
  exact U64.ofNatOrPanic_bind (g := fun n => n + 2) (fun c => rfl) (by omega)

/-- The loop moves over the encoded instructions before the target. -/
theorem skipInstructions_eq (target idx : Nat) {ixs : List BorrowedInstruction}
    (hixs : ∀ ix ∈ ixs, Countable ix) (offset : U64) (hidx : idx ≤ target) :
    skipInstructions target idx (ixs.map InstructionInfo.ofInstruction) offset =
      U64.ofNatOrPanic (offset.toNat +
        ((ixs.take (target - idx)).flatMap BorrowedInstruction.encode).length) := by
  have hstay : (.ok offset : Outcome DetectorError U64) = U64.ofNatOrPanic offset.toNat :=
    (U64.ofNatOrPanic_eq_ok_iff.mpr ⟨offset.toNat_le_u64Max, rfl⟩).symm
  -- The offset is a machine word at every step; its value as a number is what is compared.
  induction ixs generalizing idx offset with
  | nil => simpa [skipInstructions] using hstay
  | cons ix rest ih =>
      rw [List.map_cons, skipInstructions]
      -- The loop ends at the target, before it is moved over.
      by_cases heq : idx = target
      · subst heq
        simpa using hstay
      · have hix := hixs ix List.mem_cons_self
        have hdata : (InstructionInfo.ofInstruction ix).dataLen.toNat = ix.data.length :=
          U64.toNat_ofNat hix.2
        have hnext : target - idx = (target - (idx + 1)) + 1 := by omega
        have hrest : ∀ c : U64, skipInstructions target (idx + 1)
            (rest.map InstructionInfo.ofInstruction) c = U64.ofNatOrPanic (c.toNat + _) :=
          fun c => ih (idx + 1) (fun ix' hix' => hixs ix' (List.mem_cons_of_mem ix hix')) c
            (by omega) (U64.ofNatOrPanic_eq_ok_iff.mpr ⟨c.toNat_le_u64Max, rfl⟩).symm
        rw [if_neg heq, hnext, List.take_succ_cons, List.flatMap_cons, List.length_append,
          BorrowedInstruction.encode, List.length_append, skipHeader_eq hix, ← Nat.add_assoc,
          ← Nat.add_assoc]
        refine U64.ofNatOrPanic_bind (g := fun n => n + ix.data.length + _) (fun c => ?_) (by omega)
        unfold U64.addOrPanic
        rw [hdata]
        exact U64.ofNatOrPanic_bind (g := fun n => n + _) hrest (by omega)

/-- The computed start is the position of the data in the encoded sysvar. -/
theorem dataStart_eq {ixs : List BorrowedInstruction} {t : Nat} {ix : BorrowedInstruction}
    (hix : ixs[t]? = some ix) (hixs : ∀ ix ∈ ixs, Countable ix) (hcount : ixs.length ≤ u64Max) :
    dataStart t (InstructionInfo.ofInstruction ix) (ixs.map InstructionInfo.ofInstruction) =
      U64.ofNatOrPanic (dataOffset ixs t) := by
  have hlength : (BitVec.ofNat 64 (ixs.map InstructionInfo.ofInstruction).length).toNat =
      ixs.length := by
    rw [List.length_map]
    exact U64.toNat_ofNat hcount
  have hskip : ∀ c : U64, skipInstructions t 0 (ixs.map InstructionInfo.ofInstruction) c =
      U64.ofNatOrPanic (c.toNat + _) :=
    fun c => skipInstructions_eq t 0 hixs c (Nat.zero_le t)
  have htarget : ∀ c : U64, skipHeader (InstructionInfo.ofInstruction ix) c =
      U64.ofNatOrPanic (c.toNat + _) :=
    skipHeader_eq (hixs ix (List.mem_of_getElem? hix))
  rw [dataOffset_eq hix, length_bytesBefore, instructionOffset]
  unfold dataStart U64.mulOrPanic
  rw [hlength]
  refine U64.ofNatOrPanic_bind (g := fun n => 2 + n + _ + _) (fun table => ?_) (by omega)
  refine U64.ofNatOrPanic_bind (g := fun n => n + _ + _) (fun c => ?_) (by omega)
  rw [hskip c]
  exact U64.ofNatOrPanic_bind (g := fun n => n + _) htarget (by omega)

/-- The ranges are checked one by one and moved. -/
theorem shiftRanges_eq_ok_iff {dataLen offset : U64} {ranges offsets : List AddrRange} :
    shiftRanges dataLen offset ranges = .ok offsets ↔
      (∀ r ∈ ranges, r.stop ≤ dataLen) ∧
        (ranges.mapM (shiftRange offset) : Outcome DetectorError _) = .ok offsets := by
  induction ranges generalizing offsets with
  | nil => simp [shiftRanges, Pure.pure, Except.pure]
  | cons r rest ih =>
      rw [shiftRanges, List.forall_mem_cons, mapM_cons_eq_ok]
      by_cases hr : r.stop > dataLen
      · rw [if_pos hr]
        constructor
        · intro h
          cases h
        · rintro ⟨⟨hle, -⟩, -⟩
          exact absurd hr (BitVec.not_lt.mpr hle)
      · rw [if_neg hr]
        constructor
        · intro h
          obtain ⟨shifted, hshifted, h⟩ := bind_eq_ok h
          obtain ⟨rest', hrest, h⟩ := bind_eq_ok h
          cases h
          obtain ⟨hstop, hmap⟩ := ih.mp hrest
          exact ⟨⟨BitVec.not_lt.mp hr, hstop⟩, shifted, rest', hshifted, hmap, rfl⟩
        · rintro ⟨⟨-, hstop⟩, shifted, rest', hshifted, hmap, rfl⟩
          rw [hshifted, ih.mpr ⟨hstop, hmap⟩]
          rfl

/-- When there are offsets, and which ones: the forbidden ranges end inside of the data, and are moved
by its position. -/
theorem calculateForbiddenSysvarOffsets_eq_ok_iff {ixs : List BorrowedInstruction} {t : Nat}
    {ranges offsets : List AddrRange} (hixs : ∀ ix ∈ ixs, Countable ix)
    (hcount : ixs.length ≤ u64Max) :
    calculateForbiddenSysvarOffsets ⟨t, ranges⟩ (ixs.map InstructionInfo.ofInstruction) =
        .ok offsets ↔
      ∃ ix start, ixs[t]? = some ix ∧
        (U64.ofNatOrPanic (dataOffset ixs t) : Outcome DetectorError U64) = .ok start ∧
        (∀ r ∈ ranges, r.stop.toNat ≤ ix.data.length) ∧
        (ranges.mapM (shiftRange start) : Outcome DetectorError _) = .ok offsets := by
  unfold calculateForbiddenSysvarOffsets
  dsimp only
  cases hix : ixs[t]? with
  | none =>
      rw [List.getElem?_map, hix]
      simp [Outcome.err]
  | some ix =>
      have hdata : (InstructionInfo.ofInstruction ix).dataLen.toNat = ix.data.length :=
        U64.toNat_ofNat (hixs ix (List.mem_of_getElem? hix)).2
      rw [List.getElem?_map, hix, Option.map_some]
      dsimp only
      rw [dataStart_eq hix hixs hcount]
      constructor
      · intro h
        obtain ⟨start, hstart, h⟩ := bind_eq_ok h
        obtain ⟨hstop, hmap⟩ := shiftRanges_eq_ok_iff.mp h
        refine ⟨ix, start, rfl, hstart, fun r hr => ?_, hmap⟩
        rw [← hdata]
        exact BitVec.le_def.mp (hstop r hr)
      · rintro ⟨ix', start, hix', hstart, hstop, hmap⟩
        cases hix'
        rw [hstart]
        refine shiftRanges_eq_ok_iff.mpr ⟨fun r hr => BitVec.le_def.mpr ?_, hmap⟩
        rw [hdata]
        exact hstop r hr

/-- The bytes that a range of positions selects. -/
def selected (bytes : List UInt8) (r : AddrRange) : List UInt8 :=
  slice bytes r.start.toNat r.stop.toNat

theorem map_selected (bytes : List UInt8) (ranges : List AddrRange) :
    ranges.map (selected bytes) = (movedBy 0 ranges).map fun p => slice bytes p.1 p.2 := by
  simp [movedBy, selected, Function.comp_def]

/-- The sysvar is larger than each of the counts in it. -/
theorem countable_of_size {ixs : List BorrowedInstruction}
    (hsize : (constructInstructionsData ixs).length ≤ u64Max) :
    (∀ ix ∈ ixs, Countable ix) ∧ ixs.length ≤ u64Max := by
  constructor
  · intro ix hmem
    obtain ⟨t, hix⟩ := List.mem_iff_getElem?.mp hmem
    have hfit := dataOffset_add_length_le hix
    rw [dataOffset_eq hix, length_encodeHeader] at hfit
    exact ⟨by omega, by omega⟩
  · simp only [constructInstructionsData, List.length_append, length_leBytes,
      length_encodeTable] at hsize
    omega

/-- The computed offsets agree with the format of the sysvar: one range per forbidden range, in
order; each selects the bytes of its forbidden range; together they cover exactly the positions of
the forbidden bytes; and the start they are counted from is the one a decoding program reaches. -/
theorem calculateForbiddenSysvarOffsets_spec (ixs : List BorrowedInstruction)
    (hsize : (constructInstructionsData ixs).length < 2 ^ 16) (t : Nat)
    (ix : BorrowedInstruction) (hix : ixs[t]? = some ix) (ranges : List AddrRange)
    (hranges : ∀ r ∈ ranges, r.start ≤ r.stop ∧ r.stop.toNat ≤ ix.data.length) :
    ∃ offsets,
      calculateForbiddenSysvarOffsets ⟨t, ranges⟩ (ixs.map InstructionInfo.ofInstruction) =
          .ok offsets ∧
        offsets.map (selected (constructInstructionsData ixs)) =
          ranges.map (selected ix.data) ∧
        (∀ p, (∃ o ∈ offsets, o.Contains p) ↔
          ∃ j, (∃ r ∈ ranges, r.Contains j) ∧ p = dataOffset ixs t + j) ∧
        ∃ start, loadDataStart (constructInstructionsData ixs) t =
            some (start, ix.data.length) ∧
          offsets.map (fun o => (o.start.toNat, o.stop.toNat)) =
            ranges.map fun r => (start + r.start.toNat, start + r.stop.toNat) := by
  have hfit := dataOffset_add_length_le hix
  obtain ⟨hixs, hcount⟩ := countable_of_size (hsize.le.trans (by decide))
  -- No sum overflows: all positions are below `2 ^ 16`.
  have hstart : (U64.ofNatOrPanic (dataOffset ixs t) : Outcome DetectorError U64) =
      .ok (BitVec.ofNat 64 (dataOffset ixs t)) := if_pos (by unfold u64Max; omega)
  have hvalue := (U64.ofNatOrPanic_eq_ok_iff.mp hstart).2
  obtain ⟨offsets, hmap⟩ : ∃ offsets,
      (ranges.mapM (shiftRange (BitVec.ofNat 64 (dataOffset ixs t))) :
        Outcome DetectorError _) = .ok offsets := by
    refine mapM_shiftRange_ok fun r hr => ?_
    obtain ⟨hle, hlen⟩ := hranges r hr
    rw [BitVec.le_def] at hle
    rw [hvalue]
    unfold u64Max
    exact ⟨by omega, by omega⟩
  have hmoved := mapM_shiftRange_exact hmap
  rw [hvalue] at hmoved
  refine ⟨offsets, (calculateForbiddenSysvarOffsets_eq_ok_iff hixs hcount).mpr
    ⟨ix, _, hix, hstart, fun r hr => (hranges r hr).2, hmap⟩, ?_, fun p => ?_, dataOffset ixs t,
    loadDataStart_constructInstructionsData hsize hix, ?_⟩
  · rw [map_selected, hmoved, movedBy, List.map_map]
    apply List.map_congr_left
    intro r hr
    exact slice_data hix (hranges r hr).2
  · rw [movedBy_contains hmoved]
    constructor
    · rintro ⟨r, hr, k, hk, rfl⟩
      exact ⟨k, ⟨r, hr, hk⟩, rfl⟩
    · rintro ⟨k, ⟨r, hr, hk⟩, rfl⟩
      exact ⟨r, hr, k, hk, rfl⟩
  · simpa [movedBy] using hmoved

/-- Bytes 8 to 16 of the second of two instructions. -/
theorem calculateForbiddenSysvarOffsets_second :
    ∃ offsets,
      calculateForbiddenSysvarOffsets ⟨1, [⟨8, 16⟩]⟩
          ([⟨[⟨true, false, Vector.replicate 32 1⟩], [1, 2, 3], Vector.replicate 32 2⟩,
            ⟨[], List.replicate 16 7, Vector.replicate 32 3⟩].map InstructionInfo.ofInstruction) =
        .ok offsets ∧ offsets = [⟨122, 130⟩] := by
  obtain ⟨offsets, hok, -, -, -⟩ := calculateForbiddenSysvarOffsets_spec
    [⟨[⟨true, false, Vector.replicate 32 1⟩], [1, 2, 3], Vector.replicate 32 2⟩,
      ⟨[], List.replicate 16 7, Vector.replicate 32 3⟩]
    (by decide +kernel) 1 ⟨[], List.replicate 16 7, Vector.replicate 32 3⟩ rfl [⟨8, 16⟩] (by decide)
  refine ⟨offsets, hok, ?_⟩
  have hvalue : calculateForbiddenSysvarOffsets ⟨1, [⟨8, 16⟩]⟩
      ([⟨[⟨true, false, Vector.replicate 32 1⟩], [1, 2, 3], Vector.replicate 32 2⟩,
        ⟨[], List.replicate 16 7, Vector.replicate 32 3⟩].map InstructionInfo.ofInstruction) =
      .ok [⟨122, 130⟩] := by
    decide +kernel
  exact Except.ok.inj (hok.symm.trans hvalue)

end Detector
end Gobble
