import Gobble.Sbpf.MemoryRegion

/-!
# GappedRegion — which bytes an access to a region touches

A gapped region spreads its host memory over twice the address space: frame, gap, frame, gap.  This
file says in natural numbers what the shifts and masks of `vm_to_host` compute, and compares the host
bytes that an access is given with the bytes that its VM addresses stand for.

`vm_to_host` looks for a gap at the first byte of an access only.  An access that starts in a frame
and is too long for it is given the bytes of the *next* frame for the addresses of the gap.
-/

namespace Gobble
namespace Sbpf

open Lib

namespace MemoryRegion

/-- Frames and gaps have this size. -/
def frameSize (r : MemoryRegion) : Nat := 2 ^ r.vmGapShift.toNat

/-- A continuous region, or whole frames of a size that is a power of two. -/
def Framed (r : MemoryRegion) : Prop :=
  r.vmGapShift = 63 ∨ (r.vmGapShift.toNat < 63 ∧ r.frameSize ∣ r.len.toNat)

instance (r : MemoryRegion) : Decidable r.Framed :=
  inferInstanceAs (Decidable (_ ∨ _))

/-- The offset is one of a frame. -/
def FrameOffset (r : MemoryRegion) (offset : Nat) : Prop :=
  r.vmGapShift = 63 ∨ offset / r.frameSize % 2 = 0

instance (r : MemoryRegion) (offset : Nat) : Decidable (r.FrameOffset offset) :=
  inferInstanceAs (Decidable (_ ∨ _))

/-- The place in the host memory of an offset of a frame: without the gaps before it. -/
def hostOffset (r : MemoryRegion) (offset : Nat) : Nat :=
  if r.vmGapShift = 63 then offset
  else r.frameSize * (offset / r.frameSize / 2) + offset % r.frameSize

/-- The VM address is one of the region's, and not in a gap. -/
def InFrame (r : MemoryRegion) (v : Nat) : Prop :=
  r.vmAddrRange.Contains v ∧ r.FrameOffset (v - r.vmAddr.toNat)

instance (r : MemoryRegion) (v : Nat) : Decidable (r.InFrame v) :=
  inferInstanceAs (Decidable (_ ∧ _))

/-- The host address of the byte that a VM address in a frame stands for. -/
def hostByte (r : MemoryRegion) (v : Nat) : Nat :=
  r.hostAddr.toNat + r.hostOffset (v - r.vmAddr.toNat)

/-! ## The translation in natural numbers -/

theorem frameSize_pos (r : MemoryRegion) : 0 < r.frameSize :=
  Nat.two_pow_pos _

theorem toNat_checkedShr (x : U64) (shift : Nat) : (checkedShr x shift).toNat = x.toNat / 2 ^ shift := by
  unfold checkedShr
  split
  · rw [BitVec.toNat_ushiftRight, Nat.shiftRight_eq_div_pow]
  · rename_i hshift
    -- All bits are shifted out.
    have hlt : x.toNat < 2 ^ shift :=
      Nat.lt_of_lt_of_le x.isLt (Nat.pow_le_pow_right (by decide) (Nat.not_lt.mp hshift))
    rw [Nat.div_eq_of_lt hlt]
    rfl

theorem isInGap_iff (r : MemoryRegion) (offset : U64) :
    r.isInGap offset = true ↔ offset.toNat / r.frameSize % 2 = 1 := by
  unfold isInGap frameSize
  rw [beq_iff_eq, ← BitVec.toNat_inj, BitVec.toNat_and, toNat_checkedShr]
  exact Iff.of_eq (congrArg (· = 1) (Nat.and_one_is_mod _))

/-- The two masked parts of the offset. -/
theorem toNat_gapParts (x : U64) (shift : Nat) :
    (x &&& checkedShl (BitVec.allOnes 64) shift).toNat = x.toNat / 2 ^ shift * 2 ^ shift ∧
      (x &&& ~~~checkedShl (BitVec.allOnes 64) shift).toNat = x.toNat % 2 ^ shift := by
  unfold checkedShl
  split
  · exact ⟨toNat_and_allOnes_shiftLeft x shift, toNat_and_not_allOnes_shiftLeft x shift⟩
  · rename_i hshift
    have hlt : x.toNat < 2 ^ shift :=
      Nat.lt_of_lt_of_le x.isLt (Nat.pow_le_pow_right (by decide) (Nat.not_lt.mp hshift))
    have hnone : x &&& 0 = 0 := BitVec.and_zero
    have hall : x &&& ~~~0 = x := BitVec.and_allOnes
    rw [Nat.div_eq_of_lt hlt, Nat.mod_eq_of_lt hlt, hnone, hall, Nat.zero_mul]
    exact ⟨rfl, rfl⟩

/-- Outside of gaps the masks and the shift take out the gaps before the offset. -/
theorem toNat_gappedOffset {r : MemoryRegion} {offset : U64} (hgapped : r.vmGapShift ≠ 63)
    (hgap : r.isInGap offset = false) :
    (r.gappedOffset offset).toNat = r.hostOffset offset.toNat := by
  have heven : offset.toNat / r.frameSize % 2 = 0 := by
    have hodd := mt (r.isInGap_iff offset).mpr (by simp [hgap])
    omega
  obtain ⟨hhigh, hlow⟩ := toNat_gapParts offset r.vmGapShift.toNat
  unfold hostOffset gappedOffset
  rw [if_neg hgapped]
  dsimp only
  rw [BitVec.toNat_or, toNat_checkedShr, hhigh, hlow]
  change offset.toNat / r.frameSize * r.frameSize / 2 ^ 1 ||| offset.toNat % r.frameSize = _
  -- The number of the frame is even, so halving it loses nothing and the two parts stay apart.
  obtain ⟨k, hk⟩ := Nat.dvd_of_mod_eq_zero heven
  have hhalf : 2 * k * r.frameSize / 2 ^ 1 = r.frameSize * k := by
    rw [Nat.mul_assoc, Nat.mul_comm k, Nat.pow_one, Nat.mul_div_cancel_left _ (by decide)]
  rw [hk, hhalf, Nat.mul_div_cancel_left _ (by decide)]
  exact (Nat.two_pow_add_eq_or_of_lt (Nat.mod_lt _ r.frameSize_pos) k).symm

/-- The access is permitted, starts in a frame, and as many bytes as it has are left of the host
memory from there on. -/
structure Admits (r : MemoryRegion) (accessType : AccessType) (vmAddr len : U64) : Prop where
  permitted : accessType = .store → r.writable = true
  above : r.vmAddr.toNat ≤ vmAddr.toNat
  starts : r.FrameOffset (vmAddr.toNat - r.vmAddr.toNat)
  room : r.hostOffset (vmAddr.toNat - r.vmAddr.toNat) + len.toNat ≤ r.len.toNat

/-- The two comparisons at the end of `vm_to_host`: the sum does not overflow, and is in bounds. -/
theorem bounded_eq_some_iff (hostAddr limit offset len h : U64) (c : Prop) [Decidable c] :
    (match U64.checkedAdd offset len with
      | some endOffset =>
          if endOffset ≤ limit ∧ c then some (U64.saturatingAdd hostAddr offset) else none
      | none => none) = some h ↔
      c ∧ offset.toNat + len.toNat ≤ limit.toNat ∧
        h.toNat = min (hostAddr.toNat + offset.toNat) u64Max := by
  have hlimit := U64.toNat_le_u64Max limit
  constructor
  · intro heq
    cases hadd : U64.checkedAdd offset len with
    | none => simp [hadd] at heq
    | some endOffset =>
        obtain ⟨-, hsum⟩ := U64.checkedAdd_eq_some_iff.mp hadd
        simp only [hadd, Option.ite_none_right_eq_some, Option.some.injEq] at heq
        obtain ⟨⟨hend, hc⟩, rfl⟩ := heq
        rw [BitVec.le_def] at hend
        exact ⟨hc, by omega, U64.toNat_saturatingAdd ..⟩
  · rintro ⟨hc, hend, hh⟩
    have hsum : (offset + len).toNat = offset.toNat + len.toNat := by
      rw [BitVec.toNat_add]
      unfold u64Max at hlimit
      omega
    have hadd : U64.checkedAdd offset len = some (offset + len) :=
      U64.checkedAdd_eq_some_iff.mpr ⟨by omega, hsum⟩
    have hle : offset + len ≤ limit := by
      rw [BitVec.le_def, hsum]
      exact hend
    have hhost : U64.saturatingAdd hostAddr offset = h := by
      apply BitVec.eq_of_toNat_eq
      rw [U64.toNat_saturatingAdd, hh]
    simp only [hadd, if_pos (And.intro hle hc), hhost]

/-- What `vm_to_host` checks and what it returns. -/
theorem vmToHost_eq_some_iff_min {r : MemoryRegion} {accessType : AccessType}
    {vmAddr len h : U64} :
    r.vmToHost accessType vmAddr len = some h ↔
      r.Admits accessType vmAddr len ∧ h.toNat = min (r.hostByte vmAddr.toNat) u64Max := by
  unfold vmToHost
  by_cases hdenied : accessType = .store ∧ !r.writable
  · rw [if_pos hdenied]
    constructor
    · intro hnone
      cases hnone
    · rintro ⟨hadmits, -⟩
      simp [hadmits.permitted hdenied.1] at hdenied
  rw [if_neg hdenied]
  by_cases hbelow : vmAddr < r.vmAddr
  · rw [if_pos hbelow]
    constructor
    · intro hnone
      cases hnone
    · rintro ⟨hadmits, -⟩
      exact absurd hadmits.above (Nat.not_le.mpr hbelow)
  rw [if_neg hbelow]
  have hpermitted : accessType = .store → r.writable = true := by simpa using hdenied
  have habove : r.vmAddr.toNat ≤ vmAddr.toNat := Nat.not_lt.mp hbelow
  dsimp only
  have hoffset : (U64.saturatingSub vmAddr r.vmAddr).toNat = vmAddr.toNat - r.vmAddr.toNat :=
    U64.toNat_saturatingSub ..
  generalize U64.saturatingSub vmAddr r.vmAddr = offset at hoffset
  by_cases hgap : r.vmGapShift = 63
  · have hwhole := bounded_eq_some_iff r.hostAddr r.len offset len h True
    simp only [and_true, true_and] at hwhole
    rw [if_pos hgap]
    refine hwhole.trans ?_
    rw [hoffset]
    have hhost : r.hostOffset (vmAddr.toNat - r.vmAddr.toNat) = vmAddr.toNat - r.vmAddr.toNat :=
      if_pos hgap
    constructor
    · rintro ⟨hroom, hh⟩
      exact ⟨⟨hpermitted, habove, .inl hgap, by rw [hhost]; exact hroom⟩, by
        rw [hostByte, hhost]; exact hh⟩
    · rintro ⟨hadmits, hh⟩
      have hroom := hadmits.room
      rw [hostByte, hhost] at hh
      rw [hhost] at hroom
      exact ⟨hroom, hh⟩
  · rw [if_neg hgap]
    refine (bounded_eq_some_iff r.hostAddr r.len _ len h _).trans ?_
    have hstarts : r.FrameOffset (vmAddr.toNat - r.vmAddr.toNat) ↔
        (!r.isInGap offset) = true := by
      have hodd := r.isInGap_iff offset
      rw [hoffset] at hodd
      unfold FrameOffset
      rw [or_iff_right hgap, Bool.not_eq_true', ← Bool.not_eq_true, hodd]
      omega
    constructor
    · rintro ⟨hframe, hroom, hh⟩
      have hhost := toNat_gappedOffset hgap (by simpa using hframe)
      rw [hhost, hoffset] at hroom hh
      exact ⟨⟨hpermitted, habove, hstarts.mpr hframe, hroom⟩, hh⟩
    · rintro ⟨hadmits, hh⟩
      have hframe := hstarts.mp hadmits.starts
      have hhost := toNat_gappedOffset hgap (by simpa using hframe)
      rw [hhost, hoffset]
      exact ⟨hframe, hadmits.room, hh⟩

/-- No host address is cut off if the host memory fits into the address space. -/
theorem vmToHost_eq_some_iff {r : MemoryRegion} (hfits : r.HostFits) {accessType : AccessType}
    {vmAddr len h : U64} :
    r.vmToHost accessType vmAddr len = some h ↔
      r.Admits accessType vmAddr len ∧ h.toNat = r.hostByte vmAddr.toNat := by
  rw [vmToHost_eq_some_iff_min]
  constructor <;> rintro ⟨hadmits, hh⟩ <;> refine ⟨hadmits, ?_⟩
  all_goals
    have hroom := hadmits.room
    unfold HostFits at hfits
    unfold hostByte at hh ⊢
    omega

/-! ## Bytes of frames -/

/-- As long as the frame does not end, the host bytes follow each other like the addresses. -/
theorem hostOffset_add {r : MemoryRegion} {offset i : Nat}
    (hframe : r.vmGapShift = 63 ∨ offset % r.frameSize + i < r.frameSize) :
    r.hostOffset (offset + i) = r.hostOffset offset + i ∧
      (r.FrameOffset offset → r.FrameOffset (offset + i)) := by
  by_cases hgap : r.vmGapShift = 63
  · simp [hostOffset, FrameOffset, hgap]
  · have hlt := hframe.resolve_left hgap
    have hsplit : offset + i =
        r.frameSize * (offset / r.frameSize) + (offset % r.frameSize + i) := by
      rw [← Nat.add_assoc, Nat.div_add_mod]
    have hdiv : (offset + i) / r.frameSize = offset / r.frameSize := by
      rw [hsplit, Nat.mul_add_div r.frameSize_pos, Nat.div_eq_of_lt hlt, Nat.add_zero]
    have hmod : (offset + i) % r.frameSize = offset % r.frameSize + i := by
      rw [hsplit, Nat.mul_add_mod, Nat.mod_eq_of_lt hlt]
    constructor
    · simp only [hostOffset, if_neg hgap, hdiv, hmod, Nat.add_assoc]
    · simp only [FrameOffset, hdiv, imp_self]

/-- The address that follows the last byte of a frame is in a gap. -/
theorem not_frameOffset_end {r : MemoryRegion} {offset : Nat} (hgap : r.vmGapShift ≠ 63)
    (hframe : r.FrameOffset offset) :
    ¬ r.FrameOffset (offset + (r.frameSize - offset % r.frameSize)) := by
  have heven := hframe.resolve_left hgap
  have hmod : offset % r.frameSize < r.frameSize := Nat.mod_lt _ r.frameSize_pos
  have hsplit : offset + (r.frameSize - offset % r.frameSize) =
      r.frameSize * (offset / r.frameSize + 1) := by
    have hdiv := Nat.div_add_mod offset r.frameSize
    rw [Nat.mul_add, Nat.mul_one]
    omega
  rintro (hcontinuous | hnext)
  · exact hgap hcontinuous
  · rw [hsplit, Nat.mul_div_cancel_left _ r.frameSize_pos] at hnext
    omega

/-- Different offsets of frames have different host bytes. -/
theorem hostOffset_injective {r : MemoryRegion} {offset offset' : Nat}
    (hframe : r.FrameOffset offset) (hframe' : r.FrameOffset offset')
    (heq : r.hostOffset offset = r.hostOffset offset') : offset = offset' := by
  by_cases hgap : r.vmGapShift = 63
  · simpa [hostOffset, hgap] using heq
  · simp only [hostOffset, if_neg hgap] at heq
    have hmod : offset % r.frameSize < r.frameSize := Nat.mod_lt _ r.frameSize_pos
    have hmod' : offset' % r.frameSize < r.frameSize := Nat.mod_lt _ r.frameSize_pos
    have hdiv := congrArg (· / r.frameSize) heq
    have hrest := congrArg (· % r.frameSize) heq
    simp only [Nat.mul_add_div r.frameSize_pos, Nat.div_eq_of_lt hmod, Nat.div_eq_of_lt hmod',
      Nat.mul_add_mod, Nat.mod_eq_of_lt hmod, Nat.mod_eq_of_lt hmod', Nat.add_zero] at hdiv hrest
    have heven := hframe.resolve_left hgap
    have heven' := hframe'.resolve_left hgap
    have hnumber : offset / r.frameSize = offset' / r.frameSize := by omega
    rw [← Nat.div_add_mod offset r.frameSize, ← Nat.div_add_mod offset' r.frameSize, hnumber, hrest]

/-- The end of the addresses of a region, which is at most the last address. -/
theorem toNat_vmAddrRange_stop (r : MemoryRegion) :
    r.vmAddrRange.stop.toNat =
      min (r.vmAddr.toNat + if r.vmGapShift = 63 then r.len.toNat else r.len.toNat * 2) u64Max := by
  have htwo : (2 : U64).toNat = 2 := rfl
  unfold vmAddrRange
  split
  · exact U64.toNat_saturatingAdd ..
  · dsimp only
    rw [U64.toNat_saturatingAdd, U64.toNat_saturatingMul, htwo]
    omega

@[simp] theorem vmAddrRange_start (r : MemoryRegion) : r.vmAddrRange.start = r.vmAddr := by
  unfold vmAddrRange
  split <;> rfl

theorem contains_vmAddrRange_iff {r : MemoryRegion} {v : Nat} :
    r.vmAddrRange.Contains v ↔ r.vmAddr.toNat ≤ v ∧ v < u64Max ∧
      v < r.vmAddr.toNat + (if r.vmGapShift = 63 then r.len.toNat else r.len.toNat * 2) := by
  unfold AddrRange.Contains
  rw [vmAddrRange_start, toNat_vmAddrRange_stop]
  omega

/-! ## Exact accesses -/

/-- What an access should be like: each of its bytes is the byte that its VM address stands for, and
no two addresses stand for the same byte. -/
structure ByteExact (r : MemoryRegion) (accessType : AccessType) (vmAddr len : U64) : Prop where
  translated : ∀ h, r.vmToHost accessType vmAddr len = some h → ∀ i < len.toNat,
    r.InFrame (vmAddr.toNat + i) ∧ h.toNat + i = r.hostByte (vmAddr.toNat + i) ∧
      h.toNat + i ∈ r.hostBytes
  distinct : ∀ v v', r.InFrame v → r.InFrame v' → r.hostByte v = r.hostByte v' → v = v'

theorem hostByte_injective {r : MemoryRegion} {v v' : Nat} (hv : r.InFrame v) (hv' : r.InFrame v')
    (heq : r.hostByte v = r.hostByte v') : v = v' := by
  have hoffsets := hostOffset_injective hv.2 hv'.2 (Nat.add_left_cancel heq)
  have habove := (contains_vmAddrRange_iff.mp hv.1).1
  have habove' := (contains_vmAddrRange_iff.mp hv'.1).1
  omega

/-- An access that stays in the frame in which it starts is inside of the region. -/
theorem Admits.inFrame {r : MemoryRegion} {accessType : AccessType} {vmAddr len : U64} {i : Nat}
    (h : r.Admits accessType vmAddr len) (hframed : r.Framed)
    (htop : vmAddr.toNat + len.toNat ≤ u64Max) (hi : i < len.toNat)
    (hframe : r.vmGapShift = 63 ∨
      (vmAddr.toNat - r.vmAddr.toNat) % r.frameSize + i < r.frameSize) :
    r.InFrame (vmAddr.toNat + i) := by
  have habove := h.above
  have hroom := h.room
  have hsub : vmAddr.toNat + i - r.vmAddr.toNat = vmAddr.toNat - r.vmAddr.toNat + i := by omega
  constructor
  · rw [contains_vmAddrRange_iff]
    refine ⟨by omega, by omega, ?_⟩
    by_cases hgap : r.vmGapShift = 63
    · rw [hostOffset, if_pos hgap] at hroom
      rw [if_pos hgap]
      omega
    · -- There is at least one more frame in the host memory, so the next gap is still in range.
      rw [hostOffset, if_neg hgap] at hroom
      rw [if_neg hgap]
      obtain ⟨frames, hframes⟩ := (hframed.resolve_left hgap).2
      have heven := h.starts.resolve_left hgap
      have hlt := hframe.resolve_left hgap
      have hdiv := Nat.div_add_mod (vmAddr.toNat - r.vmAddr.toNat) r.frameSize
      generalize (vmAddr.toNat - r.vmAddr.toNat) / r.frameSize = number at *
      obtain ⟨k, rfl⟩ := Nat.dvd_of_mod_eq_zero heven
      rw [Nat.mul_div_cancel_left _ (by decide), hframes] at hroom
      have hk : k < frames := by
        by_contra hge
        have := Nat.mul_le_mul_left r.frameSize (Nat.not_lt.mp hge)
        omega
      have hnext : r.frameSize * (k + 1) ≤ r.frameSize * frames := Nat.mul_le_mul_left _ hk
      rw [Nat.mul_add, Nat.mul_one] at hnext
      rw [Nat.mul_comm 2 k, ← Nat.mul_assoc] at hdiv
      omega
  · rw [hsub]
    exact (hostOffset_add hframe).2 h.starts

/-- The accesses to a region are byte exact if and only if those that are admitted end below the top
of the address space and, in a gapped region, in the frame in which they start. -/
theorem byteExact_iff {r : MemoryRegion} (hframed : r.Framed) (hfits : r.HostFits)
    (accessType : AccessType) (vmAddr len : U64) (hlen : 1 ≤ len.toNat) :
    r.ByteExact accessType vmAddr len ↔
      (r.Admits accessType vmAddr len →
        vmAddr.toNat + len.toNat ≤ u64Max ∧
          (r.vmGapShift = 63 ∨
            (vmAddr.toNat - r.vmAddr.toNat) % r.frameSize + len.toNat ≤ r.frameSize)) := by
  constructor
  · intro hexact hadmits
    -- The host address that the access gets.
    obtain ⟨h, hh⟩ : ∃ h : U64, h.toNat = r.hostByte vmAddr.toNat := by
      have hroom := hadmits.room
      have hlt : r.hostByte vmAddr.toNat < 2 ^ 64 := by
        unfold HostFits u64Max at hfits
        unfold hostByte
        omega
      exact ⟨BitVec.ofNat 64 _, by rw [BitVec.toNat_ofNat, Nat.mod_eq_of_lt hlt]⟩
    have hbytes := hexact.translated h ((vmToHost_eq_some_iff hfits).mpr ⟨hadmits, hh⟩)
    have hlast := contains_vmAddrRange_iff.mp (hbytes (len.toNat - 1) (by omega)).1.1
    refine ⟨by omega, ?_⟩
    by_cases hgap : r.vmGapShift = 63
    · exact .inl hgap
    · right
      by_contra hlong
      -- The byte after the end of the frame belongs to the access but is in a gap.
      have habove := hadmits.above
      have hin := (hbytes (r.frameSize - (vmAddr.toNat - r.vmAddr.toNat) % r.frameSize)
        (by omega)).1.2
      rw [Nat.sub_add_comm habove] at hin
      exact not_frameOffset_end hgap hadmits.starts hin
  · intro hstays
    refine ⟨?_, fun v v' => hostByte_injective⟩
    intro h htranslated i hi
    obtain ⟨hadmits, hh⟩ := (vmToHost_eq_some_iff hfits).mp htranslated
    obtain ⟨htop, hend⟩ := hstays hadmits
    have hframe : r.vmGapShift = 63 ∨
        (vmAddr.toNat - r.vmAddr.toNat) % r.frameSize + i < r.frameSize :=
      hend.imp_right fun hend => by omega
    refine ⟨hadmits.inFrame hframed htop hi hframe, ?_,
      vmToHost_mem_hostBytes hfits htranslated hi⟩
    rw [hh, hostByte, hostByte, Nat.sub_add_comm hadmits.above, (hostOffset_add hframe).1,
      Nat.add_assoc]

/-- The first two frames of the stack of a program. -/
def twoFrames : MemoryRegion :=
  newWritableGapped 0x100000 0x2000 mmStackStart 0x1000

/-- A load of eight bytes that starts four bytes before the end of a stack frame is translated,
although its last four bytes are in a gap. -/
theorem twoFrames_load_not_byteExact :
    twoFrames.Framed ∧ twoFrames.HostFits ∧
      ¬ twoFrames.ByteExact .load (mmStackStart + 0xFFC) 8 := by
  refine ⟨by decide, by decide, ?_⟩
  intro hexact
  have hin := (hexact.translated 0x100FFC (by decide) 4 (by decide)).1
  exact absurd hin (by decide)

/-- A load at the start of a frame is byte exact. -/
theorem twoFrames_load_byteExact :
    twoFrames.Framed ∧ twoFrames.HostFits ∧ twoFrames.ByteExact .load mmStackStart 8 := by
  refine ⟨by decide, by decide, ?_⟩
  exact (byteExact_iff (by decide) (by decide) .load mmStackStart 8 (by decide)).mpr
    fun _ => ⟨by decide, .inr (by decide)⟩

end MemoryRegion

end Sbpf
end Gobble
