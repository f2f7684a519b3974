import Gobble.ProgramRuntime.InputRegions

/-!
# InputImage — what a program sees of its input, whatever the mapping

The abstract side of serialization.  An `InputImage` is a run of VM addresses that grows at its end:
the serializer's own bytes (`chunks`) and the data of accounts (`placements`), each with the address
it starts at.  It does not know about buffers, regions or feature flags, except that it counts the
buffer bytes which a given mode uses.

`Represents` says when a `Serializer` implements an image: its cursors point to the end of the
image, its regions are in order and apart, and every byte of the image is where a region (or the
bytes not yet closed into a region) says it is.  Both operations of the serializer keep it, in every
mode; so does a whole run of a format.
-/

namespace Gobble
namespace ProgramRuntime

open Lib Sbpf Sdk Context

/-! ## The image -/

structure InputImage where
  /-- The address behind the last byte. -/
  cursor : Nat
  /-- Number of buffer bytes used. -/
  used : Nat
  /-- Number of bytes written since the last account. -/
  pending : Nat
  chunks : List (Nat × List UInt8)
  placements : List (Nat × BorrowedInstructionAccount)

namespace InputImage

def start : InputImage :=
  { cursor := mmInputStart.toNat, used := 0, pending := 0, chunks := [], placements := [] }

/-- Address space of an account's data, with room to grow and padding. -/
def accountSpan (isLoaderV1 : Bool) (account : BorrowedInstructionAccount) : Nat :=
  account.getData.length +
    if isLoaderV1 then 0 else maxPermittedDataIncrease + alignOffset account.getData.length

/-- Buffer bytes that an account's data takes. -/
def accountUsed (isLoaderV1 isDirect : Bool) (account : BorrowedInstructionAccount) : Nat :=
  if isDirect then (if isLoaderV1 then 0 else bpfAlignOfU128) else accountSpan isLoaderV1 account

def write (im : InputImage) (bytes : List UInt8) : InputImage :=
  { im with
    cursor := im.cursor + bytes.length
    used := im.used + bytes.length
    pending := im.pending + bytes.length
    chunks := im.chunks ++ [(im.cursor, bytes)] }

def writeAccount (isLoaderV1 isDirect : Bool) (im : InputImage)
    (account : BorrowedInstructionAccount) : InputImage :=
  { im with
    cursor := im.cursor + accountSpan isLoaderV1 account
    used := im.used + accountUsed isLoaderV1 isDirect account
    pending := 0
    placements := im.placements ++ [(im.cursor, account)] }

def perform (isLoaderV1 isDirect : Bool) (im : InputImage) : SerializeOp → InputImage
  | .write bytes => im.write bytes
  | .writeAccount account => im.writeAccount isLoaderV1 isDirect account

end InputImage

/-- Operations on an image always succeed, with the address of what is placed. -/
def imageHandler (isLoaderV1 isDirect : Bool) :
    EffectTree.Handler SerializeOp SerializeRet InputImage :=
  fun op im => (.ok (BitVec.ofNat 64 im.cursor), im.perform isLoaderV1 isDirect op)

namespace Serializer

variable {host : HostStorage} {s : Serializer}

/-! ## Representing an image -/

/-- The host bytes from `start` on are the account's data: its own memory with direct mapping, a
copy in the buffer otherwise. -/
def DataAt (s : Serializer) (host : HostStorage) (start : Nat)
    (account : BorrowedInstructionAccount) : Prop :=
  if s.mode.isDirect then start = (host.dataAddr account.getIndexInTransaction).toNat
  else ∃ pos, start = host.bufferAddr.toNat + pos ∧ s.buffer.Holds pos account.getData

theorem Extends.dataAt {s' : Serializer} (h : Extends s s') {start : Nat}
    {account : BorrowedInstructionAccount} (hdata : s.DataAt host start account) :
    s'.DataAt host start account := by
  unfold DataAt at hdata ⊢
  rw [h.mode]
  split at hdata
  · rename_i hdirect
    rwa [if_pos hdirect]
  · rename_i hdirect
    rw [if_neg hdirect]
    rcases hdata with ⟨pos, hstart, hholds⟩
    exact ⟨pos, hstart, h.holds _ _ hholds⟩

structure Represents (host : HostStorage) (capacity : Nat) (isLoaderV1 : Bool) (mode : MappingMode)
    (s : Serializer) (im : InputImage) : Prop where
  loader : s.isLoaderV1 = isLoaderV1
  mode_eq : s.mode = mode
  buffer_addr : s.buffer.hostAddr = host.bufferAddr
  buffer_capacity : s.buffer.capacity = capacity
  start_le : s.regionStart ≤ s.buffer.len
  used : s.buffer.len = im.used
  cursor : s.vaddr.toNat + (s.buffer.len - s.regionStart) = im.cursor
  pending : im.pending ≤ s.buffer.len - s.regionStart
  regions : s.RegionsOk host (im.placements.map Prod.snd)
  chunks : ∀ c ∈ im.chunks, ∃ pos,
    s.Window c.1 (host.bufferAddr.toNat + pos) c.2.length ∧ s.buffer.Holds pos c.2
  placed : ∀ p ∈ im.placements, ∃ start,
    s.Window p.1 start p.2.getData.length ∧ s.DataAt host start p.2

section Operations

variable {capacity : Nat} {isLoaderV1 : Bool} {mode : MappingMode} {im : InputImage}

theorem Represents.chunks_extend {s' : Serializer}
    (h : s.Represents host capacity isLoaderV1 mode im) (hext : Extends s s') :
    ∀ c ∈ im.chunks, ∃ pos,
      s'.Window c.1 (host.bufferAddr.toNat + pos) c.2.length ∧ s'.buffer.Holds pos c.2 := by
  intro c hc
  rcases h.chunks c hc with ⟨pos, hwindow, hholds⟩
  exact ⟨pos, fun k hk => hext.backs _ _ (hwindow k hk), hext.holds _ _ hholds⟩

theorem Represents.placed_extend {s' : Serializer}
    (h : s.Represents host capacity isLoaderV1 mode im) (hext : Extends s s') :
    ∀ p ∈ im.placements, ∃ start,
      s'.Window p.1 start p.2.getData.length ∧ s'.DataAt host start p.2 := by
  intro p hp
  rcases h.placed p hp with ⟨start, hwindow, hdata⟩
  exact ⟨start, fun k hk => hext.backs _ _ (hwindow k hk), hext.dataAt hdata⟩

/-- `write` and `write_all` place their bytes at the cursor. -/
theorem Represents.write (h : s.Represents host capacity isLoaderV1 mode im) (bytes : List UInt8)
    (hroom : im.used + bytes.length ≤ capacity) (hbound : im.cursor + capacity ≤ u64Max) :
    s.writeAll bytes = .ok (BitVec.ofNat 64 im.cursor, s.append bytes) ∧
      (s.append bytes).Represents host capacity isLoaderV1 mode (im.write bytes) := by
  have hstart := h.start_le
  have hcursor := h.cursor
  have hused := h.used
  have hcap := h.buffer_capacity
  have hlen : (s.append bytes).buffer.len = s.buffer.len + bytes.length :=
    AlignedMemory.len_append _ _
  constructor
  · -- There is room in the buffer, and no address wraps around.
    rw [writeAll_eq (by omega), nextVaddr_eq hstart (by omega), hcursor]
  · refine ⟨h.loader, h.mode_eq, h.buffer_addr, hcap, ?_, ?_, ?_, ?_, h.regions.append bytes, ?_,
      h.placed_extend (extends_append s bytes)⟩
    · change s.regionStart ≤ _
      omega
    · change _ = im.used + bytes.length
      omega
    · change s.vaddr.toNat + (_ - s.regionStart) = im.cursor + bytes.length
      omega
    · have hpending := h.pending
      change im.pending + bytes.length ≤ _ - s.regionStart
      omega
    · intro c hc
      rcases List.mem_append.mp hc with hc | hc
      · exact h.chunks_extend (extends_append s bytes) c hc
      · rw [List.mem_singleton.mp hc]
        refine ⟨s.buffer.len, ?_, ?_⟩
        · have hnew := window_append_new s hstart bytes []
          rw [List.append_nil, hcursor, h.buffer_addr] at hnew
          exact hnew
        · have hnew := AlignedMemory.holds_append_new s.buffer bytes []
          rwa [List.append_nil] at hnew

theorem Represents.closed_vaddr (h : s.Represents host capacity isLoaderV1 mode im)
    (hbound : im.cursor ≤ u64Max) : s.closed.vaddr.toNat = im.cursor := by
  have hcursor := h.cursor
  change (s.vaddr + BitVec.ofNat 64 (s.buffer.len - s.regionStart)).toNat = im.cursor
  rw [U64.toNat_add_ofNat (by omega), hcursor]

/-- `push_region` changes nothing a program can see. -/
theorem Represents.close {accounts : List BorrowedInstructionAccount}
    (h : s.Represents host capacity isLoaderV1 mode im)
    (hsep : host.Separates capacity mode.isDirect accounts)
    (hplaced : im.placements.map Prod.snd ⊆ accounts) (hpending : 0 < im.pending)
    (hroom : im.used ≤ capacity) (hbound : im.cursor ≤ u64Max) :
    s.closed.Represents host capacity isLoaderV1 mode { im with pending := 0 } := by
  have hstart := h.start_le
  have hused := h.used
  have hcursor := h.cursor
  have hpend := h.pending
  have hclosed := closed_regionStart hstart
  have hfit := hsep.buffer_fits
  -- Bytes that were not in a region yet are in the new one, at the same addresses.
  have hext : Extends s s.closed := extends_closed (by rw [h.buffer_addr]; omega) hstart
  refine ⟨h.loader, h.mode_eq, h.buffer_addr, h.buffer_capacity, ?_, hused, ?_, Nat.zero_le _, ?_,
    h.chunks_extend hext, h.placed_extend hext⟩
  · rw [hclosed]
    exact Nat.le_refl _
  · have hvaddr := h.closed_vaddr hbound
    rw [hclosed]
    change s.closed.vaddr.toNat + (s.buffer.len - s.buffer.len) = im.cursor
    omega
  · refine h.regions.withBufferRegion (by rw [h.mode_eq]; exact hsep) hplaced ?_ rfl ?_ (by omega)
      (by omega) (by omega) rfl
    · change s.buffer.hostAddr + _ = _
      rw [h.buffer_addr]
    · change (BitVec.ofNat 64 (s.buffer.len - s.regionStart)).toNat ≤ _
      rw [BitVec.toNat_ofNat]
      exact Nat.mod_le _ _

/-- What has to be checked of a serializer that has mapped one more account. -/
theorem Represents.place {s' : Serializer} {account : BorrowedInstructionAccount}
    (h : s.Represents host capacity isLoaderV1 mode im) (hext : Extends s s')
    (hloader : s'.isLoaderV1 = s.isLoaderV1) (haddr : s'.buffer.hostAddr = s.buffer.hostAddr)
    (hcap : s'.buffer.capacity = s.buffer.capacity) (hstart : s'.regionStart ≤ s'.buffer.len)
    (hused : s'.buffer.len = im.used + InputImage.accountUsed isLoaderV1 mode.isDirect account)
    (hcursor : s'.vaddr.toNat + (s'.buffer.len - s'.regionStart) =
      im.cursor + InputImage.accountSpan isLoaderV1 account)
    (hregions : s'.RegionsOk host (im.placements.map Prod.snd ++ [account]))
    (hdata : ∃ start, s'.Window im.cursor start account.getData.length ∧
      s'.DataAt host start account) :
    s'.Represents host capacity isLoaderV1 mode
      (im.writeAccount isLoaderV1 mode.isDirect account) where
  loader := hloader.trans h.loader
  mode_eq := hext.mode.trans h.mode_eq
  buffer_addr := haddr.trans h.buffer_addr
  buffer_capacity := hcap.trans h.buffer_capacity
  start_le := hstart
  used := hused
  cursor := hcursor
  pending := Nat.zero_le _
  regions := by simpa [InputImage.writeAccount] using hregions
  chunks := h.chunks_extend hext
  placed := by
    intro p hp
    rcases List.mem_append.mp hp with hp | hp
    · exact h.placed_extend hext p hp
    · rw [List.mem_singleton.mp hp]
      exact hdata

/-- Without regions per account, the data goes to the end of the buffer. -/
theorem Represents.writeAccount_contiguous {account : BorrowedInstructionAccount}
    (h : s.Represents host capacity isLoaderV1 mode im)
    (hmode : mode.stricterAbiAndRuntimeConstraints = false) (hunsplit : s.regionStart = 0)
    (hroom : im.used + InputImage.accountUsed isLoaderV1 mode.isDirect account ≤ capacity)
    (hbound : im.cursor + capacity ≤ u64Max) :
    ∃ s', s.writeAccount host account = .ok (BitVec.ofNat 64 im.cursor, s') ∧
      s'.Represents host capacity isLoaderV1 mode
        (im.writeAccount isLoaderV1 mode.isDirect account) ∧ s'.regionStart = 0 := by
  -- Data is mapped directly with stricter constraints only.
  have hdirect : mode.isDirect = false := by
    simp [MappingMode.isDirect, hmode]
  have hused := h.used
  have hcursor := h.cursor
  have hcap := h.buffer_capacity
  have hspan : account.getData.length +
      (s.growth (alignOffset account.getData.length)).length =
        InputImage.accountSpan isLoaderV1 account := by
    unfold growth InputImage.accountSpan
    rw [h.loader]
    cases isLoaderV1 <;> simp
  rw [InputImage.accountUsed, hdirect, if_neg Bool.false_ne_true] at hroom
  refine ⟨s.append (account.getData ++ s.growth (alignOffset account.getData.length)), ?_, ?_,
    hunsplit⟩
  · have haddr : U64.saturatingAdd s.vaddr (BitVec.ofNat 64 s.buffer.len) =
        BitVec.ofNat 64 im.cursor := by
      unfold u64Max at hbound
      apply BitVec.eq_of_toNat_eq
      simp only [U64.toNat_saturatingAdd, BitVec.toNat_ofNat, u64Max]
      omega
    have hdata := @writeData_eq s account (alignOffset account.getData.length) (by omega)
    simp only [writeAccount, h.mode_eq, hmode, Bool.not_false, if_true, hdata, haddr]
    rfl
  · have hlen : (s.append (account.getData ++
        s.growth (alignOffset account.getData.length))).buffer.len =
          im.used + InputImage.accountSpan isLoaderV1 account := by
      rw [← hspan, ← hused, ← List.length_append]
      exact AlignedMemory.len_append _ _
    refine h.place (extends_append s _) rfl rfl rfl ?_ ?_ ?_ ?_ ?_
    · change s.regionStart ≤ _
      omega
    · rw [hlen, InputImage.accountUsed, hdirect, if_neg Bool.false_ne_true]
    · change s.vaddr.toNat + (_ - s.regionStart) = _
      omega
    · exact (h.regions.append _).weaken (List.subset_append_left _ _)
    · refine ⟨s.buffer.hostAddr.toNat + s.buffer.len, ?_, ?_⟩
      · rw [← hcursor]
        exact window_append_new s h.start_le _ _
      · have hnotDirect : ¬ (s.append (account.getData ++
            s.growth (alignOffset account.getData.length))).mode.isDirect = true := by
          change ¬ s.mode.isDirect = true
          rw [h.mode_eq, hdirect]
          exact Bool.false_ne_true
        rw [DataAt, if_neg hnotDirect]
        exact ⟨s.buffer.len, by rw [h.buffer_addr], AlignedMemory.holds_append_new _ _ _⟩

section MapAccount

variable {account : BorrowedInstructionAccount} {accounts : List BorrowedInstructionAccount}

theorem accountSpan_eq (hloader : s.isLoaderV1 = isLoaderV1) :
    InputImage.accountSpan isLoaderV1 account =
      s.addressSpaceReservedForAccount account + (s.padding account).length := by
  unfold InputImage.accountSpan addressSpaceReservedForAccount padding
  rw [hloader]
  cases isLoaderV1 <;> simp [Nat.add_assoc]

/-- An account that takes no address space is mapped by doing nothing. -/
theorem Represents.place_empty (h : s.Represents host capacity isLoaderV1 mode im)
    (hloader : isLoaderV1 = true) (hempty : account.getData = []) :
    s.Represents host capacity isLoaderV1 mode
      (im.writeAccount isLoaderV1 mode.isDirect account) := by
  subst hloader
  have hspan : InputImage.accountSpan true account = 0 := by
    simp [InputImage.accountSpan, hempty]
  have hnone : InputImage.accountUsed true mode.isDirect account = 0 := by
    simp [InputImage.accountUsed, hspan]
  refine h.place ⟨fun _ _ hb => hb, fun _ _ hb => hb, rfl⟩ rfl rfl rfl h.start_le ?_ ?_
    (h.regions.weaken (List.subset_append_left _ _)) ?_
  · rw [hnone, h.used, Nat.add_zero]
  · rw [hspan, h.cursor, Nat.add_zero]
  · have hwindow : ∀ start, s.Window im.cursor start account.getData.length := by
      intro start k hk
      simp [hempty] at hk
    -- Nothing is shown, so any place will do.
    by_cases hdirect : s.mode.isDirect = true
    · refine ⟨(host.dataAddr account.getIndexInTransaction).toNat, hwindow _, ?_⟩
      rw [DataAt, if_pos hdirect]
    · refine ⟨host.bufferAddr.toNat + s.buffer.len, hwindow _, ?_⟩
      rw [DataAt, if_neg hdirect]
      exact ⟨s.buffer.len, rfl, s.buffer.bytes, [], by simp [hempty], rfl⟩

theorem Represents.place_buffer (h : s.Represents host capacity isLoaderV1 mode im)
    (hsep : host.Separates capacity mode.isDirect accounts)
    (hplaced : im.placements.map Prod.snd ⊆ accounts)
    (hclosed : s.regionStart = s.buffer.len) (hmode : mode.isDirect = false)
    (hreserved : 0 < s.addressSpaceReservedForAccount account)
    (hroom : im.used + InputImage.accountSpan isLoaderV1 account ≤ capacity)
    (hbound : im.cursor + InputImage.accountSpan isLoaderV1 account ≤ u64Max) :
    (s.bufferMapped account).Represents host capacity isLoaderV1 mode
      (im.writeAccount isLoaderV1 mode.isDirect account) := by
  have hused := h.used
  have hcursor := h.cursor
  have hspan := @accountSpan_eq s isLoaderV1 account h.loader
  have hdataLe := @addressSpaceReservedForAccount_eq s account
  have hlen' := bufferMapped_len s account
  have hfit := hsep.buffer_fits
  have hcursor' : s.vaddr.toNat = im.cursor := by omega
  have hvaddr : (s.bufferMapped account).vaddr.toNat =
      im.cursor + s.addressSpaceReservedForAccount account := by
    change (s.vaddr + BitVec.ofNat 64 (s.addressSpaceReservedForAccount account)).toNat = _
    rw [U64.toNat_add_ofNat (by omega), hcursor']
  have hstart : (s.bufferMapped account).regionStart =
      s.buffer.len + s.addressSpaceReservedForAccount account := by
    change s.regionStart + _ = _
    rw [hclosed]
  have hvm : (s.bufferRegion account).vmAddr = s.vaddr := modifyMemoryRegionOfAccount_vmAddr
  have hhost : (s.bufferRegion account).hostAddr =
      host.bufferAddr + BitVec.ofNat 64 s.regionStart := by
    rw [← h.buffer_addr]
    exact modifyMemoryRegionOfAccount_hostAddr
  have hgap : (s.bufferRegion account).vmGapShift = 63 := modifyMemoryRegionOfAccount_vmGapShift
  have hlen : (s.bufferRegion account).len.toNat = account.getData.length := by
    rw [bufferRegion, modifyMemoryRegionOfAccount_len, U64.toNat_ofNat (by omega)]
  refine h.place ?_ rfl rfl rfl ?_ ?_ ?_ ?_ ?_
  · refine extends_of_closed hclosed (List.subset_append_left _ _) ?_ rfl
    exact (List.prefix_append _ _).trans (List.prefix_append _ _)
  · omega
  · rw [InputImage.accountUsed, hmode, if_neg Bool.false_ne_true]
    omega
  · omega
  · refine RegionsOk.weaken (RegionsOk.append ?_ _) (List.subset_append_left _ _)
    have hsep' : host.Separates capacity s.mode.isDirect accounts := by
      rw [h.mode_eq]
      exact hsep
    exact (h.regions.append _).withBufferRegion hsep' hplaced hhost hvm (by omega) hreserved
      (by change s.regionStart + _ ≤ _; omega) (by change s.vaddr.toNat + _ ≤ _; omega) hgap
  · refine ⟨host.bufferAddr.toNat + s.buffer.len, ?_, ?_⟩
    · have hlast : s.bufferRegion account ∈ (s.bufferMapped account).regions :=
        List.mem_append_right _ (List.mem_singleton.mpr rfl)
      have hwindow := window_of_region hlast hgap
      rwa [hvm, hcursor', hhost, U64.toNat_add_ofNat (by omega), hclosed, hlen] at hwindow
    · have hnotDirect : ¬ (s.bufferMapped account).mode.isDirect = true := by
        change ¬ s.mode.isDirect = true
        rw [h.mode_eq, hmode]
        exact Bool.false_ne_true
      rw [DataAt, if_neg hnotDirect]
      exact ⟨s.buffer.len, rfl, (AlignedMemory.holds_append_new _ _ _).append _⟩

theorem Represents.place_direct (h : s.Represents host capacity isLoaderV1 mode im)
    (hsep : host.Separates capacity mode.isDirect accounts)
    (hplaced : im.placements.map Prod.snd ⊆ accounts)
    (hmem : account ∈ accounts)
    (hnew : ∀ p ∈ im.placements, p.2.getIndexInTransaction ≠ account.getIndexInTransaction)
    (hclosed : s.regionStart = s.buffer.len) (hmode : mode.isDirect = true)
    (hreserved : 0 < s.addressSpaceReservedForAccount account)
    (hroom : im.used + s.directPadding.length ≤ capacity)
    (hbound : im.cursor + InputImage.accountSpan isLoaderV1 account ≤ u64Max) :
    (s.directMapped host account).Represents host capacity isLoaderV1 mode
      (im.writeAccount isLoaderV1 mode.isDirect account) := by
  have hused := h.used
  have hcursor := h.cursor
  have hspan := @accountSpan_eq s isLoaderV1 account h.loader
  have hdataLe := @addressSpaceReservedForAccount_eq s account
  have hlen' := @directMapped_len host s account
  have hskip := directSkip_add_padding s account
  have hdirect : s.mode.isDirect = true := by rw [h.mode_eq, hmode]
  have hpaddingLen : s.directPadding.length =
      InputImage.accountUsed isLoaderV1 mode.isDirect account := by
    rw [directPadding, InputImage.accountUsed, hmode, if_pos rfl, h.loader]
    cases isLoaderV1 <;> simp
  have hcursor' : s.vaddr.toNat = im.cursor := by omega
  have hvaddr : (s.directMapped host account).vaddr.toNat =
      im.cursor + s.addressSpaceReservedForAccount account := by
    change (s.vaddr + BitVec.ofNat 64 (s.addressSpaceReservedForAccount account)).toNat = _
    rw [U64.toNat_add_ofNat (by omega), hcursor']
  have hstart : (s.directMapped host account).regionStart =
      s.buffer.len + s.directSkip account := by
    change s.regionStart + _ = _
    rw [hclosed]
  rcases @createMemoryRegionOfAccount_fields host account s.vaddr with ⟨hhost, hvm, hlen, hgap⟩
  have hlenNat : (createMemoryRegionOfAccount host account s.vaddr).len.toNat =
      account.getData.length := by
    rw [hlen, U64.toNat_ofNat (by omega)]
  refine h.place ?_ rfl rfl rfl ?_ ?_ ?_ ?_ ?_
  · refine extends_of_closed hclosed (List.subset_append_left _ _) ?_ rfl
    exact List.prefix_append _ _
  · omega
  · omega
  · omega
  · have hsep' : host.Separates capacity s.mode.isDirect accounts := by
      rw [h.mode_eq]
      exact hsep
    have hregion := h.regions.withAccountRegion hsep' hplaced hmem
      (n := s.addressSpaceReservedForAccount account)
      (by
        intro a ha
        rcases List.mem_map.mp ha with ⟨p, hp, rfl⟩
        exact hnew p hp)
      hdirect hhost hvm hlenNat hreserved (by omega) (by omega) (by omega) hgap
    exact (hregion.append s.directPadding).skip hdirect (s.directSkip account)
  · refine ⟨(host.dataAddr account.getIndexInTransaction).toNat, ?_, ?_⟩
    · have hlast : createMemoryRegionOfAccount host account s.vaddr ∈
          (s.directMapped host account).regions :=
        List.mem_append_right _ (List.mem_singleton.mpr rfl)
      have hwindow := window_of_region hlast hgap
      rwa [hvm, hcursor', hhost, hlenNat] at hwindow
    · change (if s.mode.isDirect then _ else _)
      rw [if_pos hdirect]

/-! ## Both operations, in every mode -/

theorem Represents.mapAccount (h : s.Represents host capacity isLoaderV1 mode im)
    (hsep : host.Separates capacity mode.isDirect accounts)
    (hplaced : im.placements.map Prod.snd ⊆ accounts)
    (hmem : account ∈ accounts)
    (hnew : ∀ p ∈ im.placements, p.2.getIndexInTransaction ≠ account.getIndexInTransaction)
    (hclosed : s.regionStart = s.buffer.len)
    (hmode : mode.stricterAbiAndRuntimeConstraints = true)
    (hroom : im.used + InputImage.accountUsed isLoaderV1 mode.isDirect account ≤ capacity)
    (hbound : im.cursor + InputImage.accountSpan isLoaderV1 account ≤ u64Max) :
    ∃ s', s.mapAccount host account = .ok s' ∧
      s'.Represents host capacity isLoaderV1 mode
        (im.writeAccount isLoaderV1 mode.isDirect account) := by
  have hused := h.used
  have hcap := h.buffer_capacity
  have hspan := @accountSpan_eq s isLoaderV1 account h.loader
  rcases Nat.eq_zero_or_pos (s.addressSpaceReservedForAccount account) with hzero | hreserved
  · rcases reserved_eq_zero_iff.mp hzero with ⟨hloader, hempty⟩
    exact ⟨s, mapAccount_eq_none hloader hempty (by omega),
      h.place_empty (h.loader.symm.trans hloader) hempty⟩
  · cases hdirect : mode.accountDataDirectMapping with
    | false =>
        have hflag : mode.isDirect = false := by simp [MappingMode.isDirect, hdirect]
        have hmapping : s.mode.accountDataDirectMapping = false := by rw [h.mode_eq, hdirect]
        rw [InputImage.accountUsed, hflag, if_neg Bool.false_ne_true] at hroom
        exact ⟨s.bufferMapped account, bufferMapped_eq hclosed hmapping hreserved (by omega),
          h.place_buffer hsep hplaced hclosed hflag hreserved hroom hbound⟩
    | true =>
        have hflag : mode.isDirect = true := by simp [MappingMode.isDirect, hmode, hdirect]
        have hmapping : s.mode.accountDataDirectMapping = true := by rw [h.mode_eq, hdirect]
        have hpadding : s.directPadding.length =
            InputImage.accountUsed isLoaderV1 mode.isDirect account := by
          rw [directPadding, InputImage.accountUsed, hflag, if_pos rfl, h.loader]
          cases isLoaderV1 <;> simp
        exact ⟨s.directMapped host account, directMapped_eq hmapping hreserved (by omega),
          h.place_direct hsep hplaced hmem hnew hclosed hflag hreserved (by omega) hbound⟩

/-- `write_account` places the account's data at the cursor, in every mode. -/
theorem Represents.writeAccount (h : s.Represents host capacity isLoaderV1 mode im)
    (hunsplit : mode.stricterAbiAndRuntimeConstraints = false → s.regionStart = 0)
    (hsep : host.Separates capacity mode.isDirect accounts)
    (hplaced : im.placements.map Prod.snd ⊆ accounts)
    (hmem : account ∈ accounts)
    (hnew : ∀ p ∈ im.placements, p.2.getIndexInTransaction ≠ account.getIndexInTransaction)
    (hpending : 0 < im.pending)
    (hroom : im.used + InputImage.accountUsed isLoaderV1 mode.isDirect account ≤ capacity)
    (hbound : im.cursor + InputImage.accountSpan isLoaderV1 account + capacity ≤ u64Max) :
    ∃ s', s.writeAccount host account = .ok (BitVec.ofNat 64 im.cursor, s') ∧
      s'.Represents host capacity isLoaderV1 mode
        (im.writeAccount isLoaderV1 mode.isDirect account) ∧
      (mode.stricterAbiAndRuntimeConstraints = false → s'.regionStart = 0) := by
  cases hmode : mode.stricterAbiAndRuntimeConstraints with
  | false =>
      rcases h.writeAccount_contiguous hmode (hunsplit hmode) hroom (by omega) with
        ⟨s', hs', hrep, hstart⟩
      exact ⟨s', hs', hrep, fun _ => hstart⟩
  | true =>
      have hclose := h.close hsep hplaced hpending (by omega) (by omega)
      have hvaddr := h.closed_vaddr (by omega)
      rcases hclose.mapAccount hsep hplaced hmem hnew (closed_regionStart h.start_le) hmode hroom
        (by change im.cursor + _ ≤ _; omega) with ⟨s', hs', hrep⟩
      refine ⟨s', ?_, hrep, fun hfalse => by cases hfalse⟩
      have haddr : s.closed.vaddr = BitVec.ofNat 64 im.cursor := by
        rw [← hvaddr, BitVec.ofNat_toNat, BitVec.setWidth_eq]
      simp only [Serializer.writeAccount, h.mode_eq, hmode, Bool.not_true, Bool.false_eq_true,
        if_false, pushRegion_eq h.start_le, bind, Except.bind, hs', haddr]
      rfl

end MapAccount

end Operations

end Serializer

end ProgramRuntime
end Gobble
