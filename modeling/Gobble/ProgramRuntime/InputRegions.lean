import Gobble.ProgramRuntime.Serialization

/-!
# InputRegions — the regions that a serializer has closed

Facts about the states of the `Serializer`, apart from what is written.  `RegionsOk` is the invariant
of the region list: regions follow each other from the start of the input on, and no host byte is in
two of them.  `Extends` says that a later state hides nothing an earlier one showed.  The equations
at the end say what each step of `write_account` does when the buffer has room.
-/

namespace Gobble
namespace ProgramRuntime

open Lib Sbpf Sdk Context

/-! ## Bytes behind addresses -/

namespace AlignedMemory

/-- The written bytes at `pos` are `bytes`. -/
def Holds (m : AlignedMemory) (pos : Nat) (bytes : List UInt8) : Prop :=
  ∃ front rest, m.bytes = front ++ bytes ++ rest ∧ front.length = pos

theorem Holds.append {m : AlignedMemory} {pos : Nat} {bytes : List UInt8} (h : m.Holds pos bytes)
    (more : List UInt8) : (m.append more).Holds pos bytes := by
  rcases h with ⟨front, rest, hm, hpos⟩
  exact ⟨front, rest ++ more, by simp [AlignedMemory.append, hm], hpos⟩

theorem holds_append_new (m : AlignedMemory) (bytes rest : List UInt8) :
    (m.append (bytes ++ rest)).Holds m.len bytes :=
  ⟨m.bytes, rest, by simp [AlignedMemory.append], rfl⟩

theorem Holds.getElem? {m : AlignedMemory} {pos : Nat} {bytes : List UInt8} (h : m.Holds pos bytes)
    {k : Nat} (hk : k < bytes.length) : m.bytes[pos + k]? = bytes[k]? := by
  rcases h with ⟨front, rest, hm, rfl⟩
  rw [hm, List.append_assoc, List.getElem?_append_right (by omega), Nat.add_sub_cancel_left,
    List.getElem?_append_left hk]

@[simp] theorem len_append (m : AlignedMemory) (bytes : List UInt8) :
    (m.append bytes).len = m.len + bytes.length := by
  simp [len, AlignedMemory.append]

end AlignedMemory

/-- The host bytes of an account's data. -/
def HostStorage.accountBytes (host : HostStorage) (account : BorrowedInstructionAccount) : Set Nat :=
  let start := (host.dataAddr account.getIndexInTransaction).toNat
  { a | start ≤ a ∧ a < start + account.getData.length }

/-- The host bytes at positions `lo..hi` of the buffer. -/
def HostStorage.bufferBytes (host : HostStorage) (lo hi : Nat) : Set Nat :=
  { a | host.bufferAddr.toNat + lo ≤ a ∧ a < host.bufferAddr.toNat + hi }

theorem HostStorage.bufferBytes_disjoint (host : HostStorage) {a b c d : Nat} (h : b ≤ c) :
    Disjoint (host.bufferBytes a b) (host.bufferBytes c d) := by
  refine Set.disjoint_left.mpr ?_
  rintro x ⟨-, hhi⟩ ⟨hlo, -⟩
  omega

theorem HostStorage.bufferBytes_mono (host : HostStorage) {a b c d : Nat} (hlo : a ≤ c)
    (hhi : d ≤ b) : host.bufferBytes c d ⊆ host.bufferBytes a b := by
  rintro x ⟨hx, hx'⟩
  exact ⟨by omega, by omega⟩

/-- Storage in the address space.  If the accounts' own memory is mapped, the accounts and the buffer
do not overlap. -/
structure HostStorage.Separates (host : HostStorage) (capacity : Nat) (isDirect : Bool)
    (accounts : List BorrowedInstructionAccount) : Prop where
  buffer_fits : host.bufferAddr.toNat + capacity ≤ u64Max
  data_fits : isDirect = true → ∀ a ∈ accounts,
    (host.dataAddr a.getIndexInTransaction).toNat + a.getData.length ≤ u64Max
  buffer_apart : isDirect = true → ∀ a ∈ accounts,
    Disjoint (host.bufferBytes 0 capacity) (host.accountBytes a)
  data_apart : isDirect = true → ∀ a ∈ accounts, ∀ b ∈ accounts,
    a.getIndexInTransaction ≠ b.getIndexInTransaction →
      Disjoint (host.accountBytes a) (host.accountBytes b)

namespace Serializer

/-- The VM address `v` shows the host byte `h`: in a closed region, or among the bytes written since
the last region was closed. -/
def Backs (s : Serializer) (v h : Nat) : Prop :=
  (∃ r ∈ s.regions, r.MapsTo v h) ∨
    (s.vaddr.toNat ≤ v ∧ v < s.vaddr.toNat + (s.buffer.len - s.regionStart) ∧
      h = s.buffer.hostAddr.toNat + s.regionStart + (v - s.vaddr.toNat))

/-- The addresses `v..v + len` show the host bytes from `h` on. -/
def Window (s : Serializer) (v h len : Nat) : Prop :=
  ∀ k, k < len → s.Backs (v + k) (h + k)

def append (s : Serializer) (bytes : List UInt8) : Serializer :=
  { s with buffer := s.buffer.append bytes }

/-- `s` with `region` as its last region; `advance` addresses and `skip` buffer bytes are left
behind. -/
def withRegion (s : Serializer) (region : MemoryRegion) (advance skip : Nat) : Serializer :=
  { s with
    regions := s.regions ++ [region]
    vaddr := s.vaddr + BitVec.ofNat 64 advance
    regionStart := s.regionStart + skip }

/-! ### The region list -/

/-- The regions closed so far.  `placed` are the accounts whose data has been mapped. -/
structure RegionsOk (host : HostStorage) (placed : List BorrowedInstructionAccount)
    (s : Serializer) : Prop where
  sorted : s.regions.Pairwise fun r r' =>
    r.vmAddr.toNat < r'.vmAddr.toNat ∧ r.vmAddr.toNat + r.len.toNat ≤ r'.vmAddr.toNat
  below : ∀ r ∈ s.regions,
    r.vmAddr.toNat < s.vaddr.toNat ∧ r.vmAddr.toNat + r.len.toNat ≤ s.vaddr.toNat
  first : (s.regions.head?.map MemoryRegion.vmAddr).getD s.vaddr = mmInputStart
  continuous : ∀ r ∈ s.regions, r.vmGapShift = 63
  fits : ∀ r ∈ s.regions, r.HostFits
  origin : ∀ r ∈ s.regions, r.hostBytes ⊆ host.bufferBytes 0 s.regionStart ∨
    s.mode.isDirect = true ∧ ∃ a ∈ placed, r.hostBytes ⊆ host.accountBytes a
  apart : s.regions.Pairwise fun r r' => Disjoint r.hostBytes r'.hostBytes
  linear : s.mode.isDirect = false → s.vaddr.toNat = mmInputStart.toNat + s.regionStart ∧
    ∀ r ∈ s.regions,
      r.hostAddr.toNat + mmInputStart.toNat = host.bufferAddr.toNat + r.vmAddr.toNat

variable {host : HostStorage} {placed : List BorrowedInstructionAccount} {s : Serializer}

theorem RegionsOk.append (h : s.RegionsOk host placed) (bytes : List UInt8) :
    (s.append bytes).RegionsOk host placed :=
  ⟨h.sorted, h.below, h.first, h.continuous, h.fits, h.origin, h.apart, h.linear⟩

/-- One more region at the end. -/
theorem RegionsOk.withRegion (h : s.RegionsOk host placed) {region : MemoryRegion}
    {advance skip : Nat} {placed' : List BorrowedInstructionAccount} (hplaced : placed ⊆ placed')
    (hvm : region.vmAddr = s.vaddr) (hlen : region.len.toNat ≤ advance) (hadvance : 0 < advance)
    (hbound : s.vaddr.toNat + advance ≤ u64Max) (hgap : region.vmGapShift = 63)
    (hfits : region.HostFits)
    (horigin : region.hostBytes ⊆ host.bufferBytes 0 (s.regionStart + skip) ∨
      s.mode.isDirect = true ∧ ∃ a ∈ placed', region.hostBytes ⊆ host.accountBytes a)
    (hapart : ∀ r ∈ s.regions, Disjoint r.hostBytes region.hostBytes)
    (hlinear : s.mode.isDirect = false → advance = skip ∧
      region.hostAddr.toNat + mmInputStart.toNat = host.bufferAddr.toNat + region.vmAddr.toNat) :
    (s.withRegion region advance skip).RegionsOk host placed' := by
  have hvaddr : (s.vaddr + BitVec.ofNat 64 advance).toNat = s.vaddr.toNat + advance :=
    U64.toNat_add_ofNat hbound
  constructor
  · refine List.pairwise_append.mpr ⟨h.sorted, List.pairwise_singleton _ _, ?_⟩
    intro r hr r' hr'
    rw [List.mem_singleton.mp hr', hvm]
    exact h.below r hr
  · intro r hr
    change _ < (s.vaddr + BitVec.ofNat 64 advance).toNat ∧
      _ ≤ (s.vaddr + BitVec.ofNat 64 advance).toNat
    rw [hvaddr]
    rcases List.mem_append.mp hr with hr | hr
    · have := h.below r hr
      omega
    · rw [List.mem_singleton.mp hr, hvm]
      omega
  · have hfirst := h.first
    change ((s.regions ++ [region]).head?.map MemoryRegion.vmAddr).getD _ = _
    cases hregions : s.regions with
    | nil => simpa [hregions, hvm] using hfirst
    | cons r rest => simpa [hregions] using hfirst
  · intro r hr
    rcases List.mem_append.mp hr with hr | hr
    · exact h.continuous r hr
    · rw [List.mem_singleton.mp hr, hgap]
  · intro r hr
    rcases List.mem_append.mp hr with hr | hr
    · exact h.fits r hr
    · rwa [List.mem_singleton.mp hr]
  · intro r hr
    rcases List.mem_append.mp hr with hr | hr
    · rcases h.origin r hr with hbuffer | ⟨hdirect, a, ha, hsub⟩
      · refine Or.inl (hbuffer.trans (host.bufferBytes_mono (Nat.le_refl 0) ?_))
        exact Nat.le_add_right _ _
      · exact Or.inr ⟨hdirect, a, hplaced ha, hsub⟩
    · rw [List.mem_singleton.mp hr]
      exact horigin
  · refine List.pairwise_append.mpr ⟨h.apart, List.pairwise_singleton _ _, ?_⟩
    intro r hr r' hr'
    rw [List.mem_singleton.mp hr']
    exact hapart r hr
  · intro hmode
    rcases h.linear hmode with ⟨hstart, hregions⟩
    rcases hlinear hmode with ⟨hskip, hregion⟩
    constructor
    · change (s.vaddr + BitVec.ofNat 64 advance).toNat = mmInputStart.toNat + (s.regionStart + skip)
      rw [hvaddr]
      omega
    · intro r hr
      rcases List.mem_append.mp hr with hr | hr
      · exact hregions r hr
      · rwa [List.mem_singleton.mp hr]

theorem RegionsOk.weaken (h : s.RegionsOk host placed) {placed' : List BorrowedInstructionAccount}
    (hplaced : placed ⊆ placed') : s.RegionsOk host placed' :=
  { h with
    origin := by
      intro r hr
      rcases h.origin r hr with hbuffer | ⟨hdirect, a, ha, hsub⟩
      · exact Or.inl hbuffer
      · exact Or.inr ⟨hdirect, a, hplaced ha, hsub⟩ }

/-- With direct mapping, buffer bytes may be left out between two regions. -/
theorem RegionsOk.skip (h : s.RegionsOk host placed) (hdirect : s.mode.isDirect = true) (n : Nat) :
    RegionsOk host placed { s with regionStart := s.regionStart + n } :=
  { h with
    origin := by
      intro r hr
      rcases h.origin r hr with hbuffer | haccount
      · refine Or.inl (hbuffer.trans (host.bufferBytes_mono (Nat.le_refl 0) ?_))
        exact Nat.le_add_right _ _
      · exact Or.inr haccount
    linear := by
      intro hmode
      rw [hdirect] at hmode
      cases hmode }

section Separated

variable {capacity : Nat} {accounts : List BorrowedInstructionAccount} {region : MemoryRegion}
  {n : Nat}

/-- The next region shows the next `n` buffer bytes, or the first ones of them. -/
theorem RegionsOk.withBufferRegion (h : s.RegionsOk host placed)
    (hsep : host.Separates capacity s.mode.isDirect accounts) (hplaced : placed ⊆ accounts)
    (hhost : region.hostAddr = host.bufferAddr + BitVec.ofNat 64 s.regionStart)
    (hvm : region.vmAddr = s.vaddr) (hlen : region.len.toNat ≤ n) (hn : 0 < n)
    (hroom : s.regionStart + n ≤ capacity) (hbound : s.vaddr.toNat + n ≤ u64Max)
    (hgap : region.vmGapShift = 63) : (s.withRegion region n n).RegionsOk host placed := by
  have hfit := hsep.buffer_fits
  have hstart : region.hostAddr.toNat = host.bufferAddr.toNat + s.regionStart := by
    rw [hhost, U64.toNat_add_ofNat (by omega)]
  have hbytes : region.hostBytes ⊆ host.bufferBytes s.regionStart (s.regionStart + n) := by
    rintro a ⟨hlo, hhi⟩
    exact ⟨by omega, by omega⟩
  refine h.withRegion (List.Subset.refl placed) hvm hlen hn hbound hgap ?_ ?_ ?_ ?_
  · unfold MemoryRegion.HostFits
    omega
  · exact Or.inl (hbytes.trans (host.bufferBytes_mono (Nat.zero_le _) (Nat.le_refl _)))
  · -- Earlier regions show earlier buffer bytes, or bytes of an account.
    intro r hr
    rcases h.origin r hr with hbuffer | ⟨hdirect, a, ha, hsub⟩
    · exact (host.bufferBytes_disjoint (Nat.le_refl _)).mono hbuffer hbytes
    · refine ((hsep.buffer_apart hdirect a (hplaced ha)).mono ?_ hsub).symm
      exact hbytes.trans (host.bufferBytes_mono (Nat.zero_le _) hroom)
  · intro hmode
    rcases h.linear hmode with ⟨hvaddr, -⟩
    refine ⟨rfl, ?_⟩
    rw [hstart, hvm, hvaddr]
    omega

/-- The next region shows the data of an account in its own memory. -/
theorem RegionsOk.withAccountRegion (h : s.RegionsOk host placed)
    (hsep : host.Separates capacity s.mode.isDirect accounts) (hplaced : placed ⊆ accounts)
    {account : BorrowedInstructionAccount} (hmem : account ∈ accounts)
    (hnew : ∀ a ∈ placed, a.getIndexInTransaction ≠ account.getIndexInTransaction)
    (hdirect : s.mode.isDirect = true)
    (hhost : region.hostAddr = host.dataAddr account.getIndexInTransaction)
    (hvm : region.vmAddr = s.vaddr) (hlen : region.len.toNat = account.getData.length)
    (hn : 0 < n) (hle : account.getData.length ≤ n) (hroom : s.regionStart ≤ capacity)
    (hbound : s.vaddr.toNat + n ≤ u64Max) (hgap : region.vmGapShift = 63) :
    (s.withRegion region n 0).RegionsOk host (placed ++ [account]) := by
  have hfit := hsep.data_fits hdirect account hmem
  have hbytes : region.hostBytes ⊆ host.accountBytes account := by
    rintro a ⟨hlo, hhi⟩
    rw [hhost] at hlo hhi
    exact ⟨by omega, by omega⟩
  refine h.withRegion (List.subset_append_left _ _) hvm (by omega) hn hbound hgap ?_ ?_ ?_ ?_
  · unfold MemoryRegion.HostFits
    rw [hhost, hlen]
    exact hfit
  · exact Or.inr ⟨hdirect, account, by simp, hbytes⟩
  · intro r hr
    rcases h.origin r hr with hbuffer | ⟨-, a, ha, hsub⟩
    · refine (hsep.buffer_apart hdirect account hmem).mono ?_ hbytes
      exact hbuffer.trans (host.bufferBytes_mono (Nat.le_refl 0) hroom)
    · exact (hsep.data_apart hdirect a (hplaced ha) account hmem (hnew a ha)).mono hsub hbytes
  · intro hmode
    rw [hdirect] at hmode
    cases hmode

end Separated

/-! ### The operations of the serializer, when there is room -/

/-- The region of the bytes that are not in a region yet. -/
def pendingRegion (s : Serializer) : MemoryRegion :=
  MemoryRegion.newWritable (s.buffer.hostAddr + BitVec.ofNat 64 s.regionStart)
    (BitVec.ofNat 64 (s.buffer.len - s.regionStart)) s.vaddr

def closed (s : Serializer) : Serializer :=
  s.withRegion s.pendingRegion (s.buffer.len - s.regionStart) (s.buffer.len - s.regionStart)

theorem pushRegion_eq (h : s.regionStart ≤ s.buffer.len) : s.pushRegion = .ok s.closed := by
  have hstart : s.regionStart + (s.buffer.len - s.regionStart) = s.buffer.len := by omega
  simp only [pushRegion, h, if_true, closed, withRegion, pendingRegion, hstart]

theorem writeAll_eq {bytes : List UInt8} (h : s.buffer.len + bytes.length ≤ s.buffer.capacity) :
    s.writeAll bytes = .ok (s.nextVaddr, s.append bytes) := by
  simp only [writeAll, AlignedMemory.writeAllUnchecked, h, if_true]
  rfl

theorem fillWrite_eq {num : Nat} {value : UInt8}
    (h : s.buffer.len + num ≤ s.buffer.capacity) :
    s.fillWrite num value = .ok (s.append (List.replicate num value)) := by
  simp only [fillWrite, AlignedMemory.fillWrite, h, if_true]
  rfl

theorem nextVaddr_eq (hstart : s.regionStart ≤ s.buffer.len)
    (hbound : s.vaddr.toNat + s.buffer.len ≤ u64Max) :
    s.nextVaddr = BitVec.ofNat 64 (s.vaddr.toNat + (s.buffer.len - s.regionStart)) := by
  unfold u64Max at hbound
  apply BitVec.eq_of_toNat_eq
  simp only [nextVaddr, U64.toNat_saturatingSub, U64.toNat_saturatingAdd, BitVec.toNat_ofNat,
    u64Max]
  omega

@[simp] theorem append_append (s : Serializer) (a b : List UInt8) :
    (s.append a).append b = s.append (a ++ b) := by
  simp [append, AlignedMemory.append]

@[simp] theorem append_nil (s : Serializer) : s.append [] = s := by
  simp [append, AlignedMemory.append]

/-- Everything visible in `s` is visible in `s'` at the same address. -/
structure Extends (s s' : Serializer) : Prop where
  backs : ∀ v h, s.Backs v h → s'.Backs v h
  holds : ∀ pos bytes, s.buffer.Holds pos bytes → s'.buffer.Holds pos bytes
  mode : s'.mode = s.mode

theorem extends_append (s : Serializer) (bytes : List UInt8) : Extends s (s.append bytes) where
  backs := by
    rintro v h (hregion | ⟨hlo, hhi, hh⟩)
    · exact Or.inl hregion
    · refine Or.inr ⟨hlo, Nat.lt_of_lt_of_le hhi ?_, hh⟩
      simp only [append, AlignedMemory.len_append]
      omega
  holds := fun _ _ h => h.append bytes
  mode := rfl

/-- When all bytes are in regions, adding regions and bytes hides nothing. -/
theorem extends_of_closed {s' : Serializer} (hclosed : s.regionStart = s.buffer.len)
    (hregions : s.regions ⊆ s'.regions) (hbytes : s.buffer.bytes <+: s'.buffer.bytes)
    (hmode : s'.mode = s.mode) : Extends s s' where
  backs := by
    rintro v h (⟨r, hr, hmaps⟩ | ⟨hlo, hhi, -⟩)
    · exact Or.inl ⟨r, hregions hr, hmaps⟩
    · omega
  holds := by
    rintro pos bytes ⟨front, rest, hm, hpos⟩
    rcases hbytes with ⟨more, hmore⟩
    exact ⟨front, rest ++ more, by rw [← hmore, hm]; simp, hpos⟩
  mode := hmode

/-- Closing a region hides nothing. -/
theorem extends_closed (hfit : s.buffer.hostAddr.toNat + s.buffer.len ≤ u64Max)
    (hstart : s.regionStart ≤ s.buffer.len) : Extends s s.closed where
  backs := by
    rintro v h (⟨r, hr, hmaps⟩ | ⟨hlo, hhi, hh⟩)
    · exact Or.inl ⟨r, List.mem_append_left _ hr, hmaps⟩
    · refine Or.inl ⟨s.pendingRegion, List.mem_append_right _ (List.mem_singleton.mpr rfl), rfl,
        hlo, ?_, ?_⟩
      · change v < s.vaddr.toNat + (BitVec.ofNat 64 (s.buffer.len - s.regionStart)).toNat
        rw [U64.toNat_ofNat (by omega)]
        exact hhi
      · change h = (s.buffer.hostAddr + BitVec.ofNat 64 s.regionStart).toNat + (v - s.vaddr.toNat)
        rw [U64.toNat_add_ofNat (by omega), hh]
  holds := fun _ _ h => h
  mode := rfl

/-- A closed region without gaps is a window. -/
theorem window_of_region {region : MemoryRegion} (hmem : region ∈ s.regions)
    (hgap : region.vmGapShift = 63) :
    s.Window region.vmAddr.toNat region.hostAddr.toNat region.len.toNat := by
  intro k hk
  exact Or.inl ⟨region, hmem, hgap, by omega, by omega, by omega⟩

/-- The bytes just appended are visible at the end. -/
theorem window_append_new (s : Serializer) (hstart : s.regionStart ≤ s.buffer.len)
    (bytes rest : List UInt8) :
    (s.append (bytes ++ rest)).Window (s.vaddr.toNat + (s.buffer.len - s.regionStart))
      (s.buffer.hostAddr.toNat + s.buffer.len) bytes.length := by
  intro k hk
  refine Or.inr ⟨?_, ?_, ?_⟩
  · change s.vaddr.toNat ≤ _
    omega
  · simp only [append, AlignedMemory.len_append, List.length_append]
    omega
  · change _ = s.buffer.hostAddr.toNat + s.regionStart + (_ - s.vaddr.toNat)
    omega

theorem closed_regionStart (h : s.regionStart ≤ s.buffer.len) :
    s.closed.regionStart = s.buffer.len := by
  change s.regionStart + (s.buffer.len - s.regionStart) = s.buffer.len
  omega

/-- The bytes that follow an account's data in the buffer. -/
def growth (s : Serializer) (padding : Nat) : List UInt8 :=
  if s.isLoaderV1 then [] else List.replicate (maxPermittedDataIncrease + padding) 0

theorem writeData_eq {account : BorrowedInstructionAccount} {padding : Nat}
    (h : s.buffer.len + (account.getData.length + (s.growth padding).length) ≤ s.buffer.capacity) :
    s.writeData account padding = .ok (s.append (account.getData ++ s.growth padding)) := by
  have hdata : s.writeAll account.getData = .ok (s.nextVaddr, s.append account.getData) :=
    writeAll_eq (by omega)
  unfold growth at h ⊢
  simp only [writeData, hdata]
  cases hloader : s.isLoaderV1 with
  | true =>
      simp only [if_true, List.append_nil]
      simp [append, hloader, bind, Except.bind, pure, Except.pure]
  | false =>
      simp only [hloader, Bool.false_eq_true, if_false, List.length_replicate] at h ⊢
      have hfill : (s.append account.getData).fillWrite (maxPermittedDataIncrease + padding) 0 =
          .ok ((s.append account.getData).append
            (List.replicate (maxPermittedDataIncrease + padding) 0)) := by
        apply fillWrite_eq
        change (s.buffer.append account.getData).len + _ ≤ s.buffer.capacity
        rw [AlignedMemory.len_append]
        omega
      have hflag : (s.append account.getData).isLoaderV1 = false := hloader
      simp only [bind, Except.bind, hflag, Bool.not_false, if_true, hfill, append_append]

/-! ### Mapping an account -/

section AccountRegions

variable {account : BorrowedInstructionAccount} {region : MemoryRegion}

@[simp] theorem modifyMemoryRegionOfAccount_hostAddr :
    (modifyMemoryRegionOfAccount account region).hostAddr = region.hostAddr := by
  unfold modifyMemoryRegionOfAccount
  split <;> rfl

@[simp] theorem modifyMemoryRegionOfAccount_vmAddr :
    (modifyMemoryRegionOfAccount account region).vmAddr = region.vmAddr := by
  unfold modifyMemoryRegionOfAccount
  split <;> rfl

@[simp] theorem modifyMemoryRegionOfAccount_vmGapShift :
    (modifyMemoryRegionOfAccount account region).vmGapShift = region.vmGapShift := by
  unfold modifyMemoryRegionOfAccount
  split <;> rfl

@[simp] theorem modifyMemoryRegionOfAccount_len :
    (modifyMemoryRegionOfAccount account region).len =
      BitVec.ofNat 64 account.getData.length := by
  unfold modifyMemoryRegionOfAccount
  split <;> rfl

/-- Permissions aside, the region of an account shows its data at `vaddr`. -/
theorem createMemoryRegionOfAccount_fields (vaddr : U64) :
    (createMemoryRegionOfAccount host account vaddr).hostAddr =
        host.dataAddr account.getIndexInTransaction ∧
      (createMemoryRegionOfAccount host account vaddr).vmAddr = vaddr ∧
      (createMemoryRegionOfAccount host account vaddr).len =
        BitVec.ofNat 64 account.getData.length ∧
      (createMemoryRegionOfAccount host account vaddr).vmGapShift = 63 := by
  unfold createMemoryRegionOfAccount
  cases account.canDataBeChanged with
  | error err => exact ⟨rfl, rfl, rfl, rfl⟩
  | ok _ =>
      dsimp only
      split <;> exact ⟨rfl, rfl, rfl, rfl⟩

theorem pushAccountRegion_eq_buffer (hmode : s.mode.accountDataDirectMapping = false)
    (hreserved : 0 < s.addressSpaceReservedForAccount account)
    (hstart : s.regionStart ≤ s.buffer.len) :
    pushAccountRegion host s account =
      .ok (s.withRegion (modifyMemoryRegionOfAccount account s.pendingRegion)
        (s.buffer.len - s.regionStart) (s.buffer.len - s.regionStart)) := by
  simp only [pushAccountRegion, gt_iff_lt, hreserved, if_true, hmode, Bool.not_false,
    pushRegion_eq hstart, bind, Except.bind]
  simp only [modifyLastRegion, closed, withRegion, List.getLast?_concat, Outcome.unwrap, bind,
    Except.bind, List.dropLast_concat]
  rfl

theorem pushAccountRegion_eq_direct (hmode : s.mode.accountDataDirectMapping = true)
    (hreserved : 0 < s.addressSpaceReservedForAccount account) :
    pushAccountRegion host s account =
      .ok (s.withRegion (createMemoryRegionOfAccount host account s.vaddr)
        (s.addressSpaceReservedForAccount account) 0) := by
  simp only [pushAccountRegion, gt_iff_lt, hreserved, if_true, hmode, Bool.not_true,
    Bool.false_eq_true, if_false]
  rfl

theorem pushAccountRegion_eq_none (hreserved : s.addressSpaceReservedForAccount account = 0) :
    pushAccountRegion host s account = .ok s := by
  simp only [pushAccountRegion, hreserved, gt_iff_lt, Nat.lt_irrefl, if_false]
  rfl

/-- The padding behind an account's room to grow. -/
def padding (s : Serializer) (account : BorrowedInstructionAccount) : List UInt8 :=
  if s.isLoaderV1 then [] else List.replicate (alignOffset account.getData.length) 0

theorem writePadding_eq_buffer (hmode : s.mode.accountDataDirectMapping = false)
    (hroom : s.buffer.len + (s.padding account).length ≤ s.buffer.capacity) :
    s.writePadding account = .ok (s.append (s.padding account)) := by
  unfold padding at hroom ⊢
  cases hloader : s.isLoaderV1 with
  | true => simp [writePadding, hloader, pure, Except.pure]
  | false =>
      simp only [hloader, Bool.false_eq_true, if_false, List.length_replicate] at hroom ⊢
      simp only [writePadding, hloader, hmode, Bool.not_false, if_true]
      exact fillWrite_eq hroom

theorem writePadding_eq_direct (hmode : s.mode.accountDataDirectMapping = true)
    (hloader : s.isLoaderV1 = false)
    (hroom : s.buffer.len + bpfAlignOfU128 ≤ s.buffer.capacity) :
    s.writePadding account =
      .ok { s.append (List.replicate bpfAlignOfU128 0) with
        regionStart := s.regionStart + (bpfAlignOfU128 - alignOffset account.getData.length) } := by
  have hfill : s.fillWrite bpfAlignOfU128 0 =
      .ok (s.append (List.replicate bpfAlignOfU128 0)) := fillWrite_eq hroom
  simp only [writePadding, hloader, hmode, Bool.not_false, Bool.not_true, Bool.false_eq_true,
    if_true, if_false, hfill, bind, Except.bind]
  rfl

theorem writePadding_eq_none (hloader : s.isLoaderV1 = true) : s.writePadding account = .ok s := by
  simp [writePadding, hloader, pure, Except.pure]

theorem addressSpaceReservedForAccount_eq :
    s.addressSpaceReservedForAccount account =
      account.getData.length + (s.growth 0).length := by
  unfold addressSpaceReservedForAccount growth
  cases s.isLoaderV1 <;> simp

theorem reserved_eq_zero_iff :
    s.addressSpaceReservedForAccount account = 0 ↔ s.isLoaderV1 = true ∧ account.getData = [] := by
  unfold addressSpaceReservedForAccount
  cases s.isLoaderV1 with
  | true => simp
  | false => simp [maxPermittedDataIncrease]

/-- The region of an account whose data has just been written behind a closed region. -/
def bufferRegion (s : Serializer) (account : BorrowedInstructionAccount) : MemoryRegion :=
  modifyMemoryRegionOfAccount account (s.append (account.getData ++ s.growth 0)).pendingRegion

def bufferMapped (s : Serializer) (account : BorrowedInstructionAccount) : Serializer :=
  ((s.append (account.getData ++ s.growth 0)).withRegion (s.bufferRegion account)
    (s.addressSpaceReservedForAccount account)
    (s.addressSpaceReservedForAccount account)).append (s.padding account)

theorem bufferMapped_len (s : Serializer) (account : BorrowedInstructionAccount) :
    (s.bufferMapped account).buffer.len =
      s.buffer.len + s.addressSpaceReservedForAccount account + (s.padding account).length := by
  rw [addressSpaceReservedForAccount_eq, ← List.length_append]
  change ((s.buffer.append _).append _).len = _
  rw [AlignedMemory.len_append, AlignedMemory.len_append]

theorem bufferMapped_eq (hclosed : s.regionStart = s.buffer.len)
    (hmode : s.mode.accountDataDirectMapping = false)
    (hreserved : 0 < s.addressSpaceReservedForAccount account)
    (hroom : s.buffer.len + s.addressSpaceReservedForAccount account +
      (s.padding account).length ≤ s.buffer.capacity) :
    s.mapAccount host account = .ok (s.bufferMapped account) := by
  have hlen : (s.append (account.getData ++ s.growth 0)).buffer.len =
      s.buffer.len + s.addressSpaceReservedForAccount account := by
    rw [addressSpaceReservedForAccount_eq, ← List.length_append]
    exact AlignedMemory.len_append _ _
  have hdata : s.writeData account 0 = .ok (s.append (account.getData ++ s.growth 0)) := by
    refine writeData_eq ?_
    rw [← addressSpaceReservedForAccount_eq]
    omega
  have hpending : (s.append (account.getData ++ s.growth 0)).buffer.len -
      (s.append (account.getData ++ s.growth 0)).regionStart =
        s.addressSpaceReservedForAccount account := by
    change _ - s.regionStart = _
    omega
  have hpush := @pushAccountRegion_eq_buffer host (s.append (account.getData ++ s.growth 0))
    account hmode hreserved (by change s.regionStart ≤ _; omega)
  rw [hpending] at hpush
  have hpadding := @writePadding_eq_buffer
    ((s.append (account.getData ++ s.growth 0)).withRegion (s.bufferRegion account)
      (s.addressSpaceReservedForAccount account) (s.addressSpaceReservedForAccount account))
    account hmode
    (by change (s.append (account.getData ++ s.growth 0)).buffer.len + (s.padding account).length ≤
          s.buffer.capacity
        omega)
  simp only [mapAccount, hmode, Bool.not_false, if_true, hdata]
  change (pushAccountRegion host _ account >>= fun s => s.writePadding account) = _
  rw [hpush]
  exact hpadding

/-- Buffer bytes written behind an account that is mapped directly. -/
def directPadding (s : Serializer) : List UInt8 :=
  if s.isLoaderV1 then [] else List.replicate bpfAlignOfU128 0

/-- Those of them that no region shows. -/
def directSkip (s : Serializer) (account : BorrowedInstructionAccount) : Nat :=
  if s.isLoaderV1 then 0 else bpfAlignOfU128 - alignOffset account.getData.length

def directMapped (host : HostStorage) (s : Serializer) (account : BorrowedInstructionAccount) :
    Serializer :=
  let mapped := s.withRegion (createMemoryRegionOfAccount host account s.vaddr)
    (s.addressSpaceReservedForAccount account) 0
  { mapped.append s.directPadding with regionStart := s.regionStart + s.directSkip account }

theorem directMapped_len (s : Serializer) (account : BorrowedInstructionAccount) :
    (s.directMapped host account).buffer.len = s.buffer.len + s.directPadding.length :=
  AlignedMemory.len_append _ _

theorem directSkip_add_padding (s : Serializer) (account : BorrowedInstructionAccount) :
    s.directSkip account + (s.padding account).length = s.directPadding.length := by
  have hlt : alignOffset account.getData.length < bpfAlignOfU128 := Nat.mod_lt _ (by decide)
  unfold directSkip padding directPadding
  cases s.isLoaderV1 with
  | true => rfl
  | false =>
      simp only [Bool.false_eq_true, if_false, List.length_replicate]
      omega

theorem directMapped_eq (hmode : s.mode.accountDataDirectMapping = true)
    (hreserved : 0 < s.addressSpaceReservedForAccount account)
    (hroom : s.buffer.len + s.directPadding.length ≤ s.buffer.capacity) :
    s.mapAccount host account = .ok (s.directMapped host account) := by
  simp only [mapAccount, hmode, Bool.not_true, Bool.false_eq_true, if_false]
  change (pushAccountRegion host s account >>= fun s => s.writePadding account) = _
  rw [pushAccountRegion_eq_direct hmode hreserved]
  change writePadding _ account = _
  unfold directMapped
  unfold directPadding at hroom ⊢
  unfold directSkip
  cases hloader : s.isLoaderV1 with
  | true =>
      simp only [if_true, append_nil]
      exact writePadding_eq_none hloader
  | false =>
      simp only [hloader, Bool.false_eq_true, if_false, List.length_replicate] at hroom ⊢
      exact writePadding_eq_direct hmode hloader hroom

theorem mapAccount_eq_none (hloader : s.isLoaderV1 = true) (hempty : account.getData = [])
    (hroom : s.buffer.len ≤ s.buffer.capacity) : s.mapAccount host account = .ok s := by
  have hreserved : s.addressSpaceReservedForAccount account = 0 :=
    reserved_eq_zero_iff.mpr ⟨hloader, hempty⟩
  have hgrowth : s.growth 0 = [] := by simp [growth, hloader]
  have hdata : s.writeData account 0 = .ok s := by
    have h := @writeData_eq s account 0 (by simpa [hempty, hgrowth] using hroom)
    rwa [hempty, hgrowth, List.append_nil, append_nil] at h
  have hrest : (pushAccountRegion host s account >>= fun s => s.writePadding account) = .ok s := by
    rw [pushAccountRegion_eq_none hreserved]
    exact writePadding_eq_none hloader
  cases hmode : s.mode.accountDataDirectMapping with
  | true =>
      simp only [mapAccount, hmode, Bool.not_true, Bool.false_eq_true, if_false]
      exact hrest
  | false =>
      simp only [mapAccount, hmode, Bool.not_false, if_true, hdata]
      exact hrest

end AccountRegions

end Serializer

end ProgramRuntime
end Gobble
