import Gobble.Lib.Eytzinger
import Gobble.Sbpf.GappedRegion
import Gobble.Sbpf.MemoryMapping

/-!
# RegionSearch — the lookup of an unaligned mapping is a predecessor search

An unaligned mapping finds the region of an address by a search in a tree that is stored in level
order (`Lib.Eytzinger`), behind a small cache.  The address belongs to the last region that does not
start above it.  `Searchable` is the invariant that makes both ways of finding it agree.
-/

namespace Gobble
namespace Sbpf

open Lib Eytzinger

namespace MemoryRegion

theorem vmAddr_le_stop (r : MemoryRegion) : r.vmAddr ≤ r.vmAddrRange.stop := by
  have hmax := U64.toNat_le_u64Max r.vmAddr
  rw [BitVec.le_def, toNat_vmAddrRange_stop]
  omega

end MemoryRegion

/-- Each region ends before the later ones start. -/
def Ordered (regions : List MemoryRegion) : Prop :=
  regions.Pairwise fun r r' => r.vmAddrRange.stop ≤ r'.vmAddr

namespace Ordered

variable {regions : List MemoryRegion}

theorem sorted (h : Ordered regions) : regions.Pairwise fun r r' => r.vmAddr ≤ r'.vmAddr :=
  h.imp fun {r _} hle => BitVec.le_trans r.vmAddr_le_stop hle

theorem stop_le (h : Ordered regions) {i j : Nat} {r r' : MemoryRegion} (hij : i < j)
    (hi : regions[i]? = some r) (hj : regions[j]? = some r') : r.vmAddrRange.stop ≤ r'.vmAddr := by
  obtain ⟨hlt, rfl⟩ := List.getElem?_eq_some_iff.mp hi
  obtain ⟨hlt', rfl⟩ := List.getElem?_eq_some_iff.mp hj
  exact List.pairwise_iff_getElem.mp h i j hlt hlt' hij

theorem of_stop_le (h : ∀ (i j : Nat) (r r' : MemoryRegion), i < j → regions[i]? = some r →
    regions[j]? = some r' → r.vmAddrRange.stop ≤ r'.vmAddr) : Ordered regions := by
  unfold Ordered
  rw [List.pairwise_iff_getElem]
  intro i j hi hj hij
  exact h i j _ _ hij (List.getElem?_eq_getElem hi) (List.getElem?_eq_getElem hj)

/-- A region may be replaced by one that starts at the same address and ends before the next. -/
theorem set (h : Ordered regions) {index : Nat} {old region : MemoryRegion}
    (hold : regions[index]? = some old) (haddr : old.vmAddr = region.vmAddr)
    (hnext : ∀ next, regions[index + 1]? = some next → region.vmAddrRange.stop ≤ next.vmAddr) :
    Ordered (regions.set index region) := by
  have hlt := (List.getElem?_eq_some_iff.mp hold).1
  apply of_stop_le
  intro i j r r' hij hi hj
  by_cases hindex : i = index
  · subst hindex
    rw [List.getElem?_set_self hlt] at hi
    cases hi
    rw [List.getElem?_set_ne (Nat.ne_of_lt hij)] at hj
    rcases Nat.eq_or_lt_of_le hij with rfl | hlater
    · exact hnext r' hj
    · -- The next region lies between the two.
      have hget := List.getElem?_eq_getElem
        (Nat.lt_trans hlater (List.getElem?_eq_some_iff.mp hj).1)
      exact BitVec.le_trans (hnext _ hget)
        (BitVec.le_trans (MemoryRegion.vmAddr_le_stop _) (h.stop_le hlater hget hj))
  · rw [List.getElem?_set_ne (Ne.symm hindex)] at hi
    by_cases hindex' : j = index
    · subst hindex'
      rw [List.getElem?_set_self hlt] at hj
      cases hj
      rw [← haddr]
      exact h.stop_le hij hi hold
    · rw [List.getElem?_set_ne (Ne.symm hindex')] at hj
      exact h.stop_le hij hi hj

end Ordered

/-- The last region that does not start above the address. -/
def IsPredecessor (regions : List MemoryRegion) (vmAddr : U64) :
    Option (Nat × MemoryRegion) → Prop
  | none => ∀ r ∈ regions, vmAddr < r.vmAddr
  | some (index, region) =>
      regions[index]? = some region ∧ region.vmAddr ≤ vmAddr ∧
        ∀ j r, index < j → regions[j]? = some r → vmAddr < r.vmAddr

namespace UnalignedMemoryMapping

/-! ## Construction -/

/-- The address of a region by its position. -/
def addressAt (regions : List MemoryRegion) (i : Nat) : U64 :=
  (regions[i]?.map MemoryRegion.vmAddr).getD 0

/-- The recursion fills the nodes below `outIndex` from left to right. -/
theorem constructEytzingerOrder_eq (fuel inIndex outIndex : Nat) (m : UnalignedMemoryMapping)
    (hfuel : m.common.regions.length ≤ fuel + outIndex)
    (hroom : inIndex + (inOrder m.common.regions.length outIndex).length ≤
      m.common.regions.length) :
    constructEytzingerOrder (fuel + 1) inIndex outIndex m =
      .ok (inIndex + (inOrder m.common.regions.length outIndex).length,
        { m with
          regionAddresses := fill (addressAt m.common.regions)
            (inOrder m.common.regions.length outIndex) inIndex m.regionAddresses
          regionIndexLookup := fill id (inOrder m.common.regions.length outIndex) inIndex
            m.regionIndexLookup }) := by
  induction fuel generalizing inIndex outIndex m with
  | zero =>
      have hge : m.common.regions.length ≤ outIndex := by omega
      rw [constructEytzingerOrder, if_pos hge, inOrder_of_le hge]
      rfl
  | succ fuel ih =>
      by_cases hge : m.common.regions.length ≤ outIndex
      · rw [constructEytzingerOrder, if_pos hge, inOrder_of_le hge]
        rfl
      · have hlt : outIndex < m.common.regions.length := Nat.not_le.mp hge
        rw [inOrder_of_lt hlt, List.length_append, List.length_cons] at hroom
        rw [constructEytzingerOrder, if_neg hge, inOrder_of_lt hlt, Nat.mul_comm outIndex 2,
          ih inIndex (2 * outIndex + 1) m (by omega) (by omega)]
        -- The node itself comes after the nodes to its left.
        have hget : m.common.regions[inIndex +
            (inOrder m.common.regions.length (2 * outIndex + 1)).length]? =
              some (m.common.regions[inIndex +
                (inOrder m.common.regions.length (2 * outIndex + 1)).length]) :=
          List.getElem?_eq_getElem (by omega)
        simp only [Bind.bind, Except.bind, hget, Outcome.unwrap]
        rw [ih _ (2 * outIndex + 2) _ (by dsimp only; omega) (by dsimp only; omega)]
        simp only [fill_append, fill, id, addressAt, hget, List.length_append, List.length_cons]
        rw [show ∀ a b c : Nat, a + b + 1 + c = a + (b + (c + 1)) by omega]
        rfl

/-! ## The invariant -/

/-- The tables of the tree belong to the regions, in their order; the regions do not overlap; and what
the cache knows is right. -/
structure Searchable (m : UnalignedMemoryMapping) : Prop where
  addresses_length : m.regionAddresses.length = m.common.regions.length
  lookup_length : m.regionIndexLookup.length = m.common.regions.length
  addresses : ∀ i node : Nat, (inOrder m.common.regions.length 0)[i]? = some node →
    m.regionAddresses[node]? = some (addressAt m.common.regions i)
  lookup : ∀ i node : Nat, (inOrder m.common.regions.length 0)[i]? = some node →
    m.regionIndexLookup[node]? = some i
  ordered : Ordered m.common.regions
  cache : ∀ entry ∈ m.cache.entries, entry.1 = ⟨0, 0⟩ ∨
    ∃ region, m.common.regions[entry.2]? = some region ∧ entry.1 = region.vmAddrRange

/-- A check of neighbours is enough to know that regions are ordered. -/
theorem firstOverlap_eq_none_iff (index : Nat) (regions : List MemoryRegion) :
    firstOverlap index regions = none ↔ Ordered regions := by
  have htrans : IsTrans MemoryRegion fun r r' => r.vmAddrRange.stop ≤ r'.vmAddr :=
    ⟨fun _ r' _ h h' => BitVec.le_trans h (BitVec.le_trans r'.vmAddr_le_stop h')⟩
  unfold Ordered
  rw [← List.isChain_iff_pairwise]
  induction regions generalizing index with
  | nil => simp [firstOverlap]
  | cons first rest ih =>
      cases rest with
      | nil => simp [firstOverlap]
      | cons second rest =>
          rw [firstOverlap, List.isChain_cons_cons]
          by_cases hover : first.vmAddrRange.stop > second.vmAddr
          · have hnot : ¬ first.vmAddrRange.stop ≤ second.vmAddr := BitVec.not_le.mpr hover
            simp [hover, hnot]
          · have hle : first.vmAddrRange.stop ≤ second.vmAddr := BitVec.not_lt.mp hover
            rw [if_neg hover, and_iff_right hle]
            exact ih (index + 1)

/-- A constructor that returns has built the tree. -/
theorem newWithAccessViolationHandler_searchable (regions : List MemoryRegion) (config : Config)
    (sbpfVersion : SBPFVersion) (handler : AccessViolationHandler) :
    Ends (fun m => m.Searchable ∧
        m.common = CommonMemoryMapping.new (sortRegions regions) config sbpfVersion handler)
      (· ≠ .panic) (newWithAccessViolationHandler regions config sbpfVersion handler) := by
  unfold newWithAccessViolationHandler
  dsimp only
  split
  · simp [Ends, Outcome.err]
  · rename_i hnone
    rw [constructEytzingerOrder_eq _ _ _ _ (by simp [CommonMemoryMapping.new])
      (by simp [CommonMemoryMapping.new])]
    refine ⟨?_, rfl⟩
    exact {
      addresses_length := by simp [CommonMemoryMapping.new]
      lookup_length := by simp [CommonMemoryMapping.new]
      addresses := by
        intro i node hnode
        have hlt := lt_of_mem_inOrder (List.mem_of_getElem? hnode)
        rw [getElem?_fill (nodup_inOrder _ _) hnode 0 (by simpa [CommonMemoryMapping.new] using hlt),
          Nat.zero_add]
      lookup := by
        intro i node hnode
        have hlt := lt_of_mem_inOrder (List.mem_of_getElem? hnode)
        rw [getElem?_fill (nodup_inOrder _ _) hnode 0 (by simpa [CommonMemoryMapping.new] using hlt),
          Nat.zero_add]
        rfl
      ordered := (firstOverlap_eq_none_iff 1 _).mp hnone
      cache := by
        intro entry hentry
        left
        exact congrArg Prod.fst (List.eq_of_mem_replicate hentry) }

/-! ## The search -/

/-- The turns of the search. -/
def startsAtOrBelow (regionAddresses : List U64) (vmAddr : U64) (node : Nat) : Bool :=
  decide (regionAddresses.getD node 0 ≤ vmAddr)

theorem descend_eq (regionAddresses : List U64) (vmAddr : U64) (fuel index : Nat) :
    descend regionAddresses vmAddr fuel index =
      Eytzinger.descend regionAddresses.length (startsAtOrBelow regionAddresses vmAddr) fuel
        index := by
  induction fuel generalizing index with
  | zero => rfl
  | succ fuel ih =>
      rw [descend, Eytzinger.descend]
      split
      · rw [ih]
        simp only [startsAtOrBelow, decide_eq_true_eq]
      · rfl

/-- The index with its trailing zeros and the one before them cut off. -/
def lastTurn (index : Nat) : Nat := index >>> (trailingZeros 64 index + 1)

theorem trailingZeros_succ {fuel index : Nat} (hpos : 0 < index) (hlt : index < 2 ^ fuel) :
    trailingZeros (fuel + 1) index = trailingZeros fuel index := by
  induction fuel generalizing index with
  | zero => omega
  | succ fuel ih =>
      have hstep : ∀ fuel, trailingZeros (fuel + 1) index =
          if index % 2 = 0 then trailingZeros fuel (index / 2) + 1 else 0 := fun _ => rfl
      rw [Nat.pow_succ] at hlt
      rw [hstep, hstep]
      split
      · rw [ih (by omega) (by omega)]
      · rfl

theorem lastTurn_lastRight {n : Nat} (hn : n < 2 ^ 63) : LastRight n lastTurn where
  root := by decide
  left := by
    intro index hpos hle
    have hzeros : trailingZeros 64 (index * 2) = trailingZeros 64 index + 1 := by
      rw [trailingZeros_succ hpos (Nat.lt_of_le_of_lt hle hn), trailingZeros, if_pos (by omega),
        Nat.mul_div_cancel _ (by decide)]
    have hpow : 2 ^ (trailingZeros 64 index + 1 + 1) = 2 * 2 ^ (trailingZeros 64 index + 1) :=
      Nat.pow_succ'
    unfold lastTurn
    rw [hzeros, Nat.shiftRight_eq_div_pow, Nat.shiftRight_eq_div_pow, hpow,
      ← Nat.div_div_eq_div_mul, Nat.mul_div_cancel _ (by decide)]
  right := by
    intro index hpos hle
    have hzeros : trailingZeros 64 (index * 2 + 1) = 0 := by
      rw [trailingZeros, if_neg (by omega)]
    unfold lastTurn
    rw [hzeros, Nat.shiftRight_eq_div_pow]
    omega

theorem addressAt_eq {regions : List MemoryRegion} {i : Nat} {region : MemoryRegion}
    (h : regions[i]? = some region) : addressAt regions i = region.vmAddr := by
  simp [addressAt, h]

section Find

variable {m : UnalignedMemoryMapping}

/-- What the search in the tree arrives at.  No vector has as many as `2 ^ 63` elements, so that the
index of the descent is a machine word. -/
theorem Searchable.search (h : m.Searchable) (hsmall : m.common.regions.length < 2 ^ 63)
    (vmAddr : U64) :
    let index := lastTurn (descend m.regionAddresses vmAddr (m.regionAddresses.length + 1) 1)
    (index = 0 ∧ IsPredecessor m.common.regions vmAddr none) ∨
      ∃ i region, index ≠ 0 ∧ m.regionIndexLookup[index - 1]? = some i ∧
        m.common.regions[i]? = some region ∧
          IsPredecessor m.common.regions vmAddr (some (i, region)) := by
  dsimp only
  rw [descend_eq, h.addresses_length]
  have hright : ∀ i node : Nat, (inOrder m.common.regions.length 0)[i]? = some node →
      startsAtOrBelow m.regionAddresses vmAddr node =
        decide (addressAt m.common.regions i ≤ vmAddr) := by
    intro i node hnode
    rw [startsAtOrBelow, List.getD_eq_getElem?_getD, h.addresses i node hnode, Option.getD_some]
  have hsorted : ∀ i j, i < j → j < m.common.regions.length →
      decide (addressAt m.common.regions j ≤ vmAddr) = true →
        decide (addressAt m.common.regions i ≤ vmAddr) = true := by
    intro i j hij hj hle
    have hi := List.getElem?_eq_getElem (l := m.common.regions) (Nat.lt_trans hij hj)
    have hj' := List.getElem?_eq_getElem (l := m.common.regions) hj
    rw [decide_eq_true_eq, addressAt_eq hj'] at hle
    rw [decide_eq_true_eq, addressAt_eq hi]
    exact BitVec.le_trans (MemoryRegion.vmAddr_le_stop _)
      (BitVec.le_trans (h.ordered.stop_le hij hi hj') hle)
  rcases search_spec (lastTurn_lastRight hsmall) hright hsorted with
    ⟨hzero, hnone⟩ | ⟨i, node, hnode, hlast, hi, hlater⟩
  · left
    refine ⟨hzero, ?_⟩
    intro region hregion
    obtain ⟨j, hj⟩ := List.mem_iff_getElem?.mp hregion
    have hlt := (List.getElem?_eq_some_iff.mp hj).1
    have habove := hnone j hlt
    rw [decide_eq_false_iff_not, addressAt_eq hj] at habove
    exact BitVec.not_le.mp habove
  · right
    have hlt : i < m.common.regions.length := by
      have := (List.getElem?_eq_some_iff.mp hnode).1
      rwa [length_inOrder] at this
    have hregion := List.getElem?_eq_getElem hlt
    rw [decide_eq_true_eq, addressAt_eq hregion] at hi
    rw [hlast]
    refine ⟨i, _, Nat.succ_ne_zero node, h.lookup i node hnode, hregion, hregion, hi, ?_⟩
    intro j r hij hj
    have habove := hlater j hij (List.getElem?_eq_some_iff.mp hj).1
    rw [decide_eq_false_iff_not, addressAt_eq hj] at habove
    exact BitVec.not_le.mp habove

/-- What the cache answers. -/
theorem Searchable.cached (h : m.Searchable) {vmAddr : U64} {index : Nat}
    (hfind : m.cache.find vmAddr = some index) :
    ∃ region, m.common.regions[index]? = some region ∧
      IsPredecessor m.common.regions vmAddr (some (index, region)) := by
  obtain ⟨i, -, hi⟩ := List.exists_of_findSome?_eq_some hfind
  obtain ⟨entry, hentry, hhit⟩ := Option.bind_eq_some_iff.mp hi
  rw [Option.ite_none_right_eq_some, Option.some.injEq] at hhit
  obtain ⟨⟨hstart, hstop⟩, rfl⟩ := hhit
  rcases h.cache entry (List.mem_of_getElem? hentry) with hempty | ⟨region, hregion, hrange⟩
  · rw [hempty] at hstop
    exact absurd hstop (by simp)
  · rw [hrange] at hstart hstop
    rw [MemoryRegion.vmAddrRange_start] at hstart
    refine ⟨region, hregion, hregion, hstart, ?_⟩
    intro j r hij hj
    exact Nat.lt_of_lt_of_le hstop (h.ordered.stop_le hij hregion hj)

/-- A new entry of the cache. -/
theorem Searchable.insert (h : m.Searchable) {i : Nat} {region : MemoryRegion}
    (hregion : m.common.regions[i]? = some region) :
    { m with cache := m.cache.insert region.vmAddrRange i }.Searchable := by
  refine { h with cache := ?_ }
  intro entry hentry
  rcases List.mem_or_eq_of_mem_set hentry with hentry | rfl
  · exact h.cache entry hentry
  · exact .inr ⟨region, hregion, rfl⟩

/-! ## Bounds -/

/-- The descent with bounds checks: `none` if a check fails. -/
def descendChecked (regionAddresses : List U64) (vmAddr : U64) : (fuel index : Nat) → Option Nat
  | 0, index => some index
  | fuel + 1, index =>
      if index ≤ regionAddresses.length then do
        let address ← regionAddresses[index - 1]?
        descendChecked regionAddresses vmAddr fuel (index * 2 + if address ≤ vmAddr then 1 else 0)
      else
        some index

/-- `find_region` with bounds checks in place of `get_unchecked`: `none` if a check fails. -/
def findRegionChecked (m : UnalignedMemoryMapping) (vmAddr : U64) :
    Option (Option (Nat × MemoryRegion) × UnalignedMemoryMapping) :=
  match m.cache.find vmAddr with
  | some index => do
      let region ← m.common.regions[index]?
      return (some (index, region), m)
  | none => do
      let index ← descendChecked m.regionAddresses vmAddr (m.regionAddresses.length + 1) 1
      let index := index >>> (trailingZeros 64 index + 1)
      if index = 0 then
        return (none, m)
      else
        let index ← m.regionIndexLookup[index - 1]?
        let region ← m.common.regions[index]?
        return (some (index, region), { m with cache := m.cache.insert region.vmAddrRange index })

theorem descendChecked_eq (regionAddresses : List U64) (vmAddr : U64) (fuel index : Nat)
    (hpos : 0 < index) :
    descendChecked regionAddresses vmAddr fuel index =
      some (descend regionAddresses vmAddr fuel index) := by
  induction fuel generalizing index with
  | zero => rfl
  | succ fuel ih =>
      rw [descendChecked, descend]
      split
      · rename_i hle
        have hget := List.getElem?_eq_getElem (l := regionAddresses) (show index - 1 < _ by omega)
        rw [List.getD_eq_getElem?_getD, hget]
        exact ih _ (by omega)
      · rfl

/-- A lookup finds the predecessor and makes no access out of bounds. -/
theorem Searchable.findRegion (h : m.Searchable) (hsmall : m.common.regions.length < 2 ^ 63)
    (vmAddr : U64) :
    IsPredecessor m.common.regions vmAddr (m.findRegion vmAddr).1 ∧
      m.findRegionChecked vmAddr = some (m.findRegion vmAddr) := by
  unfold UnalignedMemoryMapping.findRegion findRegionChecked
  cases hfind : m.cache.find vmAddr with
  | some index =>
      obtain ⟨region, hregion, hpredecessor⟩ := h.cached hfind
      simp only [hregion]
      exact ⟨hpredecessor, rfl⟩
  | none =>
      have hsearch := h.search hsmall vmAddr
      simp only [descendChecked_eq _ _ _ _ Nat.one_pos, Option.bind_eq_bind, Option.bind_some]
      dsimp only [lastTurn] at hsearch
      rcases hsearch with ⟨hzero, hpredecessor⟩ | ⟨i, region, hne, hlookup, hregion, hpredecessor⟩
      · simp only [hzero]
        exact ⟨hpredecessor, rfl⟩
      · simp only [if_neg hne, hlookup, hregion, Option.bind_some]
        exact ⟨hpredecessor, rfl⟩

/-- A lookup changes the cache at most. -/
theorem Searchable.afterFind (h : m.Searchable) (vmAddr : U64) :
    (m.findRegion vmAddr).2.Searchable := by
  unfold UnalignedMemoryMapping.findRegion
  dsimp only
  split
  · exact h
  · split
    · exact h
    · split
      · exact h
      · split
        · exact h
        · rename_i hregion
          exact h.insert hregion

end Find

end UnalignedMemoryMapping

/-- The index of the predecessor depends on the start addresses only. -/
theorem IsPredecessor.index_eq {regions regions' : List MemoryRegion} {vmAddr : U64}
    {found found' : Option (Nat × MemoryRegion)} (h : IsPredecessor regions vmAddr found)
    (h' : IsPredecessor regions' vmAddr found')
    (heq : regions.map MemoryRegion.vmAddr = regions'.map MemoryRegion.vmAddr) :
    found.map Prod.fst = found'.map Prod.fst := by
  -- A region of one list stands in the other list at the same index with the same address.
  have hother : ∀ {l l' : List MemoryRegion}, l.map MemoryRegion.vmAddr = l'.map MemoryRegion.vmAddr →
      ∀ {i : Nat} {r : MemoryRegion}, l[i]? = some r →
        ∃ r' : MemoryRegion, l'[i]? = some r' ∧ r'.vmAddr = r.vmAddr := by
    intro l l' hmap i r hget
    have hi := congrArg (·[i]?) hmap
    simp only [List.getElem?_map, hget, Option.map_some] at hi
    obtain ⟨r', hr', haddr⟩ := Option.map_eq_some_iff.mp hi.symm
    exact ⟨r', hr', haddr⟩
  rcases found with _ | ⟨i, r⟩ <;> rcases found' with _ | ⟨i', r'⟩
  · rfl
  · obtain ⟨q, hq, haddr⟩ := hother heq.symm h'.1
    exact absurd (h q (List.mem_of_getElem? hq)) (BitVec.not_lt.mpr (haddr ▸ h'.2.1))
  · obtain ⟨q, hq, haddr⟩ := hother heq h.1
    exact absurd (h' q (List.mem_of_getElem? hq)) (BitVec.not_lt.mpr (haddr ▸ h.2.1))
  · rcases Nat.lt_trichotomy i i' with hlt | rfl | hgt
    · obtain ⟨q, hq, haddr⟩ := hother heq.symm h'.1
      exact absurd (h.2.2 i' q hlt hq) (BitVec.not_lt.mpr (haddr ▸ h'.2.1))
    · rfl
    · obtain ⟨q, hq, haddr⟩ := hother heq h.1
      exact absurd (h'.2.2 i q hgt hq) (BitVec.not_lt.mpr (haddr ▸ h.2.1))

end Sbpf
end Gobble
