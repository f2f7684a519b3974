import Gobble.Lib.OwnerTable
import Gobble.ProgramRuntime.Serialization
import Gobble.ProgramRuntime.WriteBack
import Gobble.Sbpf.MappingRuns

/-!
# AccountGrowth — account data that grows when it is written

Model of the access violation handler in `transaction-context/src/transaction.rs`.  A region over the data
of an account that the program may change carries the index of the account.  A store behind the end of
the data is first refused, then the handler makes the account grow, and the store is tried again.

The handler changes accounts without a borrow of the instruction and without its checks.  What it does is
nevertheless what `set_data_length` does (`setDataLength_grown`): it is an edit under the authority of
the instruction, within the limits on lengths and growth.  Along every run of accesses that succeed the
regions show the accounts as long as they are.
-/

namespace Gobble
namespace ProgramRuntime

open Lib Sbpf Sdk Context

/-! ## The handler -/

/-- How much the accounts may still grow in this transaction. -/
def remainingAllowedGrowth (t : TransactionAccounts) : Nat :=
  (max (clampI64 (maxAccountDataGrowthPerTransaction - t.resizeDelta)) 0).toNat

/-- The length of the data when it grows: the address space that is reserved, within the limits. -/
def grownLength (t : TransactionAccounts) (reserved oldLen : Nat) : Nat :=
  min (min reserved maxAccountDataLen) (oldLen + remainingAllowedGrowth t)

def growAccount (t : TransactionAccounts) (index : IndexOfAccount) (account : AccountSharedData)
    (newLen : Nat) : TransactionAccounts :=
  (t.updateAccountsResizeDelta account.data.length newLen).setAccount index
    { account with data := BorrowedInstructionAccount.resized account.data newLen }

/-- The region and the accounts, with room for the requested access. -/
def growToFit (t : TransactionAccounts) (region : MemoryRegion) (reserved requested : Nat)
    (index : IndexOfAccount) (account : AccountSharedData) : MemoryRegion × TransactionAccounts :=
  if requested > region.len.toNat then
    let newLen := grownLength t reserved account.data.length
    ({ region with len := BitVec.ofNat 64 newLen }, growAccount t index account newLen)
  else
    (region, t)

/-- With direct mapping the region is moved to where the host has the data, and may be written. -/
def unshare (storage : HostStorage) (mode : MappingMode) (index : IndexOfAccount)
    (region : MemoryRegion) : MemoryRegion :=
  if mode.isDirect then { region with hostAddr := storage.dataAddr index, writable := true }
  else region

/-- The account data write access handler.  `storage` is where the data is afterwards. -/
def accessViolationHandler (storage : HostStorage) (mode : MappingMode) (t : TransactionAccounts)
    (region : MemoryRegion) (reserved : U64) (accessType : AccessType) (vmAddr len : U64) :
    MemoryRegion × TransactionAccounts :=
  if accessType = .load then
    (region, t)
  else
    match region.accessViolationHandlerPayload with
    -- This region is not a writable account.
    | none => (region, t)
    | some payload =>
        let requested := (U64.saturatingSub (U64.saturatingAdd vmAddr len) region.vmAddr).toNat
        if requested > reserved.toNat then
          (region, t)
        else
          match t.tryBorrow payload.toNat with
          | .error _ => (region, t)
          | .ok account =>
              let (region, t) := growToFit t region reserved.toNat requested payload.toNat account
              (unshare storage mode payload.toNat region, t)

/-! ## The handler and the setter -/

section Handler

variable {t : TransactionAccounts} {b : BorrowedInstructionAccount} {region : MemoryRegion}

theorem asI64_eq {n : Nat} (h : n ≤ maxAccountDataLen) : asI64 n = n := by
  have hlt : n < 2 ^ 63 := Nat.lt_of_le_of_lt h (by decide)
  rw [asI64, BitVec.toInt_ofNat', Int.bmod_eq_of_le (by omega) (by omega)]

/-- The limits that the new length respects are the ones that a resize is checked against. -/
theorem grownLength_canDataBeResized (hgrowth : t.WithinGrowth) (reserved : Nat) {oldLen : Nat}
    (hold : oldLen ≤ maxAccountDataLen) :
    t.canDataBeResized oldLen (grownLength t reserved oldLen) = .ok () := by
  have hnew : grownLength t reserved oldLen ≤ maxAccountDataLen :=
    (min_le_left _ _).trans (min_le_right _ _)
  have hgrown : grownLength t reserved oldLen ≤ oldLen + remainingAllowedGrowth t := min_le_right _ _
  obtain ⟨hlo, hhi⟩ := hgrowth
  have hmax : (maxAccountDataGrowthPerTransaction : Int) = 20971520 := by decide
  have hlen : (maxAccountDataLen : Int) = 10485760 := by decide
  -- The limit and the counter are far from the ends of `i64`, so nothing saturates.
  have hremaining : (remainingAllowedGrowth t : Int) ≤
      maxAccountDataGrowthPerTransaction - t.resizeDelta := by
    unfold remainingAllowedGrowth clampI64 i64Min i64Max
    omega
  have hdelta : TransactionAccounts.lengthDelta oldLen (grownLength t reserved oldLen) ≤
      maxAccountDataGrowthPerTransaction - t.resizeDelta := by
    unfold TransactionAccounts.lengthDelta clampI64 i64Min i64Max
    rw [asI64_eq hnew, asI64_eq hold]
    omega
  have hclamp : clampI64 (t.resizeDelta +
      TransactionAccounts.lengthDelta oldLen (grownLength t reserved oldLen)) ≤
        maxAccountDataGrowthPerTransaction := by
    unfold clampI64 i64Min
    omega
  rw [TransactionAccounts.canDataBeResized, if_neg (Nat.not_lt.mpr hnew),
    if_neg (Int.not_lt.mpr hclamp)]

theorem length_resized (data : List UInt8) (newLen : Nat) :
    (BorrowedInstructionAccount.resized data newLen).length = newLen := by
  simp only [BorrowedInstructionAccount.resized, List.length_append, List.length_take,
    List.length_replicate]
  omega

/-- A length that stays does not count. -/
theorem updateAccountsResizeDelta_self (hgrowth : t.WithinGrowth) (oldLen : Nat) :
    t.updateAccountsResizeDelta oldLen oldLen = t := by
  obtain ⟨hlo, hhi⟩ := hgrowth
  have hmax : (maxAccountDataGrowthPerTransaction : Int) ≤ i64Max := by decide
  have hdelta : TransactionAccounts.lengthDelta oldLen oldLen = 0 := by
    unfold TransactionAccounts.lengthDelta
    rw [Int.sub_self]
    rfl
  rw [TransactionAccounts.updateAccountsResizeDelta, hdelta, Int.add_zero,
    clampI64_eq hlo (hhi.trans hmax)]

/-- What the handler makes of an account is what the setter makes of it. -/
theorem setDataLength_grown (hof : b.IsOf t) (hchange : b.canDataBeChanged = .ok ())
    (hgrowth : t.WithinGrowth) (hold : b.getData.length ≤ maxAccountDataLen) (reserved : Nat) :
    b.setDataLength t (grownLength t reserved b.getData.length) =
      .ok (b.save (t.updateAccountsResizeDelta b.getData.length
          (grownLength t reserved b.getData.length))
        { b.account with
          data := BorrowedInstructionAccount.resized b.getData
            (grownLength t reserved b.getData.length) }) := by
  have howned := (BorrowedInstructionAccount.canDataBeChanged_ok hchange).2
  have hresize := grownLength_canDataBeResized hgrowth reserved hold
  generalize grownLength t reserved b.getData.length = newLen at hresize ⊢
  have hcheck : b.canDataBeResized t newLen = .ok () := by
    unfold BorrowedInstructionAccount.canDataBeResized
    simp only [howned, Bool.not_true, Bool.and_false, Bool.false_eq_true, if_false, hresize,
      hchange]
    rfl
  unfold BorrowedInstructionAccount.setDataLength
  rw [hcheck]
  dsimp only [Bind.bind, Except.bind]
  split
  · -- The setter does nothing, and growing to the same length is nothing as well.
    rename_i hsame
    subst hsame
    have hdata : BorrowedInstructionAccount.resized b.getData b.getData.length = b.getData := by
      simp [BorrowedInstructionAccount.resized]
    rw [hdata, updateAccountsResizeDelta_self hgrowth]
    exact congrArg Except.ok (Prod.ext rfl (BorrowedInstructionAccount.setAccount_self hof).symm)
  · rfl

@[simp] theorem unshare_payload (storage : HostStorage) (mode : MappingMode)
    (index : IndexOfAccount) (region : MemoryRegion) :
    (unshare storage mode index region).accessViolationHandlerPayload =
      region.accessViolationHandlerPayload := by
  unfold unshare
  split <;> rfl

@[simp] theorem unshare_len (storage : HostStorage) (mode : MappingMode) (index : IndexOfAccount)
    (region : MemoryRegion) : (unshare storage mode index region).len = region.len := by
  unfold unshare
  split <;> rfl

@[simp] theorem unshare_vmAddr (storage : HostStorage) (mode : MappingMode) (index : IndexOfAccount)
    (region : MemoryRegion) : (unshare storage mode index region).vmAddr = region.vmAddr := by
  unfold unshare
  split <;> rfl

/-- What the handler can have done.  It leaves a region without an index alone. -/
theorem accessViolationHandler_cases (storage : HostStorage) (mode : MappingMode)
    (t : TransactionAccounts) (region : MemoryRegion) (reserved : U64) (accessType : AccessType)
    (vmAddr len : U64) {region' : MemoryRegion} {t' : TransactionAccounts}
    (h : accessViolationHandler storage mode t region reserved accessType vmAddr len =
      (region', t')) :
    (region' = region ∧ t' = t) ∨
      ∃ payload account, region.accessViolationHandlerPayload = some payload ∧
        t.tryBorrow payload.toNat = .ok account ∧ region'.vmAddr = region.vmAddr ∧
        region'.accessViolationHandlerPayload = region.accessViolationHandlerPayload ∧
        ((t' = t ∧ region'.len = region.len) ∨
          (region'.len = BitVec.ofNat 64 (grownLength t reserved.toNat account.data.length) ∧
            t' = growAccount t payload.toNat account
              (grownLength t reserved.toNat account.data.length))) := by
  unfold accessViolationHandler at h
  split at h
  · cases h
    exact .inl ⟨rfl, rfl⟩
  · split at h
    · cases h
      exact .inl ⟨rfl, rfl⟩
    · rename_i payload hpayload
      dsimp only at h
      split at h
      · cases h
        exact .inl ⟨rfl, rfl⟩
      · split at h
        · cases h
          exact .inl ⟨rfl, rfl⟩
        · rename_i account haccount
          cases hgrown : growToFit t region reserved.toNat
            (U64.saturatingSub (U64.saturatingAdd vmAddr len) region.vmAddr).toNat payload.toNat
            account with
          | mk grown t₁ =>
              rw [hgrown] at h
              cases h
              rw [unshare_payload, unshare_len, unshare_vmAddr]
              unfold growToFit at hgrown
              split at hgrown
              · cases hgrown
                exact .inr ⟨payload, account, hpayload, haccount, rfl, rfl, .inr ⟨rfl, rfl⟩⟩
              · cases hgrown
                exact .inr ⟨payload, account, hpayload, haccount, rfl, rfl, .inl ⟨rfl, rfl⟩⟩

end Handler

/-! ## Regions that follow accounts -/

/-- The region is as long as the data of the account.  It can be written, or made to grow, only if the
instruction may change the data. -/
structure Follows (b : BorrowedInstructionAccount) (region : MemoryRegion) : Prop where
  len : region.len.toNat = b.getData.length
  writable : region.writable = true → b.canDataBeChanged = .ok ()
  payload : ∀ {payload : UInt16}, region.accessViolationHandlerPayload = some payload →
    b.canDataBeChanged = .ok () ∧ b.getIndexInTransaction = payload.toNat

section FollowsRules

variable {b : BorrowedInstructionAccount} {region : MemoryRegion}

theorem Follows.of_changeable (hindex : b.getIndexInTransaction < 2 ^ 16)
    (hsmall : b.getData.length ≤ maxAccountDataLen) (hchange : b.canDataBeChanged = .ok ())
    (hlen : region.len = BitVec.ofNat 64 b.getData.length)
    (hcarries : region.accessViolationHandlerPayload =
      some (UInt16.ofNat b.getIndexInTransaction)) :
    Follows b region where
  len := by rw [hlen, U64.toNat_ofNat (hsmall.trans (by decide))]
  writable := fun _ => hchange
  payload := fun {payload} h => by
    obtain rfl : UInt16.ofNat b.getIndexInTransaction = payload :=
      Option.some.inj (hcarries.symm.trans h)
    exact ⟨hchange, (UInt16.toNat_ofNat_of_lt hindex).symm⟩

theorem Follows.of_fixed (hsmall : b.getData.length ≤ maxAccountDataLen)
    (hlen : region.len = BitVec.ofNat 64 b.getData.length) (hreadonly : region.writable = false)
    (hcarries : region.accessViolationHandlerPayload = none) : Follows b region where
  len := by rw [hlen, U64.toNat_ofNat (hsmall.trans (by decide))]
  writable := fun h => absurd (hreadonly.symm.trans h) Bool.false_ne_true
  payload := fun h => by
    rw [hcarries] at h
    cases h

end FollowsRules

theorem createMemoryRegionOfAccount_follows {b : BorrowedInstructionAccount}
    (hindex : b.getIndexInTransaction < 2 ^ 16) (hsmall : b.getData.length ≤ maxAccountDataLen)
    (storage : HostStorage) (vaddr : U64) :
    Follows b (createMemoryRegionOfAccount storage b vaddr) := by
  unfold createMemoryRegionOfAccount
  dsimp only
  cases hchange : b.canDataBeChanged with
  | error err => exact .of_fixed hsmall rfl rfl rfl
  | ok _ =>
      refine .of_changeable hindex hsmall hchange ?_ rfl
      dsimp only
      split <;> rfl

theorem modifyMemoryRegionOfAccount_follows {b : BorrowedInstructionAccount}
    (hindex : b.getIndexInTransaction < 2 ^ 16) (hsmall : b.getData.length ≤ maxAccountDataLen)
    (region : MemoryRegion) : Follows b (modifyMemoryRegionOfAccount b region) := by
  unfold modifyMemoryRegionOfAccount
  cases hchange : b.canDataBeChanged with
  | error err => exact .of_fixed hsmall rfl rfl rfl
  | ok _ => exact .of_changeable hindex hsmall hchange rfl rfl

/-- The region is over the data of the account with this index, which the instruction has borrowed, and
follows it; or it is over no account, and carries no index. -/
def RegionShows (a : Authority) (t : TransactionAccounts) (region : MemoryRegion) :
    Option IndexOfAccount → Prop
  | none => region.accessViolationHandlerPayload = none
  | some index => ∃ b, a.Borrows b t ∧ b.getIndexInTransaction = index ∧ Follows b region

/-- A region keeps its address and what it carries.  One that carries nothing stays as it is. -/
structure RegionKept (region region' : MemoryRegion) : Prop where
  vmAddr : region'.vmAddr = region.vmAddr
  payload : region'.accessViolationHandlerPayload = region.accessViolationHandlerPayload
  fixed : region.accessViolationHandlerPayload = none → region' = region

theorem RegionKept.refl (region : MemoryRegion) : RegionKept region region :=
  ⟨rfl, rfl, fun _ => rfl⟩

theorem RegionKept.trans {region region' region'' : MemoryRegion} (h : RegionKept region region')
    (h' : RegionKept region' region'') : RegionKept region region'' where
  vmAddr := h'.vmAddr.trans h.vmAddr
  payload := h'.payload.trans h.payload
  fixed := fun hnone => (h'.fixed (h.payload.trans hnone)).trans (h.fixed hnone)

/-- The limits on the accounts of a transaction. -/
structure Limited (t : TransactionAccounts) : Prop where
  growth : t.WithinGrowth
  small : ∀ {index : IndexOfAccount} {entry : Pubkey × AccountSharedData},
    t.accounts[index]? = some entry → entry.2.data.length ≤ maxAccountDataLen

/-- The limits on the accounts of an instruction. -/
structure AccountLimits (ic : InstructionContext) : Prop where
  small : ∀ entry ∈ ic.transactionContext.accounts.accounts, entry.2.data.length ≤ maxAccountDataLen
  index : ∀ account ∈ ic.instructionAccounts, account.indexInTransaction < 2 ^ 16

theorem AccountLimits.borrowed {ic : InstructionContext} (h : AccountLimits ic)
    {index : IndexOfAccount} {b : BorrowedInstructionAccount}
    (hb : ic.tryBorrowInstructionAccount index = .ok b) :
    b.getIndexInTransaction < 2 ^ 16 ∧ b.getData.length ≤ maxAccountDataLen := by
  obtain ⟨hmem, -, hof⟩ := tryBorrowInstructionAccount_ok hb
  exact ⟨h.index _ hmem, h.small _ (List.mem_of_getElem? hof)⟩

/-- What the handler guarantees: it edits accounts under the authority of the instruction and within the
limits, the region shows its account again, and borrows of other accounts are as they were. -/
structure Handled (a : Authority) (owner : Option IndexOfAccount) (t : TransactionAccounts)
    (region region' : MemoryRegion) (t' : TransactionAccounts) : Prop where
  edits : a.Edits t t'
  limited : Limited t'
  kept : RegionKept region region'
  shows : RegionShows a t' region' owner
  others : ∀ b, a.Borrows b t → owner ≠ some b.getIndexInTransaction → a.Borrows b t'

section Growth

variable {a : Authority} {t : TransactionAccounts} {b : BorrowedInstructionAccount} {newLen : Nat}

/-- The account after it has grown. -/
def grown (b : BorrowedInstructionAccount) (newLen : Nat) : BorrowedInstructionAccount :=
  { b with account := { b.account with data := BorrowedInstructionAccount.resized b.getData newLen } }

/-- Growing to a length that the setter accepts is an edit of the account, and of no other. -/
theorem growAccount_edits (hb : a.Borrows b t)
    (hset : b.setDataLength t newLen = .ok (b.save (t.updateAccountsResizeDelta b.getData.length newLen)
      (grown b newLen).account)) :
    a.Edits t (growAccount t b.getIndexInTransaction b.account newLen) ∧
      a.Borrows (grown b newLen) (growAccount t b.getIndexInTransaction b.account newLen) := by
  have happly : (AccountChange.dataLength newLen).apply b t = .ok _ := hset
  exact hb.apply happly

theorem growAccount_limited (hlimited : Limited t) (hof : b.IsOf t) (hnew : newLen ≤ maxAccountDataLen)
    (hset : b.setDataLength t newLen = .ok (b.save (t.updateAccountsResizeDelta b.getData.length newLen)
      (grown b newLen).account)) :
    Limited (growAccount t b.getIndexInTransaction b.account newLen) := by
  have hkeeps := BorrowedInstructionAccount.setDataLength_growth b t hlimited.growth newLen
  rw [hset] at hkeeps
  refine ⟨hkeeps, fun {index entry} hentry => ?_⟩
  by_cases hself : b.getIndexInTransaction = index
  · subst hself
    have hgrown : entry = (b.key, (grown b newLen).account) :=
      Option.some.inj (hentry.symm.trans (TransactionAccounts.getElem?_setAccount_self hof _))
    rw [hgrown]
    exact (length_resized b.account.data newLen).le.trans hnew
  · exact hlimited.small ((TransactionAccounts.getElem?_setAccount_of_ne hself _).symm.trans hentry)

theorem growAccount_others {other : BorrowedInstructionAccount} (hother : a.Borrows other t)
    (hne : b.getIndexInTransaction ≠ other.getIndexInTransaction) :
    a.Borrows other (growAccount t b.getIndexInTransaction b.account newLen) :=
  ⟨hother.holds, (TransactionAccounts.getElem?_setAccount_of_ne hne _).trans hother.isOf⟩

end Growth

theorem accessViolationHandler_handled {a : Authority} {t : TransactionAccounts}
    {region : MemoryRegion} {owner : Option IndexOfAccount} (hlimited : Limited t)
    (hshows : RegionShows a t region owner)
    {storage : HostStorage} {mode : MappingMode} {reserved : U64} {accessType : AccessType}
    {vmAddr len : U64} {region' : MemoryRegion} {t' : TransactionAccounts}
    (h : accessViolationHandler storage mode t region reserved accessType vmAddr len =
      (region', t')) : Handled a owner t region region' t' := by
  -- The region is left alone, or it is over the account whose index it carries.
  obtain ⟨rfl, rfl⟩ | ⟨payload, account, hindex, haccount, haddr, hpayload, hlen⟩ :=
    accessViolationHandler_cases storage mode t region reserved accessType vmAddr len h
  · exact ⟨.refl a _, hlimited, .refl _, hshows, fun b hb _ => hb⟩
  · have hkept : RegionKept region region' := by
      refine ⟨haddr, hpayload, fun hnone => ?_⟩
      rw [hindex] at hnone
      cases hnone
    cases owner with
    | none =>
        rw [RegionShows, hindex] at hshows
        cases hshows
    | some index =>
        obtain ⟨b, hb, rfl, hfollows⟩ := hshows
        obtain ⟨hchange, hof⟩ := hfollows.payload hindex
        -- The region may have been made writable, which the account allows.
        have hfollows' : ∀ b' : BorrowedInstructionAccount, region'.len.toNat = b'.getData.length →
            b'.canDataBeChanged = .ok () → b'.getIndexInTransaction = payload.toNat →
              Follows b' region' := by
          intro b' hlen' hchange' hof'
          refine ⟨hlen', fun _ => hchange', fun {payload'} hcarries => ⟨hchange', ?_⟩⟩
          obtain rfl : payload = payload' :=
            Option.some.inj (hindex.symm.trans (hpayload.symm.trans hcarries))
          exact hof'
        rcases hlen with ⟨rfl, hlen⟩ | ⟨hlen, rfl⟩
        · exact ⟨.refl a _, hlimited, hkept,
            ⟨b, hb, rfl, hfollows' b (hlen ▸ hfollows.len) hchange hof⟩, fun other hother _ => hother⟩
        · have hborrowed : t.accounts[b.getIndexInTransaction]? = some (b.key, b.account) := hb.isOf
          obtain rfl : account = b.account := by
            unfold TransactionAccounts.tryBorrow at haccount
            rw [← hof, hborrowed] at haccount
            exact (Except.ok.inj haccount).symm
          have hset := setDataLength_grown hb.isOf hchange hlimited.growth
            (hlimited.small hborrowed) reserved.toNat
          have hnew : grownLength t reserved.toNat b.getData.length ≤ maxAccountDataLen :=
            (min_le_left _ _).trans (min_le_right _ _)
          change region'.len = BitVec.ofNat 64 (grownLength t reserved.toNat b.getData.length) at hlen
          change Handled a _ t region region' (growAccount t payload.toNat b.account
            (grownLength t reserved.toNat b.getData.length))
          rw [← hof]
          generalize grownLength t reserved.toNat b.getData.length = newLen at hset hnew hlen ⊢
          obtain ⟨hedits, hborrows⟩ := growAccount_edits hb hset
          refine ⟨hedits, growAccount_limited hlimited hb.isOf hnew hset, hkept,
            ⟨grown b newLen, hborrows, rfl, hfollows' _ ?_ hchange hof⟩,
            fun other hother hne => growAccount_others hother fun hsame => hne (congrArg some hsame)⟩
          rw [hlen, U64.toNat_ofNat (hnew.trans (by decide))]
          exact (length_resized b.getData newLen).symm

/-! ## Accesses -/

/-- The memory of a program, and the accounts behind it. -/
structure MappedAccounts where
  mapping : MemoryMapping
  accounts : TransactionAccounts

namespace MappedAccounts

/-- `map_with_access_violation_handler` with the handler of the transaction. -/
def map (storage : HostStorage) (mode : MappingMode) (s : MappedAccounts) (accessType : AccessType)
    (vmAddr len : U64) : ProgramResult × MappedAccounts :=
  match s.mapping.common? with
  | none => (.ok vmAddr, s)
  | some _ =>
      let (found, m) := s.mapping.findRegion vmAddr
      match found with
      | none => (m.untranslated accessType vmAddr len, ⟨m, s.accounts⟩)
      | some (index, region) =>
          match region.vmToHost accessType vmAddr len with
          | some hostAddr => (.ok hostAddr, ⟨m, s.accounts⟩)
          | none =>
              let maxLen := U64.saturatingSub
                ((m.getRegions[index + 1]?.map MemoryRegion.vmAddr).getD (BitVec.allOnes 64))
                region.vmAddr
              let (region, accounts) :=
                accessViolationHandler storage mode s.accounts region maxLen accessType vmAddr len
              match region.vmToHost accessType vmAddr len with
              | some hostAddr =>
                  match m.replaceRegion index region with
                  | .error err => (.error err, ⟨m, accounts⟩)
                  | .ok m => (.ok hostAddr, ⟨m, accounts⟩)
              | none => (m.untranslated accessType vmAddr len, ⟨m, accounts⟩)

/-- What happens to the mapping is what happens with any handler that answers alike. -/
theorem map_mapping {s : MappedAccounts} {c : CommonMemoryMapping}
    (hc : s.mapping.common? = some c) {storage : HostStorage} {mode : MappingMode}
    (hhandler : ∀ region reserved accessType vmAddr len,
      c.accessViolationHandler region reserved accessType vmAddr len =
        (accessViolationHandler storage mode s.accounts region reserved accessType vmAddr len).1)
    (accessType : AccessType) (vmAddr len : U64) :
    s.mapping.mapWithAccessViolationHandler accessType vmAddr len =
      ((s.map storage mode accessType vmAddr len).1,
        (s.map storage mode accessType vmAddr len).2.mapping) := by
  unfold map MemoryMapping.mapWithAccessViolationHandler
  rw [hc]
  dsimp only
  generalize s.mapping.findRegion vmAddr = found
  obtain ⟨found, m⟩ := found
  cases found with
  | none => rfl
  | some entry =>
      obtain ⟨index, region⟩ := entry
      dsimp only
      cases region.vmToHost accessType vmAddr len with
      | some hostAddr => rfl
      | none =>
          dsimp only
          rw [hhandler]
          generalize accessViolationHandler storage mode s.accounts region _ accessType vmAddr len =
            handled
          obtain ⟨region', accounts⟩ := handled
          dsimp only
          cases region'.vmToHost accessType vmAddr len with
          | none => rfl
          | some hostAddr =>
              dsimp only
              cases m.replaceRegion index region' with
              | error err => rfl
              | ok m' => rfl

/-- An access of a program, and where the host has the data of accounts after it. -/
structure Access where
  storage : HostStorage
  accessType : AccessType
  vmAddr : U64
  len : U64

/-- A program accesses its memory until an access is refused. -/
def run (mode : MappingMode) : List Access → MappedAccounts → Except EbpfError Unit × MappedAccounts
  | [], s => (.ok (), s)
  | access :: rest, s =>
      match s.map access.storage mode access.accessType access.vmAddr access.len with
      | (.ok _, s) => run mode rest s
      | (.error err, s) => (.error err, s)

/-- The regions show accounts of the instruction as the table says, each account once. -/
structure Matches (a : Authority) (owners : List (Option IndexOfAccount)) (s : MappedAccounts) :
    Prop where
  limited : Limited s.accounts
  table : OwnerTable (RegionShows a s.accounts) s.mapping.getRegions owners

/-- What one access and a whole run guarantee. -/
structure Kept {α : Type} (a : Authority) (owners : List (Option IndexOfAccount)) (s : MappedAccounts)
    (r : Except EbpfError α × MappedAccounts) : Prop where
  edits : a.Edits s.accounts r.2.accounts
  limited : Limited r.2.accounts
  regions : List.Forall₂ RegionKept s.mapping.getRegions r.2.mapping.getRegions
  shows : ∀ value, r.1 = .ok value → r.2.Matches a owners

variable {a : Authority} {owners : List (Option IndexOfAccount)} {s : MappedAccounts}

theorem regionKept_refl (regions : List MemoryRegion) : List.Forall₂ RegionKept regions regions :=
  List.forall₂_same.mpr fun region _ => .refl region

theorem regionKept_trans {regions regions' regions'' : List MemoryRegion}
    (h : List.Forall₂ RegionKept regions regions') (h' : List.Forall₂ RegionKept regions' regions'') :
    List.Forall₂ RegionKept regions regions'' := by
  induction h generalizing regions'' with
  | nil => exact h'
  | cons hfirst _ ih =>
      cases h' with
      | cons hfirst' hrest' => exact .cons (hfirst.trans hfirst') (ih hrest')

/-- One region is replaced. -/
theorem regionKept_set {regions : List MemoryRegion} {index : Nat} {region region' : MemoryRegion}
    (hindex : regions[index]? = some region) (hkept : RegionKept region region') :
    List.Forall₂ RegionKept regions (regions.set index region') := by
  refine List.forall₂_iff_get.mpr ⟨(List.length_set ..).symm, fun i hi hi' => ?_⟩
  rw [List.get_eq_getElem, List.get_eq_getElem, List.getElem_set]
  split
  · rename_i hsame
    subst hsame
    rw [(List.getElem?_eq_some_iff.mp hindex).2]
    exact hkept
  · exact .refl _

/-- A result without a change. -/
theorem Matches.kept {α : Type} (h : s.Matches a owners) {m : MemoryMapping}
    (hregions : m.getRegions = s.mapping.getRegions) (result : Except EbpfError α) :
    Kept a owners s (result, ⟨m, s.accounts⟩) := by
  refine ⟨.refl a _, h.limited, ?_, fun _ _ => ⟨h.limited, ?_⟩⟩
  · rw [hregions]
    exact regionKept_refl _
  · rw [hregions]
    exact h.table

/-- The region that the handler has been called for is replaced. -/
theorem Matches.replaced (h : s.Matches a owners) {index : Nat} {owner : Option IndexOfAccount}
    (howner : owners[index]? = some owner) {region region' : MemoryRegion} {m : MemoryMapping}
    {accounts : TransactionAccounts} (hhandled : Handled a owner s.accounts region region' accounts)
    (hregions : m.getRegions = s.mapping.getRegions.set index region') :
    Matches a owners ⟨m, accounts⟩ := by
  refine ⟨hhandled.limited, ?_⟩
  rw [hregions]
  refine h.table.set howner hhandled.shows fun other otherOwner hshows hne => ?_
  cases otherOwner with
  | none => exact hshows
  | some i =>
      obtain ⟨b, hb, rfl, hfollows⟩ := hshows
      exact ⟨b, hhandled.others b hb (hne _ rfl), rfl, hfollows⟩

theorem map_kept (h : s.Matches a owners) (storage : HostStorage) (mode : MappingMode)
    (accessType : AccessType) (vmAddr len : U64) :
    Kept a owners s (s.map storage mode accessType vmAddr len) := by
  unfold map
  split
  · exact h.kept rfl _
  · rename_i c hc
    have hsame := MemoryMapping.getRegions_findRegion (m := s.mapping) vmAddr
    have hmem := @MemoryMapping.findRegion_mem s.mapping c hc vmAddr
    have hcommon := MemoryMapping.findRegion_common s.mapping vmAddr
    generalize s.mapping.findRegion vmAddr = found at hsame hmem hcommon ⊢
    obtain ⟨found, m⟩ := found
    dsimp only at hsame hmem hcommon ⊢
    split
    · exact h.kept hsame _
    · rename_i index region
      have hindex : s.mapping.getRegions[index]? = some region := by
        rw [MemoryMapping.getRegions, hc]
        exact hmem rfl
      split
      · exact h.kept hsame _
      · generalize U64.saturatingSub _ _ = maxLen
        cases hhandler : accessViolationHandler storage mode s.accounts region maxLen accessType
          vmAddr len with
        | mk region' accounts =>
            obtain ⟨owner, howner, hshows⟩ := forall₂_getElem? h.table.each hindex
            have hhandled := accessViolationHandler_handled h.limited hshows hhandler
            -- If the access is refused, the mapping has the old regions.
            have hrefused : ∀ (result : ProgramResult), (∀ value, result ≠ .ok value) →
                Kept a owners s (result, ⟨m, accounts⟩) := by
              refine fun result herror => ⟨hhandled.edits, hhandled.limited, ?_,
                fun value hok => absurd hok (herror value)⟩
              rw [hsame]
              exact regionKept_refl _
            dsimp only
            split
            · split
              · exact hrefused _ fun value hok => by cases hok
              · rename_i m' hreplace
                have hregions : m'.getRegions = s.mapping.getRegions.set index region' := by
                  rw [MemoryMapping.replaceRegion_getRegions hreplace, hsame]
                refine ⟨hhandled.edits, hhandled.limited, ?_,
                  fun _ _ => h.replaced howner hhandled hregions⟩
                rw [hregions]
                exact regionKept_set hindex hhandled.kept
            · refine hrefused _ fun value hok => ?_
              -- Addresses are translated, so this is an access violation.
              rw [MemoryMapping.untranslated, hcommon, hc] at hok
              cases hok

/-- Whatever a program accesses: regions that show accounts go on showing them. -/
theorem run_kept (h : s.Matches a owners) (mode : MappingMode) (accesses : List Access) :
    Kept a owners s (s.run mode accesses) := by
  induction accesses generalizing s with
  | nil => exact ⟨.refl a _, h.limited, regionKept_refl _, fun _ _ => h⟩
  | cons access rest ih =>
      have hfirst := map_kept h access.storage mode access.accessType access.vmAddr access.len
      unfold run
      generalize s.map access.storage mode access.accessType access.vmAddr access.len = r at hfirst ⊢
      obtain ⟨result, s'⟩ := r
      cases result with
      | error err => exact ⟨hfirst.edits, hfirst.limited, hfirst.regions, fun _ hok => by cases hok⟩
      | ok host =>
          obtain ⟨hedits, hlimited, hregions, hshows⟩ := ih (hfirst.shows host rfl)
          exact ⟨hfirst.edits.trans hedits, hlimited,
            regionKept_trans hfirst.regions hregions, hshows⟩

end MappedAccounts

end ProgramRuntime
end Gobble
