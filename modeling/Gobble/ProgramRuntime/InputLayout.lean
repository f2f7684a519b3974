import Gobble.ProgramRuntime.InputImage

/-!
# InputLayout — the input of a program in either format and every mode

A run of a format on the abstract image (`serializeInput_succeeds`) says where everything is: it
does not depend on the mapping mode, except for the number of buffer bytes used, which is the size
that is computed in advance.  The simulation rule carries this over to the serializer
(`serializeParametersWith_spec`).
-/

namespace Gobble
namespace ProgramRuntime

open Lib Sbpf Sdk Context EffectTree

/-! ## Running operations on the image -/

/-- The account that an entry borrows. -/
def SerializeAccount.account? : SerializeAccount → Option BorrowedInstructionAccount
  | .account _ borrowed => some borrowed
  | .duplicate _ => none

/-- An account may be placed if it is one of `accounts` and not placed yet, behind at least one byte
of its own fields. -/
def Placeable (accounts : List BorrowedInstructionAccount) : SerializeOp → InputImage → Prop
  | .write _, _ => True
  | .writeAccount account, im => 0 < im.pending ∧ account ∈ accounts ∧
      ∀ p ∈ im.placements, p.2.getIndexInTransaction ≠ account.getIndexInTransaction

section Image

variable {isLoaderV1 isDirect : Bool} {accounts : List BorrowedInstructionAccount}
  {im : InputImage}

theorem succeeds_write (bytes : List UInt8) :
    Succeeds (imageHandler isLoaderV1 isDirect) (Placeable accounts) (SerializeM.write bytes) im
      (BitVec.ofNat 64 im.cursor) (im.write bytes) :=
  ⟨rfl, trivial, trivial⟩

theorem succeeds_writeAccount {account : BorrowedInstructionAccount} (hpending : 0 < im.pending)
    (hmem : account ∈ accounts)
    (hnew : ∀ p ∈ im.placements, p.2.getIndexInTransaction ≠ account.getIndexInTransaction) :
    Succeeds (imageHandler isLoaderV1 isDirect) (Placeable accounts)
      (SerializeM.writeAccount account) im (BitVec.ofNat 64 im.cursor)
      (im.writeAccount isLoaderV1 isDirect account) :=
  ⟨rfl, ⟨hpending, hmem, hnew⟩, trivial⟩

end Image

/-! ## One account -/

/-- Account data is copied into the buffer. -/
def MappingMode.contiguous : MappingMode :=
  { stricterAbiAndRuntimeConstraints := false, accountDataDirectMapping := false }

/-- The metadata says where the fields of the account are. -/
structure Describes (im : InputImage) (account : BorrowedInstructionAccount)
    (metadata : SerializedAccountMetadata) : Prop where
  originalDataLen : metadata.originalDataLen = account.getData.length
  data : ∃ c, (c, account) ∈ im.placements ∧ metadata.vmDataAddr = BitVec.ofNat 64 c
  key : ∃ c, (c, account.key.toList) ∈ im.chunks ∧ metadata.vmKeyAddr = BitVec.ofNat 64 c
  owner : ∃ c, (c, account.getOwner.toList) ∈ im.chunks ∧
    metadata.vmOwnerAddr = BitVec.ofNat 64 c
  lamports : ∃ c, (c, leBytes 8 account.getLamports.toNat) ∈ im.chunks ∧
    metadata.vmLamportsAddr = BitVec.ofNat 64 c

theorem Describes.mono {im im' : InputImage} {account : BorrowedInstructionAccount}
    {metadata : SerializedAccountMetadata} (h : Describes im account metadata)
    (hplacements : im.placements ⊆ im'.placements) (hchunks : im.chunks ⊆ im'.chunks) :
    Describes im' account metadata := by
  rcases h with ⟨hlen, ⟨d, hd, hd'⟩, ⟨k, hk, hk'⟩, ⟨o, ho, ho'⟩, ⟨l, hl, hl'⟩⟩
  exact ⟨hlen, ⟨d, hplacements hd, hd'⟩, ⟨k, hchunks hk, hk'⟩, ⟨o, hchunks ho, ho'⟩,
    ⟨l, hchunks hl, hl'⟩⟩

/-- What serializing entries adds to an image. -/
structure Adds (isLoaderV1 : Bool) (mode : MappingMode) (entries : List SerializeAccount)
    (im im' : InputImage) : Prop where
  cursor : im'.cursor =
    im.cursor + (entries.map (accountSize isLoaderV1 MappingMode.contiguous)).sum
  used : im'.used = im.used + (entries.map (accountSize isLoaderV1 mode)).sum
  pending : 0 < im'.pending
  placements : ∃ new, im'.placements = im.placements ++ new ∧
    new.map Prod.snd = entries.filterMap SerializeAccount.account?
  chunks : im.chunks ⊆ im'.chunks

theorem Adds.trans {isLoaderV1 : Bool} {mode : MappingMode} {entries entries' : List SerializeAccount}
    {im₁ im₂ im₃ : InputImage} (h : Adds isLoaderV1 mode entries im₁ im₂)
    (h' : Adds isLoaderV1 mode entries' im₂ im₃) :
    Adds isLoaderV1 mode (entries ++ entries') im₁ im₃ where
  cursor := by
    rw [h'.cursor, h.cursor, List.map_append, List.sum_append, Nat.add_assoc]
  used := by
    rw [h'.used, h.used, List.map_append, List.sum_append, Nat.add_assoc]
  pending := h'.pending
  placements := by
    rcases h.placements with ⟨new, hnew, hsnd⟩
    rcases h'.placements with ⟨new', hnew', hsnd'⟩
    exact ⟨new ++ new', by rw [hnew', hnew, List.append_assoc],
      by rw [List.map_append, hsnd, hsnd', List.filterMap_append]⟩
  chunks := List.Subset.trans h.chunks h'.chunks

section Entry

variable {isLoaderV1 : Bool} {mode : MappingMode} {accounts : List BorrowedInstructionAccount}
  {im : InputImage} {acc : List SerializedAccountMetadata}

theorem serializeAccount_account {index : IndexOfAccount} {account : BorrowedInstructionAccount}
    (hmem : account ∈ accounts)
    (hnew : ∀ p ∈ im.placements, p.2.getIndexInTransaction ≠ account.getIndexInTransaction) :
    ∃ metadata im',
      Succeeds (imageHandler isLoaderV1 mode.isDirect) (Placeable accounts)
        (serializeAccount isLoaderV1 acc (.account index account)) im (acc ++ [metadata]) im' ∧
      Adds isLoaderV1 mode [.account index account] im im' ∧ Describes im' account metadata := by
  cases isLoaderV1 with
  | true =>
      refine ⟨?_, ?_, ?_, ?_, ?_⟩
      rotate_left 2
      · change Succeeds _ _ (serializeAccountUnaligned acc (.account index account)) _ _ _
        iterate 6 refine Succeeds.bind (succeeds_write _) ?_
        refine Succeeds.bind (succeeds_writeAccount ?_ hmem hnew) ?_
        · simp [InputImage.write]
        iterate 3 refine Succeeds.bind (succeeds_write _) ?_
        exact succeeds_pure _ _
      · refine ⟨?_, ?_, ?_, ⟨_, rfl, rfl⟩, ?_⟩
        · simp [InputImage.write, InputImage.writeAccount, InputImage.accountSpan, accountSize,
            accountSizeUnaligned, MappingMode.contiguous, MappingMode.isDirect]
          omega
        · cases hdirect : mode.isDirect <;>
            simp [InputImage.write, InputImage.writeAccount, InputImage.accountUsed,
              InputImage.accountSpan, accountSize, accountSizeUnaligned, hdirect]
          omega
        · simp [InputImage.write]
        · simp [InputImage.write, InputImage.writeAccount]
      · refine ⟨rfl, ⟨_, ?_, rfl⟩, ⟨_, ?_, rfl⟩, ⟨_, ?_, rfl⟩, ⟨_, ?_, rfl⟩⟩ <;>
          simp [InputImage.write, InputImage.writeAccount]
  | false =>
      refine ⟨?_, ?_, ?_, ?_, ?_⟩
      rotate_left 2
      · change Succeeds _ _ (serializeAccountAligned acc (.account index account)) _ _ _
        iterate 9 refine Succeeds.bind (succeeds_write _) ?_
        refine Succeeds.bind (succeeds_writeAccount ?_ hmem hnew) ?_
        · simp [InputImage.write]
        refine Succeeds.bind (succeeds_write _) ?_
        exact succeeds_pure _ _
      · refine ⟨?_, ?_, ?_, ⟨_, rfl, rfl⟩, ?_⟩
        · simp [InputImage.write, InputImage.writeAccount, InputImage.accountSpan, accountSize,
            accountSizeAligned, MappingMode.contiguous, MappingMode.isDirect]
          omega
        · cases hdirect : mode.isDirect <;>
            simp [InputImage.write, InputImage.writeAccount, InputImage.accountUsed,
              InputImage.accountSpan, accountSize, accountSizeAligned, hdirect]
          · omega
          · omega
        · simp [InputImage.write]
        · simp [InputImage.write, InputImage.writeAccount]
      · refine ⟨rfl, ⟨_, ?_, rfl⟩, ⟨_, ?_, rfl⟩, ⟨_, ?_, rfl⟩, ⟨_, ?_, rfl⟩⟩ <;>
          simp [InputImage.write, InputImage.writeAccount]

theorem serializeAccount_duplicate {position : IndexOfAccount}
    {metadata : SerializedAccountMetadata} (hmetadata : acc[position]? = some metadata) :
    ∃ im',
      Succeeds (imageHandler isLoaderV1 mode.isDirect) (Placeable accounts)
        (serializeAccount isLoaderV1 acc (.duplicate position)) im (acc ++ [metadata]) im' ∧
      Adds isLoaderV1 mode [.duplicate position] im im' := by
  have hunwrap : Succeeds (imageHandler isLoaderV1 mode.isDirect) (Placeable accounts)
      (SerializeM.unwrap acc[position]?) im metadata im := by
    rw [hmetadata]
    exact succeeds_pure _ _
  cases isLoaderV1 with
  | true =>
      refine ⟨?_, ?_, ?_⟩
      rotate_left 1
      · change Succeeds _ _ (serializeAccountUnaligned acc (.duplicate position)) _ _ _
        refine Succeeds.bind hunwrap ?_
        refine Succeeds.bind (succeeds_write _) ?_
        exact succeeds_pure _ _
      · constructor <;>
          simp [InputImage.write, accountSize, accountSizeUnaligned, SerializeAccount.account?]
  | false =>
      refine ⟨?_, ?_, ?_⟩
      rotate_left 1
      · change Succeeds _ _ (serializeAccountAligned acc (.duplicate position)) _ _ _
        refine Succeeds.bind hunwrap ?_
        iterate 2 refine Succeeds.bind (succeeds_write _) ?_
        exact succeeds_pure _ _
      · constructor <;>
          simp [InputImage.write, accountSize, accountSizeAligned, SerializeAccount.account?]

end Entry

/-! ## All accounts -/

/-- Entries as they are collected from an instruction: a duplicate points backwards, and no account
is borrowed twice. -/
structure EntriesOk (entries : List SerializeAccount) : Prop where
  duplicates : ∀ i position : Nat, entries[i]? = some (.duplicate position) → position < i
  distinct : (entries.filterMap SerializeAccount.account?).Pairwise fun a b =>
    a.getIndexInTransaction ≠ b.getIndexInTransaction

/-- Metadata of the entries, `metas`, behind metadata `acc` of earlier entries. -/
structure MetadataOf (im : InputImage) (entries : List SerializeAccount)
    (acc metas : List SerializedAccountMetadata) : Prop where
  length : metas.length = entries.length
  accounts : ∀ (i : Nat) index account, entries[i]? = some (.account index account) →
    ∃ metadata, metas[i]? = some metadata ∧ Describes im account metadata
  duplicates : ∀ i position : Nat, entries[i]? = some (.duplicate position) →
    ∃ metadata, metas[i]? = some metadata ∧ (acc ++ metas)[position]? = some metadata

section Entries

variable {isLoaderV1 : Bool} {mode : MappingMode} {accounts : List BorrowedInstructionAccount}

theorem MetadataOf.cons {im im' : InputImage} {entry : SerializeAccount}
    {entries : List SerializeAccount} {acc metas : List SerializedAccountMetadata}
    {metadata : SerializedAccountMetadata} (h : MetadataOf im' entries (acc ++ [metadata]) metas)
    (hplacements : im.placements ⊆ im'.placements) (hchunks : im.chunks ⊆ im'.chunks)
    (haccount : ∀ index account, entry = .account index account → Describes im account metadata)
    (hduplicate : ∀ position, entry = .duplicate position → acc[position]? = some metadata) :
    MetadataOf im' (entry :: entries) acc (metadata :: metas) where
  length := by simp [h.length]
  accounts := by
    intro i index account hentry
    cases i with
    | zero =>
        have hdescribes := haccount index account (by simpa using hentry)
        exact ⟨metadata, rfl, hdescribes.mono hplacements hchunks⟩
    | succ i => exact h.accounts i index account (by simpa using hentry)
  duplicates := by
    intro i position hentry
    cases i with
    | zero =>
        have hacc := hduplicate position (by simpa using hentry)
        obtain ⟨hlt, -⟩ := List.getElem?_eq_some_iff.mp hacc
        exact ⟨metadata, rfl, by rw [List.getElem?_append_left hlt, hacc]⟩
    | succ i =>
        rcases h.duplicates i position (by simpa using hentry) with ⟨m, hm, hposition⟩
        exact ⟨m, hm, by simpa using hposition⟩

/-- One entry, by its kind. -/
theorem serializeAccount_succeeds {entry : SerializeAccount}
    {acc : List SerializedAccountMetadata} {im : InputImage}
    (hmem : ∀ index account, entry = .account index account → account ∈ accounts)
    (hduplicate : ∀ position, entry = .duplicate position → position < acc.length)
    (hnew : ∀ index account, entry = .account index account → ∀ p ∈ im.placements,
      p.2.getIndexInTransaction ≠ account.getIndexInTransaction) :
    ∃ metadata im',
      Succeeds (imageHandler isLoaderV1 mode.isDirect) (Placeable accounts)
        (serializeAccount isLoaderV1 acc entry) im (acc ++ [metadata]) im' ∧
      Adds isLoaderV1 mode [entry] im im' ∧
      (∀ index account, entry = .account index account → Describes im' account metadata) ∧
      (∀ position, entry = .duplicate position → acc[position]? = some metadata) := by
  cases entry with
  | account index account =>
      rcases @serializeAccount_account isLoaderV1 mode accounts im acc index account
        (hmem index account rfl) (hnew index account rfl) with
        ⟨metadata, im', hrun, hadds, hdescribes⟩
      refine ⟨metadata, im', hrun, hadds, ?_, by simp⟩
      intro index' account' heq
      cases heq
      exact hdescribes
  | duplicate position =>
      have hposition := hduplicate position rfl
      rcases @serializeAccount_duplicate isLoaderV1 mode accounts im acc position
        acc[position] (List.getElem?_eq_getElem hposition) with ⟨im', hrun, hadds⟩
      refine ⟨acc[position], im', hrun, hadds, by simp, ?_⟩
      intro position' heq
      cases heq
      exact List.getElem?_eq_getElem hposition

theorem foldlM_serializeAccount_succeeds {entries : List SerializeAccount}
    {acc : List SerializedAccountMetadata} {im : InputImage} (hpending : 0 < im.pending)
    (hmem : entries.filterMap SerializeAccount.account? ⊆ accounts)
    (hduplicates : ∀ i position : Nat, entries[i]? = some (.duplicate position) →
      position < acc.length + i)
    (hdistinct : (entries.filterMap SerializeAccount.account?).Pairwise fun a b =>
      a.getIndexInTransaction ≠ b.getIndexInTransaction)
    (hnew : ∀ a ∈ entries.filterMap SerializeAccount.account?, ∀ p ∈ im.placements,
      p.2.getIndexInTransaction ≠ a.getIndexInTransaction) :
    ∃ metas im',
      Succeeds (imageHandler isLoaderV1 mode.isDirect) (Placeable accounts)
        (entries.foldlM (serializeAccount isLoaderV1) acc) im (acc ++ metas) im' ∧
      Adds isLoaderV1 mode entries im im' ∧ MetadataOf im' entries acc metas := by
  induction entries generalizing acc im with
  | nil =>
      refine ⟨[], im, ?_, ?_, ?_⟩
      · rw [List.append_nil]
        exact succeeds_pure _ _
      · exact ⟨by simp, by simp, hpending, ⟨[], by simp, rfl⟩, List.Subset.refl _⟩
      · exact ⟨rfl, by simp, by simp⟩
  | cons entry rest ih =>
      -- The first entry, and then the rest, behind one more metadata.
      obtain ⟨metadata, im₁, hfirst, hadds, haccount, hduplicate⟩ :=
        @serializeAccount_succeeds isLoaderV1 mode accounts entry acc im
          (fun index account heq => hmem (by simp [heq, SerializeAccount.account?]))
          (fun position heq => by simpa using hduplicates 0 position (congrArg some heq))
          (fun index account heq => hnew account (by simp [heq, SerializeAccount.account?]))
      rcases hadds.placements with ⟨new, hplacements, hsnd⟩
      have hrest : rest.filterMap SerializeAccount.account? ⊆
          (entry :: rest).filterMap SerializeAccount.account? :=
        List.filterMap_subset _ (List.subset_cons_self entry rest)
      have hpairs := hdistinct
      rw [← List.singleton_append, List.filterMap_append, List.pairwise_append] at hpairs
      rcases hpairs with ⟨-, hpairs, hcross⟩
      obtain ⟨metas, im₂, hrun, hadds', hmetas⟩ := @ih (acc ++ [metadata]) im₁ hadds.pending
        (List.Subset.trans hrest hmem)
        (by
          intro i position hentry
          have := hduplicates (i + 1) position (by simpa using hentry)
          simp only [List.length_append, List.length_singleton]
          omega)
        hpairs
        (by
          intro a ha p hp
          rw [hplacements] at hp
          rcases List.mem_append.mp hp with hp | hp
          · exact hnew a (hrest ha) p hp
          · refine hcross p.2 ?_ a ha
            rw [← hsnd]
            exact List.mem_map_of_mem hp)
      rcases hadds'.placements with ⟨new', hplacements', -⟩
      refine ⟨metadata :: metas, im₂, ?_, hadds.trans hadds', hmetas.cons ?_ hadds'.chunks haccount
        hduplicate⟩
      · change Succeeds _ _ (serializeAccount isLoaderV1 acc entry >>= fun acc' =>
          rest.foldlM (serializeAccount isLoaderV1) acc') _ _ _
        refine hfirst.bind ?_
        rwa [List.append_assoc, List.singleton_append] at hrun
      · rw [hplacements']
        exact List.subset_append_left _ _

end Entries

/-! ## The whole input -/

theorem foldl_add_eq_sum (size : SerializeAccount → Nat) (entries : List SerializeAccount)
    (start : Nat) :
    entries.foldl (fun total entry => total + size entry) start =
      start + (entries.map size).sum := by
  induction entries generalizing start with
  | nil => simp
  | cons entry rest ih => simp [ih, Nat.add_assoc]

/-- What an image shows is below its cursor, and the address space of an account is apart from
everything else. -/
structure InputImage.Apart (isLoaderV1 : Bool) (im : InputImage) : Prop where
  cursor : mmInputStart.toNat ≤ im.cursor
  above : ∀ p ∈ im.placements, mmInputStart.toNat ≤ p.1
  below : ∀ p ∈ im.placements, p.1 + InputImage.accountSpan isLoaderV1 p.2 ≤ im.cursor
  chunks_below : ∀ c ∈ im.chunks, c.1 + c.2.length ≤ im.cursor
  chunks : ∀ p ∈ im.placements, ∀ c ∈ im.chunks,
    c.1 + c.2.length ≤ p.1 ∨ p.1 + InputImage.accountSpan isLoaderV1 p.2 ≤ c.1
  placements : im.placements.Pairwise fun p q =>
    p.1 + InputImage.accountSpan isLoaderV1 p.2 ≤ q.1

theorem InputImage.start_apart (isLoaderV1 : Bool) : InputImage.start.Apart isLoaderV1 where
  cursor := Nat.le_refl _
  above := by simp [InputImage.start]
  below := by simp [InputImage.start]
  chunks_below := by simp [InputImage.start]
  chunks := by simp [InputImage.start]
  placements := List.Pairwise.nil

/-- Whatever is added starts at the cursor, which moves behind it. -/
theorem imageHandler_apart (isLoaderV1 isDirect : Bool) (op : SerializeOp) (im : InputImage)
    (h : im.Apart isLoaderV1) : (imageHandler isLoaderV1 isDirect op im).2.Apart isLoaderV1 := by
  cases op with
  | write bytes =>
      refine ⟨Nat.le_trans h.cursor (Nat.le_add_right _ _), h.above, ?_, ?_, ?_, h.placements⟩
      · intro p hp
        exact Nat.le_trans (h.below p hp) (Nat.le_add_right _ _)
      · intro c hc
        rcases List.mem_append.mp hc with hc | hc
        · exact Nat.le_trans (h.chunks_below c hc) (Nat.le_add_right _ _)
        · rw [List.mem_singleton.mp hc]
          exact Nat.le_refl _
      · intro p hp c hc
        rcases List.mem_append.mp hc with hc | hc
        · exact h.chunks p hp c hc
        · rw [List.mem_singleton.mp hc]
          exact .inr (h.below p hp)
  | writeAccount account =>
      refine ⟨Nat.le_trans h.cursor (Nat.le_add_right _ _), ?_, ?_, ?_, ?_, ?_⟩
      · intro p hp
        rcases List.mem_append.mp hp with hp | hp
        · exact h.above p hp
        · rw [List.mem_singleton.mp hp]
          exact h.cursor
      · intro p hp
        rcases List.mem_append.mp hp with hp | hp
        · exact Nat.le_trans (h.below p hp) (Nat.le_add_right _ _)
        · rw [List.mem_singleton.mp hp]
          exact Nat.le_refl _
      · intro c hc
        exact Nat.le_trans (h.chunks_below c hc) (Nat.le_add_right _ _)
      · intro p hp c hc
        rcases List.mem_append.mp hp with hp | hp
        · exact h.chunks p hp c hc
        · rw [List.mem_singleton.mp hp]
          exact .inl (h.chunks_below c hc)
      · refine List.pairwise_append.mpr ⟨h.placements, List.pairwise_singleton _ _, ?_⟩
        intro p hp q hq
        rw [List.mem_singleton.mp hq]
        exact h.below p hp

/-- Every address below the cursor is one of a chunk or of the address space of an account. -/
def InputImage.Covered (isLoaderV1 : Bool) (im : InputImage) : Prop :=
  ∀ v, mmInputStart.toNat ≤ v → v < im.cursor →
    (∃ c ∈ im.chunks, c.1 ≤ v ∧ v < c.1 + c.2.length) ∨
      ∃ p ∈ im.placements, p.1 ≤ v ∧ v < p.1 + InputImage.accountSpan isLoaderV1 p.2

theorem InputImage.start_covered (isLoaderV1 : Bool) : InputImage.start.Covered isLoaderV1 := by
  intro v hlo hhi
  exact absurd hlo (Nat.not_le.mpr hhi)

theorem imageHandler_covered (isLoaderV1 isDirect : Bool) (op : SerializeOp) (im : InputImage)
    (h : im.Covered isLoaderV1) :
    (imageHandler isLoaderV1 isDirect op im).2.Covered isLoaderV1 := by
  intro v hlo hhi
  rcases Nat.lt_or_ge v im.cursor with hold | hnew
  · -- What the image has shown before is still there.
    rcases h v hlo hold with ⟨c, hc, hbounds⟩ | ⟨p, hp, hbounds⟩
    · cases op with
      | write bytes => exact .inl ⟨c, List.mem_append_left _ hc, hbounds⟩
      | writeAccount account => exact .inl ⟨c, hc, hbounds⟩
    · cases op with
      | write bytes => exact .inr ⟨p, hp, hbounds⟩
      | writeAccount account => exact .inr ⟨p, List.mem_append_left _ hp, hbounds⟩
  · cases op with
    | write bytes =>
        exact .inl ⟨(im.cursor, bytes), List.mem_append_right _ (List.mem_singleton.mpr rfl),
          hnew, hhi⟩
    | writeAccount account =>
        exact .inr ⟨(im.cursor, account), List.mem_append_right _ (List.mem_singleton.mpr rfl),
          hnew, hhi⟩

/-- What is known about the image of the whole input. -/
structure InputOk (isLoaderV1 : Bool) (mode : MappingMode) (entries : List SerializeAccount)
    (instructionData : List UInt8) (metas : List SerializedAccountMetadata)
    (instructionDataOffset : U64) (im : InputImage) : Prop where
  cursor : im.cursor = mmInputStart.toNat +
    parametersSize isLoaderV1 MappingMode.contiguous entries instructionData
  used : im.used = parametersSize isLoaderV1 mode entries instructionData
  pending : 0 < im.pending
  placements : im.placements.map Prod.snd = entries.filterMap SerializeAccount.account?
  below : ∀ p ∈ im.placements, p.1 + p.2.getData.length ≤ im.cursor
  metadata : MetadataOf im entries [] metas
  instructionData : ∃ c, (c, instructionData) ∈ im.chunks ∧
    instructionDataOffset = BitVec.ofNat 64 c

/-- Every metadata describes an account, that of a duplicate the account of an earlier entry. -/
theorem MetadataOf.described {im : InputImage} {entries : List SerializeAccount}
    {metas : List SerializedAccountMetadata} (h : MetadataOf im entries [] metas)
    (hentries : EntriesOk entries) {metadata : SerializedAccountMetadata} (hm : metadata ∈ metas) :
    ∃ account, Describes im account metadata := by
  obtain ⟨i, hi⟩ := List.mem_iff_getElem?.mp hm
  induction i using Nat.strongRecOn with
  | ind i ih =>
      have hlt : i < entries.length := by
        rw [← h.length]
        exact (List.getElem?_eq_some_iff.mp hi).1
      have hentry := List.getElem?_eq_getElem hlt
      cases hcase : entries[i] with
      | account index account =>
          rw [hcase] at hentry
          obtain ⟨metadata', hmetadata, hdescribes⟩ := h.accounts i index account hentry
          rw [hi] at hmetadata
          cases hmetadata
          exact ⟨account, hdescribes⟩
      | duplicate position =>
          rw [hcase] at hentry
          obtain ⟨metadata', hmetadata, hposition⟩ := h.duplicates i position hentry
          rw [hi] at hmetadata
          cases hmetadata
          exact ih position (hentries.duplicates i position hentry) hposition

/-- The data of an account is placed once, where its metadata says. -/
theorem InputOk.placed {isLoaderV1 : Bool} {mode : MappingMode} {entries : List SerializeAccount}
    {instructionData : List UInt8} {metas : List SerializedAccountMetadata} {offset : U64}
    {im : InputImage} (h : InputOk isLoaderV1 mode entries instructionData metas offset im)
    (hentries : EntriesOk entries) (hcursor : im.cursor ≤ u64Max)
    {p : Nat × BorrowedInstructionAccount} (hp : p ∈ im.placements) :
    ∃ (i : Nat) (index : IndexOfAccount) (metadata : SerializedAccountMetadata),
      entries[i]? = some (.account index p.2) ∧ metas[i]? = some metadata ∧
      metadata.vmDataAddr.toNat = p.1 := by
  have hborrowed : p.2 ∈ entries.filterMap SerializeAccount.account? := by
    rw [← h.placements]
    exact List.mem_map_of_mem hp
  obtain ⟨entry, hentry, haccount⟩ := List.mem_filterMap.mp hborrowed
  obtain ⟨i, hi⟩ := List.mem_iff_getElem?.mp hentry
  cases entry with
  | duplicate position => cases haccount
  | account index account =>
      cases haccount
      obtain ⟨metadata, hmetadata, hdescribes⟩ := h.metadata.accounts i index _ hi
      obtain ⟨c, hc, haddr⟩ := hdescribes.data
      refine ⟨i, index, metadata, hi, hmetadata, ?_⟩
      have hdistinct : (im.placements.map fun p => p.2.getIndexInTransaction).Nodup := by
        have hpairs := hentries.distinct
        rw [← h.placements, List.pairwise_map] at hpairs
        exact List.pairwise_map.mpr hpairs
      have hsame : c = p.1 := congrArg Prod.fst (List.inj_on_of_nodup_map hdistinct hc hp rfl)
      have hbelow := h.below p hp
      rw [haddr, hsame, U64.toNat_ofNat (by omega)]

theorem serializeInput_succeeds (isLoaderV1 : Bool) (mode : MappingMode)
    {entries : List SerializeAccount} (hentries : EntriesOk entries)
    (instructionData : List UInt8) (programId : Pubkey) :
    ∃ metas offset im,
      Succeeds (imageHandler isLoaderV1 mode.isDirect)
        (Placeable (entries.filterMap SerializeAccount.account?))
        (serializeInput isLoaderV1 entries instructionData programId) InputImage.start
        (metas, offset) im ∧
      InputOk isLoaderV1 mode entries instructionData metas offset im := by
  rcases @foldlM_serializeAccount_succeeds isLoaderV1 mode
    (entries.filterMap SerializeAccount.account?) entries []
    (InputImage.start.write (leBytes 8 entries.length)) (by simp [InputImage.write])
    (List.Subset.refl _) (by simpa using hentries.duplicates) hentries.distinct
    (by simp [InputImage.write, InputImage.start]) with ⟨metas, im, hrun, hadds, hmetas⟩
  obtain ⟨offset, im', hall, him', hoffset⟩ : ∃ offset im',
      Succeeds (imageHandler isLoaderV1 mode.isDirect)
        (Placeable (entries.filterMap SerializeAccount.account?))
        (serializeInput isLoaderV1 entries instructionData programId) InputImage.start
        (metas, offset) im' ∧
      im' = ((im.write (leBytes 8 instructionData.length)).write instructionData).write
        programId.toList ∧
      offset = BitVec.ofNat 64 (im.write (leBytes 8 instructionData.length)).cursor := by
    refine ⟨_, _, ?_, rfl, rfl⟩
    refine Succeeds.bind (succeeds_write _) ?_
    refine Succeeds.bind hrun ?_
    iterate 3 refine Succeeds.bind (succeeds_write _) ?_
    exact succeeds_pure _ _
  refine ⟨metas, offset, im', hall, ?_⟩
  have hbelow : ∀ p ∈ im'.placements, p.1 + p.2.getData.length ≤ im'.cursor := by
    have hapart := run_invariant (imageHandler_apart isLoaderV1 mode.isDirect)
      (serializeInput isLoaderV1 entries instructionData programId).run InputImage.start
      (InputImage.start_apart isLoaderV1)
    rw [hall.run_eq] at hapart
    intro p hp
    exact Nat.le_trans (Nat.add_le_add_left (Nat.le_add_right _ _) _) (hapart.below p hp)
  subst him' hoffset
  have hcursor := hadds.cursor
  have hused := hadds.used
  rcases hadds.placements with ⟨new, hplacements, hsnd⟩
  constructor
  · simp only [InputImage.write, InputImage.start, length_leBytes, Vector.length_toList] at hcursor ⊢
    rw [parametersSize, foldl_add_eq_sum]
    omega
  · simp only [InputImage.write, InputImage.start, length_leBytes, Vector.length_toList] at hused ⊢
    rw [parametersSize, foldl_add_eq_sum]
    omega
  · simp [InputImage.write]
  · have hstart : (InputImage.start.write (leBytes 8 entries.length)).placements = [] := rfl
    rw [hstart, List.nil_append] at hplacements
    change im.placements.map Prod.snd = _
    rw [hplacements, hsnd]
  · exact hbelow
  · refine ⟨hmetas.length, ?_, hmetas.duplicates⟩
    intro i index account hentry
    rcases hmetas.accounts i index account hentry with ⟨metadata, hmetadata, hdescribes⟩
    refine ⟨metadata, hmetadata, hdescribes.mono (List.Subset.refl _) ?_⟩
    simp [InputImage.write]
  · exact ⟨_, by simp [InputImage.write], rfl⟩

/-! ## From the image to the serializer -/

section Simulation

variable {host : HostStorage} {capacity : Nat} {isLoaderV1 : Bool} {mode : MappingMode}
  {accounts : List BorrowedInstructionAccount}

/-- The simulation relation.  Without regions per account nothing is closed before the end. -/
structure Simulates (host : HostStorage) (capacity : Nat)
    (accounts : List BorrowedInstructionAccount) (isLoaderV1 : Bool) (mode : MappingMode)
    (im : InputImage) (s : Serializer) : Prop where
  represents : s.Represents host capacity isLoaderV1 mode im
  placements : im.placements.map Prod.snd ⊆ accounts
  unsplit : mode.stricterAbiAndRuntimeConstraints = false → s.regionStart = 0

/-- Room for an operation, in the buffer and in the address space. -/
def HasRoom (capacity : Nat) (isLoaderV1 isDirect : Bool) (op : SerializeOp) (im : InputImage) :
    Prop :=
  (imageHandler isLoaderV1 isDirect op im).2.used ≤ capacity ∧
    (imageHandler isLoaderV1 isDirect op im).2.cursor ≤ u64Max - capacity

theorem simulates_step (hsep : host.Separates capacity mode.isDirect accounts) (op : SerializeOp)
    (im : InputImage) (s : Serializer) (hsim : Simulates host capacity accounts isLoaderV1 mode im s)
    (hop : Placeable accounts op im ∧ HasRoom capacity isLoaderV1 mode.isDirect op im) :
    (imageHandler isLoaderV1 mode.isDirect op im).1 = (serializerHandler host op s).1 ∧
      Simulates host capacity accounts isLoaderV1 mode
        (imageHandler isLoaderV1 mode.isDirect op im).2 (serializerHandler host op s).2 := by
  have hfit := hsep.buffer_fits
  rcases hop with ⟨hplaceable, hused, hcursor⟩
  cases op with
  | write bytes =>
      have hused' : im.used + bytes.length ≤ capacity := hused
      have hcursor' : im.cursor + bytes.length ≤ u64Max - capacity := hcursor
      rcases hsim.represents.write bytes hused' (by omega) with ⟨heq, hrep⟩
      have hperform : s.perform host (.write bytes) =
          .ok (BitVec.ofNat 64 im.cursor, s.append bytes) := heq
      simp only [serializerHandler, hperform]
      exact ⟨rfl, hrep, hsim.placements, hsim.unsplit⟩
  | writeAccount account =>
      rcases hplaceable with ⟨hpending, hmem, hnew⟩
      have hcursor' : im.cursor + InputImage.accountSpan isLoaderV1 account ≤ u64Max - capacity :=
        hcursor
      rcases hsim.represents.writeAccount hsim.unsplit hsep hsim.placements hmem hnew hpending hused
        (by omega) with ⟨s', heq, hrep, hunsplit⟩
      have hperform : s.perform host (.writeAccount account) =
          .ok (BitVec.ofNat 64 im.cursor, s') := heq
      simp only [serializerHandler, hperform]
      refine ⟨rfl, hrep, ?_, hunsplit⟩
      intro a ha
      rcases List.mem_map.mp ha with ⟨p, hp, rfl⟩
      rcases List.mem_append.mp hp with hp | hp
      · exact hsim.placements (List.mem_map_of_mem hp)
      · rw [List.mem_singleton.mp hp]
        exact hmem

theorem simulates_start :
    Simulates host capacity accounts isLoaderV1 mode InputImage.start
      (Serializer.new host capacity mmInputStart isLoaderV1 mode) where
  represents :=
    { loader := rfl
      mode_eq := rfl
      buffer_addr := rfl
      buffer_capacity := rfl
      start_le := Nat.le_refl _
      used := rfl
      cursor := rfl
      pending := Nat.le_refl _
      regions :=
        { sorted := List.Pairwise.nil
          below := by simp [Serializer.new]
          first := rfl
          continuous := by simp [Serializer.new]
          fits := by simp [Serializer.new]
          origin := by simp [Serializer.new]
          apart := List.Pairwise.nil
          linear := by simp [Serializer.new] }
      chunks := by simp [InputImage.start]
      placed := by simp [InputImage.start] }
  placements := by simp [InputImage.start]
  unsplit := fun _ => rfl

theorem imageHandler_used_mono (isLoaderV1 isDirect : Bool) (op : SerializeOp) (im : InputImage) :
    im.used ≤ (imageHandler isLoaderV1 isDirect op im).2.used := by
  cases op <;> exact Nat.le_add_right _ _

theorem imageHandler_cursor_mono (isLoaderV1 isDirect : Bool) (op : SerializeOp)
    (im : InputImage) : im.cursor ≤ (imageHandler isLoaderV1 isDirect op im).2.cursor := by
  cases op <;> exact Nat.le_add_right _ _

/-- A program on the image that ends within the buffer and the address space runs the same way on
the serializer. -/
theorem succeeds_serializer {α : Type} {t : SerializeM α} {a : α} {im : InputImage}
    (h : Succeeds (imageHandler isLoaderV1 mode.isDirect) (Placeable accounts) t InputImage.start a
      im) (hsep : host.Separates capacity mode.isDirect accounts) (hused : im.used ≤ capacity)
    (hcursor : im.cursor ≤ u64Max - capacity) :
    ∃ s, t.run.run (serializerHandler host)
        (Serializer.new host capacity mmInputStart isLoaderV1 mode) = (.ok a, s) ∧
      Simulates host capacity accounts isLoaderV1 mode im s := by
  have hfinal : (t.run.run (imageHandler isLoaderV1 mode.isDirect) InputImage.start).2 = im := by
    rw [h.run_eq]
  have halongUsed := along_of_run_le InputImage.used (imageHandler_used_mono isLoaderV1 mode.isDirect)
    (b := capacity) t.run InputImage.start (by rw [hfinal]; exact hused)
  have halongCursor := along_of_run_le InputImage.cursor
    (imageHandler_cursor_mono isLoaderV1 mode.isDirect) (b := u64Max - capacity) t.run
    InputImage.start (by rw [hfinal]; exact hcursor)
  have halong := (along_and _ _).mpr ⟨h.along, (along_and _ _).mpr ⟨halongUsed, halongCursor⟩⟩
  rcases run_simulation (simulates_step hsep) t.run InputImage.start
    (Serializer.new host capacity mmInputStart isLoaderV1 mode) simulates_start halong with
    ⟨hresult, hsim⟩
  rw [h.run_eq] at hresult hsim
  exact ⟨_, Prod.ext hresult.symm rfl, hsim⟩

/-- The finished input shows an image. -/
structure SerializedParameters.Shows (params : SerializedParameters) (host : HostStorage)
    (mode : MappingMode) (im : InputImage) : Prop where
  buffer_addr : params.buffer.hostAddr = host.bufferAddr
  buffer_len : params.buffer.len = im.used
  sorted : params.regions.Pairwise fun r r' =>
    r.vmAddr.toNat < r'.vmAddr.toNat ∧ r.vmAddr.toNat + r.len.toNat ≤ r'.vmAddr.toNat
  first : params.regions.head?.map MemoryRegion.vmAddr = some mmInputStart
  continuous : ∀ r ∈ params.regions, r.vmGapShift = 63
  fits : ∀ r ∈ params.regions, r.HostFits
  apart : params.regions.Pairwise fun r r' => Disjoint r.hostBytes r'.hostBytes
  identity : mode.isDirect = false → ∀ r ∈ params.regions, ∀ v h, r.MapsTo v h →
    ∃ i, i < params.buffer.len ∧ v = mmInputStart.toNat + i ∧ h = host.bufferAddr.toNat + i
  chunks : ∀ c ∈ im.chunks, ∃ pos, params.buffer.Holds pos c.2 ∧
    ∀ k, k < c.2.length →
      ∃ r ∈ params.regions, r.MapsTo (c.1 + k) (host.bufferAddr.toNat + pos + k)
  placed : ∀ p ∈ im.placements, ∃ start,
    (∀ k, k < p.2.getData.length → ∃ r ∈ params.regions, r.MapsTo (p.1 + k) (start + k)) ∧
    if mode.isDirect then start = (host.dataAddr p.2.getIndexInTransaction).toNat
    else ∃ pos, start = host.bufferAddr.toNat + pos ∧ params.buffer.Holds pos p.2.getData

/-- Closing the last region completes the input. -/
theorem Simulates.shows {im : InputImage} {s : Serializer}
    (h : Simulates host capacity accounts isLoaderV1 mode im s)
    (hsep : host.Separates capacity mode.isDirect accounts) (hpending : 0 < im.pending)
    (hused : im.used ≤ capacity) (hcursor : im.cursor ≤ u64Max) {params : SerializedParameters}
    (hbuffer : params.buffer = s.closed.buffer) (hregions : params.regions = s.closed.regions) :
    params.Shows host mode im := by
  have hrep := h.represents.close hsep h.placements hpending hused hcursor
  have hclosed := Serializer.closed_regionStart h.represents.start_le
  have hmapped : ∀ v a, s.closed.Backs v a → ∃ r ∈ params.regions, r.MapsTo v a := by
    rintro v a (⟨r, hr, hmaps⟩ | ⟨hlo, hhi, -⟩)
    · exact ⟨r, by rw [hregions]; exact hr, hmaps⟩
    · change v < _ + (s.buffer.len - s.closed.regionStart) at hhi
      omega
  constructor
  · rw [hbuffer]
    exact hrep.buffer_addr
  · rw [hbuffer]
    exact hrep.used
  · rw [hregions]
    exact hrep.regions.sorted
  · have hfirst := hrep.regions.first
    rw [hregions]
    cases hlist : s.closed.regions with
    | nil => exact absurd hlist (List.append_ne_nil_of_right_ne_nil _ (List.cons_ne_nil _ _))
    | cons r rest => simpa [hlist] using hfirst
  · rw [hregions]
    exact hrep.regions.continuous
  · rw [hregions]
    exact hrep.regions.fits
  · rw [hregions]
    exact hrep.regions.apart
  · intro hmode r hr v a hmaps
    rw [hregions] at hr
    rcases hrep.regions.linear (by rw [hrep.mode_eq]; exact hmode) with ⟨hvaddr, hlinear⟩
    have hhost := hlinear r hr
    have hbelow := hrep.regions.below r hr
    have hfirst : mmInputStart.toNat ≤ r.vmAddr.toNat := by
      have hsorted := hrep.regions.sorted
      have hhead := hrep.regions.first
      cases hlist : s.closed.regions with
      | nil => simp [hlist] at hr
      | cons r₀ rest =>
          rw [hlist] at hsorted hhead hr
          have hr₀ : r₀.vmAddr = mmInputStart := by simpa using hhead
          rcases List.mem_cons.mp hr with rfl | hr
          · rw [hr₀]
          · have := (List.pairwise_cons.mp hsorted).1 r hr
            rw [← hr₀]
            omega
    rcases hmaps with ⟨-, hlo, hhi, rfl⟩
    have hlen : s.closed.regionStart = params.buffer.len := by
      rw [hclosed, hbuffer]
      rfl
    exact ⟨v - mmInputStart.toNat, by omega, by omega, by omega⟩
  · intro c hc
    rcases hrep.chunks c hc with ⟨pos, hwindow, hholds⟩
    exact ⟨pos, by rw [hbuffer]; exact hholds, fun k hk => hmapped _ _ (hwindow k hk)⟩
  · intro p hp
    rcases hrep.placed p hp with ⟨start, hwindow, hdata⟩
    refine ⟨start, fun k hk => hmapped _ _ (hwindow k hk), ?_⟩
    rw [Serializer.DataAt, hrep.mode_eq] at hdata
    rw [hbuffer]
    exact hdata

end Simulation

/-- Serialization succeeds and lays the image out. -/
theorem serializeParametersWith_spec (host : HostStorage) (isLoaderV1 : Bool) (mode : MappingMode)
    {entries : List SerializeAccount} (hentries : EntriesOk entries)
    (instructionData : List UInt8) (programId : Pubkey)
    (hsep : host.Separates (parametersSize isLoaderV1 mode entries instructionData) mode.isDirect
      (entries.filterMap SerializeAccount.account?))
    (hbound : mmInputStart.toNat +
      parametersSize isLoaderV1 MappingMode.contiguous entries instructionData +
        parametersSize isLoaderV1 mode entries instructionData ≤ u64Max) :
    ∃ params im,
      serializeParametersWith host isLoaderV1 mode entries instructionData programId = .ok params ∧
      (serializeInput isLoaderV1 entries instructionData programId).run.run
          (imageHandler isLoaderV1 mode.isDirect) InputImage.start =
        (.ok (params.accountsMetadata, params.instructionDataOffset), im) ∧
      InputOk isLoaderV1 mode entries instructionData params.accountsMetadata
        params.instructionDataOffset im ∧
      params.Shows host mode im := by
  rcases serializeInput_succeeds isLoaderV1 mode hentries instructionData programId with
    ⟨metas, offset, im, hrun, hok⟩
  have hused := hok.used
  have hcursor := hok.cursor
  rcases succeeds_serializer hrun hsep (by omega) (by omega) with ⟨s, hs, hsim⟩
  refine ⟨⟨s.closed.buffer, s.closed.regions, metas, offset⟩, im, ?_, hrun.run_eq, hok,
    hsim.shows hsep hok.pending (by omega) (by omega) rfl rfl⟩
  simp only [serializeParametersWith, hs, Bind.bind, Except.bind,
    Serializer.pushRegion_eq hsim.represents.start_le]
  rfl

/-- The mode decides about buffer bytes only: what is answered and where things are does not depend
on it. -/
theorem image_run_agree {α : Type} (t : EffectTree SerializeOp SerializeRet α) (isLoaderV1 : Bool)
    (d d' : Bool) (im : InputImage) :
    (t.run (imageHandler isLoaderV1 d) im).1 = (t.run (imageHandler isLoaderV1 d') im).1 ∧
      (t.run (imageHandler isLoaderV1 d) im).2.chunks =
        (t.run (imageHandler isLoaderV1 d') im).2.chunks := by
  have halong : Along (imageHandler isLoaderV1 d) (fun _ _ => True) t im := by
    induction t generalizing im with
    | pure a => trivial
    | perform op k ih => exact ⟨trivial, ih _ _⟩
  have h := run_simulation (h := imageHandler isLoaderV1 d) (g := imageHandler isLoaderV1 d')
    (P := fun _ _ => True)
    (R := fun im₁ im₂ => im₁.cursor = im₂.cursor ∧ im₁.chunks = im₂.chunks)
    (by
      rintro op im₁ im₂ ⟨hcursor, hchunks⟩ -
      cases op <;> simp [imageHandler, InputImage.perform, InputImage.write,
        InputImage.writeAccount, hcursor, hchunks])
    t im im ⟨rfl, rfl⟩ halong
  exact ⟨h.1, h.2.2⟩

end ProgramRuntime
end Gobble
