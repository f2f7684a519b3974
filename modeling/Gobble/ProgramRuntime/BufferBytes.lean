import Gobble.Lib.Trace
import Gobble.ProgramRuntime.InstructionInput

/-!
# BufferBytes — the parameter buffer, byte by byte

What the two formats put into the buffer is a function of the entries (`inputBytes`), in each of the
three layouts.  `Appends` says that a part of a format writes given bytes, in every state of the
serializer that has room for them.  Addresses play no role, so nothing is assumed about the host.

The size that is computed in advance is the number of these bytes.
-/

namespace Gobble
namespace ProgramRuntime

open Lib Sbpf Sdk Context EffectTree

/-! ## The bytes -/

/-- What `write_account` puts into the buffer: the data and room for it to grow or, if the data is
mapped where it is, padding. -/
def dataBytes (isLoaderV1 : Bool) (mode : MappingMode) (account : BorrowedInstructionAccount) :
    List UInt8 :=
  if mode.isDirect then
    if isLoaderV1 then [] else List.replicate bpfAlignOfU128 0
  else
    account.getData ++
      if isLoaderV1 then []
      else List.replicate (maxPermittedDataIncrease + alignOffset account.getData.length) 0

def flagByte (value : Bool) : UInt8 := if value then 1 else 0

def entryBytesUnaligned (mode : MappingMode) : SerializeAccount → List UInt8
  | .duplicate position => [UInt8.ofNat position]
  | .account _ account =>
      [nonDupMarker, flagByte account.isSigner, flagByte account.isWritable] ++
        (account.key.toList ++ (leBytes 8 account.getLamports.toNat ++
          (leBytes 8 account.getData.length ++ (dataBytes true mode account ++
            (account.getOwner.toList ++ ([flagByte account.isExecutable] ++ leBytes 8 u64Max))))))

def entryBytesAligned (mode : MappingMode) : SerializeAccount → List UInt8
  | .duplicate position => UInt8.ofNat position :: List.replicate 7 0
  | .account _ account =>
      [nonDupMarker, flagByte account.isSigner, flagByte account.isWritable,
          flagByte account.isExecutable, 0, 0, 0, 0] ++
        (account.key.toList ++ (account.getOwner.toList ++ (leBytes 8 account.getLamports.toNat ++
          (leBytes 8 account.getData.length ++ (dataBytes false mode account ++
            leBytes 8 u64Max)))))

def entryBytes (isLoaderV1 : Bool) (mode : MappingMode) : SerializeAccount → List UInt8 :=
  if isLoaderV1 then entryBytesUnaligned mode else entryBytesAligned mode

def inputBytes (isLoaderV1 : Bool) (mode : MappingMode) (entries : List SerializeAccount)
    (instructionData : List UInt8) (programId : Pubkey) : List UInt8 :=
  leBytes 8 entries.length ++ (entries.flatMap (entryBytes isLoaderV1 mode) ++
    (leBytes 8 instructionData.length ++ (instructionData ++ programId.toList)))

/-- An entry has as many bytes as the size computed for it. -/
theorem length_entryBytes (isLoaderV1 : Bool) (mode : MappingMode) (entry : SerializeAccount) :
    (entryBytes isLoaderV1 mode entry).length = accountSize isLoaderV1 mode entry := by
  cases entry with
  | duplicate position => cases isLoaderV1 <;> rfl
  | account index account =>
      cases isLoaderV1 <;> cases hdirect : mode.isDirect <;>
        simp [entryBytes, entryBytesAligned, entryBytesUnaligned, accountSize, accountSizeAligned,
          accountSizeUnaligned, dataBytes, hdirect] <;> omega

theorem length_inputBytes (isLoaderV1 : Bool) (mode : MappingMode)
    (entries : List SerializeAccount) (instructionData : List UInt8) (programId : Pubkey) :
    (inputBytes isLoaderV1 mode entries instructionData programId).length =
      parametersSize isLoaderV1 mode entries instructionData := by
  have hentries : (entries.flatMap (entryBytes isLoaderV1 mode)).length =
      (entries.map (accountSize isLoaderV1 mode)).sum := by
    rw [List.length_flatMap]
    exact congrArg List.sum (List.map_congr_left fun entry _ =>
      length_entryBytes isLoaderV1 mode entry)
  simp only [inputBytes, List.length_append, length_leBytes, hentries, Vector.length_toList,
    parametersSize, foldl_add_eq_sum]
  omega

/-! ## Writing bytes -/

/-- The state of a serializer between two operations. -/
structure Serializer.Ready (s : Serializer) (isLoaderV1 : Bool) (mode : MappingMode) : Prop where
  loader : s.isLoaderV1 = isLoaderV1
  mode_eq : s.mode = mode
  start_le : s.regionStart ≤ s.buffer.len

/-- A part of a format appends the given bytes to the buffer, if they fit, and returns a value with
the property `Q`. -/
def Appends {α : Type} (host : HostStorage) (isLoaderV1 : Bool) (mode : MappingMode)
    (t : SerializeM α) (bytes : List UInt8) (Q : α → Prop) : Prop :=
  ∀ s : Serializer, s.Ready isLoaderV1 mode → s.buffer.len + bytes.length ≤ s.buffer.capacity →
    ∃ a s', t.run.run (serializerHandler host) s = (.ok a, s') ∧ Q a ∧
      s'.Ready isLoaderV1 mode ∧ s'.buffer = s.buffer.append bytes

theorem AlignedMemory.append_append (m : AlignedMemory) (a b : List UInt8) :
    (m.append a).append b = m.append (a ++ b) := by
  simp [AlignedMemory.append]

section Appends

variable {α β : Type} {host : HostStorage} {isLoaderV1 : Bool} {mode : MappingMode}

theorem appends_pure {a : α} {Q : α → Prop} (ha : Q a) :
    Appends host isLoaderV1 mode (pure a) [] Q := by
  intro s hs _
  refine ⟨a, s, rfl, ha, hs, ?_⟩
  simp [AlignedMemory.append]

theorem Appends.bind {t : SerializeM α} {f : α → SerializeM β} {bytes bytes' : List UInt8}
    {P : α → Prop} {Q : β → Prop} (ht : Appends host isLoaderV1 mode t bytes P)
    (hf : ∀ a, P a → Appends host isLoaderV1 mode (f a) bytes' Q) :
    Appends host isLoaderV1 mode (t >>= f) (bytes ++ bytes') Q := by
  intro s hs hroom
  rw [List.length_append] at hroom
  obtain ⟨a, s₁, hrun, hP, hs₁, hbuffer⟩ := ht s hs (by omega)
  obtain ⟨b, s₂, hrun', hQ, hs₂, hbuffer'⟩ := hf a hP s₁ hs₁ (by
    rw [hbuffer, AlignedMemory.len_append]
    exact (Nat.add_assoc ..).trans_le hroom)
  refine ⟨b, s₂, ?_, hQ, hs₂, ?_⟩
  · have hbind : (t >>= f).run = t.run.bind (fun r => ExceptT.bindCont f r) := rfl
    rw [hbind, run_bind, hrun]
    exact hrun'
  · rw [hbuffer', hbuffer, AlignedMemory.append_append]

theorem Appends.congr {t : SerializeM α} {bytes bytes' : List UInt8} {Q : α → Prop}
    (h : Appends host isLoaderV1 mode t bytes Q) (heq : bytes = bytes') :
    Appends host isLoaderV1 mode t bytes' Q :=
  heq ▸ h

theorem appends_write (bytes : List UInt8) :
    Appends host isLoaderV1 mode (SerializeM.write bytes) bytes fun _ => True := by
  intro s hs hroom
  have hperform : s.perform host (.write bytes) = .ok (s.nextVaddr, s.append bytes) :=
    Serializer.writeAll_eq hroom
  refine ⟨s.nextVaddr, s.append bytes, ?_, trivial, ⟨hs.loader, hs.mode_eq, ?_⟩, rfl⟩
  · change (serializerHandler host (.write bytes) s) = _
    simp only [serializerHandler, hperform]
  · have hle := hs.start_le
    change s.regionStart ≤ (s.buffer.append bytes).len
    rw [AlignedMemory.len_append]
    omega

/-- With regions per account. -/
theorem mapAccount_appends (host : HostStorage) {s : Serializer} (hs : s.Ready isLoaderV1 mode)
    (account : BorrowedInstructionAccount)
    (hstricter : mode.stricterAbiAndRuntimeConstraints = true)
    (hclosed : s.regionStart = s.buffer.len)
    (hroom : s.buffer.len + (dataBytes isLoaderV1 mode account).length ≤ s.buffer.capacity) :
    ∃ s', s.mapAccount host account = .ok s' ∧ s'.Ready isLoaderV1 mode ∧
      s'.buffer = s.buffer.append (dataBytes isLoaderV1 mode account) := by
  have hloader := hs.loader
  have hmode := hs.mode_eq
  rcases Nat.eq_zero_or_pos (s.addressSpaceReservedForAccount account) with hzero | hreserved
  · -- An empty account of the unaligned format has no region and no bytes.
    obtain ⟨hv1, hempty⟩ := Serializer.reserved_eq_zero_iff.mp hzero
    have hnone : dataBytes isLoaderV1 mode account = [] := by
      rw [← hloader, hv1]
      cases hdirect : mode.isDirect <;> simp [dataBytes, hdirect, hempty]
    rw [hnone] at hroom ⊢
    refine ⟨s, Serializer.mapAccount_eq_none hv1 hempty hroom, hs, ?_⟩
    simp [AlignedMemory.append]
  · cases hdirect : mode.accountDataDirectMapping with
    | false =>
        have hflag : mode.isDirect = false := by simp [MappingMode.isDirect, hdirect]
        have hbytes : dataBytes isLoaderV1 mode account =
            (account.getData ++ s.growth 0) ++ s.padding account := by
          rw [dataBytes, hflag, Serializer.growth, Serializer.padding, hloader]
          cases isLoaderV1 <;> simp [← List.replicate_append_replicate]
        have hlen := s.bufferMapped_len account
        rw [hbytes, List.length_append, List.length_append,
          ← Serializer.addressSpaceReservedForAccount_eq, ← Nat.add_assoc] at hroom
        refine ⟨s.bufferMapped account, Serializer.bufferMapped_eq hclosed (by rw [hmode, hdirect])
          hreserved hroom, ⟨hloader, hmode, ?_⟩, ?_⟩
        · change s.regionStart + s.addressSpaceReservedForAccount account ≤ _
          omega
        · rw [hbytes, ← AlignedMemory.append_append]
          rfl
    | true =>
        have hflag : mode.isDirect = true := by simp [MappingMode.isDirect, hstricter, hdirect]
        have hbytes : dataBytes isLoaderV1 mode account = s.directPadding := by
          rw [dataBytes, hflag, Serializer.directPadding, hloader]
          rfl
        have hlen : (s.directMapped host account).buffer.len = _ := s.directMapped_len account
        have hskip := s.directSkip_add_padding account
        rw [hbytes] at hroom
        refine ⟨s.directMapped host account, Serializer.directMapped_eq (by rw [hmode, hdirect])
          hreserved hroom, ⟨hloader, hmode, ?_⟩, ?_⟩
        · change s.regionStart + s.directSkip account ≤ _
          omega
        · rw [hbytes]
          rfl

theorem appends_writeAccount (account : BorrowedInstructionAccount) :
    Appends host isLoaderV1 mode (SerializeM.writeAccount account)
      (dataBytes isLoaderV1 mode account) fun _ => True := by
  intro s hs hroom
  obtain ⟨addr, s', hperform, hs', hbuffer⟩ : ∃ addr s',
      s.writeAccount host account = .ok (addr, s') ∧ s'.Ready isLoaderV1 mode ∧
        s'.buffer = s.buffer.append (dataBytes isLoaderV1 mode account) := by
    cases hstricter : mode.stricterAbiAndRuntimeConstraints with
    | false =>
        have hflag : mode.isDirect = false := by simp [MappingMode.isDirect, hstricter]
        have hbytes : dataBytes isLoaderV1 mode account =
            account.getData ++ s.growth (alignOffset account.getData.length) := by
          rw [dataBytes, hflag, Serializer.growth, hs.loader]
          rfl
        rw [hbytes] at hroom ⊢
        have hdata : s.writeData account (alignOffset account.getData.length) = .ok (s.append
            (account.getData ++ s.growth (alignOffset account.getData.length))) := by
          refine Serializer.writeData_eq ?_
          rwa [← List.length_append]
        refine ⟨U64.saturatingAdd s.vaddr (BitVec.ofNat 64 s.buffer.len), s.append _, ?_,
          ⟨hs.loader, hs.mode_eq, ?_⟩, rfl⟩
        · simp only [Serializer.writeAccount, hs.mode_eq, hstricter, Bool.not_false, if_true, hdata,
            Bind.bind, Except.bind]
          rfl
        · have hle := hs.start_le
          change s.regionStart ≤ (s.buffer.append _).len
          rw [AlignedMemory.len_append]
          omega
    | true =>
        have hclosed := Serializer.closed_regionStart hs.start_le
        have hready : s.closed.Ready isLoaderV1 mode := ⟨hs.loader, hs.mode_eq, hclosed.le⟩
        obtain ⟨s', hmap, hs', hbuffer⟩ :=
          mapAccount_appends host hready account hstricter hclosed hroom
        refine ⟨s.closed.vaddr, s', ?_, hs', hbuffer⟩
        simp only [Serializer.writeAccount, hs.mode_eq, hstricter, Bool.not_true,
          Bool.false_eq_true, if_false, Serializer.pushRegion_eq hs.start_le, Bind.bind,
          Except.bind, hmap]
        rfl
  refine ⟨addr, s', ?_, trivial, hs', hbuffer⟩
  change (serializerHandler host (.writeAccount account) s) = _
  have hop : s.perform host (.writeAccount account) = .ok (addr, s') := hperform
  simp only [serializerHandler, hop]

/-! ## The entries -/

/-- Metadata of the entries: one for each, and that of a duplicate is the one it refers to. -/
structure MetadataFor (entries : List SerializeAccount) (metas : List SerializedAccountMetadata) :
    Prop where
  length : metas.length = entries.length
  accounts : ∀ (i : Nat) index account, entries[i]? = some (.account index account) →
    ∃ metadata, metas[i]? = some metadata ∧
      metadata.originalDataLen = account.getData.length
  duplicates : ∀ i position : Nat, entries[i]? = some (.duplicate position) →
    ∃ metadata, metas[i]? = some metadata ∧ metas[position]? = some metadata

/-- `metadata` is right for an entry behind entries with the metadata `acc`. -/
def MetadataFits (acc : List SerializedAccountMetadata) (metadata : SerializedAccountMetadata) :
    SerializeAccount → Prop
  | .account _ account => metadata.originalDataLen = account.getData.length
  | .duplicate position => acc[position]? = some metadata

theorem MetadataFor.concat {entries : List SerializeAccount} {entry : SerializeAccount}
    {acc : List SerializedAccountMetadata} {metadata : SerializedAccountMetadata}
    (h : MetadataFor entries acc) (hfits : MetadataFits acc metadata entry) :
    MetadataFor (entries ++ [entry]) (acc ++ [metadata]) := by
  have hlast : (acc ++ [metadata])[entries.length]? = some metadata := by
    rw [← h.length]
    exact List.getElem?_concat_length
  have hold : ∀ (i : Nat) m, acc[i]? = some m → (acc ++ [metadata])[i]? = some m := by
    intro i m hm
    rw [List.getElem?_append_left (List.getElem?_eq_some_iff.mp hm).1, hm]
  refine ⟨by simp [h.length], ?_, ?_⟩
  · intro i index account hentry
    rcases getElem?_concat_eq_some_iff.mp hentry with hentry | ⟨rfl, heq⟩
    · obtain ⟨m, hm, hlen⟩ := h.accounts i index account hentry
      exact ⟨m, hold i m hm, hlen⟩
    · subst heq
      exact ⟨metadata, hlast, hfits⟩
  · intro i position hentry
    rcases getElem?_concat_eq_some_iff.mp hentry with hentry | ⟨rfl, heq⟩
    · obtain ⟨m, hm, hposition⟩ := h.duplicates i position hentry
      exact ⟨m, hold i m hm, hold position m hposition⟩
    · subst heq
      exact ⟨metadata, hlast, hold position metadata hfits⟩

theorem appends_unwrap (a : α) :
    Appends host isLoaderV1 mode (SerializeM.unwrap (some a)) [] fun b => b = a :=
  appends_pure rfl

theorem serializeAccount_appends {acc : List SerializedAccountMetadata} {entry : SerializeAccount}
    (hduplicate : ∀ position, entry = .duplicate position → position < acc.length) :
    Appends host isLoaderV1 mode (serializeAccount isLoaderV1 acc entry)
      (entryBytes isLoaderV1 mode entry)
      fun metas => ∃ metadata, metas = acc ++ [metadata] ∧ MetadataFits acc metadata entry := by
  cases entry with
  | account index account =>
      cases isLoaderV1 with
      | true =>
          change Appends host true mode (serializeAccountUnaligned acc (.account index account)) _ _
          apply Appends.congr
          · iterate 6 apply (appends_write _).bind; intro _ _
            apply (appends_writeAccount _).bind; intro _ _
            iterate 3 apply (appends_write _).bind; intro _ _
            exact appends_pure ⟨_, rfl, rfl⟩
          · simp [entryBytes, entryBytesUnaligned, flagByte]
      | false =>
          change Appends host false mode (serializeAccountAligned acc (.account index account)) _ _
          apply Appends.congr
          · iterate 9 apply (appends_write _).bind; intro _ _
            apply (appends_writeAccount _).bind; intro _ _
            apply (appends_write _).bind; intro _ _
            exact appends_pure ⟨_, rfl, rfl⟩
          · simp [entryBytes, entryBytesAligned, flagByte]
  | duplicate position =>
      have hlt := hduplicate position rfl
      have hget := List.getElem?_eq_getElem hlt
      cases isLoaderV1 with
      | true =>
          change Appends host true mode (serializeAccountUnaligned acc (.duplicate position)) _ _
          rw [serializeAccountUnaligned, hget]
          refine (appends_unwrap _).bind fun metadata hmetadata => ?_
          refine (appends_write _).bind fun _ _ => ?_
          exact appends_pure ⟨metadata, rfl, hmetadata ▸ hget⟩
      | false =>
          change Appends host false mode (serializeAccountAligned acc (.duplicate position)) _ _
          rw [serializeAccountAligned, hget]
          refine (appends_unwrap _).bind fun metadata hmetadata => ?_
          refine (appends_write [UInt8.ofNat position]).bind fun _ _ => ?_
          refine (appends_write [0, 0, 0, 0, 0, 0, 0]).bind fun _ _ => ?_
          exact appends_pure ⟨metadata, rfl, hmetadata ▸ hget⟩

/-- The loop over the entries; `front` are the entries that have been serialized already. -/
theorem foldlM_serializeAccount_appends {front rest : List SerializeAccount}
    {acc : List SerializedAccountMetadata} (hacc : MetadataFor front acc)
    (hduplicates : ∀ i position : Nat, (front ++ rest)[i]? = some (.duplicate position) →
      position < i) :
    Appends host isLoaderV1 mode (rest.foldlM (serializeAccount isLoaderV1) acc)
      (rest.flatMap (entryBytes isLoaderV1 mode)) fun metas => MetadataFor (front ++ rest) metas := by
  induction rest generalizing front acc with
  | nil =>
      rw [List.append_nil]
      exact appends_pure hacc
  | cons entry rest ih =>
      have hentry : ∀ position, entry = .duplicate position → position < acc.length := by
        rintro position rfl
        rw [hacc.length]
        exact hduplicates front.length position (by simp)
      rw [List.append_cons] at hduplicates ⊢
      rw [List.foldlM_cons, List.flatMap_cons]
      refine (serializeAccount_appends hentry).bind ?_
      rintro metas ⟨metadata, rfl, hfits⟩
      exact ih (hacc.concat hfits) hduplicates

theorem serializeInput_appends {entries : List SerializeAccount}
    (hduplicates : ∀ i position : Nat, entries[i]? = some (.duplicate position) → position < i)
    (instructionData : List UInt8) (programId : Pubkey) :
    Appends host isLoaderV1 mode (serializeInput isLoaderV1 entries instructionData programId)
      (inputBytes isLoaderV1 mode entries instructionData programId)
      fun r => MetadataFor entries r.1 := by
  have hstart : MetadataFor [] [] := ⟨rfl, by simp, by simp⟩
  refine (appends_write _).bind fun _ _ => ?_
  refine (foldlM_serializeAccount_appends hstart hduplicates).bind fun metas hmetas => ?_
  refine (appends_write _).bind fun _ _ => ?_
  refine (appends_write _).bind fun _ _ => ?_
  refine Appends.congr ((appends_write programId.toList).bind fun _ _ => ?_) (List.append_nil _)
  exact appends_pure hmetas

end Appends

/-! ## The finished buffer -/

/-- Serialization succeeds, and the buffer is full of the bytes of the input. -/
theorem serializeParametersWith_bytes (host : HostStorage) (isLoaderV1 : Bool) (mode : MappingMode)
    {entries : List SerializeAccount}
    (hduplicates : ∀ i position : Nat, entries[i]? = some (.duplicate position) → position < i)
    (instructionData : List UInt8) (programId : Pubkey) :
    ∃ params,
      serializeParametersWith host isLoaderV1 mode entries instructionData programId = .ok params ∧
      params.buffer =
        { hostAddr := host.bufferAddr
          capacity := parametersSize isLoaderV1 mode entries instructionData
          bytes := inputBytes isLoaderV1 mode entries instructionData programId } ∧
      MetadataFor entries params.accountsMetadata := by
  have happends : Appends host isLoaderV1 mode
      (serializeInput isLoaderV1 entries instructionData programId) _ _ :=
    serializeInput_appends hduplicates instructionData programId
  have hroom : 0 + (inputBytes isLoaderV1 mode entries instructionData programId).length ≤
      parametersSize isLoaderV1 mode entries instructionData := by
    rw [length_inputBytes, Nat.zero_add]
  obtain ⟨⟨metas, offset⟩, s, hrun, hmetas, hs, hbuffer⟩ := happends
    (Serializer.new host (parametersSize isLoaderV1 mode entries instructionData) mmInputStart
      isLoaderV1 mode) ⟨rfl, rfl, Nat.le_refl _⟩ hroom
  refine ⟨⟨s.closed.buffer, s.closed.regions, metas, offset⟩, ?_, ?_, hmetas⟩
  · simp only [serializeParametersWith, hrun, Bind.bind, Except.bind,
      Serializer.pushRegion_eq hs.start_le]
    rfl
  · exact hbuffer

/-- The same for an instruction. -/
theorem serializeParameters_bytes {ic : InstructionContext} (h : ic.WellFormed)
    (host : HostStorage) (mode : MappingMode) :
    ∃ params, serializeParameters host ic mode = .ok params ∧
      params.buffer.bytes = inputBytes (isLoaderDeprecated ic) mode (entriesOf ic)
        ic.instructionData (programKeyOf ic) ∧
      MetadataFor (entriesOf ic) params.accountsMetadata := by
  obtain ⟨params, hrun, hbuffer, hmetas⟩ := serializeParametersWith_bytes host
    (isLoaderDeprecated ic) mode (entriesOf_ok h).duplicates ic.instructionData (programKeyOf ic)
  rw [serializeParameters_eq h]
  refine ⟨params, hrun, ?_, hmetas⟩
  rw [hbuffer]

/-- **The buffer is sized exactly.**  A write beyond the capacity or a region that starts behind the
end of the buffer would be a panic, and a `fill_write` without room an error; there is none of them,
and at the end the buffer is full. -/
theorem serializeParametersWith_fills_buffer (host : HostStorage) (isLoaderV1 : Bool)
    (mode : MappingMode) (entries : List SerializeAccount)
    (hduplicates : ∀ i position : Nat, entries[i]? = some (.duplicate position) → position < i)
    (instructionData : List UInt8) (programId : Pubkey) :
    ∃ params,
      serializeParametersWith host isLoaderV1 mode entries instructionData programId = .ok params ∧
      params.buffer.capacity = parametersSize isLoaderV1 mode entries instructionData ∧
      params.buffer.len = parametersSize isLoaderV1 mode entries instructionData := by
  obtain ⟨params, hrun, hbuffer, -⟩ :=
    serializeParametersWith_bytes host isLoaderV1 mode hduplicates instructionData programId
  refine ⟨params, hrun, ?_, ?_⟩
  · rw [hbuffer]
  · rw [hbuffer]
    exact length_inputBytes isLoaderV1 mode entries instructionData programId

/-- The entries of the sample instruction, one of which is a duplicate. -/
theorem sampleInstruction_fills_buffer :
    ∃ params,
      serializeParametersWith sampleHost false ⟨true, true⟩ (entriesOf sampleInstruction) [7]
        (Vector.replicate 32 1) = .ok params ∧
      params.buffer.capacity = 369 ∧ params.buffer.len = 369 := by
  have hsize : parametersSize false ⟨true, true⟩ (entriesOf sampleInstruction) [7] = 369 := by
    decide +kernel
  obtain ⟨params, hrun, hcapacity, hlen⟩ := serializeParametersWith_fills_buffer sampleHost false
    ⟨true, true⟩ (entriesOf sampleInstruction)
    (entriesOf_ok sampleInstruction_wellFormed).duplicates [7] (Vector.replicate 32 1)
  exact ⟨params, hrun, hcapacity.trans hsize, hlen.trans hsize⟩

/-! ## The layout -/

section Layout

variable {ic : InstructionContext}

/-- The input of an instruction if all data is copied: what a program sees in every mode. -/
def contiguousBytes (ic : InstructionContext) : List UInt8 :=
  inputBytes (isLoaderDeprecated ic) .contiguous (entriesOf ic) ic.instructionData (programKeyOf ic)

/-- A host with the buffer at the bottom of its memory. -/
def contiguousHost : HostStorage :=
  { bufferAddr := 0
    dataAddr := fun _ => BitVec.ofNat 64 (2 ^ 63)
    isShared := fun _ => false }

theorem inputSize_le (h : ic.WellFormed)
    (hlen : inputLen (entriesOf ic) ic.instructionData ≤ 2 ^ 62) (mode : MappingMode) :
    inputSize ic mode < 2 ^ 63 := by
  have hcount := h.count
  have hsize := parametersSize_le (isLoaderDeprecated ic) mode (entriesOf ic) ic.instructionData
  have hlength : (entriesOf ic).length = ic.instructionAccounts.length := by simp [entriesOf]
  unfold maxAccountsPerInstruction at hcount
  rw [hlength] at hsize
  rw [inputSize]
  omega

theorem contiguousHost_keeps (h : ic.WellFormed)
    (hlen : inputLen (entriesOf ic) ic.instructionData ≤ 2 ^ 62) :
    contiguousHost.Keeps (inputSize ic .contiguous) MappingMode.contiguous.isDirect
      ic.transactionContext.accounts := by
  have hsize := inputSize_le h hlen .contiguous
  have hbuffer : contiguousHost.bufferAddr.toNat = 0 := rfl
  constructor
  · unfold u64Max
    omega
  · intro hdirect
    cases hdirect
  · intro i entry _
    have hdata : (contiguousHost.dataAddr i).toNat = 2 ^ 63 := rfl
    refine Set.disjoint_left.mpr ?_
    rintro a ⟨-, hhi⟩ ⟨hlo, -⟩
    omega
  · intro hdirect
    cases hdirect

/-- The fields are bytes of the contiguous input. -/
theorem fieldBytes_contiguous (h : ic.WellFormed)
    (hlen : inputLen (entriesOf ic) ic.instructionData ≤ 2 ^ 62) {field : Nat × List UInt8}
    (hfield : field ∈ fieldBytes ic) {k : Nat} {b : UInt8} (hb : field.2[k]? = some b) :
    ∃ p, field.1 + k = mmInputStart.toNat + p ∧ (contiguousBytes ic)[p]? = some b := by
  obtain ⟨params, im, hrun, himage, -, hshows⟩ :=
    serializeParameters_spec h hlen (contiguousHost_keeps h hlen)
  obtain ⟨params', hrun', hbytes, -⟩ := serializeParameters_bytes h contiguousHost .contiguous
  rw [hrun] at hrun'
  cases hrun'
  have hchunks : fieldBytes ic = im.chunks := congrArg (fun r => r.2.chunks) himage
  obtain ⟨hk, -⟩ := List.getElem?_eq_some_iff.mp hb
  obtain ⟨pos, hholds, hmaps⟩ := hshows.chunks field (hchunks ▸ hfield)
  obtain ⟨r, hr, hmap⟩ := hmaps k hk
  -- Nothing is mapped away from its place in the buffer.
  obtain ⟨p, -, hv, ha⟩ := hshows.identity rfl r hr _ _ hmap
  have hp : p = pos + k := by omega
  refine ⟨p, hv, ?_⟩
  rw [contiguousBytes, ← hbytes, hp, hholds.getElem? hk, hb]

/-- Every byte of the contiguous input belongs to a field or to the data of an account, or to the
room behind it. -/
theorem contiguousBytes_covered (h : ic.WellFormed)
    (hlen : inputLen (entriesOf ic) ic.instructionData ≤ 2 ^ 62) {mode : MappingMode}
    {metas : List SerializedAccountMetadata} {offset : U64} {im : InputImage}
    (himage : (serializeInput (isLoaderDeprecated ic) (entriesOf ic) ic.instructionData
        (programKeyOf ic)).run.run (imageHandler (isLoaderDeprecated ic) mode.isDirect)
        InputImage.start = (.ok (metas, offset), im))
    (hok : InputOk (isLoaderDeprecated ic) mode (entriesOf ic) ic.instructionData metas offset im)
    (hfields : fieldBytes ic = im.chunks) {p : Nat} {b : UInt8}
    (hb : (contiguousBytes ic)[p]? = some b) :
    (∃ field ∈ fieldBytes ic, ∃ k, field.1 + k = mmInputStart.toNat + p ∧
        field.2[k]? = some b) ∨
      ∃ (i : Nat) (index : IndexOfAccount) (account : BorrowedInstructionAccount)
        (metadata : SerializedAccountMetadata),
        (entriesOf ic)[i]? = some (.account index account) ∧ metas[i]? = some metadata ∧
          metadata.vmDataAddr.toNat ≤ mmInputStart.toNat + p ∧
          mmInputStart.toNat + p < metadata.vmDataAddr.toNat +
            InputImage.accountSpan (isLoaderDeprecated ic) account := by
  have hcovered := run_invariant (imageHandler_covered (isLoaderDeprecated ic) mode.isDirect)
    (serializeInput (isLoaderDeprecated ic) (entriesOf ic) ic.instructionData
      (programKeyOf ic)).run InputImage.start (InputImage.start_covered _)
  simp only [himage] at hcovered
  obtain ⟨hp, -⟩ := List.getElem?_eq_some_iff.mp hb
  rw [contiguousBytes, length_inputBytes] at hp
  have hcursor := hok.cursor
  rcases hcovered (mmInputStart.toNat + p) (Nat.le_add_right _ _) (by omega) with
    ⟨field, hfield, hlo, hhi⟩ | ⟨placement, hplacement, hbounds⟩
  · obtain ⟨k, hk⟩ := Nat.exists_eq_add_of_le hlo
    have hlt : k < field.2.length := by omega
    rw [← hfields] at hfield
    obtain ⟨p', hp', hb'⟩ :=
      fieldBytes_contiguous h hlen hfield (List.getElem?_eq_getElem hlt)
    have hsame : p' = p := by omega
    rw [hsame, hb] at hb'
    refine .inl ⟨field, hfield, k, hk.symm, ?_⟩
    rw [List.getElem?_eq_getElem hlt, hb']
  · have hsize := inputSize_le h hlen .contiguous
    have hstart : mmInputStart.toNat = 0x400000000 := rfl
    have hmax : im.cursor ≤ u64Max := by
      rw [inputSize] at hsize
      unfold u64Max
      omega
    obtain ⟨i, index, metadata, hentry, hmetadata, haddr⟩ :=
      hok.placed (entriesOf_ok h) hmax hplacement
    rw [← haddr] at hbounds
    exact .inr ⟨i, index, placement.2, metadata, hentry, hmetadata, hbounds⟩

end Layout

/-- **The layout of the input does not depend on the mapping mode.**  In any two modes the metadata
and the offset of the instruction data are the same, and the fields that the format writes are read
at the same addresses.  These are all bytes of the contiguous input except the data of the accounts
and the room behind it; without direct mapping an address is an offset into the buffer. -/
theorem serializeParameters_layout (ic : InstructionContext) (h : ic.WellFormed)
    (hlen : inputLen (entriesOf ic) ic.instructionData ≤ 2 ^ 62) (mode mode' : MappingMode)
    (host host' : HostStorage)
    (hkeeps : host.Keeps (inputSize ic mode) mode.isDirect ic.transactionContext.accounts)
    (hkeeps' : host'.Keeps (inputSize ic mode') mode'.isDirect ic.transactionContext.accounts) :
    ∃ params params',
      serializeParameters host ic mode = .ok params ∧
      serializeParameters host' ic mode' = .ok params' ∧
      params.accountsMetadata.length = ic.instructionAccounts.length ∧
      params.accountsMetadata = params'.accountsMetadata ∧
      params.instructionDataOffset = params'.instructionDataOffset ∧
      (∀ field ∈ fieldBytes ic, ∀ (k : Nat) b, field.2[k]? = some b →
        params.Reads (field.1 + k) b ∧ params'.Reads (field.1 + k) b) ∧
      (∀ p b, (contiguousBytes ic)[p]? = some b →
        (params.Reads (mmInputStart.toNat + p) b ∧ params'.Reads (mmInputStart.toNat + p) b) ∨
        ∃ (i : Nat) (index : IndexOfAccount) (account : BorrowedInstructionAccount)
          (metadata : SerializedAccountMetadata),
          (entriesOf ic)[i]? = some (.account index account) ∧
            params.accountsMetadata[i]? = some metadata ∧
            metadata.vmDataAddr.toNat ≤ mmInputStart.toNat + p ∧
            mmInputStart.toNat + p < metadata.vmDataAddr.toNat +
              InputImage.accountSpan (isLoaderDeprecated ic) account) ∧
      (mode.isDirect = false → ∀ r ∈ params.regions, ∀ v a, r.MapsTo v a →
        ∃ i, i < params.buffer.len ∧ v = mmInputStart.toNat + i ∧
          a = params.buffer.hostAddr.toNat + i) := by
  rcases serializeParameters_spec h hlen hkeeps with ⟨params, im, hrun, himage, hok, hshows⟩
  rcases serializeParameters_spec h hlen hkeeps' with ⟨params', im', hrun', himage', -, hshows'⟩
  -- Both images are images of the same format, which does not know about modes.
  have hagree := image_run_agree (serializeInput (isLoaderDeprecated ic) (entriesOf ic)
    ic.instructionData (programKeyOf ic)).run (isLoaderDeprecated ic) mode.isDirect mode'.isDirect
    InputImage.start
  have hfields := image_run_agree (serializeInput (isLoaderDeprecated ic) (entriesOf ic)
    ic.instructionData (programKeyOf ic)).run (isLoaderDeprecated ic) false mode.isDirect
    InputImage.start
  rw [himage, himage'] at hagree
  rw [himage] at hfields
  rcases hagree with ⟨hresult, hchunks⟩
  simp only [Except.ok.injEq, Prod.mk.injEq] at hresult
  have hfieldBytes : fieldBytes ic = im.chunks := hfields.2
  have hreads : ∀ field ∈ fieldBytes ic, ∀ (k : Nat) b, field.2[k]? = some b →
      params.Reads (field.1 + k) b ∧ params'.Reads (field.1 + k) b := by
    intro field hfield k b hb
    rw [hfieldBytes] at hfield
    refine ⟨hshows.reads hfield hb, hshows'.reads ?_ hb⟩
    rwa [hchunks] at hfield
  refine ⟨params, params', hrun, hrun', ?_, hresult.1, hresult.2, hreads, ?_, ?_⟩
  · rw [hok.metadata.length]
    simp [entriesOf]
  · intro p b hb
    rcases contiguousBytes_covered h hlen himage hok hfieldBytes hb with
      ⟨field, hfield, k, hk, hbyte⟩ | hdata
    · rw [← hk]
      exact .inl (hreads field hfield k b hbyte)
    · exact .inr hdata
  · rw [hshows.buffer_addr]
    exact hshows.identity

/-- The sample instruction without and with direct mapping.  The lamports of its last account stand
behind the data of the sysvar, at another place in the buffer but at the same address. -/
theorem serializeParameters_layout_sample :
    inputLen (entriesOf sampleInstruction) sampleInstruction.instructionData ≤ 2 ^ 62 ∧
      ∃ params params',
        serializeParameters sampleHost sampleInstruction ⟨false, false⟩ = .ok params ∧
        serializeParameters sampleHost sampleInstruction ⟨true, true⟩ = .ok params' ∧
        params.accountsMetadata.length = 4 ∧
        params.accountsMetadata = params'.accountsMetadata ∧
        params.Reads 0x400005120 44 ∧ params'.Reads 0x400005120 44 ∧
        params.Reads 0x400005121 1 ∧ params'.Reads 0x400005121 1 := by
  have hlen : inputLen (entriesOf sampleInstruction) sampleInstruction.instructionData ≤ 2 ^ 62 := by
    decide +kernel
  rcases serializeParameters_layout sampleInstruction sampleInstruction_wellFormed hlen
    ⟨false, false⟩ ⟨true, true⟩ sampleHost sampleHost (sampleHost_keeps _) (sampleHost_keeps _) with
    ⟨params, params', hrun, hrun', hcount, hmetadata, -, hreads, -⟩
  have hfield : (0x400005120, leBytes 8 300) ∈ fieldBytes sampleInstruction := by
    decide +kernel
  obtain ⟨hlow, hlow'⟩ := hreads _ hfield 0 44 (by decide)
  obtain ⟨hhigh, hhigh'⟩ := hreads _ hfield 1 1 (by decide)
  simp only [Nat.add_zero, Nat.reduceAdd] at hlow hlow' hhigh hhigh'
  exact ⟨hlen, params, params', hrun, hrun', hcount, hmetadata, hlow, hlow', hhigh, hhigh'⟩

end ProgramRuntime
end Gobble
