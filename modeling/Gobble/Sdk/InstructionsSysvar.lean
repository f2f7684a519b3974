import Gobble.Lib.Bytes
import Gobble.Sdk.Ids

/-!
# InstructionsSysvar — the byte format of the instructions sysvar

The account data of the instructions sysvar lists the top-level instructions of a transaction:

```text
[0..2]       num_instructions (u16)
[2..2+2*n]   instruction offset table (u16[n])
             serialized instructions
[len-2..len] index of the current instruction (u16)
```

and each instruction is `num_accounts (u16)`, one byte of flags and 32 bytes of key per account, the
32-byte program id, `data_len (u16)` and the data.  `constructInstructionsData` writes the format,
`loadDataStart` is the way a program reads it.
-/

namespace Gobble
namespace Sdk

open Lib

structure BorrowedAccountMeta where
  isSigner : Bool
  isWritable : Bool
  pubkey : Pubkey
  deriving DecidableEq

structure BorrowedInstruction where
  accounts : List BorrowedAccountMeta
  data : List UInt8
  programId : Pubkey
  deriving DecidableEq

/-! ## Writing -/

def BorrowedAccountMeta.flags (m : BorrowedAccountMeta) : UInt8 :=
  (if m.isSigner then 1 else 0) ||| (if m.isWritable then 2 else 0)

def BorrowedAccountMeta.encode (m : BorrowedAccountMeta) : List UInt8 :=
  m.flags :: m.pubkey.toList

namespace BorrowedInstruction

/-- Everything in front of the data. -/
def encodeHeader (ix : BorrowedInstruction) : List UInt8 :=
  leBytes 2 ix.accounts.length ++ ix.accounts.flatMap BorrowedAccountMeta.encode ++
    ix.programId.toList ++ leBytes 2 ix.data.length

def encode (ix : BorrowedInstruction) : List UInt8 :=
  ix.encodeHeader ++ ix.data

end BorrowedInstruction

/-- Where the serialized instruction `i` starts. -/
def instructionOffset (ixs : List BorrowedInstruction) (i : Nat) : Nat :=
  2 + 2 * ixs.length + ((ixs.take i).flatMap BorrowedInstruction.encode).length

/-- The offset table. -/
def encodeTable (ixs : List BorrowedInstruction) : List UInt8 :=
  (List.range ixs.length).flatMap fun i => leBytes 2 (instructionOffset ixs i)

/-- The account data, with the current index still zero. -/
def constructInstructionsData (ixs : List BorrowedInstruction) : List UInt8 :=
  leBytes 2 ixs.length ++ encodeTable ixs ++ ixs.flatMap BorrowedInstruction.encode ++ leBytes 2 0

/-- Where the data of instruction `i` starts. -/
def dataOffset (ixs : List BorrowedInstruction) (i : Nat) : Nat :=
  instructionOffset ixs i + ((ixs[i]?.map fun ix => ix.encodeHeader.length).getD 0)

/-! ## Reading -/

/-- The steps of a program that looks for the data of instruction `index`: entry `index` of the
offset table, the number of accounts, 33 bytes per account, the program id, the data length.
Returns the position of the data and its length. -/
def loadDataStart (data : List UInt8) (index : Nat) : Option (Nat × Nat) := do
  let numInstructions ← readLe 2 data 0
  if index ≥ numInstructions then none
  let start ← readLe 2 data (2 + index * 2)
  let numAccounts ← readLe 2 data start
  let current := start + 2 + numAccounts * 33 + 32
  let dataLen ← readLe 2 data current
  some (current + 2, dataLen)

/-- Load the current instruction's index from the sysvar data. -/
def loadCurrentIndex (data : List UInt8) : Option Nat :=
  readLe 2 data (data.length - 2)

/-- Store the current instruction's index in the sysvar data. -/
def storeCurrentIndex (data : List UInt8) (index : Nat) : List UInt8 :=
  data.take (data.length - 2) ++ leBytes 2 index

/-- `store_current_index_checked`: nothing is stored in data that is too short. -/
def storeCurrentIndexChecked (data : List UInt8) (index : Nat) : Option (List UInt8) :=
  if data.length < 2 then none else some (storeCurrentIndex data index)

/-- A stored index is the one that is loaded. -/
theorem loadCurrentIndex_storeCurrentIndexChecked {data data' : List UInt8} {index : Nat}
    (hindex : index < 2 ^ 16) (h : storeCurrentIndexChecked data index = some data') :
    loadCurrentIndex data' = some index := by
  unfold storeCurrentIndexChecked at h
  split at h
  · cases h
  · cases h
    have hfront : (data.take (data.length - 2)).length = data.length - 2 := by simp
    have hread : readLe 2 (data.take (data.length - 2) ++ leBytes 2 index ++ [])
        (data.length - 2) = some index := readLe_append hfront.symm hindex
    simpa [loadCurrentIndex, storeCurrentIndex] using hread

/-! ## Positions -/

theorem length_encode_accounts (accounts : List BorrowedAccountMeta) :
    (accounts.flatMap BorrowedAccountMeta.encode).length = accounts.length * 33 := by
  induction accounts with
  | nil => rfl
  | cons m rest ih =>
      simp only [List.flatMap_cons, List.length_append, ih, List.length_cons,
        BorrowedAccountMeta.encode, Vector.length_toList]
      omega

theorem length_encodeHeader (ix : BorrowedInstruction) :
    ix.encodeHeader.length = 2 + ix.accounts.length * 33 + 32 + 2 := by
  simp only [BorrowedInstruction.encodeHeader, List.length_append, length_leBytes,
    length_encode_accounts, Vector.length_toList]

theorem length_encode (ix : BorrowedInstruction) :
    ix.encode.length = 2 + ix.accounts.length * 33 + 32 + 2 + ix.data.length := by
  simp only [BorrowedInstruction.encode, List.length_append, length_encodeHeader]

theorem length_encodeTable (ixs : List BorrowedInstruction) :
    (encodeTable ixs).length = 2 * ixs.length := by
  have hflat : ∀ xs : List Nat,
      (xs.flatMap fun i => leBytes 2 (instructionOffset ixs i)).length = 2 * xs.length := by
    intro xs
    induction xs with
    | nil => rfl
    | cons x rest ih =>
        simp only [List.flatMap_cons, List.length_append, length_leBytes, ih, List.length_cons]
        omega
  simpa [encodeTable] using hflat (List.range ixs.length)

/-- The size of the sysvar, from bounds on the sizes of the instructions. -/
theorem length_constructInstructionsData_le {ixs : List BorrowedInstruction} {numAccounts dataLen : Nat}
    (h : ∀ ix ∈ ixs, ix.accounts.length ≤ numAccounts ∧ ix.data.length ≤ dataLen) :
    (constructInstructionsData ixs).length ≤
      4 + ixs.length * (38 + 33 * numAccounts + dataLen) := by
  have hflat : (ixs.flatMap BorrowedInstruction.encode).length ≤
      ixs.length * (36 + 33 * numAccounts + dataLen) := by
    induction ixs with
    | nil => simp
    | cons ix rest ih =>
        have hix := h ix List.mem_cons_self
        have hrest := ih fun ix' hix' => h ix' (List.mem_cons_of_mem _ hix')
        rw [List.flatMap_cons, List.length_append, length_encode, List.length_cons, Nat.succ_mul]
        omega
  have hsplit : ixs.length * (38 + 33 * numAccounts + dataLen) =
      2 * ixs.length + ixs.length * (36 + 33 * numAccounts + dataLen) := by
    rw [show 38 + 33 * numAccounts + dataLen = 2 + (36 + 33 * numAccounts + dataLen) by omega,
      Nat.mul_add, Nat.mul_comm ixs.length 2]
  simp only [constructInstructionsData, List.length_append, length_leBytes, length_encodeTable]
  omega

section Target

variable {ixs : List BorrowedInstruction} {t : Nat} {ix : BorrowedInstruction}

/-- The bytes in front of a serialized instruction. -/
def bytesBefore (ixs : List BorrowedInstruction) (t : Nat) : List UInt8 :=
  leBytes 2 ixs.length ++ encodeTable ixs ++ (ixs.take t).flatMap BorrowedInstruction.encode

/-- The bytes behind a serialized instruction. -/
def bytesAfter (ixs : List BorrowedInstruction) (t : Nat) : List UInt8 :=
  (ixs.drop (t + 1)).flatMap BorrowedInstruction.encode ++ leBytes 2 0

theorem length_bytesBefore (ixs : List BorrowedInstruction) (t : Nat) :
    (bytesBefore ixs t).length = instructionOffset ixs t := by
  simp only [bytesBefore, instructionOffset, List.length_append, length_leBytes,
    length_encodeTable]

/-- The sysvar data, cut at one instruction. -/
theorem constructInstructionsData_split (hix : ixs[t]? = some ix) :
    constructInstructionsData ixs =
      bytesBefore ixs t ++ (ix.encodeHeader ++ ix.data) ++ bytesAfter ixs t := by
  obtain ⟨ht, hget⟩ := List.getElem?_eq_some_iff.mp hix
  have hsplit : ixs = ixs.take t ++ ix :: ixs.drop (t + 1) := by
    rw [← hget, List.getElem_cons_drop, List.take_append_drop]
  have hflat : ixs.flatMap BorrowedInstruction.encode =
      (ixs.take t).flatMap BorrowedInstruction.encode ++ (ix.encode ++
        (ixs.drop (t + 1)).flatMap BorrowedInstruction.encode) := by
    conv_lhs => rw [hsplit]
    rw [List.flatMap_append, List.flatMap_cons]
  simp only [constructInstructionsData, bytesBefore, bytesAfter, hflat,
    BorrowedInstruction.encode, List.append_assoc]

theorem dataOffset_eq (hix : ixs[t]? = some ix) :
    dataOffset ixs t = (bytesBefore ixs t).length + ix.encodeHeader.length := by
  simp [dataOffset, hix, length_bytesBefore]

theorem dataOffset_add_length_le (hix : ixs[t]? = some ix) :
    dataOffset ixs t + ix.data.length ≤ (constructInstructionsData ixs).length := by
  rw [constructInstructionsData_split hix, dataOffset_eq hix]
  simp only [List.length_append]
  omega

/-- The data of an instruction stands at `dataOffset`. -/
theorem slice_data (hix : ixs[t]? = some ix) {a b : Nat} (hb : b ≤ ix.data.length) :
    slice (constructInstructionsData ixs) (dataOffset ixs t + a) (dataOffset ixs t + b) =
      slice ix.data a b := by
  have hfront : (bytesBefore ixs t ++ ix.encodeHeader).length = dataOffset ixs t := by
    rw [List.length_append, dataOffset_eq hix]
  have hdata : constructInstructionsData ixs =
      (bytesBefore ixs t ++ ix.encodeHeader) ++ ix.data ++ bytesAfter ixs t := by
    rw [constructInstructionsData_split hix]
    simp only [List.append_assoc]
  rw [hdata, ← hfront]
  exact slice_append _ _ _ hb

/-- Entry `t` of the offset table, read back. -/
theorem readLe_table (hsize : (constructInstructionsData ixs).length < 2 ^ 16)
    (ht : t < ixs.length) :
    readLe 2 (constructInstructionsData ixs) (2 + t * 2) = some (instructionOffset ixs t) := by
  obtain ⟨ix, hix⟩ : ∃ ix, ixs[t]? = some ix := ⟨ixs[t], List.getElem?_eq_getElem ht⟩
  have hoffset : instructionOffset ixs t < 2 ^ 16 := by
    have h := dataOffset_add_length_le hix
    rw [dataOffset_eq hix, length_bytesBefore] at h
    omega
  -- Cut the table at entry `t`.
  have hrange : List.range ixs.length =
      List.range t ++ t :: (List.range' (t + 1) (ixs.length - (t + 1))) := by
    have hlen : ixs.length = t + (1 + (ixs.length - (t + 1))) := by omega
    conv_lhs => rw [hlen, List.range_eq_range', ← List.range'_append_1]
    simp [List.range_eq_range', List.range'_succ, Nat.add_comm 1]
  have hentries : ((List.range t).flatMap fun i => leBytes 2 (instructionOffset ixs i)).length =
      t * 2 := by
    simp [List.length_flatMap, List.map_const']
  have htable : encodeTable ixs =
      ((List.range t).flatMap fun i => leBytes 2 (instructionOffset ixs i)) ++
        (leBytes 2 (instructionOffset ixs t) ++
          (List.range' (t + 1) (ixs.length - (t + 1))).flatMap fun i =>
            leBytes 2 (instructionOffset ixs i)) := by
    rw [encodeTable, hrange, List.flatMap_append, List.flatMap_cons]
  have hdata : constructInstructionsData ixs =
      (leBytes 2 ixs.length ++
        (List.range t).flatMap fun i => leBytes 2 (instructionOffset ixs i)) ++
          leBytes 2 (instructionOffset ixs t) ++
            (((List.range' (t + 1) (ixs.length - (t + 1))).flatMap fun i =>
              leBytes 2 (instructionOffset ixs i)) ++
                (ixs.flatMap BorrowedInstruction.encode ++ leBytes 2 0)) := by
    rw [constructInstructionsData, htable]
    simp only [List.append_assoc]
  rw [hdata]
  refine readLe_append ?_ (by simpa using hoffset)
  rw [List.length_append, length_leBytes, hentries]

/-- A program that decodes the sysvar finds the data where it was written. -/
theorem loadDataStart_constructInstructionsData
    (hsize : (constructInstructionsData ixs).length < 2 ^ 16) (hix : ixs[t]? = some ix) :
    loadDataStart (constructInstructionsData ixs) t =
      some (dataOffset ixs t, ix.data.length) := by
  obtain ⟨ht, -⟩ := List.getElem?_eq_some_iff.mp hix
  have hsplit := constructInstructionsData_split hix
  have htotal : (constructInstructionsData ixs).length =
      instructionOffset ixs t + (2 + ix.accounts.length * 33 + 32 + 2) + ix.data.length +
        (bytesAfter ixs t).length := by
    rw [hsplit]
    simp only [List.length_append, length_bytesBefore, length_encodeHeader]
    omega
  have hcount : ixs.length < 2 ^ 16 := by
    unfold instructionOffset at htotal
    omega
  have hread₀ : readLe 2 (constructInstructionsData ixs) 0 = some ixs.length := by
    rw [constructInstructionsData, List.append_assoc, List.append_assoc]
    have h := @readLe_append 2 ixs.length 0 [] (encodeTable ixs ++
      (ixs.flatMap BorrowedInstruction.encode ++ leBytes 2 0)) rfl (by simpa using hcount)
    simpa using h
  have hread₁ : readLe 2 (constructInstructionsData ixs) (instructionOffset ixs t) =
      some ix.accounts.length := by
    rw [hsplit, BorrowedInstruction.encodeHeader]
    have h := @readLe_append 2 ix.accounts.length (instructionOffset ixs t) (bytesBefore ixs t)
      (ix.accounts.flatMap BorrowedAccountMeta.encode ++ (ix.programId.toList ++
        (leBytes 2 ix.data.length ++ (ix.data ++ bytesAfter ixs t))))
      (length_bytesBefore ixs t).symm (by simp only [Nat.reducePow]; omega)
    simpa only [List.append_assoc] using h
  have hread₂ : readLe 2 (constructInstructionsData ixs)
      (instructionOffset ixs t + 2 + ix.accounts.length * 33 + 32) = some ix.data.length := by
    rw [hsplit, BorrowedInstruction.encodeHeader]
    have h := @readLe_append 2 ix.data.length
      (instructionOffset ixs t + 2 + ix.accounts.length * 33 + 32)
      (bytesBefore ixs t ++ leBytes 2 ix.accounts.length ++
        ix.accounts.flatMap BorrowedAccountMeta.encode ++ ix.programId.toList)
      (ix.data ++ bytesAfter ixs t)
      (by simp only [List.length_append, length_bytesBefore, length_leBytes,
        length_encode_accounts, Vector.length_toList])
      (by simp only [Nat.reducePow]; omega)
    simpa only [List.append_assoc] using h
  have hstart : dataOffset ixs t =
      instructionOffset ixs t + 2 + ix.accounts.length * 33 + 32 + 2 := by
    rw [dataOffset_eq hix, length_bytesBefore, length_encodeHeader]
    omega
  have hindex : ¬ t ≥ ixs.length := by omega
  simp only [loadDataStart, hread₀, Option.bind_eq_bind, Option.bind_some, hindex, if_false,
    readLe_table hsize ht, hread₁, hread₂, hstart]

end Target

end Sdk
end Gobble
