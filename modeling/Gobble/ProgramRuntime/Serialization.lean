import Gobble.Context.Transaction
import Gobble.Lib.EffectTree
import Gobble.Sbpf.MemoryRegion

/-!
# Serialization — the input region of a program

Model of the serializing half of `program-runtime/src/serialization.rs`.  Two formats (aligned, and
unaligned for programs of the deprecated loader) are written through one `Serializer`, which lays
the bytes out in one of three ways depending on two feature flags: in one region, in one region per
account over one buffer, or in regions over the accounts' own memory.

A format is a program over the two operations of the serializer, so that what a format writes and
how the bytes are laid out are separate questions.
-/

namespace Gobble
namespace ProgramRuntime

open Lib Sbpf Sdk Context

def bpfAlignOfU128 : Nat := 8
def maxPermittedDataIncrease : Nat := 10 * 1024
/-- Value used to indicate that a serialized account is not a duplicate. -/
def nonDupMarker : UInt8 := 255

/-- Bytes from an address up to the next multiple of `bpfAlignOfU128`. -/
def alignOffset (address : Nat) : Nat :=
  (bpfAlignOfU128 - address % bpfAlignOfU128) % bpfAlignOfU128

/-- Where the host keeps what is mapped: the parameter buffer, and the data of each account of the
transaction, which is *shared* if it must be copied before it is written. -/
structure HostStorage where
  bufferAddr : U64
  dataAddr : IndexOfAccount → U64
  isShared : IndexOfAccount → Bool

/-- The two feature flags that choose the mapping. -/
structure MappingMode where
  stricterAbiAndRuntimeConstraints : Bool
  accountDataDirectMapping : Bool
  deriving DecidableEq, Repr

/-- Account data is mapped in place of being copied into the buffer. -/
def MappingMode.isDirect (mode : MappingMode) : Bool :=
  mode.stricterAbiAndRuntimeConstraints && mode.accountDataDirectMapping

structure SerializedAccountMetadata where
  originalDataLen : Nat
  vmDataAddr : U64
  vmKeyAddr : U64
  vmLamportsAddr : U64
  vmOwnerAddr : U64
  deriving DecidableEq, Repr

/-! ## The buffer -/

/-- Preallocated memory of `capacity` bytes, of which `bytes` have been written. -/
structure AlignedMemory where
  hostAddr : U64
  capacity : Nat
  bytes : List UInt8

namespace AlignedMemory

def withCapacity (hostAddr : U64) (capacity : Nat) : AlignedMemory :=
  { hostAddr, capacity, bytes := [] }

def len (m : AlignedMemory) : Nat := m.bytes.length

def append (m : AlignedMemory) (value : List UInt8) : AlignedMemory :=
  { m with bytes := m.bytes ++ value }

/-- Writes that must not exceed the capacity; the debug assertion is modelled as a panic. -/
def writeAllUnchecked (m : AlignedMemory) (value : List UInt8) :
    Outcome InstructionError AlignedMemory :=
  if m.len + value.length ≤ m.capacity then .ok (m.append value) else .panic

def fillWrite (m : AlignedMemory) (num : Nat) (value : UInt8) : Option AlignedMemory :=
  if m.len + num ≤ m.capacity then some (m.append (List.replicate num value)) else none

end AlignedMemory

/-! ## The regions of an account -/

def modifyMemoryRegionOfAccount (account : BorrowedInstructionAccount) (region : MemoryRegion) :
    MemoryRegion :=
  match account.canDataBeChanged with
  | .ok _ =>
      { region with
        len := BitVec.ofNat 64 account.getData.length
        writable := true
        accessViolationHandlerPayload := some (UInt16.ofNat account.getIndexInTransaction) }
  | .error _ =>
      { region with
        len := BitVec.ofNat 64 account.getData.length
        writable := false
        accessViolationHandlerPayload := none }

def createMemoryRegionOfAccount (host : HostStorage) (account : BorrowedInstructionAccount)
    (vaddr : U64) : MemoryRegion :=
  let index := account.getIndexInTransaction
  let hostAddr := host.dataAddr index
  let len := BitVec.ofNat 64 account.getData.length
  match account.canDataBeChanged with
  | .ok _ =>
      let region :=
        if host.isShared index then MemoryRegion.newReadonly hostAddr len vaddr
        else MemoryRegion.newWritable hostAddr len vaddr
      { region with accessViolationHandlerPayload := some (UInt16.ofNat index) }
  | .error _ => MemoryRegion.newReadonly hostAddr len vaddr

/-! ## The serializer -/

structure Serializer where
  buffer : AlignedMemory
  regions : List MemoryRegion
  vaddr : U64
  regionStart : Nat
  isLoaderV1 : Bool
  mode : MappingMode

namespace Serializer

def new (host : HostStorage) (size : Nat) (startAddr : U64) (isLoaderV1 : Bool)
    (mode : MappingMode) : Serializer :=
  { buffer := .withCapacity host.bufferAddr size
    regions := []
    vaddr := startAddr
    regionStart := 0
    isLoaderV1
    mode }

/-- The VM address of the next byte that is written. -/
def nextVaddr (s : Serializer) : U64 :=
  U64.saturatingSub (U64.saturatingAdd s.vaddr (BitVec.ofNat 64 s.buffer.len))
    (BitVec.ofNat 64 s.regionStart)

def fillWrite (s : Serializer) (num : Nat) (value : UInt8) : Outcome InstructionError Serializer :=
  match s.buffer.fillWrite num value with
  | some buffer => .ok { s with buffer }
  | none => .err .invalidArgument

/-- `write_all`, and `write` for the little-endian bytes of a scalar. -/
def writeAll (s : Serializer) (value : List UInt8) : Outcome InstructionError (U64 × Serializer) := do
  let vaddr := s.nextVaddr
  let buffer ← s.buffer.writeAllUnchecked value
  return (vaddr, { s with buffer })

/-- Close the region of the bytes written since the last one was closed. -/
def pushRegion (s : Serializer) : Outcome InstructionError Serializer :=
  if s.regionStart ≤ s.buffer.len then
    let len := BitVec.ofNat 64 (s.buffer.len - s.regionStart)
    let region :=
      MemoryRegion.newWritable (s.buffer.hostAddr + BitVec.ofNat 64 s.regionStart) len s.vaddr
    .ok
      { s with
        regions := s.regions ++ [region]
        regionStart := s.buffer.len
        vaddr := s.vaddr + len }
  else
    .panic

/-- `modify_memory_region_of_account` on the last region. -/
def modifyLastRegion (s : Serializer) (account : BorrowedInstructionAccount) :
    Outcome InstructionError Serializer := do
  let region ← Outcome.unwrap s.regions.getLast?
  return { s with
    regions := s.regions.dropLast ++ [modifyMemoryRegionOfAccount account region] }

/-- The data of an account in the buffer, followed by room for the data to grow. -/
def writeData (s : Serializer) (account : BorrowedInstructionAccount) (padding : Nat) :
    Outcome InstructionError Serializer := do
  let (_, s) ← s.writeAll account.getData
  -- Programs of the deprecated loader cannot make accounts grow.
  if !s.isLoaderV1 then s.fillWrite (maxPermittedDataIncrease + padding) 0 else return s

def addressSpaceReservedForAccount (s : Serializer) (account : BorrowedInstructionAccount) : Nat :=
  if !s.isLoaderV1 then account.getData.length + maxPermittedDataIncrease
  else account.getData.length

/-- Give the account its own region. -/
def pushAccountRegion (host : HostStorage) (s : Serializer)
    (account : BorrowedInstructionAccount) : Outcome InstructionError Serializer := do
  let reserved := s.addressSpaceReservedForAccount account
  if reserved > 0 then
    if !s.mode.accountDataDirectMapping then
      -- The data has just been written to the buffer, and is closed into a region of its own.
      let s ← s.pushRegion
      s.modifyLastRegion account
    else
      -- The region is over the account itself, and the address space is left free for it to grow.
      let newRegion := createMemoryRegionOfAccount host account s.vaddr
      return { s with
        vaddr := s.vaddr + BitVec.ofNat 64 reserved
        regions := s.regions ++ [newRegion] }
  else
    return s

/-- Align what follows the account.  With direct mapping a whole `bpfAlignOfU128` of padding is
written and the start of the next region shifted, so that aligned VM addresses have aligned host
addresses. -/
def writePadding (s : Serializer) (account : BorrowedInstructionAccount) :
    Outcome InstructionError Serializer := do
  if !s.isLoaderV1 then
    let alignOffset := alignOffset account.getData.length
    if !s.mode.accountDataDirectMapping then
      s.fillWrite alignOffset 0
    else
      let s ← s.fillWrite bpfAlignOfU128 0
      return { s with regionStart := s.regionStart + (bpfAlignOfU128 - alignOffset) }
  else
    return s

/-- Everything `write_account` does between closing a region and returning, with regions per
account. -/
def mapAccount (host : HostStorage) (s : Serializer) (account : BorrowedInstructionAccount) :
    Outcome InstructionError Serializer := do
  let s ← if !s.mode.accountDataDirectMapping then s.writeData account 0 else pure s
  let s ← pushAccountRegion host s account
  s.writePadding account

def writeAccount (host : HostStorage) (s : Serializer) (account : BorrowedInstructionAccount) :
    Outcome InstructionError (U64 × Serializer) := do
  if !s.mode.stricterAbiAndRuntimeConstraints then
    -- All bytes are in one region, which is closed at the end.
    let vmDataAddr := U64.saturatingAdd s.vaddr (BitVec.ofNat 64 s.buffer.len)
    let s ← s.writeData account (alignOffset account.getData.length)
    return (vmDataAddr, s)
  else
    -- What was written since the last account gets a region first.
    let s ← s.pushRegion
    let vmDataAddr := s.vaddr
    let s ← s.mapAccount host account
    return (vmDataAddr, s)

end Serializer

/-! ## The formats -/

inductive SerializeOp where
  | write (bytes : List UInt8)
  | writeAccount (account : BorrowedInstructionAccount)

/-- Every operation is answered with a VM address. -/
abbrev SerializeRet (_ : SerializeOp) : Type := Outcome InstructionError U64

def Serializer.perform (host : HostStorage) (s : Serializer) :
    SerializeOp → Outcome InstructionError (U64 × Serializer)
  | .write bytes => s.writeAll bytes
  | .writeAccount account => s.writeAccount host account

def serializerHandler (host : HostStorage) : EffectTree.Handler SerializeOp SerializeRet Serializer :=
  fun op s =>
    match s.perform host op with
    | .ok (vaddr, s') => (.ok vaddr, s')
    | .error fault => (.error fault, s)

abbrev SerializeM := ExceptT (Fault InstructionError) (EffectTree SerializeOp SerializeRet)

namespace SerializeM

/-- Perform an operation and propagate its error. -/
def call (op : SerializeOp) : SerializeM U64 :=
  ExceptT.mk (EffectTree.call op)

def write (bytes : List UInt8) : SerializeM U64 := call (.write bytes)

def writeU8 (value : UInt8) : SerializeM U64 := write [value]

def writeU64 (value : Nat) : SerializeM U64 := write (leBytes 8 value)

def writeBool (value : Bool) : SerializeM U64 := writeU8 (if value then 1 else 0)

def writeAccount (account : BorrowedInstructionAccount) : SerializeM U64 :=
  call (.writeAccount account)

/-- `Option::unwrap`. -/
def unwrap {α : Type} : Option α → SerializeM α
  | some a => pure a
  | none => throw .panic

end SerializeM

inductive SerializeAccount where
  | account (index : IndexOfAccount) (account : BorrowedInstructionAccount)
  | duplicate (position : IndexOfAccount)

open SerializeM

def serializeAccountUnaligned (accountsMetadata : List SerializedAccountMetadata) :
    SerializeAccount → SerializeM (List SerializedAccountMetadata)
  | .duplicate position => do
      let metadata ← SerializeM.unwrap accountsMetadata[position]?
      let _ ← writeU8 (UInt8.ofNat position)
      return accountsMetadata ++ [metadata]
  | .account _ account => do
      let _ ← writeU8 nonDupMarker
      let _ ← writeBool account.isSigner
      let _ ← writeBool account.isWritable
      let vmKeyAddr ← write account.key.toList
      let vmLamportsAddr ← writeU64 account.getLamports.toNat
      let _ ← writeU64 account.getData.length
      let vmDataAddr ← SerializeM.writeAccount account
      let vmOwnerAddr ← write account.getOwner.toList
      let _ ← writeBool account.isExecutable
      let _ ← writeU64 u64Max
      return accountsMetadata ++
        [{ originalDataLen := account.getData.length
           vmDataAddr
           vmKeyAddr
           vmLamportsAddr
           vmOwnerAddr }]

def serializeAccountAligned (accountsMetadata : List SerializedAccountMetadata) :
    SerializeAccount → SerializeM (List SerializedAccountMetadata)
  | .account _ account => do
      let _ ← writeU8 nonDupMarker
      let _ ← writeBool account.isSigner
      let _ ← writeBool account.isWritable
      let _ ← writeBool account.isExecutable
      let _ ← write [0, 0, 0, 0]
      let vmKeyAddr ← write account.key.toList
      let vmOwnerAddr ← write account.getOwner.toList
      let vmLamportsAddr ← writeU64 account.getLamports.toNat
      let _ ← writeU64 account.getData.length
      let vmDataAddr ← SerializeM.writeAccount account
      let _ ← writeU64 u64Max
      return accountsMetadata ++
        [{ originalDataLen := account.getData.length
           vmDataAddr
           vmKeyAddr
           vmLamportsAddr
           vmOwnerAddr }]
  | .duplicate position => do
      let metadata ← SerializeM.unwrap accountsMetadata[position]?
      let _ ← writeU8 (UInt8.ofNat position)
      let _ ← write [0, 0, 0, 0, 0, 0, 0]
      return accountsMetadata ++ [metadata]

def serializeAccount (isLoaderV1 : Bool) :
    List SerializedAccountMetadata → SerializeAccount →
      SerializeM (List SerializedAccountMetadata) :=
  if isLoaderV1 then serializeAccountUnaligned else serializeAccountAligned

/-- Everything that is written, in either format: the accounts, the instruction data and the program
id.  Returns the accounts' metadata and the address of the instruction data. -/
def serializeInput (isLoaderV1 : Bool) (accounts : List SerializeAccount)
    (instructionData : List UInt8) (programId : Pubkey) :
    SerializeM (List SerializedAccountMetadata × U64) := do
  let _ ← writeU64 accounts.length
  let accountsMetadata ← accounts.foldlM (serializeAccount isLoaderV1) []
  let _ ← writeU64 instructionData.length
  let instructionDataOffset ← write instructionData
  let _ ← write programId.toList
  return (accountsMetadata, instructionDataOffset)

/-! ## The size of the buffer -/

def accountSizeUnaligned (mode : MappingMode) : SerializeAccount → Nat
  | .duplicate _ => 1
  | .account _ account =>
      1 + (1 + 1 + 32 + 8 + 8 + 32 + 1 + 8) +
        if !mode.isDirect then account.getData.length else 0

def accountSizeAligned (mode : MappingMode) : SerializeAccount → Nat
  | .duplicate _ => 1 + 7
  | .account _ account =>
      1 + (1 + 1 + 1 + 4 + 32 + 32 + 8 + 8 + 8) +
        if !mode.isDirect then
          account.getData.length + maxPermittedDataIncrease + alignOffset account.getData.length
        else bpfAlignOfU128

def accountSize (isLoaderV1 : Bool) (mode : MappingMode) : SerializeAccount → Nat :=
  if isLoaderV1 then accountSizeUnaligned mode else accountSizeAligned mode

def parametersSize (isLoaderV1 : Bool) (mode : MappingMode) (accounts : List SerializeAccount)
    (instructionData : List UInt8) : Nat :=
  accounts.foldl (fun size account => size + accountSize isLoaderV1 mode account) 8 +
    (8 + instructionData.length + 32)

/-! ## Putting it together -/

/-- What a program is started with. -/
structure SerializedParameters where
  buffer : AlignedMemory
  regions : List MemoryRegion
  accountsMetadata : List SerializedAccountMetadata
  instructionDataOffset : U64

/-- `serialize_parameters_aligned` and `serialize_parameters_unaligned`. -/
def serializeParametersWith (host : HostStorage) (isLoaderV1 : Bool) (mode : MappingMode)
    (accounts : List SerializeAccount) (instructionData : List UInt8) (programId : Pubkey) :
    Outcome InstructionError SerializedParameters := do
  let size := parametersSize isLoaderV1 mode accounts instructionData
  let s := Serializer.new host size mmInputStart isLoaderV1 mode
  let input := (serializeInput isLoaderV1 accounts instructionData programId).run
  let (result, s) := input.run (serializerHandler host) s
  let (accountsMetadata, instructionDataOffset) ← result
  -- `finish` closes the region of what follows the last account.
  let s ← s.pushRegion
  return { buffer := s.buffer, regions := s.regions, accountsMetadata, instructionDataOffset }

/-- The accounts to serialize, each borrowed at its first position.  An account that is already
borrowed cannot be borrowed again. -/
def collectAccounts (ic : InstructionContext) :
    List IndexOfAccount → List IndexOfAccount → Outcome InstructionError (List SerializeAccount)
  | [], _ => .ok []
  | index :: rest, borrowed =>
      match ic.isInstructionAccountDuplicate index with
      -- Both results are unwrapped.
      | .error _ => .panic
      | .ok (some position) => do
          let accounts ← collectAccounts ic rest borrowed
          return .duplicate position :: accounts
      | .ok none =>
          match ic.tryBorrowInstructionAccount index with
          | .error _ => .panic
          | .ok account =>
              if account.getIndexInTransaction ∈ borrowed then
                .panic
              else do
                let accounts ←
                  collectAccounts ic rest (account.getIndexInTransaction :: borrowed)
                return .account index account :: accounts

def serializeParameters (host : HostStorage) (ic : InstructionContext) (mode : MappingMode) :
    Outcome InstructionError SerializedParameters := do
  let numIxAccounts := ic.getNumberOfInstructionAccounts
  if numIxAccounts > maxAccountsPerInstruction then .err .maxAccountsExceeded
  let programId ← Outcome.lift ic.getProgramKey
  let programOwner ← Outcome.lift ic.getProgramOwner
  let isLoaderDeprecated := programOwner == bpfLoaderDeprecatedId
  let accounts ← collectAccounts ic (List.range numIxAccounts) []
  serializeParametersWith host isLoaderDeprecated mode accounts ic.instructionData programId

end ProgramRuntime
end Gobble
