import Gobble.Sbpf.VmMemory

/-!
# Translation — turning VM pointers into Rust references

Model of `program-runtime/src/memory.rs` and of the `translate_mut!` macro of the syscalls.  A type
`T` behind a pointer matters only through its size and alignment (`Layout`).

A shared reference is modelled by the bytes behind it, read when the pointer is translated: no
syscall writes memory between translating such a pointer and reading through it.  A mutable
reference is modelled by its host address.
-/

namespace Gobble
namespace ProgramRuntime

open Lib Sbpf

/-- Size and alignment of a type. -/
structure Layout where
  size : Nat
  align : Nat
  deriving DecidableEq, Repr

def Layout.u8 : Layout := ⟨1, 1⟩
def Layout.i32 : Layout := ⟨4, 4⟩
def Layout.u64 : Layout := ⟨8, 8⟩
def Layout.pubkey : Layout := ⟨32, 1⟩

/-- Code that translates pointers: it may fail with a boxed error. -/
abbrev TranslateM := ExceptT BoxedError VmProgram

namespace Translation

def addressIsAligned (layout : Layout) (address : U64) : Bool :=
  address.toNat % layout.align == 0

def access (op : MemOp) : TranslateM (MemRet op) :=
  ExceptT.lift (EffectTree.call op)

/-- `translate_inner!`: the error of the mapping is boxed. -/
def boxed {α : Type} : Except EbpfError α → TranslateM α
  | .ok a => pure a
  | .error err => throw (.ebpf err)

/-- `isize::try_from(total_size).is_err()`. -/
def exceedsIsize (totalSize : U64) : Bool :=
  decide (totalSize.toNat > 2 ^ 63 - 1)

def checkPointer (layout : Layout) (hostAddr : U64) (checkAligned : Bool) : TranslateM Unit :=
  if checkAligned && !addressIsAligned layout hostAddr then
    throw (.memoryTranslation .unalignedPointer)
  else
    pure ()

/-- `translate_type::<T>`. -/
def translateType (layout : Layout) (vmAddr : U64) (checkAligned : Bool) :
    TranslateM (List UInt8) := do
  let (hostAddr, bytes) ← boxed (← access (.readSlice vmAddr (BitVec.ofNat 64 layout.size)))
  checkPointer layout hostAddr checkAligned
  return bytes

/-- `translate_slice::<T>`. -/
def translateSlice (layout : Layout) (vmAddr len : U64) (checkAligned : Bool) :
    TranslateM (List UInt8) := do
  if len = 0 then
    return []
  let totalSize := U64.saturatingMul len (BitVec.ofNat 64 layout.size)
  if exceedsIsize totalSize then
    throw (.memoryTranslation .invalidLength)
  let (hostAddr, bytes) ← boxed (← access (.readSlice vmAddr totalSize))
  checkPointer layout hostAddr checkAligned
  return bytes

/-- `translate_type_mut::<T>`. -/
def translateTypeMut (layout : Layout) (vmAddr : U64) (checkAligned : Bool) : TranslateM U64 := do
  let hostAddr ← boxed (← access (.map .store vmAddr (BitVec.ofNat 64 layout.size)))
  checkPointer layout hostAddr checkAligned
  return hostAddr

/-- `translate_slice_mut::<T>`; the empty slice has a dangling aligned address. -/
def translateSliceMut (layout : Layout) (vmAddr len : U64) (checkAligned : Bool) :
    TranslateM U64 := do
  if len = 0 then
    return BitVec.ofNat 64 layout.align
  let totalSize := U64.saturatingMul len (BitVec.ofNat 64 layout.size)
  if exceedsIsize totalSize then
    throw (.memoryTranslation .invalidLength)
  let hostAddr ← boxed (← access (.map .store vmAddr totalSize))
  checkPointer layout hostAddr checkAligned
  return hostAddr

/-- `translate_type_mut_for_cpi::<T>`, which has another lifetime. -/
def translateTypeMutForCpi (layout : Layout) (vmAddr : U64) (checkAligned : Bool) :
    TranslateM U64 :=
  translateTypeMut layout vmAddr checkAligned

/-- `translate_slice_mut_for_cpi::<T>`, which has another lifetime. -/
def translateSliceMutForCpi (layout : Layout) (vmAddr len : U64) (checkAligned : Bool) :
    TranslateM U64 :=
  translateSliceMut layout vmAddr len checkAligned

def touchTypeMut (layout : Layout) (vmAddr : U64) : TranslateM Unit := do
  let _ ← boxed (← access (.touch .store vmAddr (BitVec.ofNat 64 layout.size)))

def touchSliceMut (layout : Layout) (vmAddr elementCount : U64) : TranslateM Unit := do
  if elementCount = 0 then
    return
  let _ ← boxed (← access (.touch .store vmAddr
    (U64.saturatingMul elementCount (BitVec.ofNat 64 layout.size))))

/-- `translate_mut!` with one binding `&mut T`. -/
def translateMutType (layout : Layout) (checkAligned : Bool) (vmAddr : U64) : TranslateM U64 := do
  touchTypeMut layout vmAddr
  translateTypeMut layout vmAddr checkAligned

/-- `translate_mut!` with one binding `&mut [T]`. -/
def translateMutSlice (layout : Layout) (checkAligned : Bool) (vmAddr elementCount : U64) :
    TranslateM U64 := do
  touchSliceMut layout vmAddr elementCount
  translateSliceMut layout vmAddr elementCount checkAligned

/-- A write through a mutable reference. -/
def write (hostAddr : U64) (bytes : List UInt8) : TranslateM Unit :=
  access (.write hostAddr bytes)

end Translation

end ProgramRuntime
end Gobble
