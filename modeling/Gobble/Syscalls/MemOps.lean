import Gobble.ProgramRuntime.Translation
import Gobble.Sbpf.Interpreter

/-!
# MemOps — the memory syscalls

Model of `syscalls/src/mem_ops.rs`: `memcpy`, `memmove`, `memcmp` and `memset`.
-/

namespace Gobble
namespace Syscalls

open Lib Sbpf ProgramRuntime

/-- What the memory syscalls use of `InvokeContext`. -/
structure SyscallContext where
  computeMeter : U64
  checkAligned : Bool
  memOpBaseCost : U64
  cpiBytesPerUnit : U64
  deriving DecidableEq, Repr

instance : ContextObject SyscallContext where
  -- 1 to 1 instruction to compute unit mapping; the overflow is ignored.
  consume ctx amount := { ctx with computeMeter := U64.saturatingSub ctx.computeMeter amount }
  getRemaining ctx := ctx.computeMeter

abbrev SyscallM := ExceptT BoxedError (StateT SyscallContext VmProgram)

namespace SyscallM

/-- Runs pointer translations inside a syscall. -/
def translate {α : Type} (t : TranslateM α) : SyscallM α :=
  ExceptT.mk (StateT.lift t.run)

end SyscallM

/-- `consume_compute_meter`: the meter is charged even when it is exceeded. -/
def consumeChecked (amount : U64) : SyscallM Unit := do
  let ctx ← get
  set { ctx with computeMeter := U64.saturatingSub ctx.computeMeter amount }
  if ctx.computeMeter < amount then
    throw (.instruction .computationalBudgetExceeded)

def memOpConsume (n : U64) : SyscallM Unit := do
  let ctx ← get
  let bytesCost :=
    if ctx.cpiBytesPerUnit = 0 then BitVec.allOnes 64 else n / ctx.cpiBytesPerUnit
  consumeChecked (if ctx.memOpBaseCost ≤ bytesCost then bytesCost else ctx.memOpBaseCost)

/-- Check that two regions do not overlap. -/
def isNonoverlapping (src srcLen dst dstLen : U64) : Bool :=
  -- If the absolute distance between the ptrs is at least as big as the size of the other,
  -- they do not overlap.
  if src > dst then
    decide (U64.saturatingSub src dst ≥ dstLen)
  else
    decide (U64.saturatingSub dst src ≥ srcLen)

open Translation SyscallM

def memmove (dstAddr srcAddr n : U64) : SyscallM U64 := do
  let checkAligned := (← get).checkAligned
  translate do
    let dst ← translateMutSlice .u8 checkAligned dstAddr n
    let src ← translateSlice .u8 srcAddr n checkAligned
    write dst src
    return 0

/-- The first difference decides. -/
def memcmp : List UInt8 → List UInt8 → Int
  | a :: s₁, b :: s₂ => if a ≠ b then (a.toNat : Int) - (b.toNat : Int) else memcmp s₁ s₂
  | _, _ => 0

/-- The memory syscalls, under the names of the source. -/
inductive MemOpSyscall where
  | memcpy
  | memmove
  | memcmp
  | memset
  deriving DecidableEq, Repr

namespace MemOpSyscall

def rust : MemOpSyscall → (arg₁ arg₂ arg₃ arg₄ arg₅ : U64) → SyscallM U64
  | .memcpy, dstAddr, srcAddr, n, _, _ => do
      memOpConsume n
      if !isNonoverlapping srcAddr n dstAddr n then
        throw (.syscall .copyOverlapping)
      -- Host addresses can overlap so we always invoke memmove.
      Syscalls.memmove dstAddr srcAddr n
  | .memmove, dstAddr, srcAddr, n, _, _ => do
      memOpConsume n
      Syscalls.memmove dstAddr srcAddr n
  | .memcmp, s₁Addr, s₂Addr, n, cmpResultAddr, _ => do
      memOpConsume n
      let checkAligned := (← get).checkAligned
      translate do
        let s₁ ← translateSlice .u8 s₁Addr n checkAligned
        let s₂ ← translateSlice .u8 s₂Addr n checkAligned
        let result := Syscalls.memcmp s₁ s₂
        let cmpResult ← translateMutType .i32 checkAligned cmpResultAddr
        write cmpResult (leBytes 4 (BitVec.ofInt 32 result).toNat)
        return 0
  | .memset, dstAddr, c, n, _, _ => do
      memOpConsume n
      let checkAligned := (← get).checkAligned
      translate do
        let s ← translateMutSlice .u8 checkAligned dstAddr n
        write s (List.replicate n.toNat (UInt8.ofNat c.toNat))
        return 0

/-- The entry registered with the loader. -/
def builtin (f : MemOpSyscall) : BuiltinFunction SyscallContext :=
  fun ctx arg₁ arg₂ arg₃ arg₄ arg₅ => (f.rust arg₁ arg₂ arg₃ arg₄ arg₅).run.run ctx

end MemOpSyscall

end Syscalls
end Gobble
