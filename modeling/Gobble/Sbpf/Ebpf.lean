import Gobble.Sbpf.VmMemory

/-!
# Ebpf — instructions, opcodes and their decoding

Opcodes follow `sbpf/src/ebpf.rs`.  The interpreter of the source is one `match` on the opcode whose
arms carry a guard on the version; `arms` lists them in that order and `decode` picks the first one
that applies.  Arms that differ only in width, comparison or operand are one `Operation` with
parameters.
-/

namespace Gobble
namespace Sbpf
namespace Ebpf

open Lib

/-- Size of an eBPF instruction, in bytes. -/
def insnSize : U64 := 8

def framePtrReg : Nat := 10

/-! ## Opcodes -/

def bpfLd : UInt8 := 0x00
def bpfLdx : UInt8 := 0x01
def bpfSt : UInt8 := 0x02
def bpfStx : UInt8 := 0x03
def bpfAlu32Load : UInt8 := 0x04
def bpfJmp64 : UInt8 := 0x05
def bpfJmp32 : UInt8 := 0x06
def bpfPqr : UInt8 := 0x06
def bpfAlu64Store : UInt8 := 0x07
def bpfW : UInt8 := 0x00
def bpfH : UInt8 := 0x08
def bpfB : UInt8 := 0x10
def bpfDw : UInt8 := 0x18
def bpf1b : UInt8 := 0x20
def bpf2b : UInt8 := 0x30
def bpf4b : UInt8 := 0x80
def bpf8b : UInt8 := 0x90
def bpfImm : UInt8 := 0x00
def bpfMem : UInt8 := 0x60
def bpfK : UInt8 := 0x00
def bpfX : UInt8 := 0x08
def bpfAdd : UInt8 := 0x00
def bpfSub : UInt8 := 0x10
def bpfMul : UInt8 := 0x20
def bpfDiv : UInt8 := 0x30
def bpfOr : UInt8 := 0x40
def bpfAnd : UInt8 := 0x50
def bpfLsh : UInt8 := 0x60
def bpfRsh : UInt8 := 0x70
def bpfNeg : UInt8 := 0x80
def bpfMod : UInt8 := 0x90
def bpfXor : UInt8 := 0xa0
def bpfMov : UInt8 := 0xb0
def bpfArsh : UInt8 := 0xc0
def bpfEnd : UInt8 := 0xd0
def bpfHor : UInt8 := 0xf0
def bpfUhmul : UInt8 := 0x20
def bpfUdiv : UInt8 := 0x40
def bpfUrem : UInt8 := 0x60
def bpfLmul : UInt8 := 0x80
def bpfShmul : UInt8 := 0xa0
def bpfSdiv : UInt8 := 0xc0
def bpfSrem : UInt8 := 0xe0
def bpfJa : UInt8 := 0x00
def bpfJeq : UInt8 := 0x10
def bpfJgt : UInt8 := 0x20
def bpfJge : UInt8 := 0x30
def bpfJset : UInt8 := 0x40
def bpfJne : UInt8 := 0x50
def bpfJsgt : UInt8 := 0x60
def bpfJsge : UInt8 := 0x70
def bpfCall : UInt8 := 0x80
def bpfExit : UInt8 := 0x90
def bpfJlt : UInt8 := 0xa0
def bpfJle : UInt8 := 0xb0
def bpfJslt : UInt8 := 0xc0
def bpfJsle : UInt8 := 0xd0

def ldDwImm : UInt8 := bpfLd ||| bpfImm ||| bpfDw
def ldBReg : UInt8 := bpfLdx ||| bpfMem ||| bpfB
def ldHReg : UInt8 := bpfLdx ||| bpfMem ||| bpfH
def ldWReg : UInt8 := bpfLdx ||| bpfMem ||| bpfW
def ldDwReg : UInt8 := bpfLdx ||| bpfMem ||| bpfDw
def stBImm : UInt8 := bpfSt ||| bpfMem ||| bpfB
def stHImm : UInt8 := bpfSt ||| bpfMem ||| bpfH
def stWImm : UInt8 := bpfSt ||| bpfMem ||| bpfW
def stDwImm : UInt8 := bpfSt ||| bpfMem ||| bpfDw
def stBReg : UInt8 := bpfStx ||| bpfMem ||| bpfB
def stHReg : UInt8 := bpfStx ||| bpfMem ||| bpfH
def stWReg : UInt8 := bpfStx ||| bpfMem ||| bpfW
def stDwReg : UInt8 := bpfStx ||| bpfMem ||| bpfDw
def ld1bReg : UInt8 := bpfAlu32Load ||| bpfX ||| bpf1b
def ld2bReg : UInt8 := bpfAlu32Load ||| bpfX ||| bpf2b
def ld4bReg : UInt8 := bpfAlu32Load ||| bpfX ||| bpf4b
def ld8bReg : UInt8 := bpfAlu32Load ||| bpfX ||| bpf8b
def st1bImm : UInt8 := bpfAlu64Store ||| bpfK ||| bpf1b
def st2bImm : UInt8 := bpfAlu64Store ||| bpfK ||| bpf2b
def st4bImm : UInt8 := bpfAlu64Store ||| bpfK ||| bpf4b
def st8bImm : UInt8 := bpfAlu64Store ||| bpfK ||| bpf8b
def st1bReg : UInt8 := bpfAlu64Store ||| bpfX ||| bpf1b
def st2bReg : UInt8 := bpfAlu64Store ||| bpfX ||| bpf2b
def st4bReg : UInt8 := bpfAlu64Store ||| bpfX ||| bpf4b
def st8bReg : UInt8 := bpfAlu64Store ||| bpfX ||| bpf8b
def add32Imm : UInt8 := bpfAlu32Load ||| bpfK ||| bpfAdd
def add32Reg : UInt8 := bpfAlu32Load ||| bpfX ||| bpfAdd
def sub32Imm : UInt8 := bpfAlu32Load ||| bpfK ||| bpfSub
def sub32Reg : UInt8 := bpfAlu32Load ||| bpfX ||| bpfSub
def mul32Imm : UInt8 := bpfAlu32Load ||| bpfK ||| bpfMul
def mul32Reg : UInt8 := bpfAlu32Load ||| bpfX ||| bpfMul
def div32Imm : UInt8 := bpfAlu32Load ||| bpfK ||| bpfDiv
def div32Reg : UInt8 := bpfAlu32Load ||| bpfX ||| bpfDiv
def or32Imm : UInt8 := bpfAlu32Load ||| bpfK ||| bpfOr
def or32Reg : UInt8 := bpfAlu32Load ||| bpfX ||| bpfOr
def and32Imm : UInt8 := bpfAlu32Load ||| bpfK ||| bpfAnd
def and32Reg : UInt8 := bpfAlu32Load ||| bpfX ||| bpfAnd
def lsh32Imm : UInt8 := bpfAlu32Load ||| bpfK ||| bpfLsh
def lsh32Reg : UInt8 := bpfAlu32Load ||| bpfX ||| bpfLsh
def rsh32Imm : UInt8 := bpfAlu32Load ||| bpfK ||| bpfRsh
def rsh32Reg : UInt8 := bpfAlu32Load ||| bpfX ||| bpfRsh
def neg32 : UInt8 := bpfAlu32Load ||| bpfNeg
def mod32Imm : UInt8 := bpfAlu32Load ||| bpfK ||| bpfMod
def mod32Reg : UInt8 := bpfAlu32Load ||| bpfX ||| bpfMod
def xor32Imm : UInt8 := bpfAlu32Load ||| bpfK ||| bpfXor
def xor32Reg : UInt8 := bpfAlu32Load ||| bpfX ||| bpfXor
def mov32Imm : UInt8 := bpfAlu32Load ||| bpfK ||| bpfMov
def mov32Reg : UInt8 := bpfAlu32Load ||| bpfX ||| bpfMov
def arsh32Imm : UInt8 := bpfAlu32Load ||| bpfK ||| bpfArsh
def arsh32Reg : UInt8 := bpfAlu32Load ||| bpfX ||| bpfArsh
def lmul32Imm : UInt8 := bpfPqr ||| bpfK ||| bpfLmul
def lmul32Reg : UInt8 := bpfPqr ||| bpfX ||| bpfLmul
def udiv32Imm : UInt8 := bpfPqr ||| bpfK ||| bpfUdiv
def udiv32Reg : UInt8 := bpfPqr ||| bpfX ||| bpfUdiv
def urem32Imm : UInt8 := bpfPqr ||| bpfK ||| bpfUrem
def urem32Reg : UInt8 := bpfPqr ||| bpfX ||| bpfUrem
def sdiv32Imm : UInt8 := bpfPqr ||| bpfK ||| bpfSdiv
def sdiv32Reg : UInt8 := bpfPqr ||| bpfX ||| bpfSdiv
def srem32Imm : UInt8 := bpfPqr ||| bpfK ||| bpfSrem
def srem32Reg : UInt8 := bpfPqr ||| bpfX ||| bpfSrem
def le : UInt8 := bpfAlu32Load ||| bpfK ||| bpfEnd
def be : UInt8 := bpfAlu32Load ||| bpfX ||| bpfEnd
def add64Imm : UInt8 := bpfAlu64Store ||| bpfK ||| bpfAdd
def add64Reg : UInt8 := bpfAlu64Store ||| bpfX ||| bpfAdd
def sub64Imm : UInt8 := bpfAlu64Store ||| bpfK ||| bpfSub
def sub64Reg : UInt8 := bpfAlu64Store ||| bpfX ||| bpfSub
def mul64Imm : UInt8 := bpfAlu64Store ||| bpfK ||| bpfMul
def mul64Reg : UInt8 := bpfAlu64Store ||| bpfX ||| bpfMul
def div64Imm : UInt8 := bpfAlu64Store ||| bpfK ||| bpfDiv
def div64Reg : UInt8 := bpfAlu64Store ||| bpfX ||| bpfDiv
def or64Imm : UInt8 := bpfAlu64Store ||| bpfK ||| bpfOr
def or64Reg : UInt8 := bpfAlu64Store ||| bpfX ||| bpfOr
def and64Imm : UInt8 := bpfAlu64Store ||| bpfK ||| bpfAnd
def and64Reg : UInt8 := bpfAlu64Store ||| bpfX ||| bpfAnd
def lsh64Imm : UInt8 := bpfAlu64Store ||| bpfK ||| bpfLsh
def lsh64Reg : UInt8 := bpfAlu64Store ||| bpfX ||| bpfLsh
def rsh64Imm : UInt8 := bpfAlu64Store ||| bpfK ||| bpfRsh
def rsh64Reg : UInt8 := bpfAlu64Store ||| bpfX ||| bpfRsh
def neg64 : UInt8 := bpfAlu64Store ||| bpfNeg
def mod64Imm : UInt8 := bpfAlu64Store ||| bpfK ||| bpfMod
def mod64Reg : UInt8 := bpfAlu64Store ||| bpfX ||| bpfMod
def xor64Imm : UInt8 := bpfAlu64Store ||| bpfK ||| bpfXor
def xor64Reg : UInt8 := bpfAlu64Store ||| bpfX ||| bpfXor
def mov64Imm : UInt8 := bpfAlu64Store ||| bpfK ||| bpfMov
def mov64Reg : UInt8 := bpfAlu64Store ||| bpfX ||| bpfMov
def arsh64Imm : UInt8 := bpfAlu64Store ||| bpfK ||| bpfArsh
def arsh64Reg : UInt8 := bpfAlu64Store ||| bpfX ||| bpfArsh
def hor64Imm : UInt8 := bpfAlu64Store ||| bpfK ||| bpfHor
def lmul64Imm : UInt8 := bpfPqr ||| bpfB ||| bpfK ||| bpfLmul
def lmul64Reg : UInt8 := bpfPqr ||| bpfB ||| bpfX ||| bpfLmul
def uhmul64Imm : UInt8 := bpfPqr ||| bpfB ||| bpfK ||| bpfUhmul
def uhmul64Reg : UInt8 := bpfPqr ||| bpfB ||| bpfX ||| bpfUhmul
def udiv64Imm : UInt8 := bpfPqr ||| bpfB ||| bpfK ||| bpfUdiv
def udiv64Reg : UInt8 := bpfPqr ||| bpfB ||| bpfX ||| bpfUdiv
def urem64Imm : UInt8 := bpfPqr ||| bpfB ||| bpfK ||| bpfUrem
def urem64Reg : UInt8 := bpfPqr ||| bpfB ||| bpfX ||| bpfUrem
def shmul64Imm : UInt8 := bpfPqr ||| bpfB ||| bpfK ||| bpfShmul
def shmul64Reg : UInt8 := bpfPqr ||| bpfB ||| bpfX ||| bpfShmul
def sdiv64Imm : UInt8 := bpfPqr ||| bpfB ||| bpfK ||| bpfSdiv
def sdiv64Reg : UInt8 := bpfPqr ||| bpfB ||| bpfX ||| bpfSdiv
def srem64Imm : UInt8 := bpfPqr ||| bpfB ||| bpfK ||| bpfSrem
def srem64Reg : UInt8 := bpfPqr ||| bpfB ||| bpfX ||| bpfSrem
def jeq32Imm : UInt8 := bpfJmp32 ||| bpfK ||| bpfJeq
def jeq32Reg : UInt8 := bpfJmp32 ||| bpfX ||| bpfJeq
def jgt32Imm : UInt8 := bpfJmp32 ||| bpfK ||| bpfJgt
def jgt32Reg : UInt8 := bpfJmp32 ||| bpfX ||| bpfJgt
def jge32Imm : UInt8 := bpfJmp32 ||| bpfK ||| bpfJge
def jge32Reg : UInt8 := bpfJmp32 ||| bpfX ||| bpfJge
def jlt32Imm : UInt8 := bpfJmp32 ||| bpfK ||| bpfJlt
def jlt32Reg : UInt8 := bpfJmp32 ||| bpfX ||| bpfJlt
def jle32Imm : UInt8 := bpfJmp32 ||| bpfK ||| bpfJle
def jle32Reg : UInt8 := bpfJmp32 ||| bpfX ||| bpfJle
def jset32Imm : UInt8 := bpfJmp32 ||| bpfK ||| bpfJset
def jset32Reg : UInt8 := bpfJmp32 ||| bpfX ||| bpfJset
def jne32Imm : UInt8 := bpfJmp32 ||| bpfK ||| bpfJne
def jne32Reg : UInt8 := bpfJmp32 ||| bpfX ||| bpfJne
def jsgt32Imm : UInt8 := bpfJmp32 ||| bpfK ||| bpfJsgt
def jsgt32Reg : UInt8 := bpfJmp32 ||| bpfX ||| bpfJsgt
def jsge32Imm : UInt8 := bpfJmp32 ||| bpfK ||| bpfJsge
def jsge32Reg : UInt8 := bpfJmp32 ||| bpfX ||| bpfJsge
def jslt32Imm : UInt8 := bpfJmp32 ||| bpfK ||| bpfJslt
def jslt32Reg : UInt8 := bpfJmp32 ||| bpfX ||| bpfJslt
def jsle32Imm : UInt8 := bpfJmp32 ||| bpfK ||| bpfJsle
def jsle32Reg : UInt8 := bpfJmp32 ||| bpfX ||| bpfJsle
def ja : UInt8 := bpfJmp64 ||| bpfJa
def jeq64Imm : UInt8 := bpfJmp64 ||| bpfK ||| bpfJeq
def jeq64Reg : UInt8 := bpfJmp64 ||| bpfX ||| bpfJeq
def jgt64Imm : UInt8 := bpfJmp64 ||| bpfK ||| bpfJgt
def jgt64Reg : UInt8 := bpfJmp64 ||| bpfX ||| bpfJgt
def jge64Imm : UInt8 := bpfJmp64 ||| bpfK ||| bpfJge
def jge64Reg : UInt8 := bpfJmp64 ||| bpfX ||| bpfJge
def jlt64Imm : UInt8 := bpfJmp64 ||| bpfK ||| bpfJlt
def jlt64Reg : UInt8 := bpfJmp64 ||| bpfX ||| bpfJlt
def jle64Imm : UInt8 := bpfJmp64 ||| bpfK ||| bpfJle
def jle64Reg : UInt8 := bpfJmp64 ||| bpfX ||| bpfJle
def jset64Imm : UInt8 := bpfJmp64 ||| bpfK ||| bpfJset
def jset64Reg : UInt8 := bpfJmp64 ||| bpfX ||| bpfJset
def jne64Imm : UInt8 := bpfJmp64 ||| bpfK ||| bpfJne
def jne64Reg : UInt8 := bpfJmp64 ||| bpfX ||| bpfJne
def jsgt64Imm : UInt8 := bpfJmp64 ||| bpfK ||| bpfJsgt
def jsgt64Reg : UInt8 := bpfJmp64 ||| bpfX ||| bpfJsgt
def jsge64Imm : UInt8 := bpfJmp64 ||| bpfK ||| bpfJsge
def jsge64Reg : UInt8 := bpfJmp64 ||| bpfX ||| bpfJsge
def jslt64Imm : UInt8 := bpfJmp64 ||| bpfK ||| bpfJslt
def jslt64Reg : UInt8 := bpfJmp64 ||| bpfX ||| bpfJslt
def jsle64Imm : UInt8 := bpfJmp64 ||| bpfK ||| bpfJsle
def jsle64Reg : UInt8 := bpfJmp64 ||| bpfX ||| bpfJsle
def callImm : UInt8 := bpfJmp64 ||| bpfCall
def callReg : UInt8 := bpfJmp64 ||| bpfX ||| bpfCall
def exit : UInt8 := bpfJmp64 ||| bpfExit

/-! ## Instructions -/

structure Insn where
  /-- Instruction pointer. -/
  ptr : U64
  opc : UInt8
  dst : Nat
  src : Nat
  off : BitVec 16
  imm : BitVec 64
  deriving DecidableEq, Repr

def isPcInProgram (prog : List UInt8) (pc : U64) : Bool :=
  decide ((U64.saturatingMul (U64.saturatingAdd pc 1) insnSize).toNat ≤ prog.length)

/-- `none` where the source indexes past the end of the program. -/
def getInsnUnchecked (prog : List UInt8) (pc : U64) : Option Insn :=
  match prog.drop (insnSize * pc).toNat with
  | opc :: regs :: off₀ :: off₁ :: imm₀ :: imm₁ :: imm₂ :: imm₃ :: _ =>
      some
        { ptr := pc
          opc
          dst := (regs &&& 0x0f).toNat
          src := ((regs &&& 0xf0) >>> 4).toNat
          off := BitVec.ofNat 16 (leNat [off₀, off₁])
          imm := (BitVec.ofNat 32 (leNat [imm₀, imm₁, imm₂, imm₃])).signExtend 64 }
  | _ => none

/-- Merges the two halves of a `lddw` instruction. -/
def augmentLddwUnchecked (prog : List UInt8) (insn : Insn) : Option Insn :=
  match prog.drop ((insn.ptr + 1) * insnSize + 4).toNat with
  | imm₀ :: imm₁ :: imm₂ :: imm₃ :: _ =>
      let moreSignificantHalf :=
        (BitVec.ofNat 32 (leNat [imm₀, imm₁, imm₂, imm₃])).signExtend 64
      some { insn with imm := (insn.imm &&& 0xffffffff) ||| (moreSignificantHalf <<< 32) }
  | _ => none

/-! ## Operations -/

/-- The second operand: the sign-extended immediate, its low half zero-extended, or `reg[src]`. -/
inductive Operand where
  | imm
  | immU32
  | reg
  deriving DecidableEq, Repr

inductive AluOp where
  | add
  | sub
  | mul
  | or
  | and
  | lsh
  | rsh
  | xor
  | mov
  | arsh
  /-- High or. -/
  | hor
  /-- Low half of a product. -/
  | lmul
  /-- High half of an unsigned product. -/
  | uhmul
  /-- High half of a signed product. -/
  | shmul
  deriving DecidableEq, Repr

inductive Signedness where
  | unsigned
  | signed
  deriving DecidableEq, Repr

inductive DivResult where
  | quotient
  | remainder
  deriving DecidableEq, Repr

inductive Cond where
  | eq
  | gt
  | ge
  | lt
  | le
  | set
  | ne
  | sgt
  | sge
  | slt
  | sle
  deriving DecidableEq, Repr

inductive Operation where
  | lddw
  | load (size : AccessSize)
  | store (size : AccessSize) (value : Operand)
  | alu32 (op : AluOp) (rhs : Operand)
  | alu64 (op : AluOp) (rhs : Operand)
  | div32 (sign : Signedness) (result : DivResult) (rhs : Operand)
  | div64 (sign : Signedness) (result : DivResult) (rhs : Operand)
  | neg32
  | neg64
  | le
  | be
  | jump32 (cond : Cond) (rhs : Operand)
  | jump64 (cond : Cond) (rhs : Operand)
  | ja
  | callReg
  | callImm
  | exit
  deriving DecidableEq, Repr

/-- No guard on the version. -/
def always : SBPFVersion → Bool := fun _ => true

/-- The arms of the interpreter's `match`, in order: opcode, guard, operation. -/
def arms : List (UInt8 × (SBPFVersion → Bool) × Operation) := [
  (ldDwImm, (!·.disableLddw), .lddw),
  (ldBReg, (!·.moveMemoryInstructionClasses), .load .u8),
  (ldHReg, (!·.moveMemoryInstructionClasses), .load .u16),
  (ldWReg, (!·.moveMemoryInstructionClasses), .load .u32),
  (ldDwReg, (!·.moveMemoryInstructionClasses), .load .u64),
  (stBImm, (!·.moveMemoryInstructionClasses), .store .u8 .imm),
  (stHImm, (!·.moveMemoryInstructionClasses), .store .u16 .imm),
  (stWImm, (!·.moveMemoryInstructionClasses), .store .u32 .imm),
  (stDwImm, (!·.moveMemoryInstructionClasses), .store .u64 .imm),
  (stBReg, (!·.moveMemoryInstructionClasses), .store .u8 .reg),
  (stHReg, (!·.moveMemoryInstructionClasses), .store .u16 .reg),
  (stWReg, (!·.moveMemoryInstructionClasses), .store .u32 .reg),
  (stDwReg, (!·.moveMemoryInstructionClasses), .store .u64 .reg),
  (add32Imm, always, .alu32 .add .imm), (add32Reg, always, .alu32 .add .reg),
  (sub32Imm, always, .alu32 .sub .imm), (sub32Reg, always, .alu32 .sub .reg),
  (mul32Imm, (!·.enablePqr), .alu32 .mul .imm), (mul32Reg, (!·.enablePqr), .alu32 .mul .reg),
  (ld1bReg, (·.moveMemoryInstructionClasses), .load .u8),
  (div32Imm, (!·.enablePqr), .div32 .unsigned .quotient .imm),
  (div32Reg, (!·.enablePqr), .div32 .unsigned .quotient .reg),
  (ld2bReg, (·.moveMemoryInstructionClasses), .load .u16),
  (or32Imm, always, .alu32 .or .imm), (or32Reg, always, .alu32 .or .reg),
  (and32Imm, always, .alu32 .and .imm), (and32Reg, always, .alu32 .and .reg),
  (lsh32Imm, always, .alu32 .lsh .imm), (lsh32Reg, always, .alu32 .lsh .reg),
  (rsh32Imm, always, .alu32 .rsh .imm), (rsh32Reg, always, .alu32 .rsh .reg),
  (neg32, (!·.disableNeg), .neg32),
  (ld4bReg, (·.moveMemoryInstructionClasses), .load .u32),
  (mod32Imm, (!·.enablePqr), .div32 .unsigned .remainder .imm),
  (mod32Reg, (!·.enablePqr), .div32 .unsigned .remainder .reg),
  (ld8bReg, (·.moveMemoryInstructionClasses), .load .u64),
  (xor32Imm, always, .alu32 .xor .imm), (xor32Reg, always, .alu32 .xor .reg),
  (mov32Imm, always, .alu32 .mov .imm), (mov32Reg, always, .alu32 .mov .reg),
  (arsh32Imm, always, .alu32 .arsh .imm), (arsh32Reg, always, .alu32 .arsh .reg),
  (le, (!·.disableLe), .le),
  (be, always, .be),
  (add64Imm, always, .alu64 .add .imm), (add64Reg, always, .alu64 .add .reg),
  (sub64Imm, always, .alu64 .sub .imm), (sub64Reg, always, .alu64 .sub .reg),
  (mul64Imm, (!·.enablePqr), .alu64 .mul .imm),
  (st1bImm, (·.moveMemoryInstructionClasses), .store .u8 .imm),
  (mul64Reg, (!·.enablePqr), .alu64 .mul .reg),
  (st1bReg, (·.moveMemoryInstructionClasses), .store .u8 .reg),
  (div64Imm, (!·.enablePqr), .div64 .unsigned .quotient .imm),
  (st2bImm, (·.moveMemoryInstructionClasses), .store .u16 .imm),
  (div64Reg, (!·.enablePqr), .div64 .unsigned .quotient .reg),
  (st2bReg, (·.moveMemoryInstructionClasses), .store .u16 .reg),
  (or64Imm, always, .alu64 .or .imm), (or64Reg, always, .alu64 .or .reg),
  (and64Imm, always, .alu64 .and .imm), (and64Reg, always, .alu64 .and .reg),
  (lsh64Imm, always, .alu64 .lsh .imm), (lsh64Reg, always, .alu64 .lsh .reg),
  (rsh64Imm, always, .alu64 .rsh .imm), (rsh64Reg, always, .alu64 .rsh .reg),
  (st4bImm, (·.moveMemoryInstructionClasses), .store .u32 .imm),
  (neg64, (!·.disableNeg), .neg64),
  (st4bReg, (·.moveMemoryInstructionClasses), .store .u32 .reg),
  (mod64Imm, (!·.enablePqr), .div64 .unsigned .remainder .imm),
  (st8bImm, (·.moveMemoryInstructionClasses), .store .u64 .imm),
  (mod64Reg, (!·.enablePqr), .div64 .unsigned .remainder .reg),
  (st8bReg, (·.moveMemoryInstructionClasses), .store .u64 .reg),
  (xor64Imm, always, .alu64 .xor .imm), (xor64Reg, always, .alu64 .xor .reg),
  (mov64Imm, always, .alu64 .mov .imm), (mov64Reg, always, .alu64 .mov .reg),
  (arsh64Imm, always, .alu64 .arsh .imm), (arsh64Reg, always, .alu64 .arsh .reg),
  (hor64Imm, (·.disableLddw), .alu64 .hor .imm),
  (lmul32Imm, (·.enablePqr), .alu32 .lmul .imm), (lmul32Reg, (·.enablePqr), .alu32 .lmul .reg),
  (lmul64Imm, (·.enablePqr), .alu64 .lmul .imm), (lmul64Reg, (·.enablePqr), .alu64 .lmul .reg),
  (uhmul64Imm, (·.enablePqr), .alu64 .uhmul .immU32),
  (uhmul64Reg, (·.enablePqr), .alu64 .uhmul .reg),
  (shmul64Imm, (·.enablePqr), .alu64 .shmul .imm), (shmul64Reg, (·.enablePqr), .alu64 .shmul .reg),
  (udiv32Imm, (·.enablePqr), .div32 .unsigned .quotient .imm),
  (udiv32Reg, (·.enablePqr), .div32 .unsigned .quotient .reg),
  (udiv64Imm, (·.enablePqr), .div64 .unsigned .quotient .immU32),
  (udiv64Reg, (·.enablePqr), .div64 .unsigned .quotient .reg),
  (urem32Imm, (·.enablePqr), .div32 .unsigned .remainder .imm),
  (urem32Reg, (·.enablePqr), .div32 .unsigned .remainder .reg),
  (urem64Imm, (·.enablePqr), .div64 .unsigned .remainder .immU32),
  (urem64Reg, (·.enablePqr), .div64 .unsigned .remainder .reg),
  (sdiv32Imm, (·.enablePqr), .div32 .signed .quotient .imm),
  (sdiv32Reg, (·.enablePqr), .div32 .signed .quotient .reg),
  (sdiv64Imm, (·.enablePqr), .div64 .signed .quotient .imm),
  (sdiv64Reg, (·.enablePqr), .div64 .signed .quotient .reg),
  (srem32Imm, (·.enablePqr), .div32 .signed .remainder .imm),
  (srem32Reg, (·.enablePqr), .div32 .signed .remainder .reg),
  (srem64Imm, (·.enablePqr), .div64 .signed .remainder .imm),
  (srem64Reg, (·.enablePqr), .div64 .signed .remainder .reg),
  (jeq32Imm, (·.enableJmp32), .jump32 .eq .imm), (jeq32Reg, (·.enableJmp32), .jump32 .eq .reg),
  (jgt32Imm, (·.enableJmp32), .jump32 .gt .imm), (jgt32Reg, (·.enableJmp32), .jump32 .gt .reg),
  (jge32Imm, (·.enableJmp32), .jump32 .ge .imm), (jge32Reg, (·.enableJmp32), .jump32 .ge .reg),
  (jlt32Imm, (·.enableJmp32), .jump32 .lt .imm), (jlt32Reg, (·.enableJmp32), .jump32 .lt .reg),
  (jle32Imm, (·.enableJmp32), .jump32 .le .imm), (jle32Reg, (·.enableJmp32), .jump32 .le .reg),
  (jset32Imm, (·.enableJmp32), .jump32 .set .imm), (jset32Reg, (·.enableJmp32), .jump32 .set .reg),
  (jne32Imm, (·.enableJmp32), .jump32 .ne .imm), (jne32Reg, (·.enableJmp32), .jump32 .ne .reg),
  (jsgt32Imm, (·.enableJmp32), .jump32 .sgt .imm), (jsgt32Reg, (·.enableJmp32), .jump32 .sgt .reg),
  (jsge32Imm, (·.enableJmp32), .jump32 .sge .imm), (jsge32Reg, (·.enableJmp32), .jump32 .sge .reg),
  (jslt32Imm, (·.enableJmp32), .jump32 .slt .imm), (jslt32Reg, (·.enableJmp32), .jump32 .slt .reg),
  (jsle32Imm, (·.enableJmp32), .jump32 .sle .imm), (jsle32Reg, (·.enableJmp32), .jump32 .sle .reg),
  (ja, always, .ja),
  (jeq64Imm, always, .jump64 .eq .imm), (jeq64Reg, always, .jump64 .eq .reg),
  (jgt64Imm, always, .jump64 .gt .imm), (jgt64Reg, always, .jump64 .gt .reg),
  (jge64Imm, always, .jump64 .ge .imm), (jge64Reg, always, .jump64 .ge .reg),
  (jlt64Imm, always, .jump64 .lt .imm), (jlt64Reg, always, .jump64 .lt .reg),
  (jle64Imm, always, .jump64 .le .imm), (jle64Reg, always, .jump64 .le .reg),
  (jset64Imm, always, .jump64 .set .imm), (jset64Reg, always, .jump64 .set .reg),
  (jne64Imm, always, .jump64 .ne .imm), (jne64Reg, always, .jump64 .ne .reg),
  (jsgt64Imm, always, .jump64 .sgt .imm), (jsgt64Reg, always, .jump64 .sgt .reg),
  (jsge64Imm, always, .jump64 .sge .imm), (jsge64Reg, always, .jump64 .sge .reg),
  (jslt64Imm, always, .jump64 .slt .imm), (jslt64Reg, always, .jump64 .slt .reg),
  (jsle64Imm, always, .jump64 .sle .imm), (jsle64Reg, always, .jump64 .sle .reg),
  (callReg, always, .callReg),
  (callImm, always, .callImm),
  (exit, always, .exit)]

def decode (v : SBPFVersion) (opc : UInt8) : Option Operation :=
  (arms.find? fun arm => arm.1 == opc && arm.2.1 v).map fun arm => arm.2.2

/-! ## Arithmetic -/

section Alu

variable (v : SBPFVersion)

/-- `as u32` / `as i32`. -/
def low (x : U64) : BitVec 32 := x.setWidth 32

/-- `as u64` of a `u32`. -/
def zext (x : BitVec 32) : U64 := x.setWidth 64

/-- `as i64 as u64` of an `i32`. -/
def sext (x : BitVec 32) : U64 := x.signExtend 64

def signExtension (value : BitVec 32) : U64 :=
  if v.explicitSignExtensionOfResults then zext value else sext value

/-- Subtraction, with the operands of the immediate form swapped in newer versions. -/
def subOperands {w : Nat} (rhsKind : Operand) (dst rhs : BitVec w) : BitVec w :=
  if rhsKind = .imm ∧ v.swapSubRegImmOperands then rhs - dst else dst - rhs

/-- The 32-bit arithmetic arms; shift counts are taken modulo the width. -/
def alu32 (op : AluOp) (rhsKind : Operand) (dst rhs : U64) : U64 :=
  let d := low dst
  let s := low rhs
  match op with
  | .add => signExtension v (d + s)
  | .sub => signExtension v (subOperands v rhsKind d s)
  | .mul => signExtension v (d * s)
  | .or => zext (d ||| s)
  | .and => zext (d &&& s)
  | .lsh => zext (d <<< (s.toNat % 32))
  | .rsh => zext (d >>> (s.toNat % 32))
  | .xor => zext (d ^^^ s)
  | .mov => if rhsKind = .reg ∧ v.explicitSignExtensionOfResults then sext s else zext s
  | .arsh => zext (d.sshiftRight (s.toNat % 32))
  | .lmul => zext (d * s)
  -- There are no 32-bit opcodes for these.
  | .hor | .uhmul | .shmul => dst

def alu64 (op : AluOp) (rhsKind : Operand) (dst rhs : U64) : U64 :=
  match op with
  | .add => dst + rhs
  | .sub => subOperands v rhsKind dst rhs
  | .mul => dst * rhs
  | .or => dst ||| rhs
  | .and => dst &&& rhs
  | .lsh => dst <<< ((low rhs).toNat % 64)
  | .rsh => dst >>> ((low rhs).toNat % 64)
  | .xor => dst ^^^ rhs
  | .mov => rhs
  | .arsh => dst.sshiftRight ((low rhs).toNat % 64)
  | .hor => dst ||| (rhs <<< 32)
  | .lmul => dst * rhs
  | .uhmul => (((dst.setWidth 128) * (rhs.setWidth 128)) >>> 64).setWidth 64
  | .shmul => (((dst.signExtend 128) * (rhs.signExtend 128)).sshiftRight 64).setWidth 64

end Alu

/-- A division by a divisor that is not zero and does not overflow. -/
def divide {w : Nat} (sign : Signedness) (result : DivResult) (dst src : BitVec w) : BitVec w :=
  match sign, result with
  | .unsigned, .quotient => dst / src
  | .unsigned, .remainder => dst % src
  | .signed, .quotient => dst.sdiv src
  | .signed, .remainder => dst.srem src

/-- `<$ty>::MIN / -1`, which does not fit. -/
def divideOverflows {w : Nat} (sign : Signedness) (dst src : BitVec w) : Bool :=
  sign == .signed && dst == BitVec.intMin w && src == BitVec.allOnes w

def Cond.eval {w : Nat} (cond : Cond) (dst rhs : BitVec w) : Bool :=
  match cond with
  | .eq => dst == rhs
  | .gt => rhs.ult dst
  | .ge => rhs.ule dst
  | .lt => dst.ult rhs
  | .le => dst.ule rhs
  | .set => dst &&& rhs != 0
  | .ne => dst != rhs
  | .sgt => rhs.slt dst
  | .sge => rhs.sle dst
  | .slt => dst.slt rhs
  | .sle => dst.sle rhs

/-- `to_le` on a little-endian host, for the widths the instruction allows. -/
def toLe (imm : BitVec 64) (dst : U64) : Option U64 :=
  if imm = 16 then some ((dst.setWidth 16).setWidth 64)
  else if imm = 32 then some ((dst.setWidth 32).setWidth 64)
  else if imm = 64 then some dst
  else none

/-- The low `bytes` bytes in reversed order. -/
def swapBytes (bytes : Nat) (x : U64) : U64 :=
  BitVec.ofNat 64 (leNat (leBytes bytes x.toNat).reverse)

/-- `to_be` on a little-endian host. -/
def toBe (imm : BitVec 64) (dst : U64) : Option U64 :=
  if imm = 16 then some (swapBytes 2 dst)
  else if imm = 32 then some (swapBytes 4 dst)
  else if imm = 64 then some (swapBytes 8 dst)
  else none

end Ebpf
end Sbpf
end Gobble
