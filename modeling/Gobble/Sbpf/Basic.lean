import Gobble.Lib.MachineInt
import Gobble.Sdk.Ids

/-!
# Basic — versions, configuration and errors of the virtual machine

`SBPFVersion` and its feature predicates follow `sbpf/src/program.rs`, `Config` follows
`sbpf/src/vm.rs` (the fields that the interpreter and the memory mapping read), `EbpfError` follows
`sbpf/src/error.rs`.  A `Box<dyn Error>` inside `EbpfError::SyscallError` is one of the concrete
error types that the runtime boxes; they are collected in `BoxedError`.
-/

namespace Gobble
namespace Sbpf

open Lib Sdk

/-! ## Versions -/

inductive SBPFVersion where
  | v0
  | v1
  | v2
  | v3
  | v4
  | reserved
  deriving DecidableEq, Repr

namespace SBPFVersion

/-- The declaration order, which is the order of the derived `PartialOrd`. -/
def rank : SBPFVersion → Nat
  | v0 => 0
  | v1 => 1
  | v2 => 2
  | v3 => 3
  | v4 => 4
  | reserved => 5

def manualStackFrameBump (v : SBPFVersion) : Bool := v == v1 || v == v2

def stackFrameGaps (v : SBPFVersion) : Bool := v == v0

def enablePqr (v : SBPFVersion) : Bool := v == v2

def explicitSignExtensionOfResults (v : SBPFVersion) : Bool := v == v2

def swapSubRegImmOperands (v : SBPFVersion) : Bool := v == v2

def disableNeg (v : SBPFVersion) : Bool := v == v2

def callxUsesSrcReg (v : SBPFVersion) : Bool := v == v2

def disableLddw (v : SBPFVersion) : Bool := v == v2

def disableLe (v : SBPFVersion) : Bool := v == v2

def moveMemoryInstructionClasses (v : SBPFVersion) : Bool := v == v2

def staticSyscalls (v : SBPFVersion) : Bool := decide (v3.rank ≤ v.rank)

def enableJmp32 (v : SBPFVersion) : Bool := decide (v3.rank ≤ v.rank)

def callxUsesDstReg (v : SBPFVersion) : Bool := decide (v3.rank ≤ v.rank)

end SBPFVersion

/-! ## Configuration -/

structure Config where
  maxCallDepth : Nat := 64
  stackFrameSize : Nat := 4096
  enableStackFrameGaps : Bool := true
  enableInstructionMeter : Bool := true
  enableRegisterTracing : Bool := false
  allowMemoryRegionZero : Bool := true
  alignedMemoryMapping : Bool := false
  deriving DecidableEq, Repr

/-! ## Errors -/

inductive AccessType where
  | load
  | store
  deriving DecidableEq, Repr

/-- The errors of an instruction that modelled code can return. -/
inductive InstructionError where
  | invalidArgument
  | accountDataTooSmall
  | unbalancedInstruction
  | modifiedProgramId
  | externalAccountLamportSpend
  | externalAccountDataModified
  | readonlyLamportChange
  | readonlyDataModified
  | executableModified
  | accountDataSizeChanged
  | accountBorrowFailed
  | missingAccount
  | custom (code : Nat)
  | invalidError
  | executableAccountNotRentExempt
  | callDepth
  | reentrancyNotAllowed
  | invalidRealloc
  | computationalBudgetExceeded
  | privilegeEscalation
  | maxSeedLengthExceeded
  | programEnvironmentSetupFailure
  | programFailedToComplete
  | unsupportedProgramId
  | invalidAccountOwner
  | arithmeticOverflow
  | maxAccountsExceeded
  | maxAccountsDataAllocationsExceeded
  | maxInstructionTraceLengthExceeded
  | builtinProgramsMustConsumeComputeUnits
  deriving DecidableEq, Repr

inductive SyscallError where
  | copyOverlapping
  deriving DecidableEq, Repr

inductive MemoryTranslationError where
  | unalignedPointer
  | invalidLength
  deriving DecidableEq, Repr

/-- Why seeds do not make a program address. -/
inductive PubkeyError where
  | maxSeedLengthExceeded
  | invalidSeeds
  | illegalOwner
  deriving DecidableEq, Repr

inductive CpiError where
  | invalidPointer
  | tooManySigners
  | badSeeds (err : PubkeyError)
  | invalidLength
  | maxInstructionAccountsExceeded (numAccounts maxAccounts : U64)
  | maxInstructionDataLenExceeded (dataLen maxDataLen : U64)
  | maxInstructionAccountInfosExceeded (numAccountInfos maxAccountInfos : U64)
  | programNotSupported (programId : Pubkey)
  deriving DecidableEq, Repr

mutual

inductive EbpfError where
  | callDepthExceeded
  | divideByZero
  | divideOverflow
  | executionOverrun
  | callOutsideTextSegment
  | exceededMaxInstructions
  | invalidMemoryRegion (index : Nat)
  | accessViolation (accessType : AccessType) (vmAddr len : U64) (regionName : String)
  | stackAccessViolation (accessType : AccessType) (vmAddr len : U64) (stackFrame : Int)
  | invalidInstruction
  | unsupportedInstruction
  | syscallError (err : BoxedError)

inductive BoxedError where
  | ebpf (err : EbpfError)
  | instruction (err : InstructionError)
  | syscall (err : SyscallError)
  | memoryTranslation (err : MemoryTranslationError)
  | cpi (err : CpiError)

end

deriving instance DecidableEq, Repr for EbpfError, BoxedError

abbrev ProgramResult := Except EbpfError U64

end Sbpf
end Gobble
