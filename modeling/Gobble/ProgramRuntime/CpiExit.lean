import Gobble.Lib.Guarantee
import Gobble.ProgramRuntime.Cpi
import Gobble.ProgramRuntime.Execution

/-!
# CpiExit — returning from a cross-program invocation

Model of the second half of `cpi_common` in `program-runtime/src/cpi.rs`: what the callee has done to the
accounts is written into the memory of the caller, and with stricter constraints the regions of account
data are replaced.  `CallerState.cpiCommon` is the whole syscall.

Log messages and the measurement of time are left out.
-/

namespace Gobble
namespace ProgramRuntime

open Lib Sbpf Sdk Context Translation CpiM

/-! ## Updating the caller's view of an account -/

/-- The length that an account may have at most when the callee returns.  Without stricter constraints
the loader of the caller does not matter. -/
def addressSpaceReservedAtExit (mode : MappingMode) (checkAligned : Bool) (originalDataLen : Nat) :
    Nat :=
  if mode.stricterAbiAndRuntimeConstraints && !checkAligned then
    originalDataLen
  else
    originalDataLen + maxPermittedDataIncrease

namespace CallerAccount

/-- If the account has been shrunk, zero the memory that was previously used. -/
def zeroShrunk (caller : CallerAccount) (postLen : Nat) : CpiM Unit := do
  require (decide (postLen ≤ caller.serializedData.len)) (.instruction .accountDataTooSmall)
  CpiM.write (caller.serializedData.addr + BitVec.ofNat 64 postLen)
    (List.replicate (caller.serializedData.len - postLen) 0)

/-- Set the length of the slice of the data. -/
def resizeSlice (mode : MappingMode) (checkAligned : Bool) (caller : CallerAccount)
    (prevLen postLen : Nat) : CpiM CallerAccount :=
  if mode.isDirect then
    pure caller
  else do
    when (decide (postLen < prevLen)) (caller.zeroShrunk postLen)
    let serializedData ← getSerializedData mode checkAligned caller.vmDataAddr
      caller.originalDataLen postLen
    return { caller with serializedData }

/-- Set the length field of the slice in the account info, and that in the serialized parameters. -/
def writeLength (checkAligned : Bool) (caller : CallerAccount) (postLen : Nat) : CpiM Unit := do
  CpiM.write caller.refToLenInVm (leBytes 8 postLen)
  let serializedLenPtr ← translate
    (translateTypeMutForCpi .u64 (U64.saturatingSub caller.vmDataAddr 8) checkAligned)
  CpiM.write serializedLenPtr (leBytes 8 postLen)

end CallerAccount

def updateCallerLength (mode : MappingMode) (checkAligned : Bool) (caller : CallerAccount)
    (prevLen postLen : Nat) : CpiM CallerAccount :=
  if prevLen ≠ postLen then do
    let resized ← caller.resizeSlice mode checkAligned prevLen postLen
    resized.writeLength checkAligned postLen
    return resized
  else
    pure caller

/-- Propagate the data up to the caller. -/
def updateCallerData (mode : MappingMode) (caller : CallerAccount)
    (callee : BorrowedInstructionAccount) : CpiM Unit :=
  if mode.isDirect then
    pure ()
  else do
    require (caller.serializedData.len == callee.getData.length) (.instruction .accountDataTooSmall)
    CpiM.write caller.serializedData.addr callee.getData

/-- Update the given account after executing CPI. -/
def updateCallerAccount (mode : MappingMode) (checkAligned : Bool) (caller : CallerAccount)
    (callee : BorrowedInstructionAccount) : CpiM CallerAccount := do
  CpiM.write caller.lamports (leBytes 8 callee.getLamports.toNat)
  CpiM.write caller.owner callee.getOwner.toList
  let prevLen := (← derefU64 caller.refToLenInVm).toNat
  let postLen := callee.getData.length
  require (decide (postLen ≤ addressSpaceReservedAtExit mode checkAligned caller.originalDataLen) ||
    (!mode.stricterAbiAndRuntimeConstraints && prevLen == postLen)) (.instruction .invalidRealloc)
  let resized ← updateCallerLength mode checkAligned caller prevLen postLen
  updateCallerData mode resized callee
  return resized

/-- The body of the first loop. -/
def exitAccount (mode : MappingMode) (checkAligned : Bool) (instructionContext : InstructionContext)
    (account : TranslatedAccount) : CpiM TranslatedAccount := do
  let callee ← ofInstruction (instructionContext.tryBorrowInstructionAccount account.indexInCaller)
  if account.updateCallerAccountInfo then
    let callerAccount ← updateCallerAccount mode checkAligned account.callerAccount callee
    return { account with callerAccount }
  else
    return account

/-- The instruction of the caller, and the accounts with their new slices. -/
def exitAccounts (mode : MappingMode) (checkAligned : Bool) (accounts : List TranslatedAccount) :
    CpiM (InstructionContext × List TranslatedAccount) := do
  let instructionContext ← currentInstruction
  let updated ← accounts.mapM (exitAccount mode checkAligned instructionContext)
  return (instructionContext, updated)

/-! ## Replacing regions -/

namespace CallerState

/-- With stricter constraints the region of the data is changed in place.  With direct mapping it is
a new one, for the data may have moved. -/
def updateCallerAccountRegion (storage : HostStorage) (mode : MappingMode) (checkAligned : Bool)
    (caller : CallerAccount) (callee : BorrowedInstructionAccount) (s : CallerState) :
    Outcome BoxedError Unit × CallerState :=
  if addressSpaceReservedForAccount checkAligned caller.originalDataLen = 0 then
    (.ok (), s)
  else
    let (found, mapping) := s.memory.mapping.findRegion caller.vmDataAddr
    match found with
    | none => (.err (.instruction .missingAccount), { s with memory.mapping := mapping })
    | some (index, region) =>
        let newRegion :=
          if mode.accountDataDirectMapping then
            createMemoryRegionOfAccount storage callee region.vmAddr
          else
            modifyMemoryRegionOfAccount callee region
        match mapping.replaceRegion index newRegion with
        | .error err => (.err (.ebpf err), { s with memory.mapping := mapping })
        | .ok mapping => (.ok (), { s with memory.mapping := mapping })

/-- The second loop. -/
def updateRegions (storage : HostStorage) (mode : MappingMode) (checkAligned : Bool)
    (instructionContext : InstructionContext) :
    List TranslatedAccount → CallerState → Outcome BoxedError Unit × CallerState
  | [], s => (.ok (), s)
  | account :: rest, s =>
      match instructionContext.tryBorrowInstructionAccount account.indexInCaller with
      | .error err => (.err (.instruction err), s)
      | .ok callee =>
          if account.updateCallerAccountRegion then
            continueWith
              (s.updateCallerAccountRegion storage mode checkAligned account.callerAccount callee)
              fun _ s => updateRegions storage mode checkAligned instructionContext rest s
          else
            updateRegions storage mode checkAligned instructionContext rest s

/-- `cpi_common` from the return of `process_instruction` on. -/
def exitCpi (storage : HostStorage) (mode : MappingMode) (checkAligned : Bool)
    (accounts : List TranslatedAccount) (s : CallerState) : Outcome BoxedError Unit × CallerState :=
  continueWith ((exitAccounts mode checkAligned accounts).run.run cpiHandler s) fun exited s =>
    if mode.stricterAbiAndRuntimeConstraints then
      s.updateRegions storage mode checkAligned exited.1 exited.2
    else
      (.ok (), s)

/-- The syscall.  `storage` is where the data of the accounts is when the callee has returned. -/
def cpiCommon (invoke : Invoke) (storage : HostStorage) (env : CpiEnvironment) (request : CpiRequest)
    (s : CallerState) : Except Abort (Outcome BoxedError Unit × CallerState) :=
  match s.enterCpi env request with
  | (.error fault, entered) => .ok (.error fault, entered)
  | (.ok accounts, entered) =>
      match invoke ⟨entered.context, entered.memory.host⟩ with
      | .error abort => .error abort
      | .ok call =>
          let returned : CallerState :=
            ⟨{ entered.memory with host := call.state.host }, call.state.context⟩
          match call.result with
          | .error err => .ok (.err (.instruction err), returned)
          | .ok _ =>
              .ok (returned.exitCpi storage s.context.featureSet.mapping s.context.getCheckAligned
                accounts)

end CallerState

end ProgramRuntime
end Gobble
