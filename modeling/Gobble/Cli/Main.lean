import Gobble.Cli.Message
import Gobble.ProgramRuntime.Execution
import Mathlib.Data.List.DropRight
import Mathlib.Data.List.SplitOn

/-!
# Main — the command line tool

Model of `main` in `gobble/src/main.rs`: the options, the program cache, the context in which the
watched instruction is executed, and the verdict.  `prepare` is everything before the execution.
What is printed on the way is left out, and so is the sysvar cache, which only the syscalls of
programs read.
-/

namespace Gobble
namespace Cli

open Lib Sbpf Sdk Context ProgramRuntime Detector

/-! ## Options -/

/-- The command line, `Cli` in the source. -/
structure CliArgs where
  transaction : String
  instructionIndex : Nat := 0
  forbiddenRanges : String := "8-16"
  deriving DecidableEq

/-- `char::is_whitespace`. -/
def isWhitespace (c : Char) : Bool :=
  let n := c.toNat
  (9 ≤ n && n ≤ 13) || n == 0x20 || n == 0x85 || n == 0xA0 || n == 0x1680 ||
    (0x2000 ≤ n && n ≤ 0x200A) || n == 0x2028 || n == 0x2029 || n == 0x202F || n == 0x205F ||
    n == 0x3000

/-- `str::trim`. -/
def trim (s : List Char) : List Char :=
  (s.dropWhile isWhitespace).rdropWhile isWhitespace

def digitValue (c : Char) : Option Nat :=
  if '0' ≤ c ∧ c ≤ '9' then some (c.toNat - '0'.toNat) else none

/-- The digits of a number, most significant first; `none` on overflow. -/
def parseDigits : List Char → Nat → Option Nat
  | [], n => some n
  | c :: rest, n => do
      let digit ← digitValue c
      let n := n * 10 + digit
      if n < 2 ^ 64 then parseDigits rest n else none

/-- `str::parse::<usize>`: digits after an optional plus sign. -/
def parseUsize : List Char → Option U64
  | [] => none
  | ['+'] => none
  | '+' :: digits => (parseDigits digits 0).map (BitVec.ofNat 64)
  | digits => (parseDigits digits 0).map (BitVec.ofNat 64)

def parseRange (r : List Char) : Except CliError AddrRange :=
  match (trim r).splitOn '-' with
  | [first, second] =>
      match parseUsize first with
      | none => .error (.invalidRangeStart (String.ofList first))
      | some start =>
          match parseUsize second with
          | none => .error (.invalidRangeEnd (String.ofList second))
          | some stop => .ok ⟨start, stop⟩
  | _ => .error (.invalidRangeFormat (String.ofList r))

def parseRanges (s : String) : Except CliError (List AddrRange) :=
  (s.toList.splitOn ',').mapM parseRange

/-! ## Code that is not part of the repository -/

structure Environment where
  formats : TextFormats
  base58 : String → Option (List UInt8)
  /-- The message of the transaction that the bytes encode. -/
  deserialize : List UInt8 → Option VersionedMessage
  flags : MessageFlags
  /-- `create_program_runtime_environment_v1` for the options that `main` uses. -/
  runtimeEnvironment : Except String Unit
  /-- `ProgramCacheEntry::new`: load and verify the ELF file of a loader. -/
  loadProgram : (loader : Pubkey) → (elf : List UInt8) → Option Nat

/-! ## The program cache -/

abbrev ProgramCache := List (Pubkey × ProgramCacheEntryType)

/-- `BUILTINS`. -/
def builtins : List (Pubkey × BuiltinId) :=
  [(systemProgramId, .native 0), (voteProgramId, .native 1), (bpfLoaderDeprecatedId, .bpfLoader),
    (bpfLoaderId, .bpfLoader), (bpfLoaderUpgradeableId, .bpfLoader),
    (computeBudgetProgramId, .native 2), (zkTokenProofProgramId, .native 3),
    (loaderV4Id, .loaderV4), (zkElgamalProofProgramId, .native 4)]

/-- A new entry hides an older one with the same key. -/
def replenish (cache : ProgramCache) (key : Pubkey) (entry : ProgramCacheEntryType) :
    ProgramCache :=
  (key, entry) :: cache

/-- Load a program whose file is the data of its account. -/
def cacheProgram (env : Environment) (cache : ProgramCache)
    (account : Pubkey × AccountSharedData) : ProgramCache :=
  let (programId, account) := account
  if builtins.any fun b => b.1 == programId then
    cache
  else if account.owner = bpfLoaderId ∨ account.owner = bpfLoaderDeprecatedId then
    match env.loadProgram account.owner account.data with
    | some executable => replenish cache programId (.loaded executable)
    | none => cache
  else
    cache

/-- Build a program cache with builtins and any executable accounts loaded as BPF programs. -/
def buildProgramCache (env : Environment)
    (executableAccounts : List (Pubkey × AccountSharedData)) : Except CliError ProgramCache := do
  let cache := builtins.foldl (fun cache b => replenish cache b.1 (.builtin (some b.2))) []
  env.runtimeEnvironment.mapError .programRuntimeEnvironment
  return executableAccounts.foldl (cacheProgram env) cache

/-- The address of the programdata account, if the account is an upgradeable program. -/
def programDataKey (maybeAccount : Option AccountSharedData) : Option Pubkey := do
  let account ← maybeAccount
  if account.executable && account.owner == bpfLoaderUpgradeableId then
    if account.data.length ≥ 36 then
      let discriminant ← readLe 4 account.data 0
      if discriminant = 2 then
        return pubkeyOfBytes ((account.data.drop 4).take 32)
  none

def programDataHeader : Nat := 45

/-- Load an upgradeable program from its programdata account. -/
def cacheUpgradeableProgram (env : Environment) (cache : ProgramCache)
    (entry : Pubkey × Option AccountSharedData) : ProgramCache :=
  let (programId, maybeProgramData) := entry
  match maybeProgramData with
  | none => cache
  | some programData =>
      if programData.data.length > programDataHeader then
        match env.loadProgram bpfLoaderUpgradeableId (programData.data.drop programDataHeader) with
        | some executable => replenish cache programId (.loaded executable)
        | none => cache
      else
        cache

/-- Fetch programdata accounts for upgradeable BPF programs and load them into the cache. -/
def loadUpgradeablePrograms (env : Environment) (reply : RpcReply) (cache : ProgramCache)
    (accounts : List (Pubkey × Option AccountSharedData)) : Outcome CliError ProgramCache := do
  Outcome.lift (env.runtimeEnvironment.mapError .programRuntimeEnvironment)
  let programIds := (accounts.filter fun a => (programDataKey a.2).isSome).map Prod.fst
  if programIds = [] then
    return cache
  let programDataAccounts ← fetchAccounts env.formats reply
  return (programIds.zip programDataAccounts).foldl (cacheUpgradeableProgram env) cache

/-! ## The context of the execution -/

/-- `SVMFeatureSet::all_enabled()`. -/
def allEnabled : FeatureSet :=
  { mapping := { stricterAbiAndRuntimeConstraints := true, accountDataDirectMapping := true }
    provideInstructionDataOffsetInVmR2 := true
    depleteCuMeterOnVmFailure := true
    increaseCpiAccountInfoLimit := true
    increaseTxAccountLockLimit := true }

/-! `ComputeBudget::new_with_defaults(false, false)`. -/

def maxInstructionStackDepth : Nat := 5
def maxInstructionTraceLength : Nat := 64
def executionBudget : ExecutionBudget := { computeUnitLimit := 1400000, heapSize := 32 * 1024 }
def executionCost : ExecutionCost := { heapCost := 8, invokeUnits := 1000, cpiBytesPerUnit := 250 }

/-- A context in which nothing has been executed yet. -/
def startContext (accounts : List (Pubkey × AccountSharedData)) (cache : ProgramCache)
    (forbiddenSysvarOffsets : List AddrRange) : InvokeContext :=
  let transactionContext :=
    TransactionContext.new accounts maxInstructionStackDepth maxInstructionTraceLength
  (InvokeContext.new transactionContext cache allEnabled executionBudget
    executionCost).setForbiddenSysvarDataRanges forbiddenSysvarOffsets

/-- Everything that is known when the context has been set up. -/
structure Setup where
  resolved : ResolvedTransaction
  programCache : ProgramCache
  forbiddenSysvarOffsets : List AddrRange

def Setup.startContext (s : Setup) : InvokeContext :=
  Cli.startContext s.resolved.transactionAccounts s.programCache s.forbiddenSysvarOffsets

/-- The message of the transaction on the command line. -/
def decodeTransaction (env : Environment) (cli : CliArgs) : Except CliError VersionedMessage := do
  match env.base58 cli.transaction with
  | none => .error .decodeBase58
  | some txBytes =>
      match env.deserialize txBytes with
      | none => .error .deserializeTransaction
      | some message => .ok message

/-- The first part of `main`, up to the context. -/
def setup (env : Environment) (cli : CliArgs) (replies : RpcReplies) : Outcome CliError Setup := do
  let forbiddenRanges ← Outcome.lift (parseRanges cli.forbiddenRanges)
  let message ← Outcome.lift (decodeTransaction env cli)
  let resolved ← resolveTransaction env.formats env.flags replies message
  let instructions := resolved.message.instructions.map fun ix =>
    { numAccounts := BitVec.ofNat 64 ix.accounts.length
      dataLen := BitVec.ofNat 64 ix.data.length : InstructionInfo }
  let config : DetectionConfig := ⟨cli.instructionIndex, forbiddenRanges⟩
  let forbiddenSysvarOffsets ← Outcome.mapErr .forbiddenSysvarOffsets
    (calculateForbiddenSysvarOffsets config instructions)
  let executableAccounts := resolved.transactionAccounts.filter fun a => a.2.executable
  let programCache ← Outcome.lift (buildProgramCache env executableAccounts)
  let keyedAccounts := resolved.message.accountKeys.zip resolved.fetchedAccounts
  let programCache ←
    loadUpgradeablePrograms env replies.programData programCache keyedAccounts
  let _sysvarAccounts ← fetchAccounts env.formats replies.sysvars
  Outcome.lift (env.runtimeEnvironment.mapError .runtimeEnvironment)
  return { resolved, programCache, forbiddenSysvarOffsets }

/-- Prepare one top-level instruction of a message. -/
def prepareInstruction (flags : MessageFlags) (m : SanitizedMessage)
    (instruction : CompiledInstruction) (context : InvokeContext) :
    Except InstructionError InvokeContext :=
  context.prepareNextTopLevelInstruction (flags.isSigner m) (flags.isWritable m) instruction
    instruction.programIdIndex.toNat

/-- Everything before the execution: the context in which the watched instruction is next. -/
def prepare (env : Environment) (cli : CliArgs) (replies : RpcReplies) :
    Outcome CliError InvokeContext := do
  let s ← setup env cli replies
  let compiledIx ← Outcome.okOr
    (.instructionIndexOutOfBounds cli.instructionIndex s.resolved.message.instructions.length)
    s.resolved.message.instructions[cli.instructionIndex]?
  Outcome.lift ((prepareInstruction env.flags s.resolved.message compiledIx
    s.startContext).mapError .prepareNextTopLevelInstruction)

/-! ## The verdict -/

structure Report where
  result : Except InstructionError Unit
  forbiddenAccesses : List (U64 × U64)
  deriving DecidableEq

/-- How the process ends. -/
inductive Ending where
  | error (error : CliError)
  | aborted (abort : Abort)
  | finished (report : Report)

def Ending.exitCode : Ending → Nat
  | .error _ => 1
  | .aborted _ => 101
  | .finished report => if report.forbiddenAccesses ≠ [] then 1 else 0

def main (w : World) (host : ByteMemory) (env : Environment) (cli : CliArgs)
    (replies : RpcReplies) : Ending :=
  match prepare env cli replies with
  | .error (.err error) => .error error
  | .error .panic => .aborted (.panic [])
  | .ok context =>
      match processInstruction w ⟨context, host⟩ with
      | .error abort => .aborted abort
      | .ok call => .finished ⟨call.result, call.state.context.forbiddenMemoryAccesses⟩

end Cli
end Gobble
