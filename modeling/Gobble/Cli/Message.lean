import Gobble.Cli.Rpc
import Gobble.ProgramRuntime.InvokeContext

/-!
# Message — the accounts of a decoded message

Model of `parse_alt_addresses`, `resolve_address_lookups`, `construct_instructions_account` and the
account resolution of `main` in `gobble/src/main.rs`.  Keys and answers are paired by position
through `zip`.

What the message crate says about signers and writable accounts is a parameter; nothing in this
module depends on it except the flags in the instructions sysvar.
-/

namespace Gobble
namespace Cli

open Lib Sbpf Sdk Context ProgramRuntime

/-! ## Messages -/

structure MessageHeader where
  numRequiredSignatures : UInt8
  numReadonlySignedAccounts : UInt8
  numReadonlyUnsignedAccounts : UInt8
  deriving DecidableEq

structure LegacyMessage where
  header : MessageHeader
  accountKeys : List Pubkey
  instructions : List CompiledInstruction
  deriving DecidableEq

structure MessageAddressTableLookup where
  accountKey : Pubkey
  writableIndexes : List UInt8
  readonlyIndexes : List UInt8
  deriving DecidableEq

structure V0Message where
  header : MessageHeader
  accountKeys : List Pubkey
  instructions : List CompiledInstruction
  addressTableLookups : List MessageAddressTableLookup
  deriving DecidableEq

inductive VersionedMessage where
  | legacy (message : LegacyMessage)
  | v0 (message : V0Message)
  deriving DecidableEq

structure LoadedAddresses where
  writable : List Pubkey := []
  readonly : List Pubkey := []
  deriving DecidableEq

namespace VersionedMessage

def header : VersionedMessage → MessageHeader
  | .legacy m => m.header
  | .v0 m => m.header

def staticAccountKeys : VersionedMessage → List Pubkey
  | .legacy m => m.accountKeys
  | .v0 m => m.accountKeys

def instructions : VersionedMessage → List CompiledInstruction
  | .legacy m => m.instructions
  | .v0 m => m.instructions

def addressTableLookups : VersionedMessage → List MessageAddressTableLookup
  | .legacy _ => []
  | .v0 m => m.addressTableLookups

end VersionedMessage

/-- A message with its loaded addresses.  The constructors of the message crate do not look at the
instructions. -/
structure SanitizedMessage where
  message : VersionedMessage
  loadedAddresses : LoadedAddresses
  deriving DecidableEq

/-- What the message crate says about the account at an index. -/
structure MessageFlags where
  isSigner : SanitizedMessage → Nat → Bool
  isWritable : SanitizedMessage → Nat → Bool

namespace SanitizedMessage

def instructions (m : SanitizedMessage) : List CompiledInstruction := m.message.instructions

/-- The keys in the message, then the loaded ones. -/
def accountKeys (m : SanitizedMessage) : List Pubkey :=
  m.message.staticAccountKeys ++ m.loadedAddresses.writable ++ m.loadedAddresses.readonly

end SanitizedMessage

/-! ## Address lookup tables -/

/-- Size of the metadata in front of the addresses. -/
def altMetaSize : Nat := 56

/-- Parse an address lookup table account's data to extract the stored addresses. -/
def parseAltAddresses (data : List UInt8) : List Pubkey :=
  if data.length < altMetaSize then
    []
  else
    let addressesData := data.drop altMetaSize
    (List.range (addressesData.length / 32)).map fun i =>
      pubkeyOfBytes ((addressesData.drop (32 * i)).take 32)

/-- The loops over the indexes of a lookup. -/
def pushAddresses (addresses : List Pubkey) (outOfBounds : UInt8 → CliError) :
    List UInt8 → List Pubkey → Outcome CliError (List Pubkey)
  | [], pushed => .ok pushed
  | idx :: rest, pushed =>
      match addresses[idx.toNat]? with
      | none => Outcome.err (outOfBounds idx)
      | some addr => pushAddresses addresses outOfBounds rest (pushed ++ [addr])

/-- One lookup and the account that was fetched for it. -/
def resolveLookup (loaded : LoadedAddresses)
    (entry : MessageAddressTableLookup × Option AccountSharedData) :
    Outcome CliError LoadedAddresses := do
  let (lookup, maybeAccount) := entry
  let account ← Outcome.okOr (.lookupTableNotFound lookup.accountKey) maybeAccount
  let addresses := parseAltAddresses account.data
  let writable ← pushAddresses addresses
    (fun idx => .writableIndexOutOfBounds lookup.accountKey idx addresses.length)
    lookup.writableIndexes loaded.writable
  let readonly ← pushAddresses addresses
    (fun idx => .readonlyIndexOutOfBounds lookup.accountKey idx addresses.length)
    lookup.readonlyIndexes loaded.readonly
  return { writable, readonly }

/-- Resolve V0 message address lookup tables by fetching ALT accounts from RPC. -/
def resolveAddressLookups (formats : TextFormats) (reply : RpcReply) (message : V0Message) :
    Outcome CliError LoadedAddresses := do
  if message.addressTableLookups = [] then
    return {}
  let altAccounts ← fetchAccounts formats reply
  (message.addressTableLookups.zip altAccounts).foldlM resolveLookup {}

/-! ## The instructions sysvar -/

/-- An instruction with the keys that its indexes stand for. -/
def decompileInstruction (flags : MessageFlags) (m : SanitizedMessage)
    (instruction : CompiledInstruction) : Outcome CliError BorrowedInstruction := do
  let programId ← Outcome.unwrap m.accountKeys[instruction.programIdIndex.toNat]?
  let accounts ← instruction.accounts.mapM fun accountIndex => do
    let pubkey ← Outcome.unwrap m.accountKeys[accountIndex.toNat]?
    return {
      isSigner := flags.isSigner m accountIndex.toNat
      isWritable := flags.isWritable m accountIndex.toNat
      pubkey }
  return { accounts, data := instruction.data, programId }

/-- Construct the instructions sysvar account data from a sanitized message. -/
def constructInstructionsAccount (flags : MessageFlags) (m : SanitizedMessage) :
    Outcome CliError AccountSharedData := do
  let decompiledInstructions ← m.instructions.mapM (decompileInstruction flags m)
  return { defaultAccount with
    data := constructInstructionsData decompiledInstructions
    owner := sysvarId }

/-! ## The accounts of the transaction -/

/-- The account for a key. -/
def transactionAccount (instructionsAccount : AccountSharedData) (key : Pubkey)
    (maybeAccount : Option AccountSharedData) : AccountSharedData :=
  if key = instructionsSysvarId then instructionsAccount else maybeAccount.getD defaultAccount

def transactionAccounts (keys : List Pubkey) (fetchedAccounts : List (Option AccountSharedData))
    (instructionsAccount : AccountSharedData) : List (Pubkey × AccountSharedData) :=
  (keys.zip fetchedAccounts).map fun (key, maybeAccount) =>
    (key, transactionAccount instructionsAccount key maybeAccount)

/-- The replies to the four requests of a run. -/
structure RpcReplies where
  lookupTables : RpcReply
  accounts : RpcReply
  programData : RpcReply
  sysvars : RpcReply

/-- Resolve the account keys of a message. -/
def resolveMessage (formats : TextFormats) (replies : RpcReplies) (message : VersionedMessage) :
    Outcome CliError SanitizedMessage :=
  match message with
  | .legacy _ => .ok ⟨message, {}⟩
  | .v0 m => do
      let loadedAddresses ← resolveAddressLookups formats replies.lookupTables m
      return ⟨message, loadedAddresses⟩

/-- A message whose accounts have been fetched. -/
structure ResolvedTransaction where
  message : SanitizedMessage
  fetchedAccounts : List (Option AccountSharedData)
  instructionsAccount : AccountSharedData
  transactionAccounts : List (Pubkey × AccountSharedData)

/-- From the message to the list of the transaction's accounts. -/
def resolveTransaction (formats : TextFormats) (flags : MessageFlags) (replies : RpcReplies)
    (message : VersionedMessage) : Outcome CliError ResolvedTransaction := do
  let sanitized ← resolveMessage formats replies message
  let fetchedAccounts ← fetchAccounts formats replies.accounts
  let instructionsAccount ← constructInstructionsAccount flags sanitized
  return {
    message := sanitized
    fetchedAccounts
    instructionsAccount
    transactionAccounts :=
      transactionAccounts sanitized.accountKeys fetchedAccounts instructionsAccount }

end Cli
end Gobble
