import Gobble.Context.Accounts
import Gobble.Detector.SysvarOffsets
import Gobble.Lib.Outcome

/-!
# Rpc — accounts from the answer of an RPC node

Model of `fetch_accounts` in `gobble/src/main.rs`, of the JSON values it reads (`serde_json::Value`)
and of the errors of the command line tool.  An answer is an arbitrary JSON value: nothing ties it to
the request.
-/

namespace Gobble
namespace Cli

open Lib Sbpf Sdk Context

/-! ## JSON values -/

inductive JsonNumber where
  | posInt (n : U64)
  | negInt (n : Int)
  | float (text : String)

inductive Json where
  | null
  | bool (b : Bool)
  | number (n : JsonNumber)
  | string (s : String)
  | array (values : List Json)
  | object (fields : List (String × Json))

namespace Json

def get (v : Json) (key : String) : Option Json :=
  match v with
  | .object fields => fields.lookup key
  | _ => none

/-- `v[key]`: what is not there is null. -/
def index (v : Json) (key : String) : Json :=
  (v.get key).getD .null

def isNull : Json → Bool
  | .null => true
  | _ => false

def asArray : Json → Option (List Json)
  | .array values => some values
  | _ => none

def asU64 : Json → Option U64
  | .number (.posInt n) => some n
  | _ => none

def asStr : Json → Option String
  | .string s => some s
  | _ => none

def asBool : Json → Option Bool
  | .bool b => some b
  | _ => none

end Json

/-! ## Errors -/

/-- The errors that the tool reports, by their outermost context, with what their texts mention. -/
inductive CliError where
  | invalidRangeFormat (range : String)
  | invalidRangeStart (part : String)
  | invalidRangeEnd (part : String)
  | decodeBase58
  | deserializeTransaction
  | rpcRequest
  | rpcResponse
  | rpcError (error : Json)
  | invalidResponseFormat
  | missingAccountData
  | decodeAccountData
  | lookupTableNotFound (table : Pubkey)
  | writableIndexOutOfBounds (table : Pubkey) (index : UInt8) (addresses : Nat)
  | readonlyIndexOutOfBounds (table : Pubkey) (index : UInt8) (addresses : Nat)
  | forbiddenSysvarOffsets (error : Detector.DetectorError)
  | programRuntimeEnvironment (error : String)
  | runtimeEnvironment (error : String)
  | instructionIndexOutOfBounds (index instructions : Nat)
  | prepareNextTopLevelInstruction (error : InstructionError)

/-! ## Fetching accounts -/

/-- The text formats that the tool decodes. -/
structure TextFormats where
  base64 : String → Option (List UInt8)
  /-- `str::parse::<Pubkey>`. -/
  pubkey : String → Option Pubkey

/-- What comes back for a request. -/
inductive RpcReply where
  /-- The request failed. -/
  | failed
  /-- The body of the response is not JSON. -/
  | notJson
  | json (response : Json)

/-- `AccountSharedData::default()`. -/
def defaultAccount : AccountSharedData :=
  { lamports := 0, data := [], owner := systemProgramId, executable := false, rentEpoch := 0 }

/-- One element of the array of accounts.  An empty data array is indexed at 0. -/
def parseAccount (formats : TextFormats) (accountValue : Json) :
    Outcome CliError (Option AccountSharedData) := do
  if accountValue.isNull then
    return none
  let lamports := (accountValue.index "lamports").asU64.getD 0
  let owner :=
    (formats.pubkey ((accountValue.index "owner").asStr.getD "")).getD systemProgramId
  let executable := (accountValue.index "executable").asBool.getD false
  let rentEpoch := (accountValue.index "rentEpoch").asU64.getD 0
  let dataArr ← Outcome.okOr .missingAccountData (accountValue.index "data").asArray
  let encoded ← Outcome.unwrap dataArr[0]?
  let data ← Outcome.okOr .decodeAccountData (formats.base64 (encoded.asStr.getD ""))
  return some { lamports, data, owner, executable, rentEpoch }

/-- The array of accounts in a reply. -/
def accountValues : RpcReply → Except CliError (List Json)
  | .failed => .error .rpcRequest
  | .notJson => .error .rpcResponse
  | .json response =>
      match response.get "error" with
      | some error => .error (.rpcError error)
      | none =>
          match ((response.index "result").index "value").asArray with
          | none => .error .invalidResponseFormat
          | some values => .ok values

/-- The accounts that the node sent in reply to a request for some keys. -/
def fetchAccounts (formats : TextFormats) (reply : RpcReply) :
    Outcome CliError (List (Option AccountSharedData)) := do
  let values ← Outcome.lift (accountValues reply)
  values.mapM (parseAccount formats)

end Cli
end Gobble
