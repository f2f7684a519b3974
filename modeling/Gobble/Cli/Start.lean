import Gobble.Cli.Main
import Gobble.ProgramRuntime.Progress

/-!
# Start — the state in which an execution starts

What is known about the accounts and the context once `setup` has succeeded: the accounts are the
message's keys as far as the node has answered, the instructions sysvar is well formed, and nothing
has been executed.
-/

namespace Gobble
namespace Cli

open Lib Sbpf Sdk Context ProgramRuntime Detector

/-! ## Resolved transactions -/

/-- The parts of a resolved transaction. -/
structure ResolvedTransaction.Consistent (formats : TextFormats) (flags : MessageFlags)
    (replies : RpcReplies) (message : VersionedMessage) (t : ResolvedTransaction) : Prop where
  message : resolveMessage formats replies message = .ok t.message
  fetched : fetchAccounts formats replies.accounts = .ok t.fetchedAccounts
  instructions : constructInstructionsAccount flags t.message = .ok t.instructionsAccount
  accounts : t.transactionAccounts =
    Cli.transactionAccounts t.message.accountKeys t.fetchedAccounts t.instructionsAccount

theorem resolveTransaction_ok {formats : TextFormats} {flags : MessageFlags} {replies : RpcReplies}
    {message : VersionedMessage} {t : ResolvedTransaction}
    (h : resolveTransaction formats flags replies message = .ok t) :
    t.Consistent formats flags replies message := by
  obtain ⟨sanitized, hmessage, h⟩ := bind_eq_ok h
  obtain ⟨fetched, hfetched, h⟩ := bind_eq_ok h
  obtain ⟨account, haccount, h⟩ := bind_eq_ok h
  cases h
  exact ⟨hmessage, hfetched, haccount, rfl⟩

theorem setup_ok {env : Environment} {cli : CliArgs} {replies : RpcReplies} {s : Setup}
    (h : setup env cli replies = .ok s) :
    ∃ message, s.resolved.Consistent env.formats env.flags replies message := by
  obtain ⟨ranges, -, h⟩ := bind_eq_ok h
  obtain ⟨message, -, h⟩ := bind_eq_ok h
  obtain ⟨resolved, hresolved, h⟩ := bind_eq_ok h
  obtain ⟨offsets, -, h⟩ := bind_eq_ok h
  obtain ⟨cache, -, h⟩ := bind_eq_ok h
  obtain ⟨cache', -, h⟩ := bind_eq_ok h
  obtain ⟨sysvars, -, h⟩ := bind_eq_ok h
  obtain ⟨_, -, h⟩ := bind_eq_ok h
  cases h
  exact ⟨message, resolveTransaction_ok hresolved⟩

/-- The keys are those of the message, as far as there are answers. -/
theorem transactionAccounts_keys (keys : List Pubkey) (fetched : List (Option AccountSharedData))
    (instructionsAccount : AccountSharedData) :
    (transactionAccounts keys fetched instructionsAccount).map Prod.fst =
      keys.take fetched.length := by
  induction keys generalizing fetched with
  | nil => simp [transactionAccounts]
  | cons key keys ih =>
      cases fetched with
      | nil => rfl
      | cons maybeAccount fetched =>
          have hrest := ih fetched
          simp only [transactionAccounts, List.zip_cons_cons, List.map_cons, List.length_cons,
            List.take_succ_cons] at hrest ⊢
          rw [hrest]

theorem getElem?_transactionAccounts (keys : List Pubkey)
    (fetched : List (Option AccountSharedData)) (instructionsAccount : AccountSharedData)
    (k : Nat) :
    (transactionAccounts keys fetched instructionsAccount)[k]? =
      match keys[k]?, fetched[k]? with
      | some key, some maybeAccount =>
          some (key, transactionAccount instructionsAccount key maybeAccount)
      | _, _ => none := by
  simp only [transactionAccounts, List.getElem?_map, List.zip, List.getElem?_zipWith]
  cases keys[k]? with
  | none => rfl
  | some key => cases fetched[k]? <;> rfl

/-- An instructions sysvar that could be constructed. -/
structure WellFormedSysvar (m : SanitizedMessage) (account : AccountSharedData) : Prop where
  owner : account.owner = sysvarId
  /-- There is room for the current index. -/
  index : 2 ≤ account.data.length
  programs : ∀ ix ∈ m.instructions, ix.programIdIndex.toNat < m.accountKeys.length
  accounts : ∀ ix ∈ m.instructions, ∀ index ∈ ix.accounts, index.toNat < m.accountKeys.length

theorem lt_of_unwrap {ε α : Type} {l : List α} {i : Nat} {a : α}
    (h : (Outcome.unwrap l[i]? : Outcome ε α) = .ok a) : i < l.length :=
  (List.getElem?_eq_some_iff.mp (Outcome.unwrap_eq_ok.mp h)).1

theorem constructInstructionsAccount_ok {flags : MessageFlags} {m : SanitizedMessage}
    {account : AccountSharedData} (h : constructInstructionsAccount flags m = .ok account) :
    WellFormedSysvar m account := by
  obtain ⟨decompiled, hdecompiled, h⟩ := bind_eq_ok h
  cases h
  refine ⟨rfl, ?_, fun ix hix => ?_, fun ix hix index hindex => ?_⟩
  · simp [constructInstructionsData]
  · obtain ⟨b, hb⟩ := ok_of_mapM_eq_ok hdecompiled hix
    obtain ⟨programId, hprogram, -⟩ := bind_eq_ok hb
    exact lt_of_unwrap hprogram
  · obtain ⟨b, hb⟩ := ok_of_mapM_eq_ok hdecompiled hix
    obtain ⟨programId, -, hb⟩ := bind_eq_ok hb
    obtain ⟨accounts, haccounts, -⟩ := bind_eq_ok hb
    obtain ⟨accountMeta, hmeta⟩ := ok_of_mapM_eq_ok haccounts hindex
    obtain ⟨pubkey, hpubkey, -⟩ := bind_eq_ok hmeta
    exact lt_of_unwrap hpubkey

/-! ## The first instruction of a context -/

/-- The context in which an instruction is the first one to be executed. -/
def firstContext (flags : MessageFlags) (m : SanitizedMessage) (ix : CompiledInstruction)
    (start : InvokeContext) : InvokeContext :=
  let callee := ix.accounts.foldl (CalleeAccounts.addTopLevel (flags.isSigner m)
    (flags.isWritable m)) ⟨emptyCalleeMap, []⟩
  { start with
    transactionContext :=
      { start.transactionContext with
        instructionTrace := [{ programAccountIndexInTx := ix.programIdIndex.toNat }]
        deduplicationMaps := [callee.calleeMap]
        instructionAccounts := [callee.accounts]
        instructionData := [ix.data] } }

theorem prepareInstruction_startContext (flags : MessageFlags) (m : SanitizedMessage)
    (ix : CompiledInstruction) (accounts : List (Pubkey × AccountSharedData))
    (cache : ProgramCache) (offsets : List AddrRange) :
    prepareInstruction flags m ix (startContext accounts cache offsets) =
      .ok (firstContext flags m ix (startContext accounts cache offsets)) :=
  rfl

/-- The instructions sysvar of the transaction is well formed wherever it occurs. -/
theorem ResolvedTransaction.Consistent.sysvar {formats : TextFormats} {flags : MessageFlags}
    {replies : RpcReplies} {message : VersionedMessage} {t : ResolvedTransaction}
    (h : t.Consistent formats flags replies message) {index : Nat} {account : AccountSharedData}
    (hget : t.transactionAccounts[index]? = some (instructionsSysvarId, account)) :
    account = t.instructionsAccount := by
  rw [h.accounts, getElem?_transactionAccounts] at hget
  split at hget
  · obtain ⟨rfl, rfl⟩ := Prod.mk.inj (Option.some.inj hget)
    simp [transactionAccount]
  · cases hget

theorem findIndexOfAccount_eq_some {tx : TransactionContext} {key : Pubkey}
    {index : IndexOfAccount} (h : tx.findIndexOfAccount key = some index) :
    ∃ account, tx.accounts.accounts[index]? = some (key, account) := by
  obtain ⟨hlt, hkey, -⟩ := List.findIdx?_eq_some_iff_getElem.mp h
  have hlen : index < tx.accounts.accounts.length := by
    simpa [TransactionAccounts.accountKeys] using hlt
  refine ⟨(tx.accounts.accounts[index]).2, ?_⟩
  have hfst : (tx.accounts.accounts[index]).1 = key := by
    simpa [TransactionAccounts.accountKeys] using hkey
  rw [List.getElem?_eq_getElem hlen, ← hfst]

/-- The view of the instruction that is about to be executed. -/
def firstView (flags : MessageFlags) (m : SanitizedMessage) (ix : CompiledInstruction)
    (start : InvokeContext) : InstructionContext :=
  let callee := ix.accounts.foldl (CalleeAccounts.addTopLevel (flags.isSigner m)
    (flags.isWritable m)) ⟨emptyCalleeMap, []⟩
  { transactionContext := (firstContext flags m ix start).transactionContext
    indexInTrace := 0
    nestingLevel := 0
    programAccountIndexInTx := ix.programIdIndex.toNat
    instructionAccounts := callee.accounts
    dedupMap := callee.calleeMap
    instructionData := ix.data }

section First

variable (flags : MessageFlags) (m : SanitizedMessage) (ix : CompiledInstruction)
  (accounts : List (Pubkey × AccountSharedData)) (cache : ProgramCache) (offsets : List AddrRange)

theorem firstView_getProgramKey :
    (firstView flags m ix (startContext accounts cache offsets)).getProgramKey =
      match accounts[ix.programIdIndex.toNat]? with
      | some entry => .ok entry.1
      | none => .error .missingAccount := by
  have hindex : ix.programIdIndex.toNat ≠ noIndex := by
    have := ix.programIdIndex.toNat_lt
    unfold noIndex
    omega
  have hkey : (firstView flags m ix (startContext accounts cache offsets)).getProgramKey =
      (firstContext flags m ix (startContext accounts cache
        offsets)).transactionContext.getKeyOfAccountAtIndex ix.programIdIndex.toNat := by
    simp [InstructionContext.getProgramKey,
      InstructionContext.getIndexOfProgramAccountInTransaction, firstView, hindex, Bind.bind,
      Except.bind]
  rw [hkey]
  have haccount : (firstContext flags m ix (startContext accounts cache
      offsets)).transactionContext.accounts.accountKey ix.programIdIndex.toNat =
        accounts[ix.programIdIndex.toNat]?.map Prod.fst := rfl
  unfold TransactionContext.getKeyOfAccountAtIndex
  rw [haccount]
  cases accounts[ix.programIdIndex.toNat]? <;> rfl

/-- With an empty stack there is nothing to check before the frame is pushed but the program. -/
theorem firstContext_push :
    (firstContext flags m ix (startContext accounts cache offsets)).push =
      match accounts[ix.programIdIndex.toNat]? with
      | none => (.error .unsupportedProgramId,
          firstContext flags m ix (startContext accounts cache offsets))
      | some _ =>
          let c := firstContext flags m ix (startContext accounts cache offsets)
          (c.transactionContext.push.1,
            { c with
              syscallContext := c.syscallContext ++ [none]
              transactionContext := c.transactionContext.push.2 }) := by
  have hview : (firstContext flags m ix (startContext accounts cache
      offsets)).transactionContext.getNextInstructionContext =
      .ok (firstView flags m ix (startContext accounts cache offsets)) := rfl
  have hkey := firstView_getProgramKey flags m ix accounts cache offsets
  unfold InvokeContext.push
  dsimp only
  rw [hview]
  dsimp only
  rw [hkey]
  cases accounts[ix.programIdIndex.toNat]? with
  | none => rfl
  | some entry => rfl

end First

/-- The first instruction is entered if its program is one of the accounts. -/
theorem firstContext_push_ok {formats : TextFormats} {flags : MessageFlags} {replies : RpcReplies}
    {message : VersionedMessage} {t : ResolvedTransaction}
    (ht : t.Consistent formats flags replies message) (ix : CompiledInstruction)
    (cache : ProgramCache) (offsets : List AddrRange)
    (hprogram : ix.programIdIndex.toNat < t.transactionAccounts.length) :
    (firstContext flags t.message ix (startContext t.transactionAccounts cache offsets)).push.1 =
      .ok () := by
  have hsysvar := constructInstructionsAccount_ok ht.instructions
  rw [firstContext_push, List.getElem?_eq_getElem hprogram]
  -- The stack and the trace are long enough, so all that is left is to store the index.
  refine (TransactionContext.storeTopLevelIndex_ok_iff _).mpr fun index hfind => ?_
  obtain ⟨account, hget⟩ := findIndexOfAccount_eq_some hfind
  have haccount := ht.sysvar hget
  subst haccount
  refine ⟨t.instructionsAccount, ?_, hsysvar.owner, hsysvar.index⟩
  unfold TransactionAccounts.tryBorrow
  rw [hget]

/-- What `prepare` returns after a successful `setup`. -/
theorem prepare_ok {env : Environment} {cli : CliArgs} {replies : RpcReplies} {s : Setup}
    {ix : CompiledInstruction} (hsetup : setup env cli replies = .ok s)
    (hix : s.resolved.message.instructions[cli.instructionIndex]? = some ix) :
    prepare env cli replies =
      .ok (firstContext env.flags s.resolved.message ix s.startContext) := by
  unfold prepare
  rw [hsetup]
  simp only [Bind.bind, Except.bind, hix]
  rfl

/-! ## Concrete runs

What the decoders and the node say on inputs that are written out in full. -/

/-- The bytes of a legacy transaction without signatures, if its lists are short. -/
def LegacyMessage.transactionBytes (m : LegacyMessage) : List UInt8 :=
  let listLen := fun n : Nat => [UInt8.ofNat n]
  let instruction := fun ix : CompiledInstruction =>
    [ix.programIdIndex] ++ listLen ix.accounts.length ++ ix.accounts ++ listLen ix.data.length ++
      ix.data
  [0, m.header.numRequiredSignatures, m.header.numReadonlySignedAccounts,
      m.header.numReadonlyUnsignedAccounts] ++
    listLen m.accountKeys.length ++ m.accountKeys.flatMap Vector.toList ++ List.replicate 32 0 ++
    listLen m.instructions.length ++ m.instructions.flatMap instruction

/-- The decoders on the text of one transaction, with one signer that pays and read-only accounts
otherwise; `load` is what the loader makes of a program file. -/
def environmentOf (transaction : String) (m : LegacyMessage) (load : List UInt8 → Option Nat) :
    Environment where
  formats :=
    { base64 := fun s => [("", []), ("AA==", [0])].lookup s
      pubkey := fun s => [("NativeLoader1111111111111111111111111111111", nativeLoaderId),
        ("BPFLoader2111111111111111111111111111111111", bpfLoaderId)].lookup s }
  base58 := fun s => if s = transaction then some m.transactionBytes else none
  deserialize := fun bytes => if bytes = m.transactionBytes then some (.legacy m) else none
  flags := { isSigner := fun _ index => index == 0, isWritable := fun _ index => index == 0 }
  runtimeEnvironment := .ok ()
  loadProgram := fun _ elf => load elf

theorem decodeTransaction_environmentOf (cli : CliArgs) (m : LegacyMessage)
    (load : List UInt8 → Option Nat) :
    decodeTransaction (environmentOf cli.transaction m load) cli = .ok (.legacy m) := by
  simp [decodeTransaction, environmentOf]

def accountJson (owner : String) (executable : Bool) (data : String) : Json :=
  .object
    [("lamports", .number (.posInt 1)), ("owner", .string owner), ("executable", .bool executable),
      ("rentEpoch", .number (.posInt 0)), ("data", .array [.string data, .string "base64"])]

def replyOf (accounts : List Json) : RpcReply :=
  .json (.object [("jsonrpc", .string "2.0"), ("result", .object [("value", .array accounts)])])

/-- The replies if there are no lookup tables and no upgradeable programs. -/
def repliesOf (accounts : List Json) : RpcReplies where
  lookupTables := .failed
  accounts := replyOf accounts
  programData := .failed
  sysvars := replyOf (List.replicate 9 .null)

/-- One program with the given code, and builtins that do nothing but charge 150 compute units, as the
compute budget program does. -/
def worldRunning (code : U64 → VmCode) : World where
  executable := fun _ =>
    { config := {}
      sbpfVersion := .v0
      roRegion := MemoryRegion.newReadonly 0x1000 0x100 mmBytecodeStart
      code }
  native := fun _ => .perform (.basic (.consume 150)) fun _ => .pure (.ok 0)
  upgradeableLoader := .pure (.ok 0)
  loaderV4 := .pure (.ok 0)
  allocate := fun _ =>
    { storage :=
        { bufferAddr := 0x10000
          dataAddr := fun index => BitVec.ofNat 64 (0x1000000 * (index + 1))
          isShared := fun _ => false }
      stackAddr := 0x100000
      heapAddr := 0x200000 }
  statusError := fun status => .custom status.toNat

/-- Two instructions of the compute budget program, both with the sysvar as their account. -/
def twoLimits : LegacyMessage :=
  { header := ⟨1, 0, 2⟩
    accountKeys := [Vector.replicate 32 7, computeBudgetProgramId, instructionsSysvarId]
    instructions := [⟨1, [2], [2, 64, 13, 3, 0], by decide⟩, ⟨1, [2], [2, 64, 13, 3, 0], by decide⟩] }

def watchSecond : CliArgs where
  transaction :=
    "1YPE8ytaY7q11q5hr5GKhDotBycAVJ1CaGmgKgFSuNaRTQN9MGGo9BhAKhRCuXBFp8moUWdxMET5u7SQgqz8gVEewNBE" ++
    "bAdDXoN3YUZk9GFt9ccayUd26DyA7LJGKs6DotuhTKd9zP8VCePPqo7ctcgwBv9gHbQ81jCiWErhGSYJNTTXutYEGFSX" ++
    "CKen1SXfYBjaBAiBh5qsYs"
  instructionIndex := 1
  forbiddenRanges := "0-4"

def watchSecondEnvironment : Environment :=
  environmentOf watchSecond.transaction twoLimits fun _ => none

def watchSecondReplies : RpcReplies :=
  repliesOf [.null, accountJson "NativeLoader1111111111111111111111111111111" true "", .null]

end Cli
end Gobble
