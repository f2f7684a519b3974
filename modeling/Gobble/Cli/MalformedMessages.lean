import Gobble.Cli.AccountList

/-!
# MalformedMessages — which decoded messages get as far as an execution

A decoded transaction is untrusted: nothing relates the indexes of its instructions to the number of
its keys, and nothing keeps a key from occurring twice.  `main` builds its message with the
constructors that do not check either, so that the next step is the first one to notice.

`prepareDecoded` is the way from a decoded message to a prepared instruction.  It is related to
`prepare`, which also parses the options and asks the node, in both directions: what `prepare`
returns has come this way, and a panic on this way is one of `prepare`.
-/

namespace Gobble
namespace Cli

open Lib Sbpf Sdk Context ProgramRuntime Detector

/-! ## The path of a message -/

/-- `LegacyMessage::new` and `SanitizedMessage::try_new`, which keep the message as it is.  A legacy
message has no lookups. -/
def sanitizeMessage (message : VersionedMessage) (loadedAddresses : LoadedAddresses) :
    SanitizedMessage :=
  match message with
  | .legacy _ => ⟨message, {}⟩
  | .v0 _ => ⟨message, loadedAddresses⟩

/-- From a decoded message to the context in which one of its instructions is next. -/
def prepareDecoded (flags : MessageFlags) (message : VersionedMessage)
    (loadedAddresses : LoadedAddresses) (fetchedAccounts : List (Option AccountSharedData))
    (programCache : ProgramCache) (forbiddenSysvarOffsets : List AddrRange)
    (instructionIndex : Nat) : Outcome CliError InvokeContext := do
  let sanitized := sanitizeMessage message loadedAddresses
  let instructionsAccount ← constructInstructionsAccount flags sanitized
  let accounts := transactionAccounts sanitized.accountKeys fetchedAccounts instructionsAccount
  let compiledIx ← Outcome.okOr
    (.instructionIndexOutOfBounds instructionIndex sanitized.instructions.length)
    sanitized.instructions[instructionIndex]?
  Outcome.lift ((prepareInstruction flags sanitized compiledIx
    (startContext accounts programCache forbiddenSysvarOffsets)).mapError
      .prepareNextTopLevelInstruction)

/-- The indexes of all instructions stand for keys. -/
def SanitizedMessage.IndexesInRange (m : SanitizedMessage) : Prop :=
  ∀ ix ∈ m.instructions, ∀ index ∈ ix.programIdIndex :: ix.accounts,
    index.toNat < m.accountKeys.length

structure SanitizedMessage.WellFormed (m : SanitizedMessage) : Prop where
  indexes : m.IndexesInRange
  keys : m.accountKeys.Nodup

/-- What should become of a message: no panic, and a value only if it is well formed. -/
def SoundFor (m : SanitizedMessage) (outcome : Outcome CliError InvokeContext) : Prop :=
  Ends (fun _ => m.WellFormed) (· ≠ .panic) outcome

/-! ## Indexes -/

section Indexes

variable {flags : MessageFlags} {m : SanitizedMessage}

theorem SanitizedMessage.IndexesInRange.of_construct {account : AccountSharedData}
    (h : constructInstructionsAccount flags m = .ok account) : m.IndexesInRange := by
  have hsysvar := constructInstructionsAccount_ok h
  intro ix hix index hindex
  rcases List.mem_cons.mp hindex with rfl | hindex
  · exact hsysvar.programs ix hix
  · exact hsysvar.accounts ix hix index hindex

theorem unwrap_ends {ε α : Type} (o : Option α) :
    Ends (fun _ => True) (· = .panic) (Outcome.unwrap o : Outcome ε α) := by
  cases o with
  | none => rfl
  | some a => trivial

/-- The construction of the sysvar has no error of its own. -/
theorem constructInstructionsAccount_panics :
    Ends (fun _ => True) (· = .panic) (constructInstructionsAccount flags m) := by
  refine (Ends.mapM fun ix _ => ?_).bind fun _ _ => trivial
  refine (unwrap_ends _).bind fun _ _ => ?_
  refine (Ends.mapM fun index _ => ?_).bind fun _ _ => trivial
  exact (unwrap_ends _).bind fun _ _ => trivial

theorem constructInstructionsAccount_eq_panic (h : ¬ m.IndexesInRange) :
    constructInstructionsAccount flags m = .error .panic := by
  cases hconstruct : constructInstructionsAccount flags m with
  | ok account => exact (h (.of_construct hconstruct)).elim
  | error fault =>
      have hpanic : Ends (fun _ => True) (· = .panic) (constructInstructionsAccount flags m) :=
        constructInstructionsAccount_panics
      rw [hconstruct] at hpanic
      rw [show fault = .panic from hpanic]

end Indexes

/-! ## Outcomes of the path -/

section Path

variable (flags : MessageFlags) (message : VersionedMessage) (loadedAddresses : LoadedAddresses)
  (fetchedAccounts : List (Option AccountSharedData)) (programCache : ProgramCache)
  (forbiddenSysvarOffsets : List AddrRange) (instructionIndex : Nat)

theorem prepareDecoded_eq_panic
    (h : ¬ (sanitizeMessage message loadedAddresses).IndexesInRange) :
    prepareDecoded flags message loadedAddresses fetchedAccounts programCache
      forbiddenSysvarOffsets instructionIndex = .error .panic := by
  unfold prepareDecoded
  dsimp only
  rw [constructInstructionsAccount_eq_panic h]
  rfl

/-- Once the indexes are in range, all that is left to fail is the index on the command line: the
preparation of an instruction looks up account indexes in a map with an entry for every byte. -/
theorem prepareDecoded_of_indexes (h : (sanitizeMessage message loadedAddresses).IndexesInRange) :
    (∃ context, prepareDecoded flags message loadedAddresses fetchedAccounts programCache
        forbiddenSysvarOffsets instructionIndex = .ok context ∧
      instructionIndex < (sanitizeMessage message loadedAddresses).instructions.length) ∨
    (∃ error, prepareDecoded flags message loadedAddresses fetchedAccounts programCache
        forbiddenSysvarOffsets instructionIndex = .error (.err error) ∧
      (sanitizeMessage message loadedAddresses).instructions.length ≤ instructionIndex) := by
  obtain ⟨account, haccount⟩ : ∃ account, constructInstructionsAccount flags
      (sanitizeMessage message loadedAddresses) = .ok account :=
    constructInstructionsAccount_ends h
  unfold prepareDecoded
  dsimp only
  rw [haccount]
  rcases Nat.lt_or_ge instructionIndex
    (sanitizeMessage message loadedAddresses).instructions.length with hlt | hge
  · left
    rw [List.getElem?_eq_getElem hlt]
    exact ⟨_, rfl, hlt⟩
  · right
    rw [List.getElem?_eq_none hge]
    exact ⟨_, rfl, hge⟩

/-- **Malformed messages.**  A message is rejected without a panic or well formed exactly if its
indexes are in range and, unless there is no instruction at the requested index, its keys are
distinct. -/
theorem malformed_message_rejected_iff :
    SoundFor (sanitizeMessage message loadedAddresses)
        (prepareDecoded flags message loadedAddresses fetchedAccounts programCache
          forbiddenSysvarOffsets instructionIndex) ↔
      (sanitizeMessage message loadedAddresses).IndexesInRange ∧
        ((sanitizeMessage message loadedAddresses).accountKeys.Nodup ∨
          (sanitizeMessage message loadedAddresses).instructions.length ≤ instructionIndex) := by
  by_cases hindexes : (sanitizeMessage message loadedAddresses).IndexesInRange
  · rcases prepareDecoded_of_indexes flags message loadedAddresses fetchedAccounts programCache
      forbiddenSysvarOffsets instructionIndex hindexes with
      ⟨context, hprepare, hlt⟩ | ⟨error, hprepare, hge⟩
    · rw [hprepare]
      constructor
      · intro hformed
        exact ⟨hindexes, .inl hformed.keys⟩
      · rintro ⟨-, hkeys | hge⟩
        · exact ⟨hindexes, hkeys⟩
        · exact absurd hlt (Nat.not_lt.mpr hge)
    · rw [hprepare]
      constructor
      · intro _
        exact ⟨hindexes, .inr hge⟩
      · rintro - ⟨⟩
  · rw [prepareDecoded_eq_panic _ _ _ _ _ _ _ hindexes]
    constructor
    · intro hsound
      exact (hsound rfl).elim
    · rintro ⟨h, -⟩
      exact (hindexes h).elim

end Path

/-- One key for two accounts. -/
def repeatedKeys : LegacyMessage :=
  { header := ⟨1, 0, 1⟩
    accountKeys := [Vector.replicate 32 7, computeBudgetProgramId, Vector.replicate 32 7]
    instructions := [⟨1, [0, 2], [2, 64, 13, 3, 0], by decide⟩] }

/-- An instruction whose program is not among the accounts. -/
def missingProgram : LegacyMessage :=
  { header := ⟨1, 0, 0⟩
    accountKeys := [Vector.replicate 32 7]
    instructions := [⟨1, [], [2, 64, 13, 3, 0], length_nil_bounded⟩] }

/-- A missing program makes the process panic, and a message with a repeated key is prepared. -/
theorem malformed_messages_get_through :
    (prepareDecoded watchSecondEnvironment.flags (.legacy missingProgram) {} [] [] [] 0 =
        .error .panic ∧
      ¬ SoundFor (sanitizeMessage (.legacy missingProgram) {})
        (prepareDecoded watchSecondEnvironment.flags (.legacy missingProgram) {} [] [] [] 0)) ∧
    (∃ context, prepareDecoded watchSecondEnvironment.flags (.legacy repeatedKeys) {} [] [] [] 0 =
        .ok context) ∧
      ¬ SoundFor (sanitizeMessage (.legacy repeatedKeys) {})
        (prepareDecoded watchSecondEnvironment.flags (.legacy repeatedKeys) {} [] [] [] 0) := by
  have hpanic : prepareDecoded watchSecondEnvironment.flags (.legacy missingProgram) {} [] [] [] 0 =
      .error .panic := rfl
  refine ⟨⟨hpanic, fun hsound => ?_⟩, ⟨_, rfl⟩, fun hsound => ?_⟩
  · rw [hpanic] at hsound
    exact hsound rfl
  · have hkeys : (sanitizeMessage (.legacy repeatedKeys) {}).accountKeys.Nodup := hsound.keys
    exact absurd hkeys (by decide +kernel)

/-! ## The path is that of `prepare` -/

theorem resolveMessage_eq_sanitizeMessage {formats : TextFormats} {replies : RpcReplies}
    {message : VersionedMessage} {m : SanitizedMessage}
    (h : resolveMessage formats replies message = .ok m) :
    ∃ loadedAddresses, m = sanitizeMessage message loadedAddresses := by
  cases message with
  | legacy l =>
      cases h
      exact ⟨{}, rfl⟩
  | v0 v =>
      obtain ⟨loaded, -, h⟩ := bind_eq_ok h
      cases h
      exact ⟨loaded, rfl⟩

/-- What `prepare` returns has been prepared from the decoded message on this path. -/
theorem prepareDecoded_of_prepare {env : Environment} {cli : CliArgs} {replies : RpcReplies}
    {context : InvokeContext} (h : prepare env cli replies = .ok context) :
    ∃ message loadedAddresses fetchedAccounts programCache forbiddenSysvarOffsets,
      prepareDecoded env.flags message loadedAddresses fetchedAccounts programCache
        forbiddenSysvarOffsets cli.instructionIndex = .ok context := by
  obtain ⟨s, hsetup, h⟩ := bind_eq_ok h
  obtain ⟨ix, hix, h⟩ := bind_eq_ok h
  obtain ⟨message, ht⟩ := setup_ok hsetup
  obtain ⟨loadedAddresses, hsanitized⟩ := resolveMessage_eq_sanitizeMessage ht.message
  refine ⟨message, loadedAddresses, s.resolved.fetchedAccounts, s.programCache,
    s.forbiddenSysvarOffsets, ?_⟩
  have hinstructions := ht.instructions
  rw [hsanitized] at hinstructions hix h
  unfold prepareDecoded
  dsimp only
  rw [hinstructions]
  simp only [Bind.bind, Except.bind, hix]
  rw [← h, Setup.startContext, ht.accounts, hsanitized]

/-- A panic on the path is one of `prepare` if the options, the text of the transaction and the
answers of the node are right. -/
theorem prepare_eq_panic {env : Environment} {cli : CliArgs} {replies : RpcReplies}
    {ranges : List AddrRange} {message : VersionedMessage} {m : SanitizedMessage}
    {fetched : List (Option AccountSharedData)}
    (hranges : parseRanges cli.forbiddenRanges = .ok ranges)
    (hmessage : decodeTransaction env cli = .ok message)
    (hresolve : resolveMessage env.formats replies message = .ok m)
    (hfetch : fetchAccounts env.formats replies.accounts = .ok fetched)
    (hindexes : ¬ m.IndexesInRange) : prepare env cli replies = .error .panic := by
  have hresolved : resolveTransaction env.formats env.flags replies message = .error .panic := by
    unfold resolveTransaction
    rw [hresolve, hfetch]
    simp only [Bind.bind, Except.bind, constructInstructionsAccount_eq_panic hindexes]
  unfold prepare setup
  rw [hranges, hmessage]
  simp only [Bind.bind, Except.bind, Outcome.lift, hresolved]

end Cli
end Gobble
