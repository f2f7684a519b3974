import Gobble.Cli.Start

/-!
# AccountList — the accounts of the simulated transaction

Keys and answers of the node are paired by position, and the pairing stops at the shorter side.  The
addresses of the lookup tables and the list of accounts are what the message asks for if and only if
the node has answered for every key; otherwise the tool goes on with a shorter list.
-/

namespace Gobble
namespace Cli

open Lib Sbpf Sdk Context ProgramRuntime Detector

/-! ## What the message asks for -/

/-- The array of accounts in a reply, if there is one. -/
def RpcReply.accountArray (reply : RpcReply) : List Json :=
  (accountValues reply).toOption.getD []

/-- The account that the node sent for the key at position `k`. -/
def AccountAt (formats : TextFormats) (reply : RpcReply) (k : Nat)
    (maybeAccount : Option AccountSharedData) : Prop :=
  ∃ value, reply.accountArray[k]? = some value ∧ parseAccount formats value = .ok maybeAccount

/-- The key at `index` of a lookup table: 32 bytes behind the header. -/
def tableKey (table : AccountSharedData) (index : UInt8) : Option Pubkey :=
  if altMetaSize + 32 * (index.toNat + 1) ≤ table.data.length then
    some (pubkeyOfBytes ((table.data.drop (altMetaSize + 32 * index.toNat)).take 32))
  else
    none

/-- The addresses of some lookups, each in its own table. -/
structure LoadedFrom (lookups : List MessageAddressTableLookup) (tables : List AccountSharedData)
    (loaded : LoadedAddresses) : Prop where
  writable : loaded.writable.map some =
    (lookups.zip tables).flatMap fun (lookup, table) => lookup.writableIndexes.map (tableKey table)
  readonly : loaded.readonly.map some =
    (lookups.zip tables).flatMap fun (lookup, table) => lookup.readonlyIndexes.map (tableKey table)

/-- The accounts are those that the message asks for, in its order. -/
structure ResolvedTransaction.Faithful (formats : TextFormats) (flags : MessageFlags)
    (replies : RpcReplies) (message : VersionedMessage) (t : ResolvedTransaction) : Prop where
  source : t.message.message = message
  /-- No lookup is left out, and no index. -/
  loaded : ∃ tables, tables.length = message.addressTableLookups.length ∧
    (∀ (k : Nat) table, tables[k]? = some table →
      AccountAt formats replies.lookupTables k (some table)) ∧
    LoadedFrom message.addressTableLookups tables t.message.loadedAddresses
  sysvar : constructInstructionsAccount flags t.message = .ok t.instructionsAccount
  length : t.transactionAccounts.length = t.message.accountKeys.length
  accounts : ∀ (k : Nat) key, t.message.accountKeys[k]? = some key →
    ∃ maybeAccount, AccountAt formats replies.accounts k maybeAccount ∧
      t.transactionAccounts[k]? =
        some (key, transactionAccount t.instructionsAccount key maybeAccount)
  /-- What an instruction refers to is there. -/
  indexes : ∀ ix ∈ message.instructions, ∀ index ∈ ix.programIdIndex :: ix.accounts,
    ∃ key account, t.message.accountKeys[index.toNat]? = some key ∧
      t.transactionAccounts[index.toNat]? = some (key, account)

/-! ## What the node has to answer -/

/-- The number of keys of a message: its own, and one for each index of a lookup. -/
def VersionedMessage.keyCount (message : VersionedMessage) : Nat :=
  message.staticAccountKeys.length +
    (message.addressTableLookups.map fun lookup => lookup.writableIndexes.length).sum +
    (message.addressTableLookups.map fun lookup => lookup.readonlyIndexes.length).sum

/-- An account whose data array has no element, which the tool indexes at 0. -/
def Json.lacksData (value : Json) : Prop :=
  value.isNull = false ∧ (value.index "data").asArray = some []

/-- There is an answer for every key, no account lacks its data, and the instructions refer to keys
of the message. -/
structure AnswersComplete (replies : RpcReplies) (message : VersionedMessage) : Prop where
  tables : message.addressTableLookups ≠ [] →
    message.addressTableLookups.length ≤ replies.lookupTables.accountArray.length
  accounts : message.keyCount ≤ replies.accounts.accountArray.length
  tableData : message.addressTableLookups ≠ [] →
    ∀ value ∈ replies.lookupTables.accountArray, ¬ value.lacksData
  accountData : ∀ value ∈ replies.accounts.accountArray, ¬ value.lacksData
  indexes : ∀ ix ∈ message.instructions, ∀ index ∈ ix.programIdIndex :: ix.accounts,
    index.toNat < message.keyCount

/-! ## Fetching -/

section Fetch

variable {formats : TextFormats} {reply : RpcReply}

theorem accountValues_eq_ok {values : List Json} (h : accountValues reply = .ok values) :
    reply.accountArray = values := by
  rw [RpcReply.accountArray, h]
  rfl

/-- Every element of the array has been parsed. -/
theorem fetchAccounts_ok {fetched : List (Option AccountSharedData)}
    (h : fetchAccounts formats reply = .ok fetched) :
    fetched.length = reply.accountArray.length ∧
      ∀ (k : Nat) maybeAccount, fetched[k]? = some maybeAccount →
        AccountAt formats reply k maybeAccount := by
  obtain ⟨values, hvalues, h⟩ := bind_eq_ok h
  rw [accountValues_eq_ok (Outcome.lift_eq_ok.mp hvalues)]
  refine ⟨length_of_mapM_eq_ok h, ?_⟩
  intro k maybeAccount hk
  have hget := getElem?_of_mapM_eq_ok h k
  rw [hk, Option.map_some, Option.map_eq_some_iff] at hget
  obtain ⟨value, hvalue, hparse⟩ := hget
  refine ⟨value, ?_, hparse⟩
  rw [accountValues_eq_ok (Outcome.lift_eq_ok.mp hvalues)]
  exact hvalue

theorem parseAccount_lacksData {value : Json} (h : value.lacksData) :
    parseAccount formats value = .error .panic := by
  unfold parseAccount
  rw [h.1, h.2]
  rfl

theorem err_ends {ε α : Type} {P : α → Prop} (e : ε) :
    Ends P (· ≠ .panic) (Outcome.err e : Outcome ε α) := by
  intro h
  cases h

theorem okOr_ends {ε α : Type} (e : ε) (o : Option α) :
    Ends (fun a => o = some a) (· ≠ .panic) (Outcome.okOr e o) := by
  cases o with
  | none => exact err_ends e
  | some a => rfl

theorem parseAccount_ends {value : Json} (h : ¬ value.lacksData) :
    Ends (fun _ => True) (· ≠ .panic) (parseAccount formats value) := by
  unfold parseAccount
  split
  · trivial
  · rename_i hnull
    refine (okOr_ends _ _).bind fun dataArr hdata => ?_
    cases dataArr with
    | nil => exact (h ⟨by simpa using hnull, hdata⟩).elim
    | cons encoded rest => exact (okOr_ends _ _).bind fun _ _ => trivial

theorem fetchAccounts_ends (h : ∀ value ∈ reply.accountArray, ¬ value.lacksData) :
    Ends (fun fetched => fetchAccounts formats reply = .ok fetched) (· ≠ .panic)
      (fetchAccounts formats reply) := by
  have hends : Ends (fun _ => True) (· ≠ .panic) (fetchAccounts formats reply) := by
    unfold fetchAccounts
    cases hvalues : accountValues reply with
    | error e => exact err_ends e
    | ok values =>
        rw [accountValues_eq_ok hvalues] at h
        exact Ends.mapM fun value hvalue => parseAccount_ends (h value hvalue)
  cases hfetch : fetchAccounts formats reply with
  | ok fetched => rfl
  | error fault =>
      rw [hfetch] at hends
      exact hends

end Fetch

/-! ## Lookup tables -/

theorem getElem?_parseAltAddresses (table : AccountSharedData) (index : UInt8) :
    (parseAltAddresses table.data)[index.toNat]? = tableKey table index := by
  unfold parseAltAddresses tableKey
  split
  · rw [if_neg (by omega)]
    rfl
  · dsimp only
    rw [List.getElem?_map, List.length_drop]
    split
    · rw [List.getElem?_range (by omega), Option.map_some, List.drop_drop]
    · rw [List.getElem?_eq_none (by rw [List.length_range]; omega), Option.map_none]

section Lookups

variable {addresses pushed pushed' : List Pubkey} {outOfBounds : UInt8 → CliError}

theorem pushAddresses_ok {indexes : List UInt8}
    (h : pushAddresses addresses outOfBounds indexes pushed = .ok pushed') :
    pushed'.map some = pushed.map some ++ indexes.map fun idx => addresses[idx.toNat]? := by
  induction indexes generalizing pushed with
  | nil =>
      cases h
      simp
  | cons idx rest ih =>
      unfold pushAddresses at h
      split at h
      · cases h
      · rename_i addr haddr
        rw [ih h, List.map_append, List.append_assoc, List.map_cons (l := rest), haddr]
        rfl

theorem pushAddresses_ends (indexes : List UInt8) :
    Ends (fun _ => True) (· ≠ .panic) (pushAddresses addresses outOfBounds indexes pushed) := by
  induction indexes generalizing pushed with
  | nil => trivial
  | cons idx rest ih =>
      unfold pushAddresses
      split
      · exact err_ends _
      · exact ih

theorem resolveLookup_ends (loaded : LoadedAddresses)
    (entry : MessageAddressTableLookup × Option AccountSharedData) :
    Ends (fun _ => True) (· ≠ .panic) (resolveLookup loaded entry) := by
  unfold resolveLookup
  refine (okOr_ends _ _).bind fun account _ => ?_
  refine (pushAddresses_ends _).bind fun writable _ => ?_
  exact (pushAddresses_ends _).bind fun readonly _ => trivial

theorem resolveLookup_ok {loaded loaded' : LoadedAddresses} {lookup : MessageAddressTableLookup}
    {maybeAccount : Option AccountSharedData}
    (h : resolveLookup loaded (lookup, maybeAccount) = .ok loaded') :
    ∃ table, maybeAccount = some table ∧
      loaded'.writable.map some =
        loaded.writable.map some ++ lookup.writableIndexes.map (tableKey table) ∧
      loaded'.readonly.map some =
        loaded.readonly.map some ++ lookup.readonlyIndexes.map (tableKey table) := by
  obtain ⟨table, htable, h⟩ := bind_eq_ok h
  obtain ⟨writable, hwritable, h⟩ := bind_eq_ok h
  obtain ⟨readonly, hreadonly, h⟩ := bind_eq_ok h
  cases h
  have hwritable := pushAddresses_ok hwritable
  have hreadonly := pushAddresses_ok hreadonly
  simp only [getElem?_parseAltAddresses] at hwritable hreadonly
  exact ⟨table, Outcome.okOr_eq_ok.mp htable, hwritable, hreadonly⟩

/-- The loop goes on as long as there are both a lookup and an answer. -/
theorem foldlM_resolveLookup_ok {lookups : List MessageAddressTableLookup}
    {fetched : List (Option AccountSharedData)} {loaded loaded' : LoadedAddresses}
    (h : (lookups.zip fetched).foldlM resolveLookup loaded = .ok loaded') :
    ∃ tables, tables.length = min lookups.length fetched.length ∧
      (∀ (k : Nat) table, tables[k]? = some table → fetched[k]? = some (some table)) ∧
      loaded'.writable.map some = loaded.writable.map some ++
        (lookups.zip tables).flatMap (fun (lookup, table) =>
          lookup.writableIndexes.map (tableKey table)) ∧
      loaded'.readonly.map some = loaded.readonly.map some ++
        (lookups.zip tables).flatMap (fun (lookup, table) =>
          lookup.readonlyIndexes.map (tableKey table)) := by
  induction lookups generalizing fetched loaded with
  | nil =>
      cases h
      exact ⟨[], by simp⟩
  | cons lookup lookups ih =>
      cases fetched with
      | nil =>
          cases h
          exact ⟨[], by simp⟩
      | cons maybeAccount fetched =>
          rw [List.zip_cons_cons, List.foldlM_cons] at h
          obtain ⟨next, hnext, hrest⟩ := bind_eq_ok h
          obtain ⟨table, rfl, hwritable, hreadonly⟩ := resolveLookup_ok hnext
          obtain ⟨tables, hlen, hfetched, hrestWritable, hrestReadonly⟩ := ih hrest
          refine ⟨table :: tables, ?_, ?_, ?_, ?_⟩
          · simp only [List.length_cons, hlen]
            omega
          · intro k other hother
            cases k with
            | zero =>
                cases hother
                rfl
            | succ k => exact hfetched k other hother
          · rw [hrestWritable, hwritable, List.zip_cons_cons, List.flatMap_cons,
              List.append_assoc]
          · rw [hrestReadonly, hreadonly, List.zip_cons_cons, List.flatMap_cons,
              List.append_assoc]

/-- A lookup contributes as many addresses as it has indexes. -/
theorem length_flatMap_tables {lookups : List MessageAddressTableLookup}
    {tables : List AccountSharedData} (hlen : tables.length = lookups.length)
    (indexes : MessageAddressTableLookup → List UInt8) :
    ((lookups.zip tables).flatMap fun (lookup, table) =>
        (indexes lookup).map (tableKey table)).length =
      (lookups.map fun lookup => (indexes lookup).length).sum := by
  rw [List.length_flatMap]
  simp only [List.length_map]
  congr 1
  calc ((lookups.zip tables).map fun entry => (indexes entry.1).length)
      = ((lookups.zip tables).map Prod.fst).map fun lookup => (indexes lookup).length := by
        rw [List.map_map]
        rfl
    _ = lookups.map fun lookup => (indexes lookup).length := by
        rw [List.map_fst_zip hlen.ge]

end Lookups

/-! ## The message -/

section Message

variable {formats : TextFormats} {flags : MessageFlags} {replies : RpcReplies}
  {message : VersionedMessage}

/-- What has been resolved, as far as the node has answered. -/
structure SanitizedMessage.Resolves (formats : TextFormats) (replies : RpcReplies)
    (message : VersionedMessage) (m : SanitizedMessage) : Prop where
  source : m.message = message
  fetched : message.addressTableLookups ≠ [] →
    ∃ fetched, fetchAccounts formats replies.lookupTables = .ok fetched
  loaded : ∃ tables,
    (message.addressTableLookups ≠ [] → tables.length =
      min message.addressTableLookups.length replies.lookupTables.accountArray.length) ∧
    (∀ (k : Nat) table, tables[k]? = some table →
      AccountAt formats replies.lookupTables k (some table)) ∧
    LoadedFrom message.addressTableLookups tables m.loadedAddresses

theorem resolveMessage_ok {m : SanitizedMessage}
    (h : resolveMessage formats replies message = .ok m) : m.Resolves formats replies message := by
  cases message with
  | legacy legacyMessage =>
      cases h
      exact ⟨rfl, fun hne => (hne rfl).elim, [], fun hne => (hne rfl).elim, by simp, rfl, rfl⟩
  | v0 v0Message =>
      obtain ⟨loaded, hloaded, h⟩ := bind_eq_ok h
      cases h
      unfold resolveAddressLookups at hloaded
      split at hloaded
      · rename_i hempty
        cases hloaded
        refine ⟨rfl, fun hne => (hne hempty).elim, [], fun hne => (hne hempty).elim, by simp, ?_, ?_⟩
        · simp
        · simp
      · obtain ⟨fetched, hfetched, hloaded⟩ := bind_eq_ok hloaded
        obtain ⟨hlen, hat⟩ := fetchAccounts_ok hfetched
        obtain ⟨tables, htables, hget, hwritable, hreadonly⟩ := foldlM_resolveLookup_ok hloaded
        refine ⟨rfl, fun _ => ⟨fetched, hfetched⟩, tables, fun _ => ?_, ?_, ?_, ?_⟩
        · rw [htables, hlen]
          rfl
        · intro k table htable
          exact hat k _ (hget k table htable)
        · exact hwritable
        · exact hreadonly

/-- All keys of the message are there if every lookup has its table. -/
theorem length_accountKeys {m : SanitizedMessage} (hsource : m.message = message)
    {tables : List AccountSharedData} (hlen : tables.length = message.addressTableLookups.length)
    (hloaded : LoadedFrom message.addressTableLookups tables m.loadedAddresses) :
    m.accountKeys.length = message.keyCount := by
  have hwritable := congrArg List.length hloaded.writable
  have hreadonly := congrArg List.length hloaded.readonly
  rw [List.length_map, length_flatMap_tables hlen MessageAddressTableLookup.writableIndexes]
    at hwritable
  rw [List.length_map, length_flatMap_tables hlen MessageAddressTableLookup.readonlyIndexes]
    at hreadonly
  rw [SanitizedMessage.accountKeys, List.length_append, List.length_append, hwritable, hreadonly,
    hsource]
  rfl

theorem resolveMessage_ends (hcomplete : AnswersComplete replies message) :
    Ends (fun m => resolveMessage formats replies message = .ok m) (· ≠ .panic)
      (resolveMessage formats replies message) := by
  have hends : Ends (fun _ => True) (· ≠ .panic) (resolveMessage formats replies message) := by
    cases message with
    | legacy legacyMessage => trivial
    | v0 v0Message =>
        have hlookups : Ends (fun _ => True) (· ≠ .panic)
            (resolveAddressLookups formats replies.lookupTables v0Message) := by
          unfold resolveAddressLookups
          split
          · trivial
          · rename_i hne
            refine (fetchAccounts_ends (hcomplete.tableData hne)).bind fun fetched _ => ?_
            exact Ends.foldlM (fun loaded entry _ => resolveLookup_ends loaded entry) _ trivial
        exact hlookups.bind fun _ _ => trivial
  cases hresolve : resolveMessage formats replies message with
  | ok m => rfl
  | error fault =>
      rw [hresolve] at hends
      exact hends

/-- If the answers are complete then every lookup has its table. -/
theorem SanitizedMessage.Resolves.complete {m : SanitizedMessage}
    (h : m.Resolves formats replies message) (hcomplete : AnswersComplete replies message) :
    ∃ tables, tables.length = message.addressTableLookups.length ∧
      (∀ (k : Nat) table, tables[k]? = some table →
        AccountAt formats replies.lookupTables k (some table)) ∧
      LoadedFrom message.addressTableLookups tables m.loadedAddresses := by
  obtain ⟨tables, hlen, hat, hloaded⟩ := h.loaded
  by_cases hempty : message.addressTableLookups = []
  · -- Without lookups nothing has been loaded.
    rw [hempty] at hloaded ⊢
    exact ⟨[], rfl, by simp, by simpa using hloaded.writable, by simpa using hloaded.readonly⟩
  · refine ⟨tables, ?_, hat, hloaded⟩
    rw [hlen hempty]
    exact Nat.min_eq_left (hcomplete.tables hempty)

/-- Nothing but an index out of range stops the construction of the sysvar. -/
theorem constructInstructionsAccount_ends {m : SanitizedMessage}
    (hindexes : ∀ ix ∈ m.instructions, ∀ index ∈ ix.programIdIndex :: ix.accounts,
      index.toNat < m.accountKeys.length) :
    ∃ account, constructInstructionsAccount flags m = .ok account := by
  have hends : Ends (fun _ => True) (fun _ => False) (constructInstructionsAccount flags m) := by
    have hunwrap : ∀ index : UInt8, index.toNat < m.accountKeys.length →
        Ends (fun _ => True) (fun _ => False)
          (Outcome.unwrap m.accountKeys[index.toNat]? : Outcome CliError Pubkey) := by
      intro index hlt
      rw [List.getElem?_eq_getElem hlt]
      trivial
    refine (Ends.mapM fun ix hix => ?_).bind fun _ _ => trivial
    refine (hunwrap _ (hindexes ix hix _ List.mem_cons_self)).bind fun _ _ => ?_
    refine (Ends.mapM fun index hindex => ?_).bind fun _ _ => trivial
    exact (hunwrap index (hindexes ix hix _ (List.mem_cons_of_mem _ hindex))).bind
      fun _ _ => trivial
  cases hconstruct : constructInstructionsAccount flags m with
  | ok account => exact ⟨account, rfl⟩
  | error fault =>
      rw [hconstruct] at hends
      exact hends.elim

theorem faithful_of_complete {t : ResolvedTransaction}
    (ht : t.Consistent formats flags replies message)
    (hcomplete : AnswersComplete replies message) : t.Faithful formats flags replies message := by
  have hresolves := resolveMessage_ok ht.message
  obtain ⟨tables, hlen, hat, hloaded⟩ := hresolves.complete hcomplete
  have hcount := length_accountKeys hresolves.source hlen hloaded
  obtain ⟨hfetchedLen, hfetched⟩ := fetchAccounts_ok ht.fetched
  have hanswered : t.message.accountKeys.length ≤ t.fetchedAccounts.length := by
    rw [hcount, hfetchedLen]
    exact hcomplete.accounts
  have haccounts : ∀ (k : Nat) key, t.message.accountKeys[k]? = some key →
      ∃ maybeAccount, AccountAt formats replies.accounts k maybeAccount ∧
        t.transactionAccounts[k]? =
          some (key, transactionAccount t.instructionsAccount key maybeAccount) := by
    intro k key hkey
    have hlt := (List.getElem?_eq_some_iff.mp hkey).1
    have hget := List.getElem?_eq_getElem (Nat.lt_of_lt_of_le hlt hanswered)
    refine ⟨_, hfetched k _ hget, ?_⟩
    rw [ht.accounts, getElem?_transactionAccounts, hkey, hget]
  refine ⟨hresolves.source, ⟨tables, hlen, hat, hloaded⟩, ht.instructions, ?_, haccounts, ?_⟩
  · rw [ht.accounts, transactionAccounts, List.length_map, List.length_zip]
    exact Nat.min_eq_left hanswered
  · intro ix hix index hindex
    have hlt : index.toNat < t.message.accountKeys.length := by
      rw [hcount]
      exact hcomplete.indexes ix hix index hindex
    have hkey := List.getElem?_eq_getElem hlt
    obtain ⟨maybeAccount, -, hentry⟩ := haccounts _ _ hkey
    exact ⟨_, _, hkey, hentry⟩

theorem not_lacksData_of_fetchAccounts {reply : RpcReply}
    {fetched : List (Option AccountSharedData)} (h : fetchAccounts formats reply = .ok fetched) :
    ∀ value ∈ reply.accountArray, ¬ value.lacksData := by
  intro value hvalue hlacks
  obtain ⟨hlen, hat⟩ := fetchAccounts_ok h
  obtain ⟨k, hk⟩ := List.getElem?_of_mem hvalue
  have hlt : k < fetched.length := by
    rw [hlen]
    exact (List.getElem?_eq_some_iff.mp hk).1
  obtain ⟨value', hvalue', hparse⟩ := hat k _ (List.getElem?_eq_getElem hlt)
  rw [hk] at hvalue'
  cases hvalue'
  rw [parseAccount_lacksData hlacks] at hparse
  cases hparse

/-- Positions that all have an answer are no more than there are answers. -/
theorem length_le_of_accountAt {α : Type} {l : List α} {reply : RpcReply}
    (h : ∀ (k : Nat) a, l[k]? = some a → ∃ maybeAccount, AccountAt formats reply k maybeAccount) :
    l.length ≤ reply.accountArray.length := by
  by_contra hgt
  have hlt : reply.accountArray.length < l.length := Nat.lt_of_not_le hgt
  obtain ⟨-, value, hvalue, -⟩ := h _ _ (List.getElem?_eq_getElem hlt)
  rw [List.getElem?_eq_none (Nat.le_refl _)] at hvalue
  cases hvalue

theorem complete_of_faithful {t : ResolvedTransaction}
    (ht : t.Consistent formats flags replies message)
    (hfaithful : t.Faithful formats flags replies message) :
    AnswersComplete replies message := by
  have hresolves := resolveMessage_ok ht.message
  obtain ⟨tables, hlen, hat, hloaded⟩ := hfaithful.loaded
  have hcount := length_accountKeys hfaithful.source hlen hloaded
  have hsysvar := constructInstructionsAccount_ok ht.instructions
  have hinstructions : t.message.instructions = message.instructions := by
    rw [SanitizedMessage.instructions, hfaithful.source]
  refine ⟨fun _ => ?_, ?_, fun hne => ?_, not_lacksData_of_fetchAccounts ht.fetched, ?_⟩
  · rw [← hlen]
    exact length_le_of_accountAt fun k table htable => ⟨_, hat k table htable⟩
  · have haccounts : ∀ (k : Nat) key, t.message.accountKeys[k]? = some key →
        ∃ maybeAccount, AccountAt formats replies.accounts k maybeAccount := by
      intro k key hkey
      obtain ⟨maybeAccount, haccount, -⟩ := hfaithful.accounts k key hkey
      exact ⟨maybeAccount, haccount⟩
    rw [← hcount]
    exact length_le_of_accountAt haccounts
  · obtain ⟨fetched, hfetched⟩ := hresolves.fetched hne
    exact not_lacksData_of_fetchAccounts hfetched
  · intro ix hix index hindex
    rw [← hinstructions] at hix
    rw [← hcount]
    rcases List.mem_cons.mp hindex with rfl | hindex
    · exact hsysvar.programs ix hix
    · exact hsysvar.accounts ix hix index hindex

/-- With complete answers, a resolution that returns no error returns a transaction. -/
theorem resolveTransaction_of_complete (hcomplete : AnswersComplete replies message)
    (hreturns : ∀ e, resolveTransaction formats flags replies message ≠ .error (.err e)) :
    ∃ t, resolveTransaction formats flags replies message = .ok t := by
  have hends : Ends (fun _ => True) (· ≠ .panic)
      (resolveTransaction formats flags replies message) := by
    refine (resolveMessage_ends hcomplete).bind fun m hm => ?_
    refine (fetchAccounts_ends hcomplete.accountData).bind fun fetched _ => ?_
    have hresolves := resolveMessage_ok hm
    obtain ⟨tables, hlen, -, hloaded⟩ := hresolves.complete hcomplete
    obtain ⟨account, haccount⟩ : ∃ account, constructInstructionsAccount flags m = .ok account := by
      apply constructInstructionsAccount_ends
      rw [length_accountKeys hresolves.source hlen hloaded, SanitizedMessage.instructions,
        hresolves.source]
      exact hcomplete.indexes
    rw [haccount]
    trivial
  cases hresolve : resolveTransaction formats flags replies message with
  | ok t => exact ⟨t, rfl⟩
  | error fault =>
      rw [hresolve] at hends
      cases fault with
      | panic => exact (hends rfl).elim
      | err e => exact (hreturns e hresolve).elim

end Message

/-! ## The tool -/

/-- An error of the resolution is an error of the tool. -/
theorem main_error_of_resolveTransaction (w : World) (host : ByteMemory) {env : Environment}
    {cli : CliArgs} {replies : RpcReplies} {message : VersionedMessage} {e : CliError}
    (hmessage : decodeTransaction env cli = .ok message)
    (h : resolveTransaction env.formats env.flags replies message = .error (.err e)) :
    ∃ e', main w host env cli replies = .error e' := by
  have hsetup : ∃ e', setup env cli replies = .error (.err e') := by
    unfold setup
    rw [hmessage]
    cases parseRanges cli.forbiddenRanges with
    | error e' => exact ⟨e', rfl⟩
    | ok ranges =>
        refine ⟨e, ?_⟩
        simp only [Outcome.lift, Bind.bind, Except.bind, h]
  obtain ⟨e', hsetup⟩ := hsetup
  refine ⟨e', ?_⟩
  simp only [main, prepare, hsetup, Bind.bind, Except.bind]

/-- If the tool returns no error, then its list of accounts is the one that the message asks for if
and only if the answers are complete. -/
theorem account_list_faithful_iff (w : World) (host : ByteMemory) (env : Environment) (cli : CliArgs)
    (replies : RpcReplies) {message : VersionedMessage}
    (hmessage : decodeTransaction env cli = .ok message)
    (hreturns : ∀ e, main w host env cli replies ≠ .error e) :
    (∃ t, resolveTransaction env.formats env.flags replies message = .ok t ∧
        t.Faithful env.formats env.flags replies message) ↔ AnswersComplete replies message := by
  constructor
  · rintro ⟨t, ht, hfaithful⟩
    exact complete_of_faithful (resolveTransaction_ok ht) hfaithful
  · intro hcomplete
    have hresolves : ∀ e,
        resolveTransaction env.formats env.flags replies message ≠ .error (.err e) := by
      intro e he
      obtain ⟨e', hmain⟩ := main_error_of_resolveTransaction w host hmessage he
      exact hreturns e' hmain
    obtain ⟨t, ht⟩ := resolveTransaction_of_complete hcomplete hresolves
    exact ⟨t, ht, faithful_of_complete (resolveTransaction_ok ht) hcomplete⟩

/-! ## An answer that is too short -/

/-- The node has answered for the payer and the program, and not for the sysvar. -/
def shortReplies : RpcReplies :=
  repliesOf [.null, accountJson "NativeLoader1111111111111111111111111111111" true ""]

/-- The tool finishes with a clean verdict, and the third account of the message is missing from its
list. -/
theorem short_answer_loses_accounts :
    decodeTransaction watchSecondEnvironment watchSecond = .ok (.legacy twoLimits) ∧
      (main (worldRunning fun _ => .pure (.ok 0)) (fun _ => 0) watchSecondEnvironment watchSecond
        shortReplies).exitCode = 0 ∧
      ¬ ∃ t, resolveTransaction watchSecondEnvironment.formats watchSecondEnvironment.flags
          shortReplies (.legacy twoLimits) = .ok t ∧
        t.Faithful watchSecondEnvironment.formats watchSecondEnvironment.flags shortReplies
          (.legacy twoLimits) := by
  refine ⟨decodeTransaction_environmentOf watchSecond twoLimits _, by decide +kernel, ?_⟩
  rintro ⟨t, ht, hfaithful⟩
  have hlengths : (resolveTransaction watchSecondEnvironment.formats watchSecondEnvironment.flags
      shortReplies (.legacy twoLimits)).toOption.map (fun t =>
        (t.transactionAccounts.length, t.message.accountKeys.length)) = some (2, 3) := by
    decide +kernel
  rw [ht] at hlengths
  have hpair := Option.some.inj hlengths
  have hlength := hfaithful.length
  rw [Prod.mk.injEq] at hpair
  rw [hpair.1, hpair.2] at hlength
  cases hlength

theorem watchSecondReplies_complete : AnswersComplete watchSecondReplies (.legacy twoLimits) where
  tables := fun hne => (hne rfl).elim
  accounts := by decide +kernel
  tableData := fun hne => (hne rfl).elim
  accountData := by
    intro value hvalue hlacks
    have hmem : value ∈ [Json.null,
        accountJson "NativeLoader1111111111111111111111111111111" true "", Json.null] := hvalue
    rcases List.mem_cons.mp hmem with rfl | hmem
    · cases hlacks.1
    · rcases List.mem_cons.mp hmem with rfl | hmem
      · cases hlacks.2
      · rw [List.mem_singleton.mp hmem] at hlacks
        cases hlacks.1
  indexes := by decide +kernel

/-- With an answer for every key, the same transaction is resolved. -/
theorem account_list_faithful_iff_second :
    ∃ t, resolveTransaction watchSecondEnvironment.formats watchSecondEnvironment.flags
        watchSecondReplies (.legacy twoLimits) = .ok t ∧
      t.Faithful watchSecondEnvironment.formats watchSecondEnvironment.flags watchSecondReplies
        (.legacy twoLimits) := by
  have hexit : (main (worldRunning fun _ => .pure (.ok 0)) (fun _ => 0) watchSecondEnvironment
      watchSecond watchSecondReplies).exitCode = 0 := by
    decide +kernel
  refine (account_list_faithful_iff (worldRunning fun _ => .pure (.ok 0)) (fun _ => 0)
    watchSecondEnvironment watchSecond watchSecondReplies
    (decodeTransaction_environmentOf watchSecond twoLimits _) ?_).mpr watchSecondReplies_complete
  intro e he
  rw [he] at hexit
  cases hexit

end Cli
end Gobble
