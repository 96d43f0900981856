import Llmap.Storage.Model
import Llmap.Plain
/-!
# Which tokens a store accepts

The store keeps a current credential for each account and, beside it, at
most one that was replaced. Here is what they are meant to be, said in
terms of what was done: a `Record` lists for each account the credentials
written to it, and what wrote them. A token is accepted for an account
that is enabled when it is the current credential's and has not expired,
or when the last write replaced a credential, the token is that one's,
and the grace the replacement gave has not run out (`Entry.Accepts`).

The tables say the same (`Recorded`), whatever sequence of operations
they come from, so that is what enforcement accepts
(`authorize_iff_accepts`).
-/

namespace Llmap

namespace Storage

open Providers Secrets Auth

/-! ## The record of what was done -/

/-- How a credential came to be current: it was placed, by an upsert, or
it replaced the one before, which stays valid until an instant. -/
inductive Origin where
  | placed
  | replacing (previousValidUntil : DateTime)
deriving DecidableEq

/-- A credential written to an account. -/
structure Write where
  credential : String
  origin : Origin
deriving DecidableEq

/-- An account that exists: what it is, the last credential written to
it, and those before, newest first, since it was created. -/
structure Entry where
  kind : ProviderKind
  enabled : Bool
  last : Write
  earlier : List Write
deriving DecidableEq

/-- The accounts that exist. -/
abbrev Record := Table String Entry

/-- What was written to an account that exists, newest first. -/
def Record.writes (record : Record) (id : String) : List Write :=
  match record[id]? with
  | none => []
  | some entry => entry.last :: entry.earlier

/-- An account is written whole. -/
def Record.written (record : Record) (account : ProviderAccount) (write : Write) : Record :=
  record.insert account.id ⟨account.kind, account.enabled, write, record.writes account.id⟩

/-- The record after an operation that wrote: one that failed, or found
nothing to replace, leaves it. -/
def Record.after [Serde] (record : Record) (result : Except StorageError Bool) : Op → Record
  | .upsert _ account credential =>
      if result = .ok true then record.written account ⟨credential, .placed⟩ else record
  | .rotate _ account credential previousValidUntil =>
      if result = .ok true then
        record.written account ⟨credential, .replacing previousValidUntil⟩
      else record
  | .replace _ candidate refreshed previousValidUntil =>
      if result = .ok true then
        record.modify candidate.account.id fun entry =>
          { entry with
            last := ⟨Serde.envelopeToString refreshed, .replacing previousValidUntil⟩
            earlier := entry.last :: entry.earlier }
      else record
  | .setEnabled accountId enabled =>
      if result = .ok true then
        record.modify accountId fun entry => { entry with enabled := enabled }
      else record
  | .delete accountId => if result = .ok true then record.erase accountId else record

/-- The credential the last write replaced, and until when it stays
valid: none if the last write placed its credential, or was the first. -/
def Entry.replaced (entry : Entry) : Option (String × DateTime) :=
  match entry.last.origin, entry.earlier with
  | .replacing previousValidUntil, write :: _ => some (write.credential, previousValidUntil)
  | _, _ => none

section Acceptance

variable [Serde]

/-- **The tokens an account accepts** at an instant. -/
def Entry.Accepts (entry : Entry) (token : String) (now : DateTime) : Prop :=
  entry.enabled = true ∧
    ((∃ expiry, decodedCredential entry.kind entry.last.credential = .ok (token, expiry) ∧
        ∀ instant, expiry = some instant → now < instant) ∨
      ∃ credential previousValidUntil expiry,
        entry.replaced = some (credential, previousValidUntil) ∧ now < previousValidUntil ∧
          decodedCredential entry.kind credential = .ok (token, expiry))

/-- A token one of an account's two credentials stands for. -/
def Entry.Holds (entry : Entry) (token : String) : Prop :=
  (∃ expiry, decodedCredential entry.kind entry.last.credential = .ok (token, expiry)) ∨
    ∃ credential previousValidUntil expiry,
      entry.replaced = some (credential, previousValidUntil) ∧
        decodedCredential entry.kind credential = .ok (token, expiry)

end Acceptance

/-! ## The tables say what the record says -/

section Recorded

variable [Serde] [Sealing] [Chrono]

/-- A history row holds a replaced credential, and until when. -/
def HistoryMatches (box : SecretBox) (id : String) :
    Option HistoryRow → Option (String × DateTime) → Prop
  | none, none => True
  | some history, some (credential, previousValidUntil) =>
      box.decrypt history.credentialCiphertext (credentialData id) = .ok credential ∧
        history.expiresAt = Chrono.toRfc3339 previousValidUntil
  | _, _ => False

/-- The rows under an id hold what the record has there. -/
def RowMatches (box : SecretBox) (id : String) :
    Option AccountRow → Option HistoryRow → Option Entry → Prop
  | none, none, none => True
  | some row, history, some entry =>
      (∃ account, Serde.accountFromStr row.accountJson = .ok account ∧ account.id = id ∧
        account.kind = entry.kind ∧ account.enabled = entry.enabled) ∧
      box.decrypt row.credentialCiphertext (credentialData id) = .ok entry.last.credential ∧
      HistoryMatches box id history entry.replaced
  | _, _, _ => False

/-- **The tables hold what the record says**, id by id. -/
def Recorded (box : SecretBox) (database : Database) (record : Record) : Prop :=
  ∀ id : String, RowMatches box id database.providerAccounts[id]?
    database.credentialHistory[id]? record[id]?

theorem recorded_empty (box : SecretBox) : Recorded box Database.empty ∅ := by
  intro id
  simp [Database.empty, RowMatches]

variable {box : SecretBox} {database : Database} {record : Record}

/-- An account that has a row has an entry, and conversely. -/
theorem Recorded.entry_of_row (h : Recorded box database record) {id : String} {row : AccountRow}
    (hrow : database.providerAccounts[id]? = some row) :
    ∃ entry : Entry, record[id]? = some entry ∧
      RowMatches box id (some row) database.credentialHistory[id]? (some entry) := by
  have hid := h id
  rw [hrow] at hid
  cases hentry : record[id]? with
  | none => simp [hentry, RowMatches] at hid
  | some entry => exact ⟨entry, rfl, hentry ▸ hid⟩

theorem Recorded.row_of_entry (h : Recorded box database record) {id : String} {entry : Entry}
    (hentry : record[id]? = some entry) :
    ∃ row : AccountRow, database.providerAccounts[id]? = some row := by
  have hid := h id
  rw [hentry] at hid
  cases hrow : database.providerAccounts[id]? with
  | none => cases hhistory : database.credentialHistory[id]? <;>
      simp [hrow, hhistory, RowMatches] at hid
  | some row => exact ⟨row, rfl⟩

theorem Recorded.absent (h : Recorded box database record) {id : String}
    (hrow : database.providerAccounts[id]? = none) :
    database.credentialHistory[id]? = none ∧ record[id]? = none := by
  have hid := h id
  rw [hrow] at hid
  cases hhistory : database.credentialHistory[id]? with
  | none =>
      cases hentry : record[id]? with
      | none => exact ⟨rfl, rfl⟩
      | some entry => simp [hhistory, hentry, RowMatches] at hid
  | some history => cases hentry : record[id]? <;> simp [hhistory, hentry, RowMatches] at hid

/-- Where an operation changes one id, the others match as they did. -/
theorem Recorded.of_ne (h : Recorded box database record) {id id' : String} (hne : id ≠ id')
    {row : Option AccountRow} {history : Option HistoryRow} {entry : Option Entry} :
    RowMatches box id' (if id = id' then row else database.providerAccounts[id']?)
      (if id = id' then history else database.credentialHistory[id']?)
      (if id = id' then entry else record[id']?) := by
  simp only [if_neg hne]
  exact h id'

variable [LawfulSerde] [LawfulSealing] [Urls]

theorem recorded_upsert (h : Recorded box database record) {nonces : WriteNonces}
    {account : ProviderAccount} {credential : String} {row : AccountRow}
    (hrow : sealedRow box nonces account credential = .ok row) :
    Recorded box (database.exec (.upsert account.id row)).1
      (record.written account ⟨credential, .placed⟩) := by
  intro id
  obtain ⟨redacted, haccount, hcredential, -⟩ := sealedRow_spec hrow
  simp only [Database.accounts_upsert, Database.history_upsert, Record.written,
    Std.ExtTreeMap.getElem?_insert, Std.LawfulEqCmp.compare_eq_iff_eq]
  by_cases hid : account.id = id
  · subst hid
    simp only [if_true]
    exact ⟨⟨_, haccount, rfl, rfl, rfl⟩, hcredential, by simp [Entry.replaced, HistoryMatches]⟩
  · exact h.of_ne hid

theorem recorded_rotate (h : Recorded box database record) {nonces : WriteNonces}
    {account : ProviderAccount} {credential : String} {row : AccountRow}
    (previousValidUntil : DateTime)
    (hrow : sealedRow box nonces account credential = .ok row) :
    Recorded box
      (database.exec (.rotate account.id row (Chrono.toRfc3339 previousValidUntil))).1
      (record.written account ⟨credential, .replacing previousValidUntil⟩) := by
  intro id
  obtain ⟨redacted, haccount, hcredential, -⟩ := sealedRow_spec hrow
  simp only [Database.accounts_rotate, Database.history_rotate, Record.written,
    Std.ExtTreeMap.getElem?_insert, Std.LawfulEqCmp.compare_eq_iff_eq]
  by_cases hid : account.id = id
  · subst hid
    simp only [if_true]
    refine ⟨⟨_, haccount, rfl, rfl, rfl⟩, hcredential, ?_⟩
    cases hprevious : database.providerAccounts[account.id]? with
    | none =>
        -- the first credential of an account replaces none
        obtain ⟨hhistory, hentry⟩ := h.absent hprevious
        simp [hhistory, Record.writes, hentry, Entry.replaced, HistoryMatches]
    | some previous =>
        obtain ⟨entry, hentry, -, hdecrypt, -⟩ := h.entry_of_row hprevious
        simpa [Record.writes, hentry, Entry.replaced, HistoryMatches] using hdecrypt
  · exact h.of_ne hid

omit [LawfulSerde] [Urls] in
theorem recorded_replace (h : Recorded box database record) {id expected ciphertext : String}
    {credential : String} {nonce : Nonce} {row : AccountRow} (previousValidUntil : DateTime)
    (hrow : database.providerAccounts[id]? = some row)
    (hcurrent : row.credentialCiphertext = expected)
    (hcipher : box.encrypt nonce credential (credentialData id) = .ok ciphertext) :
    Recorded box
      (database.exec (.replace id expected ciphertext (Chrono.toRfc3339 previousValidUntil))).1
      (record.modify id fun entry =>
        { entry with
          last := ⟨credential, .replacing previousValidUntil⟩
          earlier := entry.last :: entry.earlier }) := by
  intro id'
  rw [Database.exec_replace_of_eq database id hrow hcurrent]
  simp only [Std.ExtTreeMap.getElem?_insert, Std.ExtTreeMap.getElem?_modify,
    Std.LawfulEqCmp.compare_eq_iff_eq]
  by_cases hid : id = id'
  · subst hid
    obtain ⟨entry, hentry, haccount, hdecrypt, -⟩ := h.entry_of_row hrow
    simp only [if_true, hentry, Option.map_some]
    refine ⟨haccount, SecretBox.decrypt_of_encrypt hcipher, ?_⟩
    rw [hcurrent] at hdecrypt
    simpa [Entry.replaced, HistoryMatches] using hdecrypt
  · exact h.of_ne hid

omit [LawfulSealing] [Urls] in
theorem recorded_setEnabled (h : Recorded box database record) {id : String} {row : AccountRow}
    {account : ProviderAccount} (enabled : Bool)
    (hrow : database.providerAccounts[id]? = some row)
    (haccount : Serde.accountFromStr row.accountJson = .ok account) :
    Recorded box
      (database.exec (.updateAccountJson id
        (Serde.accountToString { account with enabled := enabled }))).1
      (record.modify id fun entry => { entry with enabled := enabled }) := by
  intro id'
  have hhistory : (database.exec (.updateAccountJson id
      (Serde.accountToString { account with enabled := enabled }))).1.credentialHistory =
        database.credentialHistory := rfl
  simp only [Database.accounts_updateAccountJson, hhistory, Std.ExtTreeMap.getElem?_modify,
    Std.LawfulEqCmp.compare_eq_iff_eq]
  by_cases hid : id = id'
  · subst hid
    obtain ⟨entry, hentry, ⟨stored, hstored, hid, hkind, -⟩, hdecrypt, hmatch⟩ :=
      h.entry_of_row hrow
    simp only [if_true, hrow, hentry, Option.map_some]
    have hsame : stored = account := Except.ok.inj (hstored.symm.trans haccount)
    subst hsame
    exact ⟨⟨_, LawfulSerde.accountFromStr_toString _, hid, hkind, rfl⟩, hdecrypt, hmatch⟩
  · simp only [if_neg hid]
    exact h id'

omit [LawfulSerde] [LawfulSealing] [Urls] in
theorem recorded_delete (h : Recorded box database record) (id : String) :
    Recorded box (database.exec (.deleteAccount id)).1
      (if id ∈ database.providerAccounts then record.erase id else record) := by
  intro id'
  rw [Database.accounts_deleteAccount, Database.history_deleteAccount]
  by_cases hpresent : id ∈ database.providerAccounts
  · simp only [hpresent, and_true, if_true, Std.ExtTreeMap.getElem?_erase,
      Std.LawfulEqCmp.compare_eq_iff_eq]
    by_cases hid : id = id'
    · simp [hid, RowMatches]
    · exact h.of_ne hid
  · simp only [hpresent, and_false, if_false]
    by_cases hid : id = id'
    · subst hid
      have hrow : database.providerAccounts[id]? = none := by simpa using hpresent
      have hmatch := h id
      rw [hrow] at hmatch
      simpa using hmatch
    · simp only [if_neg hid]
      exact h id'

/-! ## Every sequence of operations -/

/-- The tables, and the record kept beside them. -/
structure Logged where
  database : Database
  record : Record

/-- A store that has just been created. -/
def Logged.start : Logged := ⟨Database.empty, ∅⟩

/-- An operation, and its entry in the record. -/
def Logged.apply (box : SecretBox) (logged : Logged) (op : Op) : Logged where
  database := (op.apply box logged.database).1
  record := logged.record.after (op.apply box logged.database).2 op

theorem recorded_apply {logged : Logged} (h : Recorded box logged.database logged.record)
    (op : Op) :
    Recorded box (logged.apply box op).database (logged.apply box op).record := by
  simp only [Logged.apply]
  rcases apply_cases box logged.database op with ⟨hsame, hnot⟩ | ⟨s, hs, heq⟩
  · rw [hsame]
    cases op <;> simpa [Record.after, hnot] using h
  · rw [heq]
    cases hs with
    | upsert hrow => simpa [Record.after] using recorded_upsert h hrow
    | rotate hrow => simpa [Record.after] using recorded_rotate h _ hrow
    | replace hcipher hrow hcurrent =>
        simpa [Record.after] using recorded_replace h _ hrow hcurrent hcipher
    | setEnabled hrow haccount =>
        simpa [Record.after] using recorded_setEnabled h _ hrow haccount
    | @delete accountId hpresent =>
        simpa [Record.after, hpresent] using recorded_delete h accountId

/-- The tables hold what the record says after every sequence of
operations. -/
theorem recorded_run (box : SecretBox) (ops : List Op) :
    Recorded box (Run.final (Logged.apply box) Logged.start ops).database
      (Run.final (Logged.apply box) Logged.start ops).record :=
  Run.final_induct_of_step (I := fun logged : Logged => Recorded box logged.database logged.record)
    (fun _ op h => recorded_apply h op) (recorded_empty box)

/-! ## The snapshot -/

variable [Digests] {authenticator : Authenticator}

/-- Distinct tokens the account holds have distinct digests, as far as
the token presented is concerned. -/
def Entry.Distinguishes (entry : Entry) (authenticator : Authenticator) (token : String) : Prop :=
  ∀ held, entry.Holds held → authenticator.digest token = authenticator.digest held → token = held

omit [LawfulSerde] [LawfulSealing] [Urls] in
/-- What the history row adds to the snapshot is the credential the last
write replaced, while it is valid. -/
theorem withHistory_spec [LawfulChrono] {id : String} {account : ProviderAccount}
    {credential entered : AccountCredential} {history : HistoryRow} {replaced : String}
    {previousValidUntil now : DateTime} (hid : account.id = id)
    (hmatch : HistoryMatches box id (some history) (some (replaced, previousValidUntil)))
    (h : withHistory box authenticator now account credential history = .ok entered) :
    (previousValidUntil ≤ now ∧ entered = credential) ∨
      now < previousValidUntil ∧ ∃ token expiry,
        decodedCredential account.kind replaced = .ok (token, expiry) ∧
          entered = credential.withPrevious authenticator token previousValidUntil := by
  obtain ⟨hdecrypt, hexpires⟩ := hmatch
  obtain ⟨validUntil, hparse, hcases⟩ := withHistory_eq_ok_iff.mp h
  rw [hexpires, LawfulChrono.parse_toRfc3339] at hparse
  obtain rfl : previousValidUntil = validUntil := by
    split at hparse
    · exact Option.some.inj hparse
    · cases hparse
  rcases hcases with hover | ⟨hvalid, previous, token, expiry, hopened, hdecoded, hentered⟩
  · exact .inl hover
  · rw [hid, hdecrypt] at hopened
    obtain rfl : replaced = previous := Except.ok.inj hopened
    exact .inr ⟨hvalid, token, expiry, hdecoded, hentered⟩

omit [LawfulSerde] [LawfulSealing] [Urls] in
/-- The versions an account's snapshot has beside the current one: a
digest is that of a valid one just in case it is the digest of the
replaced credential's token, in its grace. -/
theorem previous_spec [LawfulChrono] {id : String} {account : ProviderAccount}
    {credential entered : AccountCredential} {history : Option HistoryRow} {entry : Entry}
    {now : DateTime} (hid : account.id = id) (hkind : account.kind = entry.kind)
    (hmatch : HistoryMatches box id history entry.replaced) (hnone : credential.previous = [])
    (h : (match history with
      | none => Except.ok credential
      | some history => withHistory box authenticator now account credential history) =
        .ok entered) (presented : Bytes) :
    entered = { credential with previous := entered.previous } ∧
      ((∃ version ∈ entered.previous, version.notExpired now = true ∧
          presented = version.digest) ↔
        ∃ replaced previousValidUntil token expiry,
          entry.replaced = some (replaced, previousValidUntil) ∧ now < previousValidUntil ∧
            decodedCredential entry.kind replaced = .ok (token, expiry) ∧
              presented = authenticator.digest token) := by
  cases history with
  | none =>
      have hsame : credential = entered := Except.ok.inj h
      cases hreplaced : entry.replaced with
      | some replaced => simp [hreplaced, HistoryMatches] at hmatch
      | none =>
          subst hsame
          exact ⟨rfl, by simp [hnone]⟩
  | some history =>
      cases hreplaced : entry.replaced with
      | none => simp [hreplaced, HistoryMatches] at hmatch
      | some pair =>
          obtain ⟨replaced, previousValidUntil⟩ := pair
          rw [hreplaced] at hmatch
          rcases withHistory_spec hid hmatch h with ⟨hover, rfl⟩ |
            ⟨hvalid, token, expiry, hdec, rfl⟩
          · refine ⟨rfl, ?_⟩
            simp only [hnone, List.not_mem_nil, false_and, exists_false, false_iff]
            rintro ⟨replaced', until', token, expiry, heq, hlt, -⟩
            cases heq
            exact absurd hlt (not_lt_of_ge hover)
          · refine ⟨rfl, ?_⟩
            rw [hkind] at hdec
            simp only [AccountCredential.withPrevious, hnone, List.nil_append, List.mem_singleton,
              exists_eq_left]
            constructor
            · rintro ⟨-, hdigest⟩
              exact ⟨replaced, previousValidUntil, token, expiry, rfl, hvalid, hdec, hdigest⟩
            · rintro ⟨replaced', until', token', expiry', heq, hlt, hdec', hdigest⟩
              cases heq
              rw [hdec] at hdec'
              cases hdec'
              exact ⟨by simpa [notExpired_iff] using hvalid, hdigest⟩

omit [LawfulSerde] [LawfulSealing] [Urls] in
/-- **An account's entry in the snapshot** admits the tokens the record
says it accepts. -/
theorem accountCredential_spec [LawfulChrono] {id token : String} {row : AccountRow}
    {history : Option HistoryRow} {entry : Entry} {credential : AccountCredential}
    {now : DateTime} (hmatch : RowMatches box id (some row) history (some entry))
    (hdigest : entry.Distinguishes authenticator token)
    (h : accountCredential box authenticator now row history = .ok credential) :
    credential.accountId = id ∧
      (credential.admits (authenticator.digest token) now = true ↔ entry.Accepts token now) := by
  obtain ⟨⟨account, haccount, hid, hkind, henabled⟩, hdecrypt, hhistory⟩ := hmatch
  rw [← hid] at hdecrypt
  simp only [accountCredential, haccount, hdecrypt] at h
  cases hcurrent : decodedCredential account.kind entry.last.credential with
  | error error => simp [hcurrent] at h
  | ok decoded =>
      obtain ⟨currentToken, currentExpiry⟩ := decoded
      simp only [hcurrent] at h
      rw [hkind] at hcurrent
      obtain ⟨entered, hentered, hcredential⟩ := map_eq_ok_iff.mp h
      obtain ⟨hshape, hprevious⟩ :=
        previous_spec hid hkind hhistory rfl hentered (authenticator.digest token)
      -- a token is told apart from those held by its digest
      have hcur : authenticator.digest token = authenticator.digest currentToken ↔
          token = currentToken :=
        ⟨hdigest currentToken (.inl ⟨currentExpiry, hcurrent⟩), fun heq => by rw [heq]⟩
      have hactive : entered.active = true := by rw [hshape]; rfl
      have hversion : entered.current = ⟨authenticator.digest currentToken, currentExpiry⟩ := by
        rw [hshape]; rfl
      have haccountId : entered.accountId = id := by rw [hshape]; exact hid
      cases hen : account.enabled with
      | false =>
          rw [hen] at hcredential henabled
          subst hcredential
          refine ⟨haccountId, ?_⟩
          simp [admits_iff, AccountCredential.paused, Entry.Accepts, ← henabled]
      | true =>
          rw [hen] at hcredential henabled
          subst hcredential
          refine ⟨haccountId, ?_⟩
          rw [if_pos rfl, admits_iff, hprevious, hversion, notExpired_iff]
          simp only [hactive, true_and, hcur, Entry.Accepts, ← henabled, hcurrent, Except.ok.injEq,
            Prod.mk.injEq]
          constructor
          · rintro (⟨hlive, rfl⟩ |
              ⟨replaced, previousValidUntil, held, expiry, hrep, hlt, hdec, heq⟩)
            · exact .inl ⟨currentExpiry, ⟨rfl, rfl⟩, hlive⟩
            · have hheld :=
                hdigest held (.inr ⟨replaced, previousValidUntil, expiry, hrep, hdec⟩) heq
              subst hheld
              exact .inr ⟨replaced, previousValidUntil, expiry, hrep, hlt, hdec⟩
          · rintro (⟨expiry, ⟨rfl, rfl⟩, hlive⟩ |
              ⟨replaced, previousValidUntil, expiry, hrep, hlt, hdec⟩)
            · exact .inl ⟨hlive, rfl⟩
            · exact .inr ⟨replaced, previousValidUntil, token, expiry, hrep, hlt, hdec, rfl⟩

/-! ## What enforcement accepts -/

/-- The account that accepts a token, in a record: the last in the order
of the ids, if several do. -/
def Record.AcceptsFor (record : Record) (token : String) (now : DateTime) (accountId : String) :
    Prop :=
  (∃ entry, record[accountId]? = some entry ∧ entry.Accepts token now) ∧
    ∀ (id : String) (entry : Entry), record[id]? = some entry → accountId < id →
      ¬ entry.Accepts token now

omit [LawfulSerde] [LawfulSealing] [Urls] in
/-- A snapshot of tables that hold what a record says is enforced as the
record says. -/
theorem authorize_of_recorded [LawfulChrono] {token : String} {now : DateTime}
    {snapshot : CredentialSnapshot} (hrecorded : Recorded box database record)
    (hsnapshot : ((credentialSnapshot box authenticator now).run Database.exec database).2 =
      .ok snapshot)
    (hdigest : ∀ (id : String) (entry : Entry), record[id]? = some entry →
      entry.Distinguishes authenticator token) (decision : AuthDecision) :
    authenticator.authorize .enforce (some token) snapshot now = .ok decision ↔
      ∃ accountId, record.AcceptsFor token now accountId ∧
        decision = ⟨true, false, some accountId⟩ := by
  classical
  obtain ⟨credentials, rfl, hrows⟩ := credentialSnapshot_eq_ok_iff.mp hsnapshot
  -- row by row, the snapshot admits what the record accepts
  have hfind := map_find?_of_forall₂
    (p := fun pair => decide (∃ entry, record[pair.1]? = some entry ∧ entry.Accepts token now))
    (q := (·.admits (authenticator.digest token) now)) (f := Prod.fst) (g := (·.accountId))
    (List.forall₂_reverse_iff.mpr hrows) (by
      rintro ⟨id, row⟩ credential ⟨hrow, hcredential⟩
      obtain ⟨entry, hentry, hmatch⟩ := hrecorded.entry_of_row hrow
      obtain ⟨hid, hadmits⟩ := accountCredential_spec hmatch (hdigest id entry hentry) hcredential
      refine ⟨?_, hid.symm⟩
      rw [Bool.eq_iff_iff, hadmits, decide_eq_true_iff]
      simp [hentry])
  rw [authorize_enforce_eq_ok_iff, ← hfind]
  refine exists_congr fun accountId => and_congr_left fun _ => ?_
  simp only [Option.map_eq_some_iff, Prod.exists, exists_and_right, exists_eq_right,
    Table.find?_reverse_toList, compare_lt_iff_lt, decide_eq_true_eq, decide_eq_false_iff_not,
    Record.AcceptsFor]
  constructor
  · rintro ⟨-, haccepts, hlast⟩
    refine ⟨haccepts, fun id entry hentry hlt hacc => ?_⟩
    obtain ⟨row', hrow'⟩ := hrecorded.row_of_entry hentry
    exact hlast id row' hrow' hlt ⟨entry, hentry, hacc⟩
  · rintro ⟨⟨entry, hentry, haccepts⟩, hlast⟩
    obtain ⟨row, hrow⟩ := hrecorded.row_of_entry hentry
    refine ⟨⟨row, hrow⟩, ⟨entry, hentry, haccepts⟩, fun id row' hrow' hlt => ?_⟩
    rintro ⟨entry', hentry', hacc⟩
    exact hlast id entry' hentry' hlt hacc

omit [Sealing] [Chrono] [LawfulSerde] [LawfulSealing] [Urls] [Digests] in
/-- **At most two tokens**: the current credential's, and that of the one
it replaced. -/
theorem Entry.accepts_le_two (entry : Entry) (now : DateTime) :
    ∃ first second, ∀ token, entry.Accepts token now → token = first ∨ token = second := by
  let tokenOf (credential : String) : String :=
    match decodedCredential entry.kind credential with
    | .ok (token, _) => token
    | .error _ => ""
  have htoken : ∀ credential token expiry,
      decodedCredential entry.kind credential = .ok (token, expiry) →
        token = tokenOf credential := by
    intro credential token expiry h
    simp [tokenOf, h]
  refine ⟨tokenOf entry.last.credential, tokenOf ((entry.replaced.map Prod.fst).getD ""), ?_⟩
  rintro token ⟨-, ⟨expiry, hdecoded, -⟩ | ⟨credential, until', expiry, hreplaced, -, hdecoded⟩⟩
  · exact .inl (htoken _ token expiry hdecoded)
  · exact .inr (by simpa [hreplaced] using htoken credential token expiry hdecoded)

/-- **What a store accepts.** After any sequence of operations on an empty
store, and at any instant the snapshot can be read: a token is accepted
exactly when some account that exists and is enabled accepts it, by its
current credential or by the one the last write replaced, in its grace;
the account named is the last such in the order of the ids. And no
account accepts more than two. -/
theorem authorize_iff_accepts [LawfulChrono] {box : SecretBox} {authenticator : Authenticator}
    {ops : List Op} {token : String} {now : DateTime} {snapshot : CredentialSnapshot}
    (hsnapshot : ((credentialSnapshot box authenticator now).run Database.exec
      (Run.final (Logged.apply box) Logged.start ops).database).2 = .ok snapshot)
    (hdigest : ∀ (id : String) (entry : Entry),
      (Run.final (Logged.apply box) Logged.start ops).record[id]? = some entry →
        entry.Distinguishes authenticator token) :
    (∀ decision, authenticator.authorize .enforce (some token) snapshot now = .ok decision ↔
      ∃ accountId, (Run.final (Logged.apply box) Logged.start ops).record.AcceptsFor token now
          accountId ∧ decision = ⟨true, false, some accountId⟩) ∧
      ∀ (id : String) (entry : Entry),
        (Run.final (Logged.apply box) Logged.start ops).record[id]? = some entry →
          ∃ first second, ∀ accepted, entry.Accepts accepted now →
            accepted = first ∨ accepted = second :=
  ⟨authorize_of_recorded (recorded_run box ops) hsnapshot hdigest,
    fun _ entry _ => entry.accepts_le_two now⟩

end Recorded

section Example

open scoped Plain

/-- An account is created with one credential and rotated to another. -/
def rotatedOps : List Op :=
  [.upsert ⟨Vector.replicate 24 0, Vector.replicate 24 1⟩
      (Plain.account "a" .anthropicApiKey true) "old",
   .rotate ⟨Vector.replicate 24 2, Vector.replicate 24 3⟩
      (Plain.account "a" .claudeOauth true) "new" (minutes 10)]

/-- What is on record of it. -/
def rotatedEntry : Entry :=
  ⟨.claudeOauth, true, ⟨"new", .replacing (minutes 10)⟩, [⟨"old", .placed⟩]⟩

/-- The token a rotation replaced is accepted in its grace. -/
theorem authorize_in_grace :
    (⟨Vector.replicate 32 0⟩ : Authenticator).authorize .enforce (some "old")
      (.available [⟨"a", true, ⟨asBytes "new", none⟩, [⟨asBytes "old", some (minutes 10)⟩]⟩])
      (minutes 9) = .ok ⟨true, false, some "a"⟩ := by
  have hsnapshot : ((credentialSnapshot Plain.box ⟨Vector.replicate 32 0⟩ (minutes 9)).run
      Database.exec (Run.final (Logged.apply Plain.box) Logged.start rotatedOps).database).2 =
        .ok (.available
          [⟨"a", true, ⟨asBytes "new", none⟩, [⟨asBytes "old", some (minutes 10)⟩]⟩]) := by
    decide +kernel
  have hrecord : (Run.final (Logged.apply Plain.box) Logged.start rotatedOps).record =
      (∅ : Record).insert "a" rotatedEntry := by
    decide +kernel
  have haccepts : rotatedEntry.Accepts "old" (minutes 9) :=
    ⟨rfl, .inr ⟨"old", minutes 10, none, rfl, by decide, by decide⟩⟩
  refine ((authorize_iff_accepts hsnapshot fun _ _ _ _ _ hdigest =>
    asBytes_injective hdigest).1 _).mpr ⟨"a", ⟨⟨rotatedEntry, ?_, haccepts⟩, ?_⟩, rfl⟩
  · rw [hrecord, Std.ExtTreeMap.getElem?_insert_self]
  · intro id entry hentry hlt
    rw [hrecord, Std.ExtTreeMap.getElem?_insert, if_neg (by simpa using hlt.ne)] at hentry
    simp at hentry

end Example

end Storage

end Llmap
