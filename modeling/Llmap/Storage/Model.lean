import Llmap.Storage.Database
import Llmap.Secrets
import Llmap.Egress
import Llmap.Auth
import Llmap.Routing.Model
/-!
# The account store

`SqliteStore` of `storage.rs`. A function of the store is a program over
the sections of its database; what it computes outside the lock stands
between the calls. The nonces that encryption draws are arguments.

`serde_json::to_string` cannot fail at the types of the store, and is a
function.
-/

namespace Llmap

namespace Storage

open Providers Secrets Egress Auth Routing

/-- `StorageError`, as far as the functions below raise it. -/
inductive StorageError where
  | database (message : String)
  | secret (error : SecretError)
  | notFound
  | invalidAccount (message : String)
deriving DecidableEq

/-- `StorageError`'s `Display`. -/
def StorageError.message : StorageError → String
  | .database message => "database operation failed: " ++ message
  | .secret error => "secret operation failed: " ++ error.message
  | .notFound => "account does not exist"
  | .invalidAccount message => "stored account data is invalid: " ++ message

/-- `RepositoryError`. -/
inductive RepositoryError where
  | unavailable
  | notFound
  | invalidData
deriving DecidableEq

/-- The nonces one account write draws: its egress list's, then its
credential's. -/
structure WriteNonces where
  egress : Nonce
  credential : Nonce
deriving DecidableEq

/-- `PublicAccount`. -/
structure PublicAccount where
  id : String
  label : String
  provider : ProviderKind
  baseUrl : String
  enabled : Bool
  models : List String
  egress : List String
  credentialPresent : Bool

/-- `OAuthRefreshCandidate`. -/
structure OAuthRefreshCandidate where
  account : ProviderAccount
  expectedCiphertext : String
  envelope : OAuthCredentialEnvelope
  due : Bool
deriving DecidableEq

/-- `AuditEvent`. -/
structure AuditEvent where
  occurredAt : DateTime
  actor : String
  action : String
  accountId : Option String
  provider : Option String
  model : Option String
  sessionId : Option String
  status : Option UInt16
  outcome : String
  latencyMs : Option UInt64

/-- The associated data of an account's credentials. -/
def credentialData (accountId : String) : Bytes := asBytes ("account:" ++ accountId)

/-- The associated data of an account's egress list. -/
def egressData (accountId : String) : Bytes := asBytes ("account-egress:" ++ accountId)

section Decoding

variable [Serde]

/-- `decoded_credential`: the token a stored credential stands for, and
its expiry. Only the credential of an OAuth account is an envelope, and
only when it looks like JSON. -/
def decodedCredential (kind : ProviderKind) (stored : String) :
    Except String (String × Option DateTime) :=
  if kind ≠ .claudeOauth ∨ startsWithStr (trimStart stored) "\x7b" = false then .ok (stored, none)
  else
    match Serde.envelopeFromStr stored with
    | .error error => .error error
    | .ok envelope =>
        if envelope.accessToken = "" then .error "OAuth access token cannot be empty"
        else .ok (envelope.accessToken, envelope.expiresAt)

end Decoding

section Store

variable [Serde] [Sealing] [Urls]

/-- A function of the store. -/
abbrev Store (α : Type) := Prog Section Section.Resp (Except StorageError α)

/-- The endpoints of an account, parsed. -/
def parsedEgress (egressProxies : List String) : Except StorageError (List ProxyEndpoint) :=
  egressProxies.mapM fun endpoint =>
    (ProxyEndpoint.parse endpoint).mapError fun error =>
      .invalidAccount ("invalid egress proxy: " ++ error.message)

/-- `account_storage_values`: the text of the account with its endpoints
redacted, and the endpoints sealed. -/
def accountStorageValues (box : SecretBox) (nonce : Nonce) (account : ProviderAccount) :
    Except StorageError (Serde.AccountJson × String) :=
  match parsedEgress account.egressProxies with
  | .error error => .error error
  | .ok endpoints =>
      match box.encrypt nonce (Serde.egressToString account.egressProxies)
          (egressData account.id) with
      | .error error => .error (.secret error)
      | .ok egress =>
          .ok (Serde.accountToString
            { account with egressProxies := endpoints.map ProxyEndpoint.redactedAuthority }, egress)

/-- `hydrate_account_egress`. -/
def hydrateAccountEgress (box : SecretBox) (account : ProviderAccount)
    (ciphertext : Option String) : Except StorageError ProviderAccount :=
  match ciphertext.filter (· ≠ "") with
  | none => .ok account
  | some ciphertext =>
      match box.decrypt ciphertext (egressData account.id) with
      | .error error => .error (.secret error)
      | .ok plaintext =>
          match Serde.egressFromStr plaintext with
          | .error error => .error (.invalidAccount error)
          | .ok egressProxies => .ok { account with egressProxies := egressProxies }

/-- The row an account and a credential are stored as. -/
def sealedRow (box : SecretBox) (nonces : WriteNonces) (account : ProviderAccount)
    (credential : String) : Except StorageError AccountRow :=
  match accountStorageValues box nonces.egress account with
  | .error error => .error error
  | .ok (accountJson, egress) =>
      match box.encrypt nonces.credential credential (credentialData account.id) with
      | .error error => .error (.secret error)
      | .ok ciphertext => .ok ⟨accountJson, ciphertext, some egress⟩

/-- What an account is stored as, when its endpoints parse and are sealed. -/
theorem accountStorageValues_eq_ok {box : SecretBox} {nonce : Nonce} {account : ProviderAccount}
    {accountJson : Serde.AccountJson} {egress : String}
    (h : accountStorageValues box nonce account = .ok (accountJson, egress)) :
    ∃ endpoints, parsedEgress account.egressProxies = .ok endpoints ∧
      box.encrypt nonce (Serde.egressToString account.egressProxies) (egressData account.id) =
        .ok egress ∧
      accountJson = Serde.accountToString
        { account with egressProxies := endpoints.map ProxyEndpoint.redactedAuthority } := by
  unfold accountStorageValues at h
  split at h
  · cases h
  · rename_i endpoints hendpoints
    split at h
    · cases h
    · rename_i sealedEgress hegress
      cases h
      exact ⟨endpoints, hendpoints, hegress, rfl⟩

/-- The row of an account, when it is one. -/
theorem sealedRow_eq_ok {box : SecretBox} {nonces : WriteNonces} {account : ProviderAccount}
    {credential : String} {row : AccountRow}
    (h : sealedRow box nonces account credential = .ok row) :
    ∃ accountJson egress ciphertext,
      accountStorageValues box nonces.egress account = .ok (accountJson, egress) ∧
      box.encrypt nonces.credential credential (credentialData account.id) = .ok ciphertext ∧
      row = ⟨accountJson, ciphertext, some egress⟩ := by
  unfold sealedRow at h
  split at h
  · cases h
  · rename_i accountJson egress hvalues
    split at h
    · cases h
    · rename_i ciphertext hcredential
      cases h
      exact ⟨accountJson, egress, ciphertext, hvalues, hcredential, rfl⟩

/-- `SqliteStore::upsert_account`. -/
def upsertAccount (box : SecretBox) (nonces : WriteNonces) (account : ProviderAccount)
    (credential : String) : Store Unit :=
  match sealedRow box nonces account credential with
  | .error error => .ret (.error error)
  | .ok row => .call (.upsert account.id row) fun _ => .ret (.ok ())

/-- `SqliteStore::rotate_account_credential`. -/
def rotateAccountCredential [Chrono] (box : SecretBox) (nonces : WriteNonces)
    (account : ProviderAccount) (credential : String) (previousValidUntil : DateTime) :
    Store Unit :=
  match sealedRow box nonces account credential with
  | .error error => .ret (.error error)
  | .ok row =>
      .call (.rotate account.id row (Chrono.toRfc3339 previousValidUntil)) fun _ => .ret (.ok ())

/-- The account a row holds, and its credential as stored. -/
def openedRow (box : SecretBox) (accountId : String) (row : AccountRow) :
    Except StorageError (ProviderAccount × String) :=
  match Serde.accountFromStr row.accountJson with
  | .error error => .error (.invalidAccount error)
  | .ok account =>
      match hydrateAccountEgress box account row.egressCiphertext with
      | .error error => .error error
      | .ok account =>
          match box.decrypt row.credentialCiphertext (credentialData accountId) with
          | .error error => .error (.secret error)
          | .ok secret => .ok (account, secret)

/-- What loading an account makes of the row it finds. -/
def loadedRow (box : SecretBox) (accountId : String) :
    Option AccountRow → Except StorageError (ProviderAccount × String)
  | none => .error .notFound
  | some row =>
      match openedRow box accountId row with
      | .error error => .error error
      | .ok (account, secret) =>
          match decodedCredential account.kind secret with
          | .error error => .error (.invalidAccount error)
          | .ok (accessToken, _) => .ok (account, accessToken)

/-- `SqliteStore::load_account`: the account, and the token it signs
with. -/
def loadAccount (box : SecretBox) (accountId : String) : Store (ProviderAccount × String) :=
  .call (.selectAccount accountId) fun row => .ret (loadedRow box accountId row)

/-! ## OAuth refresh -/

/-- Whether an envelope is due: it expires within five minutes and says
how to refresh it. -/
def refreshDue (envelope : OAuthCredentialEnvelope) (now : DateTime) : Bool :=
  envelope.expiresAt.any (fun expiry => expiry ≤ now + minutes 5) &&
    envelope.refreshToken.isSome && envelope.tokenEndpoint.isSome && envelope.clientId.isSome

/-- The loop body of `oauth_refresh_candidates`. An account of another
kind, a paused one and one whose credential is no envelope are passed
over. -/
def refreshCandidate (box : SecretBox) (now : DateTime) (row : AccountRow) :
    Except StorageError (Option OAuthRefreshCandidate) :=
  match Serde.accountFromStr row.accountJson with
  | .error error => .error (.invalidAccount error)
  | .ok account =>
      match hydrateAccountEgress box account row.egressCiphertext with
      | .error error => .error error
      | .ok account =>
          if account.kind ≠ .claudeOauth ∨ account.enabled = false then .ok none
          else
            match box.decrypt row.credentialCiphertext (credentialData account.id) with
            | .error error => .error (.secret error)
            | .ok plaintext =>
                if startsWithStr (trimStart plaintext) "\x7b" = false then .ok none
                else
                  match Serde.envelopeFromStr plaintext with
                  | .error error => .error (.invalidAccount error)
                  | .ok envelope =>
                      .ok (some ⟨account, row.credentialCiphertext, envelope,
                        refreshDue envelope now⟩)

/-- `SqliteStore::oauth_refresh_candidates`. -/
def oauthRefreshCandidates (box : SecretBox) (now : DateTime) :
    Store (List OAuthRefreshCandidate) :=
  .call .selectAccounts fun rows =>
    .ret ((rows.mapM (refreshCandidate box now)).map fun found => found.filterMap id)

/-- `SqliteStore::replace_oauth_if_current`. -/
def replaceOauthIfCurrent [Chrono] (box : SecretBox) (nonce : Nonce)
    (candidate : OAuthRefreshCandidate) (refreshed : OAuthCredentialEnvelope)
    (previousValidUntil : DateTime) : Store Bool :=
  match box.encrypt nonce (Serde.envelopeToString refreshed)
      (credentialData candidate.account.id) with
  | .error error => .ret (.error (.secret error))
  | .ok ciphertext =>
      .call (.replace candidate.account.id candidate.expectedCiphertext ciphertext
        (Chrono.toRfc3339 previousValidUntil)) fun changed => .ret (.ok changed)

/-! ## Accounts -/

/-- What an endpoint of an account is shown as. -/
def shownEndpoint (endpoint : String) : String :=
  match ProxyEndpoint.parse endpoint with
  | .ok parsed => parsed.redactedAuthority
  | .error _ => "[invalid proxy endpoint]"

/-- The row mapping of `list_accounts`. -/
def publicAccount (row : AccountRow) : Except StorageError PublicAccount :=
  match Serde.accountFromStr row.accountJson with
  | .error error => .error (.invalidAccount error)
  | .ok account =>
      .ok {
        id := account.id
        label := account.label
        provider := account.kind
        baseUrl := Urls.print account.baseUrl
        enabled := account.enabled
        models := account.modelMap.keys
        egress := account.egressProxies.map shownEndpoint
        credentialPresent := row.credentialCiphertext ≠ "" }

/-- `SqliteStore::list_accounts`. -/
def listAccounts : Store (List PublicAccount) :=
  .call .selectAccounts fun rows => .ret (rows.mapM publicAccount)

/-- The account the router is given. -/
def routeAccount (account : PublicAccount) : RouteAccount where
  id := account.id
  provider := providerName account.provider
  enabled := account.enabled
  healthy := true
  inFlight := 0
  utilizationBasisPoints := 0
  models := account.models.toFinset
  depletedUntil := none

/-- `SqliteStore::route_accounts`. -/
def routeAccounts : Store (List RouteAccount) :=
  listAccounts.bind fun listed => .ret (listed.map fun accounts => accounts.map routeAccount)

/-- `SqliteStore::set_account_enabled`: the account is read under one lock
and written back under another. -/
def setAccountEnabled (accountId : String) (enabled : Bool) : Store Unit :=
  .call (.selectAccount accountId) fun
    | none => .ret (.error .notFound)
    | some row =>
        match Serde.accountFromStr row.accountJson with
        | .error error => .ret (.error (.invalidAccount error))
        | .ok account =>
            .call (.updateAccountJson accountId
              (Serde.accountToString { account with enabled := enabled })) fun _ => .ret (.ok ())

/-- `SqliteStore::delete_account`. -/
def deleteAccount (accountId : String) : Store Unit :=
  .call (.deleteAccount accountId) fun changed =>
    .ret (if changed then .ok () else .error .notFound)

/-- The row an event is stored as. -/
def auditRow [Chrono] (event : AuditEvent) : AuditRow where
  occurredAt := Chrono.toRfc3339 event.occurredAt
  actor := event.actor
  action := event.action
  accountId := event.accountId
  provider := event.provider
  model := event.model
  sessionId := event.sessionId
  status := event.status
  outcome := event.outcome
  latencyMs := event.latencyMs

/-- `SqliteStore::append_audit`. -/
def appendAudit [Chrono] (event : AuditEvent) : Store Unit :=
  .call (.insertAudit (auditRow event)) fun answer => .ret (answer.mapError .database)

/-! ## The snapshot clients are checked against -/

/-- What the history adds to an account's credential, while it is
valid. -/
def withHistory [Chrono] [Digests] (box : SecretBox) (authenticator : Authenticator)
    (now : DateTime) (account : ProviderAccount) (credential : AccountCredential)
    (history : HistoryRow) : Except RepositoryError AccountCredential :=
  match Chrono.parseFromRfc3339 history.expiresAt with
  | none => .error .invalidData
  | some previousExpiry =>
      if previousExpiry ≤ now then .ok credential
      else
        match box.decrypt history.credentialCiphertext (credentialData account.id) with
        | .error _ => .error .invalidData
        | .ok previous =>
            match decodedCredential account.kind previous with
            | .error _ => .error .invalidData
            | .ok (previousToken, _) =>
                .ok (credential.withPrevious authenticator previousToken previousExpiry)

omit [Urls] in
/-- The history adds nothing, its time being over, or the token of a
credential that opens and decodes. -/
theorem withHistory_eq_ok_iff [Chrono] [Digests] {box : SecretBox} {authenticator : Authenticator}
    {now : DateTime} {account : ProviderAccount} {credential entered : AccountCredential}
    {history : HistoryRow} :
    withHistory box authenticator now account credential history = .ok entered ↔
      ∃ validUntil, Chrono.parseFromRfc3339 history.expiresAt = some validUntil ∧
        ((validUntil ≤ now ∧ entered = credential) ∨
          now < validUntil ∧ ∃ previous token expiry,
            box.decrypt history.credentialCiphertext (credentialData account.id) = .ok previous ∧
            decodedCredential account.kind previous = .ok (token, expiry) ∧
            entered = credential.withPrevious authenticator token validUntil) := by
  constructor
  · intro h
    unfold withHistory at h
    split at h
    · cases h
    · rename_i validUntil hparse
      refine ⟨validUntil, hparse, ?_⟩
      split at h
      · rename_i hover
        exact .inl ⟨hover, (Except.ok.inj h).symm⟩
      · rename_i hvalid
        split at h
        · cases h
        · rename_i previous hdecrypt
          split at h
          · cases h
          · rename_i token expiry hdecoded
            exact .inr ⟨lt_of_not_ge hvalid, previous, token, expiry, hdecrypt, hdecoded,
              (Except.ok.inj h).symm⟩
  · rintro ⟨validUntil, hparse, ⟨hover, rfl⟩ | ⟨hvalid, previous, token, expiry, hdecrypt,
      hdecoded, rfl⟩⟩
    · simp only [withHistory, hparse, if_pos hover]
    · simp only [withHistory, hparse, if_neg (not_le_of_gt hvalid), hdecrypt, hdecoded]

/-- The loop body of `credential_snapshot`. -/
def accountCredential [Chrono] [Digests] (box : SecretBox) (authenticator : Authenticator)
    (now : DateTime) (row : AccountRow) (history : Option HistoryRow) :
    Except RepositoryError AccountCredential :=
  match Serde.accountFromStr row.accountJson with
  | .error _ => .error .invalidData
  | .ok account =>
      match box.decrypt row.credentialCiphertext (credentialData account.id) with
      | .error _ => .error .invalidData
      | .ok secret =>
          match decodedCredential account.kind secret with
          | .error _ => .error .invalidData
          | .ok (currentToken, currentExpiry) =>
              let credential :=
                (AccountCredential.active' authenticator account.id currentToken).withCurrentExpiry
                  currentExpiry
              let withPrevious : Except RepositoryError AccountCredential := match history with
                | none => .ok credential
                | some history => withHistory box authenticator now account credential history
              withPrevious.map fun credential =>
                if account.enabled then credential else credential.paused

omit [Urls] in
/-- **What an account enters a snapshot with**, when it opens and decodes:
its credential, what the history adds, and whether it is paused. -/
theorem accountCredential_eq_ok_iff [Chrono] [Digests] {box : SecretBox}
    {authenticator : Authenticator} {now : DateTime} {row : AccountRow}
    {history : Option HistoryRow} {entered : AccountCredential} :
    accountCredential box authenticator now row history = .ok entered ↔
      ∃ account secret token expiry credential,
        Serde.accountFromStr row.accountJson = .ok account ∧
        box.decrypt row.credentialCiphertext (credentialData account.id) = .ok secret ∧
        decodedCredential account.kind secret = .ok (token, expiry) ∧
        history.elim
          (.ok ((AccountCredential.active' authenticator account.id token).withCurrentExpiry
            expiry))
          (withHistory box authenticator now account
            ((AccountCredential.active' authenticator account.id token).withCurrentExpiry
              expiry)) = .ok credential ∧
        (if account.enabled then credential else credential.paused) = entered := by
  unfold accountCredential
  cases haccount : Serde.accountFromStr row.accountJson with
  | error error => simp
  | ok account =>
      cases hsecret : box.decrypt row.credentialCiphertext (credentialData account.id) with
      | error error => simp [hsecret]
      | ok secret =>
          cases hcurrent : decodedCredential account.kind secret with
          | error error => simp [hsecret, hcurrent]
          | ok decoded =>
              obtain ⟨token, expiry⟩ := decoded
              cases history with
              | none => simp [hsecret, hcurrent, map_eq_ok_iff]
              | some replaced => simp [hsecret, hcurrent, map_eq_ok_iff]

/-- `credential_snapshot` of the store. -/
def credentialSnapshot [Chrono] [Digests] (box : SecretBox) (authenticator : Authenticator)
    (now : DateTime) : Prog Section Section.Resp (Except RepositoryError CredentialSnapshot) :=
  .call .selectCredentials fun rows =>
    .ret ((rows.mapM fun (row, history) => accountCredential box authenticator now row history).map
      .available)

omit [Urls] in
/-- A snapshot has an entry for every account, in the order of the ids. -/
theorem credentialSnapshot_eq_ok_iff [Chrono] [Digests] {box : SecretBox}
    {authenticator : Authenticator} {now : DateTime} {database : Database}
    {snapshot : CredentialSnapshot} :
    ((credentialSnapshot box authenticator now).run Database.exec database).2 = .ok snapshot ↔
      ∃ credentials, snapshot = .available credentials ∧
        List.Forall₂ (fun (pair : String × AccountRow) credential =>
          database.providerAccounts[pair.1]? = some pair.2 ∧
            accountCredential box authenticator now pair.2 database.credentialHistory[pair.1]? =
              .ok credential) database.providerAccounts.toList credentials := by
  change Except.map CredentialSnapshot.available _ = _ ↔ _
  rw [map_eq_ok_iff]
  refine exists_congr fun credentials => ?_
  rw [mapM_eq_ok_iff, List.forall₂_and_left, and_comm]
  refine and_congr eq_comm ?_
  change List.Forall₂ _ (List.map _ _) _ ↔ _
  rw [List.forall₂_map_left_iff]
  exact ⟨fun h => ⟨fun pair hpair => Std.ExtTreeMap.mem_toList_iff_getElem?_eq_some.mp hpair, h⟩,
    fun h => h.2⟩

/-! ## The operations that write -/

/-- An operation that writes accounts, with its arguments. -/
inductive Op where
  | upsert (nonces : WriteNonces) (account : ProviderAccount) (credential : String)
  | rotate (nonces : WriteNonces) (account : ProviderAccount) (credential : String)
      (previousValidUntil : DateTime)
  | replace (nonce : Nonce) (candidate : OAuthRefreshCandidate)
      (refreshed : OAuthCredentialEnvelope) (previousValidUntil : DateTime)
  | setEnabled (accountId : String) (enabled : Bool)
  | delete (accountId : String)

/-- A function of the store that answers `Ok(())`, as one that answers
`true`. -/
def Store.done (p : Store Unit) : Store Bool := p.bind fun r => .ret (r.map fun _ => true)

/-- The program an operation is. What it answers says whether it wrote. -/
def Op.prog [Chrono] (box : SecretBox) : Op → Store Bool
  | .upsert nonces account credential => (upsertAccount box nonces account credential).done
  | .rotate nonces account credential previousValidUntil =>
      (rotateAccountCredential box nonces account credential previousValidUntil).done
  | .replace nonce candidate refreshed previousValidUntil =>
      replaceOauthIfCurrent box nonce candidate refreshed previousValidUntil
  | .setEnabled accountId enabled => (setAccountEnabled accountId enabled).done
  | .delete accountId => (deleteAccount accountId).done

/-- An operation carried out on the tables, with nothing in between. -/
def Op.apply [Chrono] (box : SecretBox) (database : Database) (op : Op) :
    Database × Except StorageError Bool :=
  (op.prog box).run Database.exec database

section Apply

variable [Chrono] {box : SecretBox} {database : Database}

theorem apply_upsert (nonces : WriteNonces) (account : ProviderAccount) (credential : String) :
    (Op.upsert nonces account credential).apply box database =
      match sealedRow box nonces account credential with
      | .error error => (database, .error error)
      | .ok row => ((database.exec (.upsert account.id row)).1, .ok true) := by
  simp only [Op.apply, Op.prog, Store.done, upsertAccount]
  cases sealedRow box nonces account credential <;> rfl

theorem apply_rotate (nonces : WriteNonces) (account : ProviderAccount) (credential : String)
    (previousValidUntil : DateTime) :
    (Op.rotate nonces account credential previousValidUntil).apply box database =
      match sealedRow box nonces account credential with
      | .error error => (database, .error error)
      | .ok row =>
          ((database.exec (.rotate account.id row (Chrono.toRfc3339 previousValidUntil))).1,
            .ok true) := by
  simp only [Op.apply, Op.prog, Store.done, rotateAccountCredential]
  cases sealedRow box nonces account credential <;> rfl

theorem apply_replace (nonce : Nonce) (candidate : OAuthRefreshCandidate)
    (refreshed : OAuthCredentialEnvelope) (previousValidUntil : DateTime) :
    (Op.replace nonce candidate refreshed previousValidUntil).apply box database =
      match box.encrypt nonce (Serde.envelopeToString refreshed)
          (credentialData candidate.account.id) with
      | .error error => (database, .error (.secret error))
      | .ok ciphertext =>
          let replaced := database.exec (.replace candidate.account.id
            candidate.expectedCiphertext ciphertext (Chrono.toRfc3339 previousValidUntil))
          (replaced.1, .ok replaced.2) := by
  simp only [Op.apply, Op.prog, replaceOauthIfCurrent]
  cases box.encrypt nonce (Serde.envelopeToString refreshed)
    (credentialData candidate.account.id) <;> rfl

theorem apply_setEnabled (accountId : String) (enabled : Bool) :
    (Op.setEnabled accountId enabled).apply box database =
      match database.providerAccounts[accountId]? with
      | none => (database, .error .notFound)
      | some row =>
          match Serde.accountFromStr row.accountJson with
          | .error error => (database, .error (.invalidAccount error))
          | .ok account =>
              ((database.exec (.updateAccountJson accountId
                (Serde.accountToString { account with enabled := enabled }))).1, .ok true) := by
  simp only [Op.apply, Op.prog, Store.done, setAccountEnabled, Prog.bind, Prog.run, Database.exec]
  cases database.providerAccounts[accountId]? with
  | none => rfl
  | some row =>
      dsimp only
      cases Serde.accountFromStr row.accountJson <;> rfl

theorem apply_delete (accountId : String) :
    (Op.delete accountId).apply box database =
      ((database.exec (.deleteAccount accountId)).1,
        if accountId ∈ database.providerAccounts then .ok true else .error .notFound) := by
  simp only [Op.apply, Op.prog, Store.done, deleteAccount, Prog.bind, Prog.run, Database.exec,
    ← Std.ExtTreeMap.contains_iff_mem]
  split <;> rfl

/-- **What an operation commits**: the section that writes, where there is
something to write. -/
inductive Op.Commits (box : SecretBox) (database : Database) : Op → Section → Prop
  | upsert {nonces account credential row}
      (hrow : sealedRow box nonces account credential = .ok row) :
      Commits box database (.upsert nonces account credential) (.upsert account.id row)
  | rotate {nonces account credential previousValidUntil row}
      (hrow : sealedRow box nonces account credential = .ok row) :
      Commits box database (.rotate nonces account credential previousValidUntil)
        (.rotate account.id row (Chrono.toRfc3339 previousValidUntil))
  | replace {nonce candidate refreshed previousValidUntil ciphertext row}
      (hcipher : box.encrypt nonce (Serde.envelopeToString refreshed)
        (credentialData candidate.account.id) = .ok ciphertext)
      (hrow : database.providerAccounts[candidate.account.id]? = some row)
      (hcurrent : row.credentialCiphertext = candidate.expectedCiphertext) :
      Commits box database (.replace nonce candidate refreshed previousValidUntil)
        (.replace candidate.account.id candidate.expectedCiphertext ciphertext
          (Chrono.toRfc3339 previousValidUntil))
  | setEnabled {accountId enabled row account}
      (hrow : database.providerAccounts[accountId]? = some row)
      (haccount : Serde.accountFromStr row.accountJson = .ok account) :
      Commits box database (.setEnabled accountId enabled)
        (.updateAccountJson accountId (Serde.accountToString { account with enabled := enabled }))
  | delete {accountId} (hpresent : accountId ∈ database.providerAccounts) :
      Commits box database (.delete accountId) (.deleteAccount accountId)

/-- **An operation writes or it does not**: it leaves the tables, or it is the
section that it commits. -/
theorem apply_cases (box : SecretBox) (database : Database) (op : Op) :
    (op.apply box database).1 = database ∧ (op.apply box database).2 ≠ .ok true ∨
      ∃ s, op.Commits box database s ∧ op.apply box database = ((database.exec s).1, .ok true) := by
  cases op with
  | upsert nonces account credential =>
      rw [apply_upsert]
      cases hrow : sealedRow box nonces account credential with
      | error error => exact .inl ⟨rfl, nofun⟩
      | ok row => exact .inr ⟨_, .upsert hrow, rfl⟩
  | rotate nonces account credential previousValidUntil =>
      rw [apply_rotate]
      cases hrow : sealedRow box nonces account credential with
      | error error => exact .inl ⟨rfl, nofun⟩
      | ok row => exact .inr ⟨_, .rotate hrow, rfl⟩
  | replace nonce candidate refreshed previousValidUntil =>
      rw [apply_replace]
      cases hcipher : box.encrypt nonce (Serde.envelopeToString refreshed)
          (credentialData candidate.account.id) with
      | error error => exact .inl ⟨rfl, nofun⟩
      | ok ciphertext =>
          dsimp only
          by_cases hcurrent : ∃ row, database.providerAccounts[candidate.account.id]? = some row ∧
              row.credentialCiphertext = candidate.expectedCiphertext
          · obtain ⟨row, hrow, hcurrent⟩ := hcurrent
            refine .inr ⟨_, .replace hcipher hrow hcurrent, ?_⟩
            rw [Database.exec_replace_of_eq _ _ hrow hcurrent]
          · rw [Database.exec_replace_of_ne _ _ fun row hrow hne => hcurrent ⟨row, hrow, hne⟩]
            exact .inl ⟨rfl, nofun⟩
  | setEnabled accountId enabled =>
      rw [apply_setEnabled]
      cases hrow : database.providerAccounts[accountId]? with
      | none => exact .inl ⟨rfl, nofun⟩
      | some row =>
          dsimp only
          cases haccount : Serde.accountFromStr row.accountJson with
          | error error => exact .inl ⟨rfl, nofun⟩
          | ok account => exact .inr ⟨_, .setEnabled hrow haccount, rfl⟩
  | delete accountId =>
      rw [apply_delete]
      by_cases hpresent : accountId ∈ database.providerAccounts
      · exact .inr ⟨_, .delete hpresent, by rw [if_pos hpresent]⟩
      · exact .inl ⟨by simp [Database.exec, hpresent], by simp [hpresent]⟩

end Apply

/-! ## What is stored can be read back -/

section Stored

variable [LawfulSerde] [LawfulSealing] {box : SecretBox}

/-- **The row of an account**: its text says all but the endpoints, its
credential decrypts to what was given, and its endpoints are there. -/
theorem sealedRow_spec {nonces : WriteNonces} {account : ProviderAccount} {credential : String}
    {row : AccountRow} (h : sealedRow box nonces account credential = .ok row) :
    ∃ redacted, Serde.accountFromStr row.accountJson =
        .ok { account with egressProxies := redacted } ∧
      box.decrypt row.credentialCiphertext (credentialData account.id) = .ok credential ∧
      hydrateAccountEgress box { account with egressProxies := redacted } row.egressCiphertext =
        .ok account := by
  obtain ⟨accountJson, egress, ciphertext, hvalues, hcredential, rfl⟩ := sealedRow_eq_ok h
  obtain ⟨endpoints, -, hegress, rfl⟩ := accountStorageValues_eq_ok hvalues
  have hne := SecretBox.ne_empty_of_encrypt hegress
  refine ⟨_, LawfulSerde.accountFromStr_toString _, SecretBox.decrypt_of_encrypt hcredential, ?_⟩
  simp only [hydrateAccountEgress, Option.filter_some, decide_eq_true hne, if_true,
    SecretBox.decrypt_of_encrypt hegress, LawfulSerde.egressFromStr_toString]

end Stored

end Store

end Storage

end Llmap
