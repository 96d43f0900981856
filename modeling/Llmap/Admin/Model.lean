import Llmap.Storage.Refresh
import Llmap.DataPlane.Error
/-!
# The administrator's requests

The handlers of `http_app.rs` that write accounts. They act on the store
and on the router, which have a lock each: a handler is a program whose
calls are sections of the store and operations on the router. A handler
that writes accounts ends with `refresh_routes`, which reads the accounts
under the one lock and hands them to the router under the other.

A request is let in by its session first (`authenticated_session`); one
that is not does nothing, and is not modelled. What a handler takes from
outside, the clock and the nonces, is its `Ambient`.
-/

namespace Llmap

namespace Admin

open Providers Secrets Egress Routing Storage DataPlane

/-- `AccountInput`. -/
structure AccountInput where
  id : String
  label : String
  kind : ProviderKind
  baseUrl : Url
  enabled : Bool
  modelMap : Table String String
  egressProxies : List String
  compatibleAuthHeader : Option String
  compatibleAuthPrefix : Option String
  credential : String

/-- The account an input describes. -/
def AccountInput.account (input : AccountInput) : ProviderAccount where
  id := input.id
  label := input.label
  kind := input.kind
  baseUrl := input.baseUrl
  enabled := input.enabled
  modelMap := input.modelMap
  egressProxies := input.egressProxies
  compatibleAuthHeader := input.compatibleAuthHeader
  compatibleAuthPrefix := input.compatibleAuthPrefix

/-- The answer of `api_error`. -/
structure ApiError where
  status : UInt16
  code : String
  message : String
  suggestion : String
deriving DecidableEq

/-- The answer of a handler that succeeds. -/
structure Reply where
  status : UInt16
  id : Option String
deriving DecidableEq

/-- `storage_error`. -/
def storageError (error : StorageError) : ApiError :=
  match error with
  | .notFound =>
      ⟨404, "account_not_found", error.message,
        "Refresh the account list and retry with an existing account."⟩
  | _ =>
      ⟨503, "storage_unavailable", error.message,
        "Retry after the encrypted SQLite store is healthy."⟩

/-- `data_plane_error`. -/
def dataPlaneError (error : DataPlaneError) : ApiError :=
  ⟨error.status, "routing_state_unavailable", error.message,
    "Retry after the in-memory routing state has refreshed."⟩

/-- What a handler takes from outside: the clock where it reads it, and
the nonces its write draws. -/
structure Ambient where
  now : DateTime
  auditedAt : DateTime
  nonces : WriteNonces

/-! ## Validation -/

section Validation

variable [Urls]

/-- The credentials an administrator may give: some, and no more than
32 KiB. -/
def credentialAccepted (credential : String) : Bool :=
  credential ≠ "" && byteLen credential ≤ 32 * 1024

/-- The first proxy that does not parse, by its error. -/
def invalidProxy (egressProxies : List String) : Option EgressError :=
  egressProxies.findSome? fun proxy =>
    match ProxyEndpoint.parse proxy with
    | .ok _ => none
    | .error error => some error

/-- `validate_account_input`. -/
def validateAccountInput (input : AccountInput) : Except String Unit :=
  let validId := input.id ≠ "" && byteLen input.id ≤ 64 &&
    input.id.toList.all fun c => isAsciiAlphanumeric c || c = '-' || c = '_'
  if validId = false then
    .error "Account id must be 1-64 letters, digits, hyphens, or underscores."
  else if trim input.label = "" ∨ 80 < byteLen input.label then
    .error "Account display name must be 1-80 characters."
  else if input.baseUrl.scheme ≠ "https" ∨ input.baseUrl.host = none ∨
      input.baseUrl.username ≠ "" ∨ input.baseUrl.password ≠ none then
    .error "Provider base URL must be HTTPS and must not contain userinfo."
  else if credentialAccepted input.credential = false then
    .error "Credential must be present and no larger than 32 KiB."
  else
    match invalidProxy input.egressProxies with
    | some error => .error ("Residential proxy endpoint is invalid: " ++ error.message ++ ".")
    | none => .ok ()

/-- An input that passes. -/
structure AccountInput.Valid (input : AccountInput) : Prop where
  id_ne : input.id ≠ ""
  id_length : byteLen input.id ≤ 64
  id_chars : ∀ c ∈ input.id.toList, isAsciiAlphanumeric c = true ∨ c = '-' ∨ c = '_'
  label_ne : trim input.label ≠ ""
  label_length : byteLen input.label ≤ 80
  scheme : input.baseUrl.scheme = "https"
  host : input.baseUrl.host ≠ none
  username : input.baseUrl.username = ""
  password : input.baseUrl.password = none
  credential_ne : input.credential ≠ ""
  credential_length : byteLen input.credential ≤ 32 * 1024
  proxies : invalidProxy input.egressProxies = none

theorem validateAccountInput_eq_ok_iff {input : AccountInput} :
    validateAccountInput input = .ok () ↔ input.Valid := by
  unfold validateAccountInput
  dsimp only
  constructor
  · intro h
    split at h
    · cases h
    · rename_i hid
      split at h
      · cases h
      · rename_i hlabel
        split at h
        · cases h
        · rename_i haddress
          split at h
          · cases h
          · rename_i hcredential
            split at h
            · cases h
            · rename_i hproxies
              simp only [Bool.not_eq_false, Bool.and_eq_true, decide_eq_true_eq, List.all_eq_true,
                Bool.or_eq_true, or_assoc] at hid
              simp only [not_or, not_not, not_lt] at hlabel haddress
              simp only [Bool.not_eq_false, credentialAccepted, Bool.and_eq_true,
                decide_eq_true_eq] at hcredential
              exact ⟨hid.1.1, hid.1.2, hid.2, hlabel.1, hlabel.2, haddress.1, haddress.2.1,
                haddress.2.2.1, haddress.2.2.2, hcredential.1, hcredential.2, hproxies⟩
  · intro h
    have hid : (decide (input.id ≠ "") && decide (byteLen input.id ≤ 64) &&
        input.id.toList.all fun c => isAsciiAlphanumeric c || c = '-' || c = '_') = true := by
      simp only [Bool.and_eq_true, decide_eq_true_eq, List.all_eq_true, Bool.or_eq_true, or_assoc]
      exact ⟨⟨h.id_ne, h.id_length⟩, h.id_chars⟩
    have hlabel : ¬ (trim input.label = "" ∨ 80 < byteLen input.label) :=
      not_or.mpr ⟨h.label_ne, not_lt.mpr h.label_length⟩
    have haddress : ¬ (input.baseUrl.scheme ≠ "https" ∨ input.baseUrl.host = none ∨
        input.baseUrl.username ≠ "" ∨ input.baseUrl.password ≠ none) := by
      simp only [not_or, not_not]
      exact ⟨h.scheme, h.host, h.username, h.password⟩
    have hcredential : credentialAccepted input.credential = true := by
      simp only [credentialAccepted, Bool.and_eq_true, decide_eq_true_eq]
      exact ⟨h.credential_ne, h.credential_length⟩
    rw [if_neg (by rw [hid]; decide), if_neg hlabel, if_neg haddress,
      if_neg (by rw [hcredential]; decide), h.proxies]

end Validation

/-! ## The store and the router -/

section System

variable [Serde]

/-- What the handlers share. -/
structure State where
  database : Database
  router : Router

/-- What a handler does under one lock. -/
inductive Op where
  | store (s : Section)
  /-- `replace_route_accounts`. -/
  | replaceRouteAccounts (accounts : List RouteAccount)
  /-- `reset_account_health`. -/
  | resetAccountHealth (accountId : String)
deriving DecidableEq

/-- What it is answered. -/
abbrev Op.Resp : Op → Type
  | .store s => s.Resp
  | .replaceRouteAccounts _ => Unit
  | .resetAccountHealth _ => Except RouteError Unit

/-- Carries an operation out. -/
def State.exec (state : State) : (o : Op) → State × o.Resp
  | .store s =>
      ({ state with database := (state.database.exec s).1 }, (state.database.exec s).2)
  | .replaceRouteAccounts accounts =>
      ({ state with router := state.router.replaceAccounts accounts }, ())
  | .resetAccountHealth accountId =>
      ({ state with router := (state.router.resetAccountHealth accountId).1 },
        (state.router.resetAccountHealth accountId).2)

/-- A part of a handler. -/
abbrev Part (α : Type) := Prog Op Op.Resp α

/-- A handler. -/
abbrev Handler := Part (Except ApiError Reply)

/-- A function of the store, called by a handler. -/
def stored {α : Type} (p : Prog Section Section.Resp α) : Part α := p.lift .store fun _ r => r

end System

/-! ## The handlers -/

section Handlers

variable [Serde] [Sealing] [Urls] [Chrono]

/-- `refresh_routes`. -/
def refreshRoutes : Part (Except StorageError Unit) := do
  match ← stored routeAccounts with
  | .error error => return .error error
  | .ok accounts =>
      let _ ← Prog.op (.replaceRouteAccounts accounts)
      return .ok ()

/-- `DataPlane::reset_account_health`. -/
def resetAccountHealth (accountId : String) : Part (Except DataPlaneError Unit) :=
  .call (.resetAccountHealth accountId) fun answer => .ret (answer.mapError fun _ => .noCapacity)

/-- The event a handler appends to the audit log. -/
def auditEvent (occurredAt : DateTime) (action accountId : String) (provider : Option String)
    (status : UInt16) : AuditEvent where
  occurredAt := occurredAt
  actor := "admin"
  action := action
  accountId := some accountId
  provider := provider
  model := none
  sessionId := none
  status := some status
  outcome := "success"
  latencyMs := none

/-- How an administrator's credential is written: over one that stays
valid for ten minutes, or without a trace of it. -/
def writeCredential (box : SecretBox) (ambient : Ambient) (account : ProviderAccount)
    (credential : String) (rotates : Bool) : Part (Except StorageError Unit) :=
  stored (if rotates then
    rotateAccountCredential box ambient.nonces account credential (ambient.now + minutes 10)
  else upsertAccount box ambient.nonces account credential)

/-- Whether `admin_create_account_api` rotates: the account is to sign in
with OAuth, and there is one that can be loaded. -/
def createRotates (box : SecretBox) (account : ProviderAccount) : Part Bool :=
  if account.kind = .claudeOauth then do
    let loaded ← stored (loadAccount box account.id)
    return loaded.isOk
  else return false

/-- What `admin_create_account_api` does once it is known whether it
rotates. -/
def createAccount (box : SecretBox) (ambient : Ambient) (account : ProviderAccount)
    (credential : String) (rotates : Bool) : Handler := do
  match ← writeCredential box ambient account credential rotates with
  | .error error => return .error (storageError error)
  | .ok () =>
      let _ ← stored (appendAudit (auditEvent ambient.auditedAt "account.upsert" account.id
        (some (providerName account.kind)) 201))
      match ← refreshRoutes with
      | .error error => return .error (storageError error)
      | .ok () =>
          match ← resetAccountHealth account.id with
          | .error error => return .error (dataPlaneError error)
          | .ok () => return .ok ⟨201, some account.id⟩

/-- `admin_create_account_api`. -/
def adminCreateAccountApi (box : SecretBox) (ambient : Ambient) (input : AccountInput) :
    Handler := do
  match validateAccountInput input with
  | .error message =>
      return .error ⟨400, "invalid_account", message,
        "Correct the account fields and retry. Credentials and proxy userinfo are write-only."⟩
  | .ok () =>
      let rotates ← createRotates box input.account
      createAccount box ambient input.account input.credential rotates

/-- `admin_rotate_account_credential_api`. -/
def adminRotateAccountCredentialApi (box : SecretBox) (ambient : Ambient)
    (accountId credential : String) : Handler := do
  if credentialAccepted credential = false then
    return .error ⟨400, "invalid_credential",
      "Credential must be present and no larger than 32 KiB.",
      "Paste the complete provider credential or OAuth envelope and retry."⟩
  else
    match ← stored (loadAccount box accountId) with
    | .error error => return .error (storageError error)
    | .ok (account, _) =>
        let rotates : Bool := account.kind = .claudeOauth
        match ← writeCredential box ambient account credential rotates with
        | .error error => return .error (storageError error)
        | .ok () =>
            match ← resetAccountHealth accountId with
            | .error error => return .error (dataPlaneError error)
            | .ok () =>
                let _ ← stored (appendAudit (auditEvent ambient.auditedAt
                  "account.credential.rotate" accountId (some (providerName account.kind)) 204))
                return .ok ⟨204, none⟩

/-- How the handlers that pause, resume and delete end: the write is
audited, and the routes are refreshed. -/
def finishWrite (ambient : Ambient) (action accountId : String)
    (written : Except StorageError Unit) : Handler := do
  match written with
  | .error error => return .error (storageError error)
  | .ok () =>
      let _ ← stored (appendAudit (auditEvent ambient.auditedAt action accountId none 204))
      match ← refreshRoutes with
      | .error error => return .error (storageError error)
      | .ok () => return .ok ⟨204, none⟩

/-- `admin_set_account_enabled_api`. -/
def adminSetAccountEnabledApi (ambient : Ambient) (accountId : String) (enabled : Bool) :
    Handler := do
  let written ← stored (setAccountEnabled accountId enabled)
  finishWrite ambient (if enabled then "account.resume" else "account.pause") accountId written

/-- `admin_delete_account_api`. -/
def adminDeleteAccountApi (ambient : Ambient) (accountId : String) : Handler := do
  let written ← stored (deleteAccount accountId)
  finishWrite ambient "account.delete" accountId written

/-- A request that writes accounts. -/
inductive Request where
  | create (ambient : Ambient) (input : AccountInput)
  | rotate (ambient : Ambient) (accountId credential : String)
  | setEnabled (ambient : Ambient) (accountId : String) (enabled : Bool)
  | delete (ambient : Ambient) (accountId : String)

/-- The handler of a request. -/
def Request.handler (box : SecretBox) : Request → Handler
  | .create ambient input => adminCreateAccountApi box ambient input
  | .rotate ambient accountId credential =>
      adminRotateAccountCredentialApi box ambient accountId credential
  | .setEnabled ambient accountId enabled => adminSetAccountEnabledApi ambient accountId enabled
  | .delete ambient accountId => adminDeleteAccountApi ambient accountId

/-- What the handlers are audited as. -/
def auditActions : List String :=
  ["account.upsert", "account.credential.rotate", "account.pause", "account.resume",
    "account.delete"]

/-- **What every handler is made of.** A property of parts that holds of
the store's functions and of the router's, and goes through sequencing,
holds of every handler. -/
theorem handler_induct {box : SecretBox} {R : {α : Type} → Part α → Prop}
    (hret : ∀ {α : Type} (a : α), R (.ret a))
    (hbind : ∀ {α β : Type} {p : Part α} {f : α → Part β}, R p → (∀ a, R (f a)) → R (p >>= f))
    (hload : ∀ accountId, R (stored (loadAccount box accountId)))
    (hupsert : ∀ nonces account credential,
      R (stored (upsertAccount box nonces account credential)))
    (hrotate : ∀ nonces account credential previousValidUntil,
      R (stored (rotateAccountCredential box nonces account credential previousValidUntil)))
    (henabled : ∀ accountId enabled, R (stored (setAccountEnabled accountId enabled)))
    (hdelete : ∀ accountId, R (stored (deleteAccount accountId)))
    (haudit : ∀ occurredAt accountId provider status, ∀ action ∈ auditActions,
      R (stored (appendAudit (auditEvent occurredAt action accountId provider status))))
    (hroutes : R refreshRoutes) (hreset : ∀ accountId, R (resetAccountHealth accountId))
    (request : Request) : R (request.handler box) := by
  have hwrite : ∀ ambient account credential rotates,
      R (writeCredential box ambient account credential rotates) := by
    intro ambient account credential rotates
    cases rotates with
    | true => exact hrotate _ _ _ _
    | false => exact hupsert _ _ _
  have hfinish : ∀ ambient accountId written, ∀ action ∈ auditActions,
      R (finishWrite ambient action accountId written) := by
    intro ambient accountId written action haction
    unfold finishWrite
    cases written with
    | error error => exact hret _
    | ok done =>
        refine hbind (haudit _ _ _ _ action haction) fun _ => hbind hroutes fun answer => ?_
        cases answer <;> exact hret _
  have hrotates : ∀ account, R (createRotates box account) := by
    intro account
    unfold createRotates
    split
    · exact hbind (hload _) fun _ => hret _
    · exact hret _
  have hcreate : ∀ ambient account credential rotates,
      R (createAccount box ambient account credential rotates) := by
    intro ambient account credential rotates
    refine hbind (hwrite _ _ _ _) fun answer => ?_
    cases answer with
    | error error => exact hret _
    | ok done =>
        refine hbind (haudit _ _ _ _ _ (by simp [auditActions])) fun _ =>
          hbind hroutes fun answer => ?_
        cases answer with
        | error error => exact hret _
        | ok done =>
            refine hbind (hreset _) fun answer => ?_
            cases answer <;> exact hret _
  cases request with
  | create ambient input =>
      simp only [Request.handler, adminCreateAccountApi]
      cases validateAccountInput input with
      | error message => exact hret _
      | ok done => exact hbind (hrotates _) fun _ => hcreate _ _ _ _
  | rotate ambient accountId credential =>
      simp only [Request.handler, adminRotateAccountCredentialApi]
      split
      · exact hret _
      · refine hbind (hload _) fun answer => ?_
        cases answer with
        | error error => exact hret _
        | ok loaded =>
            refine hbind (hwrite _ _ _ _) fun answer => ?_
            cases answer with
            | error error => exact hret _
            | ok done =>
                refine hbind (hreset _) fun answer => ?_
                cases answer with
                | error error => exact hret _
                | ok done =>
                    exact hbind (haudit _ _ _ _ _ (by simp [auditActions])) fun _ => hret _
  | setEnabled ambient accountId enabled =>
      refine hbind (henabled _ _) fun _ => hfinish _ _ _ _ ?_
      cases enabled <;> simp [auditActions]
  | delete ambient accountId =>
      exact hbind (hdelete _) fun _ => hfinish _ _ _ _ (by simp [auditActions])

end Handlers

end Admin

end Llmap
