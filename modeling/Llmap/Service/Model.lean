import Llmap.Admin.Model
import Llmap.Common.Journal
import Llmap.DataPlane.Transport
import Llmap.Sessions.Model
import Llmap.Storage.Audit
/-!
# The service

What `serve` of `main.rs` starts: the data plane over the store and the
transport, the control plane over the store, the router and the sessions,
and the task that refreshes OAuth credentials. They share one process, in
which each of the store, the router, the sessions and the proxy chains
stands behind a lock of its own. What is done under one lock is one step
(`Op`), and everything else is between the steps.

The data plane asks for accounts through `AccountRepository`, which is the
store, and for responses through `UpstreamTransport`, which is the
`ReqwestTransport`: `DataPlane::handle` is the program over the steps of
both (`proxied`). The clock and the network are a `World`, and answer as they
please; and so does SQLite where an audit event is inserted, since the callers
of `append_audit` go on when it fails.
-/

namespace Llmap

namespace Service

open Auth Providers Secrets Egress Routing Storage Net
open DataPlane (Plane Metric ProxyRequest ProxyResponse ProxyAuditRecord UpstreamRequest
  ReqwestTransport DataPlaneError)
open Sessions (AdminSessionManager SessionState)

/-- `AdminRuntimeConfig`. -/
structure AdminRuntimeConfig where
  authMode : AuthMode
  authModeLocked : Bool
  secureCookies : Bool
deriving DecidableEq

/-- `ForwardProxyHandler`, but for the data plane. -/
structure ForwardProxyHandler where
  destinationPolicy : DestinationPolicy
  maxRequestBytes : ℕ

/-- What `serve` is set up with, and does not change. -/
structure Setup where
  plane : Plane
  box : SecretBox
  manager : AdminSessionManager
  policy : DestinationPolicy
  runtime : AdminRuntimeConfig
  forward : ForwardProxyHandler

section Process

variable [Serde]

/-- What the tasks of the process share, and what is around them. -/
structure State (ω : Type) where
  database : Database
  router : Router
  sessions : SessionState
  transport : ReqwestTransport
  metrics : Metric → UInt64
  outside : ω

/-- What a task does under one lock, and what it asks of the outside. -/
inductive Op where
  /-- A section of the store. -/
  | store (s : Storage.Section)
  /-- `SqliteStore::recent_audit`. -/
  | recentAudit (limit : ℕ)
  /-- A section of the sessions. -/
  | sessions (s : Sessions.Section)
  /-- `Router::choose`. -/
  | choose (request : RouteRequest) (now : DateTime)
  /-- `Router::start_request`. -/
  | startRequest (accountId : String)
  /-- `Router::record_outcome`. -/
  | recordOutcome (accountId : String) (outcome : UpstreamOutcome)
  /-- `Router::replace_accounts`. -/
  | replaceAccounts (accounts : List RouteAccount)
  /-- `Router::reset_account_health`. -/
  | resetAccountHealth (accountId : String)
  /-- `Router::session_count`. -/
  | sessionCount (now : DateTime)
  /-- A step of the transport. -/
  | transport (o : DataPlane.Transport.Op)
  /-- `fetch_add(1)` on a counter. -/
  | count (metric : Metric)
  /-- `load` of a counter. -/
  | load (metric : Metric)
  /-- `Utc::now`. -/
  | now
  /-- The milliseconds since a request came in. -/
  | elapsed

/-- What it is answered. -/
abbrev Op.Resp : Op → Type
  | .store s => s.Resp
  | .recentAudit _ => Except StorageError (List AuditEvent)
  | .sessions s => s.Resp
  | .choose .. => Except RouteError RouteSelection
  | .startRequest _ => Except RouteError Unit
  | .recordOutcome .. => Except RouteError Unit
  | .replaceAccounts _ => Unit
  | .resetAccountHealth _ => Except RouteError Unit
  | .sessionCount _ => ℕ
  | .transport o => o.Resp
  | .count _ => Unit
  | .load _ => UInt64
  | .now => DateTime
  | .elapsed => UInt64

/-- A part of a task. -/
abbrev Part (α : Type) := Prog Op Op.Resp α

/-- **What is around the process**: the clock, the network, what SQLite says of
a row of the audit history that it does not insert, and what `chrono` says of a
text that is no instant. -/
structure World (ω : Type) where
  now : ω → ω × DateTime
  elapsed : ω → ω × UInt64
  insertError : ω → AuditRow → ω × Option String
  network : DataPlane.Transport.World ω
  parseError : String → String

namespace World

variable {ω : Type} (world : World ω)

variable [Urls] [Digests] [Argon2] [Sealing] [Chrono]

omit [Urls] [Digests] [Argon2] [Sealing] [Chrono] in
/-- Carries a section of the store out. An audit event that is not inserted
leaves the tables. -/
def store (state : State ω) (s : Storage.Section) : State ω × s.Resp :=
  match s with
  | .insertAudit row =>
      match world.insertError state.outside row with
      | (outside, some message) => ({ state with outside := outside }, .error message)
      | (outside, none) =>
          ({ state with
             database := (state.database.exec (.insertAudit row)).1
             outside := outside }, (state.database.exec (.insertAudit row)).2)
  | s => ({ state with database := (state.database.exec s).1 }, (state.database.exec s).2)

/-- Carries a step out. -/
def exec (setup : Setup) (state : State ω) : (o : Op) → State ω × o.Resp
  | .store s => world.store state s
  | .recentAudit limit => (state, recentAudit world.parseError limit state.database)
  | .sessions s =>
      ({ state with sessions := (setup.manager.exec state.sessions s).1 },
        (setup.manager.exec state.sessions s).2)
  | .choose request now =>
      ({ state with router := (state.router.choose request now).1 },
        (state.router.choose request now).2)
  | .startRequest accountId =>
      ({ state with router := (state.router.startRequest accountId).1 },
        (state.router.startRequest accountId).2)
  | .recordOutcome accountId outcome =>
      ({ state with router := (state.router.recordOutcome accountId outcome).1 },
        (state.router.recordOutcome accountId outcome).2)
  | .replaceAccounts accounts =>
      ({ state with router := state.router.replaceAccounts accounts }, ())
  | .resetAccountHealth accountId =>
      ({ state with router := (state.router.resetAccountHealth accountId).1 },
        (state.router.resetAccountHealth accountId).2)
  | .sessionCount now =>
      ({ state with router := (state.router.sessionCount now).1 },
        (state.router.sessionCount now).2)
  | .transport o =>
      let shared := world.network.exec ⟨state.transport, state.outside⟩ o
      ({ state with transport := shared.1.transport, outside := shared.1.outside }, shared.2)
  | .count metric =>
      ({ state with metrics := Function.update state.metrics metric (state.metrics metric + 1) },
        ())
  | .load metric => (state, state.metrics metric)
  | .now =>
      ({ state with outside := (world.now state.outside).1 }, (world.now state.outside).2)
  | .elapsed =>
      ({ state with outside := (world.elapsed state.outside).1 }, (world.elapsed state.outside).2)

omit [Urls] [Digests] [Argon2] [Sealing] [Chrono] in
theorem store_of_ne {s : Storage.Section} (h : ∀ row, s ≠ .insertAudit row) (state : State ω) :
    world.store state s =
      ({ state with database := (state.database.exec s).1 }, (state.database.exec s).2) := by
  cases s with
  | insertAudit row => exact absurd rfl (h row)
  | _ => rfl

omit [Urls] [Digests] [Argon2] [Sealing] [Chrono] in
/-- An audit event is inserted, or it is not and the tables stay. -/
theorem store_insertAudit (state : State ω) (row : AuditRow) :
    (∃ outside, world.store state (.insertAudit row) =
        ({ state with
           database := (state.database.exec (.insertAudit row)).1
           outside := outside }, .ok ())) ∨
      ∃ outside message, world.store state (.insertAudit row) =
        ({ state with outside := outside }, .error message) := by
  simp only [store]
  split
  · rename_i outside message _
    exact .inr ⟨outside, message, rfl⟩
  · rename_i outside _
    exact .inl ⟨outside, rfl⟩

omit [Urls] [Digests] [Argon2] [Sealing] [Chrono] in
/-- **What a section of the store does to the process**: to the tables what it
says or nothing, and to the rest of what is shared nothing. -/
theorem store_state (state : State ω) (s : Storage.Section) :
    ∃ outside, (world.store state s).1 =
        { state with
          database := (state.database.exec s).1
          outside := outside } ∨
      (world.store state s).1 = { state with outside := outside } := by
  by_cases haudit : ∃ row, s = .insertAudit row
  · obtain ⟨row, rfl⟩ := haudit
    rcases world.store_insertAudit state row with ⟨outside, heq⟩ | ⟨outside, message, heq⟩
    · exact ⟨outside, .inl (congrArg Prod.fst heq)⟩
    · exact ⟨outside, .inr (congrArg Prod.fst heq)⟩
  · refine ⟨state.outside, .inl ?_⟩
    rw [world.store_of_ne fun row heq => haudit ⟨row, heq⟩]

omit [Urls] [Digests] [Argon2] [Sealing] [Chrono] in
@[simp] theorem sessions_store (state : State ω) (s : Storage.Section) :
    (world.store state s).1.sessions = state.sessions := by
  obtain ⟨outside, heq | heq⟩ := world.store_state state s <;> rw [heq]

omit [Urls] [Digests] [Argon2] [Sealing] [Chrono] in
@[simp] theorem transport_store (state : State ω) (s : Storage.Section) :
    (world.store state s).1.transport = state.transport := by
  obtain ⟨outside, heq | heq⟩ := world.store_state state s <;> rw [heq]

omit [Urls] [Digests] [Argon2] [Sealing] [Chrono] in
@[simp] theorem metrics_store (state : State ω) (s : Storage.Section) :
    (world.store state s).1.metrics = state.metrics := by
  obtain ⟨outside, heq | heq⟩ := world.store_state state s <;> rw [heq]

end World

/-! ## The data plane over the store and the transport -/

/-- A function of the store, called by a task. -/
def stored {α : Type} (p : Prog Storage.Section Storage.Section.Resp α) : Part α :=
  p.lift .store fun _ r => r

/-- What the repository makes of an error of the store. -/
def repositoryError : StorageError → RepositoryError
  | .notFound => .notFound
  | .database _ => .unavailable
  | .secret _ | .invalidAccount _ => .invalidData

/-- The event `append_proxy_audit` writes. -/
def proxyAuditEvent (record : ProxyAuditRecord) : AuditEvent where
  occurredAt := record.occurredAt
  actor := record.actor
  action := "proxy.request"
  accountId := record.accountId
  provider := record.provider
  model := record.model
  sessionId := record.sessionFingerprint
  status := some record.status
  outcome := record.outcome
  latencyMs := some record.latencyMs

variable [Sealing] [Chrono] [Digests]

/-- **What the data plane's requests are answered by**: the counters, the
clock, the router, the store as its `AccountRepository` and the
`ReqwestTransport` as its `UpstreamTransport`. -/
def answered (setup : Setup) : (o : DataPlane.Op) → Part o.Resp
  | .count metric => .call (.count metric) .ret
  | .now => .call .now .ret
  | .elapsed => .call .elapsed .ret
  | .credentialSnapshot now =>
      stored (credentialSnapshot setup.box setup.plane.authenticator now)
  | .choose request now => .call (.choose request now) .ret
  | .loadAccount accountId =>
      stored (loadAccount setup.box accountId) >>= fun loaded =>
        .ret (loaded.mapError repositoryError)
  | .startRequest accountId => .call (.startRequest accountId) .ret
  | .send request =>
      (DataPlane.Transport.send setup.policy request).lift .transport fun _ r => r
  | .recordOutcome accountId outcome => .call (.recordOutcome accountId outcome) .ret
  | .appendProxyAudit record =>
      stored (appendAudit (proxyAuditEvent record)) >>= fun appended =>
        .ret (appended.mapError repositoryError)

/-- `DataPlane::handle`, over the store and the transport. -/
def proxied [Codecs] [Urls] (setup : Setup) (request : ProxyRequest) :
    Part (Except DataPlaneError ProxyResponse) :=
  (DataPlane.handle setup.plane request).subst (answered setup)

/-! ## What a request of the data plane comes to -/

/-- The steps that a request of the data plane is made of. -/
def Serves : DataPlane.Op → Op → Prop
  | .count metric, o => o = .count metric
  | .now, o => o = .now
  | .elapsed, o => o = .elapsed
  | .credentialSnapshot _, o => o = .store .selectCredentials
  | .choose request now, o => o = .choose request now
  | .loadAccount accountId, o => o = .store (.selectAccount accountId)
  | .startRequest accountId, o => o = .startRequest accountId
  | .send _, o => ∃ step, o = .transport step
  | .recordOutcome accountId outcome, o => o = .recordOutcome accountId outcome
  | .appendProxyAudit record, o => o = .store (.insertAudit (auditRow (proxyAuditEvent record)))

/-- It is answered by these, and by no others. -/
theorem answered_serves (setup : Setup) (o : DataPlane.Op) :
    (answered setup o).Obeys (Serves o) (fun _ _ => True) (fun _ => True) := by
  cases o with
  | loadAccount accountId =>
      change Prog.Obeys _ _ _ (stored (loadAccount setup.box accountId) >>= _)
      unfold loadAccount
      exact ⟨rfl, fun _ _ => trivial⟩
  | send request =>
      exact (Prog.obeys_trivial _).lift (fun step _ => ⟨step, rfl⟩) fun _ _ _ => trivial
  | count | now | elapsed | credentialSnapshot | choose | startRequest | recordOutcome
  | appendProxyAudit => exact ⟨rfl, fun _ _ => trivial⟩

theorem serves_of_reaches {setup : Setup} {o : DataPlane.Op} {part : List ((o : Op) × o.Resp)}
    {step : Op} {k : step.Resp → Part o.Resp} (h : (answered setup o).Reaches part (.call step k)) :
    Serves o step := by
  have hpast : (answered setup o).ByPast (fun _ step => Serves o step) (fun _ _ => True) [] :=
    .of_obeys (I := fun _ => True) (answered_serves setup o) trivial (fun _ _ _ _ => trivial)
      (fun _ _ _ hstep => hstep) fun _ _ _ _ => trivial
  exact hpast.of_call h

end Process

end Service

end Llmap
