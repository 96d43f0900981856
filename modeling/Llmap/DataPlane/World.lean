import Llmap.DataPlane.Model
import Llmap.Plain
/-!
# The world a request is handled in

`handle` shares the router with other tasks, which may change it between
any two of its steps, and it asks a repository, a transport and a clock
for what they answer. A `World` says what these answer and what the other
tasks do, both as they please; the router itself computes as `routing.rs`
has it. The counters are read by no step, so a world does not see them.
-/

namespace Llmap

namespace DataPlane

open Auth Providers Routing Storage

/-- **A world**: what is answered outside the data plane, and what other
tasks do to the router before a step. -/
structure World (ω : Type) where
  answer : ω → (o : Op) → ω × o.Resp
  others : ω → List Routing.Op

/-- What a request shares with the rest. -/
structure Shared (ω : Type) where
  router : Router
  outside : ω

/-- What a request called, and what it was answered. -/
abbrev Trace := List ((o : Op) × o.Resp)

namespace World

variable {ω : Type} (world : World ω)

/-- A world in which nobody else is at the router. -/
def alone (answer : ω → (o : Op) → ω × o.Resp) : World ω := ⟨answer, fun _ => []⟩

/-- The router a step finds. -/
def router (shared : Shared ω) : Router := run shared.router (world.others shared.outside)

/-- A step that is answered outside. -/
def elsewhere (shared : Shared ω) (o : Op) : Shared ω × o.Resp :=
  (⟨world.router shared, (world.answer shared.outside o).1⟩, (world.answer shared.outside o).2)

/-- A step under the lock of the router. -/
def locked {α : Type} (shared : Shared ω) (o : Op) (step : Router → Router × α) :
    Shared ω × α :=
  (⟨(step (world.router shared)).1, (world.answer shared.outside o).1⟩,
    (step (world.router shared)).2)

/-- Carries out what a request asks. -/
def exec (shared : Shared ω) : (o : Op) → Shared ω × o.Resp
  | .count _ => (shared, ())
  | .now => world.elsewhere shared .now
  | .elapsed => world.elsewhere shared .elapsed
  | .credentialSnapshot now => world.elsewhere shared (.credentialSnapshot now)
  | .choose request now =>
      world.locked shared (.choose request now) fun router => router.choose request now
  | .loadAccount accountId => world.elsewhere shared (.loadAccount accountId)
  | .startRequest accountId =>
      world.locked shared (.startRequest accountId) fun router => router.startRequest accountId
  | .send request => world.elsewhere shared (.send request)
  | .recordOutcome accountId outcome =>
      world.locked shared (.recordOutcome accountId outcome) fun router =>
        router.recordOutcome accountId outcome
  | .appendProxyAudit record => world.elsewhere shared (.appendProxyAudit record)

section Handle

variable [Codecs] [Serde] [Urls] [Digests] [Chrono]

/-- What `handle` returns in a world. -/
def result (plane : Plane) (shared : Shared ω) (request : ProxyRequest) :
    Except DataPlaneError ProxyResponse :=
  ((handle plane request).run world.exec shared).2

/-- What it called on the way. -/
def trace (plane : Plane) (shared : Shared ω) (request : ProxyRequest) : Trace :=
  (handle plane request).trace world.exec shared

end Handle

end World

/-! ## What a trace shows -/

namespace Trace

/-- The requests that were sent upstream. -/
def sent (trace : Trace) : List UpstreamRequest :=
  trace.filterMap fun
    | ⟨.send request, _⟩ => some request
    | _ => none

/-- What was sent, with what came of it. -/
def replies (trace : Trace) : List (UpstreamRequest × Except TransportError UpstreamResponse) :=
  trace.filterMap fun
    | ⟨.send request, reply⟩ => some (request, reply)
    | _ => none

/-- Whether an outcome was recorded of an account the router did not
know. -/
def orphaned (trace : Trace) : Bool :=
  trace.any fun
    | ⟨.recordOutcome .., .error _⟩ => true
    | _ => false

/-- The records that were submitted for audit. -/
def audits (trace : Trace) : List ProxyAuditRecord :=
  trace.filterMap fun
    | ⟨.appendProxyAudit record, _⟩ => some record
    | _ => none

/-- How often a counter was raised. -/
def counted (metric : Metric) (trace : Trace) : ℕ :=
  trace.countP fun event => event.1 = .count metric

variable (left right : Trace) (metric : Metric)

@[simp] theorem sent_append : Trace.sent (left ++ right) = Trace.sent left ++ Trace.sent right :=
  List.filterMap_append

@[simp] theorem replies_append :
    Trace.replies (left ++ right) = Trace.replies left ++ Trace.replies right :=
  List.filterMap_append

@[simp] theorem orphaned_append :
    Trace.orphaned (left ++ right) = (Trace.orphaned left || Trace.orphaned right) :=
  List.any_append

@[simp] theorem audits_append :
    Trace.audits (left ++ right) = Trace.audits left ++ Trace.audits right :=
  List.filterMap_append

@[simp] theorem counted_append :
    Trace.counted metric (left ++ right) =
      Trace.counted metric left + Trace.counted metric right :=
  List.countP_append

end Trace

/-! ## A world for examples -/

namespace World

/-- Every account is there and every request answered, with a status; the
snapshot and what the others do before each step are given. -/
def plain (others : ℕ → List Routing.Op) (snapshot : Except RepositoryError CredentialSnapshot)
    (status : UInt16) : World ℕ where
  answer step
    | .count _ => (step + 1, ())
    | .now => (step + 1, (0 : Int))
    | .elapsed => (step + 1, (0 : UInt64))
    | .credentialSnapshot _ => (step + 1, snapshot)
    | .choose .. => (step + 1, .error .noEligibleAccount)
    | .loadAccount id => (step + 1, .ok (Plain.account id .anthropicApiKey true, "key"))
    | .startRequest _ => (step + 1, .ok ())
    | .send _ => (step + 1, .ok ⟨status, [], []⟩)
    | .recordOutcome .. => (step + 1, .ok ())
    | .appendProxyAudit _ => (step + 1, .ok ())
  others := others

/-- A router that has one account. -/
def oneAccount : Shared ℕ := ⟨.new [⟨"a", "anthropic_api_key", true, true, 0, 0, ∅, none⟩], 0⟩

/-- A request that names no model. -/
def listModels (headers : HeaderMap) : ProxyRequest := ⟨"GET", "/v1/models", none, headers, []⟩

end World

end DataPlane

end Llmap
