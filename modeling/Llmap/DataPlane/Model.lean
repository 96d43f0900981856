import Llmap.Common.Http
import Llmap.Common.Prog
import Llmap.Auth
import Llmap.Bedrock.Stream
import Llmap.DataPlane.Error
import Llmap.Providers.Request
import Llmap.Routing.Model
import Llmap.Storage.Model
/-!
# The data plane

`DataPlane::handle` of `data_plane.rs`: a client's request is checked,
given an account, rewritten for its provider and sent, and the response is
handed back. It is a program over what it asks of the rest: the clock, the
counters, the router behind its lock, the repository and the transport.

`serde_json::to_vec` cannot fail at a `Value`, and is a function.
-/

namespace Llmap

namespace DataPlane

open Auth Providers Routing Storage

/-! ## Requests and responses -/

/-- `Body`: its chunks, up to the text of an error that ends it. -/
abbrev Body := List (Except String Bytes)

/-- `ProxyRequest`. -/
structure ProxyRequest where
  method : String
  pathAndQuery : String
  sessionFromPath : Option String
  headers : HeaderMap
  body : Bytes

/-- `ProxyResponse`. -/
structure ProxyResponse where
  status : UInt16
  headers : HeaderMap
  body : Body
deriving DecidableEq

/-- `UpstreamRequest`. -/
structure UpstreamRequest where
  accountId : String
  method : String
  url : Url
  body : Bytes
  egressProxies : List String
  headers : Table String String
deriving DecidableEq

/-- `UpstreamResponse`. -/
structure UpstreamResponse where
  status : UInt16
  headers : HeaderMap
  body : Body
deriving DecidableEq

/-- `TransportError`. -/
inductive TransportError where
  | failed
deriving DecidableEq

/-- `ProxyAuditRecord`. -/
structure ProxyAuditRecord where
  occurredAt : DateTime
  actor : String
  accountId : Option String
  provider : Option String
  model : Option String
  sessionFingerprint : Option String
  status : UInt16
  outcome : String
  latencyMs : UInt64
deriving DecidableEq

/-! ## Headers -/

/-- The text of a header, where there is one. -/
def headerText (headers : HeaderMap) (name : String) (error : DataPlaneError) :
    Except DataPlaneError (Option String) :=
  match headers.get name with
  | none => .ok none
  | some value =>
      match HeaderMap.toStr value with
      | none => .error error
      | some text => .ok (some text)

/-- The token of an `authorization` header, if it is a bearer's. -/
def bearerToken (value : String) : Option String :=
  match splitOnce ' ' value with
  | none => none
  | some (scheme, token) =>
      if eqIgnoreAsciiCase scheme "bearer" && trim token ≠ "" then some (trim token) else none

/-- `presented_token`. -/
def presentedToken (headers : HeaderMap) : Except DataPlaneError (Option String) :=
  match headerText headers "x-api-key" .unauthorized with
  | .error error => .error error
  | .ok apiKey =>
      match headerText headers "authorization" .unauthorized with
      | .error error => .error error
      | .ok authorization =>
          let apiKey := (apiKey.map trim).filter (· ≠ "")
          let bearer := authorization.bind bearerToken
          match apiKey, bearer with
          | some apiKey, some bearer =>
              if apiKey ≠ bearer then .error .unauthorized else .ok (some apiKey)
          | apiKey, bearer => .ok (apiKey.or bearer)

/-- The check of `session_id` on an identifier. -/
def validSessionId (value : String) : Bool :=
  value ≠ "" && byteLen value ≤ 256 &&
    value.toList.all fun c => isAsciiAlphanumeric c || "._:-".toList.contains c

/-- `session_id`. -/
def sessionId (request : ProxyRequest) : Except DataPlaneError (Option String) :=
  match headerText request.headers "x-llmap-session" (.badRequest "invalid session header") with
  | .error error => .error error
  | .ok header =>
      match request.sessionFromPath, header with
      | some path, some header =>
          if path ≠ header then .error (.badRequest "path and header session identifiers disagree")
          else checked (some path)
      | path, header => checked (path.or header)
where
  checked (value : Option String) : Except DataPlaneError (Option String) :=
    if value.all validSessionId then .ok value
    else .error (.badRequest "session identifiers must be 1-256 URL-safe characters")

/-- The headers `copy_safe_request_headers` passes on. -/
def safeRequestHeader (name : String) : Bool :=
  ["accept", "content-type", "anthropic-version", "anthropic-beta", "user-agent"].contains name ||
    startsWithStr name "x-stainless-"

/-- `copy_safe_request_headers`: a header that is there already stays. -/
def copySafeRequestHeaders (incoming : HeaderMap) (outgoing : Table String String) :
    Except DataPlaneError (Table String String) :=
  match incoming with
  | [] => .ok outgoing
  | (name, value) :: incoming =>
      if safeRequestHeader name then
        match HeaderMap.toStr value with
        | none => .error (.badRequest ("header " ++ name ++ " is not valid text"))
        | some value =>
            copySafeRequestHeaders incoming
              (if outgoing.contains name then outgoing else outgoing.insert name value)
      else copySafeRequestHeaders incoming outgoing

/-- The headers `safe_response_headers` passes on. -/
def safeResponseHeader (name : String) : Bool :=
  ["content-type", "content-length", "cache-control", "retry-after", "request-id",
    "x-request-id"].contains name || startsWithStr name "anthropic-ratelimit-"

/-- `safe_response_headers`. -/
def safeResponseHeaders (incoming : HeaderMap) : HeaderMap :=
  incoming.filter fun header => safeResponseHeader header.1

/-- `retry_after`. -/
def retryAfter (headers : HeaderMap) (fallbackSeconds : Int) : Int :=
  let given := ((headers.get "retry-after").bind HeaderMap.toStr).bind parseI64
  seconds ((given.filter fun seconds => 1 ≤ seconds ∧ seconds ≤ 3600).getD fallbackSeconds)

/-- `classify_status`. -/
def classifyStatus (status : UInt16) (headers : HeaderMap) (now : DateTime) : UpstreamOutcome :=
  if status = 401 ∨ status = 403 then .unauthorized
  else if status = 429 then .rateLimited (now + retryAfter headers 60)
  else if status = 529 then .overloaded (now + retryAfter headers 30)
  else if 500 ≤ status ∧ status ≤ 599 then .transientFailure
  else .success

/-- The name an outcome is audited under. -/
def outcomeName : UpstreamOutcome → String
  | .success => "success"
  | .unauthorized => "upstream_unauthorized"
  | .rateLimited _ => "rate_limited"
  | .overloaded _ => "overloaded"
  | .transientFailure => "transient_failure"

/-! ## Rewriting -/

/-- What `handle` reads of a request before it asks for an account. -/
structure Asked where
  session : Option String
  json : Option Json
  model : String
  stream : Bool

section Rewriting

variable [Codecs]

/-- Reads a request. -/
def asked (request : ProxyRequest) : Except DataPlaneError Asked :=
  match sessionId request with
  | .error error => .error error
  | .ok session =>
      let json := if request.body = [] then none else Codecs.jsonFromSlice request.body
      let model := ((json.bind (·.get "model")).bind Json.asStr).getD ""
      let stream := ((json.bind (·.get "stream")).bind Json.asBool).getD false
      if startsWithStr request.pathAndQuery "/v1/messages" && model = "" then
        .error (.badRequest "messages requests require a JSON model field")
      else .ok ⟨session, json, model, stream⟩

omit [Codecs] in
/-- The body that is forwarded, before it is written out. A Bedrock
invocation names the model and the streaming in its address, and its
version in the body. -/
def rewritten (kind : ProviderKind) (pathAndQuery : String) (value : Json)
    (upstreamModel : String) : Except DataPlaneError Json :=
  if kind.isBedrock && splitFirst '?' pathAndQuery = "/v1/messages" then
    match value with
    | .object fields => .ok (.object (Json.orInsertField "anthropic_version"
        (.string "bedrock-2023-05-31")
        (Json.removeField "stream" (Json.removeField "model" fields))))
    | _ => .error (.badRequest "messages body must be a JSON object")
  else .ok (Json.assign "model" (.string upstreamModel) value)

/-- The body that is sent upstream: a JSON body is rewritten. -/
def upstreamBody (kind : ProviderKind) (request : ProxyRequest) (json : Option Json)
    (upstreamModel : String) : Except DataPlaneError Bytes :=
  match json with
  | none => .ok request.body
  | some value =>
      (rewritten kind request.pathAndQuery value upstreamModel).map fun forwarded =>
        asBytes (Codecs.jsonToString forwarded)

/-- The request that is sent upstream, from an account and its
credential. -/
def upstreamRequest [Serde] [Urls] [Digests] [Chrono] (request : ProxyRequest) (ask : Asked)
    (now : DateTime) (account : ProviderAccount) (credential : String) :
    Except DataPlaneError UpstreamRequest :=
  match prepareRequestForStream account credential request.pathAndQuery ask.model ask.stream with
  | .error _ => .error .upstreamUnavailable
  | .ok prepared =>
      match upstreamBody account.kind request ask.json prepared.upstreamModel with
      | .error error => .error error
      | .ok body =>
          match copySafeRequestHeaders request.headers prepared.headers with
          | .error error => .error error
          | .ok headers =>
              match finalizeRequestAuth account credential request.method body now
                  { prepared with headers := headers } with
              | .error _ => .error .upstreamUnavailable
              | .ok finished =>
                  .ok ⟨account.id, request.method, finished.url, body, account.egressProxies,
                    finished.headers⟩

/-- A response whose body is translated, and said to be of events. -/
def eventsOf (upstream : UpstreamResponse) : UpstreamResponse :=
  { upstream with
    headers := (upstream.headers.remove "content-length").insert "content-type"
      (asBytes "text/event-stream; charset=utf-8")
    body := (Bedrock.translateBedrockEventstream upstream.body).map
      (Except.mapError (·.message)) }

/-- The response that is handed back: the event stream of a Bedrock account
is translated. -/
def translatedResponse (kind : ProviderKind) (stream : Bool) (upstream : UpstreamResponse) :
    UpstreamResponse :=
  if stream && kind.isBedrock && 200 ≤ upstream.status && upstream.status < 300 then
    eventsOf upstream
  else upstream

end Rewriting

/-! ## Handling -/

/-- `DataPlane`, without what it shares. -/
structure Plane where
  authMode : AuthMode
  authenticator : Authenticator
  maxRequestBytes : ℕ

/-- The counters of `DataPlaneMetrics`. -/
inductive Metric where
  | requestsTotal
  | authenticationFailuresTotal
  | upstreamFailuresTotal
  | responsesTotal
deriving DecidableEq

/-- What `handle` asks of the rest. -/
inductive Op where
  /-- `fetch_add(1)`. -/
  | count (metric : Metric)
  /-- `Utc::now`. -/
  | now
  /-- The milliseconds since the request came in. -/
  | elapsed
  /-- `AccountRepository::credential_snapshot`. -/
  | credentialSnapshot (now : DateTime)
  /-- `Router::choose`, under the lock. -/
  | choose (request : RouteRequest) (now : DateTime)
  /-- `AccountRepository::load_account`. -/
  | loadAccount (accountId : String)
  /-- `Router::start_request`, under the lock. -/
  | startRequest (accountId : String)
  /-- `UpstreamTransport::send`. -/
  | send (request : UpstreamRequest)
  /-- `Router::record_outcome`, under the lock. -/
  | recordOutcome (accountId : String) (outcome : UpstreamOutcome)
  /-- `AccountRepository::append_proxy_audit`. -/
  | appendProxyAudit (record : ProxyAuditRecord)
deriving DecidableEq

/-- What it is answered. -/
abbrev Op.Resp : Op → Type
  | .count _ => Unit
  | .now => DateTime
  | .elapsed => UInt64
  | .credentialSnapshot _ => Except RepositoryError CredentialSnapshot
  | .choose .. => Except RouteError RouteSelection
  | .loadAccount _ => Except RepositoryError (ProviderAccount × String)
  | .startRequest _ => Except RouteError Unit
  | .send _ => Except TransportError UpstreamResponse
  | .recordOutcome .. => Except RouteError Unit
  | .appendProxyAudit _ => Except RepositoryError Unit

/-- A part of the handling of a request. -/
abbrev Part (α : Type) := Prog Op Op.Resp α

/-- What is audited of a request that was sent. -/
structure Trail where
  accountId : String
  provider : String
  model : String
  session : Option String
  status : UInt16
  outcome : String

/-- What a request comes to: what is returned, and what is audited
before. -/
structure Answer where
  result : Except DataPlaneError ProxyResponse
  trail : Option Trail

/-- A request that ends before it is sent. -/
def Answer.failed (error : DataPlaneError) : Answer := ⟨.error error, none⟩

section Handle

variable [Codecs] [Serde] [Urls] [Digests] [Chrono]

/-- `Authenticator::metadata_fingerprint`. -/
def metadataFingerprint (authenticator : Authenticator) (value : String) : String :=
  hex ((authenticator.digest value).take 12)

/-- `handle` from `start_request` on, up to its audit. -/
def deliver (ask : Asked) (now : DateTime) (provider : String) (account : ProviderAccount)
    (upstreamRequest : UpstreamRequest) : Part Answer :=
  .call (.startRequest account.id) fun
    | .error _ => .ret (.failed .noCapacity)
    | .ok () => .call (.send upstreamRequest) fun
        | .error _ =>
            .call (.recordOutcome account.id .transientFailure) fun _ =>
            .call (.count .upstreamFailuresTotal) fun _ =>
            .ret ⟨.error .upstreamUnavailable,
              some ⟨account.id, provider, ask.model, ask.session, 502, "transport_failure"⟩⟩
        | .ok response =>
            let upstream := translatedResponse account.kind ask.stream response
            let outcome := classifyStatus upstream.status upstream.headers now
            .call (.recordOutcome account.id outcome) fun
              | .error _ => .ret (.failed .noCapacity)
              | .ok () =>
                  .call (.count .responsesTotal) fun _ =>
                  .ret ⟨.ok ⟨upstream.status, safeResponseHeaders upstream.headers,
                      upstream.body⟩,
                    some ⟨account.id, provider, ask.model, ask.session, upstream.status,
                      outcomeName outcome⟩⟩

/-- `handle` from the check of the session on, up to its audit. -/
def forward (request : ProxyRequest) (now : DateTime) : Part Answer :=
  match asked request with
  | .error error => .ret (.failed error)
  | .ok ask => .call (.choose ⟨ask.session, ask.model⟩ now) fun
      | .error _ => .ret (.failed .noCapacity)
      | .ok selection => .call (.loadAccount selection.accountId) fun
          | .error .unavailable => .ret (.failed .credentialStoreUnavailable)
          | .error .notFound | .error .invalidData => .ret (.failed .noCapacity)
          | .ok (account, credential) =>
              match upstreamRequest request ask now account credential with
              | .error error => .ret (.failed error)
              | .ok upstream => deliver ask now selection.provider account upstream

/-- The audit `handle` ends with. -/
def audited (plane : Plane) (now : DateTime) (decision : AuthDecision) (answer : Answer) :
    Part (Except DataPlaneError ProxyResponse) :=
  match answer.trail with
  | none => .ret answer.result
  | some trail => .call .elapsed fun latencyMs =>
      .call (.appendProxyAudit {
        occurredAt := now
        actor := match decision.matchedAccountId with
          | some id => "client:" ++ id
          | none => "client:anonymous"
        accountId := some trail.accountId
        provider := some trail.provider
        model := if trail.model = "" then none else some trail.model
        sessionFingerprint := trail.session.map (metadataFingerprint plane.authenticator)
        status := trail.status
        outcome := trail.outcome
        latencyMs := latencyMs }) fun _ => .ret answer.result

omit [Codecs] [Serde] [Urls] [Digests] [Chrono] in
/-- What is returned to a client that is not authorized. -/
def authFailure : AuthError → DataPlaneError
  | .unauthorized => .unauthorized
  | .credentialStoreUnavailable => .credentialStoreUnavailable

/-- What `handle` does with a client that is not authorized. -/
def rejected (now : DateTime) (error : AuthError) :
    Part (Except DataPlaneError ProxyResponse) :=
  .call (.count .authenticationFailuresTotal) fun _ =>
  .call .elapsed fun latencyMs =>
  .call (.appendProxyAudit {
    occurredAt := now
    actor := "client:unmatched"
    accountId := none
    provider := none
    model := none
    sessionFingerprint := none
    status := (authFailure error).status
    outcome := "authentication_failed"
    latencyMs := latencyMs }) fun _ => .ret (.error (authFailure error))

/-- What `handle` does with a client that is. -/
def admitted (plane : Plane) (request : ProxyRequest) (now : DateTime)
    (decision : AuthDecision) : Part (Except DataPlaneError ProxyResponse) :=
  let sent := forward request now >>= audited plane now decision
  if decision.observedFailure then .call (.count .authenticationFailuresTotal) fun _ => sent
  else sent

/-- `handle` from the snapshot on. -/
def authorized (plane : Plane) (request : ProxyRequest) (token : Option String) (now : DateTime) :
    Except RepositoryError CredentialSnapshot → Part (Except DataPlaneError ProxyResponse)
  | .error _ => .ret (.error .credentialStoreUnavailable)
  | .ok snapshot =>
      match plane.authenticator.authorize plane.authMode token snapshot now with
      | .error error => rejected now error
      | .ok decision => admitted plane request now decision

/-- `DataPlane::handle`. -/
def handle (plane : Plane) (request : ProxyRequest) :
    Part (Except DataPlaneError ProxyResponse) :=
  .call (.count .requestsTotal) fun _ =>
    if plane.maxRequestBytes < request.body.length then
      .ret (.error (.badRequest
        ("request body exceeds the " ++ toString plane.maxRequestBytes ++ " byte limit")))
    else
      match presentedToken request.headers with
      | .error error => .ret (.error error)
      | .ok token => .call .now fun now =>
          .call (.credentialSnapshot now) (authorized plane request token now)

end Handle

end DataPlane

end Llmap
