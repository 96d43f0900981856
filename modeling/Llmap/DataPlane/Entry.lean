import Llmap.Admin.Model
import Llmap.Common.Percent
import Llmap.DataPlane.Model
import Llmap.Plain
/-!
# The two ways in

A request reaches the data plane through the reverse proxy, whose routes
`http_app.rs` lists, or through the forward proxy of `forward_proxy.rs`.
The forward proxy passes on the target it was sent. The reverse proxy puts
one together, from the part of the path that its route captures; and what
`axum` hands out of a captured part has had its percent-escapes read. An
escaped slash or question mark is then one that separates.
-/

namespace Llmap

namespace DataPlane

open Admin (ApiError)
open Providers (Serde)

/-! ## Requests as they arrive -/

/-- `PathAndQuery`: path and query as they were sent. -/
structure Target where
  path : String
  query : Option String

/-- A path, and a query after it. -/
def withQuery (path : String) : Option String → String
  | some query => path ++ "?" ++ query
  | none => path

/-- `PathAndQuery`'s `Display`: what begins with neither a slash nor an
asterisk is given a slash. -/
def Target.print (target : Target) : String :=
  let text := withQuery target.path target.query
  if startsWithStr text "/" || startsWithStr text "*" then text else "/" ++ text

/-- `Request<Body>`. The target is `Uri::path_and_query`. -/
structure Incoming where
  method : String
  target : Option Target
  headers : HeaderMap
  body : Body

/-- `BodyExt::collect`: the bytes of a body, unless an error ends it. -/
def collectBody : Body → Option Bytes
  | [] => some []
  | .ok chunk :: rest => (collectBody rest).map (chunk ++ ·)
  | .error _ :: _ => none

/-- `axum::body::to_bytes`: a body that is longer than the limit is not
read either. -/
def toBytes (body : Body) (limit : ℕ) : Option Bytes :=
  (collectBody body).filter fun bytes => bytes.length ≤ limit

/-! ## The reverse proxy -/

/-- The routes of `router` that lead to the data plane, with what each
captures of the path as it was sent. -/
inductive Route where
  /-- `/v1` -/
  | root
  /-- `/v1/{*path}` -/
  | v1 (path : String)
  /-- `/session/{session_id}/v1` -/
  | sessionRoot (sessionId : String)
  /-- `/session/{session_id}/v1/{*path}` -/
  | sessionV1 (sessionId path : String)
deriving DecidableEq

/-- What follows `/v1`: nothing, or a slash and something. -/
def routeTail (tail : String) : Option (Option String) :=
  match tail.toList with
  | [] => some none
  | '/' :: c :: rest => some (some (String.ofList (c :: rest)))
  | _ => none

/-- The route a path takes. A captured segment may be empty, a captured rest
is not. -/
def route (path : String) : Option Route :=
  match stripPrefixStr path "/v1" with
  | some tail => (routeTail tail).map fun captured => captured.elim .root .v1
  | none =>
      match (stripPrefixStr path "/session/").bind (splitOnce '/') with
      | some (sessionId, rest) =>
          ((stripPrefixStr rest "v1").bind routeTail).map fun captured =>
            captured.elim (.sessionRoot sessionId) (.sessionV1 sessionId)
      | none => none

/-- What the `Path` extractor makes of a captured part: its escapes are
read, and what is no text then is rejected. -/
def extracted (captured : String) : Option String := fromUtf8 (Percent.decode (asBytes captured))

/-- The session and the path that a route's handler gives `proxy`:
`proxy_root`, `proxy_v1`, `proxy_session_root`, `proxy_session_v1`. -/
def Route.arguments : Route → Option (Option String × String)
  | .root => some (none, "/v1")
  | .v1 path => (extracted path).map fun path => (none, "/v1/" ++ path)
  | .sessionRoot sessionId => (extracted sessionId).map fun sessionId => (some sessionId, "/v1")
  | .sessionV1 sessionId path =>
      match extracted sessionId, extracted path with
      | some sessionId, some path => some (some sessionId, "/v1/" ++ path)
      | _, _ => none

/-- The request that `proxy` passes to `DataPlane::handle`. -/
def proxied (sessionFromPath : Option String) (path : String) (request : Incoming) (body : Bytes) :
    ProxyRequest where
  method := request.method
  pathAndQuery := withQuery path (request.target.bind Target.query)
  sessionFromPath := sessionFromPath
  headers := request.headers
  body := body

/-- `error_response`. -/
def errorResponse (error : DataPlaneError) : ApiError :=
  match error with
  | .unauthorized =>
      ⟨error.status, "authentication_failed", error.message,
        "Send a current token from any active account configured on this proxy."⟩
  | .credentialStoreUnavailable =>
      ⟨error.status, "credential_store_unavailable", error.message,
        "Retry after the proxy credential store is healthy."⟩
  | .badRequest _ =>
      ⟨error.status, "invalid_request", error.message, "Correct the request and retry."⟩
  | .noCapacity =>
      ⟨error.status, "no_eligible_account", error.message,
        "Retry later or enable an account that supports the requested model."⟩
  | .upstreamUnavailable =>
      ⟨error.status, "upstream_unavailable", error.message,
        "Retry only if the client can prove the request was not already accepted."⟩

section Reverse

variable [Codecs] [Serde] [Urls] [Digests] [Chrono]

/-- `proxy` of `http_app.rs`. -/
def proxy (plane : Plane) (sessionFromPath : Option String) (path : String) (request : Incoming) :
    Part (Except ApiError ProxyResponse) :=
  match toBytes request.body (plane.maxRequestBytes + 1) with
  | none => .ret (.error (errorResponse (.badRequest
      "request body could not be read within the configured limit")))
  | some body => handle plane (proxied sessionFromPath path request body) >>= fun response =>
      .ret (response.mapError errorResponse)

/-- The reverse proxy: the handler of the route a request takes, if it
takes one of these and its captured parts are text. -/
def reverseProxy (plane : Plane) (request : Incoming) :
    Option (Part (Except ApiError ProxyResponse)) :=
  request.target.bind fun target => (route target.path).bind fun taken =>
    taken.arguments.map fun (sessionFromPath, path) => proxy plane sessionFromPath path request

/-- `forward_error`. -/
def forwardError (status : UInt16) (code message : String) : ApiError :=
  ⟨status, code, message,
    "Check client authentication, the destination allowlist, and account health before retrying."⟩

end Reverse

/-! ## The forward proxy -/

/-- The request that `ForwardProxyHandler::proxy` passes to
`DataPlane::handle`. -/
def forwardProxied (request : Incoming) (body : Bytes) : ProxyRequest where
  method := request.method
  pathAndQuery := (request.target.map Target.print).getD "/"
  sessionFromPath := none
  headers := request.headers
  body := body

/-- `ForwardProxyHandler::proxy`. -/
def forwardProxy [Codecs] [Serde] [Urls] [Digests] [Chrono] (plane : Plane) (maxRequestBytes : ℕ)
    (request : Incoming) : Part (Except ApiError ProxyResponse) :=
  match collectBody request.body with
  | none => .ret (.error (forwardError 400 "invalid_request_body"
      "The forward-proxy request body could not be read."))
  | some body =>
      if maxRequestBytes < body.length then
        .ret (.error (forwardError 413 "request_too_large"
          "The request exceeds the configured body limit."))
      else handle plane (forwardProxied request body) >>= fun response =>
        .ret (response.mapError fun error =>
          forwardError error.status "proxy_request_failed" error.message)

/-! ## What both pass on -/

/-- A path under `/v1`, as it was sent. -/
def under : Option String → String
  | none => "/v1"
  | some rest => "/v1/" ++ rest

/-- What stands before it for a session. -/
def sessionSegment : Option String → String
  | none => ""
  | some sessionId => "/session/" ++ sessionId

/-- The route of a path under `/v1`. A slash with nothing after it has
none. -/
def routed (whole : Route) (tail : String → Route) : Option String → Option Route
  | none => some whole
  | some rest => if rest = "" then none else some (tail rest)

theorem routeTail_slash (rest : String) :
    routeTail ("/" ++ rest) = if rest = "" then none else some (some rest) := by
  unfold routeTail
  rw [String.toList_append]
  cases hrest : rest.toList with
  | nil =>
      have hempty : rest = "" := String.toList_eq_nil_iff.mp hrest
      simp [hempty]
  | cons c cs =>
      have hne : rest ≠ "" := by
        rintro rfl
        cases hrest
      have hback : String.ofList (c :: cs) = rest := by
        rw [← hrest, String.ofList_toList]
      simp [hne, hback]

theorem route_under (rest : Option String) : route (under rest) = routed .root .v1 rest := by
  cases rest with
  | none => decide
  | some rest =>
      have hstrip : stripPrefixStr ("/v1/" ++ rest) "/v1" = some ("/" ++ rest) :=
        stripPrefixStr_append "/v1" ("/" ++ rest)
      simp only [route, under, routed, hstrip, routeTail_slash]
      split <;> rfl

theorem route_session {sessionId : String} (hslash : '/' ∉ sessionId.toList)
    (rest : Option String) :
    route (sessionSegment (some sessionId) ++ under rest) =
      routed (.sessionRoot sessionId) (.sessionV1 sessionId) rest := by
  have hv1 : stripPrefixStr (sessionSegment (some sessionId) ++ under rest) "/v1" = none := by
    simp [stripPrefixStr, startsWithStr, sessionSegment]
  have htail : ∃ tail, under rest = "/" ++ tail ∧
      ((stripPrefixStr tail "v1").bind routeTail).map (fun captured =>
        captured.elim (.sessionRoot sessionId) (.sessionV1 sessionId)) =
      routed (.sessionRoot sessionId) (.sessionV1 sessionId) rest := by
    cases rest with
    | none => exact ⟨"v1", rfl, rfl⟩
    | some rest =>
        have hstrip : stripPrefixStr ("v1/" ++ rest) "v1" = some ("/" ++ rest) :=
          stripPrefixStr_append "v1" ("/" ++ rest)
        refine ⟨"v1/" ++ rest, rfl, ?_⟩
        simp only [routed, hstrip, Option.bind_some, routeTail_slash]
        split <;> rfl
  obtain ⟨tail, htail, hrouted⟩ := htail
  have hsplit : splitOnce '/' (sessionId ++ "/" ++ tail) = some (sessionId, tail) :=
    splitOnce_append tail hslash
  have hsession : stripPrefixStr (sessionSegment (some sessionId) ++ under rest) "/session/" =
      some (sessionId ++ "/" ++ tail) := by
    rw [htail, sessionSegment, String.append_assoc, stripPrefixStr_append, String.append_assoc]
  rw [← hrouted]
  unfold route
  rw [hv1]
  simp only [hsession, Option.bind_some, hsplit]

example : route "/session//v1/messages" = some (.sessionV1 "" "messages") := by decide +kernel

/-- A captured part is handed on as it was sent exactly if there is no
escape in it. -/
theorem extracted_eq_self_iff {captured text : String} (h : extracted captured = some text) :
    text = captured ↔ ¬ Percent.HasEscape (asBytes captured) := by
  have hbytes := asBytes_of_fromUtf8 h
  rw [← Percent.decode_eq_self_iff, ← hbytes]
  exact asBytes_injective.eq_iff.symm

theorem print_under (rest query : Option String) :
    Target.print ⟨under rest, query⟩ = withQuery (under rest) query := by
  have hslash : startsWithStr (withQuery (under rest) query) "/" = true := by
    cases rest <;> cases query <;> simp [startsWithStr, withQuery, under]
  simp only [Target.print, hslash, Bool.true_or, if_true]

theorem withQuery_injective (query : Option String) :
    Function.Injective fun path => withQuery path query := by
  intro path path' h
  cases query with
  | none => exact h
  | some query =>
      have htexts := congrArg String.toList h
      simpa [withQuery, String.toList_inj] using htexts

/-- What the reverse proxy gives `proxy`, for a path under `/v1` as it was
sent: the path with its escapes read, if it has a route and they are
text. -/
theorem arguments_eq_some_iff {sessionId : Option String}
    (hsession : ∀ id ∈ sessionId, '/' ∉ id.toList) {rest : Option String}
    {handed : Option String × String} :
    (route (sessionSegment sessionId ++ under rest)).bind Route.arguments = some handed ↔
      (∀ captured ∈ rest, captured ≠ "") ∧
        sessionId.mapM extracted = some handed.1 ∧
        ∃ text, rest.mapM extracted = some text ∧ handed.2 = under text := by
  obtain ⟨session, path⟩ := handed
  cases sessionId with
  | none =>
      rw [sessionSegment, String.empty_append, route_under]
      cases rest with
      | none => simp [routed, Route.arguments, under, eq_comm]
      | some rest =>
          by_cases hempty : rest = ""
          · simp [routed, hempty]
          · cases hrest : extracted rest <;>
              simp [routed, hempty, Route.arguments, hrest, under, eq_comm]
  | some id =>
      rw [route_session (hsession id rfl)]
      cases rest with
      | none =>
          cases hid : extracted id <;>
            simp [routed, Route.arguments, hid, under, eq_comm]
      | some rest =>
          by_cases hempty : rest = ""
          · simp [routed, hempty]
          · cases hid : extracted id <;> cases hrest : extracted rest <;>
              simp [routed, hempty, Route.arguments, hid, hrest, under, eq_comm]

/-- **The two ways in pass on the same target exactly if there is no escape
in it.** A path under `/v1`, after a session's segment or not, comes out of
the reverse proxy as it was sent, and as it comes out of the forward proxy,
unless it has an escape in it; and it does come out, if it does not end at
the slash after `/v1` and what its escapes stand for is text. The session's
segment may be empty. -/
theorem entry_points_agree_iff (method : String) (headers : HeaderMap) (body : Body)
    (bytes : Bytes) (sessionId : Option String)
    (hsession : ∀ id ∈ sessionId, '/' ∉ id.toList) (rest query : Option String) :
    let handed := (route (sessionSegment sessionId ++ under rest)).bind Route.arguments
    (handed.isSome = true ↔ (∀ captured ∈ rest, captured ≠ "") ∧
      (sessionId.mapM extracted).isSome = true ∧ (rest.mapM extracted).isSome = true) ∧
    ∀ arguments ∈ handed,
      ((proxied arguments.1 arguments.2
          ⟨method, some ⟨sessionSegment sessionId ++ under rest, query⟩, headers, body⟩
          bytes).pathAndQuery =
        (forwardProxied ⟨method, some ⟨under rest, query⟩, headers, body⟩ bytes).pathAndQuery ↔
      ∀ captured ∈ rest, ¬ Percent.HasEscape (asBytes captured)) := by
  intro handed
  refine ⟨?_, ?_⟩
  · rw [Option.isSome_iff_exists]
    constructor
    · rintro ⟨arguments, harguments⟩
      obtain ⟨hrouted, hid, text, htext, -⟩ := (arguments_eq_some_iff hsession).mp harguments
      exact ⟨hrouted, by rw [hid]; rfl, by rw [htext]; rfl⟩
    · rintro ⟨hrouted, hid, htext⟩
      obtain ⟨id, hid⟩ := Option.isSome_iff_exists.mp hid
      obtain ⟨text, htext⟩ := Option.isSome_iff_exists.mp htext
      exact ⟨(id, under text), (arguments_eq_some_iff hsession).mpr
        ⟨hrouted, hid, text, htext, rfl⟩⟩
  · rintro ⟨id, path⟩ harguments
    obtain ⟨-, -, text, htext, rfl⟩ := (arguments_eq_some_iff hsession).mp harguments
    -- the query is the same on both sides, so the paths are compared
    have hpaths : withQuery (under text) query = withQuery (under rest) query ↔
        under text = under rest := (withQuery_injective query).eq_iff
    simp only [proxied, forwardProxied, Option.bind_some, Option.map_some, Option.getD_some,
      print_under]
    rw [hpaths]
    cases rest with
    | none =>
        obtain rfl : text = none := by simpa [eq_comm] using htext
        simp
    | some captured =>
        obtain ⟨read, hread, rfl⟩ : ∃ read, extracted captured = some read ∧ text = some read := by
          cases hread : extracted captured with
          | none => simp [hread] at htext
          | some read => exact ⟨read, rfl, by simpa [hread, eq_comm] using htext⟩
        have hunder : under (some read) = under (some captured) ↔ read = captured := by
          simp only [under]
          exact ⟨fun h => by simpa [String.toList_inj] using congrArg String.toList h,
            fun h => by rw [h]⟩
        rw [hunder, extracted_eq_self_iff hread]
        simp

/-- The request both pass on, for a target under a session's segment. -/
theorem entry_points_agree_messages :
    ((route "/session/s-1/v1/messages").bind Route.arguments = some (some "s-1", "/v1/messages")) ∧
      (proxied (some "s-1") "/v1/messages"
          ⟨"POST", some ⟨"/session/s-1/v1/messages", some "beta=true"⟩, [], []⟩ []).pathAndQuery =
        (forwardProxied ⟨"POST", some ⟨"/v1/messages", some "beta=true"⟩, [], []⟩
          []).pathAndQuery := by
  have hroute : (route "/session/s-1/v1/messages").bind Route.arguments =
      some (some "s-1", "/v1/messages") := by decide +kernel
  obtain ⟨-, hagree⟩ := entry_points_agree_iff "POST" [] [] [] (some "s-1") (by decide)
    (some "messages") (some "beta=true")
  refine ⟨hroute, (hagree _ hroute).mpr ?_⟩
  rintro captured ⟨⟩
  rw [← Percent.decode_eq_self_iff]
  decide +kernel

/-- **Escapes are lost on one of the ways in.** A slash, a question mark, a
number sign, a percent sign and dots that are escaped in a segment reach
the data plane escaped through the forward proxy, and bare through the
reverse proxy. -/
theorem entry_points_disagree_escaped :
    let reverse := fun path => ((route path).bind Route.arguments).map fun arguments =>
      (proxied arguments.1 arguments.2 ⟨"GET", some ⟨path, none⟩, [], []⟩ []).pathAndQuery
    let forward := fun path =>
      (forwardProxied ⟨"GET", some ⟨path, none⟩, [], []⟩ []).pathAndQuery
    (reverse "/v1/files/a%2Fb", forward "/v1/files/a%2Fb") =
        (some "/v1/files/a/b", "/v1/files/a%2Fb") ∧
      (reverse "/v1/files/a%3Fb", forward "/v1/files/a%3Fb") =
        (some "/v1/files/a?b", "/v1/files/a%3Fb") ∧
      (reverse "/v1/files/a%23b", forward "/v1/files/a%23b") =
        (some "/v1/files/a#b", "/v1/files/a%23b") ∧
      (reverse "/v1/files/a%25b", forward "/v1/files/a%25b") =
        (some "/v1/files/a%b", "/v1/files/a%25b") ∧
      (reverse "/v1/files/%2E%2E", forward "/v1/files/%2E%2E") =
        (some "/v1/files/..", "/v1/files/%2E%2E") := by
  decide +kernel

end DataPlane

end Llmap
