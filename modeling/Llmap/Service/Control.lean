import Llmap.DataPlane.Entry
import Llmap.Service.Cookies
import Llmap.Service.Model
/-!
# Tasks

What the process does for one request, or for one tick of the refresh: a
program over its steps (`Task.prog`). The handlers of the control plane
let a request in by its session first (`authenticated_session`), and a
request that changes something by the session's CSRF token too.

A request that `axum` turns away before its handler, for a body that is not
what the handler takes or a path that has none, is no task here; and the
content types that `axum` adds to pages and JSON are left out.
-/

namespace Llmap

namespace Service

open Auth Providers Secrets Egress Routing Storage Sessions
open Admin (ApiError storageError)
open DataPlane (Incoming Body ProxyRequest ProxyResponse DataPlaneError Metric forwardError toBytes
  collectBody)

/-! ## Responses -/

/-- What a response holds. -/
inductive Content where
  | empty
  /-- `api_error`, `error_response` or `forward_error`. -/
  | error (error : ApiError)
  /-- An object with a status. -/
  | status (status : String)
  /-- An object with an id. -/
  | id (id : String)
  /-- What `admin_session_api` answers. -/
  | session (csrfToken : String) (authMode : AuthMode) (authModeLocked : Bool)
      (activeSessions stickySessions : ℕ)
  | accounts (accounts : List PublicAccount)
  | events (events : List AuditEvent)
  /-- `login_page`. -/
  | loginPage
  /-- `dashboard_page`. -/
  | dashboardPage
  | text (text : String)
  /-- What came from upstream. -/
  | upstream (body : Body)

/-- `Response`. -/
structure Response where
  status : UInt16
  headers : HeaderMap
  content : Content

namespace Response

/-- The response of an error. -/
def ofError (error : ApiError) : Response := ⟨error.status, [], .error error⟩

/-- `Redirect`, with its status. -/
def redirect (status : UInt16) (location : String) : Response :=
  ⟨status, [("location", asBytes location)], .empty⟩

/-- The response of a handler that writes accounts. -/
def ofReply : Except ApiError Admin.Reply → Response
  | .error error => ofError error
  | .ok reply => ⟨reply.status, [], reply.id.elim .empty .id⟩

/-- The response of the data plane. -/
def ofProxy : Except ApiError ProxyResponse → Response
  | .error error => ofError error
  | .ok response => ⟨response.status, response.headers, .upstream response.body⟩

end Response

/-- `unauthorized_admin`. -/
def unauthorizedAdmin : Response :=
  .ofError ⟨401, "admin_session_required", "An active administrator session is required.",
    "Sign in through /admin/login and retry."⟩

/-- `AdminSessionRejection`. -/
inductive AdminSessionRejection where
  | unauthorized
  | invalidCsrf
deriving DecidableEq

/-- `AdminSessionRejection`'s `into_response`. -/
def AdminSessionRejection.intoResponse : AdminSessionRejection → Response
  | .unauthorized => unauthorizedAdmin
  | .invalidCsrf => .ofError ⟨403, "invalid_csrf",
      "The administrator request did not include the current CSRF token.",
      "Reload the control plane and retry the operation."⟩

/-! ## The control plane -/

section Control

variable [Serde]

/-- The CSRF token a request presents. -/
def presentedCsrf (headers : HeaderMap) : Option String :=
  (headers.get "x-llmap-csrf").bind HeaderMap.toStr

/-- `authenticated_session`. -/
def authenticatedSession (headers : HeaderMap) (requireCsrf : Bool) :
    Part (Except AdminSessionRejection String) :=
  match cookieValue headers adminSessionCookie with
  | none => .ret (.error .unauthorized)
  | some session => .call .now fun now =>
      .call (.sessions (.authenticate session (presentedCsrf headers) requireCsrf now)) fun
        | .error .invalidCsrf => .ret (.error .invalidCsrf)
        | .error _ => .ret (.error .unauthorized)
        | .ok () => .ret (.ok session)

/-- How a handler begins: a request without a session is rejected. -/
def guarded (headers : HeaderMap) (requireCsrf : Bool) (handler : String → Part Response) :
    Part Response :=
  authenticatedSession headers requireCsrf >>= fun
    | .error rejection => .ret rejection.intoResponse
    | .ok session => handler session

/-- `admin_dashboard`. -/
def adminDashboard (headers : HeaderMap) : Part Response :=
  authenticatedSession headers false >>= fun
    | .ok _ => .ret ⟨200, [], .dashboardPage⟩
    | .error _ => .ret (.redirect 303 "/admin/login")

/-- `admin_login_api`, from a peer's address and with the tokens drawn. -/
def adminLoginApi (runtime : AdminRuntimeConfig) (peer username password : String)
    (token csrfToken : TokenBytes) : Part Response :=
  .call .now fun now =>
    .call (.sessions (.login username password peer token csrfToken now)) fun
      | .ok grant =>
          match headerValue (grant.cookie runtime.secureCookies) with
          | some cookie => .ret ⟨200, [("set-cookie", cookie)], .status "ok"⟩
          | none => .ret (.ofError ⟨500, "session_creation_failed",
              "Administrator session could not be created.",
              "Retry the login. If this persists, restart llmap and inspect metadata-only logs."⟩)
      | .error .rateLimited => .ret (.ofError ⟨429, "login_rate_limited",
          "Too many failed administrator login attempts.",
          "Wait for the lockout period before trying again."⟩)
      | .error _ => .ret (.ofError ⟨401, "invalid_admin_credentials",
          "Administrator credentials were not accepted.",
          "Verify the configured administrator username and bootstrap password."⟩)

/-- The cookie `admin_logout_api` answers with. -/
def clearedCookie (secure : Bool) : String :=
  "llmap_admin_session=; Path=/admin; Max-Age=0; HttpOnly; SameSite=Strict" ++
    if secure then "; Secure" else ""

/-- `admin_logout_api`. -/
def adminLogoutApi (runtime : AdminRuntimeConfig) (headers : HeaderMap) : Part Response :=
  guarded headers true fun session => .call (.sessions (.logout session)) fun _ =>
    .ret ⟨204, ((headerValue (clearedCookie runtime.secureCookies)).map fun cookie =>
      ("set-cookie", cookie)).toList, .empty⟩

/-- `admin_session_api`, with the CSRF token drawn. `sticky_session_count`
reads the clock under the lock of the router. -/
def adminSessionApi (runtime : AdminRuntimeConfig) (headers : HeaderMap) (csrfToken : TokenBytes) :
    Part Response :=
  guarded headers false fun session => .call .now fun now =>
    (issueCsrf session csrfToken now).lift .sessions (fun _ r => r) >>= fun
      | .error _ => .ret unauthorizedAdmin
      | .ok csrf =>
          .call .now fun now => .call (.sessions (.activeSessionCount now)) fun active =>
          .call .now fun now => .call (.sessionCount now) fun sticky =>
          .ret ⟨200, [], .session csrf runtime.authMode runtime.authModeLocked active sticky⟩

/-- `admin_accounts_api`. -/
def adminAccountsApi [Urls] (headers : HeaderMap) : Part Response :=
  guarded headers false fun _ => stored listAccounts >>= fun
    | .ok accounts => .ret ⟨200, [], .accounts accounts⟩
    | .error error => .ret (.ofError (storageError error))

/-- `admin_audit_api`. -/
def adminAuditApi (headers : HeaderMap) : Part Response :=
  guarded headers false fun _ => .call (.recentAudit 200) fun
    | .ok events => .ret ⟨200, [], .events events⟩
    | .error error => .ret (.ofError (storageError error))

/-- A step of a handler that writes accounts, as a step of the process. -/
def adminOp : Admin.Op → Op
  | .store s => .store s
  | .replaceRouteAccounts accounts => .replaceAccounts accounts
  | .resetAccountHealth accountId => .resetAccountHealth accountId

/-- What it is answered. -/
def adminResp : (o : Admin.Op) → (adminOp o).Resp → o.Resp
  | .store _, r => r
  | .replaceRouteAccounts _, r => r
  | .resetAccountHealth _, r => r

/-- `admin_create_account_api`, `admin_rotate_account_credential_api`,
`admin_set_account_enabled_api` and `admin_delete_account_api`. -/
def adminWriteApi [Sealing] [Urls] [Chrono] (box : SecretBox) (headers : HeaderMap)
    (request : Admin.Request) : Part Response :=
  guarded headers true fun _ => (request.handler box).lift adminOp adminResp >>= fun reply =>
    .ret (.ofReply reply)

/-- What `metrics` of `http_app.rs` answers. -/
def metricsText (requests authenticationFailures upstreamFailures responses : UInt64) : String :=
  "# TYPE llmap_requests_total counter\nllmap_requests_total " ++ toString requests ++
  "\n# TYPE llmap_authentication_failures_total counter\n" ++
  "llmap_authentication_failures_total " ++ toString authenticationFailures ++
  "\n# TYPE llmap_upstream_failures_total counter\nllmap_upstream_failures_total " ++
  toString upstreamFailures ++
  "\n# TYPE llmap_responses_total counter\nllmap_responses_total " ++ toString responses ++ "\n"

/-- `metrics` of `http_app.rs`. -/
def metrics : Part Response :=
  .call (.load .requestsTotal) fun requests =>
  .call (.load .authenticationFailuresTotal) fun authenticationFailures =>
  .call (.load .upstreamFailuresTotal) fun upstreamFailures =>
  .call (.load .responsesTotal) fun responses =>
  .ret ⟨200, [("content-type", asBytes "text/plain; version=0.0.4; charset=utf-8")],
    .text (metricsText requests authenticationFailures upstreamFailures responses)⟩

end Control

/-! ## The forward proxy -/

/-- A request to the forward proxy: the authority of its URI, and its whole
text. -/
structure ForwardRequest where
  authority : Option String
  uri : String
  request : Incoming

namespace ForwardProxyHandler

variable [Urls]

/-- `ForwardProxyHandler::authorize_uri`. -/
def authorizeUri (handler : ForwardProxyHandler) (request : ForwardRequest) : Bool :=
  let destination :=
    if request.request.method = "CONNECT" then
      request.authority.bind fun authority => Urls.parse ("https://" ++ authority ++ "/")
    else Urls.parse request.uri
  destination.any fun destination => (handler.destinationPolicy.authorize destination).isOk

/-- `ForwardProxyHandler::handle_request`: a `CONNECT` that is let through
is answered by no response, and is a tunnel from then on. -/
def handleRequest [Serde] [Codecs] [Digests] [Sealing] [Chrono] (setup : Setup)
    (request : ForwardRequest) : Part (Option Response) :=
  if setup.forward.authorizeUri request = false then
    .ret (some (.ofError (forwardError 403 "destination_denied"
      "The requested forward-proxy destination is not allowed.")))
  else if request.request.method = "CONNECT" then .ret none
  else
    (DataPlane.forwardProxy setup.plane setup.forward.maxRequestBytes request.request).subst
      (answered setup) >>= fun response => .ret (some (.ofProxy response))

end ForwardProxyHandler

/-! ## Tasks -/

section Tasks

variable [Serde] [Sealing] [Urls] [Chrono]

/-- What the process does something for. -/
inductive Task where
  /-- A request to the reverse proxy. -/
  | reverse (request : Incoming)
  /-- A request to the forward proxy. -/
  | forward (request : ForwardRequest)
  | redirect
  | loginPage
  | dashboard (headers : HeaderMap)
  | login (peer username password : String) (token csrfToken : TokenBytes)
  | logout (headers : HeaderMap)
  | session (headers : HeaderMap) (csrfToken : TokenBytes)
  | accounts (headers : HeaderMap)
  | write (headers : HeaderMap) (request : Admin.Request)
  | audit (headers : HeaderMap)
  | metrics
  /-- A tick of the refresh. -/
  | refresh (exchange : OAuthRefreshCandidate → Exchange)

variable [Codecs] [Digests]

/-- The reverse proxy over the store and the transport. A request that it
has no handler for, and one whose path is no text, are not found or bad by
`axum`. -/
def reverseProxied (setup : Setup) (request : Incoming) : Part (Option Response) :=
  match DataPlane.reverseProxy setup.plane request with
  | none => .ret none
  | some p => p.subst (answered setup) >>= fun response => .ret (some (.ofProxy response))

/-- **The program of a task.** -/
def Task.prog (setup : Setup) : Task → Part (Option Response)
  | .reverse request => reverseProxied setup request
  | .forward request => ForwardProxyHandler.handleRequest setup request
  | .redirect => .ret (some (.redirect 308 "/admin/"))
  | .loginPage => .ret (some ⟨200, [], .loginPage⟩)
  | .dashboard headers => some <$> adminDashboard headers
  | .login peer username password token csrfToken =>
      some <$> adminLoginApi setup.runtime peer username password token csrfToken
  | .logout headers => some <$> adminLogoutApi setup.runtime headers
  | .session headers csrfToken => some <$> adminSessionApi setup.runtime headers csrfToken
  | .accounts headers => some <$> adminAccountsApi headers
  | .write headers request => some <$> adminWriteApi setup.box headers request
  | .audit headers => some <$> adminAuditApi headers
  | .metrics => some <$> Service.metrics
  | .refresh exchange => .call .now fun now =>
      stored (refreshDueOauth setup.box now exchange) >>= fun _ => .ret none

/-- Whether a task is a request for the data plane. -/
def Task.proxies : Task → Bool
  | .reverse _ | .forward _ => true
  | _ => false

/-- The steps that the other tasks make themselves, apart from the store. -/
def Op.Plain : Op → Prop
  | .recentAudit _ | .sessions _ | .sessionCount _ | .load _ | .now => True
  | _ => False

/-- **What the tasks of the control plane are made of.** A property of parts
that holds of their plain steps and of what they ask of the store, and goes
through sequencing, holds of all of them. -/
theorem control_induct {setup : Setup} {R : {α : Type} → Part α → Prop}
    (hret : ∀ {α : Type} (a : α), R (.ret a))
    (hbind : ∀ {α β : Type} {p : Part α} {f : α → Part β}, R p → (∀ a, R (f a)) → R (p >>= f))
    (hcall : ∀ {α : Type} (o : Op) (k : o.Resp → Part α), o.Plain → (∀ r, R (k r)) → R (.call o k))
    (hlist : R (stored listAccounts))
    (hwrite : ∀ request : Admin.Request,
      R ((request.handler setup.box).lift adminOp adminResp))
    (hrefresh : ∀ now exchange, R (stored (refreshDueOauth setup.box now exchange)))
    {task : Task} (h : task.proxies = false) : R (task.prog setup) := by
  have hsession : ∀ headers requireCsrf, R (authenticatedSession headers requireCsrf) := by
    intro headers requireCsrf
    unfold authenticatedSession
    split
    · exact hret _
    · refine hcall _ _ trivial fun now => hcall _ _ trivial ?_
      rintro ((_ | _ | _ | _) | _) <;> exact hret _
  have hguarded : ∀ {headers requireCsrf} {handler : String → Part Response},
      (∀ session, R (handler session)) → R (some <$> guarded headers requireCsrf handler) := by
    intro headers requireCsrf handler hhandler
    refine hbind (hbind (hsession headers requireCsrf) ?_) fun _ => hret _
    rintro (rejection | session)
    · exact hret _
    · exact hhandler session
  have hsessions : ∀ {α : Type} (p : Prog Sessions.Section Sessions.Section.Resp α),
      R (p.lift Op.sessions fun _ r => r) := by
    intro α p
    induction p with
    | ret a => exact hret a
    | call o k ih => exact hcall _ _ trivial ih
  cases task with
  | reverse | forward => cases h
  | redirect | loginPage => exact hret _
  | dashboard headers =>
      refine hbind (hbind (hsession headers false) ?_) fun _ => hret _
      rintro (rejection | session) <;> exact hret _
  | login =>
      refine hbind (hcall _ _ trivial fun now => hcall _ _ trivial ?_) fun _ => hret _
      rintro ((_ | _ | _ | _) | grant)
      · exact hret _
      · exact hret _
      · exact hret _
      · exact hret _
      · dsimp only
        split <;> exact hret _
  | logout headers => exact hguarded fun _ => hcall _ _ trivial fun _ => hret _
  | session headers csrfToken =>
      refine hguarded fun session => hcall _ _ trivial fun now => hbind (hsessions _) ?_
      rintro (error | csrf)
      · exact hret _
      · exact hcall _ _ trivial fun _ => hcall _ _ trivial fun _ => hcall _ _ trivial fun _ =>
          hcall _ _ trivial fun _ => hret _
  | accounts headers =>
      refine hguarded fun _ => hbind hlist ?_
      rintro (error | accounts) <;> exact hret _
  | write headers request => exact hguarded fun _ => hbind (hwrite request) fun _ => hret _
  | audit headers =>
      refine hguarded fun _ => hcall _ _ trivial ?_
      rintro (error | events) <;> exact hret _
  | metrics =>
      exact hbind (hcall _ _ trivial fun _ => hcall _ _ trivial fun _ => hcall _ _ trivial fun _ =>
        hcall _ _ trivial fun _ => hret _) fun _ => hret _
  | refresh exchange =>
      exact hcall _ _ trivial fun now => hbind (hrefresh now exchange) fun _ => hret _

/-- The steps that these tasks are made of: what they write into the audit
history is of the handlers that write accounts. -/
def Op.Controls : Op → Prop
  | .store (.insertAudit row) => row.action ∈ Admin.auditActions
  | .store _ | .recentAudit _ | .sessions _ | .replaceAccounts _ | .resetAccountHealth _
  | .sessionCount _ | .load _ | .now => True
  | _ => False

/-- A part of the control plane. -/
abbrev Controlling {α : Type} (p : Part α) : Prop :=
  p.Obeys Op.Controls (fun _ _ => True) (fun _ => True)

omit [Codecs] [Digests] in
/-- A refresh reads the accounts and replaces credentials. -/
theorem refreshDueOauth_obeys {pre : Storage.Section → Prop} (hselect : pre .selectAccounts)
    (hreplace : ∀ id expected ciphertext expiresAt, pre (.replace id expected ciphertext expiresAt))
    (box : SecretBox) (now : DateTime) (exchange : OAuthRefreshCandidate → Exchange) :
    (refreshDueOauth box now exchange).Obeys pre (fun _ _ => True) (fun _ => True) := by
  have heach : ∀ candidates summary, (refreshEach box now exchange summary candidates).Obeys pre
      (fun _ _ => True) (fun _ => True) := by
    intro candidates
    induction candidates with
    | nil => exact fun _ => trivial
    | cons candidate rest ih =>
        intro summary
        unfold refreshEach
        split
        · exact ih _
        · split
          · exact ih _
          · unfold replaceOauthIfCurrent
            split
            · exact ih _
            · refine ⟨hreplace _ _ _ _, fun changed _ => ?_⟩
              cases changed <;> exact ih _
  refine ⟨hselect, fun rows _ => ?_⟩
  dsimp only
  cases (rows.mapM (refreshCandidate box now)).map (fun found => found.filterMap id) with
  | error error => exact trivial
  | ok candidates => exact heach candidates _

omit [Codecs] [Digests] in
/-- What a handler that writes accounts audits is one of its actions. -/
theorem handler_controls (box : SecretBox) (request : Admin.Request) :
    (request.handler box).Obeys (fun o => (adminOp o).Controls) (fun _ _ => True)
      (fun _ => True) := by
  refine Admin.handler_induct (R := fun p => p.Obeys (fun o => (adminOp o).Controls)
    (fun _ _ => True) (fun _ => True)) (fun _ => trivial) (fun hp hf => hp.bind fun a _ => hf a)
    ?_ ?_ ?_ ?_ ?_ ?_ ?_ ?_ request
  · intro accountId
    unfold loadAccount
    exact ⟨trivial, fun _ _ => trivial⟩
  · intro nonces account credential
    unfold upsertAccount
    split
    · exact trivial
    · exact ⟨trivial, fun _ _ => trivial⟩
  · intro nonces account credential previousValidUntil
    unfold rotateAccountCredential
    split
    · exact trivial
    · exact ⟨trivial, fun _ _ => trivial⟩
  · refine fun accountId enabled => ⟨trivial, ?_⟩
    rintro (_ | row) -
    · exact trivial
    · dsimp only
      split
      · exact trivial
      · exact ⟨trivial, fun _ _ => trivial⟩
  · exact fun _ => ⟨trivial, fun _ _ => trivial⟩
  · exact fun _ _ _ _ _ haction => ⟨haction, fun _ _ => trivial⟩
  · refine Prog.Obeys.bind (P := fun _ => True) ⟨trivial, fun _ _ => trivial⟩ ?_
    rintro (error | accounts) -
    · exact trivial
    · exact ⟨trivial, fun _ _ => trivial⟩
  · exact fun _ => ⟨trivial, fun _ _ => trivial⟩

/-- **The control plane sends nothing**, starts nothing at the router, counts
nothing, and audits nothing but what is written. -/
theorem task_controls (setup : Setup) {task : Task} (h : task.proxies = false) :
    Controlling (task.prog setup) := by
  refine control_induct (R := fun p => Controlling p) (fun _ => trivial)
    (fun hp hf => hp.bind fun a _ => hf a) ?_ ⟨trivial, fun _ _ => trivial⟩ ?_ ?_ h
  · intro α o k hplain hk
    refine ⟨?_, fun r _ => hk r⟩
    cases o with
    | recentAudit | sessions | sessionCount | load | now => exact trivial
    | _ => exact hplain.elim
  · exact fun request => (handler_controls setup.box request).lift (fun _ ho => ho)
      fun _ _ _ => trivial
  · intro now exchange
    have hobeys : (refreshDueOauth setup.box now exchange).Obeys
        (fun s => (Op.store s).Controls) (fun _ _ => True) (fun _ => True) :=
      refreshDueOauth_obeys trivial (fun _ _ _ _ => trivial) setup.box now exchange
    exact hobeys.lift (fun _ hs => hs) fun _ _ _ => trivial

/-! ## Tasks of the data plane -/

/-- The request that a task passes to the data plane. -/
def Task.passed (setup : Setup) : Task → Option ProxyRequest
  | .reverse incoming =>
      incoming.target.bind fun target => (DataPlane.route target.path).bind fun taken =>
        taken.arguments.bind fun (sessionFromPath, path) =>
          (toBytes incoming.body (setup.plane.maxRequestBytes + 1)).map
            (DataPlane.proxied sessionFromPath path incoming)
  | .forward request =>
      if setup.forward.authorizeUri request = true ∧ request.request.method ≠ "CONNECT" then
        ((collectBody request.request.body).filter fun body =>
          body.length ≤ setup.forward.maxRequestBytes).map
            (DataPlane.forwardProxied request.request)
      else none
  | _ => none

/-- **What a task of the data plane is**: the handling of the request it
passes, or an answer at once. -/
theorem Task.prog_cases (setup : Setup) {task : Task} (h : task.proxies = true) :
    (∃ answer, task.prog setup = .ret answer) ∨
      ∃ (request : ProxyRequest) (f : Except DataPlaneError ProxyResponse → Option Response),
        task.passed setup = some request ∧
        task.prog setup = proxied setup request >>= fun response => .ret (f response) := by
  cases task with
  | reverse incoming =>
      change (∃ answer, reverseProxied setup incoming = _) ∨
        ∃ request f, _ ∧ reverseProxied setup incoming = _
      unfold reverseProxied
      split
      · exact .inl ⟨_, rfl⟩
      · rename_i p hp
        obtain ⟨target, htarget, hp⟩ := Option.bind_eq_some_iff.mp hp
        obtain ⟨taken, htaken, hp⟩ := Option.bind_eq_some_iff.mp hp
        obtain ⟨⟨sessionFromPath, path⟩, harguments, rfl⟩ := Option.map_eq_some_iff.mp hp
        cases hbody : toBytes incoming.body (setup.plane.maxRequestBytes + 1) with
        | none =>
            simp only [DataPlane.proxy, hbody]
            exact .inl ⟨_, rfl⟩
        | some body =>
            simp only [DataPlane.proxy, hbody]
            refine .inr ⟨DataPlane.proxied sessionFromPath path incoming body,
              fun response => some (.ofProxy (response.mapError DataPlane.errorResponse)), ?_, ?_⟩
            · simp [Task.passed, htarget, htaken, harguments, hbody]
            · rw [Prog.subst_bind, Prog.bind_assoc]
              rfl
  | forward request =>
      change (∃ answer, ForwardProxyHandler.handleRequest setup request = _) ∨
        ∃ passed f, _ ∧ ForwardProxyHandler.handleRequest setup request = _
      unfold ForwardProxyHandler.handleRequest DataPlane.forwardProxy
      split
      · exact .inl ⟨_, rfl⟩
      · rename_i hauthorized
        split
        · exact .inl ⟨_, rfl⟩
        · rename_i hmethod
          split
          · exact .inl ⟨_, rfl⟩
          · rename_i body hbody
            split
            · exact .inl ⟨_, rfl⟩
            · rename_i hlength
              refine .inr ⟨DataPlane.forwardProxied request.request body,
                fun response => some (.ofProxy (response.mapError fun error =>
                  forwardError error.status "proxy_request_failed" error.message)), ?_, ?_⟩
              · rw [Bool.not_eq_false] at hauthorized
                simp [Task.passed, hauthorized, hmethod, hbody, Option.filter, not_lt.mp hlength]
              · rw [Prog.subst_bind, Prog.bind_assoc]
                rfl
  | redirect | loginPage | dashboard | login | logout | session | accounts | write | audit
  | metrics | refresh => cases h

/-- **Where a step of a task comes from**: it is one of the control plane; or
the task is handling its request, each of the operations before complete, and
this one a part of the next. -/
theorem task_underway {setup : Setup} {task : Task} {own : List ((o : Op) × o.Resp)} {step : Op}
    {k : step.Resp → Part (Option Response)} (h : (task.prog setup).Reaches own (.call step k)) :
    step.Controls ∨ ∃ request past o k complete part k', task.passed setup = some request ∧
      (DataPlane.handle setup.plane request).Reaches past (.call o k) ∧
      Prog.Spelled (answered setup) past complete ∧ own = complete ++ part ∧
      (answered setup o).Reaches part (.call step k') := by
  cases hproxies : task.proxies with
  | false =>
      have hpast : (task.prog setup).ByPast (fun _ o => o.Controls) (fun _ _ => True) [] :=
        .of_obeys (I := fun _ => True) (task_controls setup hproxies) trivial
          (fun _ _ _ _ => trivial) (fun _ _ _ ho => ho) fun _ _ _ _ => trivial
      exact .inl (hpast.of_call h)
  | true =>
      rcases Task.prog_cases setup hproxies with ⟨answer, hprog⟩ | ⟨request, f, hpassed, hprog⟩
      · rw [hprog] at h
        cases h
      · rw [hprog] at h
        rcases h.of_bind with ⟨k, hk⟩ | ⟨_, _, _, -, -, hrest⟩
        · obtain ⟨past, o, k, complete, part, k', hpast, hspelled, hown, hpart⟩ := hk.of_subst
          exact .inr ⟨request, past, o, k, complete, part, k', hpassed, hpast, hspelled, hown,
            hpart⟩
        · cases hrest

/-! ## The process -/

/-- The tasks of the process, each where it has got to. -/
abbrev Process (ι ω : Type) := Pool ι (State ω) Op Op.Resp (Option Response)

/-- What was done, by which task, and what came of it. -/
abbrev Log (ι : Type) := Journal ι Op Op.Resp

/-- What a task did, and what it was answered. -/
abbrev Past := List ((o : Op) × o.Resp)

/-- **What `serve` starts with**: the audit history pruned, a router of the
accounts there are, no session, no chain, and the counters at zero. -/
def started {ω : Type} (setup : Setup) (expiredBefore : DateTime) (database : Database)
    (outside : ω) : Except StorageError (State ω) :=
  let database := (pruneAuditBefore expiredBefore database).1
  (routeAccounts.run Database.exec database).2.map fun accounts =>
    { database := database
      router := .new accounts
      sessions := .default
      transport := .new setup.policy
      metrics := fun _ => 0
      outside := outside }

/-- The process with all its tasks before it. -/
def opening {ι ω : Type} (setup : Setup) (tasks : ι → Task) (state : State ω) : Process ι ω :=
  ⟨state, fun i => (tasks i).prog setup⟩

/-- What is done under a schedule of the tasks. A task that is dropped is
one that has no turn any more. -/
def log {ι ω : Type} [DecidableEq ι] [Argon2] (world : World ω) (setup : Setup)
    (tasks : ι → Task) (state : State ω) (schedule : List ι) : Log ι :=
  (opening setup tasks state).journal (world.exec setup) schedule

end Tasks

/-! ## A service for examples -/

section Example

open scoped Plain

/-- Time stands still, every name has one public address, and the network
answers. -/
def World.still : World Unit where
  now _ := ((), minutes 0)
  elapsed _ := ((), 0)
  insertError _ _ := ((), none)
  network := { DataPlane.Transport.World.scripted with
    lookupHost := fun _ _ port => some [⟨.v4 ⟨93, 184, 216, 34⟩, port⟩] }
  parseError text := text

/-- A service that enforces. -/
def Setup.plain : Setup where
  plane := ⟨.enforce, ⟨Vector.replicate 32 0⟩, 1024⟩
  box := Plain.box
  manager := Sessions.admin
  policy := ⟨["api.anthropic.com"], false⟩
  runtime := ⟨.enforce, false, true⟩
  forward := ⟨⟨["api.anthropic.com"], false⟩, 1024⟩

/-- What it starts with. -/
def State.fresh (database : Database) : State Unit where
  database := database
  router := .new ((routeAccounts.run Database.exec database).2.toOption.getD [])
  sessions := .default
  transport := .new Setup.plain.policy
  metrics _ := 0
  outside := ()

/-- A store of one account. -/
def oneRow : Database :=
  ((upsertAccount Plain.box ⟨Vector.replicate 24 0, Vector.replicate 24 1⟩
    (Plain.account "a" .anthropicApiKey true) "key").run Database.exec .empty).1

/-- A client that asks for the models there are. -/
def askingModels (token : String) : Task :=
  .reverse ⟨"GET", some ⟨"/v1/models", none⟩, [("x-api-key", asBytes token)], []⟩

end Example

end Service

end Llmap
