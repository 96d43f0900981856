import Llmap.DataPlane.World
import Llmap.Plain
/-!
# Authentication modes

What a client's token and the repository's snapshot may decide in each
`AuthMode`. In every mode `handle` takes the token out of its headers and
asks for the snapshot first, and each of the two may end the request: two
tokens that differ, a header that is no text, a repository that fails. So
`off` and `observe` refuse requests for their credentials
(`off_refuses_for_credentials`).

A request that gets past both is treated as its mode says
(`modes_respected`): in `off` and in `observe` neither the token nor the
snapshot has a say in what is sent and what is returned.
-/

namespace Llmap

namespace DataPlane

open Auth Providers Routing Storage

/-! ## What two runs may differ in -/

/-- The headers that carry a client's token. -/
def credentialHeader (name : String) : Bool := name = "x-api-key" || name = "authorization"

/-- Requests that differ in the token they show and in nothing else. -/
structure SameButCredentials (request request' : ProxyRequest) : Prop where
  method : request.method = request'.method
  pathAndQuery : request.pathAndQuery = request'.pathAndQuery
  sessionFromPath : request.sessionFromPath = request'.sessionFromPath
  headers : request.headers.filter (fun header => !credentialHeader header.1) =
    request'.headers.filter fun header => !credentialHeader header.1
  body : request.body = request'.body

namespace World

variable {ω : Type} (world world' : World ω)

/-- Worlds that differ in what they answer for a snapshot and in nothing
else. -/
structure SameButSnapshots : Prop where
  others : world.others = world'.others
  moved : ∀ outside o, (world.answer outside o).1 = (world'.answer outside o).1
  answered : ∀ outside o, (∀ now, o ≠ .credentialSnapshot now) →
    (world.answer outside o).2 = (world'.answer outside o).2

/-- The time a request reads. -/
def clock (shared : Shared ω) : DateTime := (world.exec shared .now).2

/-- The snapshot it is given. -/
def snapshot (shared : Shared ω) : Except RepositoryError CredentialSnapshot :=
  (world.exec (world.exec shared .now).1 (.credentialSnapshot (world.clock shared))).2

/-- What it finds after that. -/
def checked (shared : Shared ω) : Shared ω :=
  (world.exec (world.exec shared .now).1 (.credentialSnapshot (world.clock shared))).1

/-- **A request that gets past its credentials**: it is turned away for
its size already, or its headers show one token at most and the
repository gives a snapshot. -/
def Passes (plane : Plane) (shared : Shared ω) (request : ProxyRequest) : Prop :=
  plane.maxRequestBytes < request.body.length ∨
    (presentedToken request.headers).isOk = true ∧ (world.snapshot shared).isOk = true

instance (plane : Plane) (shared : Shared ω) (request : ProxyRequest) :
    Decidable (world.Passes plane shared request) :=
  inferInstanceAs (Decidable (_ ∨ _ ∧ _))

variable {world world'}

/-- Worlds that differ in their snapshots carry out alike what asks for
none. -/
theorem SameButSnapshots.exec_eq (h : world.SameButSnapshots world') (shared : Shared ω) (o : Op)
    (ho : ∀ now, o ≠ .credentialSnapshot now) : world.exec shared o = world'.exec shared o := by
  have hrouter : world.router shared = world'.router shared := by
    rw [router, router, h.others]
  have helsewhere : world.elsewhere shared o = world'.elsewhere shared o := by
    rw [elsewhere, elsewhere, hrouter, h.moved, h.answered _ _ ho]
  have hlocked : ∀ {α : Type} (step : Router → Router × α),
      world.locked shared o step = world'.locked shared o step := by
    intro α step
    rw [locked, locked, hrouter, h.moved]
  cases o with
  | count metric => rfl
  | choose request now => exact hlocked fun router => router.choose request now
  | startRequest accountId => exact hlocked fun router => router.startRequest accountId
  | recordOutcome accountId outcome =>
      exact hlocked fun router => router.recordOutcome accountId outcome
  | now | elapsed | loadAccount | send | appendProxyAudit => exact helsewhere
  | credentialSnapshot now => exact absurd rfl (ho now)

/-- They take a request to the same point. -/
theorem SameButSnapshots.checked_eq (h : world.SameButSnapshots world') (shared : Shared ω) :
    world.clock shared = world'.clock shared ∧ world.checked shared = world'.checked shared := by
  have hnow : world.exec shared .now = world'.exec shared .now := h.exec_eq shared .now (by simp)
  have hclock : world.clock shared = world'.clock shared := by
    rw [clock, clock, hnow]
  refine ⟨hclock, ?_⟩
  have hrouter : ∀ shared, world.router shared = world'.router shared := by
    intro shared
    rw [router, router, h.others]
  rw [checked, checked, hnow, hclock]
  simp only [exec, elsewhere, hrouter, h.moved]

end World

/-! ## What forwarding reads and calls -/

/-- A header that carries no token is found whatever tokens there are. -/
theorem get_filter_credentials (headers : HeaderMap) {name : String}
    (hname : credentialHeader name = false) :
    HeaderMap.get (headers.filter fun header => !credentialHeader header.1) name =
      HeaderMap.get headers name := by
  unfold HeaderMap.get
  induction headers with
  | nil => rfl
  | cons header headers ih =>
      obtain ⟨name', value⟩ := header
      by_cases hcred : credentialHeader name' = true
      · have hne : (name == name') = false := by
          rw [beq_eq_false_iff_ne]
          rintro rfl
          rw [hname] at hcred
          cases hcred
        rw [List.filter_cons, if_neg (by simpa using hcred), ih, List.lookup_cons, hne]
      · rw [List.filter_cons, if_pos (by simpa using hcred), List.lookup_cons, List.lookup_cons,
          ih]

/-- A header that carries a token is passed on to no provider. -/
theorem safeRequestHeader_of_credential {name : String} (h : credentialHeader name = true) :
    safeRequestHeader name = false := by
  rcases (by simpa [credentialHeader] using h : name = "x-api-key" ∨ name = "authorization") with
    rfl | rfl
  · decide
  · decide

theorem copySafeRequestHeaders_filter (incoming : HeaderMap) (outgoing : Table String String) :
    copySafeRequestHeaders (incoming.filter fun header => !credentialHeader header.1) outgoing =
      copySafeRequestHeaders incoming outgoing := by
  induction incoming generalizing outgoing with
  | nil => rfl
  | cons header incoming ih =>
      obtain ⟨name, value⟩ := header
      by_cases hcred : credentialHeader name = true
      · rw [List.filter_cons, if_neg (by simpa using hcred), ih, copySafeRequestHeaders,
          if_neg (by simp [safeRequestHeader_of_credential hcred])]
      · rw [List.filter_cons, if_pos (by simpa using hcred), copySafeRequestHeaders,
          copySafeRequestHeaders]
        simp only [ih]

section Forward

variable [Codecs] [Serde] [Urls] [Digests] [Chrono]

/-- **Forwarding reads no token**: requests that differ in theirs are
forwarded by the same program. -/
theorem SameButCredentials.forward_eq {request request' : ProxyRequest}
    (h : SameButCredentials request request') (now : DateTime) :
    forward request now = forward request' now := by
  have hget : request.headers.get "x-llmap-session" = request'.headers.get "x-llmap-session" := by
    rw [← get_filter_credentials request.headers (by decide), h.headers,
      get_filter_credentials request'.headers (by decide)]
  have hcopy : ∀ outgoing, copySafeRequestHeaders request.headers outgoing =
      copySafeRequestHeaders request'.headers outgoing := by
    intro outgoing
    rw [← copySafeRequestHeaders_filter request.headers, h.headers,
      copySafeRequestHeaders_filter request'.headers]
  have hsession : sessionId request = sessionId request' := by
    unfold sessionId headerText
    rw [hget, h.sessionFromPath]
  have hasked : asked request = asked request' := by
    unfold asked
    rw [hsession, h.body, h.pathAndQuery]
  have hupstream : ∀ ask now account credential,
      upstreamRequest request ask now account credential =
        upstreamRequest request' ask now account credential := by
    intro ask now account credential
    unfold upstreamRequest upstreamBody
    simp only [hcopy, h.method, h.pathAndQuery, h.body]
  unfold forward
  simp only [hasked, hupstream]

/-- What `deliver` and `forward` call: no snapshot, and no counter of
authentication. -/
def Op.Forwarding : Op → Prop
  | .credentialSnapshot _ => False
  | .count metric => metric ≠ .authenticationFailuresTotal
  | _ => True

omit [Codecs] [Serde] [Urls] [Digests] [Chrono] in
theorem headerText_eq_error {headers : HeaderMap} {name : String} {error error' : DataPlaneError}
    (h : headerText headers name error = .error error') : error' = error := by
  unfold headerText at h
  repeat' split at h
  all_goals cases h
  rfl

omit [Codecs] [Serde] [Urls] [Digests] [Chrono] in
theorem sessionId_eq_error {request : ProxyRequest} {error : DataPlaneError}
    (h : sessionId request = .error error) : ∃ message, error = .badRequest message := by
  have hchecked : ∀ {value}, sessionId.checked value = .error error →
      ∃ message, error = .badRequest message := by
    intro value hvalue
    unfold sessionId.checked at hvalue
    split at hvalue
    · cases hvalue
    · exact ⟨_, (Except.error.inj hvalue).symm⟩
  unfold sessionId at h
  split at h
  · rename_i hheader
    obtain rfl := Except.error.inj h
    exact ⟨_, headerText_eq_error hheader⟩
  · split at h
    · split at h
      · exact ⟨_, (Except.error.inj h).symm⟩
      · exact hchecked h
    · exact hchecked h

omit [Codecs] [Serde] [Urls] [Digests] [Chrono] in
theorem copySafeRequestHeaders_eq_error {incoming : HeaderMap} {outgoing : Table String String}
    {error : DataPlaneError} (h : copySafeRequestHeaders incoming outgoing = .error error) :
    ∃ message, error = .badRequest message := by
  induction incoming generalizing outgoing with
  | nil => cases h
  | cons header incoming ih =>
      obtain ⟨name, value⟩ := header
      rw [copySafeRequestHeaders] at h
      split at h
      · split at h
        · exact ⟨_, (Except.error.inj h).symm⟩
        · exact ih h
      · exact ih h

omit [Codecs] [Serde] [Urls] [Digests] [Chrono] in
theorem eq_of_ite_error {c : Prop} [Decidable c] {α : Type} {value : α}
    {error error' : DataPlaneError}
    (h : (if c then .error error else .ok value : Except DataPlaneError α) = .error error') :
    error' = error := by
  split at h
  · exact (Except.error.inj h).symm
  · cases h

omit [Serde] [Urls] [Digests] [Chrono] in
theorem asked_eq_error {request : ProxyRequest} {error : DataPlaneError}
    (h : asked request = .error error) : ∃ message, error = .badRequest message := by
  unfold asked at h
  split at h
  · rename_i hsession
    obtain rfl := Except.error.inj h
    exact sessionId_eq_error hsession
  · exact ⟨_, eq_of_ite_error h⟩

/-- What is wrong with a request to a provider is not its credential. -/
theorem upstreamRequest_ne_unauthorized {request : ProxyRequest} {ask : Asked} {now : DateTime}
    {account : ProviderAccount} {credential : String} :
    upstreamRequest request ask now account credential ≠ .error .unauthorized := by
  intro h
  unfold upstreamRequest at h
  split at h
  · cases h
  · split at h
    · rename_i hbody
      obtain rfl := Except.error.inj h
      unfold upstreamBody at hbody
      split at hbody
      · cases hbody
      · unfold rewritten at hbody
        repeat' split at hbody
        all_goals cases hbody
    · split at h
      · rename_i hcopy
        obtain rfl := Except.error.inj h
        obtain ⟨message, hmessage⟩ := copySafeRequestHeaders_eq_error hcopy
        cases hmessage
      · split at h
        · cases h
        · cases h

omit [Serde] [Urls] [Digests] [Chrono] in
theorem deliver_obeys (ask : Asked) (now : DateTime) (provider : String)
    (account : ProviderAccount) (upstream : UpstreamRequest) :
    (deliver ask now provider account upstream).Obeys Op.Forwarding (fun _ _ => True)
      fun answer => answer.result ≠ .error .unauthorized := by
  refine ⟨trivial, ?_⟩
  rintro (error | _) -
  · simp [Answer.failed, Prog.Obeys]
  · refine ⟨trivial, ?_⟩
    rintro (error | response) -
    · exact ⟨trivial, fun _ _ => ⟨by simp [Op.Forwarding], fun _ _ => by simp [Prog.Obeys]⟩⟩
    · refine ⟨trivial, ?_⟩
      rintro (error | _) -
      · simp [Answer.failed, Prog.Obeys]
      · exact ⟨by simp [Op.Forwarding], fun _ _ => by simp [Prog.Obeys]⟩

/-- **Forwarding decides nothing about its client.** -/
theorem forward_obeys (request : ProxyRequest) (now : DateTime) :
    (forward request now).Obeys Op.Forwarding (fun _ _ => True)
      fun answer => answer.result ≠ .error .unauthorized := by
  unfold forward
  split
  · rename_i error herror
    obtain ⟨message, rfl⟩ := asked_eq_error herror
    simp [Answer.failed, Prog.Obeys]
  · refine ⟨trivial, ?_⟩
    rintro (error | selection) -
    · simp [Answer.failed, Prog.Obeys]
    · refine ⟨trivial, ?_⟩
      rintro ((_ | _ | _) | ⟨account, credential⟩) -
      · simp [Answer.failed, Prog.Obeys]
      · simp [Answer.failed, Prog.Obeys]
      · simp [Answer.failed, Prog.Obeys]
      · dsimp only
        split
        · rename_i error herror
          intro h
          obtain rfl : error = .unauthorized := Except.error.inj h
          exact upstreamRequest_ne_unauthorized herror
        · exact deliver_obeys _ _ _ _ _

end Forward

/-! ## What becomes of a request -/

section Handle

variable [Codecs] [Serde] [Urls] [Digests] [Chrono] {ω : Type} (world : World ω)

omit [Codecs] [Serde] [Urls] [Digests] [Chrono] in
theorem presentedToken_eq_error {headers : HeaderMap} {error : DataPlaneError}
    (h : presentedToken headers = .error error) : error = .unauthorized := by
  unfold presentedToken at h
  split at h
  · rename_i happ
    obtain rfl := Except.error.inj h
    exact headerText_eq_error happ
  · split at h
    · rename_i hauth
      obtain rfl := Except.error.inj h
      exact headerText_eq_error hauth
    · dsimp only at h
      split at h
      · exact eq_of_ite_error h
      · cases h

omit [Codecs] [Serde] [Urls] [Chrono] in
/-- The audit returns what it is given, and sends nothing. -/
theorem audited_spec (plane : Plane) (now : DateTime) (decision : AuthDecision) (answer : Answer)
    (shared : Shared ω) :
    ((audited plane now decision answer).run world.exec shared).2 = answer.result ∧
      Trace.sent ((audited plane now decision answer).trace world.exec shared) = [] ∧
      Trace.counted .authenticationFailuresTotal
        ((audited plane now decision answer).trace world.exec shared) = 0 := by
  unfold audited
  split
  · exact ⟨rfl, rfl, rfl⟩
  · exact ⟨rfl, rfl, rfl⟩

/-- **A client that is admitted** has its request forwarded, and a failure
that was observed is counted. -/
theorem admitted_spec (plane : Plane) (request : ProxyRequest) (now : DateTime)
    (decision : AuthDecision) (shared : Shared ω) :
    ((admitted plane request now decision).run world.exec shared).2 =
        ((forward request now).run world.exec shared).2.result ∧
      Trace.sent ((admitted plane request now decision).trace world.exec shared) =
        Trace.sent ((forward request now).trace world.exec shared) ∧
      Trace.counted .authenticationFailuresTotal
        ((admitted plane request now decision).trace world.exec shared) =
        if decision.observedFailure then 1 else 0 := by
  have hforward : Trace.counted .authenticationFailuresTotal
      ((forward request now).trace world.exec shared) = 0 := by
    refine List.countP_eq_zero.mpr fun event hevent hcount => ?_
    have hpre := (forward_obeys request now).of_mem_trace hevent
    rw [of_decide_eq_true hcount] at hpre
    exact hpre rfl
  obtain ⟨hresult, hsent, hcounted⟩ := audited_spec world plane now decision
    ((forward request now).run world.exec shared).2
    ((forward request now).run world.exec shared).1
  have hsent' : Trace.sent ((forward request now >>= audited plane now decision).trace world.exec
      shared) = Trace.sent ((forward request now).trace world.exec shared) := by
    rw [Prog.trace_bind, Trace.sent_append, hsent, List.append_nil]
  have hcounted' : Trace.counted .authenticationFailuresTotal
      ((forward request now >>= audited plane now decision).trace world.exec shared) = 0 := by
    rw [Prog.trace_bind, Trace.counted_append, hforward, hcounted]
  unfold admitted
  cases decision.observedFailure with
  | false => exact ⟨by rw [← hresult, ← Prog.run_bind]; rfl, hsent', hcounted'⟩
  | true =>
      -- counting leaves everything else as it is
      refine ⟨?_, hsent', ?_⟩
      · rw [← hresult, ← Prog.run_bind]
        rfl
      · exact (List.countP_cons_of_pos (by simp)).trans (congrArg (· + 1) hcounted')

/-- **What becomes of a request**, in the order in which it may end. -/
theorem handle_cases (plane : Plane) (shared : Shared ω) (request : ProxyRequest) :
    (plane.maxRequestBytes < request.body.length ∧
      world.result plane shared request = .error (.badRequest
        ("request body exceeds the " ++ toString plane.maxRequestBytes ++ " byte limit")) ∧
      Trace.sent (world.trace plane shared request) = []) ∨
    request.body.length ≤ plane.maxRequestBytes ∧
      ((presentedToken request.headers = .error .unauthorized ∧
        world.result plane shared request = .error .unauthorized ∧
        Trace.sent (world.trace plane shared request) = []) ∨
      ∃ token, presentedToken request.headers = .ok token ∧
        ((∃ error, world.snapshot shared = .error error ∧
          world.result plane shared request = .error .credentialStoreUnavailable ∧
          Trace.sent (world.trace plane shared request) = []) ∨
        ∃ snapshot, world.snapshot shared = .ok snapshot ∧
          ((∃ error, plane.authenticator.authorize plane.authMode token snapshot
              (world.clock shared) = .error error ∧
            world.result plane shared request = .error (authFailure error) ∧
            Trace.sent (world.trace plane shared request) = []) ∨
          ∃ decision, plane.authenticator.authorize plane.authMode token snapshot
              (world.clock shared) = .ok decision ∧
            world.result plane shared request =
              ((forward request (world.clock shared)).run world.exec
                (world.checked shared)).2.result ∧
            Trace.sent (world.trace plane shared request) =
              Trace.sent ((forward request (world.clock shared)).trace world.exec
                (world.checked shared)) ∧
            Trace.counted .authenticationFailuresTotal (world.trace plane shared request) =
              if decision.observedFailure then 1 else 0))) := by
  by_cases hsize : plane.maxRequestBytes < request.body.length
  · refine .inl ⟨hsize, ?_, ?_⟩
    · rw [World.result, handle, Prog.run_call, if_pos hsize]
      rfl
    · rw [World.trace, handle, Prog.trace_call, if_pos hsize]
      rfl
  · refine .inr ⟨Nat.le_of_not_lt hsize, ?_⟩
    cases htoken : presentedToken request.headers with
    | error error =>
        obtain rfl := presentedToken_eq_error htoken
        refine .inl ⟨rfl, ?_, ?_⟩
        · simp [World.result, handle, hsize, htoken]
        · simp [World.trace, handle, hsize, htoken, Trace.sent]
    | ok token =>
        refine .inr ⟨token, rfl, ?_⟩
        have hresult : world.result plane shared request =
            ((authorized plane request token (world.clock shared)
              (world.snapshot shared)).run world.exec (world.checked shared)).2 := by
          rw [World.result, handle, Prog.run_call, if_neg hsize, htoken]
          rfl
        have htrace : ∃ before, world.trace plane shared request = before ++
            (authorized plane request token (world.clock shared)
              (world.snapshot shared)).trace world.exec (world.checked shared) ∧
            Trace.sent before = [] ∧ Trace.counted .authenticationFailuresTotal before = 0 := by
          rw [World.trace, handle, Prog.trace_call, if_neg hsize, htoken]
          exact ⟨[_, _, _], rfl, rfl, rfl⟩
        obtain ⟨before, htrace, hsent, hcounted⟩ := htrace
        rw [hresult, htrace, Trace.sent_append, Trace.counted_append, hsent, hcounted,
          List.nil_append, Nat.zero_add]
        cases hsnapshot : world.snapshot shared with
        | error error => exact .inl ⟨error, rfl, rfl, rfl⟩
        | ok snapshot =>
            refine .inr ⟨snapshot, rfl, ?_⟩
            cases hauthorize : plane.authenticator.authorize plane.authMode token snapshot
                (world.clock shared) with
            | error error =>
                have hrejected : authorized plane request token (world.clock shared)
                    (.ok snapshot) = rejected (world.clock shared) error := by
                  simp only [authorized, hauthorize]
                rw [hrejected]
                exact .inl ⟨error, rfl, rfl, rfl⟩
            | ok decision =>
                have hadmitted : authorized plane request token (world.clock shared)
                    (.ok snapshot) = admitted plane request (world.clock shared) decision := by
                  simp only [authorized, hauthorize]
                rw [hadmitted]
                exact .inr ⟨decision, rfl, admitted_spec world plane request _ decision _⟩

/-! ## The modes -/

omit [Codecs] [Serde] [Urls] [Chrono] in
/-- Only `enforce` turns a client away. -/
theorem authorize_of_ne_enforce (authenticator : Authenticator) {mode : AuthMode}
    (hmode : mode ≠ .enforce) (token : Option String) (snapshot : CredentialSnapshot)
    (now : DateTime) :
    ∃ decision, authenticator.authorize mode token snapshot now = .ok decision := by
  cases mode with
  | off => exact ⟨_, rfl⟩
  | enforce => exact absurd rfl hmode
  | observe =>
      cases snapshot with
      | unavailable => exact ⟨_, rfl⟩
      | available accounts =>
          simp only [Authenticator.authorize]
          split
          · exact ⟨_, rfl⟩
          · exact ⟨_, rfl⟩

/-- Where no client is turned away, a request that gets past its
credentials is forwarded. -/
theorem forwarded_of_passes {plane : Plane} (hmode : plane.authMode ≠ .enforce)
    {shared : Shared ω} {request : ProxyRequest}
    (hsize : request.body.length ≤ plane.maxRequestBytes)
    (hpasses : world.Passes plane shared request) :
    world.result plane shared request =
        ((forward request (world.clock shared)).run world.exec (world.checked shared)).2.result ∧
      Trace.sent (world.trace plane shared request) =
        Trace.sent ((forward request (world.clock shared)).trace world.exec
          (world.checked shared)) := by
  have hpasses : (presentedToken request.headers).isOk = true ∧
      (world.snapshot shared).isOk = true :=
    hpasses.resolve_left (Nat.not_lt_of_le hsize)
  rcases handle_cases world plane shared request with ⟨hlarge, -⟩ |
    ⟨-, ⟨htoken, -⟩ | ⟨token, -, ⟨error, hsnapshot, -⟩ | ⟨snapshot, -, ⟨error, hauthorize, -⟩ |
      ⟨decision, -, hresult, hsent, -⟩⟩⟩⟩
  · exact absurd hlarge (Nat.not_lt_of_le hsize)
  · rw [htoken] at hpasses
    cases hpasses.1
  · rw [hsnapshot] at hpasses
    cases hpasses.2
  · obtain ⟨decision, hdecision⟩ := authorize_of_ne_enforce plane.authenticator hmode token
      snapshot (world.clock shared)
    rw [hdecision] at hauthorize
    cases hauthorize
  · exact ⟨hresult, hsent⟩

variable {world} in
/-- **Two runs.** Where no client is turned away, requests that get past
their credentials are treated alike, whatever token they show and whatever
snapshot there is. -/
theorem alike_of_ne_enforce {plane : Plane} (hmode : plane.authMode ≠ .enforce) {world' : World ω}
    {shared : Shared ω} {request request' : ProxyRequest} (hworld : world.SameButSnapshots world')
    (hrequest : SameButCredentials request request') (hpasses : world.Passes plane shared request)
    (hpasses' : world'.Passes plane shared request') :
    world.result plane shared request = world'.result plane shared request' ∧
      Trace.sent (world.trace plane shared request) =
        Trace.sent (world'.trace plane shared request') := by
  rcases Nat.lt_or_ge plane.maxRequestBytes request.body.length with hsize | hsize
  · have hsize' : plane.maxRequestBytes < request'.body.length := hrequest.body ▸ hsize
    have hlarge : ∀ (world : World ω) request, plane.maxRequestBytes < request.body.length →
        world.result plane shared request = .error (.badRequest
          ("request body exceeds the " ++ toString plane.maxRequestBytes ++ " byte limit")) ∧
        Trace.sent (world.trace plane shared request) = [] := by
      intro world request hsize
      rcases handle_cases world plane shared request with ⟨-, hresult, hsent⟩ | ⟨hsmall, -⟩
      · exact ⟨hresult, hsent⟩
      · exact absurd hsize (Nat.not_lt_of_le hsmall)
    obtain ⟨hresult, hsent⟩ := hlarge world request hsize
    obtain ⟨hresult', hsent'⟩ := hlarge world' request' hsize'
    exact ⟨hresult.trans hresult'.symm, hsent.trans hsent'.symm⟩
  · obtain ⟨hresult, hsent⟩ := forwarded_of_passes world hmode hsize hpasses
    obtain ⟨hresult', hsent'⟩ := forwarded_of_passes world' hmode (hrequest.body ▸ hsize) hpasses'
    obtain ⟨hclock, hchecked⟩ := hworld.checked_eq shared
    -- from here on the two run one program, in worlds that answer it alike
    obtain ⟨hrun, htrace⟩ := (forward_obeys request (world.clock shared)).run_congr
      (fun shared o ho => hworld.exec_eq shared o (by rintro now rfl; exact ho))
      (world.checked shared)
    rw [hresult, hsent, hresult', hsent', ← hclock, ← hchecked, ← hrequest.forward_eq, hrun, htrace]
    exact ⟨rfl, rfl⟩

/-- **The modes are respected** by every request, in every world: by those
that get past their credentials in `off` and in `observe`, which are
otherwise refused, and by all in `enforce`. -/
theorem modes_respected (plane : Plane) (shared : Shared ω) (request : ProxyRequest) :
    (plane.authMode = .off → ∀ (world' : World ω) request',
      world.SameButSnapshots world' → SameButCredentials request request' →
        world.Passes plane shared request → world'.Passes plane shared request' →
          world.result plane shared request = world'.result plane shared request' ∧
            Trace.sent (world.trace plane shared request) =
              Trace.sent (world'.trace plane shared request')) ∧
    (plane.authMode = .observe → world.Passes plane shared request →
      world.result plane shared request ≠ .error .unauthorized ∧
        (∀ (world' : World ω) request', world.SameButSnapshots world' →
          SameButCredentials request request' → world'.Passes plane shared request' →
            world.result plane shared request = world'.result plane shared request' ∧
              Trace.sent (world.trace plane shared request) =
                Trace.sent (world'.trace plane shared request')) ∧
        (request.body.length ≤ plane.maxRequestBytes → world.snapshot shared = .ok .unavailable →
          Trace.counted .authenticationFailuresTotal (world.trace plane shared request) = 1)) ∧
    (plane.authMode = .enforce → Trace.sent (world.trace plane shared request) ≠ [] →
      ∃ token snapshot decision, presentedToken request.headers = .ok token ∧
        world.snapshot shared = .ok snapshot ∧
        plane.authenticator.authorize .enforce token snapshot (world.clock shared) =
          .ok decision) ∧
    (plane.authMode ≠ .enforce → ¬ world.Passes plane shared request →
      Trace.sent (world.trace plane shared request) = [] ∧
        (world.result plane shared request = .error .unauthorized ∨
          world.result plane shared request = .error .credentialStoreUnavailable)) := by
  refine ⟨?_, ?_, ?_, ?_⟩
  · intro hmode world' request' hworld hrequest hpasses hpasses'
    exact alike_of_ne_enforce (by simp [hmode]) hworld hrequest hpasses hpasses'
  · intro hmode hpasses
    refine ⟨?_, ?_, ?_⟩
    · rcases handle_cases world plane shared request with ⟨-, hresult, -⟩ | ⟨hsize, -⟩
      · simp [hresult]
      · rw [(forwarded_of_passes world (by simp [hmode]) hsize hpasses).1]
        exact (forward_obeys request (world.clock shared)).run (world.checked shared)
    · intro world' request' hworld hrequest hpasses'
      exact alike_of_ne_enforce (by simp [hmode]) hworld hrequest hpasses hpasses'
    · intro hsize hunavailable
      rcases handle_cases world plane shared request with ⟨hlarge, -⟩ |
        ⟨-, ⟨htoken, -⟩ | ⟨token, -, ⟨error, hsnapshot, -⟩ | ⟨snapshot, hsnapshot, hdecided⟩⟩⟩
      · exact absurd hlarge (Nat.not_lt_of_le hsize)
      · have htoken' := (hpasses.resolve_left (Nat.not_lt_of_le hsize)).1
        rw [htoken] at htoken'
        cases htoken'
      · rw [hunavailable] at hsnapshot
        cases hsnapshot
      · obtain rfl : CredentialSnapshot.unavailable = snapshot :=
          Except.ok.inj (hunavailable.symm.trans hsnapshot)
        rw [hmode] at hdecided
        rcases hdecided with ⟨error, hauthorize, -⟩ | ⟨decision, hauthorize, -, -, hcounted⟩
        · cases hauthorize
        · obtain rfl := Except.ok.inj hauthorize
          exact hcounted
  · intro hmode hsent
    rcases handle_cases world plane shared request with ⟨-, -, hnone⟩ | ⟨-, ⟨-, -, hnone⟩ |
      ⟨token, htoken, ⟨error, -, -, hnone⟩ | ⟨snapshot, hsnapshot, ⟨error, -, -, hnone⟩ |
        ⟨decision, hauthorize, -⟩⟩⟩⟩
    · exact absurd hnone hsent
    · exact absurd hnone hsent
    · exact absurd hnone hsent
    · exact absurd hnone hsent
    · exact ⟨token, snapshot, decision, htoken, hsnapshot, hmode ▸ hauthorize⟩
  · intro hmode hrefused
    rcases handle_cases world plane shared request with ⟨hlarge, -⟩ | ⟨-, ⟨-, hresult, hnone⟩ |
      ⟨token, htoken, ⟨error, -, hresult, hnone⟩ | ⟨snapshot, hsnapshot, -⟩⟩⟩
    · exact absurd (.inl hlarge) hrefused
    · exact ⟨hnone, .inl hresult⟩
    · exact ⟨hnone, .inr hresult⟩
    · refine absurd (.inr ⟨?_, ?_⟩) hrefused
      · rw [htoken]
        rfl
      · rw [hsnapshot]
        rfl

end Handle

section Example

open scoped Plain
open World

/-- Two tokens that differ. -/
def twoTokens : HeaderMap :=
  [("x-api-key", asBytes "one"), ("authorization", asBytes "Bearer other")]

/-- With `off` a request is sent and answered alike, whatever token it
shows and whatever snapshot there is. -/
theorem modes_respected_off :
    let plane : Plane := ⟨.off, ⟨Vector.replicate 32 0⟩, 0⟩
    (World.plain (fun _ => []) (.ok .unavailable) 200).result plane oneAccount (listModels []) =
      (World.plain (fun _ => []) (.ok (.available [])) 200).result plane oneAccount
        (listModels [("x-api-key", asBytes "one")]) := by
  refine ((modes_respected (World.plain (fun _ => []) (.ok .unavailable) 200)
    ⟨.off, ⟨Vector.replicate 32 0⟩, 0⟩ oneAccount (listModels [])).1 rfl _ _
    ⟨rfl, fun _ o => ?_, fun _ o ho => ?_⟩ ⟨rfl, rfl, rfl, by decide, rfl⟩ (by decide +kernel)
    (by decide +kernel)).1
  · cases o <;> rfl
  · cases o with
    | credentialSnapshot now => exact absurd rfl (ho now)
    | _ => rfl

/-- **`off` and `observe` refuse requests for their credentials.** With two
tokens that differ, or with a repository that fails, a request that is
otherwise sent and answered is not. -/
theorem off_refuses_for_credentials :
    let plane : AuthMode → Plane := fun mode => ⟨mode, ⟨Vector.replicate 32 0⟩, 0⟩
    let world := World.plain (fun _ => []) (.ok (.available [])) 200
    let failing := World.plain (fun _ => []) (.error .unavailable) 200
    (∀ mode ∈ [AuthMode.off, .observe],
      world.result (plane mode) oneAccount (listModels []) = .ok ⟨200, [], []⟩ ∧
        (Trace.sent (world.trace (plane mode) oneAccount (listModels []))).length = 1) ∧
    (∀ mode ∈ [AuthMode.off, .observe],
      world.result (plane mode) oneAccount (listModels twoTokens) = .error .unauthorized ∧
        Trace.sent (world.trace (plane mode) oneAccount (listModels twoTokens)) = []) ∧
    ∀ mode ∈ [AuthMode.off, .observe],
      failing.result (plane mode) oneAccount (listModels []) =
          .error .credentialStoreUnavailable ∧
        Trace.sent (failing.trace (plane mode) oneAccount (listModels [])) = [] := by
  decide +kernel

end Example

end DataPlane

end Llmap
