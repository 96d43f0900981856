import Llmap.DataPlane.World
import Llmap.Providers.Canonical
/-!
# What goes out

The request that is sent upstream is put together in three stages: the
adapter's headers, then those of the client that are safe to pass on,
then the signature. It depends on the client through the method, the
path, the body and the safe headers alone, and whatever else the client
sends makes no difference (`outbound_noninterference`). What the adapter
sets stays as it sets it, as a client's header is only put where there is
none and the signature goes in last.
-/

namespace Llmap

namespace DataPlane

open Auth Providers Routing Storage

/-! ## The client's headers -/

/-- `entry(..).or_insert(..)`. -/
theorem getElem?_orInsert (headers : Table String String) (name value name' : String) :
    (if headers.contains name then headers else headers.insert name value)[name']? =
      headers[name']?.or (if name = name' then some value else none) := by
  by_cases hname : name = name'
  · subst hname
    by_cases hthere : name ∈ headers
    · simp [hthere]
    · simp [hthere]
  · split <;> simp [Std.ExtTreeMap.getElem?_insert, hname]

theorem get_cons (name name' : String) (value : Bytes) (headers : HeaderMap) :
    HeaderMap.get ((name', value) :: headers) name =
      if name' = name then some value else headers.get name := by
  by_cases hname : name' = name
  · simp [HeaderMap.get, hname]
  · have hne : (name == name') = false := by simpa using Ne.symm hname
    simp [HeaderMap.get, List.lookup_cons, hne, hname]

/-- **Copying, header by header**: one that is there stays, and one that is
not is the first of its name the client sent, if it is safe. -/
theorem getElem?_copySafeRequestHeaders {incoming : HeaderMap}
    {outgoing copied : Table String String}
    (h : copySafeRequestHeaders incoming outgoing = .ok copied) (name : String) :
    copied[name]? = outgoing[name]?.or
      (if safeRequestHeader name then (incoming.get name).bind HeaderMap.toStr else none) := by
  induction incoming generalizing outgoing with
  | nil =>
      obtain rfl := Except.ok.inj h
      simp [HeaderMap.get]
  | cons header incoming ih =>
      obtain ⟨name', value⟩ := header
      rw [copySafeRequestHeaders] at h
      rw [get_cons]
      by_cases hsafe : safeRequestHeader name' = true
      · rw [if_pos hsafe] at h
        cases htext : HeaderMap.toStr value with
        | none => simp [htext] at h
        | some text =>
            simp only [htext] at h
            rw [ih h, getElem?_orInsert, Option.or_assoc]
            by_cases hname : name' = name
            · subst hname
              simp [hsafe, htext]
            · simp [hname]
      · rw [if_neg hsafe] at h
        rw [ih h]
        by_cases hname : name' = name
        · subst hname
          simp [hsafe]
        · simp [hname]

/-! ## The signature -/

section Sign

variable [Urls] [Digests] [Chrono]

omit [Urls] in
/-- The text of an `authorization`, over the canonical request and the
names of the headers it covers. -/
def authorizationText (envelope : AwsCredentialEnvelope) (now : DateTime) (names : List String)
    (canonicalRequest : String) : String :=
  let date := Chrono.formatDate now
  let amzDate := Chrono.formatInstant now
  let service := envelope.service.getD "bedrock"
  let scope := date ++ "/" ++ envelope.region ++ "/" ++ service ++ "/aws4_request"
  let stringToSign := "AWS4-HMAC-SHA256\n" ++ amzDate ++ "\n" ++ scope ++ "\n" ++
    hex (Digests.sha256 (asBytes canonicalRequest))
  "AWS4-HMAC-SHA256 Credential=" ++ envelope.accessKeyId ++ "/" ++ scope ++ ", SignedHeaders=" ++
    ";".intercalate names ++ ", Signature=" ++ awsSignature envelope date service stringToSign

/-- The `authorization` of a request that is signed, over the headers it
goes out with. -/
def awsAuthorization (envelope : AwsCredentialEnvelope) (method : String) (url : Url)
    (body : Bytes) (headers : Table String String) (now : DateTime) : String :=
  let names := signedHeaderNames headers envelope.sessionToken
  authorizationText envelope now names
    (canonicalRequest method (hex (Digests.sha256 body)) url headers names)

/-- What a signature does to a request: the headers it covers, and then
itself. -/
theorem signRequest_eq_ok {envelope : AwsCredentialEnvelope} {method : String} {body : Bytes}
    {now : DateTime} {prepared finished : PreparedProviderRequest}
    (h : signRequest envelope method body now prepared = .ok finished) :
    ∃ host, canonicalHost prepared.url = .ok host ∧
      let headers := amzHeaders host (hex (Digests.sha256 body)) (Chrono.formatInstant now)
        envelope.sessionToken prepared.headers
      let authorization := awsAuthorization envelope method prepared.url body headers now
      finished = { prepared with headers := headers.insert "authorization" authorization } := by
  unfold signRequest at h
  split at h
  · cases h
  · rename_i host hhost
    exact ⟨host, hhost, (Except.ok.inj h).symm⟩

omit [Digests] [Chrono] in
theorem canonicalRequest_congr {method payloadHash : String} {url : Url}
    {headers headers' : Table String String} {names : List String}
    (h : ∀ name ∈ names, headers[name]? = headers'[name]?) :
    canonicalRequest method payloadHash url headers names =
      canonicalRequest method payloadHash url headers' names := by
  have hmap : names.map (fun name => name ++ ":" ++
      collapseWhitespace (headers[name]?.getD "") ++ "\n") =
      names.map fun name => name ++ ":" ++
        collapseWhitespace (headers'[name]?.getD "") ++ "\n" :=
    List.map_congr_left fun name hname => by rw [h name hname]
  simp only [canonicalRequest, hmap]

/-- A signature does not cover itself. -/
theorem awsAuthorization_insert (envelope : AwsCredentialEnvelope) (method : String) (url : Url)
    (body : Bytes) (headers : Table String String) (now : DateTime) (authorization : String) :
    awsAuthorization envelope method url body (headers.insert "authorization" authorization) now =
      awsAuthorization envelope method url body headers now := by
  have hnames : signedHeaderNames (headers.insert "authorization" authorization)
      envelope.sessionToken = signedHeaderNames headers envelope.sessionToken := by
    simp [signedHeaderNames, Std.ExtTreeMap.contains_insert]
  have hsame : ∀ name ∈ signedHeaderNames headers envelope.sessionToken,
      (headers.insert "authorization" authorization)[name]? = headers[name]? := by
    intro name hname
    have hsigned := mem_signedHeaderNames hname
    have hne : "authorization" ≠ name := by
      rintro rfl
      simp at hsigned
    simp [Std.ExtTreeMap.getElem?_insert, hne]
  rw [awsAuthorization, awsAuthorization, hnames, canonicalRequest_congr hsame]

end Sign

/-! ## The request -/

section Request

variable [Codecs] [Serde] [Urls] [Digests] [Chrono]

/-- What a request to a provider is put together from. -/
theorem upstreamRequest_eq_ok {request : ProxyRequest} {ask : Asked} {now : DateTime}
    {account : ProviderAccount} {credential : String} {upstream : UpstreamRequest}
    (h : upstreamRequest request ask now account credential = .ok upstream) :
    ∃ prepared body headers finished,
      prepareRequestForStream account credential request.pathAndQuery ask.model ask.stream =
        .ok prepared ∧
      upstreamBody account.kind request ask.json prepared.upstreamModel = .ok body ∧
      copySafeRequestHeaders request.headers prepared.headers = .ok headers ∧
      finalizeRequestAuth account credential request.method body now
        { prepared with headers := headers } = .ok finished ∧
      upstream = ⟨account.id, request.method, finished.url, body, account.egressProxies,
        finished.headers⟩ := by
  unfold upstreamRequest at h
  split at h
  · cases h
  · rename_i prepared hprepared
    split at h
    · cases h
    · rename_i body hbody
      split at h
      · cases h
      · rename_i headers hheaders
        split at h
        · cases h
        · rename_i finished hfinished
          exact ⟨prepared, body, headers, finished, hprepared, hbody, hheaders, hfinished,
            (Except.ok.inj h).symm⟩

/-- **Requests that agree in what is passed on** go out alike. -/
structure SameButOthers (request request' : ProxyRequest) : Prop where
  method : request.method = request'.method
  pathAndQuery : request.pathAndQuery = request'.pathAndQuery
  body : request.body = request'.body
  headers : ∀ name, safeRequestHeader name = true →
    request.headers.get name = request'.headers.get name

omit [Codecs] [Serde] [Urls] [Digests] [Chrono] in
theorem SameButOthers.copied_eq {request request' : ProxyRequest}
    (h : SameButOthers request request') {outgoing headers headers' : Table String String}
    (hheaders : copySafeRequestHeaders request.headers outgoing = .ok headers)
    (hheaders' : copySafeRequestHeaders request'.headers outgoing = .ok headers') :
    headers = headers' := by
  refine Std.ExtTreeMap.ext_getElem? fun name => ?_
  rw [getElem?_copySafeRequestHeaders hheaders, getElem?_copySafeRequestHeaders hheaders']
  by_cases hsafe : safeRequestHeader name = true
  · rw [h.headers name hsafe]
  · simp [hsafe]

omit [Serde] [Urls] [Digests] [Chrono] in
/-- What is asked for is in the body. -/
theorem asked_eq_ok {request : ProxyRequest} {ask : Asked} (h : asked request = .ok ask) :
    ask.json = (if request.body = [] then none else Codecs.jsonFromSlice request.body) ∧
      ask.model = ((ask.json.bind (·.get "model")).bind Json.asStr).getD "" ∧
      ask.stream = ((ask.json.bind (·.get "stream")).bind Json.asBool).getD false ∧
      (startsWithStr request.pathAndQuery "/v1/messages" = true → ask.model ≠ "") := by
  unfold asked at h
  split at h
  · cases h
  · dsimp only at h
    generalize (if request.body = [] then none else Codecs.jsonFromSlice request.body) = json at h ⊢
    split at h
    · cases h
    · rename_i hmodel
      cases h
      exact ⟨rfl, rfl, rfl, fun hpath hempty => hmodel (by simpa [hpath] using hempty)⟩

omit [Serde] [Urls] [Digests] [Chrono] in
theorem SameButOthers.asked_eq {request request' : ProxyRequest}
    (h : SameButOthers request request') {ask ask' : Asked} (hask : asked request = .ok ask)
    (hask' : asked request' = .ok ask') :
    ask.json = ask'.json ∧ ask.model = ask'.model ∧ ask.stream = ask'.stream := by
  obtain ⟨hjson, hmodel, hstream, -⟩ := asked_eq_ok hask
  obtain ⟨hjson', hmodel', hstream', -⟩ := asked_eq_ok hask'
  have hsame : ask.json = ask'.json := by rw [hjson, hjson', h.body]
  exact ⟨hsame, by rw [hmodel, hmodel', hsame], by rw [hstream, hstream', hsame]⟩

theorem SameButOthers.upstreamRequest_eq {request request' : ProxyRequest}
    (h : SameButOthers request request') {ask ask' : Asked} (hask : asked request = .ok ask)
    (hask' : asked request' = .ok ask') {now : DateTime} {account : ProviderAccount}
    {credential : String} {upstream upstream' : UpstreamRequest}
    (hupstream : upstreamRequest request ask now account credential = .ok upstream)
    (hupstream' : upstreamRequest request' ask' now account credential = .ok upstream') :
    upstream = upstream' := by
  obtain ⟨hjson, hmodel, hstream⟩ := h.asked_eq hask hask'
  obtain ⟨prepared, body, headers, finished, hprepared, hbody, hheaders, hfinished, rfl⟩ :=
    upstreamRequest_eq_ok hupstream
  obtain ⟨prepared', body', headers', finished', hprepared', hbody', hheaders', hfinished', rfl⟩ :=
    upstreamRequest_eq_ok hupstream'
  -- stage by stage: the adapter, the body, the client's headers, the signature
  rw [← h.pathAndQuery, ← hmodel, ← hstream, hprepared] at hprepared'
  obtain rfl := Except.ok.inj hprepared'
  have hsame : upstreamBody account.kind request' ask'.json prepared.upstreamModel =
      upstreamBody account.kind request ask.json prepared.upstreamModel := by
    unfold upstreamBody
    rw [h.body, h.pathAndQuery, hjson]
  rw [hsame, hbody] at hbody'
  obtain rfl := Except.ok.inj hbody'
  obtain rfl := h.copied_eq hheaders hheaders'
  rw [← h.method, hfinished] at hfinished'
  obtain rfl := Except.ok.inj hfinished'
  rw [h.method]

/-- **What the adapter sets** of a request: the headers that show the
credential, and for an account that signs those of the signature. -/
structure CarriesAdapter (account : ProviderAccount) (credential : String) (now : DateTime)
    (upstream : UpstreamRequest) : Prop where
  shown : ∃ headers, credentialHeaders account credential = .ok headers ∧
    ∀ name value : String, headers[name]? = some value → upstream.headers[name]? = some value
  signed : account.kind = .bedrockSigV4 → ∃ envelope host,
    Serde.awsEnvelopeFromStr credential = some envelope ∧ canonicalHost upstream.url = .ok host ∧
    upstream.headers["host"]? = some host ∧
    upstream.headers["x-amz-content-sha256"]? = some (hex (Digests.sha256 upstream.body)) ∧
    upstream.headers["x-amz-date"]? = some (Chrono.formatInstant now) ∧
    (∀ token ∈ envelope.sessionToken, upstream.headers["x-amz-security-token"]? = some token) ∧
    upstream.headers["authorization"]? = some (awsAuthorization envelope upstream.method
      upstream.url upstream.body upstream.headers now)

/-- **The adapter's headers go out** as the adapter sets them. -/
theorem carriesAdapter_of_upstreamRequest {request : ProxyRequest} {ask : Asked} {now : DateTime}
    {account : ProviderAccount} {credential : String} {upstream : UpstreamRequest}
    (h : upstreamRequest request ask now account credential = .ok upstream) :
    CarriesAdapter account credential now upstream := by
  obtain ⟨prepared, body, headers, finished, hprepared, -, hheaders, hfinished, rfl⟩ :=
    upstreamRequest_eq_ok h
  obtain ⟨-, -, -, -, -, hset⟩ := prepareRequestForStream_eq_ok_iff.mp hprepared
  unfold finalizeRequestAuth at hfinished
  by_cases hkind : account.kind = .bedrockSigV4
  · rw [if_neg (not_not.mpr hkind)] at hfinished
    split at hfinished
    · cases hfinished
    · rename_i envelope henvelope
      split at hfinished
      · cases hfinished
      · obtain ⟨host, hhost, rfl⟩ := signRequest_eq_ok hfinished
        refine ⟨⟨∅, ?_, by simp⟩, fun _ => ⟨envelope, host, henvelope, hhost, ?_, ?_, ?_, ?_, ?_⟩⟩
        · simp [credentialHeaders, hkind]
        · simp [Std.ExtTreeMap.getElem?_insert, getElem?_amzHeaders]
        · simp [Std.ExtTreeMap.getElem?_insert, getElem?_amzHeaders]
        · simp [Std.ExtTreeMap.getElem?_insert, getElem?_amzHeaders]
        · intro token htoken
          simp [Std.ExtTreeMap.getElem?_insert, getElem?_amzHeaders, Option.mem_def.mp htoken]
        · simp only [Std.ExtTreeMap.getElem?_insert_self, awsAuthorization_insert]
  · rw [if_pos hkind] at hfinished
    obtain rfl := Except.ok.inj hfinished
    refine ⟨⟨prepared.headers, hset, fun name value hvalue => ?_⟩,
      fun hsigns => absurd hsigns hkind⟩
    rw [getElem?_copySafeRequestHeaders hheaders, hvalue, Option.some_or]

end Request

/-! ## The run -/

namespace Trace

/-- The times a request read. -/
def times (trace : Trace) : List DateTime :=
  trace.filterMap fun
    | ⟨.now, now⟩ => some now
    | _ => none

/-- The accounts it was given, with their credentials. -/
def loaded (trace : Trace) : List (ProviderAccount × String) :=
  trace.filterMap fun
    | ⟨.loadAccount _, .ok loaded⟩ => some loaded
    | _ => none

variable (left right : Trace)

@[simp] theorem times_append :
    Trace.times (left ++ right) = Trace.times left ++ Trace.times right :=
  List.filterMap_append

@[simp] theorem loaded_append :
    Trace.loaded (left ++ right) = Trace.loaded left ++ Trace.loaded right :=
  List.filterMap_append

/-- What has neither an account nor an answer from upstream in it. -/
structure Silent (trace : Trace) : Prop where
  loaded : Trace.loaded trace = []
  replies : Trace.replies trace = []

theorem sent_eq_map_replies (trace : Trace) :
    Trace.sent trace = (Trace.replies trace).map Prod.fst := by
  unfold Trace.sent Trace.replies
  rw [List.map_filterMap]
  refine List.filterMap_congr ?_
  rintro ⟨o, answer⟩ -
  cases o <;> rfl

theorem Silent.sent {trace : Trace} (h : Silent trace) : Trace.sent trace = [] := by
  rw [sent_eq_map_replies, h.replies, List.map_nil]

end Trace

section Handle

variable [Codecs] [Serde] [Urls] [Digests] [Chrono]

/-- **What a request sends**: nothing, or one request, put together from
the account it was given. -/
def Sends (request : ProxyRequest) (now : DateTime) (trace : Trace) : Prop :=
  Trace.sent trace = [] ∨ ∃ ask account credential upstream,
    asked request = .ok ask ∧ Trace.loaded trace = [(account, credential)] ∧
    upstreamRequest request ask now account credential = .ok upstream ∧
    Trace.sent trace = [upstream]

omit [Serde] [Urls] [Digests] [Chrono] in
/-- Delivering sends the one request, and reads no clock and no account. -/
theorem deliver_sends (ask : Asked) (now : DateTime) (provider : String)
    (account : ProviderAccount) (upstream : UpstreamRequest) :
    (deliver ask now provider account upstream).Yields fun trace _ =>
      Trace.times trace = [] ∧ Trace.loaded trace = [] ∧
        (Trace.sent trace = [] ∨ Trace.sent trace = [upstream]) := by
  rintro (error | _)
  · exact ⟨rfl, rfl, .inl rfl⟩
  · rintro (error | response)
    · rintro (error | _) _
      · exact ⟨rfl, rfl, .inr rfl⟩
      · exact ⟨rfl, rfl, .inr rfl⟩
    · rintro (error | _)
      · exact ⟨rfl, rfl, .inr rfl⟩
      · rintro _
        exact ⟨rfl, rfl, .inr rfl⟩

theorem forward_sends (request : ProxyRequest) (now : DateTime) :
    (forward request now).Yields fun trace _ =>
      Trace.times trace = [] ∧ Sends request now trace := by
  unfold forward
  split
  · exact ⟨rfl, .inl rfl⟩
  · rename_i ask hask
    rintro (error | selection)
    · exact ⟨rfl, .inl rfl⟩
    · rintro ((_ | _ | _) | ⟨account, credential⟩)
      · exact ⟨rfl, .inl rfl⟩
      · exact ⟨rfl, .inl rfl⟩
      · exact ⟨rfl, .inl rfl⟩
      · dsimp only
        split
        · exact ⟨rfl, .inl rfl⟩
        · rename_i upstream hupstream
          refine (deliver_sends ask now selection.provider account upstream).mono ?_
          rintro trace answer ⟨htimes, hloaded, hsent | hsent⟩
          · exact ⟨htimes, .inl hsent⟩
          · refine ⟨htimes, .inr ⟨ask, account, credential, upstream, hask, ?_, hupstream, hsent⟩⟩
            exact congrArg (List.cons (account, credential)) hloaded

omit [Codecs] [Serde] [Urls] [Chrono] in
/-- The audit at the end is silent, and returns what it was given. -/
theorem audited_silent (plane : Plane) (now : DateTime) (decision : AuthDecision)
    (answer : Answer) :
    (audited plane now decision answer).Yields fun trace result =>
      Trace.Silent trace ∧ Trace.times trace = [] ∧ result = answer.result := by
  unfold audited
  split
  · exact ⟨⟨rfl, rfl⟩, rfl, rfl⟩
  · rintro _ (error | _)
    · exact ⟨⟨rfl, rfl⟩, rfl, rfl⟩
    · exact ⟨⟨rfl, rfl⟩, rfl, rfl⟩

/-- **The core of a request.** A run of `handle` fails without an account
and without an answer, or it is a run of `forward` at the one time that
was read, between parts that are silent, and returns what that returns. -/
def Core (P : DateTime → Trace → Answer → Prop) (trace : Trace)
    (result : Except DataPlaneError ProxyResponse) : Prop :=
  (Trace.Silent trace ∧ ∃ error, result = .error error) ∨
    ∃ now before middle after answer, trace = before ++ (middle ++ after) ∧
      Trace.Silent before ∧ Trace.Silent after ∧ Trace.times before = [now] ∧
      Trace.times after = [] ∧ P now middle answer ∧ result = answer.result

theorem handle_core (plane : Plane) (request : ProxyRequest)
    {P : DateTime → Trace → Answer → Prop}
    (h : ∀ now, (forward request now).Yields (P now)) :
    (handle plane request).Yields (Core P) := by
  have hcore : ∀ now decision before, Trace.Silent before → Trace.times before = [now] →
      (forward request now >>= audited plane now decision).Yields fun trace result =>
        Core P (before ++ trace) result := by
    intro now decision before hbefore htimes
    refine (h now).bind ?_
    intro middle answer hmiddle
    refine (audited_silent plane now decision answer).mono ?_
    rintro after result ⟨hafter, htimes', hresult⟩
    exact .inr ⟨now, before, middle, after, answer, rfl, hbefore, hafter, htimes, htimes', hmiddle,
      hresult⟩
  rintro _
  split
  · exact .inl ⟨⟨rfl, rfl⟩, _, rfl⟩
  · split
    · exact .inl ⟨⟨rfl, rfl⟩, _, rfl⟩
    · rintro now (error | snapshot)
      · exact .inl ⟨⟨rfl, rfl⟩, _, rfl⟩
      · unfold authorized
        dsimp only
        split
        · rintro _ _ (error | _)
          · exact .inl ⟨⟨rfl, rfl⟩, _, rfl⟩
          · exact .inl ⟨⟨rfl, rfl⟩, _, rfl⟩
        · rename_i decision _
          unfold admitted
          dsimp only
          split
          · rintro _
            exact hcore now decision [⟨.count .requestsTotal, ()⟩, ⟨.now, now⟩,
              ⟨.credentialSnapshot now, .ok snapshot⟩, ⟨.count .authenticationFailuresTotal, ()⟩]
              ⟨rfl, rfl⟩ rfl
          · exact hcore now decision [⟨.count .requestsTotal, ()⟩, ⟨.now, now⟩,
              ⟨.credentialSnapshot now, .ok snapshot⟩] ⟨rfl, rfl⟩ rfl

/-- **One request goes out at most**, put together at the time that was
read, from the account that was given. -/
theorem handle_sends (plane : Plane) (request : ProxyRequest) :
    (handle plane request).Yields fun trace _ =>
      Trace.sent trace = [] ∨ ∃ now, Trace.times trace = [now] ∧ Sends request now trace := by
  refine (handle_core plane request (forward_sends request)).mono ?_
  rintro trace result (⟨hsilent, -⟩ | ⟨now, before, middle, after, answer, rfl, hbefore, hafter,
    hnow, hlater, ⟨htimes, hsends⟩, -⟩)
  · exact .inl hsilent.sent
  · refine .inr ⟨now, by simp [hnow, htimes, hlater], ?_⟩
    have hsent : Trace.sent (before ++ (middle ++ after)) = Trace.sent middle := by
      simp [hbefore.sent, hafter.sent]
    have hloaded : Trace.loaded (before ++ (middle ++ after)) = Trace.loaded middle := by
      simp [hbefore.loaded, hafter.loaded]
    rw [Sends, hsent, hloaded]
    exact hsends

theorem World.trace_sends {ω : Type} (world : World ω) (plane : Plane) (shared : Shared ω)
    (request : ProxyRequest) :
    Trace.sent (world.trace plane shared request) = [] ∨
      ∃ now, Trace.times (world.trace plane shared request) = [now] ∧
        Sends request now (world.trace plane shared request) :=
  (handle_sends plane request).run shared

/-- **Nothing else of a client goes out.** Two requests that agree in
method, path, body and the headers that are passed on, in any two runs of
`handle`, of any planes in any worlds: if both are sent, at the same time
and from the same account and credential, what is sent is the same. And
what is sent carries the adapter's headers as the adapter sets them. -/
theorem outbound_noninterference {ω ω' : Type} (world : World ω) (world' : World ω')
    (plane plane' : Plane) (shared : Shared ω) (shared' : Shared ω')
    (request request' : ProxyRequest) (h : SameButOthers request request')
    (htimes : Trace.times (world.trace plane shared request) =
      Trace.times (world'.trace plane' shared' request'))
    (hloaded : Trace.loaded (world.trace plane shared request) =
      Trace.loaded (world'.trace plane' shared' request')) :
    (∀ upstream ∈ Trace.sent (world.trace plane shared request),
      ∀ upstream' ∈ Trace.sent (world'.trace plane' shared' request'), upstream = upstream') ∧
      ∀ upstream ∈ Trace.sent (world.trace plane shared request), ∃ now account credential,
        Trace.times (world.trace plane shared request) = [now] ∧
        Trace.loaded (world.trace plane shared request) = [(account, credential)] ∧
        CarriesAdapter account credential now upstream := by
  obtain hnone |
    ⟨now, hnow, hnone | ⟨ask, account, credential, sent, hask, hload, hsent, hsends⟩⟩ :=
    world.trace_sends plane shared request
  · simp [hnone]
  · simp [hnone]
  · refine ⟨fun upstream hupstream upstream' hupstream' => ?_, fun upstream hupstream => ?_⟩
    · obtain hnone' | ⟨now', hnow', hnone' | ⟨ask', account', credential', sent', hask', hload',
          hsent', hsends'⟩⟩ := world'.trace_sends plane' shared' request'
      · simp [hnone'] at hupstream'
      · simp [hnone'] at hupstream'
      · obtain rfl := List.mem_singleton.mp (hsends ▸ hupstream)
        obtain rfl := List.mem_singleton.mp (hsends' ▸ hupstream')
        -- the same time, and the same account and credential
        rw [hnow, hnow'] at htimes
        obtain rfl := List.singleton_inj.mp htimes
        rw [hload, hload'] at hloaded
        obtain ⟨rfl, rfl⟩ := Prod.mk.inj (List.singleton_inj.mp hloaded)
        exact h.upstreamRequest_eq hask hask' hsent hsent'
    · obtain rfl := List.mem_singleton.mp (hsends ▸ hupstream)
      exact ⟨now, account, credential, hnow, hload, carriesAdapter_of_upstreamRequest hsent⟩

end Handle

section Example

open scoped Plain
open World

/-- A client's own credentials, and a header that names the proxy's. -/
def ownHeaders : HeaderMap :=
  [("cookie", asBytes "session=1"), ("accept", asBytes "*/*"), ("host", asBytes "localhost"),
    ("x-api-key", asBytes "one"), ("x-forwarded-for", asBytes "10.0.0.1")]

/-- Two clients with headers of their own send the same, with the key of
the account. -/
theorem outbound_noninterference_plain :
    let world := World.plain (fun _ => []) (.ok (.available [])) 200
    let plane : Plane := ⟨.off, ⟨Vector.replicate 32 0⟩, 0⟩
    let sent := Trace.sent (world.trace plane oneAccount (listModels ownHeaders))
    let sent' := Trace.sent (world.trace plane oneAccount
      (listModels [("authorization", asBytes "Bearer other"), ("accept", asBytes "*/*")]))
    sent.map (fun upstream => upstream.headers.toList) =
        [[("accept", "*/*"), ("x-api-key", "key")]] ∧ sent'.length = 1 ∧
      ∀ upstream ∈ sent, ∀ upstream' ∈ sent', upstream = upstream' := by
  refine ⟨by decide +kernel, by decide +kernel, ?_⟩
  refine (outbound_noninterference (World.plain (fun _ => []) (.ok (.available [])) 200)
    (World.plain (fun _ => []) (.ok (.available [])) 200) ⟨.off, ⟨Vector.replicate 32 0⟩, 0⟩
    ⟨.off, ⟨Vector.replicate 32 0⟩, 0⟩ oneAccount oneAccount (listModels ownHeaders) _
    ⟨rfl, rfl, rfl, fun name hsafe => ?_⟩ (by decide +kernel) (by decide +kernel)).1
  have hne : ∀ other, safeRequestHeader other = false → other ≠ name := by
    rintro other hother rfl
    rw [hother] at hsafe
    cases hsafe
  simp only [listModels, ownHeaders, get_cons, if_neg (hne "cookie" (by decide +kernel)),
    if_neg (hne "host" (by decide +kernel)), if_neg (hne "x-api-key" (by decide +kernel)),
    if_neg (hne "x-forwarded-for" (by decide +kernel))]

end Example

end DataPlane

end Llmap
