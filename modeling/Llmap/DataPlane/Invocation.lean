import Llmap.DataPlane.Outbound
import Llmap.Providers.Signing
/-!
# Bedrock invocations

Three places decide for themselves whether a request is a Bedrock
invocation, and whether it streams: `prepare_request_for_stream`, which
picks the address, and `handle`, where it rewrites the body and where it
translates the response. The first two ask for the path of the messages,
the last one only for a Bedrock account and the field `stream` of the
body.
-/

namespace Llmap

/-! ## Fields of an object -/

namespace Json

variable {key other : String} {value : Json} {fields : List (String × Json)}

theorem lookup_removeField_self : (removeField key fields).lookup key = none := by
  rw [List.lookup_eq_none_iff]
  intro field hfield
  have hne : field.1 ≠ key := by simpa using (List.mem_filter.mp hfield).2
  simpa using hne.symm

theorem lookup_removeField_of_none (h : fields.lookup other = none) :
    (removeField key fields).lookup other = none := by
  rw [List.lookup_eq_none_iff] at h ⊢
  intro field hfield
  exact h field (List.mem_filter.mp hfield).1

theorem lookup_orInsertField_of_ne (hne : other ≠ key) :
    (orInsertField key value fields).lookup other = fields.lookup other := by
  unfold orInsertField
  split
  · rfl
  · have hbeq : (other == key) = false := by simpa using hne
    conv_rhs => rw [← List.takeWhile_append_dropWhile (p := (·.1 < key)) (l := fields)]
    rw [List.lookup_append, List.lookup_append, List.lookup_cons, hbeq]

/-- An assignment neither makes a field nor takes one out. -/
theorem get_assign_eq_none_iff (json : Json) :
    (assign key value json).get key = none ↔ json.get key = none := by
  cases json with
  | object fields =>
      simp only [assign, get, List.lookup_eq_none_iff, List.forall_mem_map]
      refine forall₂_congr fun field _ => ?_
      split
      · rename_i hkey
        simp [hkey]
      · rfl
  | _ => rfl

end Json

namespace DataPlane

open Auth Providers Routing Storage

/-! ## The address -/

section Address

variable [Urls] {account : ProviderAccount} {model : String} {url : Url}

/-- An address that invokes a model of an account, streaming or not. -/
def InvokeUrl (account : ProviderAccount) (model : String) (url : Url) : Prop :=
  ∃ stream, bedrockInvokeUrl account.baseUrl model stream = .ok url

/-- A path that leads to an invocation: joined to the account's address, it is
the address of one. -/
def LeadsToInvocation (account : ProviderAccount) (model pathAndQuery : String) : Prop :=
  ∃ url, joinedUrl account pathAndQuery = .ok url ∧ InvokeUrl account model url

/-- The two invocations of a model have different addresses. -/
theorem bedrockInvokeUrl_injective [LawfulSegments] {base : Url} {stream stream' : Bool}
    (h : bedrockInvokeUrl base model stream = .ok url)
    (h' : bedrockInvokeUrl base model stream' = .ok url) : stream = stream' := by
  have hends : ∀ {stream}, bedrockInvokeUrl base model stream = .ok url →
      (invokeSegment stream).toList <:+ url.path.toList := by
    intro stream h
    have hfixed := unreserved_fixed stream (.inr rfl)
    have hpushed : Urls.withSegments { base with query := none, fragment := none }
        (["model", model] ++ [invokeSegment stream]) = some url := bedrockInvokeUrl_eq_ok h
    exact LawfulSegments.suffix_withSegments hfixed.1 hfixed.2 hpushed
  -- neither word ends the other
  rcases List.suffix_or_suffix_of_suffix (hends h) (hends h') with hsuffix | hsuffix
  · revert hsuffix
    cases stream <;> cases stream' <;> decide +kernel
  · revert hsuffix
    cases stream <;> cases stream' <;> decide +kernel

end Address

/-! ## The body -/

section Body

/-- The model that a body names. -/
def namedModel (value : Json) : String := ((value.get "model").bind Json.asStr).getD ""

/-- A body that asks for a stream. -/
def AsksForStream (value : Json) : Prop := (value.get "stream").bind Json.asBool = some true

/-- A body had a model, and what is forwarded has neither a model nor a
streaming flag. -/
structure Removed (value forwarded : Json) : Prop where
  had : value.get "model" ≠ none
  model : forwarded.get "model" = none
  stream : forwarded.get "stream" = none

variable {kind : ProviderKind} {pathAndQuery upstreamModel : String} {value forwarded : Json}

/-- **An invocation's body is without the two**, and no other is. -/
theorem removed_iff (hkind : kind.isBedrock = true)
    (h : rewritten kind pathAndQuery value upstreamModel = .ok forwarded) :
    Removed value forwarded ↔
      splitFirst '?' pathAndQuery = "/v1/messages" ∧ value.get "model" ≠ none := by
  unfold rewritten at h
  rw [hkind, Bool.true_and] at h
  by_cases hpath : splitFirst '?' pathAndQuery = "/v1/messages"
  · rw [if_pos (by simpa using hpath)] at h
    split at h
    · rename_i fields
      obtain rfl := Except.ok.inj h
      refine ⟨fun hremoved => ⟨hpath, hremoved.had⟩, fun ⟨_, hhad⟩ => ⟨hhad, ?_, ?_⟩⟩
      · change List.lookup _ _ = none
        rw [Json.lookup_orInsertField_of_ne (by decide +kernel)]
        exact Json.lookup_removeField_of_none Json.lookup_removeField_self
      · change List.lookup _ _ = none
        rw [Json.lookup_orInsertField_of_ne (by decide +kernel)]
        exact Json.lookup_removeField_self
    · cases h
  · rw [if_neg (by simpa using hpath)] at h
    obtain rfl := Except.ok.inj h
    refine ⟨fun hremoved => ?_, fun hboth => absurd hboth.1 hpath⟩
    exact absurd ((Json.get_assign_eq_none_iff value).mp hremoved.model) hremoved.had

end Body

/-! ## The response -/

section Response

variable [Codecs]

/-- Every response that is a success is translated. -/
def Translates (kind : ProviderKind) (stream : Bool) : Prop :=
  ∀ response : UpstreamResponse, 200 ≤ response.status → response.status < 300 →
    translatedResponse kind stream response = eventsOf response

theorem translates_iff {kind : ProviderKind} {stream : Bool} :
    Translates kind stream ↔ stream = true ∧ kind.isBedrock = true := by
  constructor
  · intro h
    have hok := h ⟨200, [], []⟩ (by decide) (by decide)
    by_contra hboth
    rw [translatedResponse, if_neg (by simpa using hboth)] at hok
    cases hok
  · rintro ⟨rfl, hkind⟩ response hlow hhigh
    rw [translatedResponse, if_pos (by simp [hkind, hlow, hhigh])]

end Response

/-! ## The three together -/

section Agreement

variable [Codecs] [Serde] [Urls] [Digests] [Chrono]

/-- **The three agree** on a request: it goes to an invocation if and only
if its body was made one, and its responses are translated if and only if
it goes to the invocation that streams. -/
structure Agree (account : ProviderAccount) (ask : Asked) (value forwarded : Json) (url : Url) :
    Prop where
  body : InvokeUrl account (upstreamModelOf account ask.model) url ↔ Removed value forwarded
  response : Translates account.kind ask.stream ↔
    bedrockInvokeUrl account.baseUrl (upstreamModelOf account ask.model) true = .ok url

omit [Codecs] [Serde] [Urls] [Digests] [Chrono] in
theorem startsWithStr_of_splitFirst {separator : Char} {text first : String}
    (h : splitFirst separator text = first) : startsWithStr text first = true := by
  have hfirst : first.toList = text.toList.takeWhile (· ≠ separator) := by
    rw [← h, splitFirst, String.toList_ofList]
  rw [startsWithStr, hfirst, List.isPrefixOf_iff_prefix]
  exact List.takeWhile_prefix _

omit [Codecs] in
/-- A signature leaves the address as it is. -/
theorem finalizeRequestAuth_url {account : ProviderAccount} {credential method : String}
    {body : Bytes} {now : DateTime} {prepared finished : PreparedProviderRequest}
    (h : finalizeRequestAuth account credential method body now prepared = .ok finished) :
    finished.url = prepared.url := by
  unfold finalizeRequestAuth at h
  split at h
  · rw [Except.ok.inj h]
  · split at h
    · cases h
    · split at h
      · cases h
      · obtain ⟨host, -, rfl⟩ := signRequest_eq_ok h
        rfl

variable {request : ProxyRequest} {ask : Asked} {now : DateTime} {account : ProviderAccount}
  {credential : String} {upstream : UpstreamRequest} {value : Json}

/-- Where a JSON body goes, and what is forwarded of it. -/
theorem upstreamRequest_json (hjson : ask.json = some value)
    (h : upstreamRequest request ask now account credential = .ok upstream) :
    upstreamAddress account request.pathAndQuery (upstreamModelOf account ask.model) ask.stream =
        .ok upstream.url ∧
      ∃ forwarded, rewritten account.kind request.pathAndQuery value
          (upstreamModelOf account ask.model) = .ok forwarded ∧
        upstream.body = asBytes (Codecs.jsonToString forwarded) := by
  obtain ⟨prepared, body, headers, finished, hprepared, hbody, -, hfinished, rfl⟩ :=
    upstreamRequest_eq_ok h
  obtain ⟨-, -, hmodel, haddress, -, -⟩ := prepareRequestForStream_eq_ok_iff.mp hprepared
  rw [hjson, hmodel] at hbody
  rw [hmodel] at haddress
  refine ⟨?_, ?_⟩
  · rw [haddress, finalizeRequestAuth_url hfinished]
  · obtain ⟨forwarded, hforwarded, hwritten⟩ := map_eq_ok_iff.mp hbody
    exact ⟨forwarded, hforwarded, hwritten.symm⟩

omit [Serde] [Urls] [Digests] [Chrono] in
/-- What is read of a JSON body. -/
theorem asked_json (hask : asked request = .ok ask) (hjson : ask.json = some value) :
    ask.model = namedModel value ∧ (ask.stream = true ↔ AsksForStream value) ∧
      (startsWithStr request.pathAndQuery "/v1/messages" = true → value.get "model" ≠ none) := by
  obtain ⟨-, hmodel, hstream, hnamed⟩ := asked_eq_ok hask
  rw [hjson, Option.bind_some] at hmodel hstream
  refine ⟨hmodel, ?_, fun hpath hnone => hnamed hpath ?_⟩
  · rw [hstream, AsksForStream]
    cases (value.get "stream").bind Json.asBool with
    | none => simp
    | some stream => simp
  · rw [hmodel, hnone]
    rfl

omit [Serde] [Digests] [Chrono] in
/-- **When the three agree.** At the path of the messages they do. At any
other path nothing is taken out of the body, so they do as long as the
client does not ask for a stream and the path does not lead to an
invocation. -/
theorem agree_iff [LawfulSegments] {forwarded : Json} {url : Url}
    (hkind : account.kind.isBedrock = true) (hask : asked request = .ok ask)
    (hjson : ask.json = some value)
    (haddress : upstreamAddress account request.pathAndQuery (upstreamModelOf account ask.model)
      ask.stream = .ok url)
    (hforwarded : rewritten account.kind request.pathAndQuery value
      (upstreamModelOf account ask.model) = .ok forwarded) :
    Agree account ask value forwarded url ↔
      splitFirst '?' request.pathAndQuery = "/v1/messages" ∨
        ¬ AsksForStream value ∧ ¬ LeadsToInvocation account
          (upstreamModelOf account (namedModel value)) request.pathAndQuery := by
  have hremoved := removed_iff hkind hforwarded
  obtain ⟨hmodel, hstream, hnamed⟩ := asked_json hask hjson
  rw [← hmodel, ← hstream]
  unfold upstreamAddress at haddress
  rw [hkind, Bool.true_and] at haddress
  by_cases hpath : splitFirst '?' request.pathAndQuery = "/v1/messages"
  · -- the address and the body are an invocation's, and the address says whether it streams
    refine iff_of_true ?_ (.inl hpath)
    rw [if_pos (by simpa using hpath)] at haddress
    have hhad := hnamed (startsWithStr_of_splitFirst hpath)
    refine ⟨⟨fun _ => hremoved.mpr ⟨hpath, hhad⟩, fun _ => ⟨_, haddress⟩⟩, ?_⟩
    rw [translates_iff]
    refine ⟨fun ⟨hstream, _⟩ => hstream ▸ haddress, fun htrue => ⟨?_, hkind⟩⟩
    exact bedrockInvokeUrl_injective haddress htrue
  · rw [if_neg (by simpa using hpath)] at haddress
    have hkept : ¬ Removed value forwarded := fun hboth => hpath (hremoved.mp hboth).1
    have hleads : LeadsToInvocation account (upstreamModelOf account ask.model)
        request.pathAndQuery ↔ InvokeUrl account (upstreamModelOf account ask.model) url := by
      refine ⟨fun ⟨led, hled, hinvoke⟩ => ?_, fun hinvoke => ⟨url, haddress, hinvoke⟩⟩
      obtain rfl := Except.ok.inj (hled.symm.trans haddress)
      exact hinvoke
    rw [or_iff_right hpath, hleads]
    constructor
    · rintro ⟨hbody, hresponse⟩
      -- nothing is removed, so this is no invocation, and no response is translated
      have hinvoke := mt hbody.mp hkept
      exact ⟨fun hstream => hinvoke ⟨true, hresponse.mp (translates_iff.mpr ⟨hstream, hkind⟩)⟩,
        hinvoke⟩
    · rintro ⟨hstream, hinvoke⟩
      refine ⟨iff_of_false hinvoke hkept, ?_⟩
      rw [translates_iff]
      exact iff_of_false (fun h => hstream h.1) fun htrue => hinvoke ⟨true, htrue⟩

/-! ## The run -/

/-- What is handed back of a response. -/
def handedBack (upstream : UpstreamResponse) : ProxyResponse :=
  ⟨upstream.status, safeResponseHeaders upstream.headers, upstream.body⟩

/-- What a request returns is the response it got, translated or not by
its account and by what it asked for. -/
def Hands (request : ProxyRequest) (trace : Trace)
    (result : Except DataPlaneError ProxyResponse) : Prop :=
  ∀ ask account credential, asked request = .ok ask →
    Trace.loaded trace = [(account, credential)] →
    ∀ upstream response returned, (upstream, .ok response) ∈ Trace.replies trace →
      result = .ok returned →
        returned = handedBack (translatedResponse account.kind ask.stream response)

omit [Serde] [Urls] [Digests] [Chrono] in
theorem deliver_hands (ask : Asked) (now : DateTime) (provider : String)
    (account : ProviderAccount) (upstream : UpstreamRequest) :
    (deliver ask now provider account upstream).Yields fun trace answer =>
      Trace.loaded trace = [] ∧ ∀ upstream response returned,
        (upstream, .ok response) ∈ Trace.replies trace → answer.result = .ok returned →
        returned = handedBack (translatedResponse account.kind ask.stream response) := by
  rintro (error | _)
  · exact ⟨rfl, fun _ _ _ hreply => absurd hreply List.not_mem_nil⟩
  · rintro (error | response)
    · rintro (error | _) _
      · exact ⟨rfl, by rintro _ _ _ - ⟨⟩⟩
      · exact ⟨rfl, by rintro _ _ _ - ⟨⟩⟩
    · rintro (error | _)
      · exact ⟨rfl, by rintro _ _ _ - ⟨⟩⟩
      · rintro _
        refine ⟨rfl, ?_⟩
        intro upstream' response' returned hreply hreturned
        obtain ⟨-, hresponse⟩ := Prod.mk.inj (List.mem_singleton.mp hreply)
        obtain rfl := Except.ok.inj hresponse
        exact (Except.ok.inj hreturned).symm

theorem forward_hands (request : ProxyRequest) (now : DateTime) :
    (forward request now).Yields fun trace answer => Hands request trace answer.result := by
  have hquiet : ∀ {trace : Trace} {result}, Trace.replies trace = [] →
      Hands request trace result := by
    intro trace result hnone ask account credential _ _ upstream response returned hreply
    exact absurd (hnone ▸ hreply) List.not_mem_nil
  unfold forward
  split
  · exact hquiet rfl
  · rename_i ask hask
    rintro (error | selection)
    · exact hquiet rfl
    · rintro ((_ | _ | _) | ⟨account, credential⟩)
      · exact hquiet rfl
      · exact hquiet rfl
      · exact hquiet rfl
      · dsimp only
        split
        · exact hquiet rfl
        · rename_i upstream _
          refine (deliver_hands ask now selection.provider account upstream).mono ?_
          rintro trace answer ⟨hloaded, hreplies⟩ ask' account' credential' hask' hloaded'
          obtain rfl := Except.ok.inj (hask.symm.trans hask')
          have hsame : [(account, credential)] = [(account', credential')] := by
            rw [← hloaded', ← hloaded]
            rfl
          obtain ⟨rfl, rfl⟩ := Prod.mk.inj (List.singleton_inj.mp hsame)
          exact hreplies

theorem World.trace_hands {ω : Type} (world : World ω) (plane : Plane) (shared : Shared ω)
    (request : ProxyRequest) :
    Hands request (world.trace plane shared request) (world.result plane shared request) := by
  have hyields : (handle plane request).Yields (Hands request) := by
    refine (handle_core plane request (forward_hands request)).mono ?_
    rintro trace result (⟨hsilent, error, rfl⟩ | ⟨now, before, middle, after, answer, rfl, hbefore,
      hafter, -, -, hhands, rfl⟩)
    · rintro _ _ _ - - _ _ _ - ⟨⟩
    · intro ask account credential hask hloaded upstream response returned hreply
      refine hhands ask account credential hask ?_ upstream response returned ?_
      · simpa [hbefore.loaded, hafter.loaded] using hloaded
      · simpa [hbefore.replies, hafter.replies] using hreply
  exact hyields.run shared

/-- **Address, body and response of a Bedrock request.** Whatever is sent
for a JSON body from a Bedrock account is the body rewritten, and what
comes back of it is handed back translated or as it is. These agree with
the address at the path of the messages, and at any other path exactly if
the body does not ask for a stream and the path does not lead to an
invocation of the model that the body names. -/
theorem bedrock_translation_agrees_iff [LawfulSegments] {ω : Type} (world : World ω)
    (plane : Plane) (shared : Shared ω) (request : ProxyRequest) (account : ProviderAccount)
    (credential : String) (value : Json) (upstream : UpstreamRequest)
    (hkind : account.kind.isBedrock = true) (hbody : request.body ≠ [])
    (hvalue : Codecs.jsonFromSlice request.body = some value)
    (hloaded : Trace.loaded (world.trace plane shared request) = [(account, credential)])
    (hupstream : upstream ∈ Trace.sent (world.trace plane shared request)) :
    ∃ ask forwarded, asked request = .ok ask ∧ ask.json = some value ∧
      rewritten account.kind request.pathAndQuery value (upstreamModelOf account ask.model) =
        .ok forwarded ∧
      upstream.body = asBytes (Codecs.jsonToString forwarded) ∧
      (∀ response returned,
        (upstream, .ok response) ∈ Trace.replies (world.trace plane shared request) →
        world.result plane shared request = .ok returned →
        returned = handedBack (translatedResponse account.kind ask.stream response)) ∧
      (Agree account ask value forwarded upstream.url ↔
        splitFirst '?' request.pathAndQuery = "/v1/messages" ∨
          ¬ AsksForStream value ∧ ¬ LeadsToInvocation account
            (upstreamModelOf account (namedModel value)) request.pathAndQuery) := by
  obtain hnone | ⟨now, -, hnone | ⟨ask, account', credential', sent, hask, hload, hsent, hsends⟩⟩ :=
    world.trace_sends plane shared request
  · exact absurd (hnone ▸ hupstream) List.not_mem_nil
  · exact absurd (hnone ▸ hupstream) List.not_mem_nil
  · obtain rfl := List.mem_singleton.mp (hsends ▸ hupstream)
    rw [hload] at hloaded
    obtain ⟨rfl, rfl⟩ := Prod.mk.inj (List.singleton_inj.mp hloaded)
    obtain ⟨hread, -⟩ := asked_eq_ok hask
    have hjson : ask.json = some value := by rw [hread, if_neg hbody, hvalue]
    obtain ⟨haddress, forwarded, hforwarded, hwritten⟩ := upstreamRequest_json hjson hsent
    exact ⟨ask, forwarded, hask, hjson, hforwarded, hwritten,
      world.trace_hands plane shared request ask _ _ hask hload upstream,
      agree_iff hkind hask hjson haddress hforwarded⟩

end Agreement

section Example

open scoped Plain
open World

/-- Every account is a Bedrock account, and every request is answered with
a count of its tokens. -/
def bedrockWorld : World ℕ :=
  alone fun step o => match o with
    | .loadAccount id => (step, .ok (Plain.account id .bedrockApiKey true, "key"))
    | .send _ => (step, .ok ⟨200, [("content-type", asBytes "application/json")],
        [.ok (asBytes "\x7b\"input_tokens\":9\x7d")]⟩)
    | other => (World.plain (fun _ => []) (.ok (.available [])) 200).answer step other

/-- A plane that asks nobody for a token. -/
def openPlane : Plane := ⟨.off, ⟨Vector.replicate 32 0⟩, 64⟩

/-- A request for a stream of one model, at a path. -/
def posted (pathAndQuery : String) : ProxyRequest :=
  ⟨"POST", pathAndQuery, none, [], asBytes "\x7b\"model\":\"m\",\"stream\":true\x7d"⟩

/-- At the path of the messages, with a query, the three agree. -/
theorem bedrock_translation_agrees_messages :
    let account := Plain.account "a" .bedrockApiKey true
    let trace := bedrockWorld.trace openPlane oneAccount (posted "/v1/messages?beta=true")
    (Trace.sent trace).map (·.url.path) = ["/model/m/invoke-with-response-stream"] ∧
      ∀ upstream ∈ Trace.sent trace, ∃ ask value forwarded,
        Agree account ask value forwarded upstream.url := by
  have := Urls.lawfulSegments_plain
  refine ⟨by decide +kernel, fun upstream hupstream => ?_⟩
  have hjson : (Codecs.jsonFromSlice (posted "/v1/messages?beta=true").body).isSome = true := by
    decide +kernel
  obtain ⟨value, hvalue⟩ := Option.isSome_iff_exists.mp hjson
  obtain ⟨ask, forwarded, -, -, -, -, -, hagree⟩ := bedrock_translation_agrees_iff bedrockWorld
    openPlane oneAccount (posted "/v1/messages?beta=true") (Plain.account "a" .bedrockApiKey true)
    "key" value upstream rfl (by decide +kernel) hvalue (by decide +kernel) hupstream
  exact ⟨ask, value, forwarded, hagree.mpr (.inl (by decide +kernel))⟩

/-- **Tokens are counted in vain.** A body with the field `stream` goes to
the address that counts tokens, which is no invocation, and the count that
comes back is read as a stream of events, which it is not. -/
theorem bedrock_translation_disagrees_count_tokens :
    let account := Plain.account "a" .bedrockApiKey true
    let request := posted "/v1/messages/count_tokens"
    let trace := bedrockWorld.trace openPlane oneAccount request
    Trace.loaded trace = [(account, "key")] ∧
      (Trace.replies trace).map (fun reply => (reply.1.url.path, reply.2)) =
        [("/v1/messages/count_tokens", .ok ⟨200, [("content-type", asBytes "application/json")],
          [.ok (asBytes "\x7b\"input_tokens\":9\x7d")]⟩)] ∧
      (∀ upstream ∈ Trace.sent trace,
        bedrockInvokeUrl account.baseUrl "m" true ≠ .ok upstream.url ∧
          bedrockInvokeUrl account.baseUrl "m" false ≠ .ok upstream.url) ∧
      bedrockWorld.result openPlane oneAccount request =
        .ok ⟨200, [("content-type", asBytes "text/event-stream; charset=utf-8")],
          [.error "invalid Bedrock event-stream frame length"]⟩ := by
  exact ⟨by decide +kernel, by decide +kernel, by decide +kernel, by decide +kernel⟩

end Example

end DataPlane

end Llmap
