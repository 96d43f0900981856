import Llmap.Providers.Request
/-!
# When a request can be made

A request for messages is prepared and then authenticated. Each provider
asks something else of an account for that: a compatible one the name of a
header, Bedrock the name of a model, and a signature a credential to sign
with. Nothing else can fail at an `https` address.
-/

namespace Llmap

namespace Providers

section Ready

variable [Urls] {account : ProviderAccount} {credential model : String} {stream : Bool}

/-! ## The address -/

/-- **A request for messages has an address** unless it is for a Bedrock
model without a name, and the address is at the account's server. -/
theorem upstreamAddress_messages [LawfulHttps] (hscheme : account.baseUrl.scheme = "https")
    (model : String) (stream : Bool) :
    (account.kind.isBedrock = true ∧ model = "" ∧
        upstreamAddress account "/v1/messages" model stream = .error .invalidPath) ∨
      (account.kind.isBedrock = true → model ≠ "") ∧
        ∃ url, upstreamAddress account "/v1/messages" model stream = .ok url ∧
          url.SameServer account.baseUrl := by
  have hmessages : splitFirst '?' "/v1/messages" = "/v1/messages" := by decide
  unfold upstreamAddress
  by_cases hkind : account.kind.isBedrock = true
  · simp only [hkind, hmessages, Bool.true_and, decide_true, if_true]
    unfold bedrockInvokeUrl
    by_cases hmodel : model = ""
    · exact .inl ⟨trivial, hmodel, if_pos hmodel⟩
    · have hbase : ({ account.baseUrl with query := none, fragment := none } : Url).scheme =
          "https" := hscheme
      obtain ⟨url, hurl, hserver⟩ := LawfulHttps.withSegments
        ["model", model, if stream then "invoke-with-response-stream" else "invoke"] hbase
      refine .inr ⟨fun _ => hmodel, url, ?_, hserver.scheme, hserver.host, hserver.port⟩
      rw [if_neg hmodel, hurl]
  · refine .inr ⟨fun h => absurd h hkind, ?_⟩
    simp only [hkind, Bool.false_and, Bool.false_eq_true, if_false]
    unfold joinedUrl
    by_cases hcompatible : account.kind = .anthropicCompatible
    · -- the request's path is relative here, so that the base's own stays
      have hset := LawfulHttps.setPath (trimEndMatches '/' account.baseUrl.path ++ "/") hscheme
      obtain ⟨url, hurl, hserver⟩ := LawfulHttps.join (hset.scheme.trans hscheme)
        (show IsPlainPath (trimStartMatches '/' "/v1/messages") by decide)
      refine ⟨url, ?_, hserver.scheme.trans hset.scheme, hserver.host.trans hset.host,
        hserver.port.trans hset.port⟩
      simp only [hcompatible, if_true, hurl]
    · obtain ⟨url, hurl, hserver⟩ := LawfulHttps.join hscheme
        (show IsPlainPath "/v1/messages" by decide)
      refine ⟨url, ?_, hserver⟩
      simp only [hcompatible, if_false, hurl]

/-! ## The credential -/

omit [Urls] in
/-- The headers of a credential can be written unless the header of a
compatible provider is missing or is none. -/
theorem credentialHeaders_iff (credential : String) :
    (∃ headers, credentialHeaders account credential = .ok headers) ↔
      (account.kind = .anthropicCompatible →
        account.compatibleAuthHeader.any validHeaderName = true) := by
  unfold credentialHeaders
  cases hkind : account.kind with
  | anthropicCompatible =>
      cases hheader : account.compatibleAuthHeader with
      | none => simp
      | some header => cases hvalid : validHeaderName header <;> simp [Option.filter, hvalid]
  | _ => simp

/-- A credential that signs. -/
def Signs [Serde] (credential : String) : Prop :=
  ∃ envelope, Serde.awsEnvelopeFromStr credential = some envelope ∧ envelope.validate = .ok ()

variable [Serde] [Digests] [Chrono] {method : String} {body : Bytes} {now : DateTime}

/-- A request to a server is authenticated unless it is to be signed, and
the credential does not sign. -/
theorem finalizeRequestAuth_iff {prepared : PreparedProviderRequest} {host : String}
    (hhost : prepared.url.host = some host) :
    (∃ request, finalizeRequestAuth account credential method body now prepared = .ok request) ↔
      (account.kind = .bedrockSigV4 → Signs credential) := by
  have hcanonical : ∃ name, canonicalHost prepared.url = .ok name := by
    unfold canonicalHost
    rw [hhost]
    cases prepared.url.port with
    | none => exact ⟨_, rfl⟩
    | some port =>
        dsimp only
        split
        · exact ⟨_, rfl⟩
        · exact ⟨_, rfl⟩
  obtain ⟨name, hname⟩ := hcanonical
  unfold finalizeRequestAuth
  by_cases hkind : account.kind = .bedrockSigV4
  · simp only [hkind, ne_eq, not_true_eq_false, if_false, forall_true_left]
    unfold Signs
    cases hread : Serde.awsEnvelopeFromStr credential with
    | none => simp
    | some envelope =>
        cases hvalid : envelope.validate with
        | error error => simp [hvalid]
        | ok done => simp [hvalid, signRequest, hname]
  · simp [hkind]

/-! ## Both -/

/-- `prepare_request_for_stream`, followed by `finalize_request_auth`. -/
def readyRequest (account : ProviderAccount) (credential pathAndQuery requestedModel : String)
    (stream : Bool) (method : String) (body : Bytes) (now : DateTime) :
    Except ProviderError PreparedProviderRequest :=
  match prepareRequestForStream account credential pathAndQuery requestedModel stream with
  | .error error => .error error
  | .ok prepared => finalizeRequestAuth account credential method body now prepared

/-- **What a request for messages takes** of an account, its credential
and the model that is asked for. -/
structure Serves (account : ProviderAccount) (credential model : String) : Prop where
  header : account.kind = .anthropicCompatible →
    account.compatibleAuthHeader.any validHeaderName = true
  model : account.kind.isBedrock = true → upstreamModelOf account model ≠ ""
  signs : account.kind = .bedrockSigV4 → Signs credential

/-- **A request for messages can be made** exactly if the account has what
it takes. -/
theorem readyRequest_messages_iff [LawfulHttps] (hscheme : account.baseUrl.scheme = "https")
    {host : String} (hhost : account.baseUrl.host = some host) (credential model : String)
    (stream : Bool) (method : String) (body : Bytes) (now : DateTime) :
    (∃ request, readyRequest account credential "/v1/messages" model stream method body now =
      .ok request) ↔ Serves account credential model := by
  have hslash : startsWithStr "/v1/messages" "/" = true := by decide
  have hslashes : startsWithStr "/v1/messages" "//" = false := by decide
  unfold readyRequest
  constructor
  · rintro ⟨request, h⟩
    cases hprepared : prepareRequestForStream account credential "/v1/messages" model stream with
    | error error =>
        rw [hprepared] at h
        cases h
    | ok prepared =>
        rw [hprepared] at h
        obtain ⟨-, -, hmodel, haddress, -, hheaders⟩ :=
          prepareRequestForStream_eq_ok_iff.mp hprepared
        rw [hmodel] at haddress
        rcases upstreamAddress_messages hscheme (upstreamModelOf account model) stream with
          ⟨-, -, hnone⟩ | ⟨hnamed, url, hurl, hserver⟩
        · rw [hnone] at haddress
          cases haddress
        · rw [hurl] at haddress
          obtain rfl := Except.ok.inj haddress
          exact ⟨(credentialHeaders_iff credential).mp ⟨_, hheaders⟩, hnamed,
            (finalizeRequestAuth_iff (hserver.host.trans hhost)).mp ⟨request, h⟩⟩
  · rintro ⟨hheader, hmodel, hsigns⟩
    obtain ⟨headers, hheaders⟩ := (credentialHeaders_iff credential).mpr hheader
    rcases upstreamAddress_messages hscheme (upstreamModelOf account model) stream with
      ⟨hkind, hempty, -⟩ | ⟨-, url, hurl, hserver⟩
    · exact absurd hempty (hmodel hkind)
    · have hprepared : prepareRequestForStream account credential "/v1/messages" model stream =
          .ok ⟨url, upstreamModelOf account model, headers⟩ :=
        prepareRequestForStream_eq_ok_iff.mpr
          ⟨hslash, hslashes, rfl, hurl, LawfulHttps.sameOrigin hserver hscheme, hheaders⟩
      rw [hprepared]
      exact (finalizeRequestAuth_iff (hserver.host.trans hhost)).mpr hsigns

end Ready

end Providers

end Llmap
