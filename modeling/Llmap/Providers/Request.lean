import Llmap.Providers.Account
import Llmap.Models
/-!
# Upstream requests

How `providers.rs` turns a client's request into one to the provider: the
address it goes to, the headers that authenticate it, and, for a Bedrock
account that signs, the Signature Version 4 over all of it.
-/

namespace Llmap

namespace Providers

/-- `ProviderError`, as far as the functions below raise it. -/
inductive ProviderError where
  | invalidPath
  | invalidAuthenticationHeader
  | invalidAwsCredential
deriving DecidableEq

/-- `PreparedProviderRequest`. -/
structure PreparedProviderRequest where
  url : Url
  upstreamModel : String
  headers : Table String String
deriving DecidableEq

/-- `matches!(kind, BedrockApiKey | BedrockSigV4)`. -/
def ProviderKind.isBedrock : ProviderKind → Bool
  | .bedrockApiKey | .bedrockSigV4 => true
  | _ => false

/-- `valid_header_name`. -/
def validHeaderName (value : String) : Bool :=
  value ≠ "" && value.toList.all fun c =>
    isAsciiAlphanumeric c || "!#$%&'*+-.^_`|~".toList.contains c

section Prepare

variable [Urls]

/-- `bedrock_invoke_url`. -/
def bedrockInvokeUrl (base : Url) (model : String) (stream : Bool) : Except ProviderError Url :=
  if model = "" then .error .invalidPath
  else
    match Urls.withSegments { base with query := none, fragment := none }
        ["model", model, if stream then "invoke-with-response-stream" else "invoke"] with
    | none => .error .invalidPath
    | some url => .ok url

/-- The address of a request that is not a Bedrock invocation. The path of
a compatible provider's base stays in front of the request's. -/
def joinedUrl (account : ProviderAccount) (pathAndQuery : String) : Except ProviderError Url :=
  let joined :=
    if account.kind = .anthropicCompatible then
      Urls.join (Urls.setPath account.baseUrl (trimEndMatches '/' account.baseUrl.path ++ "/"))
        (trimStartMatches '/' pathAndQuery)
    else Urls.join account.baseUrl pathAndQuery
  match joined with
  | none => .error .invalidPath
  | some url => .ok url

omit [Urls] in
/-- The headers that show an account's credential. An account that signs
has none before its signature. -/
def credentialHeaders (account : ProviderAccount) (credential : String) :
    Except ProviderError (Table String String) :=
  match account.kind with
  | .claudeOauth =>
      .ok (Table.collect [("authorization", "Bearer " ++ credential),
        ("anthropic-beta", "oauth-2025-04-20")])
  | .anthropicApiKey => .ok (Table.collect [("x-api-key", credential)])
  | .bedrockApiKey => .ok (Table.collect [("authorization", "Bearer " ++ credential)])
  | .bedrockSigV4 => .ok ∅
  | .anthropicCompatible =>
      match account.compatibleAuthHeader.filter validHeaderName with
      | none => .error .invalidAuthenticationHeader
      | some header =>
          .ok (Table.collect [(toAsciiLowercase header,
            account.compatibleAuthPrefix.getD "" ++ credential)])

/-- The model an account is asked for. -/
def upstreamModelOf (account : ProviderAccount) (requestedModel : String) : String :=
  (Models.resolve account.modelMap requestedModel).getD requestedModel

/-- The address a request goes to. -/
def upstreamAddress (account : ProviderAccount) (pathAndQuery upstreamModel : String)
    (stream : Bool) : Except ProviderError Url :=
  if account.kind.isBedrock && splitFirst '?' pathAndQuery = "/v1/messages" then
    bedrockInvokeUrl account.baseUrl upstreamModel stream
  else joinedUrl account pathAndQuery

/-- `prepare_request_for_stream`. -/
def prepareRequestForStream (account : ProviderAccount) (credential pathAndQuery
    requestedModel : String) (stream : Bool) : Except ProviderError PreparedProviderRequest :=
  if startsWithStr pathAndQuery "/" = false || startsWithStr pathAndQuery "//" then
    .error .invalidPath
  else
    let upstreamModel := upstreamModelOf account requestedModel
    match upstreamAddress account pathAndQuery upstreamModel stream with
    | .error error => .error error
    | .ok url =>
        if Urls.sameOrigin url account.baseUrl = false then .error .invalidPath
        else
          match credentialHeaders account credential with
          | .error error => .error error
          | .ok headers => .ok ⟨url, upstreamModel, headers⟩

/-- **When a request is prepared**, and what it is then. -/
theorem prepareRequestForStream_eq_ok_iff {account : ProviderAccount}
    {credential pathAndQuery requestedModel : String} {stream : Bool}
    {prepared : PreparedProviderRequest} :
    prepareRequestForStream account credential pathAndQuery requestedModel stream = .ok prepared ↔
      startsWithStr pathAndQuery "/" = true ∧ startsWithStr pathAndQuery "//" = false ∧
        prepared.upstreamModel = upstreamModelOf account requestedModel ∧
        upstreamAddress account pathAndQuery prepared.upstreamModel stream = .ok prepared.url ∧
        Urls.sameOrigin prepared.url account.baseUrl = true ∧
        credentialHeaders account credential = .ok prepared.headers := by
  obtain ⟨url, model, headers⟩ := prepared
  constructor
  · intro h
    unfold prepareRequestForStream at h
    split at h
    · cases h
    · rename_i hpath
      dsimp only at h
      split at h
      · cases h
      · rename_i address haddress
        split at h
        · cases h
        · rename_i horigin
          split at h
          · cases h
          · rename_i set hset
            cases h
            refine ⟨?_, ?_, rfl, haddress, by simpa using horigin, hset⟩
            · simp_all
            · simp_all
  · rintro ⟨hslash, hslashes, hmodel, haddress, horigin, hset⟩
    dsimp only at hmodel haddress horigin hset
    subst hmodel
    unfold prepareRequestForStream
    simp [hslash, hslashes, haddress, horigin, hset]

end Prepare

/-! ## Signature Version 4 -/

/-- The check of `AwsCredentialEnvelope::validate` on a name. -/
def awsIdentifier (value : String) : Bool :=
  value ≠ "" && byteLen value ≤ 256 &&
    value.toList.all fun c => isAsciiAlphanumeric c || c = '-' || c = '_'

/-- `AwsCredentialEnvelope::validate`. -/
def AwsCredentialEnvelope.validate (envelope : AwsCredentialEnvelope) :
    Except ProviderError Unit :=
  if !awsIdentifier envelope.accessKeyId || envelope.secretAccessKey = "" ||
      4096 < byteLen envelope.secretAccessKey || !awsIdentifier envelope.region ||
      envelope.service.any fun service => !awsIdentifier service
  then .error .invalidAwsCredential else .ok ()

/-- `hex`. -/
def hex (value : Bytes) : String := String.ofList (value.flatMap hexByte)

/-- `aws_encode`. -/
def awsEncode (value : Bytes) : String :=
  String.ofList (value.flatMap fun byte =>
    let c := Char.ofNat byte.toNat
    if isAsciiAlphanumeric c || c = '-' || c = '_' || c = '.' || c = '~' then [c]
    else '%' :: (hexByte byte).map Char.toUpper)

/-- `collapse_whitespace`. -/
def collapseWhitespace (value : String) : String := " ".intercalate (splitWhitespace value)

/-- `canonical_host`. -/
def canonicalHost (url : Url) : Except ProviderError String :=
  match url.host with
  | none => .error .invalidPath
  | some host =>
      match url.port with
      | none => .ok host
      | some port =>
          if (url.scheme = "https" ∧ port = 443) ∨ (url.scheme = "http" ∧ port = 80) then .ok host
          else .ok (host ++ ":" ++ toString port.toNat)

/-- `canonical_path`. -/
def canonicalPath (url : Url) : String := if url.path = "" then "/" else url.path

/-- `canonical_query`. -/
def canonicalQuery [Urls] (url : Url) : String :=
  let encoded := (Urls.queryPairs url).map fun (name, value) =>
    (awsEncode (asBytes name), awsEncode (asBytes value))
  let sorted := encoded.insertionSort fun left right =>
    left.1 < right.1 ∨ (left.1 = right.1 ∧ left.2 ≤ right.2)
  "&".intercalate (sorted.map fun (name, value) => name ++ "=" ++ value)

/-- The names of the headers that are signed, in order. -/
def signedHeaderNames (headers : Table String String) (sessionToken : Option String) :
    List String :=
  (["host", "x-amz-content-sha256", "x-amz-date"] ++
    (if headers.contains "content-type" then ["content-type"] else []) ++
    (if sessionToken.isSome then ["x-amz-security-token"] else [])).insertionSort (· ≤ ·)

/-- The canonical request of `finalize_request_auth`. -/
def canonicalRequest [Urls] (method payloadHash : String) (url : Url)
    (headers : Table String String) (names : List String) : String :=
  let canonicalHeaders := String.join (names.map fun name =>
    name ++ ":" ++ collapseWhitespace (headers[name]?.getD "") ++ "\n")
  "\n".intercalate [method, canonicalPath url, canonicalQuery url, canonicalHeaders,
    ";".intercalate names, payloadHash]

section Sign

variable [Serde] [Urls] [Digests] [Chrono]

/-- The headers a signature covers, put in before it is computed. -/
def amzHeaders (host payloadHash amzDate : String) (sessionToken : Option String)
    (headers : Table String String) : Table String String :=
  let headers := ((headers.insert "host" host).insert "x-amz-content-sha256" payloadHash).insert
    "x-amz-date" amzDate
  match sessionToken with
  | none => headers
  | some token => headers.insert "x-amz-security-token" token

omit [Serde] [Urls] [Chrono] in
/-- The signature of a text, under the key of a day, a region and a
service. -/
def awsSignature (envelope : AwsCredentialEnvelope) (date service stringToSign : String) : String :=
  let dateKey := Digests.hmacSha256 (asBytes ("AWS4" ++ envelope.secretAccessKey)) (asBytes date)
  let regionKey := Digests.hmacSha256 dateKey (asBytes envelope.region)
  let serviceKey := Digests.hmacSha256 regionKey (asBytes service)
  let signingKey := Digests.hmacSha256 serviceKey (asBytes "aws4_request")
  hex (Digests.hmacSha256 signingKey (asBytes stringToSign))

/-- The body of `finalize_request_auth`, for an account that signs. -/
def signRequest (envelope : AwsCredentialEnvelope) (method : String) (body : Bytes)
    (now : DateTime) (prepared : PreparedProviderRequest) :
    Except ProviderError PreparedProviderRequest :=
  match canonicalHost prepared.url with
  | .error error => .error error
  | .ok host =>
      let date := Chrono.formatDate now
      let amzDate := Chrono.formatInstant now
      let service := envelope.service.getD "bedrock"
      let payloadHash := hex (Digests.sha256 body)
      let headers := amzHeaders host payloadHash amzDate envelope.sessionToken prepared.headers
      let names := signedHeaderNames headers envelope.sessionToken
      let scope := date ++ "/" ++ envelope.region ++ "/" ++ service ++ "/aws4_request"
      let stringToSign := "AWS4-HMAC-SHA256\n" ++ amzDate ++ "\n" ++ scope ++ "\n" ++
        hex (Digests.sha256 (asBytes
          (canonicalRequest method payloadHash prepared.url headers names)))
      .ok { prepared with
        headers := headers.insert "authorization" ("AWS4-HMAC-SHA256 Credential=" ++
          envelope.accessKeyId ++ "/" ++ scope ++ ", SignedHeaders=" ++ ";".intercalate names ++
          ", Signature=" ++ awsSignature envelope date service stringToSign) }

/-- `finalize_request_auth`. -/
def finalizeRequestAuth (account : ProviderAccount) (credential method : String) (body : Bytes)
    (now : DateTime) (prepared : PreparedProviderRequest) :
    Except ProviderError PreparedProviderRequest :=
  if account.kind ≠ .bedrockSigV4 then .ok prepared
  else
    match Serde.awsEnvelopeFromStr credential with
    | none => .error .invalidAwsCredential
    | some envelope =>
        match envelope.validate with
        | .error error => .error error
        | .ok () => signRequest envelope method body now prepared

end Sign

end Providers

end Llmap
