import Llmap.Common.Text
import Llmap.Migration.Legacy
import Llmap.Storage.Model
/-!
# Migration

`migration.rs`: the accounts of an environment file of Claudeproxy, read
line by line and converted one by one (`parse_claudeproxy_env`), and how
they are written into the store (`import_claudeproxy_env`).
-/

namespace Llmap

namespace Migration

open Providers Secrets Storage

/-! ## Types -/

/-- `ImportedAccount`. -/
structure ImportedAccount where
  account : ProviderAccount
  credential : String
deriving DecidableEq

/-- `ImportSummary`. -/
structure ImportSummary where
  imported : ℕ
  skippedExisting : ℕ
deriving DecidableEq

/-- `MigrationError`. -/
inductive MigrationError where
  | duplicateVariable (key : String)
  | incompleteAccount (index : UInt16)
  | invalidJson (index : UInt16)
  | invalidProvider (index : UInt16) (reason : String)
  | empty
  | storage (error : StorageError)
deriving DecidableEq

/-- `LegacyEntry`. -/
structure LegacyEntry where
  name : Option String
  credential : Option String
  enabled : Bool
deriving DecidableEq

/-- `CLAUDE_TOKEN_ENDPOINT`. -/
def claudeTokenEndpoint : String := "https://platform.claude.com/v1/oauth/token"

/-- `CLAUDE_OAUTH_CLIENT_ID`. -/
def claudeOauthClientId : String := "9d1c250a-e61b-44d9-88ed-5944d1962f5e"

/-- `OAuthEnvelope`. -/
structure OAuthEnvelope where
  accessToken : String
  refreshToken : String
  expiresAt : DateTime
  tokenEndpoint : String
  clientId : String
  scope : Option String
deriving DecidableEq

/-- `AwsEnvelope`. -/
structure AwsEnvelope where
  accessKeyId : String
  secretAccessKey : String
  sessionToken : Option String
  region : String
deriving DecidableEq

/-- **What the migration calls in other crates**, besides what the rest of
the program does. -/
class LegacyCrates where
  /-- The document of a text, as `serde_json::from_str` goes through it. -/
  documentFromStr : String → Option Json
  /-- `DateTime::from_timestamp_millis`. -/
  fromTimestampMillis : Int → Option DateTime
  /-- `serde_json::to_string` at `OAuthEnvelope`. -/
  oauthEnvelopeToString : OAuthEnvelope → String
  /-- `serde_json::to_string` at `AwsEnvelope`. -/
  awsEnvelopeToString : AwsEnvelope → String

/-! ## Conversion -/

section Convert

variable [LegacyCrates] [Urls]

/-- `Url::parse("https://api.anthropic.com/")`. -/
def anthropicUrl : Url := ⟨"https", "", none, some "api.anthropic.com", none, "/", none, none⟩

/-- What a provider makes of a credential: `convert_api_provider`'s
answer. -/
structure Provider where
  kind : ProviderKind
  baseUrl : Url
  compatibleAuthHeader : Option String
  compatibleAuthPrefix : Option String
  secret : String
deriving DecidableEq

omit [LegacyCrates] [Urls] in
/-- The characters of a region. -/
def validRegion (region : String) : Bool :=
  region ≠ "" && region.toList.all fun c => isAsciiAlphanumeric c || c = '-'

omit [LegacyCrates] [Urls] in
/-- The host of a region. -/
def bedrockHost (region : String) : String := "bedrock-runtime." ++ region ++ ".amazonaws.com"

omit [LegacyCrates] [Urls] in
/-- The region of a legacy credential. -/
def LegacyCredential.regionName (legacy : LegacyCredential) : String :=
  legacy.region.getD "us-east-1"

omit [LegacyCrates] [Urls] in
/-- The envelope of the keys of AWS that a legacy credential has. -/
def LegacyCredential.awsEnvelope (legacy : LegacyCredential)
    (accessKeyId secretAccessKey : String) : AwsEnvelope :=
  ⟨accessKeyId, secretAccessKey, legacy.sessionToken, legacy.regionName⟩

/-- The branch of `convert_api_provider` for Bedrock. -/
def convertBedrock (index : UInt16) (legacy : LegacyCredential) :
    Except MigrationError Provider :=
  let region := legacy.regionName
  if validRegion region = false then
    .error (.invalidProvider index "Bedrock region is invalid")
  else
    match Urls.parse ("https://" ++ bedrockHost region ++ "/") with
    | none => .error (.invalidProvider index "Bedrock URL is invalid")
    | some baseUrl =>
        match legacy.accessKeyId, legacy.secretAccessKey with
        | some accessKeyId, some secretAccessKey =>
            .ok ⟨.bedrockSigV4, baseUrl, none, none, LegacyCrates.awsEnvelopeToString
              (legacy.awsEnvelope accessKeyId secretAccessKey)⟩
        | _, _ =>
            match legacy.apiKey.filter (· ≠ "") with
            | none => .error (.invalidProvider index "Bedrock credentials are missing")
            | some apiKey => .ok ⟨.bedrockApiKey, baseUrl, none, none, apiKey⟩

omit [LegacyCrates] in
/-- The address of a provider that is compatible: its path ends in
`/anthropic`. -/
def compatibleUrl (baseUrl : Url) : Url :=
  let path := trimEndMatches '/' baseUrl.path
  if endsWithStr path "/anthropic" then baseUrl
  else Urls.setPath baseUrl (path ++ "/anthropic/")

omit [LegacyCrates] in
/-- The branch of `convert_api_provider` for an API key. -/
def convertApiKey (index : UInt16) (legacy : LegacyCredential) (providerType : String) :
    Except MigrationError Provider :=
  match legacy.apiKey.filter (· ≠ "") with
  | none => .error (.invalidProvider index "API key is missing")
  | some apiKey =>
      let providerIsAnthropic : Bool := providerType = "anthropic" || providerType = "claude-api"
      match legacy.baseUrl.or
          (if providerIsAnthropic then some "https://api.anthropic.com/" else none) with
      | none => .error (.invalidProvider index "base URL is missing")
      | some source =>
          match Urls.parse source with
          | none => .error (.invalidProvider index "base URL is invalid")
          | some baseUrl =>
              if baseUrl.scheme ≠ "https" ∨ baseUrl.host = none then
                .error (.invalidProvider index "base URL must use HTTPS")
              else if providerIsAnthropic ∨ baseUrl.host = some "api.anthropic.com" then
                .ok ⟨.anthropicApiKey, baseUrl, none, none, apiKey⟩
              else
                .ok ⟨.anthropicCompatible, compatibleUrl baseUrl, some "authorization",
                  some "Bearer ", apiKey⟩

omit [LegacyCrates] [Urls] in
/-- The type of a legacy credential, in lower case. -/
def LegacyCredential.typeName (legacy : LegacyCredential) : String :=
  toAsciiLowercase (legacy.providerType.getD "")

/-- `convert_api_provider`. -/
def convertApiProvider (index : UInt16) (legacy : LegacyCredential) :
    Except MigrationError Provider :=
  if legacy.typeName = "bedrock" then convertBedrock index legacy
  else convertApiKey index legacy legacy.typeName

omit [LegacyCrates] [Urls] in
/-- The envelope of legacy tokens, with the instant at which they expire. -/
def LegacyOAuth.envelope (oauth : LegacyOAuth) (expiresAt : DateTime) : OAuthEnvelope where
  accessToken := oauth.accessToken
  refreshToken := oauth.refreshToken
  expiresAt := expiresAt
  tokenEndpoint := claudeTokenEndpoint
  clientId := claudeOauthClientId
  scope := if oauth.scopes = [] then none else some (" ".intercalate oauth.scopes)

omit [Urls] in
/-- The branch of `convert_credential` for OAuth. -/
def convertOauth (index : UInt16) (oauth : LegacyOAuth) : Except MigrationError Provider :=
  if oauth.accessToken = "" ∨ oauth.refreshToken = "" then
    .error (.invalidProvider index "OAuth access and refresh tokens are required")
  else
    match LegacyCrates.fromTimestampMillis oauth.expiresAt with
    | none => .error (.invalidProvider index "OAuth expiry is invalid")
    | some expiresAt =>
        .ok ⟨.claudeOauth, anthropicUrl, none, none,
          LegacyCrates.oauthEnvelopeToString (oauth.envelope expiresAt)⟩

omit [LegacyCrates] [Urls] in
/-- The id of an imported account. -/
def accountId (index : UInt16) : String := "claudeproxy-" ++ toString index.toNat

omit [LegacyCrates] [Urls] in
/-- The models of a legacy credential: its one model is the default, unless
there is one. -/
def legacyModels (legacy : LegacyCredential) : Table String String :=
  match legacy.model.filter (· ≠ "") with
  | some model => legacy.modelMap.insertIfNew "default" model
  | none => legacy.modelMap

omit [LegacyCrates] [Urls] in
/-- The proxies of a legacy credential, its one proxy first. -/
def legacyProxies (legacy : LegacyCredential) : List String :=
  match legacy.proxyUrl.filter (· ≠ "") with
  | some proxy => proxy :: legacy.proxyUrls
  | none => legacy.proxyUrls

/-- The provider of a credential: OAuth comes before anything else. -/
def legacyProvider (index : UInt16) (legacy : LegacyCredential) :
    Except MigrationError Provider :=
  match legacy.claudeAiOauth with
  | some oauth => convertOauth index oauth
  | none => convertApiProvider index legacy

omit [LegacyCrates] [Urls] in
/-- The account of a legacy credential with a provider. -/
def importedAccount (index : UInt16) (label : String) (lineEnabled : Bool)
    (legacy : LegacyCredential) (provider : Provider) : ImportedAccount where
  account := {
    id := accountId index
    label := label
    kind := provider.kind
    baseUrl := provider.baseUrl
    enabled := lineEnabled && !legacy.paused
    modelMap := legacyModels legacy
    egressProxies := legacyProxies legacy
    compatibleAuthHeader := provider.compatibleAuthHeader
    compatibleAuthPrefix := provider.compatibleAuthPrefix }
  credential := provider.secret

/-- `convert_credential`. -/
def convertCredential (index : UInt16) (label : String) (lineEnabled : Bool)
    (legacy : LegacyCredential) : Except MigrationError ImportedAccount :=
  (legacyProvider index legacy).map (importedAccount index label lineEnabled legacy)

omit [Urls] in
/-- `serde_json::from_str` at `LegacyCredential`. -/
def LegacyCredential.fromStr (text : String) : Option LegacyCredential :=
  (LegacyCrates.documentFromStr text).bind LegacyCredential.read

/-- `convert_entry`. -/
def convertEntry (index : UInt16) (entry : LegacyEntry) :
    Except MigrationError ImportedAccount :=
  match entry.name.filter (fun name => trim name ≠ "") with
  | none => .error (.incompleteAccount index)
  | some name =>
      match entry.credential with
      | none => .error (.incompleteAccount index)
      | some credentialJson =>
          match LegacyCredential.fromStr credentialJson with
          | none => .error (.invalidJson index)
          | some credential => convertCredential index name entry.enabled credential

end Convert

/-! ## Lines -/

/-- `account_key`: the index of a variable, and whether it is the one with
the name. -/
def accountKey (key : String) : Option (UInt16 × Bool) := do
  let suffix ← stripPrefixStr key "CLAUDE_ACCOUNT_"
  let (digits, isName) := match stripSuffixStr suffix "_NAME" with
    | some digits => (digits, true)
    | none => (suffix, false)
  let index ← parseU16 digits
  if 0 < index then some (index, isName) else none

/-- `unquote`. -/
def unquote (value : String) : String :=
  match value.toList with
  | first :: rest =>
      if (first = '\'' ∨ first = '"') ∧ rest.getLast? = some first then
        String.ofList rest.dropLast
      else value
  | [] => value

/-- What a line assigns: a variable of an account, and whether the line is
not commented out. -/
structure Assignment where
  key : String
  index : UInt16
  isName : Bool
  value : String
  enabled : Bool
deriving DecidableEq

/-- A line without the comment sign before it, and whether it had none. -/
def uncommented (line : String) : Bool × String :=
  match stripPrefixStr line "#" with
  | some commented => (false, trimStart commented)
  | none => (true, line)

/-- The assignment of a line, if it has one: the part of the loop of
`parse_claudeproxy_env` that reads it. -/
def assignment (originalLine : String) : Option Assignment :=
  let line := uncommented (trim originalLine)
  if startsWithStr line.2 "CLAUDE_ACCOUNT_" = false then none
  else
    match splitOnce '=' line.2 with
    | none => none
    | some (key, rawValue) =>
        match accountKey key with
        | none => none
        | some (index, isName) => some ⟨key, index, isName, unquote (trim rawValue), line.1⟩

/-- What the loop has read. -/
structure Parsed where
  entries : Table UInt16 LegacyEntry
  seen : Finset String

/-- The entry an assignment is written into. -/
def LegacyEntry.assign (entry : LegacyEntry) (a : Assignment) : LegacyEntry where
  name := if a.isName then some a.value else entry.name
  credential := if a.isName then entry.credential else some a.value
  enabled := entry.enabled && a.enabled

/-- The part of the loop that writes an assignment down. -/
def Parsed.record (parsed : Parsed) (a : Assignment) : Except MigrationError Parsed :=
  if a.key ∈ parsed.seen then .error (.duplicateVariable a.key)
  else
    let entry := parsed.entries[a.index]?.getD ⟨none, none, a.enabled⟩
    .ok ⟨parsed.entries.insert a.index (entry.assign a), insert a.key parsed.seen⟩

/-- The loop of `parse_claudeproxy_env`, at a line. -/
def Parsed.line (parsed : Parsed) (originalLine : String) : Except MigrationError Parsed :=
  match assignment originalLine with
  | none => .ok parsed
  | some a => parsed.record a

/-- `parse_claudeproxy_env`. -/
def parseClaudeproxyEnv [LegacyCrates] [Urls] (source : String) :
    Except MigrationError (List ImportedAccount) :=
  match (textLines source).foldlM Parsed.line ⟨∅, ∅⟩ with
  | .error error => .error error
  | .ok parsed =>
      if parsed.entries.isEmpty then .error .empty
      else parsed.entries.toList.mapM fun entry => convertEntry entry.1 entry.2

/-! ## Import -/

section Import

variable [Serde] [Sealing] [Urls]

/-- SQLite's failures: the message of one at a call, if it fails there. -/
abbrev Faults := ℕ → Option String

/-- The loop of `import_claudeproxy_env`. Each write draws its own nonces;
SQLite may fail at each. -/
def importLoop (box : SecretBox) (faults : Faults) (nonces : ℕ → WriteNonces)
    (existing : List String) (replace : Bool) (call : ℕ) (summary : ImportSummary) :
    List ImportedAccount → Prog Section Section.Resp (Except MigrationError ImportSummary)
  | [] => .ret (.ok summary)
  | imported :: accounts =>
      if imported.account.id ∈ existing ∧ replace = false then
        importLoop box faults nonces existing replace (call + 1)
          { summary with skippedExisting := summary.skippedExisting + 1 } accounts
      else
        match faults call with
        | some message => .ret (.error (.storage (.database message)))
        | none =>
            (upsertAccount box (nonces call) imported.account imported.credential).bind fun
              | .error error => .ret (.error (.storage error))
              | .ok () =>
                  importLoop box faults nonces existing replace (call + 1)
                    { summary with imported := summary.imported + 1 } accounts

/-- `import_claudeproxy_env`. -/
def importClaudeproxyEnv (box : SecretBox) (faults : Faults) (nonces : ℕ → WriteNonces)
    (accounts : List ImportedAccount) (replace : Bool) :
    Prog Section Section.Resp (Except MigrationError ImportSummary) :=
  match faults 0 with
  | some message => .ret (.error (.storage (.database message)))
  | none =>
      listAccounts.bind fun
        | .error error => .ret (.error (.storage error))
        | .ok listed =>
            importLoop box faults nonces (listed.map (·.id)) replace 1 ⟨0, 0⟩ accounts

end Import

end Migration

end Llmap
