import Llmap.Crates
/-!
# Provider accounts

The accounts a proxy holds and the credentials they sign with, as
`providers.rs` and `storage.rs` declare them, and what `serde_json` makes
of them.
-/

namespace Llmap

namespace Providers

/-- `ProviderKind`. -/
inductive ProviderKind where
  | claudeOauth
  | anthropicApiKey
  | bedrockApiKey
  | bedrockSigV4
  | anthropicCompatible
deriving DecidableEq

/-- `provider_name`, and the names `route_accounts` gives. -/
def providerName : ProviderKind → String
  | .claudeOauth => "claude_oauth"
  | .anthropicApiKey => "anthropic_api_key"
  | .bedrockApiKey => "bedrock_api_key"
  | .bedrockSigV4 => "bedrock_sig_v4"
  | .anthropicCompatible => "anthropic_compatible"

/-- `ProviderAccount`. -/
structure ProviderAccount where
  id : String
  label : String
  kind : ProviderKind
  baseUrl : Url
  enabled : Bool
  modelMap : Table String String
  egressProxies : List String
  compatibleAuthHeader : Option String
  compatibleAuthPrefix : Option String
deriving DecidableEq

/-- `OAuthCredentialEnvelope`: the credential of an account that signs in
with OAuth, when it is given as JSON. -/
structure OAuthCredentialEnvelope where
  accessToken : String
  expiresAt : Option DateTime
  refreshToken : Option String
  tokenEndpoint : Option Url
  clientId : Option String
  clientSecret : Option String
  scope : Option String
deriving DecidableEq

/-- `AwsCredentialEnvelope`: the credential of an account that signs its
requests. -/
structure AwsCredentialEnvelope where
  accessKeyId : String
  secretAccessKey : String
  sessionToken : Option String
  region : String
  service : Option String
deriving DecidableEq

/-- **`serde_json` at the types of the accounts.** The text of an account
is a type of its own: the sources read it only with `from_str` and write
it only with `to_string`. The others are secrets, and so are text that can
be sealed. -/
class Serde where
  /-- The text of an account. -/
  AccountJson : Type
  decidableEq : DecidableEq AccountJson
  accountToString : ProviderAccount → AccountJson
  accountFromStr : AccountJson → Except String ProviderAccount
  egressToString : List String → String
  egressFromStr : String → Except String (List String)
  envelopeToString : OAuthCredentialEnvelope → String
  envelopeFromStr : String → Except String OAuthCredentialEnvelope
  awsEnvelopeFromStr : String → Option AwsCredentialEnvelope

instance [Serde] : DecidableEq Serde.AccountJson := Serde.decidableEq

/-- What is written is read back. -/
class LawfulSerde [Serde] : Prop where
  accountFromStr_toString : ∀ account : ProviderAccount,
    Serde.accountFromStr (Serde.accountToString account) = .ok account
  egressFromStr_toString : ∀ egress : List String,
    Serde.egressFromStr (Serde.egressToString egress) = .ok egress

end Providers

end Llmap
