import Llmap.Providers.Account
/-!
# Legacy credentials

`LegacyCredential` and `LegacyOAuth` of `migration.rs`, and how they are
read from JSON: by what `#[derive(Deserialize)]` makes of their attributes.
A field is read under its name in camel case or an alias, a field that is
given twice is an error, and fields of other names are left out. `serde_json`
takes a list for a record as well, with the fields in the order of their
declaration.

The documents have the fields of an object as they are written, also those
of one name, unlike `serde_json::Value`.
-/

namespace Llmap

namespace Migration

/-! ## Records -/

/-- The value that is given under one of the names: nothing if it is given
twice. -/
def fieldNamed (fields : List (String × Json)) (names : List String) : Option (Option Json) :=
  match fields.filter fun field => field.1 ∈ names with
  | [] => some none
  | [field] => some (some field.2)
  | _ => none

/-- The values of a record's fields, by the names of each, in an object or
in a list. -/
def readFields (record : List (List String)) : Json → Option (List (Option Json))
  | .object fields => record.mapM (fieldNamed fields)
  | .array items =>
      if items.length ≤ record.length then
        some (items.map some ++ List.replicate (record.length - items.length) none)
      else none
  | _ => none

/-! ## Values -/

/-- `String`. -/
def readString : Json → Option String
  | .string value => some value
  | _ => none

/-- `bool`. -/
def readBool : Json → Option Bool
  | .bool value => some value
  | _ => none

/-- `i64`. What is written `-0` is a floating-point number. -/
def readI64 : Json → Option Int
  | .number text => if text = "-0" then none else parseI64 text
  | _ => none

/-- `Vec<String>`. -/
def readStrings : Json → Option (List String)
  | .array items => items.mapM readString
  | _ => none

/-- `BTreeMap<String, String>`. -/
def readMap : Json → Option (Table String String)
  | .object fields =>
      (fields.mapM fun field => (readString field.2).map fun value => (field.1, value)).map
        Table.collect
  | _ => none

/-- `Option<T>`: nothing where there is `null`. -/
def readOption {α : Type} (read : Json → Option α) : Json → Option (Option α)
  | .null => some none
  | value => (read value).map some

/-- A field with `#[serde(default)]`. -/
def readDefault {α : Type} (default : α) (read : Json → Option α) : Option Json → Option α
  | none => some default
  | some value => read value

/-! ## `LegacyOAuth` -/

/-- `LegacyOAuth`. -/
structure LegacyOAuth where
  accessToken : String
  refreshToken : String
  expiresAt : Int
  scopes : List String
deriving DecidableEq

/-- The names of its fields. -/
def oauthFields : List (List String) :=
  [["accessToken"], ["refreshToken"], ["expiresAt"], ["scopes"]]

/-- `LegacyOAuth::deserialize`. -/
def LegacyOAuth.read (document : Json) : Option LegacyOAuth :=
  match readFields oauthFields document with
  | some [some accessToken, some refreshToken, some expiresAt, scopes] => do
      return {
        accessToken := ← readString accessToken
        refreshToken := ← readString refreshToken
        expiresAt := ← readI64 expiresAt
        scopes := ← readDefault [] readStrings scopes }
  | _ => none

/-! ## `LegacyCredential` -/

/-- `LegacyCredential`. -/
structure LegacyCredential where
  paused : Bool
  providerType : Option String
  apiKey : Option String
  baseUrl : Option String
  model : Option String
  modelMap : Table String String
  region : Option String
  accessKeyId : Option String
  secretAccessKey : Option String
  sessionToken : Option String
  proxyUrl : Option String
  proxyUrls : List String
  claudeAiOauth : Option LegacyOAuth
deriving DecidableEq

/-- The names of its fields. -/
def credentialFields : List (List String) :=
  [["paused"],
    ["type"],
    ["apiKey", "api_key"],
    ["baseUrl", "base_url"],
    ["model"],
    ["modelMap", "model_map", "models"],
    ["region"],
    ["accessKeyId", "access_key_id"],
    ["secretAccessKey", "secret_access_key"],
    ["sessionToken", "session_token"],
    ["proxyUrl"],
    ["proxyUrls", "proxy_urls", "egress_proxies"],
    ["claudeAiOauth"]]

/-- `LegacyCredential::deserialize`. -/
def LegacyCredential.read (document : Json) : Option LegacyCredential :=
  match readFields credentialFields document with
  | some [paused, providerType, apiKey, baseUrl, model, modelMap, region, accessKeyId,
      secretAccessKey, sessionToken, proxyUrl, proxyUrls, claudeAiOauth] => do
      let text := readDefault none (readOption readString)
      return {
        paused := ← readDefault false readBool paused
        providerType := ← text providerType
        apiKey := ← text apiKey
        baseUrl := ← text baseUrl
        model := ← text model
        modelMap := ← readDefault ∅ readMap modelMap
        region := ← text region
        accessKeyId := ← text accessKeyId
        secretAccessKey := ← text secretAccessKey
        sessionToken := ← text sessionToken
        proxyUrl := ← text proxyUrl
        proxyUrls := ← readDefault [] readStrings proxyUrls
        claudeAiOauth := ← readDefault none (readOption LegacyOAuth.read) claudeAiOauth }
  | _ => none

end Migration

end Llmap
