import Llmap.Common.Rust
/-!
# The crates

What the sources call in other crates is not modelled here; it enters as
a parameter, one class for each concern. A result that holds of whatever
the crate computes mentions no more than the class, and one that rests on
a property of the crate names the property as a law.
-/

namespace Llmap

/-- `serde_json::Value`. The fields of an object are listed in the order
of the map that holds them, and a number by its text. -/
inductive Json where
  | null
  | bool (value : Bool)
  | number (text : String)
  | string (value : String)
  | array (items : List Json)
  | object (fields : List (String × Json))

namespace Json

/-- `Value::get` at a key: nothing but an object has any. -/
def get (value : Json) (key : String) : Option Json :=
  match value with
  | .object fields => fields.lookup key
  | _ => none

/-- `Value::as_str`. -/
def asStr : Json → Option String
  | .string value => some value
  | _ => none

/-- `Value::as_bool`. -/
def asBool : Json → Option Bool
  | .bool value => some value
  | _ => none

/-- `Map::remove`. -/
def removeField (key : String) (fields : List (String × Json)) : List (String × Json) :=
  fields.filter (·.1 ≠ key)

/-- `Map::entry` with `or_insert_with`: a new field goes where the order
of the keys has it. -/
def orInsertField (key : String) (value : Json) (fields : List (String × Json)) :
    List (String × Json) :=
  if (fields.lookup key).isSome then fields
  else fields.takeWhile (·.1 < key) ++ (key, value) :: fields.dropWhile (·.1 < key)

/-- An assignment through `Value::get_mut`: what has no such field stays
as it is. -/
def assign (key : String) (value : Json) : Json → Json
  | .object fields =>
      .object (fields.map fun field => if field.1 = key then (key, value) else field)
  | other => other

end Json

/-- **Encodings**: `crc32fast`, the padded alphabet of `base64`,
`serde_json` on values, and the standard library's lossy reading of
text. -/
class Codecs where
  /-- `crc32fast::hash`. -/
  crc32 : Bytes → UInt32
  /-- `STANDARD.decode`. -/
  base64Decode : String → Option Bytes
  /-- `serde_json::from_slice` at `Value`. -/
  jsonFromSlice : Bytes → Option Json
  /-- `Value`'s `Display`, which is also `serde_json::to_vec`. -/
  jsonToString : Json → String
  /-- `String::from_utf8_lossy`. -/
  fromUtf8Lossy : Bytes → String

/-- JSON is text, on one line when it is printed, and text is not lost. -/
class LawfulCodecs [Codecs] : Prop where
  fromUtf8Lossy_asBytes : ∀ text : String, Codecs.fromUtf8Lossy (asBytes text) = text
  exists_of_jsonFromSlice : ∀ {bytes : Bytes} {value : Json},
    Codecs.jsonFromSlice bytes = some value → ∃ text, asBytes text = bytes
  newline_notMem_jsonToString : ∀ value : Json, '\n' ∉ (Codecs.jsonToString value).toList

/-- **Encoders**: `base64` and `serde_json` the other way, and that what
is encoded is decoded again. -/
class Encoders [Codecs] where
  /-- `STANDARD.encode`. -/
  base64Encode : Bytes → String
  base64Decode_encode : ∀ bytes : Bytes, Codecs.base64Decode (base64Encode bytes) = some bytes
  jsonFromSlice_toString : ∀ key text : String,
    Codecs.jsonFromSlice (asBytes (Codecs.jsonToString (.object [(key, .string text)]))) =
      some (.object [(key, .string text)])

/-! ## Addresses -/

/-- `url::Url`, by its parts. The host is what `host_str` gives, and the
port is absent where it is the scheme's own. -/
structure Url where
  scheme : String
  username : String
  password : Option String
  host : Option String
  port : Option UInt16
  path : String
  query : Option String
  fragment : Option String
deriving DecidableEq

/-- **Addresses**: `url`. -/
class Urls where
  /-- `Url::parse`. -/
  parse : String → Option Url
  /-- `Url`'s `Display`. -/
  print : Url → String
  /-- `Url::join`. -/
  join : Url → String → Option Url
  /-- `Url::set_path`. -/
  setPath : Url → String → Url
  /-- `Url::path_segments_mut`, cleared, with the segments pushed. -/
  withSegments : Url → List String → Option Url
  /-- Whether two have the same `Url::origin`. -/
  sameOrigin : Url → Url → Bool
  /-- `Url::query_pairs`. -/
  queryPairs : Url → List (String × String)

/-- The characters that stand for themselves in every part of a URL. -/
def unreserved (c : Char) : Bool :=
  isAsciiAlphanumeric c || c = '-' || c = '_' || c = '.' || c = '~'

/-- The characters that `url` takes out of what it parses. -/
def isTabOrNewline (c : Char) : Bool := c = '\t' || c = '\n' || c = '\r'

/-- **How a character is written in a segment of a path**: tabs and line
breaks are taken out, unreserved characters and the colon stay, and what
does not stay is percent-encoded, the slash among it. -/
structure SegmentEncoding (encode : Char → List Char) : Prop where
  removed : ∀ c, encode c = [] ↔ isTabOrNewline c = true
  unreserved : ∀ c, unreserved c = true → encode c = [c]
  colon : encode ':' = [':']
  encoded : ∀ c, encode c = [] ∨ encode c = [c] ∨ '%' ∈ encode c
  slash : '%' ∈ encode '/'

/-- A segment that `url` reads as `.` or `..`. -/
def IsDotSegment (segment : String) : Prop :=
  segment.toList.filter (fun c => !isTabOrNewline c) = ['.'] ∨
    segment.toList.filter (fun c => !isTabOrNewline c) = ['.', '.']

instance (segment : String) : Decidable (IsDotSegment segment) :=
  inferInstanceAs (Decidable (_ ∨ _))

/-- A segment with nothing in it that `url` keeps. -/
def IsBlankSegment (segment : String) : Prop := segment.toList.all isTabOrNewline = true

instance (segment : String) : Decidable (IsBlankSegment segment) :=
  inferInstanceAs (Decidable (_ = _))

/-- Segments that are pushed are encoded once and joined, unless the first
is blank or one of them is a dot segment; even then nothing else comes
into the path but slashes and dots. A `file` is treated differently. -/
class LawfulUrls [Urls] : Prop where
  path_withSegments : ∀ {base url : Url} {first : String} {rest : List String},
    base.scheme ≠ "file" → ¬ IsBlankSegment first →
    Urls.withSegments base (first :: rest) = some url →
    ∃ encode, SegmentEncoding encode ∧
      ((∀ segment ∈ first :: rest, ¬ IsDotSegment segment) → url.path.toList =
        '/' :: ['/'].intercalate ((first :: rest).map fun segment =>
          segment.toList.flatMap encode)) ∧
      ∀ c ∈ url.path.toList, c = '/' ∨ c = '.' ∨
        ∃ segment ∈ first :: rest, ∃ d ∈ segment.toList, c ∈ encode d

/-- A last segment with nothing to encode in it, and no dot segment, ends
the path, whatever is pushed before it. -/
class LawfulSegments [Urls] : Prop where
  suffix_withSegments : ∀ {base url : Url} {segments : List String} {last : String},
    (∀ c ∈ last.toList, unreserved c = true) → ¬ IsDotSegment last →
    Urls.withSegments base (segments ++ [last]) = some url → last.toList <:+ url.path.toList

/-- Two addresses of one server. -/
structure Url.SameServer (left right : Url) : Prop where
  scheme : left.scheme = right.scheme
  host : left.host = right.host
  port : left.port = right.port

/-- A reference that is a path and nothing else: without a scheme, a
server, a query or a fragment. -/
def IsPlainPath (reference : String) : Prop :=
  reference.toList.all (fun c => unreserved c || c = '/') = true ∧
    startsWithStr reference "//" = false

instance (reference : String) : Decidable (IsPlainPath reference) :=
  inferInstanceAs (Decidable (_ ∧ _))

/-- An `https` address has a path that can be replaced, which leaves it at
its server, and its origin is its server. -/
class LawfulHttps [Urls] : Prop where
  join : ∀ {base : Url} {reference : String}, base.scheme = "https" → IsPlainPath reference →
    ∃ url, Urls.join base reference = some url ∧ url.SameServer base
  setPath : ∀ {base : Url} (path : String), base.scheme = "https" →
    (Urls.setPath base path).SameServer base
  withSegments : ∀ {base : Url} (segments : List String), base.scheme = "https" →
    ∃ url, Urls.withSegments base segments = some url ∧ url.SameServer base
  sameOrigin : ∀ {left right : Url}, left.SameServer right → right.scheme = "https" →
    Urls.sameOrigin left right = true

/-- The characters of a host that is a name. -/
def hostChar (c : Char) : Bool := isAsciiAlphanumeric c || c = '-' || c = '.'

/-- An address that is no more than a host has a server and nobody's name
in it, and to replace a path is to replace nothing else. -/
class LawfulAuthority [Urls] : Prop where
  parse_host : ∀ {host : String} {url : Url}, host.toList.all hostChar = true →
    Urls.parse ("https://" ++ host ++ "/") = some url →
      url.scheme = "https" ∧ url.host ≠ none ∧ url.username = "" ∧ url.password = none
  setPath_eq : ∀ {url : Url} (path : String), url.scheme = "https" →
    Urls.setPath url path = { url with path := (Urls.setPath url path).path }

/-- The text of a scheme, a host and a port that is not the scheme's own. -/
def writeAuthority (scheme host : String) (port : Option UInt16) : String :=
  match port with
  | some port => scheme ++ "://" ++ host ++ ":" ++ toString port.toNat
  | none => scheme ++ "://" ++ host

/-- A host that is an IPv6 address. -/
def IsBracketedHost (host : String) : Prop := ∃ address, host = "[" ++ address ++ "]"

/-- An IPv6 address is a host between brackets, and no other host has a colon
in it; twice between brackets, it is none. Any other host of an address
that has been parsed is parsed again, as it is and with its port, where
nobody's name is written before it. -/
class LawfulHosts [Urls] : Prop where
  bracketed_iff : ∀ {text host : String} {url : Url}, Urls.parse text = some url →
    url.host = some host → (containsStr host ":" = true ↔ IsBracketedHost host)
  parse_brackets : ∀ {text host : String} {url : Url}, Urls.parse text = some url →
    url.host = some host → containsStr host ":" = true →
    Urls.parse (writeAuthority url.scheme ("[" ++ host ++ "]") url.port) = none
  parse_authority : ∀ {text host : String} {url : Url}, Urls.parse text = some url →
    url.host = some host → containsStr host ":" = false →
    ∃ again, Urls.parse (writeAuthority url.scheme host url.port) = some again ∧
      again.scheme = url.scheme ∧ again.host = some host ∧ again.port = url.port ∧
      again.username = "" ∧ again.password = none

/-! ## Secrets -/

/-- **Sealing**: `XChaCha20Poly1305` under a key, a nonce and associated
data, and the unpadded URL-safe alphabet of `base64`. -/
class Sealing where
  /-- `Aead::encrypt`, at a key, a nonce, associated data and a message. -/
  encrypt : Bytes → Bytes → Bytes → Bytes → Option Bytes
  /-- `Aead::decrypt`. -/
  decrypt : Bytes → Bytes → Bytes → Bytes → Option Bytes
  /-- `URL_SAFE_NO_PAD.encode`. -/
  base64UrlEncode : Bytes → String
  /-- `URL_SAFE_NO_PAD.decode`. -/
  base64UrlDecode : String → Option Bytes

/-- What is sealed opens again, and the alphabet has no dot. -/
class LawfulSealing [Sealing] : Prop where
  decrypt_encrypt : ∀ {key nonce associated message sealed : Bytes},
    Sealing.encrypt key nonce associated message = some sealed →
      Sealing.decrypt key nonce associated sealed = some message
  base64Url_decode_encode : ∀ bytes : Bytes,
    Sealing.base64UrlDecode (Sealing.base64UrlEncode bytes) = some bytes
  dot_notMem_base64Url : ∀ bytes : Bytes, '.' ∉ (Sealing.base64UrlEncode bytes).toList

/-- What is sealed under associated data opens under no other. -/
class IdealSealing [Sealing] : Prop where
  associated_eq : ∀ {key nonce associated associated' message message' sealed : Bytes},
    Sealing.encrypt key nonce associated message = some sealed →
      Sealing.decrypt key nonce associated' sealed = some message' → associated' = associated

/-- **Digests**: `HMAC-SHA256` and `SHA-256`. -/
class Digests where
  /-- `Hmac::<Sha256>`, at a key and a message. -/
  hmacSha256 : Bytes → Bytes → Bytes
  /-- `Sha256::digest`. -/
  sha256 : Bytes → Bytes

/-- **Password hashes**: `argon2`. -/
class Argon2 where
  /-- `PasswordHash::new`, as the passwords `verify_password` then takes. -/
  passwordHash : String → Option (Bytes → Bool)

/-! ## Instants as text -/

/-- **Calendars**: `chrono` between instants and text. -/
class Chrono where
  /-- `DateTime::to_rfc3339`. -/
  toRfc3339 : DateTime → String
  /-- `DateTime::parse_from_rfc3339`, in UTC. -/
  parseFromRfc3339 : String → Option DateTime
  /-- `DateTime::format` with `%Y%m%d`. -/
  formatDate : DateTime → String
  /-- `DateTime::format` with `%Y%m%dT%H%M%SZ`. -/
  formatInstant : DateTime → String

/-- An instant of the years 0000 to 9999, which RFC 3339 can write. -/
def FourDigitYear (instant : DateTime) : Prop :=
  seconds (-62167219200) ≤ instant ∧ instant < seconds 253402300800

instance (instant : DateTime) : Decidable (FourDigitYear instant) :=
  inferInstanceAs (Decidable (_ ∧ _))

/-- An instant of a four-digit year reads back as itself. Any other is
written with a sign and more digits, which RFC 3339 does not have. -/
class LawfulChrono [Chrono] : Prop where
  parse_toRfc3339 : ∀ instant : DateTime, Chrono.parseFromRfc3339 (Chrono.toRfc3339 instant) =
    if FourDigitYear instant then some instant else none

end Llmap
