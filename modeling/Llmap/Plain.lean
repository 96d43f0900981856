import Llmap.Common.Encodings
import Llmap.Common.Text
import Llmap.Common.Timestamp
import Llmap.JsonText
import Llmap.Providers.Account
import Llmap.Secrets
/-!
# Models of the laws

The laws the crates are held to have models. Encodings, instants and JSON
are what the crates make of them, as far as the examples of this development
go; sealing hides nothing, and digests are the message.
-/

namespace Llmap

open Providers

/-- Codecs: the checksum, base64 and JSON as they are, and a text that is no
text read as one replacement character. -/
@[reducible] def Codecs.plain : Codecs where
  crc32 := Crc32.hash
  base64Decode text := Base64.decode text.toList
  jsonFromSlice := JsonText.parse
  jsonToString := JsonText.print
  fromUtf8Lossy bytes := (fromUtf8 bytes).getD "\uFFFD"

theorem Codecs.lawful_plain : @LawfulCodecs Codecs.plain := by
  refine @LawfulCodecs.mk Codecs.plain ?_ JsonText.exists_of_parse JsonText.newline_notMem_print
  intro text
  change (fromUtf8 (asBytes text)).getD _ = text
  rw [fromUtf8_asBytes]
  rfl

/-- The encoders of those codecs. -/
@[reducible] def Encoders.plain : @Encoders Codecs.plain :=
  @Encoders.mk Codecs.plain (fun bytes => String.ofList (Base64.encode bytes))
    (by
      intro bytes
      change Base64.decode (String.ofList _).toList = some bytes
      rw [String.toList_ofList, Base64.decode_encode])
    (by
      intro key text
      exact JsonText.parse_print_object (List.cons_ne_nil _ _) (by simp [JsonText.isFlat]))

/-- A byte as one character: itself if it is printed, but for the dot, and
else one past the ASCII range. -/
def clearChar (byte : UInt8) : Char :=
  if 32 ≤ byte.toNat ∧ byte.toNat < 127 ∧ byte.toNat ≠ 46 then Char.ofNat byte.toNat
  else Char.ofNat (byte.toNat + 256)

theorem toNat_clearChar (byte : UInt8) :
    (clearChar byte).toNat = byte.toNat ∧ byte.toNat ≠ 46 ∨
      (clearChar byte).toNat = byte.toNat + 256 := by
  have hlt := byte.toNat_lt
  have hchar : ∀ n, n < 512 → (Char.ofNat n).toNat = n := by
    intro n hn
    have hvalid : n.isValidChar := Or.inl (by omega)
    rw [Char.ofNat, dif_pos hvalid]
    rfl
  unfold clearChar
  split
  · rename_i hprinted
    exact .inl ⟨hchar _ (by omega), hprinted.2.2⟩
  · exact .inr (hchar _ (by omega))

/-- Sealing that hides nothing: the message is its own ciphertext. -/
@[reducible] def Sealing.clear : Sealing where
  encrypt _ _ _ message := some message
  decrypt _ _ _ sealed := some sealed
  base64UrlEncode bytes := String.ofList (bytes.map clearChar)
  base64UrlDecode text := some (text.toList.map fun c => UInt8.ofNat c.toNat)

theorem Sealing.lawful_clear : @LawfulSealing Sealing.clear := by
  have hbyte : ∀ byte, UInt8.ofNat (clearChar byte).toNat = byte := by
    intro byte
    rw [← UInt8.toNat_inj, UInt8.toNat_ofNat']
    have hlt := byte.toNat_lt
    rcases toNat_clearChar byte with ⟨hsame, -⟩ | hshifted <;> omega
  refine @LawfulSealing.mk Sealing.clear ?_ ?_ ?_
  · intro key nonce associated message sealed h
    exact h.symm
  · intro bytes
    change some (List.map _ (String.ofList _).toList) = some bytes
    simp [Function.comp_def, hbyte]
  · intro bytes hdot
    change '.' ∈ (String.ofList _).toList at hdot
    simp only [String.toList_ofList, List.mem_map] at hdot
    obtain ⟨byte, -, hchar⟩ := hdot
    have hcode := congrArg Char.toNat hchar
    rw [show '.'.toNat = 46 from rfl] at hcode
    rcases toNat_clearChar byte with ⟨hsame, hne⟩ | hshifted <;> omega

/-! ## Digests and addresses -/

/-- Digests that are the message. -/
@[reducible] def Digests.transparent : Digests where
  hmacSha256 _ message := message
  sha256 message := message

/-- A password is its own hash. -/
@[reducible] def Argon2.transparent : Argon2 where
  passwordHash text := some fun password => password = asBytes text

/-- A character of a segment. -/
def segmentChar (c : Char) : List Char :=
  if isTabOrNewline c then []
  else if unreserved c || c = ':' then [c]
  else (String.utf8EncodeChar c).flatMap fun byte => '%' :: (hexByte byte).map Char.toUpper

/-- The path of some segments: they are encoded and joined, but for dot
segments. -/
def segmentsPath (segments : List String) : String :=
  String.ofList ('/' :: ['/'].intercalate
    ((segments.filter fun segment => ¬ IsDotSegment segment).map fun segment =>
      segment.toList.flatMap segmentChar))

namespace PlainUrl

/-- The port that a scheme has of its own. -/
def ownPort (scheme : String) : Option UInt16 :=
  if scheme = "http" then some 80 else if scheme = "https" then some 443 else none

/-- The host and the port of a server: a name in lower case that ends with a
letter, and a number or none. -/
def parseServer (scheme server : String) : Option (String × Option UInt16) :=
  let named (host : String) : Bool :=
    host.toList.all (fun c => hostChar c && !c.isUpper) && host.toList.getLast?.any Char.isAlpha
  match splitOnce ':' server with
  | none => if named server then some (server, none) else none
  | some (host, port) =>
      (parseU16 port).bind fun port =>
        if named host then some (host, if ownPort scheme = some port then none else some port)
        else none

/-- An address of a scheme, a server and a path of plain segments. -/
def parse (text : String) : Option Url :=
  (splitOnce ':' text).bind fun (scheme, rest) =>
  (stripPrefixStr rest "//").bind fun rest =>
    let server := String.ofList (rest.toList.takeWhile (· ≠ '/'))
    let path := String.ofList (rest.toList.dropWhile (· ≠ '/'))
    if scheme ∈ ["http", "https", "socks5", "socks5h"] ∧
        path.toList.all (fun c => c.isAlphanum || c = '-' || c = '_' || c = '/') then
      (parseServer scheme server).map fun (host, port) =>
        ⟨scheme, "", none, some host, port,
          if path = "" ∧ (ownPort scheme).isSome then "/" else path, none, none⟩
    else none

/-- The text of an address that names nobody. -/
def print (url : Url) : String :=
  writeAuthority url.scheme (url.host.getD "") url.port ++ url.path ++
    (url.query.elim "" ("?" ++ ·)) ++ (url.fragment.elim "" ("#" ++ ·))

end PlainUrl

/-- Addresses of the plain form; a reference is a path with a query or
none. -/
@[reducible] def Urls.plain : Urls where
  parse := PlainUrl.parse
  print := PlainUrl.print
  join url reference := some { url with
    path := splitFirst '?' reference
    query := (splitOnce '?' reference).map Prod.snd
    fragment := none }
  setPath url path := { url with path := path }
  withSegments url segments := some { url with path := segmentsPath segments }
  sameOrigin left right :=
    left.scheme = right.scheme && left.host = right.host && left.port = right.port
  queryPairs url := (url.query.elim [] (splitChar '&')).map fun pair =>
    (splitOnce '=' pair).getD (pair, "")

theorem Urls.lawfulHttps_plain : @LawfulHttps Urls.plain := by
  refine @LawfulHttps.mk Urls.plain ?_ ?_ ?_ ?_
  · intro base reference _ _
    exact ⟨_, rfl, rfl, rfl, rfl⟩
  · intro base path _
    exact ⟨rfl, rfl, rfl⟩
  · intro base segments _
    exact ⟨_, rfl, rfl, rfl, rfl⟩
  · intro left right h _
    show (left.scheme = right.scheme && left.host = right.host && left.port = right.port) = true
    simp [h.scheme, h.host, h.port]

/-- Addresses of which some are listed, and no others parse. -/
@[reducible] def Urls.listed (addresses : List (String × Url)) : Urls :=
  { Urls.plain with parse := fun text => addresses.lookup text }

theorem suffix_intercalate (last : List Char) (parts : List (List Char)) :
    last <:+ ['/'].intercalate (parts ++ [last]) := by
  induction parts with
  | nil => simp
  | cons part parts ih =>
      have hcons : ['/'].intercalate (part :: (parts ++ [last])) =
          part ++ ['/'] ++ ['/'].intercalate (parts ++ [last]) := by
        cases parts <;> simp [List.intercalate_cons_cons]
      rw [List.cons_append, hcons]
      exact ih.trans (List.suffix_append _ _)

theorem percent_mem_encoded (c : Char) :
    '%' ∈ (String.utf8EncodeChar c).flatMap fun byte => '%' :: (hexByte byte).map Char.toUpper := by
  cases hbytes : String.utf8EncodeChar c with
  | nil =>
      have hsize := congrArg List.length hbytes
      rw [String.length_utf8EncodeChar, List.length_nil] at hsize
      exact absurd hsize c.utf8Size_pos.ne'
  | cons byte bytes => simp

theorem segmentEncoding_segmentChar : SegmentEncoding segmentChar where
  removed c := by
    unfold segmentChar
    split_ifs with htab hkept
    · exact iff_of_true rfl htab
    · exact iff_of_false (by simp) htab
    · exact iff_of_false (List.ne_nil_of_mem (percent_mem_encoded c)) htab
  unreserved c h := by
    have htab : isTabOrNewline c = false := by
      by_contra htab
      rw [Bool.not_eq_false] at htab
      have hcases : (c = '\t' ∨ c = '\n') ∨ c = '\r' := by simpa [isTabOrNewline] using htab
      rcases hcases with (rfl | rfl) | rfl <;> exact absurd h (by decide)
    simp [segmentChar, htab, h]
  colon := by decide
  encoded c := by
    unfold segmentChar
    split_ifs
    · exact .inl rfl
    · exact .inr (.inl rfl)
    · exact .inr (.inr (percent_mem_encoded c))
  slash := by decide

theorem mem_intercalate {α : Type} {x a : α} {parts : List (List α)}
    (h : a ∈ [x].intercalate parts) : a = x ∨ ∃ part ∈ parts, a ∈ part := by
  induction parts with
  | nil => simp [List.intercalate] at h
  | cons part parts ih =>
      cases parts with
      | nil => exact .inr ⟨part, by simp, by simpa using h⟩
      | cons next parts =>
          rw [List.intercalate_cons_cons, List.mem_append, List.mem_append] at h
          rcases h with (hpart | hx) | hrest
          · exact .inr ⟨part, by simp, hpart⟩
          · exact .inl (List.mem_singleton.mp hx)
          · rcases ih hrest with hx | ⟨later, hlater, ha⟩
            · exact .inl hx
            · exact .inr ⟨later, List.mem_cons_of_mem part hlater, ha⟩

theorem Urls.lawful_plain : @LawfulUrls Urls.plain := by
  refine @LawfulUrls.mk Urls.plain ?_
  intro base url first rest _ _ h
  generalize first :: rest = segments at h ⊢
  obtain rfl := Option.some.inj h
  refine ⟨segmentChar, segmentEncoding_segmentChar, ?_, ?_⟩
  · intro hdots
    have hall : segments.filter (fun segment => ¬ IsDotSegment segment) = segments :=
      List.filter_eq_self.mpr fun segment hsegment => by simpa using hdots segment hsegment
    rw [segmentsPath, hall, String.toList_ofList]
  · intro c hc
    rw [segmentsPath, String.toList_ofList, List.mem_cons] at hc
    rcases hc with hslash | hc
    · exact .inl hslash
    · rcases mem_intercalate hc with hslash | ⟨part, hpart, hcpart⟩
      · exact .inl hslash
      · obtain ⟨segment, hsegment, rfl⟩ := List.mem_map.mp hpart
        obtain ⟨d, hd, hcd⟩ := List.mem_flatMap.mp hcpart
        exact .inr (.inr ⟨segment, List.mem_of_mem_filter hsegment, d, hd, hcd⟩)

theorem Urls.lawfulSegments_plain : @LawfulSegments Urls.plain := by
  refine @LawfulSegments.mk Urls.plain ?_
  intro base url segments last hlast hdot h
  obtain rfl := Option.some.inj h
  have hsame : last.toList.flatMap segmentChar = last.toList := by
    refine (List.flatMap_congr fun c hc => ?_).trans (List.flatMap_singleton' _)
    exact segmentEncoding_segmentChar.unreserved c (hlast c hc)
  rw [segmentsPath, String.toList_ofList, List.filter_append, List.map_append]
  have hkept : [last].filter (fun segment => ¬ IsDotSegment segment) = [last] := by simp [hdot]
  rw [hkept, List.map_singleton, hsame]
  exact (suffix_intercalate _ _).trans (List.suffix_cons '/' _)

/-! ## Instants -/

open Calendar in
/-- Instants are written in RFC 3339, in UTC, and those of four-digit years are
read as they are written. -/
@[reducible] def Chrono.plain : Chrono where
  toRfc3339 instant := String.ofList (timestamp instant)
  parseFromRfc3339 text := ofTimestamp text.toList
  formatDate instant :=
    let date := dateOf (dayOf instant)
    String.ofList (yearText date.year ++ digits 2 date.month ++ digits 2 date.day)
  formatInstant instant :=
    let date := dateOf (dayOf instant)
    let second := secondOf instant
    String.ofList (yearText date.year ++ digits 2 date.month ++ digits 2 date.day ++
      'T' :: (digits 2 (second / 3600) ++ digits 2 (second / 60 % 60) ++
        digits 2 (second % 60) ++ ['Z']))

open Calendar in
theorem fourDigitYear_iff {instant : DateTime} : FourDigitYear instant ↔ InFourDigits instant := by
  have hstart : yearStart 10000 = 3652425 := by decide
  have h (instant : Int) : (-62167219200 * 1000000000 ≤ instant ∧
      instant < 253402300800 * 1000000000) ↔ InFourDigits instant := by
    unfold InFourDigits dayOf
    omega
  exact h instant

theorem Chrono.lawful_plain : @LawfulChrono Chrono.plain := by
  refine @LawfulChrono.mk Chrono.plain fun instant => ?_
  change Calendar.ofTimestamp (String.ofList (Calendar.timestamp instant)).toList = _
  rw [String.toList_ofList, Calendar.ofTimestamp_timestamp]
  simp only [fourDigitYear_iff]

/-! ## Text -/

namespace PlainSerde

/-- A field that may be left out. -/
def optional (value : Option String) : Json := value.elim .null .string

/-- A field that may be left out, or be null, as it is read. -/
def readOptional {α : Type} (document : Json) (key : String) (read : String → Option α) :
    Option (Option α) :=
  match document.get key with
  | none | some .null => some none
  | some (.string text) => (read text).map some
  | some _ => none

/-- An instant as `chrono` writes it for `serde`, with a letter for UTC. -/
def instantText (instant : DateTime) : String :=
  String.ofList ((Calendar.timestamp instant).dropLast.dropLast.dropLast.dropLast.dropLast.dropLast
    ++ ['Z'])

/-- The instant of such a text. -/
def readInstant (text : String) : Option DateTime :=
  if text.toList.getLast? = some 'Z' then
    Calendar.ofTimestamp (text.toList.dropLast ++ ['+', '0', '0', ':', '0', '0'])
  else none

/-- The text of an envelope: its fields in the order of their declaration. -/
def envelopeToString (envelope : OAuthCredentialEnvelope) : String :=
  JsonText.print (.object [("access_token", .string envelope.accessToken),
    ("expires_at", optional (envelope.expiresAt.map instantText)),
    ("refresh_token", optional envelope.refreshToken),
    ("token_endpoint", optional (envelope.tokenEndpoint.map PlainUrl.print)),
    ("client_id", optional envelope.clientId), ("client_secret", optional envelope.clientSecret),
    ("scope", optional envelope.scope)])

/-- The envelope of a document. -/
def readEnvelope (document : Json) : Option OAuthCredentialEnvelope := do
  let accessToken ← (document.get "access_token").bind Json.asStr
  let expiresAt ← readOptional document "expires_at" readInstant
  let refreshToken ← readOptional document "refresh_token" some
  let tokenEndpoint ← readOptional document "token_endpoint" PlainUrl.parse
  let clientId ← readOptional document "client_id" some
  let clientSecret ← readOptional document "client_secret" some
  let scope ← readOptional document "scope" some
  return ⟨accessToken, expiresAt, refreshToken, tokenEndpoint, clientId, clientSecret, scope⟩

/-- The envelope of a text. -/
def envelopeFromStr (text : String) : Except String OAuthCredentialEnvelope :=
  match JsonText.parse (asBytes text) with
  | none => .error "EOF while parsing an object"
  | some document =>
      match readEnvelope document with
      | none => .error "missing field `access_token`"
      | some envelope => .ok envelope

/-- The AWS credential of a text. -/
def awsEnvelopeFromStr (text : String) : Option AwsCredentialEnvelope := do
  let document ← JsonText.parse (asBytes text)
  let accessKeyId ← (document.get "access_key_id").bind Json.asStr
  let secretAccessKey ← (document.get "secret_access_key").bind Json.asStr
  let sessionToken ← readOptional document "session_token" some
  let region ← (document.get "region").bind Json.asStr
  let service ← readOptional document "service" some
  return ⟨accessKeyId, secretAccessKey, sessionToken, region, service⟩

/-- The strings of a list. -/
def readStrings : Json → Option (List String)
  | .array items => items.mapM Json.asStr
  | _ => none

theorem readStrings_map (texts : List String) :
    readStrings (.array (texts.map .string)) = some texts := by
  induction texts with
  | nil => rfl
  | cons text texts ih =>
      simp only [readStrings] at ih
      simp [readStrings, List.mapM_cons, ih, Json.asStr]

/-- The strings of a text. -/
def egressFromStr (text : String) : Except String (List String) :=
  match (JsonText.parse (asBytes text)).bind readStrings with
  | none => .error "invalid type"
  | some texts => .ok texts

theorem egressFromStr_print (texts : List String) :
    egressFromStr (JsonText.print (.array (texts.map .string))) = .ok texts := by
  rw [egressFromStr, JsonText.parse_print_strings, Option.bind_some, readStrings_map]

end PlainSerde

/-- An account is its own text, and the rest is JSON. -/
@[reducible] def Serde.plain : Serde where
  AccountJson := ProviderAccount
  decidableEq := inferInstance
  accountToString account := account
  accountFromStr account := .ok account
  egressToString texts := JsonText.print (.array (texts.map .string))
  egressFromStr := PlainSerde.egressFromStr
  envelopeToString := PlainSerde.envelopeToString
  envelopeFromStr := PlainSerde.envelopeFromStr
  awsEnvelopeFromStr := PlainSerde.awsEnvelopeFromStr

theorem Serde.lawful_plain : @LawfulSerde Serde.plain :=
  @LawfulSerde.mk Serde.plain (fun _ => rfl) PlainSerde.egressFromStr_print

/-! ## All of them at once -/

namespace Plain

scoped instance : Codecs := Codecs.plain

scoped instance : Sealing := Sealing.clear

scoped instance : LawfulSealing := Sealing.lawful_clear

scoped instance : Digests := Digests.transparent

scoped instance : Argon2 := Argon2.transparent

scoped instance : Urls := Urls.plain

scoped instance : LawfulHttps := Urls.lawfulHttps_plain

scoped instance : Chrono := Chrono.plain

scoped instance : LawfulChrono := Chrono.lawful_plain

scoped instance : Serde := Serde.plain

scoped instance : LawfulSerde := Serde.lawful_plain

/-- The text of an envelope with a token and no more. -/
def tokenText (accessToken : String) : String :=
  "\x7b\"access_token\":\"" ++ accessToken ++ "\"\x7d"

/-- The text of an envelope whose token expires a minute into time. -/
def expiringText (accessToken : String) : String :=
  "\x7b\"access_token\":\"" ++ accessToken ++ "\",\"expires_at\":\"1970-01-01T00:01:00Z\"\x7d"

/-- The text of one that can also be refreshed. -/
def refreshableText (accessToken : String) : String :=
  "\x7b\"access_token\":\"" ++ accessToken ++ "\",\"expires_at\":\"1970-01-01T00:01:00Z\"," ++
    "\"refresh_token\":\"r\",\"token_endpoint\":\"https://claude.ai/\",\"client_id\":\"c\"\x7d"

/-- The envelope of that text. -/
def refreshable (accessToken : String) : OAuthCredentialEnvelope where
  accessToken := accessToken
  expiresAt := some (minutes 1)
  refreshToken := some "r"
  tokenEndpoint := some ⟨"https", "", none, some "claude.ai", none, "/", none, none⟩
  clientId := some "c"
  clientSecret := none
  scope := none

example : PlainSerde.envelopeFromStr (refreshableText "t") = .ok (refreshable "t") := by
  decide +kernel

example : PlainSerde.envelopeToString (refreshable "t") =
    "\x7b\"access_token\":\"t\",\"expires_at\":\"1970-01-01T00:01:00Z\"," ++
      "\"refresh_token\":\"r\",\"token_endpoint\":\"https://claude.ai/\",\"client_id\":\"c\"," ++
      "\"client_secret\":null,\"scope\":null\x7d" := by decide +kernel

/-- A key of zeros. -/
def box : Secrets.SecretBox := ⟨Vector.replicate 32 0⟩

/-- An account with nothing particular about it. -/
def account (id : String) (kind : ProviderKind) (enabled : Bool) : ProviderAccount where
  id := id
  label := id
  kind := kind
  baseUrl := ⟨"https", "", none, some "api.anthropic.com", none, "/", none, none⟩
  enabled := enabled
  modelMap := ∅
  egressProxies := []
  compatibleAuthHeader := none
  compatibleAuthPrefix := none

end Plain

end Llmap
