import Llmap.Common.Http
import Llmap.Providers.Canonical
import Llmap.Sessions.Table
/-!
# The session cookie

A login answers with a cookie that holds the session's token, a browser
sends it back among its other cookies, and `cookie_value` of `http_app.rs`
takes the token out of them. A cookie is a name and a value without white
space and semicolons (`Cookie`), and a browser joins them with a semicolon
and a blank.
-/

namespace Llmap

namespace Sessions

/-- `ADMIN_SESSION_COOKIE`. -/
def adminSessionCookie : String := "llmap_admin_session"

/-- `SessionGrant::cookie`. -/
def SessionGrant.cookie (grant : SessionGrant) (secure : Bool) : String :=
  let secureAttribute := if secure then "; Secure" else ""
  adminSessionCookie ++ "=" ++ grant.token ++ "; Path=/admin; Max-Age=" ++
    toString grant.maxAgeSeconds ++ "; HttpOnly; SameSite=Strict" ++ secureAttribute

end Sessions

namespace Service

open Sessions Providers

/-- `cookie_value`. -/
def cookieValue (headers : HeaderMap) (name : String) : Option String :=
  ((headers.get "cookie").bind HeaderMap.toStr).bind fun text =>
    ((splitChar ';' text).filterMap fun part => splitOnce '=' (trim part)).findSome?
      fun (cookieName, value) => if cookieName = name then some value else none

/-- `HeaderValue::from_str`: the bytes of a text that is visible ASCII,
blanks and tabs. -/
def headerValue (text : String) : Option Bytes :=
  if (asBytes text).all fun byte => (32 ≤ byte && byte < 127) || byte = 9 then some (asBytes text)
  else none

/-! ## What a browser sends -/

/-- A character of a cookie: visible, and no semicolon. -/
def cookieChar (c : Char) : Bool := 33 ≤ c.toNat && c.toNat < 127 && c ≠ ';'

/-- **A cookie** as a browser holds it. -/
structure Cookie where
  name : String
  value : String
  name_chars : name.toList.all cookieChar = true
  value_chars : value.toList.all cookieChar = true
  name_ends : '=' ∉ name.toList

namespace Cookie

/-- A name and its value. -/
def text (cookie : Cookie) : String := cookie.name ++ "=" ++ cookie.value

/-- The cookie that comes first under a name. -/
def lookup (cookies : List Cookie) (name : String) : Option String :=
  (cookies.find? fun cookie => cookie.name = name).map Cookie.value

/-- The `Cookie` header a browser sends. -/
def header (cookies : List Cookie) : String := "; ".intercalate (cookies.map text)

/-- What a browser makes of a `Set-Cookie` header: the name and the value
before the first semicolon. -/
def received (setCookie : String) : Option (String × String) :=
  splitOnce '=' (splitFirst ';' setCookie)

variable (cookie : Cookie)

theorem text_chars : cookie.text.toList.all cookieChar = true := by
  have hequals : cookieChar '=' = true := by decide
  simp only [text, String.toList_append, List.all_append, cookie.name_chars, cookie.value_chars,
    Bool.and_true, Bool.true_and]
  simp [hequals]

end Cookie

theorem not_isWhitespace_of_cookieChar {c : Char} (h : cookieChar c = true) :
    isWhitespace c = false := by
  simp only [cookieChar, Bool.and_eq_true, decide_eq_true_eq] at h
  obtain ⟨⟨hlow, hhigh⟩, -⟩ := h
  simp only [isWhitespace, Bool.or_eq_false_iff, Bool.and_eq_false_iff, decide_eq_false_iff_not]
  omega

/-- A text without white space is itself when it is trimmed, also with a
blank before it. -/
theorem trim_of_cookieChars {text : String} (h : text.toList.all cookieChar = true) :
    trim text = text ∧ trim (" " ++ text) = text := by
  have hnone : ∀ c ∈ text.toList, isWhitespace c = false := fun c hc =>
    not_isWhitespace_of_cookieChar (List.all_eq_true.mp h c hc)
  have hdrop : ∀ chars : List Char, (∀ c ∈ chars, isWhitespace c = false) →
      chars.dropWhile isWhitespace = chars := by
    intro chars hchars
    cases chars with
    | nil => rfl
    | cons c rest => simp [hchars c List.mem_cons_self]
  have htrim : trim text = text := by
    rw [trim, hdrop _ hnone, hdrop _ (by simpa using hnone), List.reverse_reverse,
      String.ofList_toList]
  refine ⟨htrim, ?_⟩
  have hblank : isWhitespace ' ' = true := by decide
  have hstart : (" " ++ text).toList.dropWhile isWhitespace =
      text.toList.dropWhile isWhitespace := by
    rw [String.toList_append]
    exact List.dropWhile_cons_of_pos hblank
  rw [trim, hstart]
  exact htrim

/-- What is joined with a semicolon and a blank comes apart at the
semicolons. -/
theorem splitChar_intercalate {first : String} {rest : List String}
    (h : ∀ piece ∈ first :: rest, ';' ∉ piece.toList) :
    splitChar ';' ("; ".intercalate (first :: rest)) = first :: rest.map (" " ++ ·) := by
  have hsemicolon : "; " = ";" ++ " " := rfl
  have hblank : ∀ (piece : String) (rest : List String), ";".intercalate ((" " ++ piece) :: rest) =
      " " ++ ";".intercalate (piece :: rest) := by
    intro piece rest
    cases rest with
    | nil => simp
    | cons second rest => simp only [String.intercalate_cons_cons, String.append_assoc]
  have hjoin : ∀ (first : String) (rest : List String), "; ".intercalate (first :: rest) =
      ";".intercalate (first :: rest.map (" " ++ ·)) := by
    intro first rest
    induction rest generalizing first with
    | nil => simp
    | cons second rest ih =>
        rw [List.map_cons, String.intercalate_cons_cons, String.intercalate_cons_cons, ih, hblank,
          hsemicolon]
        simp only [String.append_assoc]
  have hfree : ∀ piece ∈ first :: rest.map (" " ++ ·), ';' ∉ piece.toList := by
    intro piece hpiece
    rcases List.mem_cons.mp hpiece with rfl | hpiece
    · exact h _ List.mem_cons_self
    · obtain ⟨later, hlater, rfl⟩ := List.mem_map.mp hpiece
      have hnot := h later (List.mem_cons_of_mem _ hlater)
      simpa using hnot
  have hsplit : (";".intercalate (first :: rest.map (" " ++ ·))).toList.splitOn ';' =
      (first :: rest.map (" " ++ ·)).map String.toList := by
    rw [String.toList_intercalate]
    refine List.splitOn_intercalate ';' (fun piece hpiece => ?_) (by simp)
    obtain ⟨later, hlater, rfl⟩ := List.mem_map.mp hpiece
    exact hfree later hlater
  rw [splitChar, hjoin, hsplit, List.map_map]
  simp [Function.comp_def]

/-- Visible text, with blanks. -/
def Visible (text : String) : Prop := ∀ c ∈ text.toList, 32 ≤ c.toNat ∧ c.toNat < 127

instance (text : String) : Decidable (Visible text) :=
  List.decidableBAll (fun c : Char => 32 ≤ c.toNat ∧ c.toNat < 127) text.toList

theorem Visible.append {left right : String} (hleft : Visible left) (hright : Visible right) :
    Visible (left ++ right) := by
  intro c hc
  rw [String.toList_append, List.mem_append] at hc
  exact hc.elim (hleft c) (hright c)

theorem Visible.of_cookieChars {text : String} (h : text.toList.all cookieChar = true) :
    Visible text := by
  intro c hc
  have hchar := List.all_eq_true.mp h c hc
  simp only [cookieChar, Bool.and_eq_true, decide_eq_true_eq] at hchar
  exact ⟨by omega, hchar.1.2⟩

theorem Visible.digits (n : ℕ) : Visible n.repr := by
  intro c hc
  rw [Nat.toList_repr] at hc
  have hdigit : c.isDigit = true := Nat.isDigit_of_mem_toDigits (by omega) (by omega) hc
  have hcode : 48 ≤ c.toNat ∧ c.toNat ≤ 57 := by
    simpa [Char.isDigit, UInt32.le_iff_toNat_le] using hdigit
  omega

theorem Visible.toString (n : Int) : Visible (toString n) := by
  cases n with
  | ofNat n => exact digits n
  | negSucc n => exact Visible.append (by decide +kernel) (digits (n + 1))

/-- Each character of visible text is one byte, its own. -/
theorem Visible.asBytes_eq {text : String} (h : Visible text) :
    asBytes text = text.toList.map fun c => UInt8.ofNat c.toNat := by
  have hbytes : ∀ chars : List Char, (∀ c ∈ chars, 32 ≤ c.toNat ∧ c.toNat < 127) →
      chars.flatMap String.utf8EncodeChar = chars.map fun c => UInt8.ofNat c.toNat := by
    intro chars hchars
    induction chars with
    | nil => rfl
    | cons c rest ih =>
        have hc := hchars c List.mem_cons_self
        rcases utf8EncodeChar_cases c with ⟨-, hone⟩ | ⟨hlarge, -⟩
        · rw [List.flatMap_cons, hone, ih fun d hd => hchars d (List.mem_cons_of_mem _ hd)]
          rfl
        · omega
  rw [← hbytes _ h, ← asBytes_ofList, String.ofList_toList]

theorem Visible.toNat_ofNat {text : String} (h : Visible text) {c : Char} (hc : c ∈ text.toList) :
    (UInt8.ofNat c.toNat).toNat = c.toNat := by
  have hcode := h c hc
  rw [UInt8.toNat_ofNat']
  exact Nat.mod_eq_of_lt (by omega)

theorem Visible.all {text : String} (h : Visible text) :
    (asBytes text).all (fun byte => (32 ≤ byte && byte < 127) || byte = 9) = true := by
  rw [h.asBytes_eq, List.all_map, List.all_eq_true]
  intro c hc
  have hbyte := h.toNat_ofNat hc
  simp only [Function.comp_apply, Bool.or_eq_true, Bool.and_eq_true, decide_eq_true_eq,
    UInt8.le_iff_toNat_le, UInt8.lt_iff_toNat_lt, hbyte]
  exact .inl (h c hc)

/-- A header of visible text is read as it was written. -/
theorem Visible.toStr {text : String} (h : Visible text) :
    HeaderMap.toStr (asBytes text) = some text := by
  rw [HeaderMap.toStr, if_pos h.all, h.asBytes_eq, List.map_map]
  have hchars : text.toList.map ((fun byte : UInt8 => Char.ofNat byte.toNat) ∘
      fun c => UInt8.ofNat c.toNat) = text.toList := by
    conv_rhs => rw [← List.map_id text.toList]
    refine List.map_congr_left fun c hc => ?_
    simp only [Function.comp_apply, h.toNat_ofNat hc, Char.ofNat_toNat, id_eq]
  rw [hchars, String.ofList_toList]

/-! ## Back and forth -/

theorem semicolon_notMem_of_cookieChars {text : String} (h : text.toList.all cookieChar = true) :
    ';' ∉ text.toList := by
  intro hmem
  have hchar := List.all_eq_true.mp h ';' hmem
  exact absurd hchar (by decide)

/-- What is found in the pieces of a header is what is found in the cookies
they are of. -/
theorem findSome?_pieces {cookies : List Cookie} {pieces : List String} (name : String)
    (h : List.Forall₂ (fun piece cookie => trim piece = Cookie.text cookie) pieces cookies) :
    (pieces.filterMap fun part => splitOnce '=' (trim part)).findSome?
        (fun (cookieName, value) => if cookieName = name then some value else none) =
      Cookie.lookup cookies name := by
  induction h with
  | nil => rfl
  | @cons piece cookie pieces cookies htrim _ ih =>
      have hsplit : splitOnce '=' (trim piece) = some (cookie.name, cookie.value) := by
        rw [htrim]
        exact splitOnce_append cookie.value cookie.name_ends
      simp only [List.filterMap_cons, hsplit, List.findSome?_cons]
      unfold Cookie.lookup at ih ⊢
      rw [List.find?_cons]
      by_cases hname : cookie.name = name
      · simp [hname]
      · simp only [hname, if_false, decide_false]
        exact ih

/-- **A header of cookies is read back**: under each name, the value of the
first cookie of that name. -/
theorem cookieValue_header (cookies : List Cookie) (name : String) (others : HeaderMap) :
    cookieValue (("cookie", asBytes (Cookie.header cookies)) :: others) name =
      Cookie.lookup cookies name := by
  have hvisible : Visible (Cookie.header cookies) := by
    intro c hc
    by_contra hnot
    refine notMem_intercalate (c := c) ?_ (fun piece hpiece hmem => ?_) hc
    · rintro hsep
      have hblank : Visible "; " := by decide +kernel
      exact hnot (hblank c hsep)
    · obtain ⟨cookie, -, rfl⟩ := List.mem_map.mp hpiece
      exact hnot (Visible.of_cookieChars cookie.text_chars c hmem)
  have hget : HeaderMap.get (("cookie", asBytes (Cookie.header cookies)) :: others) "cookie" =
      some (asBytes (Cookie.header cookies)) := by
    simp [HeaderMap.get]
  simp only [cookieValue, hget, Option.bind_some, hvisible.toStr]
  cases cookies with
  | nil => rfl
  | cons first rest =>
      have hfree : ∀ piece ∈ first.text :: rest.map Cookie.text, ';' ∉ piece.toList := by
        intro piece hpiece
        rw [← List.map_cons] at hpiece
        obtain ⟨cookie, -, rfl⟩ := List.mem_map.mp hpiece
        exact semicolon_notMem_of_cookieChars cookie.text_chars
      rw [Cookie.header, List.map_cons, splitChar_intercalate hfree, List.map_map]
      refine findSome?_pieces name (.cons (trim_of_cookieChars first.text_chars).1 ?_)
      rw [List.forall₂_map_left_iff]
      exact List.forall₂_same.mpr fun cookie _ => (trim_of_cookieChars cookie.text_chars).2

/-! ## What a login answers with -/

/-- **The URL-safe alphabet** of base64: letters, digits, hyphens and
underscores. -/
class UrlSafe [Sealing] : Prop where
  base64Url_chars : ∀ bytes, ∀ c ∈ (Sealing.base64UrlEncode bytes).toList,
    isAsciiAlphanumeric c = true ∨ c = '-' ∨ c = '_'

theorem cookieChar_of_urlSafe {c : Char}
    (h : isAsciiAlphanumeric c = true ∨ c = '-' ∨ c = '_') : cookieChar c = true := by
  rcases h with halphanumeric | rfl | rfl
  · simp only [isAsciiAlphanumeric, Char.isAlphanum, Char.isAlpha, Char.isUpper, Char.isLower,
      Char.isDigit, Bool.or_eq_true, Bool.and_eq_true, decide_eq_true_eq, UInt32.le_iff_toNat_le]
      at halphanumeric
    have hcodes : ((65 ≤ c.toNat ∧ c.toNat ≤ 90) ∨ 97 ≤ c.toNat ∧ c.toNat ≤ 122) ∨
        48 ≤ c.toNat ∧ c.toNat ≤ 57 := halphanumeric
    have hsemicolon : c ≠ ';' := by
      rintro rfl
      revert halphanumeric
      decide
    simp only [cookieChar, Bool.and_eq_true, decide_eq_true_eq]
    exact ⟨⟨by omega, by omega⟩, hsemicolon⟩
  · decide
  · decide

/-- The cookie of a token that was drawn. -/
def sessionCookie [Sealing] [UrlSafe] (token : TokenBytes) : Cookie where
  name := adminSessionCookie
  value := randomToken token
  name_chars := by decide
  value_chars := List.all_eq_true.mpr fun c hc =>
    cookieChar_of_urlSafe (UrlSafe.base64Url_chars token.toList c hc)
  name_ends := by decide

/-- What a browser makes of the cookie of a grant. -/
theorem received_cookie [Sealing] [UrlSafe] {grant : SessionGrant} {token : TokenBytes}
    (htoken : grant.token = randomToken token) (secure : Bool) :
    Cookie.received (grant.cookie secure) = some (adminSessionCookie, grant.token) := by
  have hfree := semicolon_notMem_of_cookieChars (sessionCookie token).text_chars
  have htext : (sessionCookie token).text = adminSessionCookie ++ "=" ++ grant.token := by
    rw [htoken]
    rfl
  obtain ⟨attributes, hcookie⟩ : ∃ attributes,
      grant.cookie secure = (sessionCookie token).text ++ ";" ++ attributes := by
    refine ⟨" Path=/admin; Max-Age=" ++ toString grant.maxAgeSeconds ++
      "; HttpOnly; SameSite=Strict" ++ if secure then "; Secure" else "", ?_⟩
    have hpath : "; Path=/admin; Max-Age=" = ";" ++ " Path=/admin; Max-Age=" := rfl
    rw [htext, SessionGrant.cookie, hpath]
    simp only [String.append_assoc]
  have hfirst : splitFirst ';' (grant.cookie secure) = (sessionCookie token).text := by
    have hchars : ∀ c ∈ (sessionCookie token).text.toList, decide (c ≠ ';') = true := by
      intro c hc
      exact decide_eq_true fun heq => hfree (heq ▸ hc)
    have hstop : (";" ++ attributes).toList.takeWhile (· ≠ ';') = [] := by
      simp
    rw [splitFirst, hcookie, String.append_assoc, String.toList_append,
      List.takeWhile_append_of_pos hchars, hstop, List.append_nil, String.ofList_toList]
  rw [Cookie.received, hfirst, htext]
  exact splitOnce_append grant.token (sessionCookie token).name_ends

/-- The cookie of a grant can be put in a header. -/
theorem visible_cookie [Sealing] [UrlSafe] {grant : SessionGrant} {token : TokenBytes}
    (htoken : grant.token = randomToken token) (secure : Bool) : Visible (grant.cookie secure) := by
  have hvalue : Visible grant.token := htoken ▸ .of_cookieChars (sessionCookie token).value_chars
  have hsecure : Visible (if secure then "; Secure" else "") := by
    cases secure <;> decide +kernel
  have hname : Visible (adminSessionCookie ++ "=") := by decide +kernel
  have hpath : Visible "; Path=/admin; Max-Age=" := by decide +kernel
  have hstrict : Visible "; HttpOnly; SameSite=Strict" := by decide +kernel
  exact ((((hname.append hvalue).append hpath).append (.toString _)).append hstrict).append hsecure

section Theme

open scoped Plain

/-- The bytes that hexadecimal digits stand for. -/
def unhex : List Char → Bytes
  | high :: low :: rest => UInt8.ofNat (16 * digit high + digit low) :: unhex rest
  | _ => []
where
  digit (c : Char) : ℕ := if c.toNat < 58 then c.toNat - 48 else c.toNat - 87

theorem unhex_hex (bytes : Bytes) : unhex (hex bytes).toList = bytes := by
  have hdigit : ∀ n < 16, unhex.digit (Nat.digitChar n) = n := by decide
  rw [hex, String.toList_ofList]
  induction bytes with
  | nil => rfl
  | cons byte bytes ih =>
      have hlt := byte.toNat_lt
      have hbyte : 16 * (byte.toNat / 16) + byte.toNat % 16 = byte.toNat := by omega
      rw [List.flatMap_cons]
      simp only [hexByte, List.cons_append, List.nil_append, unhex, ih]
      rw [hdigit _ (by omega), hdigit _ (Nat.mod_lt _ (by decide)), hbyte, UInt8.ofNat_toNat]

/-- A digit is a letter or a figure. -/
theorem isAsciiAlphanumeric_of_hex {bytes : Bytes} {c : Char} (h : c ∈ (hex bytes).toList) :
    isAsciiAlphanumeric c = true := by
  have hdigit : ∀ n < 16, isAsciiAlphanumeric (Nat.digitChar n) = true := by decide
  rw [hex, String.toList_ofList, List.mem_flatMap] at h
  obtain ⟨byte, -, hc⟩ := h
  have hbyte := byte.toNat_lt
  simp only [hexByte, List.mem_cons, List.not_mem_nil, or_false] at hc
  rcases hc with rfl | rfl
  · exact hdigit _ (by omega)
  · exact hdigit _ (Nat.mod_lt _ (by decide))

/-- Sealing that hides nothing and writes bytes in hexadecimal digits. -/
@[reducible] def hexadecimal : Sealing :=
  { Sealing.clear with
    base64UrlEncode := hex
    base64UrlDecode := fun text => some (unhex text.toList) }

theorem lawful_hexadecimal : @LawfulSealing hexadecimal := by
  refine @LawfulSealing.mk hexadecimal ?_ ?_ ?_
  · intro key nonce associated message sealed h
    exact h.symm
  · exact fun bytes => congrArg some (unhex_hex bytes)
  · intro bytes hdot
    exact absurd (isAsciiAlphanumeric_of_hex hdot) (by decide)

theorem urlSafe_hexadecimal : @UrlSafe hexadecimal :=
  @UrlSafe.mk hexadecimal fun _ _ hc => .inl (isAsciiAlphanumeric_of_hex hc)

/-- A cookie of the browser's own. -/
def theme : Cookie := ⟨"theme", "dark", by decide, by decide, by decide⟩

end Theme

end Service

end Llmap
