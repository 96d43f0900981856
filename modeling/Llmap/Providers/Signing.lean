import Llmap.Plain
import Llmap.Providers.Request
/-!
# The canonical URI

What `finalize_request_auth` signs as the path of a Bedrock invocation is
the path of its URL as it is, where the model is percent-encoded once.
AWS Signature Version 4 has each segment of the path that is sent encoded
again, for every service but S3. The two agree just in case there is
nothing to encode (`canonicalUri_iff`), so a request for a model with a
version behind a colon is signed wrongly (`versioned_model_missigned`).
-/

namespace Llmap

namespace Providers

/-- The path of a URL as it is sent. -/
def wirePath (url : Url) : String := if url.path = "" then "/" else url.path

/-- **The canonical URI as AWS Signature Version 4 prescribes it** for
every service but S3: each segment of the path that is sent is encoded. -/
def prescribedUri (url : Url) : String :=
  "/".intercalate ((splitChar '/' (wirePath url)).map fun segment => awsEncode (asBytes segment))

/-! ## What encoding leaves as it is -/

/-- What `aws_encode` makes of a character. -/
def awsEncodeChar (c : Char) : List Char := (awsEncode (String.utf8EncodeChar c)).toList

theorem toList_awsEncode_append (left right : Bytes) :
    (awsEncode (left ++ right)).toList = (awsEncode left).toList ++ (awsEncode right).toList := by
  simp [awsEncode]

/-- Text is encoded character by character. -/
theorem toList_awsEncode_asBytes (text : List Char) :
    (awsEncode (asBytes (String.ofList text))).toList = text.flatMap awsEncodeChar := by
  rw [asBytes_ofList]
  induction text with
  | nil => rfl
  | cons c text ih =>
      rw [List.flatMap_cons, toList_awsEncode_append, ih, List.flatMap_cons]
      rfl

theorem toList_awsEncode_singleton (byte : UInt8) :
    (awsEncode [byte]).toList =
      if unreserved (Char.ofNat byte.toNat) then [Char.ofNat byte.toNat]
      else '%' :: (hexByte byte).map Char.toUpper := by
  simp [awsEncode, unreserved]

theorem length_awsEncode (bytes : Bytes) : bytes.length ≤ (awsEncode bytes).toList.length := by
  induction bytes with
  | nil => exact Nat.zero_le _
  | cons byte bytes ih =>
      have hsplit := toList_awsEncode_append [byte] bytes
      rw [List.singleton_append] at hsplit
      have hone : 1 ≤ (awsEncode [byte]).toList.length := by
        rw [toList_awsEncode_singleton]
        split
        · exact le_rfl
        · simp
      rw [hsplit, List.length_append, List.length_cons]
      omega

/-- An ASCII character is one byte; any other is several. -/
theorem utf8EncodeChar_cases (c : Char) :
    c.toNat < 128 ∧ String.utf8EncodeChar c = [UInt8.ofNat c.toNat] ∨
      128 ≤ c.toNat ∧ 2 ≤ (String.utf8EncodeChar c).length := by
  unfold String.utf8EncodeChar
  by_cases hascii : c.val.toNat ≤ 127
  · refine .inl ⟨Nat.lt_succ_of_le hascii, ?_⟩
    simp only [if_pos hascii]
    rfl
  · refine .inr ⟨by change 128 ≤ c.val.toNat; omega, ?_⟩
    simp only [if_neg hascii]
    split
    · exact le_rfl
    · split
      · simp
      · simp

theorem lt_of_unreserved {c : Char} (h : unreserved c = true) : c.toNat < 128 := by
  simp only [unreserved, isAsciiAlphanumeric, Char.isAlphanum, Char.isAlpha, Char.isUpper,
    Char.isLower, Char.isDigit, Bool.or_eq_true, decide_eq_true_eq, Bool.and_eq_true,
    UInt32.le_iff_toNat_le] at h
  change c.val.toNat < 128
  rcases h with ((((((hupper | hlower) | hdigit) | rfl) | rfl) | rfl) | rfl)
  · exact hupper.2.trans_lt (by decide)
  · exact hlower.2.trans_lt (by decide)
  · exact hdigit.2.trans_lt (by decide)
  · decide
  · decide
  · decide
  · decide

/-- **A character stays just in case it is unreserved.** -/
theorem awsEncodeChar_eq_singleton_iff (c : Char) :
    awsEncodeChar c = [c] ↔ unreserved c = true := by
  rcases utf8EncodeChar_cases c with ⟨hascii, hbytes⟩ | ⟨hlarge, hbytes⟩
  · have hbyte : Char.ofNat (UInt8.ofNat c.toNat).toNat = c := by
      rw [UInt8.toNat_ofNat', Nat.mod_eq_of_lt (by omega), Char.ofNat_toNat]
    rw [awsEncodeChar, hbytes, toList_awsEncode_singleton, hbyte]
    split
    · rename_i h
      exact iff_of_true rfl h
    · rename_i h
      exact iff_of_false (by simp [hexByte]) h
  · have hlength := length_awsEncode (String.utf8EncodeChar c)
    refine iff_of_false ?_ fun h => ?_
    · intro hsame
      have hone := congrArg List.length hsame
      rw [awsEncodeChar, List.length_singleton] at hone
      omega
    · have hsmall := lt_of_unreserved h
      omega

theorem awsEncodeChar_ne_nil (c : Char) : awsEncodeChar c ≠ [] := by
  intro hnil
  have hlength := length_awsEncode (String.utf8EncodeChar c)
  have hzero := congrArg List.length hnil
  rw [awsEncodeChar, List.length_nil] at hzero
  rcases utf8EncodeChar_cases c with ⟨-, hbytes⟩ | ⟨-, hbytes⟩
  · rw [hbytes] at hlength hzero
    rw [List.length_singleton] at hlength
    omega
  · omega

/-- A text that is written character by character, none of them away, is
left as it is just in case each of its characters is. -/
theorem flatMap_eq_self_iff {α : Type} {f : α → List α} (hf : ∀ a, f a ≠ []) (l : List α) :
    l.flatMap f = l ↔ ∀ a ∈ l, f a = [a] := by
  have hlength : ∀ l : List α, l.length ≤ (l.flatMap f).length := by
    intro l
    induction l with
    | nil => exact le_rfl
    | cons a l ih =>
        have hpos := List.length_pos_of_ne_nil (hf a)
        rw [List.flatMap_cons, List.length_append, List.length_cons]
        omega
  constructor
  · intro hsame
    induction l with
    | nil => simp
    | cons a l ih =>
        rw [List.flatMap_cons] at hsame
        obtain ⟨b, rest, hab⟩ := List.exists_cons_of_ne_nil (hf a)
        rw [hab, List.cons_append, List.cons.injEq] at hsame
        obtain ⟨rfl, hrest⟩ := hsame
        have hnil : rest = [] := by
          have htotal := congrArg List.length hrest
          have hless := hlength l
          rw [List.length_append] at htotal
          exact List.length_eq_zero_iff.mp (by omega)
        rw [hnil, List.nil_append] at hrest
        rw [hnil] at hab
        exact List.forall_mem_cons.mpr ⟨hab, ih hrest⟩
  · intro hall
    induction l with
    | nil => rfl
    | cons a l ih =>
        rw [List.flatMap_cons, hall a (List.mem_cons_self ..),
          ih fun b hb => hall b (List.mem_cons_of_mem a hb)]
        rfl

/-- Encoding between separators is encoding all but the separators. -/
theorem intercalate_map_flatMap {α : Type} [DecidableEq α] (f : α → List α) (x : α) (l : List α) :
    [x].intercalate ((l.splitOn x).map fun part => part.flatMap f) =
      l.flatMap fun a => if a = x then [x] else f a := by
  induction l with
  | nil => simp [List.intercalate]
  | cons a l ih =>
      obtain ⟨first, rest, hparts⟩ := List.exists_cons_of_ne_nil (List.splitOn_ne_nil x l)
      rw [List.flatMap_cons, ← ih, List.splitOn, List.splitOnP_cons_eq_if_modifyHead,
        ← List.splitOn, hparts]
      by_cases hax : a = x
      · simp [hax, List.intercalate_cons_cons]
      · cases rest <;> simp [hax, List.intercalate_cons_cons, List.modifyHead]

/-- **When the two agree on a path**: there is nothing in it to encode. -/
theorem canonicalPath_eq_prescribedUri_iff (url : Url) :
    canonicalPath url = prescribedUri url ↔
      ∀ c ∈ (wirePath url).toList, c = '/' ∨ unreserved c = true := by
  have hprescribed : (prescribedUri url).toList =
      (wirePath url).toList.flatMap fun c => if c = '/' then ['/'] else awsEncodeChar c := by
    rw [← intercalate_map_flatMap, prescribedUri, String.toList_intercalate, splitChar,
      List.map_map, List.map_map]
    congr 1
    refine List.map_congr_left fun part _ => ?_
    exact toList_awsEncode_asBytes part
  have hsigned : canonicalPath url = wirePath url := rfl
  rw [hsigned, ← String.toList_inj, hprescribed, eq_comm, flatMap_eq_self_iff]
  · refine forall_congr' fun c => imp_congr_right fun _ => ?_
    by_cases hc : c = '/'
    · simp [hc]
    · simp [hc, awsEncodeChar_eq_singleton_iff]
  · intro c
    split
    · simp
    · exact awsEncodeChar_ne_nil c

/-! ## The path of an invocation -/

section Invoke

variable [Urls]

/-- The last segment of an invocation. -/
def invokeSegment (stream : Bool) : String :=
  if stream then "invoke-with-response-stream" else "invoke"

theorem bedrockInvokeUrl_eq_ok {base : Url} {model : String} {stream : Bool} {url : Url}
    (h : bedrockInvokeUrl base model stream = .ok url) :
    Urls.withSegments { base with query := none, fragment := none }
      ["model", model, invokeSegment stream] = some url := by
  unfold bedrockInvokeUrl at h
  split at h
  · cases h
  · split at h
    · cases h
    · rename_i url' hurl
      obtain rfl := Except.ok.inj h
      exact hurl

omit [Urls] in
/-- What comes before the model and after it has nothing to encode. -/
theorem unreserved_fixed {segment : String} (stream : Bool)
    (h : segment = "model" ∨ segment = invokeSegment stream) :
    (∀ c ∈ segment.toList, unreserved c = true) ∧ ¬ IsDotSegment segment := by
  rw [← List.all_eq_true]
  cases stream <;> rcases h with rfl | rfl <;> decide +kernel

omit [Urls] in
/-- A dot segment has nothing to encode. -/
theorem unreserved_of_isDotSegment {segment : String} (h : IsDotSegment segment) {c : Char}
    (hc : c ∈ segment.toList) : isTabOrNewline c = true ∨ unreserved c = true := by
  by_cases htab : isTabOrNewline c = true
  · exact .inl htab
  · have hkept : c ∈ segment.toList.filter fun c => !isTabOrNewline c :=
      List.mem_filter.mpr ⟨hc, by simpa using htab⟩
    refine .inr ?_
    rcases h with hdot | hdots
    · rw [hdot] at hkept
      rw [List.mem_singleton.mp hkept]
      rfl
    · rw [hdots] at hkept
      obtain rfl : c = '.' := by simpa using hkept
      rfl

variable [LawfulUrls] {base : Url} {model : String} {stream : Bool} {url : Url}

/-- What the path of an invocation is made of, and in what way: that of
no model but a dot segment is its segments, joined. -/
theorem path_bedrockInvokeUrl (hscheme : base.scheme ≠ "file")
    (h : bedrockInvokeUrl base model stream = .ok url) :
    ∃ encode, SegmentEncoding encode ∧
      (¬ IsDotSegment model → ∀ c ∈ model.toList, ∀ d ∈ encode c, d ∈ (wirePath url).toList) ∧
      ∀ c ∈ (wirePath url).toList, c = '/' ∨ unreserved c = true ∨
        ∃ d ∈ model.toList, c ∈ encode d := by
  obtain ⟨encode, hencode, hpath, honly⟩ := LawfulUrls.path_withSegments
    (by exact hscheme) (by decide +kernel) (bedrockInvokeUrl_eq_ok h)
  refine ⟨encode, hencode, ?_, ?_⟩
  · intro hmodel c hc d hd
    have hdots : ∀ segment ∈ ["model", model, invokeSegment stream], ¬ IsDotSegment segment := by
      simp only [List.forall_mem_cons, List.not_mem_nil, false_imp_iff, implies_true, and_true]
      exact ⟨(unreserved_fixed stream (.inl rfl)).2, hmodel, (unreserved_fixed stream (.inr rfl)).2⟩
    have hne : url.path ≠ "" := by
      intro hempty
      have hcons := hpath hdots
      rw [hempty] at hcons
      cases hcons
    rw [wirePath, if_neg hne, hpath hdots]
    simp only [List.map_cons, List.map_nil, List.intercalate_cons_cons,
      List.intercalate_singleton, List.mem_cons, List.mem_append, List.mem_flatMap]
    exact .inr (.inr (.inl (.inl ⟨c, hc, hd⟩)))
  · intro c hc
    have hwire : c = '/' ∨ c ∈ url.path.toList := by
      unfold wirePath at hc
      split at hc
      · exact .inl (by simpa using hc)
      · exact .inr hc
    rcases hwire with hslash | hmem
    · exact .inl hslash
    rcases honly c hmem with hslash | rfl | ⟨segment, hsegment, d, hd, hcd⟩
    · exact .inl hslash
    · exact .inr (.inl rfl)
    · simp only [List.mem_cons, List.not_mem_nil, or_false] at hsegment
      refine .inr ?_
      rcases hsegment with hfixed | rfl | hfixed
      · have hunreserved := (unreserved_fixed stream (.inl hfixed)).1 d hd
        rw [hencode.unreserved d hunreserved, List.mem_singleton] at hcd
        exact .inl (hcd ▸ hunreserved)
      · exact .inr ⟨d, hd, hcd⟩
      · have hunreserved := (unreserved_fixed stream (.inr hfixed)).1 d hd
        rw [hencode.unreserved d hunreserved, List.mem_singleton] at hcd
        exact .inl (hcd ▸ hunreserved)

omit [Urls] [LawfulUrls] in
/-- **What leaves nothing to encode**: of what a character is written as,
all is unreserved just in case it is itself, or is taken out. -/
theorem clean_segment_iff {encode : Char → List Char} (hencode : SegmentEncoding encode)
    (c : Char) :
    (∀ d ∈ encode c, d = '/' ∨ unreserved d = true) ↔
      isTabOrNewline c = true ∨ unreserved c = true := by
  constructor
  · intro hclean
    have hno_percent : '%' ∉ encode c := by
      intro hpercent
      rcases hclean '%' hpercent with hslash | hunreserved
      · exact absurd hslash (by decide)
      · exact absurd hunreserved (by decide)
    rcases hencode.encoded c with hnil | hkept | hpercent
    · exact .inl ((hencode.removed c).mp hnil)
    · rcases hclean c (by rw [hkept]; exact List.mem_singleton.mpr rfl) with rfl | hunreserved
      · exact absurd hencode.slash hno_percent
      · exact .inr hunreserved
    · exact absurd hpercent hno_percent
  · rintro (htab | hunreserved) d hd
    · rw [(hencode.removed c).mpr htab] at hd
      cases hd
    · rw [hencode.unreserved c hunreserved, List.mem_singleton] at hd
      exact .inr (hd ▸ hunreserved)

/-- **When an invocation is signed as AWS prescribes.** The canonical URI
that is signed for the URL of an invocation is the prescribed one just in
case every character of the model is unreserved, but for tabs and line
breaks, which are taken out of a URL. -/
theorem canonicalUri_iff (base : Url) (model : String) (stream : Bool) (url : Url)
    (hscheme : base.scheme ≠ "file") (h : bedrockInvokeUrl base model stream = .ok url) :
    canonicalPath url = prescribedUri url ↔
      ∀ c ∈ model.toList, isTabOrNewline c = true ∨ unreserved c = true := by
  obtain ⟨encode, hencode, hinside, honly⟩ := path_bedrockInvokeUrl hscheme h
  rw [canonicalPath_eq_prescribedUri_iff]
  constructor
  · intro hclean c hc
    by_cases hdot : IsDotSegment model
    · exact unreserved_of_isDotSegment hdot hc
    · exact (clean_segment_iff hencode c).mp fun d hd => hclean d (hinside hdot c hc d hd)
  · intro hmodel c hc
    rcases honly c hc with hslash | hunreserved | ⟨d, hd, hcd⟩
    · exact .inl hslash
    · exact .inr hunreserved
    · exact (clean_segment_iff hencode d).mpr (hmodel d hd) c hcd

end Invoke

/-! ## Two models -/

/-- The address of Bedrock in a region. -/
def regionUrl : Url :=
  ⟨"https", "", none, some "bedrock-runtime.us-east-1.amazonaws.com", none, "/", none, none⟩

/-- A model without a version is signed as AWS prescribes. -/
theorem plain_model_signed :
    let := Urls.plain
    bedrockInvokeUrl regionUrl "anthropic.claude-v2" true =
        .ok { regionUrl with path := "/model/anthropic.claude-v2/invoke-with-response-stream" } ∧
      canonicalPath
          { regionUrl with path := "/model/anthropic.claude-v2/invoke-with-response-stream" } =
        prescribedUri
          { regionUrl with path := "/model/anthropic.claude-v2/invoke-with-response-stream" } := by
  let := Urls.plain
  have := Urls.lawful_plain
  have hurl : bedrockInvokeUrl regionUrl "anthropic.claude-v2" true =
      .ok { regionUrl with path := "/model/anthropic.claude-v2/invoke-with-response-stream" } := by
    decide +kernel
  have hclean : "anthropic.claude-v2".toList.all unreserved = true := by decide +kernel
  refine ⟨hurl, (canonicalUri_iff regionUrl _ true _ (by decide) hurl).mpr ?_⟩
  intro c hc
  exact .inr (List.all_eq_true.mp hclean c hc)

/-- **A model with a version is not signed as AWS prescribes**: the colon
is sent as it is, and signed as it is, where it is to be signed encoded. -/
theorem versioned_model_missigned :
    let := Urls.plain
    ∃ url, bedrockInvokeUrl regionUrl "anthropic.claude-v1:0" false = .ok url ∧
      wirePath url = "/model/anthropic.claude-v1:0/invoke" ∧
      canonicalPath url = "/model/anthropic.claude-v1:0/invoke" ∧
      prescribedUri url = "/model/anthropic.claude-v1%3A0/invoke" := by
  refine ⟨{ regionUrl with path := "/model/anthropic.claude-v1:0/invoke" }, ?_⟩
  decide +kernel

end Providers

end Llmap
