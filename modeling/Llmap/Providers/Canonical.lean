import Llmap.Common.PrefixCode
import Llmap.Providers.Signing
/-!
# The canonical request

What `finalize_request_auth` signs is a text of lines: the method, the path,
the query, a line for each header, an empty line, the names of the headers
and the hash of the payload. No part of it has a line break in it, no name
has a colon or a semicolon, and what `aws_encode` writes has neither an equals
sign nor an ampersand. So the text says which request it is of
(`canonical_request_unambiguous`), up to what does not matter: the order of
the parameters, and the space in the values of headers.
-/

namespace Llmap

namespace Providers

/-! ## Joining -/

/-- Pieces that are joined by what none of them has are read back. -/
theorem intercalate_inj {separator : String} {c : Char} (hseparator : separator.toList = [c])
    {pieces pieces' : List String} (hne : pieces ≠ []) (hne' : pieces' ≠ [])
    (hfree : ∀ piece ∈ pieces, c ∉ piece.toList) (hfree' : ∀ piece ∈ pieces', c ∉ piece.toList)
    (h : separator.intercalate pieces = separator.intercalate pieces') : pieces = pieces' := by
  have hsplit : ∀ {pieces : List String}, pieces ≠ [] → (∀ piece ∈ pieces, c ∉ piece.toList) →
      (separator.intercalate pieces).toList.splitOn c = pieces.map String.toList := by
    intro pieces hne hfree
    rw [String.toList_intercalate, hseparator]
    refine List.splitOn_intercalate c (fun piece hmem => ?_) (by simpa using hne)
    obtain ⟨text, htext, rfl⟩ := List.mem_map.mp hmem
    exact hfree text htext
  have hsame : pieces.map String.toList = pieces'.map String.toList := by
    rw [← hsplit hne hfree, ← hsplit hne' hfree', h]
  exact List.map_injective_iff.mpr (fun _ _ heq => String.toList_injective heq) hsame

/-- Two texts around a character that neither of the first has. -/
theorem append_char_inj {left left' right right' : List Char} {c : Char} (hleft : c ∉ left)
    (hleft' : c ∉ left') (h : left ++ c :: right = left' ++ c :: right') :
    left = left' ∧ right = right' := by
  have hsplit := congrArg (List.takeWhile fun d => d ≠ c) h
  have htake : ∀ {text rest : List Char}, c ∉ text →
      (text ++ c :: rest).takeWhile (fun d => d ≠ c) = text := by
    intro text rest hfree
    rw [List.takeWhile_append_of_pos fun d hd => by
      simpa using fun hsame : d = c => hfree (hsame ▸ hd)]
    simp
  rw [htake hleft, htake hleft'] at hsplit
  subst hsplit
  exact ⟨rfl, (List.cons.inj (List.append_cancel_left h)).2⟩

theorem notMem_intercalate {separator : String} {pieces : List String} {c : Char}
    (hseparator : c ∉ separator.toList) (h : ∀ piece ∈ pieces, c ∉ piece.toList) :
    c ∉ (separator.intercalate pieces).toList := by
  induction pieces with
  | nil => simp
  | cons first rest ih =>
      have hfirst := h first List.mem_cons_self
      have hrest := ih fun piece hmem => h piece (List.mem_cons_of_mem _ hmem)
      cases rest with
      | nil => simpa using hfirst
      | cons second rest =>
          rw [String.intercalate_cons_cons]
          simp only [String.toList_append, List.mem_append, not_or]
          exact ⟨⟨hfirst, hseparator⟩, hrest⟩

/-! ## `aws_encode` -/

theorem toUpper_digitChar_inj : ∀ n < 16, ∀ m < 16,
    (Nat.digitChar n).toUpper = (Nat.digitChar m).toUpper → n = m := by
  decide

/-- Two hexadecimal digits are of one byte. -/
theorem hexByte_inj {byte byte' : UInt8}
    (h : (hexByte byte).map Char.toUpper = (hexByte byte').map Char.toUpper) : byte = byte' := by
  have hbyte := byte.toNat_lt
  have hbyte' := byte'.toNat_lt
  simp only [hexByte, List.map_cons, List.map_nil, List.cons.injEq, and_true] at h
  have hhigh := toUpper_digitChar_inj _ (by omega) _ (by omega) h.1
  have hlow := toUpper_digitChar_inj _ (Nat.mod_lt _ (by decide)) _ (Nat.mod_lt _ (by decide)) h.2
  exact UInt8.toNat_inj.mp (by omega)

theorem ofNat_toNat_inj {byte byte' : UInt8}
    (h : Char.ofNat byte.toNat = Char.ofNat byte'.toNat) : byte = byte' := by
  have hcode : ∀ byte : UInt8, (Char.ofNat byte.toNat).toNat = byte.toNat := by
    intro byte
    have hbyte := byte.toNat_lt
    have hvalid : byte.toNat.isValidChar := Or.inl (by omega)
    rw [Char.ofNat, dif_pos hvalid]
    rfl
  have hsame := congrArg Char.toNat h
  rw [hcode, hcode] at hsame
  exact UInt8.toNat_inj.mp hsame

/-- **One byte**: itself, or a percent sign and two digits. -/
def awsByte (byte : UInt8) : List Char :=
  if unreserved (Char.ofNat byte.toNat) then [Char.ofNat byte.toNat]
  else '%' :: (hexByte byte).map Char.toUpper

theorem awsByte_ne_nil (byte : UInt8) : awsByte byte ≠ [] := by
  unfold awsByte
  split <;> simp

/-- It is clear which byte stands at the front, and where it ends. -/
theorem awsByte_append_inj {byte byte' : UInt8} {rest rest' : List Char}
    (h : awsByte byte ++ rest = awsByte byte' ++ rest') : byte = byte' ∧ rest = rest' := by
  have hpercent : unreserved '%' = false := by decide
  unfold awsByte at h
  by_cases hplain : unreserved (Char.ofNat byte.toNat) = true
  · by_cases hplain' : unreserved (Char.ofNat byte'.toNat) = true
    · rw [if_pos hplain, if_pos hplain'] at h
      obtain ⟨hsame, hrest⟩ := List.cons.inj h
      exact ⟨ofNat_toNat_inj hsame, hrest⟩
    · rw [if_pos hplain, if_neg hplain'] at h
      rw [(List.cons.inj h).1, hpercent] at hplain
      cases hplain
  · by_cases hplain' : unreserved (Char.ofNat byte'.toNat) = true
    · rw [if_neg hplain, if_pos hplain'] at h
      rw [← (List.cons.inj h).1, hpercent] at hplain'
      cases hplain'
    · rw [if_neg hplain, if_neg hplain'] at h
      obtain ⟨hdigits, hrest⟩ := List.append_inj (List.cons.inj h).2 (by simp [hexByte])
      exact ⟨hexByte_inj hdigits, hrest⟩

/-- `aws_encode` as a prefix code. -/
def awsByteCode : PrefixCode Char UInt8 := ⟨awsByte, awsByte_ne_nil, awsByte_append_inj⟩

theorem toList_awsEncode (bytes : Bytes) :
    (awsEncode bytes).toList = awsByteCode.encodeAll bytes := by
  induction bytes with
  | nil => rfl
  | cons byte bytes ih =>
      have hsplit := toList_awsEncode_append [byte] bytes
      rw [List.singleton_append, toList_awsEncode_singleton] at hsplit
      rw [PrefixCode.encodeAll_cons, ← ih, hsplit]
      rfl

/-- **No two values are encoded alike.** -/
theorem awsEncode_injective : Function.Injective awsEncode := by
  intro bytes bytes' h
  refine awsByteCode.encodeAll_injective ?_
  rw [← toList_awsEncode, ← toList_awsEncode, h]

/-- The characters `aws_encode` writes. -/
theorem mem_awsEncode {bytes : Bytes} {c : Char} (h : c ∈ (awsEncode bytes).toList) :
    unreserved c = true ∨ c = '%' := by
  have hdigit : ∀ n < 16, unreserved (Nat.digitChar n).toUpper = true := by decide
  rw [toList_awsEncode, PrefixCode.encodeAll, List.mem_flatMap] at h
  obtain ⟨byte, -, hmem⟩ := h
  have hbyte := byte.toNat_lt
  change c ∈ awsByte byte at hmem
  unfold awsByte at hmem
  split at hmem
  · rename_i hplain
    rw [List.mem_singleton.mp hmem]
    exact .inl hplain
  · simp only [hexByte, List.map_cons, List.map_nil, List.mem_cons, List.not_mem_nil,
      or_false] at hmem
    rcases hmem with rfl | rfl | rfl
    · exact .inr rfl
    · exact .inl (hdigit _ (by omega))
    · exact .inl (hdigit _ (Nat.mod_lt _ (by decide)))

/-- **What is encoded has no separator in it.** -/
theorem notMem_awsEncode {c : Char} (hreserved : unreserved c = false) (hpercent : c ≠ '%')
    (bytes : Bytes) : c ∉ (awsEncode bytes).toList := by
  intro h
  rcases mem_awsEncode h with hplain | hsign
  · rw [hreserved] at hplain
    cases hplain
  · exact hpercent hsign

/-! ## The query -/

/-- A name and a value, encoded. -/
def encodedPair (pair : String × String) : String × String :=
  (awsEncode (asBytes pair.1), awsEncode (asBytes pair.2))

theorem encodedPair_injective : Function.Injective encodedPair := by
  intro pair pair' h
  obtain ⟨hname, hvalue⟩ := Prod.mk.inj h
  exact Prod.ext (asBytes_injective (awsEncode_injective hname))
    (asBytes_injective (awsEncode_injective hvalue))

/-- The order parameters are sorted in. -/
def pairOrder (left right : String × String) : Prop :=
  left.1 < right.1 ∨ (left.1 = right.1 ∧ left.2 ≤ right.2)

instance : DecidableRel pairOrder := fun _ _ => inferInstanceAs (Decidable (_ ∨ _))

theorem pairOrder_iff {left right : String × String} :
    pairOrder left right ↔ toLex left ≤ toLex right :=
  Prod.Lex.toLex_le_toLex.symm

instance : Std.Total pairOrder where
  total left right := by
    rw [pairOrder_iff, pairOrder_iff]
    exact le_total _ _

instance : IsTrans (String × String) pairOrder where
  trans a b c hab hbc := by
    rw [pairOrder_iff] at hab hbc ⊢
    exact hab.trans hbc

instance : Std.Antisymm pairOrder where
  antisymm a b hab hba := by
    rw [pairOrder_iff] at hab hba
    exact toLex.injective (hab.antisymm hba)

/-- The parameters as they are written. -/
def sortedPairs (pairs : List (String × String)) : List (String × String) :=
  (pairs.map encodedPair).insertionSort pairOrder

/-- **Parameters are sorted alike** just in case they are the same up to
order. -/
theorem sortedPairs_eq_iff {pairs pairs' : List (String × String)} :
    sortedPairs pairs = sortedPairs pairs' ↔ pairs.Perm pairs' := by
  constructor
  · intro h
    have hsorted : (sortedPairs pairs).Perm (pairs'.map encodedPair) := by
      rw [h]
      exact List.perm_insertionSort pairOrder _
    have hencoded : (pairs.map encodedPair).Perm (pairs'.map encodedPair) :=
      (List.perm_insertionSort pairOrder _).symm.trans hsorted
    exact (List.map_perm_map_iff encodedPair_injective).mp hencoded
  · intro h
    refine List.Perm.eq_of_pairwise' (List.pairwise_insertionSort pairOrder _)
      (List.pairwise_insertionSort pairOrder _) ?_
    exact (List.perm_insertionSort pairOrder _).trans
      ((h.map encodedPair).trans (List.perm_insertionSort pairOrder _).symm)

/-- A parameter as it is written. -/
def pairText (pair : String × String) : String := pair.1 ++ "=" ++ pair.2

theorem canonicalQuery_eq [Urls] (url : Url) :
    canonicalQuery url = "&".intercalate ((sortedPairs (Urls.queryPairs url)).map pairText) := rfl

/-- What is sorted is encoded. -/
theorem exists_sortedPairs_eq (pairs : List (String × String)) :
    ∃ sorted : List (String × String), sortedPairs pairs = sorted.map encodedPair := by
  have hrange : sortedPairs pairs ∈ Set.range (List.map encodedPair) := by
    rw [Set.range_list_map]
    intro encoded hmem
    rw [sortedPairs, List.mem_insertionSort] at hmem
    obtain ⟨pair, -, rfl⟩ := List.mem_map.mp hmem
    exact ⟨pair, rfl⟩
  obtain ⟨sorted, hsorted⟩ := hrange
  exact ⟨sorted, hsorted.symm⟩

theorem toList_pairText (pair : String × String) :
    (pairText (encodedPair pair)).toList =
      (awsEncode (asBytes pair.1)).toList ++ '=' :: (awsEncode (asBytes pair.2)).toList := by
  simp [pairText, encodedPair]

/-- A parameter is read back from its text. -/
theorem pairText_inj {pair pair' : String × String}
    (h : pairText (encodedPair pair) = pairText (encodedPair pair')) :
    encodedPair pair = encodedPair pair' := by
  have htext := congrArg String.toList h
  rw [toList_pairText, toList_pairText] at htext
  have hfree := notMem_awsEncode (show unreserved '=' = false by decide) (by decide)
  obtain ⟨hname, hvalue⟩ := append_char_inj (hfree _) (hfree _) htext
  exact Prod.ext (String.toList_injective hname) (String.toList_injective hvalue)

/-- No parameter has a character that is reserved, but for its own equals
sign. -/
theorem notMem_pairText {c : Char} (hreserved : unreserved c = false) (hpercent : c ≠ '%')
    (hequals : c ≠ '=') (pair : String × String) : c ∉ (pairText (encodedPair pair)).toList := by
  rw [toList_pairText, List.mem_append, List.mem_cons]
  rintro (hname | hsign | hvalue)
  · exact notMem_awsEncode hreserved hpercent _ hname
  · exact hequals hsign
  · exact notMem_awsEncode hreserved hpercent _ hvalue

/-- Nothing joined is empty, unless nothing is joined. -/
theorem intercalate_eq_empty_iff {separator : String} {pieces : List String}
    (hpieces : ∀ piece ∈ pieces, piece ≠ "") :
    separator.intercalate pieces = "" ↔ pieces = [] := by
  constructor
  · intro h
    cases pieces with
    | nil => rfl
    | cons first rest =>
        have htext := congrArg String.toList h
        rw [String.toList_intercalate, List.map_cons] at htext
        have hfirst : first.toList ≠ [] := by
          simpa using hpieces first List.mem_cons_self
        cases rest with
        | nil => exact absurd (by simpa using htext) hfirst
        | cons second rest =>
            rw [List.map_cons, List.intercalate_cons_cons] at htext
            exact absurd (List.append_eq_nil_iff.mp (List.append_eq_nil_iff.mp htext).1).1 hfirst
  · rintro rfl
    rfl

/-- Parameters, written as they stand. -/
def queryText (pairs : List (String × String)) : String :=
  "&".intercalate (pairs.map fun pair => pairText (encodedPair pair))

theorem pairText_ne_empty (pair : String × String) : pairText (encodedPair pair) ≠ "" := by
  intro hempty
  have htext := congrArg String.toList hempty
  rw [toList_pairText] at htext
  simp at htext

theorem queryText_eq_empty_iff {pairs : List (String × String)} :
    queryText pairs = "" ↔ pairs = [] := by
  rw [queryText, intercalate_eq_empty_iff, List.map_eq_nil_iff]
  intro piece hmem
  obtain ⟨pair, -, rfl⟩ := List.mem_map.mp hmem
  exact pairText_ne_empty pair

/-- Parameters are read back from their text. -/
theorem queryText_injective : Function.Injective queryText := by
  intro pairs pairs' h
  by_cases hnone : pairs = []
  · have hempty : queryText pairs' = "" := h.symm.trans (queryText_eq_empty_iff.mpr hnone)
    rw [hnone, queryText_eq_empty_iff.mp hempty]
  have hsome : pairs' ≠ [] := fun hempty =>
    hnone (queryText_eq_empty_iff.mp (h.trans (queryText_eq_empty_iff.mpr hempty)))
  have hfree : ∀ pairs : List (String × String),
      ∀ piece ∈ pairs.map (fun pair => pairText (encodedPair pair)), '&' ∉ piece.toList := by
    intro pairs piece hmem
    obtain ⟨pair, -, rfl⟩ := List.mem_map.mp hmem
    exact notMem_pairText (by decide) (by decide) (by decide) pair
  have hpieces := intercalate_inj (by decide) (mt List.map_eq_nil_iff.mp hnone)
    (mt List.map_eq_nil_iff.mp hsome) (hfree pairs) (hfree pairs') h
  refine List.map_injective_iff.mpr (fun pair pair' hsame => ?_) hpieces
  exact encodedPair_injective (pairText_inj hsame)

/-- A query is the text of its parameters in some order. -/
theorem exists_canonicalQuery_eq [Urls] (url : Url) :
    ∃ sorted, sortedPairs (Urls.queryPairs url) = sorted.map encodedPair ∧
      canonicalQuery url = queryText sorted := by
  obtain ⟨sorted, hsorted⟩ := exists_sortedPairs_eq (Urls.queryPairs url)
  refine ⟨sorted, hsorted, ?_⟩
  rw [canonicalQuery_eq, hsorted, List.map_map]
  rfl

/-- **A query is of one multiset of parameters.** -/
theorem canonicalQuery_eq_iff [Urls] {url url' : Url} :
    canonicalQuery url = canonicalQuery url' ↔
      (Urls.queryPairs url).Perm (Urls.queryPairs url') := by
  rw [← sortedPairs_eq_iff]
  constructor
  · intro h
    obtain ⟨sorted, hsorted, hquery⟩ := exists_canonicalQuery_eq url
    obtain ⟨sorted', hsorted', hquery'⟩ := exists_canonicalQuery_eq url'
    rw [hquery, hquery'] at h
    rw [hsorted, hsorted', queryText_injective h]
  · intro h
    rw [canonicalQuery_eq, canonicalQuery_eq, h]

theorem newline_notMem_canonicalQuery [Urls] (url : Url) :
    '\n' ∉ (canonicalQuery url).toList := by
  obtain ⟨sorted, -, hquery⟩ := exists_canonicalQuery_eq url
  rw [hquery, queryText]
  refine notMem_intercalate (by decide) fun piece hmem => ?_
  obtain ⟨pair, -, rfl⟩ := List.mem_map.mp hmem
  exact notMem_pairText (by decide) (by decide) (by decide) pair

/-! ## The headers -/

/-- A value has no line break when its space is collapsed. -/
theorem newline_notMem_collapseWhitespace (value : String) :
    '\n' ∉ (collapseWhitespace value).toList := by
  refine notMem_intercalate (by decide) fun piece hmem hnewline => ?_
  obtain ⟨word, hword, rfl⟩ := List.mem_map.mp hmem
  rw [String.toList_ofList] at hnewline
  have hnot := not_of_mem_splitOnP (List.mem_filter.mp hword).1 '\n' hnewline
  exact absurd hnot (by decide)

/-- The line of a header. -/
def headerLine (headers : Table String String) (name : String) : String :=
  name ++ ":" ++ collapseWhitespace (headers[name]?.getD "")

/-- Lines that each end in a line break, and what follows. -/
theorem join_append_intercalate (lines : List String) {rest : List String} (hrest : rest ≠ []) :
    String.join (lines.map fun line => line ++ "\n") ++ "\n" ++ "\n".intercalate rest =
      "\n".intercalate (lines ++ "" :: rest) := by
  induction lines with
  | nil => rw [List.nil_append, String.intercalate_cons_of_ne_nil hrest]; rfl
  | cons line lines ih =>
      rw [List.cons_append, String.intercalate_cons_of_ne_nil (by simp), ← ih, List.map_cons,
        String.join_cons]
      simp only [String.append_assoc]

/-- **The canonical request, line by line.** -/
theorem canonicalRequest_eq [Urls] (method payloadHash : String) (url : Url)
    (headers : Table String String) (names : List String) :
    canonicalRequest method payloadHash url headers names =
      "\n".intercalate ([method, canonicalPath url, canonicalQuery url] ++
        (names.map (headerLine headers) ++ ["", ";".intercalate names, payloadHash])) := by
  have hblock := join_append_intercalate (names.map (headerLine headers))
    (show [";".intercalate names, payloadHash] ≠ [] by simp)
  rw [List.map_map] at hblock
  have hfront : [method, canonicalPath url, canonicalQuery url] ≠ [] := by simp
  have hmap : names.map (fun name =>
      name ++ ":" ++ collapseWhitespace (headers[name]?.getD "") ++ "\n") =
        names.map ((fun line => line ++ "\n") ∘ headerLine headers) := rfl
  unfold canonicalRequest
  dsimp only
  rw [hmap]
  generalize String.join (names.map ((fun line => line ++ "\n") ∘ headerLine headers)) = block
    at hblock ⊢
  have hlines : "\n".intercalate [block, ";".intercalate names, payloadHash] =
      block ++ "\n" ++ "\n".intercalate [";".intercalate names, payloadHash] :=
    String.intercalate_cons_cons
  rw [String.intercalate_append_of_ne_nil hfront (by simp), ← hblock, ← hlines,
    ← String.intercalate_append_of_ne_nil hfront (by simp)]
  rfl

/-! ## The headers that are signed -/

theorem getElem?_amzHeaders (host payloadHash amzDate : String) (sessionToken : Option String)
    (headers : Table String String) (name : String) :
    (amzHeaders host payloadHash amzDate sessionToken headers)[name]? =
      if "x-amz-security-token" = name ∧ sessionToken.isSome then sessionToken
      else if "x-amz-date" = name then some amzDate
      else if "x-amz-content-sha256" = name then some payloadHash
      else if "host" = name then some host
      else headers[name]? := by
  cases sessionToken <;> simp [amzHeaders, Std.ExtTreeMap.getElem?_insert]

theorem mem_signedHeaderNames_iff {headers : Table String String} {sessionToken : Option String}
    {name : String} :
    name ∈ signedHeaderNames headers sessionToken ↔
      name ∈ ["host", "x-amz-content-sha256", "x-amz-date"] ∨
        (name = "content-type" ∧ headers.contains "content-type" = true) ∨
        (name = "x-amz-security-token" ∧ sessionToken.isSome = true) := by
  rw [signedHeaderNames, List.mem_insertionSort, List.mem_append, List.mem_append, or_assoc]
  refine or_congr_right (or_congr ?_ ?_)
  · split
    · rename_i htype
      simp [htype]
    · rename_i htype
      simp [htype]
  · split
    · rename_i htoken
      simp [htoken]
    · rename_i htoken
      simp [htoken]

/-- What is signed: the headers of these names alone. -/
theorem mem_signedHeaderNames {headers : Table String String} {sessionToken : Option String}
    {name : String} (h : name ∈ signedHeaderNames headers sessionToken) :
    name ∈ ["host", "x-amz-content-sha256", "x-amz-date", "content-type",
      "x-amz-security-token"] := by
  rcases mem_signedHeaderNames_iff.mp h with hfixed | ⟨rfl, -⟩ | ⟨rfl, -⟩
  · simp only [List.mem_cons, List.not_mem_nil, or_false] at hfixed ⊢
    tauto
  · decide
  · decide

/-- A name that may be signed has no separator in it. -/
theorem notMem_signedHeaderName {headers : Table String String} {sessionToken : Option String}
    {name : String} (h : name ∈ signedHeaderNames headers sessionToken) :
    '\n' ∉ name.toList ∧ ';' ∉ name.toList := by
  have hall : ∀ name ∈ ["host", "x-amz-content-sha256", "x-amz-date", "content-type",
      "x-amz-security-token"], '\n' ∉ name.toList ∧ ';' ∉ name.toList := by decide +kernel
  exact hall name (mem_signedHeaderNames h)

theorem signedHeaderNames_ne_nil (headers : Table String String) (sessionToken : Option String) :
    signedHeaderNames headers sessionToken ≠ [] := by
  have hhost : "host" ∈ signedHeaderNames headers sessionToken :=
    mem_signedHeaderNames_iff.mpr (.inl List.mem_cons_self)
  exact List.ne_nil_of_mem hhost

theorem contentType_mem_iff {headers : Table String String} {sessionToken : Option String} :
    "content-type" ∈ signedHeaderNames headers sessionToken ↔
      headers.contains "content-type" = true := by
  have hother : "content-type" ≠ "x-amz-security-token" := by decide
  rw [mem_signedHeaderNames_iff, or_iff_right (by decide), and_iff_right rfl,
    or_iff_left (fun h => hother h.1)]

theorem securityToken_mem_iff {headers : Table String String} {sessionToken : Option String} :
    "x-amz-security-token" ∈ signedHeaderNames headers sessionToken ↔
      sessionToken.isSome = true := by
  have hother : "x-amz-security-token" ≠ "content-type" := by decide
  rw [mem_signedHeaderNames_iff, or_iff_right (by decide), or_iff_right (fun h => hother h.1),
    and_iff_right rfl]

/-- Names are sorted, so that they are determined by their set. -/
theorem signedHeaderNames_eq_of_toFinset {headers headers' : Table String String}
    {sessionToken sessionToken' : Option String}
    (h : (signedHeaderNames headers sessionToken).toFinset =
      (signedHeaderNames headers' sessionToken').toFinset) :
    signedHeaderNames headers sessionToken = signedHeaderNames headers' sessionToken' := by
  have hmem : ∀ name, name ∈ signedHeaderNames headers sessionToken ↔
      name ∈ signedHeaderNames headers' sessionToken' := fun name => by
    rw [← List.mem_toFinset, h, List.mem_toFinset]
  have htype : headers.contains "content-type" = headers'.contains "content-type" := by
    rw [Bool.eq_iff_iff, ← contentType_mem_iff, ← contentType_mem_iff]
    exact hmem "content-type"
  have htoken : sessionToken.isSome = sessionToken'.isSome := by
    rw [Bool.eq_iff_iff, ← securityToken_mem_iff, ← securityToken_mem_iff]
    exact hmem "x-amz-security-token"
  rw [signedHeaderNames, signedHeaderNames, htype, htoken]

theorem newline_notMem_hex (bytes : Bytes) : '\n' ∉ (hex bytes).toList := by
  have hdigit : ∀ n < 16, '\n' ≠ Nat.digitChar n := by decide
  rw [hex, String.toList_ofList, List.mem_flatMap]
  rintro ⟨byte, -, hmem⟩
  have hbyte := byte.toNat_lt
  simp only [hexByte, List.mem_cons, List.not_mem_nil, or_false] at hmem
  rcases hmem with hhigh | hlow
  · exact hdigit _ (by omega) hhigh
  · exact hdigit _ (Nat.mod_lt _ (by decide)) hlow

/-! ## Requests -/

/-- A character of a token, as `http::Method` is one. -/
def isTokenChar (c : Char) : Bool :=
  isAsciiAlphanumeric c || "!#$%&'*+-.^_`|~".toList.contains c

/-- **A request that is signed**, with a credential that is accepted and a URL
with a host. The method is a token, and the path has no line break, as `url`
takes those out of what it parses. -/
structure SigV4Request where
  method : String
  isToken : method.toList.all isTokenChar = true
  url : Url
  host : String
  canonicalHost_eq : canonicalHost url = .ok host
  path_onOneLine : '\n' ∉ url.path.toList
  headers : Table String String
  body : Bytes
  envelope : AwsCredentialEnvelope
  validated : envelope.validate = .ok ()
  now : DateTime

namespace SigV4Request

variable [Digests] [Chrono] (request : SigV4Request)

/-- `payload_hash`. -/
def payloadHash : String := hex (Digests.sha256 request.body)

/-- The headers when the canonical request is built. -/
def signedHeaders : Table String String :=
  amzHeaders request.host request.payloadHash (Chrono.formatInstant request.now)
    request.envelope.sessionToken request.headers

/-- `signed_header_names`, sorted. -/
def names : List String := signedHeaderNames request.signedHeaders request.envelope.sessionToken

/-- `canonical_request`. -/
def canonicalText [Urls] : String :=
  canonicalRequest request.method request.payloadHash request.url request.signedHeaders
    request.names

/-- **What is signed is this text.** -/
theorem finalizeRequestAuth_eq [Serde] [Urls] {account : ProviderAccount} {credential : String}
    (hkind : account.kind = .bedrockSigV4)
    (hcredential : Serde.awsEnvelopeFromStr credential = some request.envelope)
    (upstreamModel : String) :
    let date := Chrono.formatDate request.now
    let service := request.envelope.service.getD "bedrock"
    let scope := date ++ "/" ++ request.envelope.region ++ "/" ++ service ++ "/aws4_request"
    let stringToSign := "AWS4-HMAC-SHA256\n" ++ Chrono.formatInstant request.now ++ "\n" ++ scope ++
      "\n" ++ hex (Digests.sha256 (asBytes request.canonicalText))
    finalizeRequestAuth account credential request.method request.body request.now
        ⟨request.url, upstreamModel, request.headers⟩ =
      .ok ⟨request.url, upstreamModel, request.signedHeaders.insert "authorization"
        ("AWS4-HMAC-SHA256 Credential=" ++ request.envelope.accessKeyId ++ "/" ++ scope ++
          ", SignedHeaders=" ++ ";".intercalate request.names ++ ", Signature=" ++
          awsSignature request.envelope date service stringToSign)⟩ := by
  intro date service scope stringToSign
  rw [finalizeRequestAuth, if_neg (fun h => h hkind), hcredential]
  simp only [request.validated, signRequest, request.canonicalHost_eq]
  rfl

/-- Every header that is signed is there. -/
theorem exists_of_mem_names {name : String} (h : name ∈ request.names) :
    ∃ value, request.signedHeaders[name]? = some value := by
  rw [names, mem_signedHeaderNames_iff] at h
  rcases h with hfixed | ⟨rfl, htype⟩ | ⟨rfl, htoken⟩
  · simp only [List.mem_cons, List.not_mem_nil, or_false] at hfixed
    rcases hfixed with rfl | rfl | rfl
    · exact ⟨request.host, by simp [signedHeaders, getElem?_amzHeaders]⟩
    · exact ⟨request.payloadHash, by simp [signedHeaders, getElem?_amzHeaders]⟩
    · exact ⟨Chrono.formatInstant request.now, by simp [signedHeaders, getElem?_amzHeaders]⟩
  · rw [Std.ExtTreeMap.contains_iff_mem, Std.ExtTreeMap.mem_iff_isSome_getElem?] at htype
    exact Option.isSome_iff_exists.mp htype
  · obtain ⟨token, hsome⟩ := Option.isSome_iff_exists.mp htoken
    exact ⟨token, by simp [signedHeaders, getElem?_amzHeaders, hsome]⟩

variable [Urls]

/-- The lines of the canonical request. -/
def lines : List String :=
  [request.method, canonicalPath request.url, canonicalQuery request.url] ++
    (request.names.map (headerLine request.signedHeaders) ++
      ["", ";".intercalate request.names, request.payloadHash])

theorem canonicalText_eq : request.canonicalText = "\n".intercalate request.lines :=
  canonicalRequest_eq ..

/-- None of them has a line break in it. -/
theorem newline_notMem_lines {line : String} (h : line ∈ request.lines) : '\n' ∉ line.toList := by
  simp only [lines, List.mem_append, List.mem_cons, List.not_mem_nil, or_false] at h
  rcases h with (rfl | rfl | rfl) | hheader | rfl | rfl | rfl
  · intro hmem
    have htoken := List.all_eq_true.mp request.isToken '\n' hmem
    exact absurd htoken (by decide)
  · unfold canonicalPath
    split
    · decide
    · exact request.path_onOneLine
  · exact newline_notMem_canonicalQuery request.url
  · obtain ⟨name, hname, rfl⟩ := List.mem_map.mp hheader
    simp only [headerLine, String.toList_append, List.mem_append, not_or]
    exact ⟨⟨(notMem_signedHeaderName hname).1, by decide⟩, newline_notMem_collapseWhitespace _⟩
  · decide
  · exact notMem_intercalate (by decide) fun name hname => (notMem_signedHeaderName hname).1
  · exact newline_notMem_hex _

/-- **What two requests have in common** when they are signed alike. -/
structure SameParts (request request' : SigV4Request) : Prop where
  method : request.method = request'.method
  path : canonicalPath request.url = canonicalPath request'.url
  query : (Urls.queryPairs request.url : Multiset (String × String)) = Urls.queryPairs request'.url
  names : request.names.toFinset = request'.names.toFinset
  values : ∀ name ∈ request.names, request.signedHeaders[name]?.map collapseWhitespace =
    request'.signedHeaders[name]?.map collapseWhitespace
  payloadHash : request.payloadHash = request'.payloadHash

variable {request} {request' : SigV4Request}

omit [Urls] in
/-- A header has one line and one value. -/
theorem headerLine_eq_iff {name : String} (h : name ∈ request.names) (h' : name ∈ request'.names) :
    headerLine request.signedHeaders name = headerLine request'.signedHeaders name ↔
      request.signedHeaders[name]?.map collapseWhitespace =
        request'.signedHeaders[name]?.map collapseWhitespace := by
  obtain ⟨value, hvalue⟩ := request.exists_of_mem_names h
  obtain ⟨value', hvalue'⟩ := request'.exists_of_mem_names h'
  rw [headerLine, headerLine, hvalue, hvalue']
  simp only [Option.getD_some, Option.map_some, Option.some.injEq]
  constructor
  · intro hline
    have htext := congrArg String.toList hline
    simp only [String.toList_append, List.append_cancel_left_eq] at htext
    exact String.toList_injective htext
  · intro hsame
    rw [hsame]

theorem SameParts.of_lines (h : request.lines = request'.lines) : SameParts request request' := by
  rw [lines, lines] at h
  obtain ⟨hfront, hrest⟩ := List.append_inj h rfl
  obtain ⟨hheaders, hback⟩ := List.append_inj' hrest rfl
  simp only [List.cons.injEq, and_true, true_and] at hfront hback
  obtain ⟨hmethod, hpath, hquery⟩ := hfront
  obtain ⟨hjoined, hhash⟩ := hback
  have hnames : request.names = request'.names :=
    intercalate_inj (by decide) (signedHeaderNames_ne_nil _ _) (signedHeaderNames_ne_nil _ _)
      (fun name hname => (notMem_signedHeaderName hname).2)
      (fun name hname => (notMem_signedHeaderName hname).2) hjoined
  refine ⟨hmethod, hpath, Multiset.coe_eq_coe.mpr (canonicalQuery_eq_iff.mp hquery), by rw [hnames],
    fun name hname => ?_, hhash⟩
  rw [← hnames, List.map_inj_left] at hheaders
  exact (headerLine_eq_iff hname (hnames ▸ hname)).mp (hheaders name hname)

theorem SameParts.lines_eq (h : SameParts request request') : request.lines = request'.lines := by
  have hnames : request.names = request'.names := signedHeaderNames_eq_of_toFinset h.names
  have hheaders : request.names.map (headerLine request.signedHeaders) =
      request.names.map (headerLine request'.signedHeaders) :=
    List.map_congr_left fun name hname =>
      (headerLine_eq_iff hname (hnames ▸ hname)).mpr (h.values name hname)
  have hquery : canonicalQuery request.url = canonicalQuery request'.url :=
    canonicalQuery_eq_iff.mpr (Multiset.coe_eq_coe.mp h.query)
  rw [lines, lines, h.method, h.path, hquery, hheaders, hnames, h.payloadHash]

end SigV4Request

/-- **The canonical request is unambiguous.** Two requests have one canonical
text exactly when they have the method, the path, the parameters in some
order, the signed headers and the payload in common. -/
theorem canonical_request_unambiguous [Urls] [Digests] [Chrono] :
    (∀ request request' : SigV4Request,
      request.canonicalText = request'.canonicalText ↔ request.SameParts request') ∧
    (∀ (method payloadHash : String) (url url' : Url) (headers : Table String String)
      (names : List String), canonicalPath url = canonicalPath url' →
      (Urls.queryPairs url).Perm (Urls.queryPairs url') →
      canonicalRequest method payloadHash url headers names =
        canonicalRequest method payloadHash url' headers names) ∧
    Function.Injective awsEncode ∧
    ∀ bytes : Bytes, ∀ c ∈ (awsEncode bytes).toList, c ≠ '=' ∧ c ≠ '&' ∧ c ≠ '\n' ∧ c ≠ '\r' := by
  refine ⟨fun request request' => ?_,
    fun method payloadHash url url' headers names hpath hquery => ?_,
    awsEncode_injective, fun bytes c hc => ⟨?_, ?_, ?_, ?_⟩⟩
  · rw [request.canonicalText_eq, request'.canonicalText_eq]
    constructor
    · intro h
      exact .of_lines (intercalate_inj (by decide) (List.cons_ne_nil _ _) (List.cons_ne_nil _ _)
        (fun _ => request.newline_notMem_lines) (fun _ => request'.newline_notMem_lines) h)
    · intro h
      rw [h.lines_eq]
  · rw [canonicalRequest_eq, canonicalRequest_eq, hpath, canonicalQuery_eq_iff.mpr hquery]
  all_goals
    rintro rfl
    exact notMem_awsEncode (by decide) (by decide) bytes hc

/-- Parameters are what stands between the ampersands. -/
@[reducible] def Urls.literal : Urls :=
  { Urls.plain with
    queryPairs := fun url => ((url.query.getD "").toList.splitOn '&').map fun pair =>
      (String.ofList (pair.takeWhile (· ≠ '=')),
        String.ofList ((pair.dropWhile (· ≠ '=')).drop 1)) }

/-- A request with a query. -/
def queryRequest (query : String) : SigV4Request where
  method := "GET"
  isToken := by decide
  url := { regionUrl with query := some query }
  host := "bedrock-runtime.us-east-1.amazonaws.com"
  canonicalHost_eq := rfl
  path_onOneLine := show '\n' ∉ regionUrl.path.toList by decide
  headers := ∅
  body := []
  envelope := ⟨"AKIDEXAMPLE", "secret", none, "us-east-1", none⟩
  validated := by decide
  now := 0

open scoped Plain in
/-- Two parameters are signed alike in either order, and another value is not. -/
theorem reordered_query_signed_alike :
    let := Urls.literal
    (queryRequest "b=2&a=1").canonicalText = (queryRequest "a=1&b=2").canonicalText ∧
      (queryRequest "a=1").canonicalText ≠ (queryRequest "a=2").canonicalText := by
  let := Urls.literal
  obtain ⟨hiff, -⟩ := canonical_request_unambiguous
  constructor
  · refine (hiff _ _).mpr ⟨rfl, rfl, ?_, rfl, fun _ _ => rfl, rfl⟩
    decide +kernel
  · intro h
    have hquery := ((hiff _ _).mp h).query
    revert hquery
    decide +kernel

end Providers

end Llmap
