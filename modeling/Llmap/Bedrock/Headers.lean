import Llmap.Bedrock.Frame
import Llmap.Common.PrefixCode
/-!
# The headers of a Bedrock frame

The grammar of the encoded headers: records of a name and a typed value,
one after another. The records are a prefix code (`headerCode`), so that a
slice is a sequence of them in at most one way, and the loop of
`decode_bedrock_headers` goes through that sequence (`decode_encodeAll`):
it accepts exactly the slices that are one, with the names that begin with
a colon all texts and all different.
-/

namespace Llmap

namespace Bedrock

/-! ## Values -/

/-- How long a value is: as long as its type says, or as long as two bytes
in front of it say. -/
inductive Layout where
  | fixed (length : ℕ)
  | sized
deriving DecidableEq

/-- The ten types of values. -/
def layout (valueType : UInt8) : Option Layout :=
  match valueType.toNat with
  | 0 | 1 => some (.fixed 0)
  | 2 => some (.fixed 1)
  | 3 => some (.fixed 2)
  | 4 => some (.fixed 4)
  | 5 | 8 => some (.fixed 8)
  | 6 | 7 => some .sized
  | 9 => some (.fixed 16)
  | _ => none

/-- The type of texts. -/
def textType : UInt8 := 7

theorem layout_textType : layout textType = some .sized := by decide

/-- Whether a content is one of a type: of the length it has, or of a
length that two bytes can say; and a text if the type is that of texts. -/
def Fits (valueType : UInt8) (content : Bytes) : Prop :=
  match layout valueType with
  | none => False
  | some (.fixed length) => content.length = length
  | some .sized => content.length < 2 ^ 16 ∧
      (valueType = textType → (fromUtf8 content).isSome = true)

theorem fits_fixed {valueType : UInt8} {length : ℕ} (h : layout valueType = some (.fixed length))
    (content : Bytes) : Fits valueType content ↔ content.length = length := by
  rw [Fits, h]

theorem fits_sized {valueType : UInt8} (h : layout valueType = some .sized) (content : Bytes) :
    Fits valueType content ↔ content.length < 2 ^ 16 ∧
      (valueType = textType → (fromUtf8 content).isSome = true) := by
  rw [Fits, h]

theorem layout_of_fits {valueType : UInt8} {content : Bytes} (h : Fits valueType content) :
    layout valueType ≠ none := by
  intro hnone
  rw [Fits, hnone] at h
  exact h

/-- **A typed value.** -/
structure HeaderValue where
  valueType : UInt8
  content : Bytes
  fits : Fits valueType content

namespace HeaderValue

/-- A value as it is written after its type. -/
def body (value : HeaderValue) : Bytes :=
  match layout value.valueType with
  | some .sized => toBeBytes 2 value.content.length ++ value.content
  | _ => value.content

theorem body_fixed {value : HeaderValue} {length : ℕ}
    (h : layout value.valueType = some (.fixed length)) : value.body = value.content := by
  rw [body, h]

theorem body_sized {value : HeaderValue} (h : layout value.valueType = some .sized) :
    value.body = toBeBytes 2 value.content.length ++ value.content := by
  rw [body, h]

/-- The text a value is. -/
def text? (value : HeaderValue) : Option String :=
  if value.valueType = textType then fromUtf8 value.content else none

/-- The values that are texts are those of their type. -/
theorem exists_text_iff (value : HeaderValue) :
    (∃ text, value.text? = some text) ↔ value.valueType = textType := by
  constructor
  · rintro ⟨text, h⟩
    by_contra hother
    simp [text?, hother] at h
  · intro htype
    have hlayout : layout value.valueType = some .sized := by rw [htype, layout_textType]
    have hfits := (fits_sized hlayout _).mp value.fits
    obtain ⟨text, htext⟩ := Option.isSome_iff_exists.mp (hfits.2 htype)
    exact ⟨text, by rw [text?, if_pos htype, htext]⟩

/-- Values of one type can be told from what follows them. -/
theorem body_append_inj {value value' : HeaderValue} {rest rest' : Bytes}
    (htype : value.valueType = value'.valueType)
    (h : value.body ++ rest = value'.body ++ rest') : value = value' ∧ rest = rest' := by
  obtain ⟨valueType, content, hfits⟩ := value
  obtain ⟨valueType', content', hfits'⟩ := value'
  obtain rfl : valueType = valueType' := htype
  suffices hcontent : content = content' ∧ rest = rest' by
    obtain ⟨rfl, rfl⟩ := hcontent
    exact ⟨rfl, rfl⟩
  rcases hlayout : layout valueType with _ | length | _
  · exact absurd hlayout (layout_of_fits hfits)
  · rw [body_fixed hlayout, body_fixed hlayout] at h
    have hlength := ((fits_fixed hlayout _).mp hfits).trans ((fits_fixed hlayout _).mp hfits').symm
    exact List.append_inj h hlength
  · rw [body_sized hlayout, body_sized hlayout, List.append_assoc, List.append_assoc] at h
    obtain ⟨hlength, hcontent⟩ := List.append_inj h (by simp)
    -- the two bytes in front say where the content ends
    have hread : fromBeBytes (toBeBytes 2 content.length) = content.length :=
      fromBeBytes_toBeBytes ((fits_sized hlayout _).mp hfits).1
    have hread' : fromBeBytes (toBeBytes 2 content'.length) = content'.length :=
      fromBeBytes_toBeBytes ((fits_sized hlayout _).mp hfits').1
    exact List.append_inj hcontent (by rw [← hread, hlength, hread'])

end HeaderValue

/-- A text as a value. -/
def HeaderValue.ofText (text : String) (h : (asBytes text).length < 2 ^ 16) : HeaderValue where
  valueType := textType
  content := asBytes text
  fits := (fits_sized layout_textType _).mpr ⟨h, fun _ => by rw [fromUtf8_asBytes]; rfl⟩

/-! ## Reading a value -/

theorem skipBedrockHeaderBytes_eq_ok_iff {encoded rest : Bytes} {length : ℕ} :
    skipBedrockHeaderBytes encoded length = .ok rest ↔
      ∃ content, content.length = length ∧ encoded = content ++ rest := by
  unfold skipBedrockHeaderBytes
  constructor
  · intro h
    split at h
    · cases h
    · rename_i hlong
      cases h
      refine ⟨encoded.take length, ?_, (List.take_append_drop _ _).symm⟩
      rw [List.length_take]
      omega
  · rintro ⟨content, rfl, rfl⟩
    simp

theorem bedrockSizedValue_eq_ok_iff {encoded value rest : Bytes} :
    bedrockSizedValue encoded = .ok (value, rest) ↔
      value.length < 2 ^ 16 ∧ encoded = toBeBytes 2 value.length ++ value ++ rest := by
  simp only [bedrockSizedValue]
  constructor
  · intro h
    split at h
    · cases h
    · rename_i htwo
      split at h
      · cases h
      · rename_i hlong
        have htake : (encoded.take 2).length = 2 := by
          rw [List.length_take]
          omega
        have hvalue : ((encoded.drop 2).take (fromBeBytes (encoded.take 2))).length =
            fromBeBytes (encoded.take 2) := by
          rw [List.length_take]
          omega
        have hbound : fromBeBytes (encoded.take 2) < 2 ^ 16 := by
          have hlt := fromBeBytes_lt (encoded.take 2)
          rw [htake] at hlt
          omega
        have hwritten : toBeBytes 2 (fromBeBytes (encoded.take 2)) = encoded.take 2 := by
          have hback := toBeBytes_fromBeBytes (encoded.take 2)
          rwa [htake] at hback
        cases h
        refine ⟨by omega, ?_⟩
        rw [hvalue, hwritten, List.append_assoc, List.take_append_drop, List.take_append_drop]
  · rintro ⟨hbound, rfl⟩
    have htake : (toBeBytes 2 value.length ++ value ++ rest).take 2 = toBeBytes 2 value.length := by
      rw [List.append_assoc]
      exact List.take_left' (length_toBeBytes _ _)
    have hdrop : (toBeBytes 2 value.length ++ value ++ rest).drop 2 = value ++ rest := by
      rw [List.append_assoc]
      exact List.drop_left' (length_toBeBytes _ _)
    have hlength : fromBeBytes (toBeBytes 2 value.length) = value.length :=
      fromBeBytes_toBeBytes hbound
    have htwo : ¬ (toBeBytes 2 value.length ++ value ++ rest).length < 2 := by
      simp only [List.length_append, length_toBeBytes]
      omega
    rw [if_neg htwo, htake, hdrop, hlength]
    simp

/-- A value of a layout, read. -/
def readLayout (valueType : UInt8) (encoded : Bytes) :
    Layout → Except FrameError (Option String × Bytes)
  | .fixed length => (skipBedrockHeaderBytes encoded length).map ((none, ·))
  | .sized =>
      match bedrockSizedValue encoded with
      | .error error => .error error
      | .ok (content, rest) =>
          if valueType = textType then
            match fromUtf8 content with
            | none => .error .invalidBedrockFrame
            | some text => .ok (some text, rest)
          else .ok (none, rest)

/-- The `match` of the source goes by the layout. -/
theorem bedrockHeaderValue_eq (valueType : UInt8) (encoded : Bytes) :
    bedrockHeaderValue valueType encoded =
      (layout valueType).elim (.error .invalidBedrockFrame) (readLayout valueType encoded) := by
  have hskip : Except.map (fun rest => ((none : Option String), rest))
      (skipBedrockHeaderBytes encoded 0) = .ok (none, encoded) := by
    simp [skipBedrockHeaderBytes, Except.map]
  have htext : valueType = textType ↔ valueType.toNat = 7 := by
    rw [← UInt8.toNat_inj]
    rfl
  unfold bedrockHeaderValue
  split
  case h_1 hn | h_2 hn =>
    simp only [layout, hn, Option.elim_some, readLayout]
    exact hskip.symm
  case h_8 hn | h_9 hn =>
    simp only [layout, hn, Option.elim_some, readLayout, htext]
    cases bedrockSizedValue encoded <;> rfl
  case h_11 h0 h1 h2 h3 h4 h5 h8 h6 h7 h9 =>
    have hnone : layout valueType = none := by
      unfold layout
      split <;> first | rfl | contradiction
    rw [hnone]
    rfl
  all_goals
    rename_i hn
    simp only [layout, hn, Option.elim_some, readLayout]

/-- **Reading a value**: what is read is the value that is written, and
what is kept of it is its text. -/
theorem bedrockHeaderValue_eq_ok_iff {valueType : UInt8} {encoded rest : Bytes}
    {text : Option String} :
    bedrockHeaderValue valueType encoded = .ok (text, rest) ↔
      ∃ value : HeaderValue, value.valueType = valueType ∧ encoded = value.body ++ rest ∧
        value.text? = text := by
  rw [bedrockHeaderValue_eq]
  rcases hlayout : layout valueType with _ | length | _
  · refine iff_of_false (by simp) ?_
    rintro ⟨value, rfl, -, -⟩
    exact layout_of_fits value.fits hlayout
  · have hother : valueType ≠ textType := by
      rintro rfl
      rw [layout_textType] at hlayout
      cases hlayout
    rw [Option.elim_some, readLayout, map_eq_ok_iff]
    constructor
    · rintro ⟨left, hleft, hpair⟩
      obtain ⟨rfl, rfl⟩ := Prod.mk.inj hpair
      obtain ⟨content, hlength, rfl⟩ := skipBedrockHeaderBytes_eq_ok_iff.mp hleft
      refine ⟨⟨valueType, content, (fits_fixed hlayout _).mpr hlength⟩, rfl, ?_, if_neg hother⟩
      rw [HeaderValue.body_fixed hlayout]
    · rintro ⟨value, rfl, rfl, rfl⟩
      have hlength := (fits_fixed hlayout _).mp value.fits
      refine ⟨rest, skipBedrockHeaderBytes_eq_ok_iff.mpr ⟨value.content, hlength, ?_⟩, ?_⟩
      · rw [HeaderValue.body_fixed hlayout]
      · rw [HeaderValue.text?, if_neg hother]
  · rw [Option.elim_some, readLayout]
    constructor
    · intro h
      cases hsized : bedrockSizedValue encoded with
      | error error => simp [hsized] at h
      | ok sized =>
          obtain ⟨content, left⟩ := sized
          obtain ⟨hbound, rfl⟩ := bedrockSizedValue_eq_ok_iff.mp hsized
          simp only [hsized] at h
          by_cases htext : valueType = textType
          · rw [if_pos htext] at h
            cases hread : fromUtf8 content with
            | none => simp [hread] at h
            | some read =>
                simp only [hread, Except.ok.injEq, Prod.mk.injEq] at h
                obtain ⟨rfl, rfl⟩ := h
                have hfits := (fits_sized hlayout content).mpr ⟨hbound, fun _ => by simp [hread]⟩
                refine ⟨⟨valueType, content, hfits⟩, rfl, ?_, ?_⟩
                · rw [HeaderValue.body_sized hlayout]
                · rw [HeaderValue.text?, if_pos htext, hread]
          · rw [if_neg htext, Except.ok.injEq, Prod.mk.injEq] at h
            obtain ⟨rfl, rfl⟩ := h
            have hfits := (fits_sized hlayout content).mpr ⟨hbound, fun h => absurd h htext⟩
            refine ⟨⟨valueType, content, hfits⟩, rfl, ?_, ?_⟩
            · rw [HeaderValue.body_sized hlayout]
            · rw [HeaderValue.text?, if_neg htext]
    · rintro ⟨value, rfl, rfl, rfl⟩
      have hfits := (fits_sized hlayout _).mp value.fits
      have hsized : bedrockSizedValue (value.body ++ rest) = .ok (value.content, rest) := by
        rw [bedrockSizedValue_eq_ok_iff, HeaderValue.body_sized hlayout]
        exact ⟨hfits.1, rfl⟩
      simp only [hsized, HeaderValue.text?]
      by_cases htext : value.valueType = textType
      · obtain ⟨read, hread⟩ := Option.isSome_iff_exists.mp (hfits.2 htext)
        simp only [if_pos htext, hread]
      · simp only [if_neg htext]

/-! ## Records -/

/-- **A header**: a name of one to 255 bytes and a typed value. -/
structure HeaderRecord where
  name : String
  value : HeaderValue
  name_length : 0 < (asBytes name).length ∧ (asBytes name).length < 256

namespace HeaderRecord

/-- A header as it is written. -/
def encode (record : HeaderRecord) : Bytes :=
  UInt8.ofNat (asBytes record.name).length ::
    (asBytes record.name ++ record.value.valueType :: record.value.body)

/-- Whether a name begins with a colon. -/
def reserved (record : HeaderRecord) : Bool := startsWithStr record.name ":"

theorem toNat_name_length (record : HeaderRecord) :
    (UInt8.ofNat (asBytes record.name).length).toNat = (asBytes record.name).length := by
  have hlt := record.name_length.2
  rw [UInt8.toNat_ofNat']
  omega

theorem encode_append_inj {record record' : HeaderRecord} {rest rest' : Bytes}
    (h : record.encode ++ rest = record'.encode ++ rest') : record = record' ∧ rest = rest' := by
  simp only [encode, List.cons_append, List.append_assoc] at h
  obtain ⟨hlength, htail⟩ := List.cons.inj h
  have hsame : (asBytes record.name).length = (asBytes record'.name).length := by
    rw [← toNat_name_length record, hlength, toNat_name_length record']
  obtain ⟨hname, hvalue⟩ := List.append_inj htail hsame
  obtain ⟨htype, hbody⟩ := List.cons.inj hvalue
  obtain ⟨hvalue, hrest⟩ := HeaderValue.body_append_inj htype hbody
  obtain ⟨name, value, hlt⟩ := record
  obtain ⟨name', value', hlt'⟩ := record'
  obtain rfl : name = name' := asBytes_injective hname
  obtain rfl : value = value' := hvalue
  exact ⟨rfl, hrest⟩

end HeaderRecord

/-- The code of headers. -/
def headerCode : PrefixCode UInt8 HeaderRecord where
  encode := HeaderRecord.encode
  encode_ne_nil _ := List.cons_ne_nil _ _
  encode_append_inj := HeaderRecord.encode_append_inj

/-! ## The loop -/

/-- What the loop does with a header, once it is read: a text under a name
with a colon is kept, if it is the first one. -/
def keepRecord (headers : Table String String) (record : HeaderRecord) :
    Except FrameError (Table String String) :=
  keepHeader headers record.name record.value.text?

theorem keepRecord_eq (headers : Table String String) (record : HeaderRecord) :
    keepRecord headers record =
      if record.reserved then
        match record.value.text? with
        | none => .error .invalidBedrockFrame
        | some text =>
            if headers.contains record.name then .error .invalidBedrockFrame
            else .ok (headers.insert record.name text)
      else .ok headers :=
  rfl

/-- One pass of the loop reads the header at the front. -/
theorem decode_record (headers : Table String String) (record : HeaderRecord) (rest : Bytes) :
    decodeBedrockHeadersFrom headers (record.encode ++ rest) =
      keepRecord headers record >>= fun headers => decodeBedrockHeadersFrom headers rest := by
  have hencode : record.encode ++ rest = UInt8.ofNat (asBytes record.name).length ::
      (asBytes record.name ++ record.value.valueType :: (record.value.body ++ rest)) := by
    simp [HeaderRecord.encode]
  have hlength := record.toNat_name_length
  have hpos := record.name_length.1
  have hlong : ¬ (UInt8.ofNat (asBytes record.name).length = 0 ∨
      (asBytes record.name ++ record.value.valueType :: (record.value.body ++ rest)).length <
        (UInt8.ofNat (asBytes record.name).length).toNat + 1) := by
    rw [hlength, ← UInt8.toNat_inj, hlength, List.length_append, List.length_cons]
    simp only [UInt8.toNat_zero]
    omega
  have hvalue : bedrockHeaderValue record.value.valueType (record.value.body ++ rest) =
      .ok (record.value.text?, rest) :=
    bedrockHeaderValue_eq_ok_iff.mpr ⟨record.value, rfl, rfl, rfl⟩
  rw [hencode, decodeBedrockHeadersFrom, if_neg hlong]
  simp only [hlength, List.take_left, fromUtf8_asBytes]
  split
  · rename_i hdrop
    rw [hlength, List.drop_left] at hdrop
    cases hdrop
  · rename_i valueType valueBytes hdrop
    rw [hlength, List.drop_left] at hdrop
    obtain ⟨rfl, rfl⟩ := List.cons.inj hdrop
    split
    · rename_i hread
      rw [hvalue] at hread
      cases hread
    · rename_i value left hread
      have hsame := hvalue.symm.trans hread
      simp only [Except.ok.injEq, Prod.mk.injEq] at hsame
      obtain ⟨htext, rfl⟩ := hsame
      rw [keepRecord, htext]
      cases keepHeader headers record.name value <;> rfl

/-- The loop fails where there is no header at the front. -/
theorem decode_stuck (headers : Table String String) {text : Bytes} (hstuck : headerCode.Stuck text)
    (hne : text ≠ []) : decodeBedrockHeadersFrom headers text = .error .invalidBedrockFrame := by
  obtain ⟨nameLength, encoded, rfl⟩ := List.exists_cons_of_ne_nil hne
  rw [decodeBedrockHeadersFrom]
  split
  · rfl
  · rename_i hlong
    split
    · rfl
    · rename_i name hname
      split
      · rfl
      · rename_i valueType valueBytes hdrop
        split
        · rfl
        · rename_i value rest hvalue
          -- all of a header has been read, so that there is one
          obtain ⟨value, rfl, rfl, -⟩ := bedrockHeaderValue_eq_ok_iff.mp hvalue
          have hbytes : asBytes name = encoded.take nameLength.toNat := asBytes_of_fromUtf8 hname
          have hlength : (asBytes name).length = nameLength.toNat := by
            rw [hbytes, List.length_take]
            omega
          have hpos : 0 < nameLength.toNat := by
            have hzero : nameLength ≠ 0 := fun h => hlong (.inl h)
            rw [← UInt8.toNat_inj.ne] at hzero
            simp only [UInt8.toNat_zero] at hzero
            omega
          have hlt := nameLength.toNat_lt
          refine absurd ?_ (hstuck ⟨name, value, by omega⟩ rest)
          simp only [headerCode, HeaderRecord.encode, List.cons_append, List.append_assoc]
          rw [hlength, UInt8.ofNat_toNat, hbytes, ← hdrop, List.take_append_drop]

/-- **The loop goes through the headers**, as far as they go. -/
theorem decode_encodeAll (headers : Table String String) (records : List HeaderRecord)
    {rest : Bytes} (hstuck : headerCode.Stuck rest) :
    decodeBedrockHeadersFrom headers (headerCode.encodeAll records ++ rest) =
      records.foldlM keepRecord headers >>= fun headers =>
        if rest = [] then .ok headers else .error .invalidBedrockFrame := by
  induction records generalizing headers with
  | nil =>
      by_cases hrest : rest = []
      · subst hrest
        rw [PrefixCode.encodeAll_nil, List.nil_append, decodeBedrockHeadersFrom]
        rfl
      · rw [PrefixCode.encodeAll_nil, List.nil_append, decode_stuck headers hstuck hrest]
        simp [hrest]
  | cons record records ih =>
      rw [PrefixCode.encodeAll_cons, List.append_assoc]
      have hstep := decode_record headers record (headerCode.encodeAll records ++ rest)
      rw [show headerCode.encode record = record.encode from rfl, hstep, List.foldlM_cons]
      cases keepRecord headers record with
      | error error => rfl
      | ok kept => exact ih kept

/-! ## The grammar -/

/-- **What an accepted slice is**: under a name with a colon there is a
text, and no such name occurs twice. -/
structure WellFormed (records : List HeaderRecord) : Prop where
  texts : ∀ record ∈ records, record.reserved = true → record.value.valueType = textType
  distinct : ((records.filter HeaderRecord.reserved).map HeaderRecord.name).Nodup

/-- A text stands under a name with a colon. -/
def Kept (records : List HeaderRecord) (name text : String) : Prop :=
  ∃ record ∈ records, record.reserved = true ∧ record.name = name ∧ record.value.text? = some text

theorem wellFormed_cons {record : HeaderRecord} {records : List HeaderRecord} :
    WellFormed (record :: records) ↔ WellFormed records ∧ (record.reserved = true →
      record.value.valueType = textType ∧
        ∀ other ∈ records, other.reserved = true → other.name ≠ record.name) := by
  constructor
  · rintro ⟨htexts, hdistinct⟩
    by_cases hreserved : record.reserved = true
    · rw [List.filter_cons_of_pos hreserved, List.map_cons, List.nodup_cons] at hdistinct
      refine ⟨⟨fun other hother => htexts other (List.mem_cons_of_mem _ hother), hdistinct.2⟩,
        fun _ => ⟨htexts record List.mem_cons_self hreserved, fun other hother hcolon hname => ?_⟩⟩
      refine hdistinct.1 (List.mem_map.mpr ⟨other, ?_, hname⟩)
      exact List.mem_filter.mpr ⟨hother, hcolon⟩
    · rw [List.filter_cons_of_neg hreserved] at hdistinct
      exact ⟨⟨fun other hother => htexts other (List.mem_cons_of_mem _ hother), hdistinct⟩,
        fun h => absurd h hreserved⟩
  · rintro ⟨⟨htexts, hdistinct⟩, hrecord⟩
    refine ⟨?_, ?_⟩
    · intro other hother hcolon
      rcases List.mem_cons.mp hother with rfl | hother
      · exact (hrecord hcolon).1
      · exact htexts other hother hcolon
    · by_cases hreserved : record.reserved = true
      · rw [List.filter_cons_of_pos hreserved, List.map_cons, List.nodup_cons]
        refine ⟨fun hmem => ?_, hdistinct⟩
        obtain ⟨other, hother, hname⟩ := List.mem_map.mp hmem
        obtain ⟨hother, hcolon⟩ := List.mem_filter.mp hother
        exact (hrecord hreserved).2 other hother hcolon hname
      · rwa [List.filter_cons_of_neg hreserved]

theorem kept_cons {record : HeaderRecord} {records : List HeaderRecord} {name text : String} :
    Kept (record :: records) name text ↔
      (record.reserved = true ∧ record.name = name ∧ record.value.text? = some text) ∨
        Kept records name text := by
  simp [Kept]

theorem getElem?_insert_eq_some_iff {table : Table String String} {key value : String}
    (h : key ∉ table) {key' value' : String} :
    (table.insert key value)[key']? = some value' ↔
      table[key']? = some value' ∨ key = key' ∧ value = value' := by
  rw [Std.ExtTreeMap.getElem?_insert]
  by_cases hkey : key = key'
  · subst hkey
    have hnone : table[key]? = none := Std.ExtTreeMap.getElem?_eq_none h
    simp [hnone]
  · simp [hkey]

/-- **What the loop keeps**: it succeeds on headers that are well formed
and under no name it has, and keeps what they have. -/
theorem foldlM_keepRecord_eq_ok_iff {records : List HeaderRecord}
    {headers kept : Table String String} :
    records.foldlM keepRecord headers = .ok kept ↔
      WellFormed records ∧ (∀ record ∈ records, record.reserved = true → record.name ∉ headers) ∧
        ∀ name text, kept[name]? = some text ↔
          headers[name]? = some text ∨ Kept records name text := by
  induction records generalizing headers with
  | nil =>
      have hnil : WellFormed [] := ⟨by simp, by simp⟩
      have hnone : ∀ name text, ¬ Kept [] name text := by simp [Kept]
      rw [List.foldlM_nil]
      constructor
      · rintro ⟨⟩
        exact ⟨hnil, by simp, fun name text => by simp [hnone]⟩
      · rintro ⟨-, -, hkept⟩
        have hsame : headers = kept := by
          refine Std.ExtTreeMap.ext_getElem? fun name => Option.ext fun text => ?_
          simpa [hnone] using (hkept name text).symm
        rw [hsame]
        rfl
  | cons record records ih =>
      rw [List.foldlM_cons, wellFormed_cons]
      by_cases hreserved : record.reserved = true
      · cases htext : record.value.text? with
        | none =>
            have hother : record.value.valueType ≠ textType := by
              rw [Ne, ← HeaderValue.exists_text_iff]
              simp [htext]
            have hkeep : keepRecord headers record = .error .invalidBedrockFrame := by
              simp [keepRecord_eq, hreserved, htext]
            rw [hkeep]
            refine iff_of_false nofun ?_
            rintro ⟨⟨-, hrecord⟩, -, -⟩
            exact hother (hrecord hreserved).1
        | some text =>
            have htype : record.value.valueType = textType :=
              record.value.exists_text_iff.mp ⟨text, htext⟩
            by_cases hmem : record.name ∈ headers
            · have hkeep : keepRecord headers record = .error .invalidBedrockFrame := by
                simp [keepRecord_eq, hreserved, htext, hmem]
              rw [hkeep]
              refine iff_of_false nofun ?_
              rintro ⟨-, hnew, -⟩
              exact hnew record List.mem_cons_self hreserved hmem
            · have hkeep : keepRecord headers record = .ok (headers.insert record.name text) := by
                simp [keepRecord_eq, hreserved, htext, hmem]
              rw [hkeep]
              change records.foldlM keepRecord (headers.insert record.name text) = .ok kept ↔ _
              rw [ih]
              have hmapped : ∀ name text', (headers.insert record.name text)[name]? = some text' ↔
                  headers[name]? = some text' ∨ record.name = name ∧ text = text' :=
                fun name text' => getElem?_insert_eq_some_iff hmem
              constructor
              · rintro ⟨hformed, hnew, hkept⟩
                refine ⟨⟨hformed, fun _ => ⟨htype, fun other hother hcolon hname => ?_⟩⟩, ?_, ?_⟩
                · refine hnew other hother hcolon ?_
                  simp [hname]
                · intro other hother hcolon
                  rcases List.mem_cons.mp hother with rfl | hother
                  · exact hmem
                  · have hnotMem := hnew other hother hcolon
                    rw [Std.ExtTreeMap.mem_insert, not_or] at hnotMem
                    exact hnotMem.2
                · intro name text'
                  rw [hkept, hmapped, kept_cons, or_assoc]
                  simp [hreserved, htext]
              · rintro ⟨⟨hformed, hrecord⟩, hnew, hkept⟩
                refine ⟨hformed, fun other hother hcolon => ?_, fun name text' => ?_⟩
                · rw [Std.ExtTreeMap.mem_insert, not_or]
                  refine ⟨?_, hnew other (List.mem_cons_of_mem _ hother) hcolon⟩
                  rw [Std.LawfulEqCmp.compare_eq_iff_eq]
                  exact ((hrecord hreserved).2 other hother hcolon).symm
                · rw [hkept, hmapped, kept_cons, or_assoc]
                  simp [hreserved, htext]
      · have hkeep : keepRecord headers record = .ok headers := by
          simp [keepRecord_eq, hreserved]
        rw [hkeep]
        change records.foldlM keepRecord headers = .ok kept ↔ _
        rw [ih]
        simp [hreserved, kept_cons]

/-- What well-formed headers have under their names with a colon is a
table. -/
theorem WellFormed.exists_kept {records : List HeaderRecord} (h : WellFormed records) :
    ∃ headers : Table String String, ∀ name text, headers[name]? = some text ↔
      Kept records name text := by
  induction records with
  | nil => exact ⟨∅, by simp [Kept]⟩
  | cons record records ih =>
      obtain ⟨hformed, hrecord⟩ := wellFormed_cons.mp h
      obtain ⟨headers, hkept⟩ := ih hformed
      by_cases hreserved : record.reserved = true
      · obtain ⟨htype, hnew⟩ := hrecord hreserved
        obtain ⟨text, htext⟩ := record.value.exists_text_iff.mpr htype
        have hmem : record.name ∉ headers := by
          intro hmem
          obtain ⟨text', htext'⟩ := Option.isSome_iff_exists.mp
            (Std.ExtTreeMap.mem_iff_isSome_getElem?.mp hmem)
          obtain ⟨other, hother, hcolon, hname, -⟩ := (hkept _ _).mp htext'
          exact hnew other hother hcolon hname
        refine ⟨headers.insert record.name text, fun name text' => ?_⟩
        rw [getElem?_insert_eq_some_iff hmem, hkept, kept_cons, or_comm]
        simp [hreserved, htext]
      · refine ⟨headers, fun name text => ?_⟩
        rw [hkept, kept_cons]
        simp [hreserved]

/-- Well-formed headers that are written are read back. -/
theorem decodeBedrockHeaders_encodeAll {records : List HeaderRecord} (h : WellFormed records) :
    ∃ headers, decodeBedrockHeaders (headerCode.encodeAll records) = .ok headers ∧
      ∀ name text, headers[name]? = some text ↔ Kept records name text := by
  obtain ⟨headers, hkept⟩ := h.exists_kept
  have hloop : records.foldlM keepRecord ∅ = .ok headers :=
    foldlM_keepRecord_eq_ok_iff.mpr ⟨h, by simp, fun name text => by simpa using hkept name text⟩
  have hdecode := decode_encodeAll ∅ records headerCode.stuck_nil
  rw [hloop, List.append_nil] at hdecode
  exact ⟨headers, hdecode, hkept⟩

/-- **The headers that are accepted are those of the grammar.** A slice is
accepted exactly if it is a sequence of headers in which there are texts
under the names with a colon, and no two of these names are the same; what
is kept is these names with their texts. No slice is a sequence of headers
in two ways. -/
theorem decodeBedrockHeaders_grammar (encoded : Bytes) (headers : Table String String) :
    (decodeBedrockHeaders encoded = .ok headers ↔
      ∃ records, encoded = headerCode.encodeAll records ∧ WellFormed records ∧
        ∀ name text, headers[name]? = some text ↔ Kept records name text) ∧
    ∀ records records', encoded = headerCode.encodeAll records →
      encoded = headerCode.encodeAll records' → records = records' := by
  refine ⟨?_, fun records records' h h' => headerCode.encodeAll_injective (h.symm.trans h')⟩
  obtain ⟨records, rest, rfl, hstuck⟩ := headerCode.exists_parse encoded
  rw [decodeBedrockHeaders, decode_encodeAll ∅ records hstuck]
  by_cases hrest : rest = []
  · subst hrest
    have hloop : (records.foldlM keepRecord ∅ >>= fun headers =>
        if ([] : Bytes) = [] then .ok headers else .error .invalidBedrockFrame) =
        records.foldlM keepRecord ∅ := by
      simp only [if_true]
      exact bind_pure _
    rw [hloop, foldlM_keepRecord_eq_ok_iff, List.append_nil]
    constructor
    · rintro ⟨hformed, -, hkept⟩
      exact ⟨records, rfl, hformed, fun name text => by simpa using hkept name text⟩
    · rintro ⟨records', heq, hformed, hkept⟩
      obtain rfl := headerCode.encodeAll_injective heq
      exact ⟨hformed, by simp, fun name text => by simpa using hkept name text⟩
  · refine iff_of_false ?_ ?_
    · simp only [if_neg hrest]
      cases records.foldlM keepRecord ∅ <;> nofun
    · rintro ⟨records', heq, -⟩
      -- what is left over cannot be read on, and a sequence of headers leaves nothing
      have hnil : headerCode.encodeAll records ++ rest = headerCode.encodeAll records' ++ [] := by
        rw [heq, List.append_nil]
      exact hrest (headerCode.encodeAll_append_inj hstuck headerCode.stuck_nil hnil).2

end Bedrock

end Llmap
