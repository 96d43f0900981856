import Llmap.Crates
/-!
# JSON as text

Values are written on one line and read back, as `serde_json` does both:
strings are escaped, the fields of an object are kept in the order of their
names, and of two fields of one name the later counts. Of numbers only
whole ones are read, and of escapes only those that stand for one
character.
-/

namespace Llmap

namespace JsonText

/-! ## Strings -/

/-- The characters that a letter after a backslash stands for. -/
def letters : List (Char × Char) :=
  [('"', '"'), ('\\', '\\'), ('\n', 'n'), ('\r', 'r'), ('\t', 't'), ('\x08', 'b'), ('\x0c', 'f')]

/-- A character of a string, as it is written. -/
def escape (c : Char) : List Char :=
  match letters.lookup c with
  | some letter => ['\\', letter]
  | none => if c.toNat < 32 then '\\' :: 'u' :: '0' :: '0' :: hexByte (UInt8.ofNat c.toNat) else [c]

/-- A string between its quotes. -/
def quote (text : String) : List Char := '"' :: (text.toList.flatMap escape ++ ['"'])

/-- The value of a hexadecimal digit. -/
def hexValue (c : Char) : Option ℕ :=
  if c.isDigit then some (c.toNat - 48)
  else if 'a' ≤ c ∧ c ≤ 'f' then some (c.toNat - 87)
  else if 'A' ≤ c ∧ c ≤ 'F' then some (c.toNat - 55)
  else none

/-- The character of four hexadecimal digits. -/
def codePoint (digits : List Char) : Option Char :=
  (digits.mapM hexValue).bind fun values =>
    let code := values.foldl (fun n value => 16 * n + value) 0
    if code.isValidChar then some (Char.ofNat code) else none

/-- The character that a letter after a backslash stands for. -/
def unescape (letter : Char) : Option Char :=
  if letter = '/' then some '/' else (letters.find? (·.2 = letter)).map Prod.fst

/-- The string that ends at the next quote, after what has been read of it,
and what follows. -/
def unquote : List Char → List Char → Option (String × List Char)
  | [], _ => none
  | c :: rest, read =>
      if c = '"' then some (String.ofList read.reverse, rest)
      else if c = '\\' then
        match rest with
        | 'u' :: a :: b :: c :: d :: rest =>
            (codePoint [a, b, c, d]).bind fun code => unquote rest (code :: read)
        | letter :: rest => (unescape letter).bind fun code => unquote rest (code :: read)
        | [] => none
      else if c.toNat < 32 then none
      else unquote rest (c :: read)

theorem codePoint_hexByte : ∀ n < 32,
    codePoint ('0' :: '0' :: hexByte (UInt8.ofNat n)) = some (Char.ofNat n) := by decide

theorem unescape_letters : ∀ entry ∈ letters,
    unescape entry.2 = some entry.1 ∧ entry.2 ≠ 'u' := by decide

theorem mem_of_lookup {c letter : Char} (h : letters.lookup c = some letter) :
    (c, letter) ∈ letters := by
  obtain ⟨front, back, hsplit, -⟩ := List.lookup_eq_some_iff.mp h
  rw [hsplit]
  simp

theorem lookup_quote : letters.lookup '"' = some '"' := rfl

theorem lookup_backslash : letters.lookup '\\' = some '\\' := rfl

/-- An escaped character is read as itself. -/
theorem unquote_escape (c : Char) (rest read : List Char) :
    unquote (escape c ++ rest) read = unquote rest (c :: read) := by
  unfold escape
  split
  · rename_i letter hletter
    obtain ⟨hback, hne⟩ : unescape letter = some c ∧ letter ≠ 'u' :=
      unescape_letters _ (mem_of_lookup hletter)
    rw [List.cons_append, List.cons_append, List.nil_append, unquote.eq_def]
    simp only [Char.reduceEq, if_false, if_true]
    split
    · rename_i heq
      exact absurd (List.cons.inj heq).1 hne
    · rename_i heq
      obtain ⟨rfl, rfl⟩ := List.cons.inj heq
      rw [hback, Option.bind_some]
    · rename_i heq
      cases heq
  · rename_i hplain
    have hquote : c ≠ '"' := by
      rintro rfl
      rw [lookup_quote] at hplain
      cases hplain
    have hbackslash : c ≠ '\\' := by
      rintro rfl
      rw [lookup_backslash] at hplain
      cases hplain
    split
    · rename_i hcontrol
      have hcode := codePoint_hexByte c.toNat hcontrol
      rw [Char.ofNat_toNat] at hcode
      simp only [hexByte, List.cons_append, List.nil_append] at hcode ⊢
      rw [unquote.eq_def]
      simp only [Char.reduceEq, if_false, if_true, hcode, Option.bind_some]
    · rename_i hcontrol
      rw [List.cons_append, List.nil_append, unquote.eq_def]
      simp only [hquote, hbackslash, hcontrol, if_false]

/-- **A quoted string is read back.** -/
theorem unquote_quote (text : String) (rest : List Char) :
    unquote (text.toList.flatMap escape ++ '"' :: rest) [] = some (text, rest) := by
  -- the induction is over the characters still to be read, after any others
  have hread : ∀ cs read : List Char, unquote (cs.flatMap escape ++ '"' :: rest) read =
      some (String.ofList (read.reverse ++ cs), rest) := by
    intro cs
    induction cs with
    | nil =>
        intro read
        rw [List.flatMap_nil, List.nil_append, unquote.eq_def]
        simp
    | cons c cs ih =>
        intro read
        rw [List.flatMap_cons, List.append_assoc, unquote_escape, ih]
        simp
  rw [hread, List.reverse_nil, List.nil_append, String.ofList_toList]

/-! ## Values -/

/-- A whole number: digits, without a zero before others, after a sign or
none. -/
def isNumber (text : List Char) : Bool :=
  match text with
  | '-' :: '0' :: rest => rest.isEmpty
  | '-' :: digits => !digits.isEmpty && digits.all Char.isDigit
  | '0' :: rest => rest.isEmpty
  | digits => !digits.isEmpty && digits.all Char.isDigit

mutual

/-- The text of a value. A number that has none is `null`. -/
def write : Json → List Char
  | .null => "null".toList
  | .bool value => (if value then "true" else "false").toList
  | .number text => if isNumber text.toList then text.toList else "null".toList
  | .string value => quote value
  | .array items => '[' :: (writeItems items ++ [']'])
  | .object fields => '\x7b' :: (writeFields fields ++ ['\x7d'])

/-- Items are separated by commas. -/
def writeItems : List Json → List Char
  | [] => []
  | [item] => write item
  | item :: next :: items => write item ++ ',' :: writeItems (next :: items)

/-- So are fields. -/
def writeFields : List (String × Json) → List Char
  | [] => []
  | [field] => writeField field
  | field :: next :: fields => writeField field ++ ',' :: writeFields (next :: fields)

/-- A field is its name and its value. -/
def writeField : String × Json → List Char
  | (key, value) => quote key ++ ':' :: write value

end

/-- White space between the parts of a text. -/
def skip (text : List Char) : List Char :=
  text.dropWhile fun c => c = ' ' || c = '\n' || c = '\r' || c = '\t'

/-- A field goes where the order of the names has it, and replaces another of
its name. -/
def insertField (key : String) (value : Json) : List (String × Json) → List (String × Json)
  | [] => [(key, value)]
  | field :: fields =>
      if key = field.1 then (key, value) :: fields
      else if key < field.1 then (key, value) :: field :: fields
      else field :: insertField key value fields

theorem lookup_field (name : String) (field : String × Json) (fields : List (String × Json)) :
    (field :: fields).lookup name =
      if name = field.1 then some field.2 else fields.lookup name := by
  rw [List.lookup_cons]
  by_cases hname : name = field.1
  · simp [hname]
  · simp [hname, beq_false_of_ne hname]

/-- A field that is put in is found, and the others are as before. -/
theorem lookup_insertField (name key : String) (value : Json) (fields : List (String × Json)) :
    (insertField key value fields).lookup name =
      if name = key then some value else fields.lookup name := by
  induction fields with
  | nil => exact lookup_field name (key, value) []
  | cons field fields ih =>
      unfold insertField
      split
      · rename_i hkey
        rw [lookup_field, lookup_field, ← hkey]
        split <;> rfl
      · rename_i hkey
        split
        · exact lookup_field name (key, value) (field :: fields)
        · rw [lookup_field, lookup_field, ih]
          by_cases hname : name = key
          · rw [if_neg (hname ▸ hkey), if_pos hname, if_pos hname]
          · simp only [if_neg hname]

/-- A word or a number at the front of a text. -/
def readWord (text : List Char) : Option (Json × List Char) :=
  let word := text.takeWhile fun c => c.isAlphanum || c = '-'
  let rest := text.dropWhile fun c => c.isAlphanum || c = '-'
  if word = "null".toList then some (.null, rest)
  else if word = "true".toList then some (.bool true, rest)
  else if word = "false".toList then some (.bool false, rest)
  else if isNumber word then some (.number (String.ofList word), rest)
  else none

mutual

/-- The value at the front of a text, and what follows. -/
def read : ℕ → List Char → Option (Json × List Char)
  | 0, _ => none
  | fuel + 1, text =>
      match skip text with
      | '"' :: rest => (unquote rest []).map fun (value, rest) => (.string value, rest)
      | '[' :: rest =>
          match skip rest with
          | ']' :: rest => some (.array [], rest)
          | rest => (readItems fuel rest).map fun (items, rest) => (.array items, rest)
      | '\x7b' :: rest =>
          match skip rest with
          | '\x7d' :: rest => some (.object [], rest)
          | rest => (readFields fuel rest []).map fun (fields, rest) => (.object fields, rest)
      | rest => readWord rest

/-- The items up to a closing bracket. -/
def readItems : ℕ → List Char → Option (List Json × List Char)
  | 0, _ => none
  | fuel + 1, text =>
      (read fuel text).bind fun (item, rest) =>
        match skip rest with
        | ']' :: rest => some ([item], rest)
        | ',' :: rest => (readItems fuel rest).map fun (items, rest) => (item :: items, rest)
        | _ => none

/-- The fields up to a closing brace, after those that have been read. -/
def readFields : ℕ → List Char → List (String × Json) → Option (List (String × Json) × List Char)
  | 0, _, _ => none
  | fuel + 1, text, fields =>
      match skip text with
      | '"' :: rest =>
          (unquote rest []).bind fun (key, rest) =>
            match skip rest with
            | ':' :: rest =>
                (read fuel rest).bind fun (value, rest) =>
                  match skip rest with
                  | '\x7d' :: rest => some (insertField key value fields, rest)
                  | ',' :: rest => readFields fuel rest (insertField key value fields)
                  | _ => none
            | _ => none
      | _ => none

end

/-- The text of a value. -/
def print (value : Json) : String := String.ofList (write value)

/-- The characters of a text. A text of ASCII has one for each byte. -/
def characters (bytes : Bytes) : Option (List Char) :=
  if bytes.all (·.toNat < 128) then some (bytes.map fun byte => Char.ofNat byte.toNat)
  else (fromUtf8 bytes).map String.toList

/-- The value of a text, and of nothing that is not one. -/
def parse (bytes : Bytes) : Option Json :=
  (characters bytes).bind fun document =>
  (read (document.length + 1) document).bind fun (value, rest) =>
    if skip rest = [] then some value else none

/-! ## What is written -/

theorem newline_notMem_escape (c : Char) : '\n' ∉ escape c := by
  unfold escape
  split
  · rename_i letter hletter
    have hsafe : ∀ entry ∈ letters, entry.2 ≠ '\n' := by decide
    simpa using (hsafe _ (mem_of_lookup hletter)).symm
  · rename_i hplain
    split
    · rename_i hcontrol
      have hhex : ∀ n < 32, '\n' ∉ '\\' :: 'u' :: '0' :: '0' :: hexByte (UInt8.ofNat n) := by decide
      exact hhex _ hcontrol
    · rename_i hcontrol
      intro h
      obtain rfl := List.mem_singleton.mp h
      exact hcontrol (by decide)

theorem newline_notMem_quote (text : String) : '\n' ∉ quote text := by
  intro h
  have hmem : '\n' ∈ text.toList.flatMap escape := by simpa [quote] using h
  obtain ⟨c, -, hc⟩ := List.mem_flatMap.mp hmem
  exact newline_notMem_escape c hc

theorem newline_notMem_number {text : List Char} (h : isNumber text = true) : '\n' ∉ text := by
  have hdigits : ∀ digits : List Char, digits.all Char.isDigit = true → '\n' ∉ digits := by
    intro digits hall hmem
    exact absurd (List.all_eq_true.mp hall _ hmem) (by decide)
  unfold isNumber at h
  split at h
  · obtain rfl := List.isEmpty_iff.mp h
    decide
  · rw [Bool.and_eq_true] at h
    simpa using hdigits _ h.2
  · obtain rfl := List.isEmpty_iff.mp h
    decide
  · rw [Bool.and_eq_true] at h
    exact hdigits _ h.2

mutual

/-- A value is written on one line. -/
theorem newline_notMem_write : ∀ value : Json, '\n' ∉ write value
  | .null => by decide
  | .bool value => by cases value <;> decide
  | .number text => by
      rw [write]
      split
      · rename_i hnumber
        exact newline_notMem_number hnumber
      · decide
  | .string value => by
      rw [write]
      exact newline_notMem_quote value
  | .array items => by
      have hitems := newline_notMem_writeItems items
      simpa [write] using hitems
  | .object fields => by
      have hfields := newline_notMem_writeFields fields
      simpa [write] using hfields

theorem newline_notMem_writeItems : ∀ items : List Json, '\n' ∉ writeItems items
  | [] => by simp [writeItems]
  | [item] => by
      rw [writeItems]
      exact newline_notMem_write item
  | item :: next :: items => by
      have hitem := newline_notMem_write item
      have hitems := newline_notMem_writeItems (next :: items)
      simp [writeItems, hitem, hitems]

theorem newline_notMem_writeFields : ∀ fields : List (String × Json), '\n' ∉ writeFields fields
  | [] => by simp [writeFields]
  | [field] => by
      rw [writeFields]
      exact newline_notMem_writeField field
  | field :: next :: fields => by
      have hfield := newline_notMem_writeField field
      have hfields := newline_notMem_writeFields (next :: fields)
      simp [writeFields, hfield, hfields]

theorem newline_notMem_writeField : ∀ field : String × Json, '\n' ∉ writeField field
  | (key, value) => by
      have hvalue := newline_notMem_write value
      simp [writeField, newline_notMem_quote, hvalue]

end

theorem newline_notMem_print (value : Json) : '\n' ∉ (print value).toList := by
  rw [print, String.toList_ofList]
  exact newline_notMem_write value

theorem write_ne_nil (value : Json) : write value ≠ [] := by
  cases value with
  | null => decide
  | bool value => cases value <;> decide
  | number text =>
      rw [write]
      split
      · rename_i hnumber
        intro hnil
        rw [hnil] at hnumber
        cases hnumber
      · decide
  | string value => simp [write, quote]
  | array items => simp [write]
  | object fields => simp [write]

theorem print_ne_empty (value : Json) : print value ≠ "" := by
  intro h
  refine write_ne_nil value ?_
  rw [← String.toList_ofList (l := write value), ← print, h]
  rfl

/-! ## What is written is read back -/

/-- A value with nothing in it: a string or `null`. -/
def isFlat : Json → Bool
  | .null | .string _ => true
  | _ => false

/-- A flat value is read in one step, up to a comma or what closes a list. -/
theorem read_write {value : Json} (hflat : isFlat value = true) (fuel : ℕ) {c : Char}
    (hc : c = ',' ∨ c = ']' ∨ c = '\x7d') (rest : List Char) :
    read (fuel + 1) (write value ++ c :: rest) = some (value, c :: rest) := by
  cases value with
  | null => rcases hc with rfl | rfl | rfl <;> simp [write, read, skip, readWord]
  | string text =>
      have hquoted : write (.string text) ++ c :: rest =
          '"' :: (text.toList.flatMap escape ++ '"' :: c :: rest) := by
        simp [write, quote]
      rw [hquoted]
      simp [read, skip, unquote_quote]
  | bool value => cases hflat
  | number text => cases hflat
  | array items => cases hflat
  | object fields => cases hflat

/-- One field is read, up to a comma or a closing brace. -/
theorem readFields_writeField {key : String} {value : Json} (hflat : isFlat value = true)
    (fuel : ℕ) {c : Char} (hc : c = ',' ∨ c = '\x7d') (rest : List Char)
    (fields : List (String × Json)) :
    readFields (fuel + 2) (writeField (key, value) ++ c :: rest) fields =
      if c = ',' then readFields (fuel + 1) rest (insertField key value fields)
      else some (insertField key value fields, rest) := by
  have hwritten : writeField (key, value) ++ c :: rest =
      '"' :: (key.toList.flatMap escape ++ '"' :: ':' :: (write value ++ c :: rest)) := by
    simp [writeField, quote]
  have hread := read_write hflat fuel (hc.imp_right .inr) rest
  rw [hwritten, readFields]
  rcases hc with rfl | rfl <;> simp [skip, unquote_quote, hread]

/-- **So are all of them**, each into its place. -/
theorem readFields_writeFields {fields : List (String × Json)} (hne : fields ≠ [])
    (hflat : ∀ field ∈ fields, isFlat field.2 = true) {fuel : ℕ} (hfuel : fields.length < fuel)
    (rest : List Char) (before : List (String × Json)) :
    readFields fuel (writeFields fields ++ '\x7d' :: rest) before =
      some (fields.foldl (fun read field => insertField field.1 field.2 read) before, rest) := by
  induction fields generalizing fuel before with
  | nil => exact absurd rfl hne
  | cons field fields ih =>
      obtain ⟨key, value⟩ := field
      have hvalue : isFlat value = true := hflat (key, value) (List.mem_cons_self ..)
      obtain ⟨fuel, rfl⟩ : ∃ n, fuel = n + 2 := by
        refine Nat.exists_eq_add_of_le' ?_
        rw [List.length_cons] at hfuel
        omega
      cases fields with
      | nil =>
          rw [writeFields, readFields_writeField hvalue fuel (.inr rfl)]
          rfl
      | cons next fields =>
          rw [writeFields, List.append_assoc, List.cons_append,
            readFields_writeField hvalue fuel (.inl rfl), if_pos rfl]
          refine ih (List.cons_ne_nil _ _) (fun field hfield => ?_) ?_ _
          · exact hflat field (List.mem_cons_of_mem _ hfield)
          · simp only [List.length_cons] at hfuel ⊢
            omega

/-- Flat items are read up to a closing bracket. -/
theorem readItems_writeItems {items : List Json} (hne : items ≠ [])
    (hflat : ∀ item ∈ items, isFlat item = true) {fuel : ℕ} (hfuel : items.length < fuel)
    (rest : List Char) :
    readItems fuel (writeItems items ++ ']' :: rest) = some (items, rest) := by
  induction items generalizing fuel with
  | nil => exact absurd rfl hne
  | cons item items ih =>
      have hitem : isFlat item = true := hflat item (List.mem_cons_self ..)
      obtain ⟨fuel, rfl⟩ : ∃ n, fuel = n + 2 := by
        refine Nat.exists_eq_add_of_le' ?_
        rw [List.length_cons] at hfuel
        omega
      cases items with
      | nil =>
          rw [writeItems, readItems, read_write hitem fuel (.inr (.inl rfl))]
          simp [skip]
      | cons next items =>
          have hfewer : (next :: items).length < fuel + 1 := by
            simp only [List.length_cons] at hfuel ⊢
            omega
          have hrest := ih (List.cons_ne_nil _ _)
            (fun item hitem => hflat item (List.mem_cons_of_mem _ hitem)) hfewer
          rw [writeItems, List.append_assoc, List.cons_append, readItems,
            read_write hitem fuel (.inl rfl)]
          simp [skip, hrest]

/-- Items are at least as long as they are many. -/
theorem length_le_writeItems (items : List Json) : items.length ≤ (writeItems items).length := by
  have hitem : ∀ item, 0 < (write item).length := fun item =>
    List.length_pos_iff.mpr (write_ne_nil item)
  induction items with
  | nil => exact le_rfl
  | cons item items ih =>
      have hpos := hitem item
      cases items with
      | nil => exact hpos
      | cons next items =>
          simp only [writeItems, List.length_append, List.length_cons] at ih ⊢
          omega

/-- Fields are at least as long as they are many. -/
theorem length_le_writeFields (fields : List (String × Json)) :
    fields.length ≤ (writeFields fields).length := by
  have hfield : ∀ field, 0 < (writeField field).length := by
    rintro ⟨key, value⟩
    simp [writeField, quote]
  induction fields with
  | nil => exact le_rfl
  | cons field fields ih =>
      have hpos := hfield field
      cases fields with
      | nil => exact hpos
      | cons next fields =>
          simp only [writeFields, List.length_append, List.length_cons] at ih ⊢
          omega

theorem utf8EncodeChar_ofNat : ∀ n < 128,
    String.utf8EncodeChar (Char.ofNat n) = [UInt8.ofNat n] := by decide

/-- What is read as ASCII is what is read as UTF-8. -/
theorem characters_eq (bytes : Bytes) : characters bytes = (fromUtf8 bytes).map String.toList := by
  unfold characters
  split
  · rename_i hascii
    have hbytes : asBytes (String.ofList (bytes.map fun byte => Char.ofNat byte.toNat)) =
        bytes := by
      rw [asBytes_ofList, List.flatMap_map]
      refine (List.flatMap_congr fun byte hbyte => ?_).trans (List.flatMap_singleton' bytes)
      have hlow := of_decide_eq_true (List.all_eq_true.mp hascii byte hbyte)
      rw [utf8EncodeChar_ofNat _ hlow, UInt8.ofNat_toNat]
    rw [← hbytes, fromUtf8_asBytes, Option.map_some, String.toList_ofList, hbytes]
  · rfl

/-- A text that is read to its end is the text of a value. -/
theorem parse_of_read {text : String} {value : Json}
    (h : read (text.length + 1) text.toList = some (value, [])) :
    parse (asBytes text) = some value := by
  rw [← String.length_toList] at h
  simp only [parse, characters_eq, fromUtf8_asBytes, Option.map_some, Option.bind_some, h, skip,
    List.dropWhile_nil, if_true]

/-- Nothing but a text is read. -/
theorem exists_of_parse {bytes : Bytes} {value : Json} (h : parse bytes = some value) :
    ∃ text, asBytes text = bytes := by
  obtain ⟨document, hdocument, -⟩ := Option.bind_eq_some_iff.mp h
  rw [characters_eq] at hdocument
  obtain ⟨text, htext, -⟩ := Option.map_eq_some_iff.mp hdocument
  exact ⟨text, asBytes_of_fromUtf8 htext⟩

/-- **An object of flat fields is read back**, in the order of the names. -/
theorem parse_print_object {fields : List (String × Json)} (hne : fields ≠ [])
    (hflat : ∀ field ∈ fields, isFlat field.2 = true) :
    parse (asBytes (print (.object fields))) =
      some (.object (fields.foldl (fun read field => insertField field.1 field.2 read) [])) := by
  have hwritten : write (.object fields) = '\x7b' :: (writeFields fields ++ ['\x7d']) := by
    rw [write]
  have hfuel : fields.length < (writeFields fields).length + 2 := by
    have hlength := length_le_writeFields fields
    omega
  have hfields := readFields_writeFields hne hflat hfuel [] []
  -- a field starts with a quote, so the object is not taken for an empty one
  obtain ⟨rest, hquote⟩ : ∃ rest, writeFields fields ++ ['\x7d'] = '"' :: rest := by
    match fields, hne with
    | [(key, value)], _ => exact ⟨_, rfl⟩
    | (key, value) :: next :: fields, _ => exact ⟨_, rfl⟩
  refine parse_of_read ?_
  rw [print, String.length_ofList, String.toList_ofList, hwritten, List.length_cons,
    List.length_append, List.length_singleton, read]
  rw [hquote] at hfields ⊢
  simp [skip, hfields]

/-- **A list of strings is read back.** -/
theorem parse_print_strings (texts : List String) :
    parse (asBytes (print (.array (texts.map .string)))) =
      some (.array (texts.map .string)) := by
  refine parse_of_read ?_
  rw [print, String.length_ofList, String.toList_ofList]
  cases texts with
  | nil => simp [write, writeItems, read, skip]
  | cons text texts =>
      generalize hitems : (text :: texts).map Json.string = items
      have hflat : ∀ item ∈ items, isFlat item = true := by
        intro item hitem
        rw [← hitems] at hitem
        obtain ⟨text, -, rfl⟩ := List.mem_map.mp hitem
        rfl
      have hfuel : items.length < (writeItems items).length + 2 := by
        have hlength := length_le_writeItems items
        omega
      have hread := readItems_writeItems (by simp [← hitems]) hflat hfuel []
      -- an item starts with a quote, so the list is not taken for an empty one
      obtain ⟨rest, hquote⟩ : ∃ rest, writeItems items ++ [']'] = '"' :: rest := by
        rw [← hitems]
        cases texts with
        | nil => exact ⟨_, rfl⟩
        | cons next texts => exact ⟨_, rfl⟩
      rw [write, List.length_cons, List.length_append, List.length_singleton, read]
      rw [hquote] at hread ⊢
      simp [skip, hread]

example : (parse (asBytes "\x7b \"b\" : [1, -2] , \"a\":\"x\\u0041\\n\" \x7d")).map print =
    some "\x7b\"a\":\"xA\\n\",\"b\":[1,-2]\x7d" := by decide +kernel

end JsonText

end Llmap
