import Llmap.Bedrock.Message
/-!
# Exceptions of the event stream

A frame that reports an exception or an error becomes an event that tells
its name and nothing else. The name is brought into a normal form first,
of lower-case words with single underscores between them (`SafeName`),
which is written one character at a time and never has more than one
underscore too many, at its end.
-/

namespace Llmap

namespace Bedrock

/-! ## Names -/

/-- The characters of a normalised name. -/
def nameChar (c : Char) : Bool := c.isLower || c.isDigit || c = '_'

/-- A name as far as it is written: no underscore comes first, and none
after another. -/
structure IsName (text : List Char) : Prop where
  chars : ∀ c ∈ text, nameChar c = true
  head : text.head? ≠ some '_'
  single : text.IsChain fun c d => c = '_' → d ≠ '_'

/-- **A normalised name**: lower-case letters, digits and underscores, with
no underscore at either end and no two side by side. -/
structure SafeName (text : String) : Prop where
  name : IsName text.toList
  last : text.toList.getLast? ≠ some '_'

theorem isName_nil : IsName [] := ⟨by simp, by simp, .nil⟩

theorem IsName.of_append {before after : List Char} (h : IsName (before ++ after)) :
    IsName before := by
  refine ⟨fun c hc => h.chars c (List.mem_append_left _ hc), ?_,
    (List.isChain_append.mp h.single).1⟩
  intro hhead
  refine h.head ?_
  cases before with
  | nil => cases hhead
  | cons c before => exact hhead

/-- What may be written next: an underscore after something else. -/
theorem isName_append_singleton {text : List Char} {c : Char} :
    IsName (text ++ [c]) ↔
      IsName text ∧ nameChar c = true ∧ (c = '_' → text ≠ [] ∧ text.getLast? ≠ some '_') := by
  constructor
  · intro h
    refine ⟨h.of_append, h.chars c (by simp), ?_⟩
    rintro rfl
    refine ⟨?_, fun hlast => ?_⟩
    · rintro rfl
      exact h.head rfl
    · have hnext := (List.isChain_append.mp h.single).2.2 '_' hlast '_' rfl
      exact hnext rfl rfl
  · rintro ⟨h, hchar, hunderscore⟩
    refine ⟨?_, ?_, ?_⟩
    · intro d hd
      rcases List.mem_append.mp hd with hd | hd
      · exact h.chars d hd
      · rw [List.mem_singleton.mp hd]
        exact hchar
    · cases text with
      | nil =>
          intro hhead
          exact (hunderscore (Option.some.inj hhead)).1 rfl
      | cons d text => exact h.head
    · rw [List.isChain_append]
      refine ⟨h.single, .singleton c, fun d hd e he => ?_⟩
      rintro rfl rfl
      obtain rfl : c = '_' := Option.some.inj he
      exact (hunderscore rfl).2 hd

/-! ## Writing a name -/

theorem nameChar_toLower {c : Char} (h : c.isAlphanum = true) :
    nameChar c.toLower = true ∧ c.toLower ≠ '_' := by
  have hkind : c.toLower.isLower = true ∨ c.toLower.isDigit = true := by
    rcases Bool.or_eq_true_iff.mp h with halpha | hdigit
    · exact .inl (by rw [Char.isLower_toLower_eq_isAlpha, halpha])
    · have hupper : c.isUpper = false := by
        by_contra hupper
        simp only [Char.isDigit, Char.isUpper, Bool.and_eq_true, decide_eq_true_eq,
          Bool.not_eq_false, UInt32.le_iff_toNat_le, ge_iff_le] at hdigit hupper
        have h9 : '9'.val.toNat = 57 := rfl
        have hA : 'A'.val.toNat = 65 := rfl
        omega
      exact .inr (by rw [Char.toLower_eq_of_not_isUpper (by simp [hupper])]; exact hdigit)
  refine ⟨by rcases hkind with hkind | hkind <;> simp [nameChar, hkind], ?_⟩
  rintro hunderscore
  rw [hunderscore] at hkind
  exact absurd hkind (by decide)

theorem kind_of_nameChar {c : Char} (h : nameChar c = true) (hne : c ≠ '_') :
    c.isUpper = false ∧ c.isAlphanum = true := by
  have hkind : c.isLower = true ∨ c.isDigit = true := by simpa [nameChar, hne] using h
  refine ⟨?_, by rcases hkind with hkind | hkind <;> simp [Char.isAlphanum, Char.isAlpha, hkind]⟩
  by_contra hupper
  simp only [Char.isLower, Char.isDigit, Char.isUpper, Bool.and_eq_true, decide_eq_true_eq,
    Bool.not_eq_false, UInt32.le_iff_toNat_le, ge_iff_le] at hkind hupper
  have h9 : '9'.val.toNat = 57 := rfl
  have hA : 'A'.val.toNat = 65 := rfl
  have hZ : 'Z'.val.toNat = 90 := rfl
  have ha : 'a'.val.toNat = 97 := rfl
  omega

/-- **One character** keeps a name a name, and what was a letter or a digit
is there. -/
theorem isName_normalizeCharacter {state : List Char × Bool} (h : IsName state.1)
    (hprevious : state.2 = true → state.1 ≠ []) (c : Char) :
    IsName (normalizeCharacter state c).1 ∧
      ((normalizeCharacter state c).2 = true → (normalizeCharacter state c).1 ≠ []) := by
  obtain ⟨text, previous⟩ := state
  dsimp only at h hprevious
  simp only [normalizeCharacter]
  by_cases hupper : c.isUpper = true
  · have halphanum : c.isAlphanum = true := by simp [Char.isAlphanum, Char.isAlpha, hupper]
    obtain ⟨hchar, hne⟩ := nameChar_toLower halphanum
    rw [if_pos hupper]
    refine ⟨isName_append_singleton.mpr ⟨?_, hchar, fun h => absurd h hne⟩, by simp⟩
    split
    · rename_i hword
      exact isName_append_singleton.mpr ⟨h, by decide, fun _ => ⟨hprevious hword.1, hword.2⟩⟩
    · exact h
  · rw [if_neg hupper]
    by_cases halphanum : c.isAlphanum = true
    · obtain ⟨hchar, hne⟩ := nameChar_toLower halphanum
      rw [if_pos halphanum]
      exact ⟨isName_append_singleton.mpr ⟨h, hchar, fun h => absurd h hne⟩, by simp⟩
    · rw [if_neg halphanum]
      split
      · rename_i hnext
        exact ⟨isName_append_singleton.mpr ⟨h, by decide, fun _ => hnext⟩, by simp⟩
      · exact ⟨h, by simp⟩

/-- All characters. -/
theorem isName_foldl (state : List Char × Bool) (h : IsName state.1)
    (hprevious : state.2 = true → state.1 ≠ []) (text : List Char) :
    IsName (text.foldl normalizeCharacter state).1 := by
  induction text generalizing state with
  | nil => exact h
  | cons c text ih =>
      obtain ⟨hname, hleft⟩ := isName_normalizeCharacter h hprevious c
      exact ih _ hname hleft

/-- **What is written is a name.** -/
theorem isName_written (text : List Char) :
    IsName (text.foldl normalizeCharacter ([], false)).1 :=
  isName_foldl ([], false) isName_nil (by simp) text

/-- A name is written as it is. -/
theorem foldl_normalizeCharacter_of_isName {text : List Char} (h : IsName text) :
    (text.foldl normalizeCharacter ([], false)).1 = text := by
  induction text using List.reverseRecOn with
  | nil => rfl
  | append_singleton text c ih =>
      obtain ⟨hname, hchar, hunderscore⟩ := isName_append_singleton.mp h
      have hwritten := ih hname
      rw [List.foldl_append, List.foldl_cons, List.foldl_nil]
      generalize text.foldl normalizeCharacter ([], false) = state at hwritten ⊢
      obtain ⟨written, previous⟩ := state
      obtain rfl : written = text := hwritten
      simp only [normalizeCharacter]
      by_cases hline : c = '_'
      · have hnext := hunderscore hline
        subst hline
        rw [if_neg (by decide), if_neg (by decide), if_pos hnext]
      · obtain ⟨hupper, halphanum⟩ := kind_of_nameChar hchar hline
        rw [if_neg (by simp [hupper]), if_pos halphanum,
          Char.toLower_eq_of_not_isUpper (by simp [hupper])]

/-! ## The normal form -/

/-- Nothing but underscores at the end is taken off a name. -/
theorem normalize_eq (value : String) : (normalizeBedrockExceptionType value).toList =
    (value.toList.foldl normalizeCharacter ([], false)).1.rdropWhile (· = '_') := by
  have hname := isName_written value.toList
  generalize hwritten : (value.toList.foldl normalizeCharacter ([], false)).1 = written at hname
  have hstart : written.dropWhile (· = '_') = written := by
    cases written with
    | nil => rfl
    | cons c written =>
        have hne : c ≠ '_' := fun h => hname.head (by rw [h]; rfl)
        rw [List.dropWhile_cons_of_neg (by simpa using hne)]
  simp only [normalizeBedrockExceptionType, hwritten, hstart, String.toList_ofList]
  rfl

/-- **A name is normalised** to one. -/
theorem safeName_normalize (value : String) : SafeName (normalizeBedrockExceptionType value) := by
  have hname := isName_written value.toList
  refine ⟨?_, ?_⟩
  · rw [normalize_eq]
    obtain ⟨underscores, hsplit⟩ :=
      List.rdropWhile_prefix (· = '_') (value.toList.foldl normalizeCharacter ([], false)).1
    rw [← hsplit] at hname
    exact hname.of_append
  · rw [normalize_eq]
    intro hlast
    have hne := List.ne_nil_of_mem (List.mem_of_getLast? hlast)
    have hnot := List.rdropWhile_last_not (· = '_') _ hne
    rw [List.getLast?_eq_some_getLast hne, Option.some.injEq] at hlast
    exact hnot (by simp [hlast])

/-- A name that is normalised stays as it is. -/
theorem normalize_of_safeName {value : String} (h : SafeName value) :
    normalizeBedrockExceptionType value = value := by
  rw [← String.toList_inj, normalize_eq, foldl_normalizeCharacter_of_isName h.name,
    List.rdropWhile_eq_self_iff]
  intro hne hlast
  refine h.last ?_
  rw [List.getLast?_eq_some_getLast hne, of_decide_eq_true hlast]

/-! ## Events -/

section Events

variable [Codecs]

/-- An exception's event tells its name. -/
theorem event_of_exception {frame event : Bytes} {headers : Table String String}
    (h : decodeBedrockFrame frame = .ok event) (hheaders : frameHeaders frame = .ok headers)
    (hkind : IsException headers) : ∃ exceptionType,
      exceptionHeader headers = some exceptionType ∧
        event = errorEvent ("bedrock_" ++ normalizeBedrockExceptionType exceptionType) := by
  obtain ⟨-, headers', hheaders', hevent⟩ := decodeBedrockFrame_eq_ok_iff.mp h
  obtain rfl : headers = headers' := Except.ok.inj (hheaders.symm.trans hheaders')
  cases hevent with
  | exception _ hname => exact ⟨_, hname, rfl⟩
  | chunk hmessage _ _ =>
      unfold IsException at hkind
      rw [hmessage] at hkind
      exact absurd hkind (by decide)

/-- **Exceptions tell their name and nothing else.** Two frames of
exceptions or errors that are accepted, with the same name, become the same
event, whatever else is in them; what the event tells is the name in its
normal form, which has nothing but lower-case letters, digits and single
underscores between them, and is its own normal form. -/
theorem exceptions_tell_name {frame frame' event event' : Bytes}
    {headers headers' : Table String String} (h : decodeBedrockFrame frame = .ok event)
    (h' : decodeBedrockFrame frame' = .ok event') (hheaders : frameHeaders frame = .ok headers)
    (hheaders' : frameHeaders frame' = .ok headers') (hkind : IsException headers)
    (hkind' : IsException headers') (hsame : exceptionHeader headers = exceptionHeader headers') :
    event = event' ∧
      (∃ exceptionType, exceptionHeader headers = some exceptionType ∧
        event = errorEvent ("bedrock_" ++ normalizeBedrockExceptionType exceptionType)) ∧
      ∀ value, SafeName (normalizeBedrockExceptionType value) ∧
        normalizeBedrockExceptionType (normalizeBedrockExceptionType value) =
          normalizeBedrockExceptionType value := by
  obtain ⟨name, hname, hevent⟩ := event_of_exception h hheaders hkind
  obtain ⟨name', hname', hevent'⟩ := event_of_exception h' hheaders' hkind'
  obtain rfl : name = name' := by
    rw [hsame, hname'] at hname
    exact (Option.some.inj hname).symm
  refine ⟨hevent.trans hevent'.symm, ⟨name, hname, hevent⟩, fun value => ?_⟩
  exact ⟨safeName_normalize value, normalize_of_safeName (safeName_normalize value)⟩

end Events

section Example

/-- An exception with a payload and the id of a request. -/
def throttling (requestId : String) (hid : (asBytes requestId).length < 2 ^ 16) (payload : Bytes) :
    Message where
  headers :=
    [textHeader ":message-type" "exception" messageType_fits (by decide +kernel),
      textHeader ":exception-type" "ThrottlingException" (by decide +kernel) (by decide +kernel),
      textHeader "request-id" requestId (by decide +kernel) hid]
  payload := payload

/-- Two exceptions that differ in all but their name. -/
theorem exceptions_tell_name_throttling :
    letI := Codecs.plain
    let frame := (throttling "one" (by decide +kernel) [1, 2, 3]).encode
    let frame' := (throttling "two" (by decide +kernel) []).encode
    frame ≠ frame' ∧ decodeBedrockFrame frame = .ok (errorEvent "bedrock_throttling_exception") ∧
      decodeBedrockFrame frame = decodeBedrockFrame frame' := by
  let := Codecs.plain
  intro frame frame'
  have hname : normalizeBedrockExceptionType "ThrottlingException" = "throttling_exception" := by
    decide +kernel
  obtain ⟨event, h⟩ : ∃ event, decodeBedrockFrame frame = .ok event :=
    ⟨errorEvent "bedrock_throttling_exception", by decide +kernel⟩
  obtain ⟨event', h'⟩ : ∃ event, decodeBedrockFrame frame' = .ok event :=
    ⟨errorEvent "bedrock_throttling_exception", by decide +kernel⟩
  obtain ⟨-, headers, hheaders, -⟩ := decodeBedrockFrame_eq_ok_iff.mp h
  obtain ⟨-, headers', hheaders', -⟩ := decodeBedrockFrame_eq_ok_iff.mp h'
  have hread : (frameHeaders frame).map (fun headers =>
      (headers[":message-type"]?, exceptionHeader headers)) =
        .ok (some "exception", some "ThrottlingException") := by decide +kernel
  have hread' : (frameHeaders frame').map (fun headers =>
      (headers[":message-type"]?, exceptionHeader headers)) =
        .ok (some "exception", some "ThrottlingException") := by decide +kernel
  rw [hheaders] at hread
  rw [hheaders'] at hread'
  obtain ⟨hkind, hselected⟩ := Prod.mk.inj (Except.ok.inj hread)
  obtain ⟨hkind', hselected'⟩ := Prod.mk.inj (Except.ok.inj hread')
  obtain ⟨heq, ⟨name, hfound, hevent⟩, -⟩ := exceptions_tell_name h h' hheaders hheaders'
    (.inl hkind) (.inl hkind') (hselected.trans hselected'.symm)
  obtain rfl : name = "ThrottlingException" := Option.some.inj (hfound.symm.trans hselected)
  refine ⟨by decide +kernel, ?_, by rw [h, h', heq]⟩
  rw [h, hevent, hname]
  rfl

end Example

end Bedrock

end Llmap
