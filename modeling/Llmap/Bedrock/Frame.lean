import Llmap.Crates
/-!
# One Bedrock event-stream frame

`decode_bedrock_frame` of `providers.rs` and the functions it calls. A
frame is a prelude (its length, the length of its headers, a checksum of
both), the headers, the payload, and a checksum of all that. The decoder
gives the server-sent event the frame stands for.

A cursor into the encoded headers is the list of the bytes from it on.
-/

namespace Llmap

namespace Bedrock

/-- `BEDROCK_MAX_PAYLOAD_BYTES`. -/
def maxPayloadBytes : ℕ := 24 * 1024 * 1024

/-- `BEDROCK_MAX_HEADERS_BYTES`. -/
def maxHeadersBytes : ℕ := 128 * 1024

/-- `BEDROCK_MAX_FRAME_BYTES`. -/
def maxFrameBytes : ℕ := 16 + maxHeadersBytes + maxPayloadBytes

/-- `ProviderError::InvalidBedrockFrame`, the one error of the decoder. -/
inductive FrameError where
  | invalidBedrockFrame
deriving DecidableEq

/-! ## Headers -/

/-- `skip_bedrock_header_bytes`. -/
def skipBedrockHeaderBytes (encoded : Bytes) (length : ℕ) : Except FrameError Bytes :=
  if encoded.length < length then .error .invalidBedrockFrame else .ok (encoded.drop length)

/-- A value that carries its length in two bytes, and what follows it. -/
def bedrockSizedValue (encoded : Bytes) : Except FrameError (Bytes × Bytes) :=
  if encoded.length < 2 then .error .invalidBedrockFrame
  else
    let valueLength := fromBeBytes (encoded.take 2)
    if (encoded.drop 2).length < valueLength then .error .invalidBedrockFrame
    else .ok ((encoded.drop 2).take valueLength, (encoded.drop 2).drop valueLength)

/-- A header's value, by its type, and what follows it: the `match` of
`decode_bedrock_headers`. Only text is kept. -/
def bedrockHeaderValue (valueType : UInt8) (encoded : Bytes) :
    Except FrameError (Option String × Bytes) :=
  let skip (length : ℕ) := (skipBedrockHeaderBytes encoded length).map ((none, ·))
  match valueType.toNat with
  | 0 | 1 => .ok (none, encoded)
  | 2 => skip 1
  | 3 => skip 2
  | 4 => skip 4
  | 5 | 8 => skip 8
  | 6 => (bedrockSizedValue encoded).map fun (_, rest) => (none, rest)
  | 7 =>
      match bedrockSizedValue encoded with
      | .error error => .error error
      | .ok (value, rest) =>
          match fromUtf8 value with
          | none => .error .invalidBedrockFrame
          | some value => .ok (some value, rest)
  | 9 => skip 16
  | _ => .error .invalidBedrockFrame

theorem length_of_skipBedrockHeaderBytes {encoded rest : Bytes} {length : ℕ}
    (h : skipBedrockHeaderBytes encoded length = .ok rest) : rest.length ≤ encoded.length := by
  unfold skipBedrockHeaderBytes at h
  split at h
  · cases h
  · cases h
    simp

theorem length_of_bedrockSizedValue {encoded value rest : Bytes}
    (h : bedrockSizedValue encoded = .ok (value, rest)) : rest.length ≤ encoded.length := by
  simp only [bedrockSizedValue] at h
  split at h
  · cases h
  · split at h
    · cases h
    · cases h
      simp only [List.length_drop]
      omega

/-- A value is not longer than what it is read from. -/
theorem length_of_bedrockHeaderValue {valueType : UInt8} {encoded rest : Bytes}
    {value : Option String} (h : bedrockHeaderValue valueType encoded = .ok (value, rest)) :
    rest.length ≤ encoded.length := by
  have hskip : ∀ length, (skipBedrockHeaderBytes encoded length).map
      (fun rest => ((none : Option String), rest)) = .ok (value, rest) →
      rest.length ≤ encoded.length := by
    intro length hmap
    cases hs : skipBedrockHeaderBytes encoded length with
    | error error => simp [hs, Except.map] at hmap
    | ok left =>
        simp only [hs, Except.map, Except.ok.injEq, Prod.mk.injEq] at hmap
        exact hmap.2 ▸ length_of_skipBedrockHeaderBytes hs
  unfold bedrockHeaderValue at h
  split at h
  · cases h; exact le_rfl
  · cases h; exact le_rfl
  · exact hskip 1 h
  · exact hskip 2 h
  · exact hskip 4 h
  · exact hskip 8 h
  · exact hskip 8 h
  · cases hv : bedrockSizedValue encoded with
    | error error => simp [hv, Except.map] at h
    | ok sized =>
        simp only [hv, Except.map, Except.ok.injEq, Prod.mk.injEq] at h
        exact h.2 ▸ length_of_bedrockSizedValue hv
  · split at h
    · cases h
    · rename_i hv
      split at h
      · cases h
      · cases h
        exact length_of_bedrockSizedValue hv
  · exact hskip 16 h
  · cases h

/-- What is kept of a header: nothing unless its name begins with a colon, and
then it must be text and must not be there. -/
def keepHeader (headers : Table String String) (name : String) (value : Option String) :
    Except FrameError (Table String String) :=
  if startsWithStr name ":" then
    match value with
    | none => .error .invalidBedrockFrame
    | some value =>
        if headers.contains name then .error .invalidBedrockFrame
        else .ok (headers.insert name value)
  else .ok headers

/-- The loop of `decode_bedrock_headers`, from the headers kept so far. -/
def decodeBedrockHeadersFrom (headers : Table String String) (encoded : Bytes) :
    Except FrameError (Table String String) :=
  match encoded with
  | [] => .ok headers
  | nameLength :: encoded =>
      if nameLength = 0 ∨ encoded.length < nameLength.toNat + 1 then .error .invalidBedrockFrame
      else
        match fromUtf8 (encoded.take nameLength.toNat) with
        | none => .error .invalidBedrockFrame
        | some name =>
            match hdrop : encoded.drop nameLength.toNat with
            | [] => .error .invalidBedrockFrame -- the length was checked above
            | valueType :: valueBytes =>
                match hvalue : bedrockHeaderValue valueType valueBytes with
                | .error error => .error error
                | .ok (value, rest) =>
                    have : rest.length ≤ encoded.length := by
                      have hrest := length_of_bedrockHeaderValue hvalue
                      have hlength := congrArg List.length hdrop
                      simp only [List.length_drop, List.length_cons] at hlength
                      omega
                    match keepHeader headers name value with
                    | .error error => .error error
                    | .ok headers => decodeBedrockHeadersFrom headers rest
termination_by encoded.length

/-- `decode_bedrock_headers`. -/
def decodeBedrockHeaders (encoded : Bytes) : Except FrameError (Table String String) :=
  decodeBedrockHeadersFrom ∅ encoded

/-! ## The name of an exception -/

/-- `normalize_bedrock_exception_type`, one character: what is written so
far, and whether the last character was a lower-case letter or a digit. -/
def normalizeCharacter (state : List Char × Bool) (character : Char) : List Char × Bool :=
  let (normalized, previousWasLowercaseOrDigit) := state
  let endsWithUnderscore := normalized.getLast? = some '_'
  if character.isUpper then
    let normalized :=
      if previousWasLowercaseOrDigit ∧ ¬ endsWithUnderscore then normalized ++ ['_'] else normalized
    (normalized ++ [character.toLower], false)
  else if character.isAlphanum then (normalized ++ [character.toLower], true)
  else if normalized ≠ [] ∧ ¬ endsWithUnderscore then (normalized ++ ['_'], false)
  else (normalized, false)

/-- `normalize_bedrock_exception_type`. -/
def normalizeBedrockExceptionType (value : String) : String :=
  let normalized := (value.toList.foldl normalizeCharacter ([], false)).1
  -- `trim_matches('_')`
  let trimStart (text : List Char) := text.dropWhile (· = '_')
  String.ofList (trimStart (trimStart normalized).reverse).reverse

/-! ## Frames -/

section Decoder

variable [Codecs]

/-- The event that tells the type of an error. -/
def errorEvent (errorType : String) : Bytes :=
  asBytes ("event: error\ndata: " ++ Codecs.jsonToString (.object
    [("error", .object
        [("message", .string ("Amazon Bedrock stream ended with " ++ errorType)),
         ("type", .string errorType)]),
     ("type", .string "error")]) ++ "\n\n")

/-- The event an exception or error frame stands for. It reports the
frame's type and nothing of its payload. -/
def bedrockExceptionEvent (exceptionType : String) : Bytes :=
  errorEvent ("bedrock_" ++ normalizeBedrockExceptionType exceptionType)

/-- The event a chunk frame stands for: its payload is a JSON object
whose `bytes` are, in base64, a JSON object with a `type`. -/
def bedrockChunkEvent (payload : Bytes) : Option Bytes := do
  let envelope ← Codecs.jsonFromSlice payload
  let encoded ← (envelope.get "bytes").bind Json.asStr
  let decoded ← Codecs.base64Decode encoded
  let event ← Codecs.jsonFromSlice decoded
  let eventType ← (event.get "type").bind Json.asStr
  return asBytes ("event: " ++ eventType ++ "\ndata: " ++ Codecs.fromUtf8Lossy decoded ++ "\n\n")

/-- Whether the lengths of a frame and both of its checksums hold. -/
def bedrockFrameIntact (frame : Bytes) : Bool :=
  let totalLength := fromBeBytes (frame.take 4)
  let headersLength := fromBeBytes ((frame.drop 4).take 4)
  16 ≤ frame.length && totalLength = frame.length && totalLength ≤ maxFrameBytes &&
    headersLength ≤ maxHeadersBytes && headersLength ≤ totalLength - 16 &&
    (Codecs.crc32 (frame.take 8)).toNat = fromBeBytes ((frame.drop 8).take 4) &&
    (Codecs.crc32 (frame.take (totalLength - 4))).toNat = fromBeBytes (frame.drop (totalLength - 4))

omit [Codecs] in
/-- The headers of a frame. -/
def frameHeaders (frame : Bytes) : Except FrameError (Table String String) :=
  decodeBedrockHeaders ((frame.drop 12).take (fromBeBytes ((frame.drop 4).take 4)))

omit [Codecs] in
/-- The payload of a frame. -/
def framePayload (frame : Bytes) : Bytes :=
  (frame.take (fromBeBytes (frame.take 4) - 4)).drop (12 + fromBeBytes ((frame.drop 4).take 4))

omit [Codecs] in
/-- The header that names an exception: the first that is there. -/
def exceptionHeader (headers : Table String String) : Option String :=
  headers[":event-type"]?.or (headers[":exception-type"]?.or headers[":error-code"]?)

/-- The event of a message, from its headers and its payload. -/
def bedrockEvent (headers : Table String String) (messageType : String) (payload : Bytes) :
    Except FrameError Bytes :=
  if messageType = "exception" ∨ messageType = "error" then
    match exceptionHeader headers with
    | none => .error .invalidBedrockFrame
    | some exceptionType => .ok (bedrockExceptionEvent exceptionType)
  else if messageType = "event" ∧ headers[":event-type"]? = some "chunk" then
    match bedrockChunkEvent payload with
    | none => .error .invalidBedrockFrame
    | some event => .ok event
  else .error .invalidBedrockFrame

/-- `decode_bedrock_frame`. -/
def decodeBedrockFrame (frame : Bytes) : Except FrameError Bytes :=
  if bedrockFrameIntact frame = false then .error .invalidBedrockFrame
  else
    match frameHeaders frame with
    | .error error => .error error
    | .ok headers =>
        match headers[":message-type"]? with
        | none => .error .invalidBedrockFrame
        | some messageType => bedrockEvent headers messageType (framePayload frame)

/-! ## What a frame stands for -/

omit [Codecs] in
/-- Headers of an exception or of an error. -/
def IsException (headers : Table String String) : Prop :=
  headers[":message-type"]? = some "exception" ∨ headers[":message-type"]? = some "error"

/-- **The event of headers and a payload**: an exception's, from its name,
or a chunk's, from the payload. -/
inductive EventOf (headers : Table String String) (payload : Bytes) : Bytes → Prop where
  | exception {exceptionType : String} (kind : IsException headers)
      (name : exceptionHeader headers = some exceptionType) :
      EventOf headers payload (bedrockExceptionEvent exceptionType)
  | chunk {event : Bytes} (kind : headers[":message-type"]? = some "event")
      (eventType : headers[":event-type"]? = some "chunk")
      (content : bedrockChunkEvent payload = some event) : EventOf headers payload event

/-- **The frames that are accepted** are those that are intact, with
headers that can be read and an event. -/
theorem decodeBedrockFrame_eq_ok_iff {frame event : Bytes} :
    decodeBedrockFrame frame = .ok event ↔ bedrockFrameIntact frame = true ∧
      ∃ headers, frameHeaders frame = .ok headers ∧ EventOf headers (framePayload frame) event := by
  unfold decodeBedrockFrame
  by_cases hintact : bedrockFrameIntact frame = true
  · simp only [hintact, Bool.true_eq_false, if_false, true_and]
    cases hheaders : frameHeaders frame with
    | error error => simp
    | ok headers =>
        simp only [Except.ok.injEq, exists_eq_left']
        constructor
        · intro h
          cases hmessage : headers[":message-type"]? with
          | none => simp [hmessage] at h
          | some messageType =>
              simp only [hmessage, bedrockEvent] at h
              split at h
              · rename_i hkind
                have hexception : IsException headers := by
                  unfold IsException
                  rw [hmessage, Option.some.injEq, Option.some.injEq]
                  exact hkind
                split at h
                · cases h
                · rename_i exceptionType hname
                  cases h
                  exact .exception hexception hname
              · split at h
                · rename_i hkind
                  obtain ⟨rfl, hchunk⟩ := hkind
                  split at h
                  · cases h
                  · rename_i content hcontent
                    cases h
                    exact .chunk hmessage hchunk hcontent
                · cases h
        · intro h
          cases h with
          | exception hkind hname =>
              rcases hkind with hkind | hkind
              · simp [hkind, bedrockEvent, hname]
              · simp [hkind, bedrockEvent, hname]
          | chunk hkind hchunk hcontent => simp [hkind, bedrockEvent, hchunk, hcontent]
  · simp [hintact]

end Decoder

end Bedrock

end Llmap
