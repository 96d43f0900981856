import Llmap.Bedrock.Frame
import Llmap.Common.Framing
import Llmap.Plain
/-!
# The Bedrock event stream

`translate_bedrock_eventstream` of `providers.rs`: a response body that
arrives in chunks is turned, frame by frame, into server-sent events. The
body is a list of chunks, or of errors in their place; what the translator
yields is a list of items, of which an error is the last.

The loop over the buffer is the framing library's `drain` at
`bedrockFramer`, whose `front` is one pass through it. Where the chunks
were cut then makes no difference: the items are those of `reference`, a
reading of the whole body that knows no chunks.
-/

namespace Llmap

namespace Bedrock

/-- The kinds of `std::io::Error` the translator makes. -/
inductive ErrorKind where
  | invalidData
  | unexpectedEof
  | other
deriving DecidableEq

/-- `std::io::Error`: its kind and its message. -/
structure StreamError where
  kind : ErrorKind
  message : String
deriving DecidableEq

/-- An item of the translated body: an event, or the error that ends it. -/
abbrev Item := Except StreamError Bytes

/-- A length no frame has. -/
def invalidLength : StreamError := ⟨.invalidData, "invalid Bedrock event-stream frame length"⟩

/-- A frame the decoder rejects. -/
def invalidFrame : StreamError := ⟨.invalidData, "invalid Bedrock event-stream frame"⟩

/-- A body that ends inside a frame. -/
def truncated : StreamError := ⟨.unexpectedEof, "truncated Bedrock event stream"⟩

/-- **An error is the last item.** -/
def ErrorLast (items : List Item) : Prop :=
  ∀ before error after, items = before ++ .error error :: after → after = []

/-- Events in front of items that end with their error leave it the last. -/
theorem ErrorLast.of_events {items : List Item} (h : ErrorLast items) (events : List Bytes) :
    ErrorLast (events.map .ok ++ items) := by
  induction events with
  | nil => exact h
  | cons event events ih =>
      intro before error after heq
      cases before with
      | nil => simp at heq
      | cons first before =>
          simp only [List.map_cons, List.cons_append, List.cons.injEq] at heq
          exact ih before error after heq.2

theorem errorLast_singleton (error : StreamError) : ErrorLast [.error error] := by
  intro before error' after heq
  cases before with
  | nil => simpa using (List.cons.inj heq).2.symm
  | cons first before => simp at heq

section Translator

variable [Codecs]

/-- One pass of the `while` loop over the buffer. -/
def frontFrame (buffer : Bytes) : Front UInt8 Bytes StreamError :=
  if buffer.length < 4 then .incomplete
  else
    let totalLength := fromBeBytes (buffer.take 4)
    if totalLength < 16 ∨ maxFrameBytes < totalLength then .invalid invalidLength
    else if buffer.length < totalLength then .incomplete
    else
      match decodeBedrockFrame (buffer.take totalLength) with
      | .ok event => .frame event (buffer.drop totalLength)
      | .error _ => .invalid invalidFrame

/-- Bytes that arrive later do not change the length a buffer begins
with, nor the frame it delimits. -/
theorem frontFrame_append {buffer : Bytes} (more : Bytes)
    (h : frontFrame buffer ≠ .incomplete) :
    frontFrame (buffer ++ more) =
      match frontFrame buffer with
      | .incomplete => .incomplete
      | .frame event rest => .frame event (rest ++ more)
      | .invalid error => .invalid error := by
  simp only [frontFrame] at h ⊢
  by_cases hfour : buffer.length < 4
  · simp [if_pos hfour] at h
  · have htake : (buffer ++ more).take 4 = buffer.take 4 :=
      List.take_append_of_le_length (by omega)
    have hlonger : ¬ (buffer ++ more).length < 4 := by
      rw [List.length_append]
      omega
    rw [if_neg hfour, if_neg hlonger, htake]
    rw [if_neg hfour] at h
    by_cases hrange : fromBeBytes (buffer.take 4) < 16 ∨ maxFrameBytes < fromBeBytes (buffer.take 4)
    · rw [if_pos hrange, if_pos hrange]
    · rw [if_neg hrange, if_neg hrange]
      rw [if_neg hrange] at h
      by_cases hshort : buffer.length < fromBeBytes (buffer.take 4)
      · simp [if_pos hshort] at h
      · have hstill : ¬ (buffer ++ more).length < fromBeBytes (buffer.take 4) := by
          rw [List.length_append]
          omega
        rw [if_neg hshort, if_neg hstill, List.take_append_of_le_length (by omega),
          List.drop_append_of_le_length (by omega)]
        cases decodeBedrockFrame (buffer.take (fromBeBytes (buffer.take 4))) <;> rfl

/-- The frames of a Bedrock body. -/
def bedrockFramer : Framer UInt8 Bytes StreamError where
  front := frontFrame
  rest_length_lt := by
    intro buffer event rest h
    simp only [frontFrame] at h
    split at h
    · cases h
    · split at h
      · cases h
      · split at h
        · cases h
        · split at h
          · cases h
            rw [List.length_drop]
            omega
          · cases h
  frame_append := by
    intro buffer event rest more h
    rw [frontFrame_append more (by simp [h]), h]
  invalid_append := by
    intro buffer error more h
    rw [frontFrame_append more (by simp [h]), h]

/-- The loops of `translate_bedrock_eventstream`, from what is left in
the buffer: the frames it has are yielded, then the next chunk is
awaited. -/
def translateFrom (buffer : Bytes) (input : List (Except String Bytes)) : List Item :=
  match bedrockFramer.drain buffer with
  | (events, .error error) => events.map .ok ++ [.error error]
  | (events, .ok buffer) =>
      events.map .ok ++
        match input with
        | .ok chunk :: input => translateFrom (buffer ++ chunk) input
        | .error error :: _ => [.error ⟨.other, error⟩]
        | [] => if buffer = [] then [] else [.error truncated]
termination_by structural input

/-- `translate_bedrock_eventstream`. -/
def translateBedrockEventstream (body : List (Except String Bytes)) : List Item :=
  translateFrom [] body

/-! ## The whole body at once -/

/-- **What a body of these bytes means**, chunks aside. It begins with a
length: one that no frame has is an error, and so is a frame that the
decoder rejects; an accepted frame is an event, and the rest follows. A
body that ends before its frame does is truncated. -/
def reference (bytes : Bytes) : List Item :=
  if bytes = [] then []
  else if bytes.length < 4 then [.error truncated]
  else
    let length := fromBeBytes (bytes.take 4)
    if _h : 16 ≤ length ∧ length ≤ maxFrameBytes then
      if bytes.length < length then [.error truncated]
      else
        match decodeBedrockFrame (bytes.take length) with
        | .ok event => .ok event :: reference (bytes.drop length)
        | .error _ => [.error invalidFrame]
    else [.error invalidLength]
termination_by bytes.length

/-- The items of a body read in one piece: its frames, then the error
that ends them or the bytes left over. -/
def itemsOf : List Bytes × Except StreamError Bytes → List Item
  | (events, .error error) => events.map .ok ++ [.error error]
  | (events, .ok rest) => events.map .ok ++ if rest = [] then [] else [.error truncated]

/-- The reference goes by what the framer sees at the front. -/
theorem reference_step (bytes : Bytes) :
    reference bytes =
      match frontFrame bytes with
      | .incomplete => if bytes = [] then [] else [.error truncated]
      | .frame event rest => .ok event :: reference rest
      | .invalid error => [.error error] := by
  rw [reference]
  simp only [frontFrame]
  by_cases hnil : bytes = []
  · simp [hnil]
  · rw [if_neg hnil]
    by_cases hfour : bytes.length < 4
    · simp [if_pos hfour, hnil]
    · rw [if_neg hfour, if_neg hfour]
      by_cases hrange : 16 ≤ fromBeBytes (bytes.take 4) ∧ fromBeBytes (bytes.take 4) ≤ maxFrameBytes
      · have hout : ¬ (fromBeBytes (bytes.take 4) < 16 ∨
            maxFrameBytes < fromBeBytes (bytes.take 4)) := by
          omega
        rw [dif_pos hrange, if_neg hout]
        by_cases hshort : bytes.length < fromBeBytes (bytes.take 4)
        · simp [if_pos hshort, hnil]
        · rw [if_neg hshort, if_neg hshort]
          cases decodeBedrockFrame (bytes.take (fromBeBytes (bytes.take 4))) <;> rfl
      · rw [dif_neg hrange, if_pos (by omega)]

/-- The reference reads the frames the framer finds. -/
theorem reference_eq_drain (bytes : Bytes) :
    reference bytes = itemsOf (bedrockFramer.drain bytes) := by
  induction bytes using bedrockFramer.drain_induct with
  | incomplete bytes h =>
      rw [Framer.drain_of_incomplete h, reference_step]
      simp only [show frontFrame bytes = .incomplete from h]
      rfl
  | invalid bytes error h =>
      rw [Framer.drain_of_invalid h, reference_step]
      simp only [show frontFrame bytes = .invalid error from h]
      rfl
  | frame bytes event rest h ih =>
      rw [Framer.drain_of_frame h, reference_step]
      simp only [show frontFrame bytes = .frame event rest from h, ih]
      obtain ⟨events, ending⟩ := bedrockFramer.drain rest
      cases ending <;> rfl

/-! ## Every way of cutting the body -/

theorem translateFrom_ok (buffer : Bytes) (chunks : List Bytes) :
    translateFrom buffer (chunks.map .ok) =
      itemsOf (bedrockFramer.drain (buffer ++ chunks.flatten)) := by
  induction chunks generalizing buffer with
  | nil =>
      rw [List.flatten_nil, List.append_nil, List.map_nil, translateFrom]
      obtain ⟨events, ending⟩ := bedrockFramer.drain buffer
      cases ending <;> rfl
  | cons chunk chunks ih =>
      rw [List.flatten_cons, List.map_cons, translateFrom, Framer.drain_append]
      obtain ⟨events, ending⟩ := bedrockFramer.drain buffer
      cases ending with
      | error error => rfl
      | ok rest =>
          simp only [ih, List.append_assoc]
          obtain ⟨events', ending'⟩ := bedrockFramer.drain (rest ++ (chunk ++ chunks.flatten))
          cases ending' <;> simp [itemsOf]

/-- Whatever the body brings, errors of its own among it, nothing is
yielded after an error. -/
theorem errorLast_translateFrom (buffer : Bytes) (input : List (Except String Bytes)) :
    ErrorLast (translateFrom buffer input) := by
  have hnil : ErrorLast [] := by
    intro before error after heq
    simp at heq
  induction input generalizing buffer with
  | nil =>
      rw [translateFrom]
      obtain ⟨events, ending⟩ := bedrockFramer.drain buffer
      cases ending with
      | error error => exact (errorLast_singleton error).of_events events
      | ok rest =>
          refine ErrorLast.of_events ?_ events
          by_cases hrest : rest = []
          · simpa [hrest] using hnil
          · simpa [hrest] using errorLast_singleton truncated
  | cons chunk input ih =>
      rw [translateFrom]
      obtain ⟨events, ending⟩ := bedrockFramer.drain buffer
      cases ending with
      | error error => exact (errorLast_singleton error).of_events events
      | ok rest =>
          refine ErrorLast.of_events ?_ events
          cases chunk with
          | error error => exact errorLast_singleton _
          | ok chunk => exact ih (rest ++ chunk)

/-- **The translation does not depend on the chunks.** However a body is
cut, into however many chunks and wherever, the items are the
reference's; so two ways of cutting one body agree. And no item follows
an error. -/
theorem translateBedrockEventstream_of_cut {bytes : Bytes} {chunks chunks' : List Bytes}
    (h : chunks.flatten = bytes) (h' : chunks'.flatten = bytes) :
    translateBedrockEventstream (chunks.map .ok) = reference bytes ∧
      translateBedrockEventstream (chunks.map .ok) =
        translateBedrockEventstream (chunks'.map .ok) ∧
      ErrorLast (translateBedrockEventstream (chunks.map .ok)) := by
  have hcut : ∀ cut : List Bytes, cut.flatten = bytes →
      translateBedrockEventstream (cut.map .ok) = reference bytes := by
    intro cut hflat
    rw [translateBedrockEventstream, translateFrom_ok, List.nil_append, hflat, reference_eq_drain]
  exact ⟨hcut chunks h, by rw [hcut chunks h, hcut chunks' h'], errorLast_translateFrom [] _⟩

end Translator

/-- The frame of a ping. -/
def pingFrame : Bytes :=
  [0, 0, 0, 90, 0, 0, 0, 42] ++ [204, 58, 193, 213] ++
    (13 :: asBytes ":message-type" ++ [7, 0, 5] ++ asBytes "event") ++
    (11 :: asBytes ":event-type" ++ [7, 0, 5] ++ asBytes "chunk") ++
    asBytes "\x7b\"bytes\":\"eyJ0eXBlIjoicGluZyJ9\"\x7d" ++ [29, 23, 101, 77]

/-- The event of a ping. -/
def pingEvent : Bytes := asBytes "event: ping\ndata: \x7b\"type\":\"ping\"\x7d\n\n"

/-- A frame cut inside its length and inside its headers, with an empty chunk
between the parts, is read as the frame in one chunk, and is a ping. -/
theorem translateBedrockEventstream_of_cut_ping :
    letI := Codecs.plain
    let cut : List Bytes := [pingFrame.take 2, [], (pingFrame.drop 2).take 28, pingFrame.drop 30]
    translateBedrockEventstream (cut.map .ok) = [.ok pingEvent] ∧
      translateBedrockEventstream (cut.map .ok) = reference pingFrame ∧
      translateBedrockEventstream (cut.map .ok) = translateBedrockEventstream [.ok pingFrame] ∧
      ErrorLast (translateBedrockEventstream (cut.map .ok)) := by
  let := Codecs.plain
  intro cut
  have hcut : cut.flatten = pingFrame := by decide +kernel
  have hwhole : ([pingFrame] : List Bytes).flatten = pingFrame := by decide +kernel
  exact ⟨by decide +kernel, translateBedrockEventstream_of_cut hcut hwhole⟩

end Bedrock

end Llmap
