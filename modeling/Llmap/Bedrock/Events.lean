import Llmap.Bedrock.Exception
import Llmap.Common.EventStream
/-!
# The events of frames

What a frame becomes is read as a stream of server-sent events. An
exception is always one event named `error`. A chunk is written out as it
was decoded, so that it is the one event of its type and its document if
neither has a line break in it, and something else if one does.
-/

namespace Llmap

namespace Bedrock

open EventStream

/-- The events of what is sent on. -/
def eventsOf (output : Bytes) : Option (List ServerEvent) := (fromUtf8 output).map parseEvents

theorem eventsOf_asBytes (text : String) : eventsOf (asBytes text) = some (parseEvents text) := by
  rw [eventsOf, fromUtf8_asBytes]
  rfl

section Codecs

variable [Codecs]

/-- **The content of a chunk**: the document that is encoded in its payload,
and the type the document gives itself. -/
structure ChunkContent (payload : Bytes) (type : String) (decoded : Bytes) : Prop where
  encoded : ∃ envelope encoded, Codecs.jsonFromSlice payload = some envelope ∧
    (envelope.get "bytes").bind Json.asStr = some encoded ∧
      Codecs.base64Decode encoded = some decoded
  document : ∃ event, Codecs.jsonFromSlice decoded = some event ∧
    (event.get "type").bind Json.asStr = some type

/-- A chunk's event is written from its content. -/
theorem bedrockChunkEvent_eq_some_iff {payload output : Bytes} :
    bedrockChunkEvent payload = some output ↔ ∃ type decoded, ChunkContent payload type decoded ∧
      output = asBytes (eventText type (Codecs.fromUtf8Lossy decoded)) := by
  simp only [bedrockChunkEvent, Option.bind_eq_bind, Option.bind_eq_some_iff, Option.pure_def,
    Option.some.injEq]
  constructor
  · rintro ⟨envelope, henvelope, encoded, hencoded, decoded, hdecoded, event, hevent, type, htype,
      rfl⟩
    exact ⟨type, decoded, ⟨⟨envelope, encoded, henvelope, Option.bind_eq_some_iff.mpr hencoded,
      hdecoded⟩, ⟨event, hevent, Option.bind_eq_some_iff.mpr htype⟩⟩, rfl⟩
  · rintro ⟨type, decoded, ⟨⟨envelope, encoded, henvelope, hencoded, hdecoded⟩,
      ⟨event, hevent, htype⟩⟩, rfl⟩
    exact ⟨envelope, henvelope, encoded, Option.bind_eq_some_iff.mp hencoded, decoded, hdecoded,
      event, hevent, type, Option.bind_eq_some_iff.mp htype, rfl⟩

variable [LawfulCodecs]

/-- An error is one event. -/
theorem eventsOf_errorEvent (errorType : String) :
    ∃ data, eventsOf (errorEvent errorType) = some [⟨"error", data⟩] := by
  unfold errorEvent
  generalize Json.object _ = value
  refine ⟨Codecs.jsonToString value, ?_⟩
  have htext : "event: error\ndata: " ++ Codecs.jsonToString value ++ "\n\n" =
      eventText "error" (Codecs.jsonToString value) := by
    simp [eventText]
  rw [htext, eventsOf_asBytes,
    parseEvents_eventText (by decide) (LawfulCodecs.newline_notMem_jsonToString value)]

/-- **One frame, one event.** A frame that is accepted reports an exception
or an error, and becomes one event named `error`; or it has a chunk, and
becomes the one event that is named by the chunk's type and has its document
as data exactly if there is no line break in either. -/
theorem one_event_iff {frame output : Bytes} {headers : Table String String}
    (h : decodeBedrockFrame frame = .ok output) (hheaders : frameHeaders frame = .ok headers) :
    (IsException headers ∧ ∃ data, eventsOf output = some [⟨"error", data⟩]) ∨
      (¬ IsException headers ∧ ∃ type text, ChunkContent (framePayload frame) type (asBytes text) ∧
        (eventsOf output = some [⟨type, text⟩] ↔ '\n' ∉ type.toList ∧ '\n' ∉ text.toList)) := by
  by_cases hkind : IsException headers
  · obtain ⟨name, -, rfl⟩ := event_of_exception h hheaders hkind
    exact .inl ⟨hkind, eventsOf_errorEvent _⟩
  · obtain ⟨-, headers', hheaders', hevent⟩ := decodeBedrockFrame_eq_ok_iff.mp h
    obtain rfl : headers = headers' := Except.ok.inj (hheaders.symm.trans hheaders')
    cases hevent with
    | exception hexception _ => exact absurd hexception hkind
    | chunk _ _ hcontent =>
        obtain ⟨type, decoded, hchunk, rfl⟩ := bedrockChunkEvent_eq_some_iff.mp hcontent
        obtain ⟨event, hdocument, -⟩ := hchunk.document
        obtain ⟨text, rfl⟩ := LawfulCodecs.exists_of_jsonFromSlice hdocument
        refine .inr ⟨hkind, type, text, hchunk, ?_⟩
        rw [LawfulCodecs.fromUtf8Lossy_asBytes, eventsOf_asBytes, Option.some.injEq,
          parseEvents_eventText_iff]

end Codecs

section Example

/-- A document as the payload of a chunk has it. -/
def chunkDocument (content : String) : Json :=
  .object [("bytes", .string (Encoders.plain.base64Encode (asBytes content)))]

/-- A chunk of a document. -/
def chunkOf (content : String) : Message :=
  ⟨chunkHeaders, asBytes (JsonText.print (chunkDocument content))⟩

theorem parse_payload_chunkOf (content : String) :
    JsonText.parse (chunkOf content).payload = some (chunkDocument content) := by
  unfold chunkOf chunkDocument
  exact Encoders.plain.jsonFromSlice_toString "bytes" _

theorem chunkContent_chunkOf {content type : String}
    (h : ((JsonText.parse (asBytes content)).bind fun event =>
      (event.get "type").bind Json.asStr) = some type) :
    @ChunkContent Codecs.plain (chunkOf content).payload type (asBytes content) := by
  let := Codecs.plain
  obtain ⟨event, hparse, htype⟩ := Option.bind_eq_some_iff.mp h
  refine ⟨⟨chunkDocument content, Encoders.plain.base64Encode (asBytes content), ?_, ?_, ?_⟩,
    ⟨event, hparse, htype⟩⟩
  · exact parse_payload_chunkOf content
  · rfl
  · exact Encoders.plain.base64Decode_encode (asBytes content)

/-- It is decoded to its event. -/
theorem decode_chunkOf {content type : String}
    (hfits : (chunkOf content).Fits)
    (h : ((JsonText.parse (asBytes content)).bind fun event =>
      (event.get "type").bind Json.asStr) = some type) :
    @decodeBedrockFrame Codecs.plain (@Message.encode Codecs.plain (chunkOf content)) =
      .ok (asBytes (eventText type content)) := by
  let := Codecs.plain
  have := Codecs.lawful_plain
  obtain ⟨headers, hdecode, hkept⟩ := decodeBedrockHeaders_encodeAll wellFormed_chunkHeaders
  refine hfits.decode_eq_ok_iff.mpr ⟨headers, hdecode,
    .chunk ((hkept _ _).mpr kept_messageType) ((hkept _ _).mpr kept_eventType) ?_⟩
  refine bedrockChunkEvent_eq_some_iff.mpr ⟨type, _, chunkContent_chunkOf h, ?_⟩
  rw [LawfulCodecs.fromUtf8Lossy_asBytes]

/-- A document of one line. -/
theorem one_event_ping :
    letI := Codecs.plain
    let frame := (chunkOf pingText).encode
    ∃ output headers, decodeBedrockFrame frame = .ok output ∧ frameHeaders frame = .ok headers ∧
      ((IsException headers ∧ ∃ data, eventsOf output = some [⟨"error", data⟩]) ∨
        (¬ IsException headers ∧ ∃ type text,
          ChunkContent (framePayload frame) type (asBytes text) ∧
            (eventsOf output = some [⟨type, text⟩] ↔
              '\n' ∉ type.toList ∧ '\n' ∉ text.toList))) := by
  let := Codecs.plain
  have := Codecs.lawful_plain
  intro frame
  have hfits : (chunkOf pingText).Fits := ⟨by decide +kernel, by decide +kernel⟩
  obtain ⟨output, h⟩ : ∃ output, decodeBedrockFrame frame = .ok output :=
    ⟨asBytes (eventText "ping" pingText),
      decode_chunkOf hfits (by decide +kernel)⟩
  obtain ⟨-, headers, hheaders, -⟩ := decodeBedrockFrame_eq_ok_iff.mp h
  exact ⟨output, headers, h, hheaders, one_event_iff h hheaders⟩

/-- A line break before a document takes it out of its event, and line
breaks in its type make another event of it. -/
theorem events_of_line_breaks :
    letI := Codecs.plain
    let document := "\n" ++ pingText
    let forged := "\x7b\"type\":\"ping\\ndata:1\\n\\nevent:x\"\x7d"
    (ChunkContent (chunkOf document).payload "ping" (asBytes document) ∧
      framePayload (chunkOf document).encode = (chunkOf document).payload ∧
      (decodeBedrockFrame (chunkOf document).encode).map eventsOf =
        .ok (some [⟨"ping", ""⟩])) ∧
      ChunkContent (chunkOf forged).payload "ping\ndata:1\n\nevent:x" (asBytes forged) ∧
        framePayload (chunkOf forged).encode = (chunkOf forged).payload ∧
        (decodeBedrockFrame (chunkOf forged).encode).map eventsOf =
          .ok (some [⟨"ping", "1"⟩, ⟨"x", forged⟩]) := by
  let := Codecs.plain
  intro document forged
  have hdocument : ((JsonText.parse (asBytes document)).bind fun event =>
      (event.get "type").bind Json.asStr) = some "ping" := by decide +kernel
  have hforged : ((JsonText.parse (asBytes forged)).bind fun event =>
      (event.get "type").bind Json.asStr) = some "ping\ndata:1\n\nevent:x" := by decide +kernel
  have hfits : (chunkOf document).Fits := ⟨by decide +kernel, by decide +kernel⟩
  have hfits' : (chunkOf forged).Fits := ⟨by decide +kernel, by decide +kernel⟩
  refine ⟨⟨chunkContent_chunkOf hdocument, hfits.framePayload_encode, ?_⟩,
    chunkContent_chunkOf hforged, hfits'.framePayload_encode, ?_⟩
  · rw [decode_chunkOf hfits hdocument, Except.map, eventsOf_asBytes]
    decide +kernel
  · rw [decode_chunkOf hfits' hforged, Except.map, eventsOf_asBytes]
    decide +kernel

end Example

end Bedrock

end Llmap
