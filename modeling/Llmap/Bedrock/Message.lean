import Llmap.Bedrock.Headers
import Llmap.Bedrock.Stream
/-!
# Messages of the event stream

How a message is written as a frame: its length, the length of its
headers, a checksum of both, the headers, the payload, and a checksum of
all that. What is written so is intact, and its headers and its payload
are where the decoder looks for them; and a stream of such frames is read
frame by frame.
-/

namespace Llmap

namespace Bedrock

section Messages

variable [Codecs]

/-- **A message**: headers and a payload. -/
structure Message where
  headers : List HeaderRecord
  payload : Bytes

namespace Message

variable (message : Message)

/-- The headers, written. -/
def headerBytes : Bytes := headerCode.encodeAll message.headers

/-- The length of the frame. -/
def totalLength : ℕ := 16 + message.headerBytes.length + message.payload.length

/-- The two lengths. -/
def lengths : Bytes :=
  toBeBytes 4 message.totalLength ++ toBeBytes 4 message.headerBytes.length

/-- All that the second checksum is of. -/
def checked : Bytes :=
  message.lengths ++ toBeBytes 4 (Codecs.crc32 message.lengths).toNat ++ message.headerBytes ++
    message.payload

/-- **A message as a frame.** -/
def encode : Bytes := message.checked ++ toBeBytes 4 (Codecs.crc32 message.checked).toNat

/-- A message that is not too long for a frame. -/
structure Fits : Prop where
  headers : message.headerBytes.length ≤ maxHeadersBytes
  total : message.totalLength ≤ maxFrameBytes

omit [Codecs] in
theorem length_lengths : message.lengths.length = 8 := by simp [lengths]

theorem length_checked : message.checked.length = message.totalLength - 4 := by
  simp only [checked, List.length_append, length_lengths, length_toBeBytes, totalLength]
  omega

theorem length_encode : message.encode.length = message.totalLength := by
  simp only [encode, List.length_append, length_checked, length_toBeBytes, totalLength]
  omega

/-! ## Where the decoder looks -/

theorem take_lengths : message.encode.take 8 = message.lengths := by
  simp only [encode, checked, List.append_assoc]
  exact List.take_left' message.length_lengths

theorem take_totalLength : message.encode.take 4 = toBeBytes 4 message.totalLength := by
  simp only [encode, checked, lengths, List.append_assoc]
  exact List.take_left' (length_toBeBytes _ _)

theorem take_headersLength :
    (message.encode.drop 4).take 4 = toBeBytes 4 message.headerBytes.length := by
  simp only [encode, checked, lengths, List.append_assoc]
  rw [List.drop_left' (length_toBeBytes _ _)]
  exact List.take_left' (length_toBeBytes _ _)

theorem take_preludeChecksum :
    (message.encode.drop 8).take 4 = toBeBytes 4 (Codecs.crc32 message.lengths).toNat := by
  simp only [encode, checked, List.append_assoc]
  rw [List.drop_left' message.length_lengths]
  exact List.take_left' (length_toBeBytes _ _)

theorem take_checked : message.encode.take (message.totalLength - 4) = message.checked :=
  List.take_left' message.length_checked

theorem drop_checked : message.encode.drop (message.totalLength - 4) =
    toBeBytes 4 (Codecs.crc32 message.checked).toNat :=
  List.drop_left' message.length_checked

theorem take_headerBytes :
    (message.encode.drop 12).take message.headerBytes.length = message.headerBytes := by
  have hprelude : (message.lengths ++
      toBeBytes 4 (Codecs.crc32 message.lengths).toNat).length = 12 := by
    rw [List.length_append, length_lengths, length_toBeBytes]
  have hencode : message.encode = (message.lengths ++
      toBeBytes 4 (Codecs.crc32 message.lengths).toNat) ++ (message.headerBytes ++
        (message.payload ++ toBeBytes 4 (Codecs.crc32 message.checked).toNat)) := by
    simp only [encode, checked, List.append_assoc]
  rw [hencode, List.drop_left' hprelude]
  exact List.take_left' rfl

theorem drop_payload : message.checked.drop (12 + message.headerBytes.length) =
    message.payload := by
  refine List.drop_left' ?_
  simp only [List.length_append, length_lengths, length_toBeBytes]

variable {message}

omit [Codecs] in
/-- The lengths of a message that fits are read back. -/
theorem Fits.read_lengths (h : message.Fits) :
    fromBeBytes (toBeBytes 4 message.totalLength) = message.totalLength ∧
      fromBeBytes (toBeBytes 4 message.headerBytes.length) = message.headerBytes.length := by
  have htotal := h.total
  have hheaders := h.headers
  have hmax : maxFrameBytes < 256 ^ 4 := by decide
  have hmax' : maxHeadersBytes < 256 ^ 4 := by decide
  exact ⟨fromBeBytes_toBeBytes (by omega), fromBeBytes_toBeBytes (by omega)⟩

theorem read_checksum (bytes : Bytes) :
    fromBeBytes (toBeBytes 4 (Codecs.crc32 bytes).toNat) = (Codecs.crc32 bytes).toNat :=
  fromBeBytes_toBeBytes (Codecs.crc32 bytes).toNat_lt

/-- **A message that fits is intact when it is written.** -/
theorem Fits.intact (h : message.Fits) : bedrockFrameIntact message.encode = true := by
  obtain ⟨htotal, hheaders⟩ := h.read_lengths
  have hlong : 16 ≤ message.totalLength := by
    unfold totalLength
    omega
  have hroom : message.headerBytes.length ≤ message.totalLength - 16 := by
    unfold totalLength
    omega
  unfold bedrockFrameIntact
  simp only [take_totalLength, take_headersLength, htotal, hheaders, length_encode, take_lengths,
    take_preludeChecksum, take_checked, drop_checked, read_checksum, hlong, hroom, h.total,
    h.headers]
  simp

theorem Fits.frameHeaders_encode (h : message.Fits) :
    frameHeaders message.encode = decodeBedrockHeaders message.headerBytes := by
  rw [frameHeaders, take_headersLength, h.read_lengths.2, take_headerBytes]

theorem Fits.framePayload_encode (h : message.Fits) :
    framePayload message.encode = message.payload := by
  obtain ⟨htotal, hlength⟩ := h.read_lengths
  rw [framePayload, take_headersLength, hlength, take_totalLength, htotal, take_checked,
    drop_payload]

/-- **The decoder finds the headers and the payload** of a message. -/
theorem Fits.decode_eq_ok_iff (h : message.Fits) {event : Bytes} :
    decodeBedrockFrame message.encode = .ok event ↔
      ∃ headers, decodeBedrockHeaders message.headerBytes = .ok headers ∧
        EventOf headers message.payload event := by
  rw [decodeBedrockFrame_eq_ok_iff, h.frameHeaders_encode, h.framePayload_encode]
  simp only [h.intact, true_and]

/-- A message that is accepted is the frame at the front, whatever
follows. -/
theorem Fits.front (h : message.Fits) {event : Bytes}
    (hevent : decodeBedrockFrame message.encode = .ok event) (rest : Bytes) :
    bedrockFramer.front (message.encode ++ rest) = .frame event rest := by
  obtain ⟨htotal, -⟩ := h.read_lengths
  have hlength := message.length_encode
  have hlong : 16 ≤ message.totalLength := by
    unfold totalLength
    omega
  have hmax := h.total
  have htake : (message.encode ++ rest).take 4 = toBeBytes 4 message.totalLength := by
    rw [List.take_append_of_le_length (by omega), take_totalLength]
  have hframe : (message.encode ++ rest).take message.totalLength = message.encode :=
    List.take_left' hlength
  have hrest : (message.encode ++ rest).drop message.totalLength = rest :=
    List.drop_left' hlength
  have hlonger : message.totalLength ≤ (message.encode ++ rest).length := by
    rw [List.length_append]
    omega
  rw [show bedrockFramer.front = frontFrame from rfl]
  simp only [frontFrame, htake, htotal, hframe, hrest, hevent]
  rw [if_neg (by omega), if_neg (by omega), if_neg (by omega)]

end Message

/-- **Messages that are accepted are translated one by one**, however the
stream of their frames is cut. -/
theorem translate_messages {α : Type} {message : α → Message} {event : α → Bytes} {l : List α}
    (hfits : ∀ a ∈ l, (message a).Fits)
    (hevent : ∀ a ∈ l, decodeBedrockFrame (message a).encode = .ok (event a))
    {body : List Bytes} (hbody : body.flatten = l.flatMap fun a => (message a).encode) :
    translateBedrockEventstream (body.map .ok) = l.map fun a => .ok (event a) := by
  have hdrain : bedrockFramer.drain (l.flatMap fun a => (message a).encode) =
      (l.map event, .ok []) :=
    Framer.drain_flatMap (fun a ha => (hfits a ha).front (hevent a ha)) rfl
  rw [translateBedrockEventstream, translateFrom_ok, List.nil_append, hbody, hdrain, itemsOf]
  simp

/-! ## Chunks -/

section Chunks

variable [Encoders]

/-- **A chunk**: a message of an event that is one, with any headers
besides, whose payload is the base64 text of a JSON object with a type. -/
structure Chunk where
  headers : List HeaderRecord
  formed : WellFormed headers
  messageType : Kept headers ":message-type" "event"
  eventType : Kept headers ":event-type" "chunk"
  /-- The text of the JSON object. -/
  content : String
  /-- The field `type` of the object. -/
  type : String
  hasType : ∃ fields, Codecs.jsonFromSlice (asBytes content) = some (.object fields) ∧
    fields.lookup "type" = some (.string type)

namespace Chunk

/-- A chunk's message. -/
def message (chunk : Chunk) : Message where
  headers := chunk.headers
  payload := asBytes (Codecs.jsonToString
    (.object [("bytes", .string (Encoders.base64Encode (asBytes chunk.content)))]))

/-- The server-sent event of a chunk. -/
def event (chunk : Chunk) : Bytes :=
  asBytes ("event: " ++ chunk.type ++ "\ndata: " ++ chunk.content ++ "\n\n")

theorem chunkEvent [LawfulCodecs] (chunk : Chunk) :
    bedrockChunkEvent chunk.message.payload = some chunk.event := by
  obtain ⟨fields, hjson, htype⟩ := chunk.hasType
  unfold bedrockChunkEvent message event
  simp [Encoders.jsonFromSlice_toString, Json.get, Json.asStr, Encoders.base64Decode_encode, hjson,
    htype, LawfulCodecs.fromUtf8Lossy_asBytes]

theorem decode_encode [LawfulCodecs] {chunk : Chunk} (h : chunk.message.Fits) :
    decodeBedrockFrame chunk.message.encode = .ok chunk.event := by
  obtain ⟨headers, hdecode, hkept⟩ := decodeBedrockHeaders_encodeAll chunk.formed
  exact h.decode_eq_ok_iff.mpr ⟨headers, hdecode,
    .chunk ((hkept _ _).mpr chunk.messageType) ((hkept _ _).mpr chunk.eventType)
      chunk.chunkEvent⟩

end Chunk

/-- **The event stream round trip.** Chunks that are written one after
another, cut in any way, are translated into their events: one for each,
in order, and no error. -/
theorem translate_chunks [LawfulCodecs] (chunks : List Chunk)
    (hfits : ∀ chunk ∈ chunks, chunk.message.Fits) (body : List Bytes)
    (hbody : body.flatten = chunks.flatMap fun chunk => chunk.message.encode) :
    translateBedrockEventstream (body.map .ok) = chunks.map fun chunk => .ok chunk.event :=
  translate_messages hfits (fun chunk hchunk => Chunk.decode_encode (hfits chunk hchunk)) hbody

end Chunks

end Messages

section Example

/-- A text under a name. -/
def textHeader (name text : String)
    (hname : 0 < (asBytes name).length ∧ (asBytes name).length < 256)
    (htext : (asBytes text).length < 2 ^ 16) : HeaderRecord := ⟨name, .ofText text htext, hname⟩

theorem messageType_fits :
    0 < (asBytes ":message-type").length ∧ (asBytes ":message-type").length < 256 := by
  decide +kernel

/-- The headers of a chunk, with a number among them. -/
def chunkHeaders : List HeaderRecord :=
  [textHeader ":event-type" "chunk" (by decide +kernel) (by decide +kernel),
    ⟨"count", ⟨4, [0, 0, 0, 7], (fits_fixed (by decide) _).mpr rfl⟩, by decide +kernel⟩,
    textHeader ":message-type" "event" messageType_fits (by decide +kernel)]

theorem wellFormed_chunkHeaders : WellFormed chunkHeaders :=
  ⟨by decide +kernel, by decide +kernel⟩

theorem kept_messageType : Kept chunkHeaders ":message-type" "event" :=
  ⟨textHeader ":message-type" "event" messageType_fits (by decide +kernel),
    by simp [chunkHeaders], by decide +kernel, rfl, by decide +kernel⟩

theorem kept_eventType : Kept chunkHeaders ":event-type" "chunk" :=
  ⟨textHeader ":event-type" "chunk" (by decide +kernel) (by decide +kernel),
    by simp [chunkHeaders], by decide +kernel, rfl, by decide +kernel⟩

/-- The document of a ping. -/
def pingText : String := "\x7b\"type\":\"ping\"\x7d"

/-- Two chunks in one body. -/
theorem translate_chunks_ping :
    letI := Codecs.plain
    letI := Encoders.plain
    ∃ chunk : Chunk, chunk.content = pingText ∧
      translateBedrockEventstream [.ok (chunk.message.encode ++ chunk.message.encode)] =
        [.ok (pingEvent),
          .ok (pingEvent)] := by
  let := Codecs.plain
  let := Encoders.plain
  have := Codecs.lawful_plain
  let chunk : Chunk :=
    { headers := chunkHeaders
      formed := wellFormed_chunkHeaders
      messageType := kept_messageType
      eventType := kept_eventType
      content := pingText
      type := "ping"
      hasType := ⟨_, Encoders.plain.jsonFromSlice_toString "type" "ping", rfl⟩ }
  have hfits : chunk.message.Fits := ⟨by decide +kernel, by decide +kernel⟩
  exact ⟨chunk, rfl, translate_chunks [chunk, chunk] (by simp [hfits]) [_] (by simp)⟩

end Example

end Bedrock

end Llmap
