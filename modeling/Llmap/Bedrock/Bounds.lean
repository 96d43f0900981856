import Llmap.Bedrock.Stream
import Llmap.Common.Panic
/-!
# Within bounds

The decoder indexes and slices a frame at lengths that the frame gives, and
moves a cursor through its headers. Here it is written once more with each of
these operations, every one of which may panic (`decodeBedrockFrameChecked`
and `decodeBedrockHeadersChecked`). None of them does, whatever the bytes are:
they return what `decodeBedrockFrame` and `decodeBedrockHeaders` return.

A machine word has so many `bits`, at least 32 of them, and as Rust has it a
slice is shorter than half of the words.
-/

namespace Llmap

namespace Bedrock

open Fallible

/-- The decoder, with its panics. -/
abbrev Decoding (α : Type) := Fallible FrameError α

/-- `InvalidBedrockFrame`. -/
def invalid {α : Type} : Decoding α := returned (.error .invalidBedrockFrame)

/-! ## The decoder, access by access -/

/-- `u32::from_be_bytes` of a slice that has to have four bytes. -/
def beWord (bytes : Bytes) : Decoding ℕ :=
  if bytes.length = 4 then pure (fromBeBytes bytes) else invalid

/-- `skip_bedrock_header_bytes`: the cursor behind so many bytes. -/
def skipBedrockHeaderBytesChecked (bits : ℕ) (encoded : Bytes) (cursor length : ℕ) :
    Decoding ℕ := do
  let stop ← access (Checked.add bits cursor length)
  if encoded.length < stop then invalid else pure stop

/-- The value of type 6 or 7: its length, its bytes, and the cursor behind
it. -/
def bedrockSizedValueChecked (bits : ℕ) (encoded : Bytes) (valueType : UInt8) (cursor : ℕ) :
    Decoding (Option String × ℕ) := do
  let start ← access (Checked.add bits cursor 2)
  if encoded.length < start then invalid
  else do
    let high ← access (Checked.index encoded cursor)
    let next ← access (Checked.add bits cursor 1)
    let low ← access (Checked.index encoded next)
    let stop ← access (Checked.add bits start (fromBeBytes [high, low]))
    if encoded.length < stop then invalid
    else if valueType = 7 then do
      let value ← access (Checked.slice encoded start stop)
      match fromUtf8 value with
      | none => invalid
      | some value => pure (some value, stop)
    else pure (none, stop)

/-- A header's value, by its type, and the cursor behind it. -/
def bedrockHeaderValueChecked (bits : ℕ) (encoded : Bytes) (valueType : UInt8) (cursor : ℕ) :
    Decoding (Option String × ℕ) :=
  let skip (length : ℕ) : Decoding (Option String × ℕ) := do
    let cursor ← skipBedrockHeaderBytesChecked bits encoded cursor length
    pure (none, cursor)
  match valueType.toNat with
  | 0 | 1 => pure (none, cursor)
  | 2 => skip 1
  | 3 => skip 2
  | 4 => skip 4
  | 5 | 8 => skip 8
  | 6 | 7 => bedrockSizedValueChecked bits encoded valueType cursor
  | 9 => skip 16
  | _ => invalid

/-- One header, at the cursor: what is kept then, and the cursor behind it. -/
def bedrockHeaderChecked (bits : ℕ) (encoded : Bytes) (headers : Table String String)
    (cursor : ℕ) : Decoding (Table String String × ℕ) := do
  let nameLength ← access (Checked.index encoded cursor)
  let cursor ← access (Checked.add bits cursor 1)
  if nameLength = 0 then invalid
  else do
    let nameEnd ← access (Checked.add bits cursor nameLength.toNat)
    let valueStart ← access (Checked.add bits nameEnd 1)
    if encoded.length < valueStart then invalid
    else do
      let name ← access (Checked.slice encoded cursor nameEnd)
      match fromUtf8 name with
      | none => invalid
      | some name => do
          let valueType ← access (Checked.index encoded nameEnd)
          let (value, cursor) ← bedrockHeaderValueChecked bits encoded valueType valueStart
          let headers ← returned (keepHeader headers name value)
          pure (headers, cursor)

/-- The loop of `decode_bedrock_headers`. It must not take more passes than
the fuel it is given. -/
def decodeBedrockHeadersLoop (bits : ℕ) (encoded : Bytes) :
    ℕ → Table String String → ℕ → Decoding (Table String String)
  | 0, _, _ => access none
  | fuel + 1, headers, cursor =>
      if cursor < encoded.length then do
        let (headers, cursor) ← bedrockHeaderChecked bits encoded headers cursor
        decodeBedrockHeadersLoop bits encoded fuel headers cursor
      else pure headers

/-- `decode_bedrock_headers`: each pass takes a byte at least. -/
def decodeBedrockHeadersChecked (bits : ℕ) (encoded : Bytes) : Decoding (Table String String) :=
  decodeBedrockHeadersLoop bits encoded (encoded.length + 1) ∅ 0

section Decoder

variable [Codecs]

/-- `decode_bedrock_frame`. -/
def decodeBedrockFrameChecked (bits : ℕ) (frame : Bytes) : Decoding Bytes :=
  if frame.length < 16 then invalid
  else do
    let totalLength ← beWord (← access (Checked.slice frame 0 4))
    let headersLength ← beWord (← access (Checked.slice frame 4 8))
    if totalLength ≠ frame.length ∨ maxFrameBytes < totalLength ∨
        maxHeadersBytes < headersLength ∨ totalLength - 16 < headersLength then invalid
    else do
      let expectedPrelude ← beWord (← access (Checked.slice frame 8 12))
      let messageEnd ← access (Checked.sub totalLength 4)
      let expectedMessage ← beWord (← access (Checked.slice frame messageEnd frame.length))
      let prelude ← access (Checked.slice frame 0 8)
      if (Codecs.crc32 prelude).toNat ≠ expectedPrelude then invalid
      else do
        let messageEnd ← access (Checked.sub totalLength 4)
        let message ← access (Checked.slice frame 0 messageEnd)
        if (Codecs.crc32 message).toNat ≠ expectedMessage then invalid
        else do
          let headersEnd ← access (Checked.add bits 12 headersLength)
          let encoded ← access (Checked.slice frame 12 headersEnd)
          let headers ← decodeBedrockHeadersChecked bits encoded
          match headers[":message-type"]? with
          | none => invalid
          | some messageType => do
              let payloadStart ← access (Checked.add bits 12 headersLength)
              let payloadEnd ← access (Checked.sub totalLength 4)
              let payload ← access (Checked.slice frame payloadStart payloadEnd)
              returned (bedrockEvent headers messageType payload)

/-- One pass of the `while` loop of `translate_bedrock_eventstream` over the
buffer. -/
def frontFrameChecked (bits : ℕ) (buffer : Bytes) : Option (Front UInt8 Bytes StreamError) :=
  if buffer.length < 4 then some .incomplete
  else do
    let first ← Checked.index buffer 0
    let second ← Checked.index buffer 1
    let third ← Checked.index buffer 2
    let fourth ← Checked.index buffer 3
    let totalLength := fromBeBytes [first, second, third, fourth]
    if totalLength < 16 ∨ maxFrameBytes < totalLength then some (.invalid invalidLength)
    else if buffer.length < totalLength then some .incomplete
    else do
      let (frame, rest) ← Checked.splitTo buffer totalLength
      match ← (decodeBedrockFrameChecked bits frame).run with
      | .ok event => some (.frame event rest)
      | .error _ => some (.invalid invalidFrame)

/-- The `while` loop. It must not take more passes than the fuel it is
given. -/
def drainChecked (bits : ℕ) : ℕ → Bytes → Option (List Bytes × Except StreamError Bytes)
  | 0, _ => none
  | fuel + 1, buffer => do
      match ← frontFrameChecked bits buffer with
      | .incomplete => some ([], .ok buffer)
      | .invalid error => some ([], .error error)
      | .frame event rest =>
          let (events, ending) ← drainChecked bits fuel rest
          some (event :: events, ending)

/-- `translate_bedrock_eventstream`, from what is left in the buffer: each
pass of the inner loop takes a byte at least. -/
def translateChecked (bits : ℕ) (buffer : Bytes) :
    List (Except String Bytes) → Option (List Item)
  | [] => do
      match ← drainChecked bits (buffer.length + 1) buffer with
      | (events, .error error) => some (events.map .ok ++ [.error error])
      | (events, .ok buffer) =>
          some (events.map .ok ++ if buffer = [] then [] else [.error truncated])
  | chunk :: input => do
      match ← drainChecked bits (buffer.length + 1) buffer with
      | (events, .error error) => some (events.map .ok ++ [.error error])
      | (events, .ok buffer) =>
          match chunk with
          | .error error => some (events.map .ok ++ [.error ⟨.other, error⟩])
          | .ok chunk => do
              let items ← translateChecked bits (buffer ++ chunk) input
              some (events.map .ok ++ items)

end Decoder

/-! ## Cursors -/

variable {bits cursor : ℕ} {encoded : Bytes}

/-- **A reading at a cursor agrees** with a reading of the bytes from it on:
it does not panic, fails when that fails, and leaves the cursor where what
follows begins. -/
inductive Agrees (encoded : Bytes) (cursor : ℕ) {α : Type} :
    Decoding (α × ℕ) → Except FrameError (α × Bytes) → Prop where
  | error (error : FrameError) : Agrees encoded cursor (returned (.error error)) (.error error)
  | ok (value : α) (cursor' : ℕ) (le : cursor ≤ cursor') (inside : cursor' ≤ encoded.length) :
      Agrees encoded cursor (pure (value, cursor')) (.ok (value, encoded.drop cursor'))

/-- Words have room for any cursor and any length in the headers. -/
def HasRoom (bits : ℕ) (encoded : Bytes) : Prop := encoded.length + 2 ^ 17 < 2 ^ bits

theorem hasRoom_of_lt (hbits : 32 ≤ bits) (h : encoded.length < 2 ^ (bits - 1)) :
    HasRoom bits encoded := by
  have hhalf : 2 ^ bits = 2 ^ (bits - 1) + 2 ^ (bits - 1) := by
    rw [← two_mul, ← pow_succ', Nat.sub_add_cancel (by omega)]
  have hroom : 2 ^ 17 ≤ 2 ^ (bits - 1) := Nat.pow_le_pow_right (by decide) (by omega)
  unfold HasRoom
  omega

theorem agrees_skip (hroom : HasRoom bits encoded) (hcursor : cursor ≤ encoded.length) (length : ℕ)
    (hlength : length ≤ 2 ^ 16) :
    Agrees (α := Option String) encoded cursor
      (skipBedrockHeaderBytesChecked bits encoded cursor length >>= fun cursor =>
        pure (none, cursor))
      ((skipBedrockHeaderBytes (encoded.drop cursor) length).map ((none, ·))) := by
  unfold HasRoom at hroom
  unfold skipBedrockHeaderBytesChecked skipBedrockHeaderBytes
  rw [access_bind (Checked.add_eq (by omega)), List.length_drop]
  by_cases hshort : encoded.length < cursor + length
  · rw [if_pos hshort, if_pos (by omega)]
    exact .error _
  · rw [if_neg hshort, if_neg (by omega), List.drop_drop]
    exact .ok none (cursor + length) (by omega) (by omega)

/-- A value that carries its length, at a cursor: too short for the length, too
short for the value, or there, between two places. -/
theorem bedrockSizedValue_drop (hcursor : cursor ≤ encoded.length) :
    (encoded.length < cursor + 2 ∧
      bedrockSizedValue (encoded.drop cursor) = .error .invalidBedrockFrame) ∨
    ∃ high low, cursor + 2 ≤ encoded.length ∧ Checked.index encoded cursor = some high ∧
      Checked.index encoded (cursor + 1) = some low ∧
      bedrockSizedValue (encoded.drop cursor) =
        let stop := cursor + 2 + fromBeBytes [high, low]
        if encoded.length < stop then .error .invalidBedrockFrame
        else .ok ((encoded.take stop).drop (cursor + 2), encoded.drop stop) := by
  unfold bedrockSizedValue
  by_cases hshort : encoded.length < cursor + 2
  · refine .inl ⟨hshort, ?_⟩
    rw [if_pos]
    rw [List.length_drop]
    omega
  · have hlength : ¬ (encoded.drop cursor).length < 2 := by
      rw [List.length_drop]
      omega
    have htwo : (encoded.drop cursor).take 2 =
        [encoded.get ⟨cursor, by omega⟩, encoded.get ⟨cursor + 1, by omega⟩] := by
      rw [List.drop_eq_getElem_cons (by omega), List.drop_eq_getElem_cons (by omega)]
      rfl
    refine .inr ⟨_, _, by omega, Checked.index_eq (by omega), Checked.index_eq (by omega), ?_⟩
    rw [if_neg hlength, htwo, List.drop_drop, List.length_drop]
    simp only [List.drop_take, List.drop_drop]
    by_cases hend : encoded.length < cursor + 2 +
        fromBeBytes [encoded.get ⟨cursor, by omega⟩, encoded.get ⟨cursor + 1, by omega⟩]
    · rw [if_pos hend, if_pos (by omega)]
    · rw [if_neg hend, if_neg (by omega), Nat.add_sub_cancel_left]

theorem agrees_sizedValue (hroom : HasRoom bits encoded) (hcursor : cursor ≤ encoded.length)
    {valueType : UInt8} (htype : valueType.toNat = 6 ∨ valueType.toNat = 7) :
    Agrees encoded cursor (bedrockSizedValueChecked bits encoded valueType cursor)
      (bedrockHeaderValue valueType (encoded.drop cursor)) := by
  unfold HasRoom at hroom
  unfold bedrockSizedValueChecked
  rw [access_bind (Checked.add_eq (by omega))]
  rcases bedrockSizedValue_drop hcursor with
    ⟨hshort, hvalue⟩ | ⟨high, low, hlong, hhigh, hlow, hvalue⟩
  · have hmodel : bedrockHeaderValue valueType (encoded.drop cursor) =
        .error .invalidBedrockFrame := by
      unfold bedrockHeaderValue
      rcases htype with htype | htype <;> simp [htype, hvalue, Except.map]
    rw [if_pos hshort, hmodel]
    exact .error _
  · have hsize : fromBeBytes [high, low] < 256 ^ 2 := fromBeBytes_lt [high, low]
    rw [if_neg (by omega), access_bind hhigh, access_bind (Checked.add_eq (by omega)),
      access_bind hlow, access_bind (Checked.add_eq (by omega))]
    by_cases hend : encoded.length < cursor + 2 + fromBeBytes [high, low]
    · have hmodel : bedrockHeaderValue valueType (encoded.drop cursor) =
          .error .invalidBedrockFrame := by
        unfold bedrockHeaderValue
        rcases htype with htype | htype <;> simp [htype, hvalue, if_pos hend, Except.map]
      rw [if_pos hend, hmodel]
      exact .error _
    · simp only [if_neg hend] at hvalue
      rw [if_neg hend]
      rcases htype with htype | htype
      · have hsix : valueType ≠ 7 := by
          rintro rfl
          cases htype
        have hmodel : bedrockHeaderValue valueType (encoded.drop cursor) =
            .ok (none, encoded.drop (cursor + 2 + fromBeBytes [high, low])) := by
          unfold bedrockHeaderValue
          simp [htype, hvalue, Except.map]
        rw [if_neg hsix, hmodel]
        exact .ok none _ (by omega) (by omega)
      · have hseven : valueType = 7 := UInt8.toNat_inj.mp htype
        rw [if_pos hseven, access_bind (Checked.slice_eq (by omega) (by omega))]
        unfold bedrockHeaderValue
        simp only [htype, hvalue]
        cases fromUtf8 ((encoded.take (cursor + 2 + fromBeBytes [high, low])).drop
            (cursor + 2)) with
        | none => exact .error _
        | some value => exact .ok (some value) _ (by omega) (by omega)

/-- A value of any type. -/
theorem agrees_headerValue (hroom : HasRoom bits encoded) (hcursor : cursor ≤ encoded.length)
    (valueType : UInt8) :
    Agrees encoded cursor (bedrockHeaderValueChecked bits encoded valueType cursor)
      (bedrockHeaderValue valueType (encoded.drop cursor)) := by
  have hskip := agrees_skip hroom hcursor
  by_cases htype : valueType.toNat = 6 ∨ valueType.toNat = 7
  · have hchecked : bedrockHeaderValueChecked bits encoded valueType cursor =
        bedrockSizedValueChecked bits encoded valueType cursor := by
      unfold bedrockHeaderValueChecked
      rcases htype with htype | htype <;> simp [htype]
    rw [hchecked]
    exact agrees_sizedValue hroom hcursor htype
  · unfold bedrockHeaderValueChecked bedrockHeaderValue
    generalize valueType.toNat = type at htype ⊢
    match type with
    | 0 | 1 => exact .ok none cursor le_rfl hcursor
    | 2 => exact hskip 1 (by omega)
    | 3 => exact hskip 2 (by omega)
    | 4 => exact hskip 4 (by omega)
    | 5 | 8 => exact hskip 8 (by omega)
    | 6 | 7 => omega
    | 9 => exact hskip 16 (by omega)
    | type + 10 => exact .error _

/-- One pass of the loop over a list of bytes. -/
theorem decodeBedrockHeadersFrom_cons {headers : Table String String} {nameLength valueType : UInt8}
    {valueBytes : Bytes} {name : String} (hzero : nameLength ≠ 0)
    (hdrop : encoded.drop nameLength.toNat = valueType :: valueBytes)
    (hname : fromUtf8 (encoded.take nameLength.toNat) = some name) :
    decodeBedrockHeadersFrom headers (nameLength :: encoded) =
      match bedrockHeaderValue valueType valueBytes with
      | .error error => .error error
      | .ok (value, rest) =>
          (keepHeader headers name value).bind fun headers =>
            decodeBedrockHeadersFrom headers rest := by
  have hlong : ¬ (nameLength = 0 ∨ encoded.length < nameLength.toNat + 1) := by
    have hlength := congrArg List.length hdrop
    rw [List.length_drop, List.length_cons] at hlength
    rw [not_or]
    exact ⟨hzero, by omega⟩
  rw [decodeBedrockHeadersFrom, if_neg hlong]
  simp only [hname]
  split
  · rename_i hnone
    rw [hdrop] at hnone
    cases hnone
  · rename_i valueType' valueBytes' hsome
    rw [hdrop] at hsome
    obtain ⟨rfl, rfl⟩ := List.cons.inj hsome
    split
    · rename_i error hvalue
      rw [hvalue]
    · rename_i value rest hvalue
      refine Eq.trans (b := (keepHeader headers name value).bind fun headers =>
        decodeBedrockHeadersFrom headers rest) ?_ (by rw [hvalue])
      cases keepHeader headers name value <;> rfl

/-- The byte at the cursor is the first of those from it on. -/
theorem exists_index (hcursor : cursor < encoded.length) :
    ∃ byte, Checked.index encoded cursor = some byte ∧
      encoded.drop cursor = byte :: encoded.drop (cursor + 1) :=
  ⟨_, Checked.index_eq hcursor, List.drop_eq_getElem_cons hcursor⟩

/-- **One pass of the loop**: the header at the cursor is read as the one at the
front of the bytes from there on. -/
theorem bedrockHeaderChecked_bind (hroom : HasRoom bits encoded) (hcursor : cursor < encoded.length)
    (headers : Table String String)
    (f : Table String String × ℕ → Decoding (Table String String))
    (hnext : ∀ headers cursor', cursor < cursor' → cursor' ≤ encoded.length →
      f (headers, cursor') =
        returned (decodeBedrockHeadersFrom headers (encoded.drop cursor'))) :
    (bedrockHeaderChecked bits encoded headers cursor >>= f) =
      returned (decodeBedrockHeadersFrom headers (encoded.drop cursor)) := by
  have hwords : encoded.length + 2 ^ 17 < 2 ^ bits := hroom
  obtain ⟨nameLength, hlength, hfront⟩ := exists_index hcursor
  have hbyte := nameLength.toNat_lt
  unfold bedrockHeaderChecked
  rw [access_bind hlength, access_bind (Checked.add_eq (by omega)), hfront]
  by_cases hzero : nameLength = 0
  · rw [if_pos hzero, decodeBedrockHeadersFrom, if_pos (.inl hzero)]
    rfl
  · rw [if_neg hzero, access_bind (Checked.add_eq (by omega)),
      access_bind (Checked.add_eq (by omega))]
    by_cases hshort : encoded.length < cursor + 1 + nameLength.toNat + 1
    · have hmodel : (encoded.drop (cursor + 1)).length < nameLength.toNat + 1 := by
        rw [List.length_drop]
        omega
      rw [if_pos hshort, decodeBedrockHeadersFrom, if_pos (.inr hmodel)]
      rfl
    · have hmodel : ¬ (nameLength = 0 ∨
          (encoded.drop (cursor + 1)).length < nameLength.toNat + 1) := by
        rw [List.length_drop, not_or]
        exact ⟨hzero, by omega⟩
      obtain ⟨valueType, htype, hrest⟩ :=
        exists_index (show cursor + 1 + nameLength.toNat < encoded.length by omega)
      rw [if_neg hshort, access_bind (Checked.slice_eq (by omega) (by omega)), List.drop_take,
        Nat.add_sub_cancel_left]
      cases hname : fromUtf8 ((encoded.drop (cursor + 1)).take nameLength.toNat) with
      | none =>
          rw [decodeBedrockHeadersFrom, if_neg hmodel, hname]
          rfl
      | some name =>
          rw [decodeBedrockHeadersFrom_cons hzero (by rw [List.drop_drop, hrest]) hname]
          have hvalue := agrees_headerValue hroom
            (show cursor + 1 + nameLength.toNat + 1 ≤ encoded.length by omega) valueType
          simp only
          rw [access_bind htype]
          revert hvalue
          generalize bedrockHeaderValueChecked bits encoded valueType _ = checked
          generalize bedrockHeaderValue valueType _ = value
          intro hvalue
          cases hvalue with
          | error error => rfl
          | ok value cursor' hle hinside =>
              have hkept := fun kept => hnext kept cursor' (by omega) hinside
              change (returned (keepHeader headers name value) >>= fun kept =>
                pure (kept, cursor')) >>= f =
                  returned ((keepHeader headers name value).bind fun kept =>
                    decodeBedrockHeadersFrom kept (encoded.drop cursor'))
              cases keepHeader headers name value with
              | error error => rfl
              | ok kept => exact hkept kept

/-- The loop goes through the bytes from the cursor on, if it may take as many
passes as there are. -/
theorem decodeBedrockHeadersLoop_eq (hroom : HasRoom bits encoded) {fuel : ℕ}
    (headers : Table String String) (hcursor : cursor ≤ encoded.length)
    (hfuel : encoded.length - cursor < fuel) :
    decodeBedrockHeadersLoop bits encoded fuel headers cursor =
      returned (decodeBedrockHeadersFrom headers (encoded.drop cursor)) := by
  induction fuel generalizing headers cursor with
  | zero => omega
  | succ fuel ih =>
      unfold decodeBedrockHeadersLoop
      by_cases hmore : cursor < encoded.length
      · rw [if_pos hmore]
        refine bedrockHeaderChecked_bind hroom hmore headers _ fun kept cursor' hlt hinside => ?_
        exact ih kept hinside (by omega)
      · rw [if_neg hmore, List.drop_eq_nil_of_le (by omega), decodeBedrockHeadersFrom]
        rfl

/-- **The headers are decoded within bounds.** -/
theorem decodeBedrockHeadersChecked_eq (hroom : HasRoom bits encoded) :
    decodeBedrockHeadersChecked bits encoded = returned (decodeBedrockHeaders encoded) :=
  decodeBedrockHeadersLoop_eq hroom ∅ (Nat.zero_le _) (by omega)

/-! ## Frames -/

section Decoder

variable [Codecs] {frame : Bytes}

omit [Codecs] in
/-- Four bytes of a frame that are there. -/
theorem beWord_bind {β : Type} {start stop : ℕ} (hstop : stop = start + 4)
    (hinside : stop ≤ frame.length) (f : ℕ → Decoding β) :
    (access (Checked.slice frame start stop) >>= fun bytes => beWord bytes >>= f) =
      f (fromBeBytes ((frame.drop start).take 4)) := by
  have hbytes : (frame.take stop).drop start = (frame.drop start).take 4 := by
    rw [List.drop_take, hstop, Nat.add_sub_cancel_left]
  have hlength : ((frame.drop start).take 4).length = 4 := by
    rw [List.length_take, List.length_drop]
    omega
  rw [access_bind (Checked.slice_eq (by omega) hinside), hbytes, beWord, if_pos hlength]
  rfl

/-- The rest of the decoder. -/
theorem decodeBedrockFrame_of_intact (hintact : bedrockFrameIntact frame = true) :
    decodeBedrockFrame frame =
      (frameHeaders frame).bind fun headers =>
        match headers[":message-type"]? with
        | none => .error .invalidBedrockFrame
        | some messageType => bedrockEvent headers messageType (framePayload frame) := by
  unfold decodeBedrockFrame
  simp only [hintact, Bool.true_eq_false, if_false]
  cases frameHeaders frame <;> rfl

theorem decodeBedrockFrame_of_not_intact (hintact : ¬ bedrockFrameIntact frame = true) :
    decodeBedrockFrame frame = .error .invalidBedrockFrame := by
  unfold decodeBedrockFrame
  rw [if_pos (Bool.eq_false_of_not_eq_true hintact)]

/-- The lengths of a frame that hold. -/
theorem bedrockFrameIntact_iff :
    bedrockFrameIntact frame = true ↔
      (16 ≤ frame.length ∧ fromBeBytes (frame.take 4) = frame.length ∧
        fromBeBytes (frame.take 4) ≤ maxFrameBytes ∧
        fromBeBytes ((frame.drop 4).take 4) ≤ maxHeadersBytes ∧
        fromBeBytes ((frame.drop 4).take 4) ≤ fromBeBytes (frame.take 4) - 16) ∧
      (Codecs.crc32 (frame.take 8)).toNat = fromBeBytes ((frame.drop 8).take 4) ∧
      (Codecs.crc32 (frame.take (fromBeBytes (frame.take 4) - 4))).toNat =
        fromBeBytes (frame.drop (fromBeBytes (frame.take 4) - 4)) := by
  simp only [bedrockFrameIntact, Bool.and_eq_true, decide_eq_true_eq, and_assoc]

/-- **A frame is decoded within bounds**, whatever its bytes are. -/
theorem decodeBedrockFrameChecked_eq (hbits : 32 ≤ bits) (frame : Bytes) :
    decodeBedrockFrameChecked bits frame = returned (decodeBedrockFrame frame) := by
  have hwords : 2 ^ 32 ≤ 2 ^ bits := Nat.pow_le_pow_right (by decide) hbits
  have hmax : maxHeadersBytes = 131072 := rfl
  have hinvalid (hintact : ¬ bedrockFrameIntact frame = true) :
      invalid = returned (decodeBedrockFrame frame) := by
    rw [decodeBedrockFrame_of_not_intact hintact]
    rfl
  unfold decodeBedrockFrameChecked
  by_cases hshort : frame.length < 16
  · rw [if_pos hshort]
    exact hinvalid fun hintact => absurd (bedrockFrameIntact_iff.mp hintact).1.1 (by omega)
  rw [if_neg hshort, beWord_bind rfl (by omega), beWord_bind rfl (by omega), List.drop_zero]
  by_cases hlengths : fromBeBytes (frame.take 4) ≠ frame.length ∨
      maxFrameBytes < fromBeBytes (frame.take 4) ∨
      maxHeadersBytes < fromBeBytes ((frame.drop 4).take 4) ∨
      fromBeBytes (frame.take 4) - 16 < fromBeBytes ((frame.drop 4).take 4)
  · rw [if_pos hlengths]
    refine hinvalid fun hintact => ?_
    obtain ⟨⟨-, htotal, hframe, hheaders, hinside⟩, -⟩ := bedrockFrameIntact_iff.mp hintact
    omega
  rw [if_neg hlengths]
  obtain ⟨htotal, hframe, hheaders, hinside⟩ : fromBeBytes (frame.take 4) = frame.length ∧
      fromBeBytes (frame.take 4) ≤ maxFrameBytes ∧
      fromBeBytes ((frame.drop 4).take 4) ≤ maxHeadersBytes ∧
      fromBeBytes ((frame.drop 4).take 4) ≤ fromBeBytes (frame.take 4) - 16 := by
    omega
  -- what the prelude says is true, so that everything below is inside the frame
  have hend : fromBeBytes (frame.take 4) - 4 + 4 = frame.length := by omega
  have hlast : (frame.drop (fromBeBytes (frame.take 4) - 4)).take 4 =
      frame.drop (fromBeBytes (frame.take 4) - 4) :=
    List.take_of_length_le (by rw [List.length_drop]; omega)
  rw [beWord_bind rfl (by omega), access_bind (Checked.sub_eq (by omega)),
    beWord_bind hend.symm le_rfl, hlast, access_bind (Checked.slice_eq (by omega) (by omega)),
    List.drop_zero]
  by_cases hprelude : (Codecs.crc32 (frame.take 8)).toNat ≠ fromBeBytes ((frame.drop 8).take 4)
  · rw [if_pos hprelude]
    exact hinvalid fun hintact => hprelude (bedrockFrameIntact_iff.mp hintact).2.1
  rw [if_neg hprelude, access_bind (Checked.sub_eq (by omega)),
    access_bind (Checked.slice_eq (by omega) (by omega)), List.drop_zero]
  by_cases hmessage : (Codecs.crc32 (frame.take (fromBeBytes (frame.take 4) - 4))).toNat ≠
      fromBeBytes (frame.drop (fromBeBytes (frame.take 4) - 4))
  · rw [if_pos hmessage]
    exact hinvalid fun hintact => hmessage (bedrockFrameIntact_iff.mp hintact).2.2
  have hintact : bedrockFrameIntact frame = true :=
    bedrockFrameIntact_iff.mpr ⟨⟨by omega, htotal, hframe, hheaders, hinside⟩,
      not_not.mp hprelude, not_not.mp hmessage⟩
  have hencoded : (frame.take (12 + fromBeBytes ((frame.drop 4).take 4))).drop 12 =
      (frame.drop 12).take (fromBeBytes ((frame.drop 4).take 4)) := by
    rw [List.drop_take, Nat.add_sub_cancel_left]
  have hroom : HasRoom bits ((frame.drop 12).take (fromBeBytes ((frame.drop 4).take 4))) := by
    unfold HasRoom
    rw [List.length_take]
    omega
  rw [if_neg hmessage, access_bind (Checked.add_eq (by omega)),
    access_bind (Checked.slice_eq (by omega) (by omega)), hencoded,
    decodeBedrockHeadersChecked_eq hroom, decodeBedrockFrame_of_intact hintact, frameHeaders]
  cases decodeBedrockHeaders ((frame.drop 12).take (fromBeBytes ((frame.drop 4).take 4))) with
  | error error => rfl
  | ok headers =>
      rw [returned_ok_bind]
      simp only [Except.bind]
      cases headers[":message-type"]? with
      | none => rfl
      | some messageType =>
          simp only
          rw [access_bind (Checked.add_eq (by omega)), access_bind (Checked.sub_eq (by omega)),
            access_bind (Checked.slice_eq (by omega) (by omega))]
          rfl

/-- **A buffer is split within bounds**, whatever has arrived. -/
theorem frontFrameChecked_eq (hbits : 32 ≤ bits) (buffer : Bytes) :
    frontFrameChecked bits buffer = some (frontFrame buffer) := by
  match buffer with
  | [] | [_] | [_, _] | [_, _, _] => rfl
  | first :: second :: third :: fourth :: rest =>
      generalize hbuffer : first :: second :: third :: fourth :: rest = buffer
      have hfour : ¬ buffer.length < 4 := by
        rw [← hbuffer]
        simp
      have hword : buffer.take 4 = [first, second, third, fourth] := by
        rw [← hbuffer]
        rfl
      unfold frontFrameChecked frontFrame
      rw [if_neg hfour, if_neg hfour, hword]
      subst hbuffer
      change (if fromBeBytes [first, second, third, fourth] < 16 ∨ _ then _ else _) =
        some (if fromBeBytes [first, second, third, fourth] < 16 ∨ _ then _ else _)
      generalize fromBeBytes [first, second, third, fourth] = totalLength
      by_cases hrange : totalLength < 16 ∨ maxFrameBytes < totalLength
      · rw [if_pos hrange, if_pos hrange]
      · rw [if_neg hrange, if_neg hrange]
        by_cases hmore : (first :: second :: third :: fourth :: rest).length < totalLength
        · rw [if_pos hmore, if_pos hmore]
        · rw [if_neg hmore, if_neg hmore, Checked.splitTo_eq (by omega)]
          simp only [Option.bind_eq_bind, Option.bind_some, decodeBedrockFrameChecked_eq hbits,
            returned, ExceptT.run_mk]
          cases decodeBedrockFrame _ <;> rfl

/-- The loop takes the frames there are. -/
theorem drainChecked_eq (hbits : 32 ≤ bits) {fuel : ℕ} (buffer : Bytes)
    (hfuel : buffer.length < fuel) :
    drainChecked bits fuel buffer = some (bedrockFramer.drain buffer) := by
  induction fuel generalizing buffer with
  | zero => omega
  | succ fuel ih =>
      unfold drainChecked
      rw [frontFrameChecked_eq hbits, Option.bind_eq_bind, Option.bind_some]
      cases hfront : frontFrame buffer with
      | incomplete => exact congrArg some (Framer.drain_of_incomplete hfront).symm
      | invalid error => exact congrArg some (Framer.drain_of_invalid hfront).symm
      | frame event rest =>
          have hshorter := bedrockFramer.rest_length_lt hfront
          rw [Framer.drain_of_frame hfront]
          simp only
          rw [ih rest (by omega)]
          rfl

/-- **A body is translated within bounds**, whatever arrives. -/
theorem translateChecked_eq (hbits : 32 ≤ bits) (buffer : Bytes)
    (input : List (Except String Bytes)) :
    translateChecked bits buffer input = some (translateFrom buffer input) := by
  induction input generalizing buffer with
  | nil =>
      unfold translateChecked
      rw [translateFrom, drainChecked_eq hbits buffer (Nat.lt_succ_self _), Option.bind_eq_bind,
        Option.bind_some]
      obtain ⟨events, ending⟩ := bedrockFramer.drain buffer
      cases ending <;> rfl
  | cons chunk input ih =>
      unfold translateChecked
      rw [translateFrom, drainChecked_eq hbits buffer (Nat.lt_succ_self _), Option.bind_eq_bind,
        Option.bind_some]
      obtain ⟨events, ending⟩ := bedrockFramer.drain buffer
      cases ending with
      | error error => rfl
      | ok rest =>
          cases chunk with
          | error error => rfl
          | ok chunk =>
              simp only
              rw [ih]
              rfl

/-! ## Malformed bodies -/

/-- **A well-formed body**: its chunks arrive, and what they hold is one frame
that is accepted after another. -/
def WellFormedBody (body : List (Except String Bytes)) : Prop :=
  ∃ (chunks frames : List Bytes), body = chunks.map .ok ∧ chunks.flatten = frames.flatten ∧
    ∀ frame ∈ frames, ∃ event, decodeBedrockFrame frame = .ok event

/-- A frame at the front of a buffer has been accepted. -/
theorem exists_frame_of_front {buffer event rest : Bytes}
    (h : frontFrame buffer = .frame event rest) :
    ∃ frame, buffer = frame ++ rest ∧ decodeBedrockFrame frame = .ok event := by
  simp only [frontFrame] at h
  split at h
  · cases h
  · split at h
    · cases h
    · split at h
      · cases h
      · split at h
        · rename_i hok
          cases h
          exact ⟨_, (List.take_append_drop _ _).symm, hok⟩
        · cases h

/-- What is drained is frames that have been accepted. -/
theorem exists_frames_of_drain {buffer rest : Bytes} {events : List Bytes}
    (h : bedrockFramer.drain buffer = (events, .ok rest)) :
    ∃ frames : List Bytes, buffer = frames.flatten ++ rest ∧
      ∀ frame ∈ frames, ∃ event, decodeBedrockFrame frame = .ok event := by
  induction buffer using bedrockFramer.drain_induct generalizing events with
  | incomplete buffer hfront =>
      rw [Framer.drain_of_incomplete hfront] at h
      cases h
      exact ⟨[], rfl, by simp⟩
  | invalid buffer error hfront =>
      rw [Framer.drain_of_invalid hfront] at h
      cases h
  | frame buffer event after hfront ih =>
      rw [Framer.drain_of_frame hfront] at h
      obtain ⟨-, hending⟩ := Prod.mk.inj h
      obtain ⟨frames, rfl, hframes⟩ := ih (Prod.ext rfl hending)
      obtain ⟨frame, rfl, hframe⟩ := exists_frame_of_front hfront
      refine ⟨frame :: frames, by simp, ?_⟩
      exact List.forall_mem_cons.mpr ⟨⟨event, hframe⟩, hframes⟩

/-- A body without an error in its translation is well-formed. -/
theorem wellFormed_of_forall_ok (buffer : Bytes) (input : List (Except String Bytes))
    (h : ∀ item ∈ translateFrom buffer input, ∃ event, item = .ok event) :
    ∃ (chunks frames : List Bytes), input = chunks.map .ok ∧
      buffer ++ chunks.flatten = frames.flatten ∧
      ∀ frame ∈ frames, ∃ event, decodeBedrockFrame frame = .ok event := by
  have hnot (error : StreamError) : .error error ∉ translateFrom buffer input := by
    intro hmem
    obtain ⟨event, hevent⟩ := h _ hmem
    cases hevent
  induction input generalizing buffer with
  | nil =>
      rw [translateFrom] at hnot
      cases hdrain : bedrockFramer.drain buffer with
      | mk events ending =>
          rw [hdrain] at hnot
          cases ending with
          | error error => exact absurd (by simp) (hnot error)
          | ok rest =>
              obtain ⟨frames, hbuffer, hframes⟩ := exists_frames_of_drain hdrain
              by_cases hrest : rest = []
              · exact ⟨[], frames, rfl, by simp [hbuffer, hrest], hframes⟩
              · exact absurd (by simp [hrest]) (hnot truncated)
  | cons chunk input ih =>
      rw [translateFrom] at h hnot
      cases hdrain : bedrockFramer.drain buffer with
      | mk events ending =>
          rw [hdrain] at h hnot
          cases ending with
          | error error => exact absurd (by simp) (hnot error)
          | ok rest =>
              obtain ⟨frames, hbuffer, hframes⟩ := exists_frames_of_drain hdrain
              cases chunk with
              | error error => exact absurd (by simp) (hnot ⟨.other, error⟩)
              | ok chunk =>
                  obtain ⟨chunks, frames', rfl, hflatten, hframes'⟩ := ih (rest ++ chunk)
                    (fun item hitem => h item (List.mem_append_right _ hitem))
                    fun error hmem => hnot error (List.mem_append_right _ hmem)
                  refine ⟨chunk :: chunks, frames ++ frames', rfl, ?_, ?_⟩
                  · rw [hbuffer, List.flatten_append, ← hflatten]
                    simp
                  · exact fun frame hframe => (List.mem_append.mp hframe).elim (hframes frame)
                      (hframes' frame)

/-- **The decoder stays within bounds.** On machine words of 32 bits or more,
no index, slice, subtraction, sum or split panics: not in a frame of any
length and content, not in the headers of any slice, and not in a body of any
chunks. A body that is not well-formed ends in an error, and nothing follows
it. -/
theorem decoder_within_bounds (hbits : 32 ≤ bits) :
    (∀ frame, decodeBedrockFrameChecked bits frame = returned (decodeBedrockFrame frame)) ∧
    (∀ encoded : Bytes, encoded.length < 2 ^ (bits - 1) →
      decodeBedrockHeadersChecked bits encoded = returned (decodeBedrockHeaders encoded)) ∧
    ∀ body, translateChecked bits [] body = some (translateBedrockEventstream body) ∧
      ErrorLast (translateBedrockEventstream body) ∧
      (¬ WellFormedBody body → ∃ error, .error error ∈ translateBedrockEventstream body) := by
  refine ⟨decodeBedrockFrameChecked_eq hbits, fun encoded hlength =>
    decodeBedrockHeadersChecked_eq (hasRoom_of_lt hbits hlength), fun body =>
    ⟨translateChecked_eq hbits [] body, errorLast_translateFrom [] body, fun hmalformed => ?_⟩⟩
  by_contra hnone
  refine hmalformed (wellFormed_of_forall_ok [] body fun item hitem => ?_)
  cases item with
  | error error => exact absurd ⟨error, hitem⟩ hnone
  | ok event => exact ⟨event, rfl⟩

end Decoder

/-- A ping in two chunks, and then a length that no frame has. -/
theorem decoder_within_bounds_ping :
    letI := Codecs.plain
    let body := [.ok (pingFrame.take 30), .ok (pingFrame.drop 30), .ok [0, 0], .ok [0, 15, 9]]
    32 ≤ 64 ∧ translateChecked 64 [] body = some (translateBedrockEventstream body) ∧
      translateBedrockEventstream body = [.ok pingEvent, .error invalidLength] := by
  let := Codecs.plain
  intro body
  exact ⟨by decide, ((decoder_within_bounds (by decide)).2.2 _).1, by decide +kernel⟩

end Bedrock

end Llmap
