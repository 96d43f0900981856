import Llmap.Common.Rust
/-!
# Server-sent events

A stream of events is a text of lines. A line is a field, of a name and a
value after a colon, and a blank line ends an event, which has the name the
last `event` field gave and the lines of its `data` fields. A reader keeps
what it has read of an event in a buffer (`EventBuffer`) and takes one line
at a time (`readLine`).

An event is written as two fields (`eventText`). It is read back exactly if
neither its name nor its data has a line break (`parseEvents_eventText_iff`):
no name that is read has one, and data of more than one line is read back
shorter than it was.
-/

namespace Llmap

namespace EventStream

/-- An event: its name, empty if it has none, and its data. -/
structure ServerEvent where
  name : String
  data : String
  deriving DecidableEq, Repr

/-- What has been read of an event: its name and the lines of its data. -/
structure EventBuffer where
  name : List Char := []
  data : List (List Char) := []

/-! ## Reading -/

/-- The lines of a text that are ended. -/
def endedLines (text : List Char) : List (List Char) := (text.splitOn '\n').dropLast

/-- The value of a field has no blank before it. -/
def fieldValue : List Char → List Char
  | ' ' :: value => value
  | value => value

/-- A line's field: its name is what stands before the first colon. -/
def fieldOf (line : List Char) : List Char × List Char :=
  (line.takeWhile (· ≠ ':'), fieldValue ((line.dropWhile (· ≠ ':')).drop 1))

/-- The field that names an event. -/
def eventField : List Char := ['e', 'v', 'e', 'n', 't']

/-- The field of a line of data. -/
def dataField : List Char := ['d', 'a', 't', 'a']

/-- A field other than these two is left out, a comment among them. -/
def EventBuffer.readField (buffer : EventBuffer) (line : List Char) : EventBuffer :=
  if (fieldOf line).1 = eventField then { buffer with name := (fieldOf line).2 }
  else if (fieldOf line).1 = dataField then
    { buffer with data := buffer.data ++ [(fieldOf line).2] }
  else buffer

/-- The event of a buffer, if it has data. -/
def EventBuffer.dispatch (buffer : EventBuffer) : List ServerEvent :=
  if buffer.data = [] then []
  else [⟨String.ofList buffer.name, String.ofList (['\n'].intercalate buffer.data)⟩]

/-- One line: a blank one ends the event. -/
def readLine (state : List ServerEvent × EventBuffer) (line : List Char) :
    List ServerEvent × EventBuffer :=
  if line = [] then (state.1 ++ state.2.dispatch, {}) else (state.1, state.2.readField line)

/-- **The events of a text.** What follows the last blank line is no event. -/
def parseEvents (text : String) : List ServerEvent :=
  ((endedLines text.toList).foldl readLine ([], {})).1

/-- An event as it is written. -/
def eventText (name data : String) : String :=
  "event: " ++ name ++ "\ndata: " ++ data ++ "\n\n"

/-! ## Writing -/

/-- A field as it is written. -/
def fieldLine (name value : List Char) : List Char := name ++ ':' :: ' ' :: value

theorem fieldOf_fieldLine {name : List Char} (h : ':' ∉ name) (value : List Char) :
    fieldOf (fieldLine name value) = (name, value) := by
  have hname : ∀ c ∈ name, decide (c ≠ ':') = true := by
    intro c hc
    exact decide_eq_true fun heq => h (heq ▸ hc)
  unfold fieldOf fieldLine
  rw [List.takeWhile_append_of_pos hname, List.dropWhile_append_of_pos hname]
  simp [fieldValue]

theorem fieldLine_ne_nil (name value : List Char) : fieldLine name value ≠ [] := by
  simp [fieldLine]

theorem readLine_eventField (state : List ServerEvent × EventBuffer) (value : List Char) :
    readLine state (fieldLine eventField value) = (state.1, { state.2 with name := value }) := by
  have hfield := fieldOf_fieldLine (show ':' ∉ eventField by decide) value
  rw [readLine, if_neg (fieldLine_ne_nil _ _), EventBuffer.readField, hfield, if_pos rfl]

theorem readLine_dataField (state : List ServerEvent × EventBuffer) (value : List Char) :
    readLine state (fieldLine dataField value) =
      (state.1, { state.2 with data := state.2.data ++ [value] }) := by
  have hfield := fieldOf_fieldLine (show ':' ∉ dataField by decide) value
  rw [readLine, if_neg (fieldLine_ne_nil _ _), EventBuffer.readField, hfield,
    if_neg (show dataField ≠ eventField by decide), if_pos rfl]

/-- The lines of an event that has no line break in its name. -/
theorem endedLines_eventText {name : String} (hname : '\n' ∉ name.toList) (data : String) :
    endedLines (eventText name data).toList = fieldLine eventField name.toList ::
      ((fieldLine dataField data.toList).splitOn '\n' ++ [[]]) := by
  have htext : (eventText name data).toList = fieldLine eventField name.toList ++
      '\n' :: (fieldLine dataField data.toList ++ '\n' :: ([] ++ ['\n'])) := by
    simp [eventText, fieldLine, eventField, dataField, String.toList_append]
  have hline : '\n' ∉ fieldLine eventField name.toList := by
    simpa [fieldLine, eventField] using hname
  rw [endedLines, htext, List.splitOn_append_cons_self_of_not_mem hline,
    List.splitOn_append_cons_self, List.splitOn_append_cons_self]
  simp only [List.splitOn_nil, List.singleton_append]
  rw [List.dropLast_cons_of_ne_nil (by simp), List.dropLast_append_cons]
  rfl

/-- **An event of one line** is read back. -/
theorem parseEvents_eventText {name data : String} (hname : '\n' ∉ name.toList)
    (hdata : '\n' ∉ data.toList) : parseEvents (eventText name data) = [⟨name, data⟩] := by
  have hline : '\n' ∉ fieldLine dataField data.toList := by
    simpa [fieldLine, dataField] using hdata
  rw [parseEvents, endedLines_eventText hname, List.splitOn_eq_singleton hline]
  simp only [List.singleton_append, List.foldl_cons, List.foldl_nil, readLine_eventField,
    readLine_dataField]
  simp [readLine, EventBuffer.dispatch]

/-! ## Names -/

/-- What is read of a line is a part of it. -/
theorem mem_of_mem_fieldOf {line : List Char} {c : Char} (h : c ∈ (fieldOf line).2) :
    c ∈ line := by
  have hrest : c ∈ (line.dropWhile (· ≠ ':')).drop 1 := by
    unfold fieldOf fieldValue at h
    dsimp only at h
    split at h
    · rename_i value heq
      rw [heq]
      exact List.mem_cons_of_mem _ h
    · exact h
  exact (List.dropWhile_suffix _).subset (List.mem_of_mem_drop hrest)

/-- Names without a line break. -/
def NamesOnOneLine (state : List ServerEvent × EventBuffer) : Prop :=
  (∀ event ∈ state.1, '\n' ∉ event.name.toList) ∧ '\n' ∉ state.2.name

theorem namesOnOneLine_readLine {state : List ServerEvent × EventBuffer} {line : List Char}
    (h : NamesOnOneLine state) (hline : '\n' ∉ line) : NamesOnOneLine (readLine state line) := by
  obtain ⟨hevents, hname⟩ := h
  unfold readLine
  split
  · refine ⟨fun event hevent => ?_, by simp⟩
    rcases List.mem_append.mp hevent with hevent | hevent
    · exact hevents event hevent
    · unfold EventBuffer.dispatch at hevent
      split at hevent
      · cases hevent
      · rw [List.mem_singleton.mp hevent, String.toList_ofList]
        exact hname
  · refine ⟨hevents, ?_⟩
    unfold EventBuffer.readField
    split
    · exact fun hmem => hline (mem_of_mem_fieldOf hmem)
    · split
      · exact hname
      · exact hname

/-- **No name that is read has a line break.** -/
theorem newline_notMem_name {text : String} {event : ServerEvent}
    (h : event ∈ parseEvents text) : '\n' ∉ event.name.toList := by
  have hrun : ∀ (lines : List (List Char)) (state : List ServerEvent × EventBuffer),
      NamesOnOneLine state → (∀ line ∈ lines, '\n' ∉ line) →
        NamesOnOneLine (lines.foldl readLine state) := by
    intro lines
    induction lines with
    | nil => exact fun _ hstate _ => hstate
    | cons line lines ih =>
        intro state hstate hlines
        have hstep := namesOnOneLine_readLine hstate (hlines line (List.mem_cons_self ..))
        exact ih _ hstep fun line hline => hlines line (List.mem_cons_of_mem _ hline)
  refine (hrun (endedLines text.toList) ([], {}) ⟨by simp, by simp⟩ ?_).1 event h
  intro line hline
  exact notMem_of_mem_splitOn (List.dropLast_subset _ hline)

/-! ## Sizes -/

/-- The room of lines that are each ended. -/
def room (lines : List (List Char)) : ℕ := (lines.map fun line => line.length + 1).sum

/-- The room of all data that has been read. -/
def roomRead (state : List ServerEvent × EventBuffer) : ℕ :=
  (state.1.map fun event => event.data.toList.length + 1).sum + room state.2.data

theorem length_intercalate {lines : List (List Char)} (h : lines ≠ []) :
    (['\n'].intercalate lines).length + 1 = room lines := by
  induction lines with
  | nil => exact absurd rfl h
  | cons line lines ih =>
      cases lines with
      | nil => simp [room]
      | cons next lines =>
          have hnext := ih (by simp)
          rw [List.intercalate_cons_cons]
          simp only [List.length_append, List.length_singleton, room, List.map_cons,
            List.sum_cons] at hnext ⊢
          omega

theorem length_fieldOf {line : List Char} (h : (fieldOf line).1 = dataField) :
    (fieldOf line).2.length + 1 ≤ line.length := by
  have hname : (line.takeWhile (· ≠ ':')).length = 4 := by
    rw [show line.takeWhile (· ≠ ':') = dataField from h]
    rfl
  have hvalue : (fieldOf line).2.length ≤ (line.dropWhile (· ≠ ':')).length := by
    unfold fieldOf fieldValue
    dsimp only
    split
    · rename_i value heq
      have hlength := congrArg List.length heq
      rw [List.length_cons, List.length_drop] at hlength
      omega
    · rw [List.length_drop]
      omega
  have hline := congrArg List.length (List.takeWhile_append_dropWhile (p := (· ≠ ':')) (l := line))
  rw [List.length_append] at hline
  omega

/-- **A line gives less room than it takes.** -/
theorem roomRead_readLine (state : List ServerEvent × EventBuffer) (line : List Char) :
    roomRead (readLine state line) ≤ roomRead state + line.length := by
  unfold readLine
  split
  · unfold EventBuffer.dispatch roomRead
    split
    · simp only [List.append_nil, room, List.map_nil, List.sum_nil]
      omega
    · rename_i hdata
      have hroom := length_intercalate hdata
      simp only [List.map_append, List.map_cons, List.map_nil, List.sum_append, List.sum_cons,
        List.sum_nil, String.toList_ofList]
      rw [hroom]
      simp [room]
  · unfold EventBuffer.readField roomRead
    split
    · simp
    · split
      · rename_i hfield
        have hlength := length_fieldOf hfield
        simp only [room, List.map_append, List.map_cons, List.map_nil, List.sum_append,
          List.sum_cons, List.sum_nil]
        omega
      · simp

theorem roomRead_foldl (lines : List (List Char)) (state : List ServerEvent × EventBuffer) :
    roomRead (lines.foldl readLine state) ≤ roomRead state + (lines.map List.length).sum := by
  induction lines generalizing state with
  | nil => simp
  | cons line lines ih =>
      have hstep := roomRead_readLine state line
      have hrest := ih (readLine state line)
      rw [List.foldl_cons, List.map_cons, List.sum_cons]
      omega

theorem sum_length_splitOn (text : List Char) :
    ((text.splitOn '\n').map List.length).sum ≤ text.length := by
  induction text with
  | nil => simp
  | cons c text ih =>
      rw [List.splitOn_cons_eq_if_modifyHead]
      split
      · simp only [List.map_cons, List.length_nil, List.sum_cons, List.length_cons]
        omega
      · obtain ⟨first, rest, hsplit⟩ :=
          List.exists_cons_of_ne_nil (List.splitOn_ne_nil '\n' text)
        rw [hsplit] at ih ⊢
        simp only [List.modifyHead_cons, List.map_cons, List.sum_cons, List.length_cons] at ih ⊢
        omega

/-- Data of more than one line is not read back: each line break takes room
and gives none. -/
theorem parseEvents_eventText_ne {name data : String} (hname : '\n' ∉ name.toList)
    (hdata : '\n' ∈ data.toList) : parseEvents (eventText name data) ≠ [⟨name, data⟩] := by
  intro hparse
  obtain ⟨line, rest, hsplit, hline⟩ := List.eq_append_cons_of_mem hdata
  have hfirst : fieldLine dataField data.toList = fieldLine dataField line ++ '\n' :: rest := by
    simp [fieldLine, hsplit]
  have hfree : '\n' ∉ fieldLine dataField line := by
    simpa [fieldLine, dataField] using hline
  rw [parseEvents, endedLines_eventText hname, hfirst,
    List.splitOn_append_cons_self_of_not_mem hfree] at hparse
  simp only [List.cons_append, List.foldl_cons, readLine_eventField, readLine_dataField] at hparse
  -- what was read after the first line of data
  have hread := roomRead_foldl (rest.splitOn '\n' ++ [[]])
    ([], { name := name.toList, data := [line] })
  have hlength := sum_length_splitOn rest
  have hwhole := congrArg List.length hsplit
  simp only [List.nil_append] at hparse
  rw [roomRead, hparse] at hread
  simp only [roomRead, room, List.map_cons, List.map_nil, List.sum_cons, List.sum_nil,
    List.map_append, List.sum_append, List.length_nil, List.length_append,
    List.length_cons] at hread hwhole
  omega

/-- **What is read back exactly** has no line break. -/
theorem parseEvents_eventText_iff {name data : String} :
    parseEvents (eventText name data) = [⟨name, data⟩] ↔
      '\n' ∉ name.toList ∧ '\n' ∉ data.toList := by
  constructor
  · intro hparse
    have hevent : ⟨name, data⟩ ∈ parseEvents (eventText name data) := by
      rw [hparse]
      exact List.mem_singleton_self _
    have hname := newline_notMem_name hevent
    exact ⟨hname, fun hdata => parseEvents_eventText_ne hname hdata hparse⟩
  · rintro ⟨hname, hdata⟩
    exact parseEvents_eventText hname hdata

end EventStream

end Llmap
