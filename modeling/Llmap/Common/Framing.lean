import Mathlib.Data.List.Basic
/-!
# Framing a stream

A stream of symbols arrives in pieces and is cut into frames at its
front. A `Framer` says what the front of a buffer is: a frame, with what
follows it; something no frame begins with; or too little to tell. Its
laws say that symbols that arrive later never change an answer already
given, and they are all it takes for a reader that keeps a buffer to
find the same frames whatever the pieces were (`drain_append`).
-/

namespace Llmap

/-- What stands at the front of a buffer. -/
inductive Front (β ι ε : Type*) where
  /-- Too little to tell. -/
  | incomplete
  /-- A frame, read as `item`, and what follows it. -/
  | frame (item : ι) (rest : List β)
  /-- Nothing a frame begins with. -/
  | invalid (error : ε)

/-- **A framer**: a reading of a buffer's front that later symbols leave
as it is. -/
structure Framer (β ι ε : Type*) where
  front : List β → Front β ι ε
  /-- A frame is not empty. -/
  rest_length_lt : ∀ {buffer item rest}, front buffer = .frame item rest →
    rest.length < buffer.length
  frame_append : ∀ {buffer item rest} (more : List β), front buffer = .frame item rest →
    front (buffer ++ more) = .frame item (rest ++ more)
  invalid_append : ∀ {buffer error} (more : List β), front buffer = .invalid error →
    front (buffer ++ more) = .invalid error

namespace Framer

variable {β ι ε : Type*} (F : Framer β ι ε)

/-- The frames at the front of a buffer, as many as it has, and how they
end: with symbols left over or with an error. -/
def drain (buffer : List β) : List ι × Except ε (List β) :=
  match h : F.front buffer with
  | .incomplete => ([], .ok buffer)
  | .invalid error => ([], .error error)
  | .frame item rest =>
      have := F.rest_length_lt h
      (item :: (drain rest).1, (drain rest).2)
termination_by buffer.length

variable {F} {buffer : List β}

theorem drain_of_incomplete (h : F.front buffer = .incomplete) :
    F.drain buffer = ([], .ok buffer) := by
  rw [drain]
  split <;> simp_all

theorem drain_of_invalid {error : ε} (h : F.front buffer = .invalid error) :
    F.drain buffer = ([], .error error) := by
  rw [drain]
  split <;> simp_all

theorem drain_of_frame {item : ι} {rest : List β} (h : F.front buffer = .frame item rest) :
    F.drain buffer = (item :: (F.drain rest).1, (F.drain rest).2) := by
  rw [drain]
  split <;> simp_all

/-- Draining goes by the frames at the front. -/
theorem drain_induct {P : List β → Prop}
    (incomplete : ∀ buffer, F.front buffer = .incomplete → P buffer)
    (invalid : ∀ buffer error, F.front buffer = .invalid error → P buffer)
    (frame : ∀ buffer item rest, F.front buffer = .frame item rest → P rest → P buffer)
    (buffer : List β) : P buffer := by
  induction hn : buffer.length using Nat.strongRecOn generalizing buffer with
  | ind n ih =>
      cases h : F.front buffer with
      | incomplete => exact incomplete buffer h
      | invalid error => exact invalid buffer error h
      | frame item rest =>
          have hlt := F.rest_length_lt h
          exact frame buffer item rest h (ih rest.length (by omega) rest rfl)

/-- Frames that stand one after another are what draining gives, and
nothing is left over. -/
theorem drain_flatMap {α : Type*} {encode : α → List β} {item : α → ι} {l : List α}
    (h : ∀ a ∈ l, ∀ rest, F.front (encode a ++ rest) = .frame (item a) rest)
    (hnil : F.front [] = .incomplete) : F.drain (l.flatMap encode) = (l.map item, .ok []) := by
  induction l with
  | nil => exact drain_of_incomplete hnil
  | cons a l ih =>
      have hrest := ih fun b hb => h b (List.mem_cons_of_mem _ hb)
      rw [List.flatMap_cons, drain_of_frame (h a List.mem_cons_self _), hrest, List.map_cons]

/-- **A buffer drained before more arrives.** What an error ends stays
ended; otherwise the frames go on from the symbols left over. -/
theorem drain_append (buffer more : List β) :
    F.drain (buffer ++ more) =
      match F.drain buffer with
      | (items, .error error) => (items, .error error)
      | (items, .ok rest) => (items ++ (F.drain (rest ++ more)).1, (F.drain (rest ++ more)).2) := by
  induction buffer using F.drain_induct with
  | incomplete buffer h => rw [drain_of_incomplete h]; rfl
  | invalid buffer error h =>
      rw [drain_of_invalid h, drain_of_invalid (F.invalid_append more h)]
  | frame buffer item rest h ih =>
      rw [drain_of_frame h, drain_of_frame (F.frame_append more h), ih]
      obtain ⟨items, ending⟩ := F.drain rest
      cases ending with
      | error error => rfl
      | ok left => rfl

end Framer

end Llmap
