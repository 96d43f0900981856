import Mathlib.Data.List.Basic
/-!
# Prefix codes

A way of writing things down one after another without anything between
them: no matter what follows, it is clear what stands at the front and
where it ends. Things written so can be read back in one way only
(`encodeAll_injective`), and every text is a sequence of them, as long as
there is one, and then something that nothing begins (`exists_parse`).
-/

namespace Llmap

/-- **A prefix code**: the front of a text determines what is written
there, and what follows. -/
structure PrefixCode (β α : Type*) where
  encode : α → List β
  encode_ne_nil : ∀ a, encode a ≠ []
  encode_append_inj : ∀ {a a' rest rest'}, encode a ++ rest = encode a' ++ rest' →
    a = a' ∧ rest = rest'

namespace PrefixCode

variable {β α : Type*} (C : PrefixCode β α)

/-- Things written one after another. -/
def encodeAll (items : List α) : List β := items.flatMap C.encode

@[simp] theorem encodeAll_nil : C.encodeAll [] = [] := rfl

@[simp] theorem encodeAll_cons (a : α) (items : List α) :
    C.encodeAll (a :: items) = C.encode a ++ C.encodeAll items := rfl

/-- Nothing is written at the front. -/
def Stuck (text : List β) : Prop := ∀ a rest, text ≠ C.encode a ++ rest

theorem stuck_nil : C.Stuck [] := by
  intro a rest h
  exact C.encode_ne_nil a (List.append_eq_nil_iff.mp h.symm).1

/-- **A text can be read in one way only**, up to where it cannot be read
on. -/
theorem encodeAll_append_inj {items items' : List α} {rest rest' : List β} (h : C.Stuck rest)
    (h' : C.Stuck rest') (heq : C.encodeAll items ++ rest = C.encodeAll items' ++ rest') :
    items = items' ∧ rest = rest' := by
  induction items generalizing items' with
  | nil =>
      cases items' with
      | nil => exact ⟨rfl, heq⟩
      | cons a items' =>
          rw [encodeAll_nil, encodeAll_cons, List.append_assoc] at heq
          exact absurd heq (h a _)
  | cons a items ih =>
      cases items' with
      | nil =>
          rw [encodeAll_nil, encodeAll_cons, List.append_assoc] at heq
          exact absurd heq.symm (h' a _)
      | cons a' items' =>
          rw [encodeAll_cons, encodeAll_cons, List.append_assoc, List.append_assoc] at heq
          obtain ⟨rfl, hrest⟩ := C.encode_append_inj heq
          obtain ⟨rfl, rfl⟩ := ih hrest
          exact ⟨rfl, rfl⟩

/-- Things written one after another are read back as they were. -/
theorem encodeAll_injective : Function.Injective C.encodeAll := by
  intro items items' heq
  have hnil : C.encodeAll items ++ [] = C.encodeAll items' ++ [] := by rw [heq]
  exact (C.encodeAll_append_inj C.stuck_nil C.stuck_nil hnil).1

/-- **Every text is read as far as it can be.** -/
theorem exists_parse (text : List β) : ∃ items rest, text = C.encodeAll items ++ rest ∧
    C.Stuck rest := by
  induction hn : text.length using Nat.strongRecOn generalizing text with
  | ind n ih =>
      by_cases hstuck : C.Stuck text
      · exact ⟨[], text, rfl, hstuck⟩
      · obtain ⟨a, after, rfl⟩ : ∃ a after, text = C.encode a ++ after := by
          simpa [Stuck] using hstuck
        have hpos : 0 < (C.encode a).length := List.length_pos_of_ne_nil (C.encode_ne_nil a)
        have hlength : after.length < n := by
          rw [← hn, List.length_append]
          omega
        obtain ⟨items, rest, hafter, hrest⟩ := ih after.length hlength after rfl
        exact ⟨a :: items, rest, by rw [encodeAll_cons, List.append_assoc, ← hafter], hrest⟩

end PrefixCode

end Llmap
