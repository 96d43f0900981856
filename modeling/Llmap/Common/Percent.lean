import Llmap.Common.Rust
/-!
# Percent-encoding

Reading percent-escapes, as `percent_decode` does: a percent sign with two
hexadecimal digits after it is one byte, and any other byte, a percent sign
among them, stands for itself. Reading changes a text exactly if there is
an escape in it (`decode_eq_self_iff`), since every escape makes it
shorter.
-/

namespace Llmap

namespace Percent

/-- The percent sign. -/
def sign : UInt8 := 37

/-- The value of a hexadecimal digit. -/
def hexValue (byte : UInt8) : Option ℕ :=
  if 48 ≤ byte ∧ byte ≤ 57 then some (byte.toNat - 48)
  else if 65 ≤ byte ∧ byte ≤ 70 then some (byte.toNat - 55)
  else if 97 ≤ byte ∧ byte ≤ 102 then some (byte.toNat - 87)
  else none

/-- The byte that two digits stand for. -/
def escaped (high low : UInt8) : Option UInt8 :=
  match hexValue high, hexValue low with
  | some high, some low => some (UInt8.ofNat (16 * high + low))
  | _, _ => none

/-- The escape at the front, as the byte it stands for and what follows. -/
def front : Bytes → Option (UInt8 × Bytes)
  | byte :: high :: low :: rest =>
      if byte = sign then (escaped high low).map (·, rest) else none
  | _ => none

theorem front_eq_some_iff {bytes rest : Bytes} {byte : UInt8} :
    front bytes = some (byte, rest) ↔
      ∃ high low, bytes = sign :: high :: low :: rest ∧ escaped high low = some byte := by
  constructor
  · intro h
    match bytes, h with
    | first :: high :: low :: after, h =>
        simp only [front] at h
        split at h
        · rename_i hsign
          obtain ⟨value, hvalue, hpair⟩ := Option.map_eq_some_iff.mp h
          obtain ⟨rfl, rfl⟩ := Prod.mk.inj hpair
          exact ⟨high, low, by rw [hsign], hvalue⟩
        · cases h
  · rintro ⟨high, low, rfl, hvalue⟩
    simp [front, hvalue]

/-- `percent_decode`, with the escapes read from the front. -/
def decode (bytes : Bytes) : Bytes :=
  match bytes with
  | [] => []
  | byte :: rest =>
      match h : front (byte :: rest) with
      | some (value, after) =>
          have : after.length < rest.length + 1 := by
            obtain ⟨high, low, heq, -⟩ := front_eq_some_iff.mp h
            have hlength := congrArg List.length heq
            simp only [List.length_cons] at hlength
            omega
          value :: decode after
      | none => byte :: decode rest
termination_by bytes.length

/-- There is an escape somewhere. -/
def HasEscape (bytes : Bytes) : Prop :=
  ∃ before after, bytes = before ++ after ∧ (front after).isSome = true

theorem not_hasEscape_nil : ¬ HasEscape [] := by
  rintro ⟨before, after, heq, hfront⟩
  obtain ⟨-, rfl⟩ := List.append_eq_nil_iff.mp heq.symm
  cases hfront

/-- An escape is at the front or further on. -/
theorem hasEscape_cons {byte : UInt8} {rest : Bytes} :
    HasEscape (byte :: rest) ↔ (front (byte :: rest)).isSome = true ∨ HasEscape rest := by
  constructor
  · rintro ⟨before, after, heq, hfront⟩
    cases before with
    | nil =>
        rw [List.nil_append] at heq
        exact .inl (heq ▸ hfront)
    | cons first before =>
        obtain ⟨-, rfl⟩ := List.cons.inj heq
        exact .inr ⟨before, after, rfl, hfront⟩
  · rintro (hfront | ⟨before, after, rfl, hfront⟩)
    · exact ⟨[], byte :: rest, rfl, hfront⟩
    · exact ⟨byte :: before, after, rfl, hfront⟩

theorem length_decode_le (bytes : Bytes) : (decode bytes).length ≤ bytes.length := by
  fun_induction decode bytes with
  | case1 => exact le_rfl
  | case2 byte rest value after h hlt ih =>
      simp only [List.length_cons]
      omega
  | case3 byte rest h ih =>
      simp only [List.length_cons]
      omega

/-- **Decoding changes a text exactly if it has an escape.** -/
theorem decode_eq_self_iff (bytes : Bytes) : decode bytes = bytes ↔ ¬ HasEscape bytes := by
  fun_induction decode bytes with
  | case1 => exact iff_of_true rfl not_hasEscape_nil
  | case2 byte rest value after h hlt ih =>
      -- the escape has become one byte, and nothing becomes longer
      obtain ⟨high, low, heq, -⟩ := front_eq_some_iff.mp h
      have hlonger := congrArg List.length heq
      have hshort := length_decode_le after
      refine iff_of_false (fun hsame => ?_) fun hnone =>
        hnone (hasEscape_cons.mpr (.inl (by simp [h])))
      have hlength := congrArg List.length hsame
      simp only [List.length_cons] at hlength hlonger
      omega
  | case3 byte rest h ih =>
      rw [List.cons.injEq, hasEscape_cons, h]
      simpa using ih

end Percent

end Llmap
