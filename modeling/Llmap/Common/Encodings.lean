import Llmap.Common.Rust
/-!
# Checksums and base64

The CRC-32 of a run of bytes, as its bits are divided out, and base64 in
its padded form. What base64 encodes it decodes again (`decode_encode`); a
text that is padded otherwise, or whose last digit has bits to spare, is
not decoded.
-/

namespace Llmap

namespace Crc32

/-- One bit is divided by the polynomial, the lowest bit first. -/
def dropBit (crc : ℕ) : ℕ := if crc % 2 = 1 then (crc / 2) ^^^ 0xEDB88320 else crc / 2

/-- One byte is taken in. -/
def takeByte (crc : ℕ) (byte : UInt8) : ℕ := dropBit^[8] (crc ^^^ byte.toNat)

/-- The checksum of a run of bytes. -/
def hash (bytes : Bytes) : UInt32 :=
  UInt32.ofNat (bytes.foldl takeByte 0xFFFFFFFF ^^^ 0xFFFFFFFF)

example : hash (asBytes "123456789") = 0xCBF43926 := by decide +kernel

end Crc32

namespace Base64

/-- The digit of a value below 64. -/
def digit (value : ℕ) : Char :=
  if value < 26 then Char.ofNat (65 + value)
  else if value < 52 then Char.ofNat (71 + value)
  else if value < 62 then Char.ofNat (value - 4)
  else if value = 62 then '+'
  else '/'

/-- The value of a digit. -/
def value (c : Char) : Option ℕ :=
  if 'A' ≤ c ∧ c ≤ 'Z' then some (c.toNat - 65)
  else if 'a' ≤ c ∧ c ≤ 'z' then some (c.toNat - 71)
  else if '0' ≤ c ∧ c ≤ '9' then some (c.toNat + 4)
  else if c = '+' then some 62
  else if c = '/' then some 63
  else none

theorem value_digit : ∀ n < 64, value (digit n) = some n := by decide

theorem digit_ne_pad : ∀ n < 64, digit n ≠ '=' := by decide

/-- Three bytes are four digits, and a run that ends early is padded. -/
def encode : Bytes → List Char
  | [] => []
  | [a] => [digit (a.toNat / 4), digit (a.toNat % 4 * 16), '=', '=']
  | [a, b] =>
      [digit (a.toNat / 4), digit (a.toNat % 4 * 16 + b.toNat / 16),
        digit (b.toNat % 16 * 4), '=']
  | a :: b :: c :: rest =>
      digit (a.toNat / 4) :: digit (a.toNat % 4 * 16 + b.toNat / 16) ::
        digit (b.toNat % 16 * 4 + c.toNat / 64) :: digit (c.toNat % 64) :: encode rest

/-- The bytes of the last digits, the third of which may be padding. -/
def decodeLast (first second : ℕ) (c : Char) : Option Bytes :=
  if c = '=' then
    if second % 16 = 0 then some [UInt8.ofNat (first * 4 + second / 16)] else none
  else
    (value c).bind fun third =>
      if third % 4 = 0 then
        some [UInt8.ofNat (first * 4 + second / 16), UInt8.ofNat (second % 16 * 16 + third / 4)]
      else none

/-- The bytes a text was encoded from. -/
def decode : List Char → Option Bytes
  | [] => some []
  | a :: b :: c :: d :: rest =>
      (value a).bind fun first =>
      (value b).bind fun second =>
        if d = '=' then if rest = [] then decodeLast first second c else none
        else
          (value c).bind fun third =>
          (value d).bind fun fourth =>
          (decode rest).map fun bytes =>
            UInt8.ofNat (first * 4 + second / 16) ::
              UInt8.ofNat (second % 16 * 16 + third / 4) ::
              UInt8.ofNat (third % 4 * 64 + fourth) :: bytes
  | _ => none

theorem ofNat_of_eq {byte : UInt8} {n : ℕ} (h : n = byte.toNat) : UInt8.ofNat n = byte := by
  rw [h, UInt8.ofNat_toNat]

/-- **What is encoded is decoded again.** -/
theorem decode_encode (bytes : Bytes) : decode (encode bytes) = some bytes := by
  induction bytes using encode.induct with
  | case1 => rfl
  | case2 a =>
      have ha := a.toNat_lt
      have hbyte : UInt8.ofNat (a.toNat / 4 * 4 + a.toNat % 4 * 16 / 16) = a :=
        ofNat_of_eq (by omega)
      simp only [encode, decode, decodeLast, value_digit (a.toNat / 4) (by omega),
        value_digit (a.toNat % 4 * 16) (by omega), Option.bind_some, if_true, hbyte,
        Nat.mul_mod_left]
  | case3 a b =>
      have ha := a.toNat_lt
      have hb := b.toNat_lt
      have hfirst : UInt8.ofNat (a.toNat / 4 * 4 + (a.toNat % 4 * 16 + b.toNat / 16) / 16) = a :=
        ofNat_of_eq (by omega)
      have hsecond : UInt8.ofNat ((a.toNat % 4 * 16 + b.toNat / 16) % 16 * 16 +
          b.toNat % 16 * 4 / 4) = b := ofNat_of_eq (by omega)
      simp only [encode, decode, decodeLast, value_digit (a.toNat / 4) (by omega),
        value_digit (a.toNat % 4 * 16 + b.toNat / 16) (by omega),
        value_digit (b.toNat % 16 * 4) (by omega), digit_ne_pad (b.toNat % 16 * 4) (by omega),
        Option.bind_some, if_true, if_false, hfirst, hsecond, Nat.mul_mod_left]
  | case4 a b c rest ih =>
      have ha := a.toNat_lt
      have hb := b.toNat_lt
      have hc := c.toNat_lt
      have hfirst : UInt8.ofNat (a.toNat / 4 * 4 + (a.toNat % 4 * 16 + b.toNat / 16) / 16) = a :=
        ofNat_of_eq (by omega)
      have hsecond : UInt8.ofNat ((a.toNat % 4 * 16 + b.toNat / 16) % 16 * 16 +
          (b.toNat % 16 * 4 + c.toNat / 64) / 4) = b := ofNat_of_eq (by omega)
      have hthird : UInt8.ofNat ((b.toNat % 16 * 4 + c.toNat / 64) % 4 * 64 + c.toNat % 64) = c :=
        ofNat_of_eq (by omega)
      simp only [encode, decode, value_digit (a.toNat / 4) (by omega),
        value_digit (a.toNat % 4 * 16 + b.toNat / 16) (by omega),
        value_digit (b.toNat % 16 * 4 + c.toNat / 64) (by omega),
        value_digit (c.toNat % 64) (by omega), digit_ne_pad (c.toNat % 64) (by omega),
        Option.bind_some, if_false, ih, Option.map_some, hfirst, hsecond, hthird]

end Base64

end Llmap
