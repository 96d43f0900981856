import Llmap.Common.Rust
/-!
# Codecs

Values written as bytes, and read again from where they begin. A codec carries
the proof that it reads what it writes, and leaves what comes after
(`Codec.read_write`). So the codec of a structure is put together of those of
its fields (`pair`, `many`, `via`), and its law is theirs.
-/

namespace Llmap

/-- **A codec.** -/
structure Codec (α : Type) where
  write : α → Bytes
  read : Bytes → Option (α × Bytes)
  read_write : ∀ a rest, read (write a ++ rest) = some (a, rest)

namespace Codec

variable {α β : Type}

/-- The value that bytes begin with. -/
def decode (c : Codec α) (bytes : Bytes) : Option α := (c.read bytes).map Prod.fst

theorem decode_write (c : Codec α) (a : α) : c.decode (c.write a) = some a := by
  have hread := c.read_write a []
  rw [List.append_nil] at hread
  rw [decode, hread]
  rfl

/-! ## Putting codecs together -/

/-- One value after another. -/
def pair (c : Codec α) (d : Codec β) : Codec (α × β) where
  write values := c.write values.1 ++ d.write values.2
  read bytes := (c.read bytes).bind fun (a, rest) =>
    (d.read rest).map fun (b, rest) => ((a, b), rest)
  read_write values rest := by simp [c.read_write, d.read_write]

/-- Values that others stand for. -/
def via (c : Codec β) (f : α → β) (g : β → Option α) (h : ∀ a, g (f a) = some a) : Codec α where
  write a := c.write (f a)
  read bytes := (c.read bytes).bind fun (b, rest) => (g b).map (·, rest)
  read_write a rest := by simp [c.read_write, h]

/-- Reads a list, of fewer values than `n`: each of them comes after a byte
that is not zero, and zero comes last. -/
def readMany (c : Codec α) : ℕ → Bytes → Option (List α × Bytes)
  | 0, _ | _, [] => none
  | n + 1, more :: bytes =>
      if more = 0 then some ([], bytes)
      else (c.read bytes).bind fun (a, rest) =>
        (readMany c n rest).map fun (values, rest) => (a :: values, rest)

/-- Writes a list. -/
def writeMany (c : Codec α) : List α → Bytes
  | [] => [0]
  | a :: values => 1 :: (c.write a ++ writeMany c values)

theorem length_lt_writeMany (c : Codec α) (values : List α) :
    values.length < (c.writeMany values).length := by
  induction values with
  | nil => simp [writeMany]
  | cons a values ih =>
      simp only [writeMany, List.length_cons, List.length_append]
      omega

theorem readMany_writeMany (c : Codec α) (values : List α) (rest : Bytes) {n : ℕ}
    (h : values.length < n) : c.readMany n (c.writeMany values ++ rest) = some (values, rest) := by
  induction values generalizing n with
  | nil =>
      obtain ⟨n, rfl⟩ := Nat.exists_eq_add_one_of_ne_zero (Nat.ne_zero_of_lt h)
      rfl
  | cons a values ih =>
      obtain ⟨n, rfl⟩ := Nat.exists_eq_add_one_of_ne_zero (Nat.ne_zero_of_lt h)
      have hrest := ih (Nat.lt_of_succ_lt_succ h)
      simp [writeMany, readMany, c.read_write, hrest]

/-- A list of values. -/
def many (c : Codec α) : Codec (List α) where
  write := c.writeMany
  read bytes := c.readMany bytes.length bytes
  read_write values rest := by
    refine c.readMany_writeMany values rest ?_
    rw [List.length_append]
    exact Nat.lt_add_right _ (c.length_lt_writeMany values)

/-! ## Values of all kinds -/

/-- A byte. -/
def byte : Codec UInt8 where
  write b := [b]
  read bytes := bytes.head?.map (·, bytes.tail)
  read_write _ _ := rfl

/-- A text. -/
def text : Codec String := byte.many.via asBytes fromUtf8 fromUtf8_asBytes

/-- A number. -/
def nat : Codec ℕ := byte.many.via (List.replicate · 0) (some ·.length) (by simp)

/-- A truth value. -/
def bool : Codec Bool := nat.via Bool.toNat (fun n => some (n = 1)) (by decide)

/-- A number of sixteen bits. -/
def u16 : Codec UInt16 := nat.via UInt16.toNat (some <| UInt16.ofNat ·) (by simp)

/-- A number of sixty-four bits. -/
def u64 : Codec UInt64 := nat.via UInt64.toNat (some <| UInt64.ofNat ·) (by simp)

/-- A value, or none. -/
def option (c : Codec α) : Codec (Option α) := c.many.via Option.toList (some ·.head?) (by simp)

/-- A table. -/
def table {K V : Type} [Ord K] [Std.TransOrd K] [Std.LawfulEqOrd K] (c : Codec K) (d : Codec V) :
    Codec (Table K V) :=
  (c.pair d).many.via Std.ExtTreeMap.toList (some <| Table.collect ·)
    fun t => congrArg some (Table.collect_toList t)

end Codec

end Llmap
