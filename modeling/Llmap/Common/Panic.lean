import Mathlib.Algebra.Group.Nat.Defs
import Mathlib.Data.List.Basic
/-!
# Operations that may panic

An index past the end, a slice with a bound past the end or with its bounds
out of order, a difference below zero and a sum past the greatest machine
word stop a Rust program. Here they are `none`, and each operation has the
condition under which it is not. A `Fallible` computation may stop that way,
and may return an error as well.
-/

namespace Llmap

namespace Checked

variable {α : Type*}

/-- `a - b` of machine words. -/
def sub (a b : ℕ) : Option ℕ := if b ≤ a then some (a - b) else none

/-- `a + b` of machine words of so many bits. -/
def add (bits a b : ℕ) : Option ℕ := if a + b < 2 ^ bits then some (a + b) else none

/-- `l[i]`. -/
def index (l : List α) (i : ℕ) : Option α := l[i]?

/-- `l[start..stop]`. -/
def slice (l : List α) (start stop : ℕ) : Option (List α) :=
  if start ≤ stop ∧ stop ≤ l.length then some ((l.take stop).drop start) else none

/-- `l.split_to(n)`: what is taken off the front, and what is left. -/
def splitTo (l : List α) (n : ℕ) : Option (List α × List α) :=
  if n ≤ l.length then some (l.take n, l.drop n) else none

theorem sub_eq {a b : ℕ} (h : b ≤ a) : sub a b = some (a - b) := if_pos h

theorem add_eq {bits a b : ℕ} (h : a + b < 2 ^ bits) : add bits a b = some (a + b) := if_pos h

theorem index_eq {l : List α} {i : ℕ} (h : i < l.length) : index l i = some (l.get ⟨i, h⟩) :=
  List.getElem?_eq_getElem h

theorem slice_eq {l : List α} {start stop : ℕ} (horder : start ≤ stop) (h : stop ≤ l.length) :
    slice l start stop = some ((l.take stop).drop start) :=
  if_pos ⟨horder, h⟩

theorem splitTo_eq {l : List α} {n : ℕ} (h : n ≤ l.length) :
    splitTo l n = some (l.take n, l.drop n) :=
  if_pos h

end Checked

/-! ## Computations -/

/-- **A computation that may panic**, and otherwise returns a result or an
error. -/
abbrev Fallible (ε α : Type) := ExceptT ε Option α

namespace Fallible

variable {ε α β : Type}

/-- An operation that may panic, in a computation. -/
def access (x : Option α) : Fallible ε α := ExceptT.lift x

/-- A result or an error, without a panic. -/
def returned (r : Except ε α) : Fallible ε α := ExceptT.mk (some r)

theorem access_bind {x : Option α} {a : α} (h : x = some a) (f : α → Fallible ε β) :
    (access x >>= f) = f a := by
  subst h
  rfl

theorem returned_ok_bind (a : α) (f : α → Fallible ε β) :
    (returned (.ok a) >>= f) = f a :=
  rfl

end Fallible

end Llmap
