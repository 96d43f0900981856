import Llmap.Common.Rust
/-!
# Lines and numbers

More of the standard library's text: lines, suffixes and the numbers of
sixteen bits.
-/

namespace Llmap

/-- A line without the carriage return at its end. -/
def stripCarriageReturn (line : List Char) : List Char :=
  if line.getLast? = some '\r' then line.dropLast else line

/-- `str::lines`: a line ends at a line feed, with a carriage return before
it or none; the last needs no end, and is none if it is empty. -/
def textLines (text : String) : List String :=
  let parts := text.toList.splitOn '\n'
  (parts.dropLast.map fun line => String.ofList (stripCarriageReturn line)) ++
    (parts.getLast?.filter (· ≠ [])).toList.map String.ofList

/-- Lines that are joined are read back. -/
theorem textLines_intercalate {lines : List String} (hne : lines ≠ [])
    (hlines : ∀ line ∈ lines, '\n' ∉ line.toList ∧ line.toList.getLast? ≠ some '\r')
    (hlast : lines.getLast? ≠ some "") : textLines ("\n".intercalate lines) = lines := by
  have hsplit : ("\n".intercalate lines).toList.splitOn '\n' = lines.map String.toList := by
    rw [String.toList_intercalate]
    refine List.splitOn_intercalate '\n' (fun line hline => ?_) (by simpa using hne)
    obtain ⟨text, htext, rfl⟩ := List.mem_map.mp hline
    exact (hlines text htext).1
  obtain ⟨front, last, rfl⟩ : ∃ front last, lines = front ++ [last] :=
    ⟨lines.dropLast, lines.getLast hne, (List.dropLast_append_getLast hne).symm⟩
  have hfront : front.map (fun line => String.ofList (stripCarriageReturn line.toList)) =
      front := by
    refine (List.map_congr_left fun line hline => ?_).trans (List.map_id front)
    have hreturn := (hlines line (List.mem_append_left _ hline)).2
    rw [stripCarriageReturn, if_neg hreturn, String.ofList_toList]
    rfl
  have hend : last.toList ≠ [] := by
    intro hempty
    refine hlast ?_
    rw [List.getLast?_concat, String.toList_eq_nil_iff.mp hempty]
  simp only [textLines, hsplit, List.map_append, List.map_cons, List.map_nil]
  rw [List.dropLast_concat, List.getLast?_concat, List.map_map]
  simp [Function.comp_def, hfront, hend, Option.filter]

/-- `str::strip_suffix` at a string pattern. -/
def stripSuffixStr (text pattern : String) : Option String :=
  if endsWithStr text pattern then
    some (String.ofList (text.toList.take (text.length - pattern.length)))
  else none

/-- The number of decimal digits. -/
def digitsToNat (digits : List Char) : ℕ :=
  digits.foldl (fun n c => 10 * n + (c.toNat - '0'.toNat)) 0

/-- `str::parse::<u16>`: a plus sign or none, then digits. -/
def parseU16 (text : String) : Option UInt16 :=
  let digits := match text.toList with
    | '+' :: digits => digits
    | digits => digits
  if digits = [] || !digits.all Char.isDigit || 2 ^ 16 ≤ digitsToNat digits then none
  else some (UInt16.ofNat (digitsToNat digits))

end Llmap
