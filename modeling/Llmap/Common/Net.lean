import Mathlib.Data.Vector.Defs
import Llmap.Common.Rust
/-!
# Addresses

`std::net`: addresses of both families, what is said of them, and their
texts. The parser is the one of the standard library: it reads an IPv4
address in decimal without leading zeros, and an IPv6 address in groups of
hexadecimal digits, with `::` once and an IPv4 address at the end, and it
accepts what it can read to the end. An IPv4 address is read back from its
text (`parseIpAddr_print`); a text that starts with a bracket is no
address (`parseIpAddr_bracket`).
-/

namespace Llmap

namespace Net

/-- `Ipv4Addr`, by its octets. -/
structure Ipv4Addr where
  a : UInt8
  b : UInt8
  c : UInt8
  d : UInt8
deriving DecidableEq

/-- `Ipv6Addr`, by its segments. -/
structure Ipv6Addr where
  segments : Vector UInt16 8
deriving DecidableEq

/-- `IpAddr`. -/
inductive IpAddr where
  | v4 (address : Ipv4Addr)
  | v6 (address : Ipv6Addr)
deriving DecidableEq

/-- `SocketAddr`. -/
structure SocketAddr where
  ip : IpAddr
  port : UInt16
deriving DecidableEq

/-! ## What is said of them -/

namespace Ipv4Addr

variable (x : Ipv4Addr)

/-- `Ipv4Addr::is_private`. -/
def isPrivate : Bool :=
  x.a = 10 || (x.a = 172 && 16 ≤ x.b && x.b ≤ 31) || (x.a = 192 && x.b = 168)

/-- `Ipv4Addr::is_loopback`. -/
def isLoopback : Bool := x.a = 127

/-- `Ipv4Addr::is_link_local`. -/
def isLinkLocal : Bool := x.a = 169 && x.b = 254

/-- `Ipv4Addr::is_unspecified`. -/
def isUnspecified : Bool := x = ⟨0, 0, 0, 0⟩

/-- `Ipv4Addr::is_broadcast`. -/
def isBroadcast : Bool := x = ⟨255, 255, 255, 255⟩

/-- `Ipv4Addr::is_multicast`. -/
def isMulticast : Bool := 224 ≤ x.a && x.a ≤ 239

/-- `Ipv4Addr::is_documentation`. -/
def isDocumentation : Bool :=
  (x.a = 192 && x.b = 0 && x.c = 2) || (x.a = 198 && x.b = 51 && x.c = 100) ||
    (x.a = 203 && x.b = 0 && x.c = 113)

/-- The first two octets and the last two, as `u16::from_be_bytes` reads
them. -/
def halves : UInt16 × UInt16 :=
  (256 * x.a.toUInt16 + x.b.toUInt16, 256 * x.c.toUInt16 + x.d.toUInt16)

/-- `Ipv4Addr::to_ipv6_mapped`: `::ffff:a.b.c.d`. -/
def toIpv6Mapped : Ipv6Addr := ⟨#v[0, 0, 0, 0, 0, 0xffff, x.halves.1, x.halves.2]⟩

end Ipv4Addr

namespace Ipv6Addr

variable (x : Ipv6Addr)

/-- `Ipv6Addr::is_loopback`. -/
def isLoopback : Bool := x = ⟨#v[0, 0, 0, 0, 0, 0, 0, 1]⟩

/-- `Ipv6Addr::is_unspecified`. -/
def isUnspecified : Bool := x = ⟨#v[0, 0, 0, 0, 0, 0, 0, 0]⟩

/-- `Ipv6Addr::is_unique_local`. -/
def isUniqueLocal : Bool := x.segments[0] &&& 0xfe00 = 0xfc00

/-- `Ipv6Addr::is_unicast_link_local`. -/
def isUnicastLinkLocal : Bool := x.segments[0] &&& 0xffc0 = 0xfe80

/-- `Ipv6Addr::is_multicast`. -/
def isMulticast : Bool := x.segments[0] &&& 0xff00 = 0xff00

end Ipv6Addr

/-! ## Their texts -/

/-- `char::to_digit`. -/
def toDigit (radix : ℕ) (c : Char) : Option ℕ :=
  let digit :=
    if '0' ≤ c ∧ c ≤ '9' then c.toNat - '0'.toNat
    else if 'a' ≤ c ∧ c ≤ 'z' then c.toNat - 'a'.toNat + 10
    else if 'A' ≤ c ∧ c ≤ 'Z' then c.toNat - 'A'.toNat + 10
    else radix
  if digit < radix then some digit else none

/-- `Parser::read_number`: all the digits that follow, of which there are
some and not too many, for a number below the limit. -/
def readNumber (radix maxDigits limit : ℕ) (allowZeroPrefix : Bool) (text : List Char) :
    Option (ℕ × List Char) :=
  let digits := text.takeWhile fun c => (toDigit radix c).isSome
  let value := digits.foldl (fun n c => radix * n + (toDigit radix c).getD 0) 0
  if digits = [] ∨ maxDigits < digits.length ∨ limit ≤ value ∨
      (allowZeroPrefix = false ∧ digits.head? = some '0' ∧ 1 < digits.length) then none
  else some (value, text.dropWhile fun c => (toDigit radix c).isSome)

/-- `Parser::read_given_char`. -/
def readGivenChar (given : Char) : List Char → Option (List Char)
  | c :: text => if c = given then some text else none
  | [] => none

/-- `Parser::read_separator`: a separator comes before every item but the
first. -/
def readSeparator {α : Type} (separator : Char) (index : ℕ)
    (inner : List Char → Option (α × List Char)) (text : List Char) : Option (α × List Char) :=
  if 0 < index then (readGivenChar separator text).bind inner else inner text

/-- An octet of an IPv4 address. -/
def readOctet (index : ℕ) (text : List Char) : Option (UInt8 × List Char) :=
  (readSeparator '.' index (readNumber 10 3 256 false) text).map fun (value, rest) =>
    (UInt8.ofNat value, rest)

/-- `Parser::read_ipv4_addr`. -/
def readIpv4Addr (text : List Char) : Option (Ipv4Addr × List Char) := do
  let (a, text) ← readOctet 0 text
  let (b, text) ← readOctet 1 text
  let (c, text) ← readOctet 2 text
  let (d, text) ← readOctet 3 text
  some (⟨a, b, c, d⟩, text)

/-- `read_groups` of `Parser::read_ipv6_addr`, with the groups still
wanted and the index of the next: the groups read, and whether the last
two are an IPv4 address. -/
def readGroups : ℕ → ℕ → List Char → List UInt16 × Bool × List Char
  | 0, _, text => ([], false, text)
  | wanted + 1, index, text =>
      -- an IPv4 address takes the place of two groups
      match if 0 < wanted then readSeparator ':' index readIpv4Addr text else none with
      | some (address, rest) => ([address.halves.1, address.halves.2], true, rest)
      | none =>
          match readSeparator ':' index (readNumber 16 4 65536 true) text with
          | none => ([], false, text)
          | some (group, rest) =>
              match readGroups wanted (index + 1) rest with
              | (groups, ipv4, rest) => (UInt16.ofNat group :: groups, ipv4, rest)

/-- `Parser::read_ipv6_addr`. -/
def readIpv6Addr (text : List Char) : Option (Ipv6Addr × List Char) :=
  let (head, headIpv4, text) := readGroups 8 0 text
  if head.length = 8 then some (⟨Vector.ofFn fun i => head.getD i 0⟩, text)
  else if headIpv4 then none
  else do
    let text ← readGivenChar ':' text
    let text ← readGivenChar ':' text
    let (tail, _, text) := readGroups (8 - (head.length + 1)) 0 text
    let groups := head ++ List.replicate (8 - head.length - tail.length) 0 ++ tail
    some (⟨Vector.ofFn fun i => groups.getD i 0⟩, text)

/-- `Parser::read_ip_addr`. -/
def readIpAddr (text : List Char) : Option (IpAddr × List Char) :=
  ((readIpv4Addr text).map fun (address, rest) => (.v4 address, rest)).or
    ((readIpv6Addr text).map fun (address, rest) => (.v6 address, rest))

/-- `IpAddr::from_str`. -/
def parseIpAddr (text : String) : Option IpAddr :=
  match readIpAddr text.toList with
  | some (address, []) => some address
  | _ => none

/-- A number in decimal. -/
def decimal (n : ℕ) : List Char := Nat.toDigits 10 n

/-- `Ipv4Addr`'s `Display`. -/
def Ipv4Addr.print (x : Ipv4Addr) : String :=
  String.ofList (decimal x.a.toNat ++ '.' :: (decimal x.b.toNat ++ '.' :: (decimal x.c.toNat ++
    '.' :: decimal x.d.toNat)))

/-! ## Reading an IPv4 address back -/

/-- **The digits of an octet**: they are digits, one to three of them,
with no zero in front, and they stand for the octet. A text that ends in
them is in lower case there and ends in no dot. -/
structure IsDecimal (digits : List Char) (n : ℕ) : Prop where
  isDigit : digits.all (fun c => (toDigit 10 c).isSome) = true
  ne_nil : digits ≠ []
  length_le : digits.length ≤ 3
  value : digits.foldl (fun n c => 10 * n + (toDigit 10 c).getD 0) 0 = n
  no_zero : ¬ (digits.head? = some '0' ∧ 1 < digits.length)
  lowercase : digits.map Char.toLower = digits
  no_dot : digits.getLast? ≠ some '.'

instance (digits : List Char) (n : ℕ) : Decidable (IsDecimal digits n) :=
  decidable_of_iff (digits.all (fun c => (toDigit 10 c).isSome) = true ∧ digits ≠ [] ∧
      digits.length ≤ 3 ∧ digits.foldl (fun n c => 10 * n + (toDigit 10 c).getD 0) 0 = n ∧
      ¬ (digits.head? = some '0' ∧ 1 < digits.length) ∧ digits.map Char.toLower = digits ∧
      digits.getLast? ≠ some '.')
    ⟨fun ⟨h₁, h₂, h₃, h₄, h₅, h₆, h₇⟩ => ⟨h₁, h₂, h₃, h₄, h₅, h₆, h₇⟩,
      fun ⟨h₁, h₂, h₃, h₄, h₅, h₆, h₇⟩ => ⟨h₁, h₂, h₃, h₄, h₅, h₆, h₇⟩⟩

theorem isDecimal_decimal {n : ℕ} (hn : n < 256) : IsDecimal (decimal n) n := by
  -- digit by digit, so that each search is a short one
  have hall : ∀ hundreds < 3, ∀ tens < 10, ∀ ones < 10,
      IsDecimal (decimal (100 * hundreds + 10 * tens + ones))
        (100 * hundreds + 10 * tens + ones) := by
    decide +kernel
  have hdecimal := hall (n / 100) (by omega) (n / 10 % 10) (by omega) (n % 10) (by omega)
  have hsplit : 100 * (n / 100) + 10 * (n / 10 % 10) + n % 10 = n := by omega
  rwa [hsplit] at hdecimal

/-- **An octet is read back**, up to what is no digit. -/
theorem readNumber_decimal {n : ℕ} (hn : n < 256) {rest : List Char}
    (hrest : ∀ c ∈ rest.head?, toDigit 10 c = none) :
    readNumber 10 3 256 false (decimal n ++ rest) = some (n, rest) := by
  obtain ⟨hall, hne, hlength, hvalue, hzero, -, -⟩ := isDecimal_decimal hn
  have hdigits := List.all_eq_true.mp hall
  have hstop : rest.takeWhile (fun c => (toDigit 10 c).isSome) = [] ∧
      rest.dropWhile (fun c => (toDigit 10 c).isSome) = rest := by
    cases rest with
    | nil => exact ⟨rfl, rfl⟩
    | cons c rest =>
        have hc : toDigit 10 c = none := hrest c rfl
        simp [hc]
  have htake : (decimal n ++ rest).takeWhile (fun c => (toDigit 10 c).isSome) = decimal n := by
    rw [List.takeWhile_append_of_pos hdigits, hstop.1, List.append_nil]
  have hdrop : (decimal n ++ rest).dropWhile (fun c => (toDigit 10 c).isSome) = rest := by
    rw [List.dropWhile_append_of_pos hdigits, hstop.2]
  unfold readNumber
  simp only [htake, hdrop, hvalue]
  rw [if_neg]
  rintro (hnil | hlong | hlarge | ⟨-, hprefixed⟩)
  · exact hne hnil
  · omega
  · omega
  · exact hzero hprefixed

theorem readOctet_zero (x : UInt8) {rest : List Char}
    (hrest : ∀ c ∈ rest.head?, toDigit 10 c = none) :
    readOctet 0 (decimal x.toNat ++ rest) = some (x, rest) := by
  simp [readOctet, readSeparator, readNumber_decimal x.toNat_lt hrest]

theorem readOctet_dot {index : ℕ} (hindex : 0 < index) (x : UInt8) {rest : List Char}
    (hrest : ∀ c ∈ rest.head?, toDigit 10 c = none) :
    readOctet index ('.' :: (decimal x.toNat ++ rest)) = some (x, rest) := by
  simp [readOctet, readSeparator, readGivenChar, hindex, readNumber_decimal x.toNat_lt hrest]

/-- **An IPv4 address is read back from its text.** -/
theorem parseIpAddr_print (x : Ipv4Addr) : parseIpAddr x.print = some (.v4 x) := by
  have hdot : ∀ rest : List Char, ∀ c ∈ ('.' :: rest).head?, toDigit 10 c = none := by
    rintro rest c ⟨⟩
    rfl
  have hend : readOctet 3 ('.' :: decimal x.d.toNat) = some (x.d, []) := by
    have hread := @readOctet_dot 3 (by decide) x.d [] (by simp)
    rwa [List.append_nil] at hread
  have hread : readIpv4Addr x.print.toList = some (x, []) := by
    unfold readIpv4Addr Ipv4Addr.print
    rw [String.toList_ofList, readOctet_zero x.a (hdot _)]
    simp only [Option.bind_eq_bind, Option.bind_some]
    rw [readOctet_dot (by decide) x.b (hdot _)]
    simp only [Option.bind_some]
    rw [readOctet_dot (by decide) x.c (hdot _)]
    simp only [Option.bind_some]
    rw [hend]
    rfl
  rw [parseIpAddr, readIpAddr, hread]
  rfl

/-- The text of an IPv4 address is in lower case. -/
theorem toAsciiLowercase_print (x : Ipv4Addr) : toAsciiLowercase x.print = x.print := by
  have hlower : ∀ octet : UInt8, (decimal octet.toNat).map Char.toLower = decimal octet.toNat :=
    fun octet => (isDecimal_decimal octet.toNat_lt).lowercase
  have hdot : Char.toLower '.' = '.' := rfl
  simp only [toAsciiLowercase, Ipv4Addr.print, String.toList_ofList, List.map_append, List.map_cons,
    hlower, hdot]

/-- It ends in a digit. -/
theorem getLast?_print (x : Ipv4Addr) : x.print.toList.getLast? ≠ some '.' := by
  have hdecimal := isDecimal_decimal x.d.toNat_lt
  cases hlast : (decimal x.d.toNat).getLast? with
  | none => exact absurd (List.getLast?_eq_none_iff.mp hlast) hdecimal.ne_nil
  | some c =>
      have hne := hdecimal.no_dot
      rw [hlast] at hne
      simpa [Ipv4Addr.print, List.getLast?_append, List.getLast?_cons, hlast] using hne

/-- **A text that starts with a bracket is no address.** -/
theorem parseIpAddr_bracket (text : List Char) :
    parseIpAddr (String.ofList ('[' :: text)) = none := by
  have hten : toDigit 10 '[' = none := by decide
  have hsixteen : toDigit 16 '[' = none := by decide
  have hipv4 : readIpv4Addr ('[' :: text) = none := by
    simp [readIpv4Addr, readOctet, readSeparator, readNumber, hten]
  have hgroups : readGroups 8 0 ('[' :: text) = ([], false, '[' :: text) := by
    simp [readGroups, readSeparator, hipv4, readNumber, hsixteen]
  have hipv6 : readIpv6Addr ('[' :: text) = none := by
    simp [readIpv6Addr, hgroups, readGivenChar]
  simp [parseIpAddr, readIpAddr, hipv4, hipv6]

end Net

end Llmap
