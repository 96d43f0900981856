import Llmap.Common.Calendar
import Mathlib.Data.Char
/-!
# Timestamps as text

An instant, in nanoseconds since 1970, as RFC 3339 writes it in UTC: with as
few groups of three digits behind the point as it takes, and none for a whole
second. Such texts have different lengths, and still stand in the order of the
instants, as long as the years have four digits (`timestamp_lt_iff`): a sum
of digits that ends is followed by a plus sign, which comes before the point
and before every digit.

A year that has not four digits is written with a sign before it. Timestamps
of four-digit years are read back (`ofTimestamp_timestamp`).
-/

namespace Llmap

namespace Calendar

/-! ## Lists in the order of a dictionary -/

section Dictionary

variable {α : Type*} [LinearOrder α]

/-- A list is before another of its length whatever follows. -/
theorem append_lt_append_of_lt {left right : List α} (hlength : left.length = right.length)
    (h : left < right) (more more' : List α) : left ++ more < right ++ more' := by
  induction left generalizing right with
  | nil =>
      obtain rfl : right = [] := List.length_eq_zero_iff.mp hlength.symm
      exact absurd h (lt_irrefl _)
  | cons a left ih =>
      obtain ⟨b, right, rfl⟩ := List.exists_cons_of_length_eq_add_one hlength.symm
      rw [List.cons_append, List.cons_append, List.cons_lt_cons_iff]
      rcases List.cons_lt_cons_iff.mp h with hlt | ⟨heq, hrest⟩
      · exact .inl hlt
      · exact .inr ⟨heq, ih (by simpa using hlength) hrest⟩

/-- Nothing of its length is before a list of least elements. -/
theorem not_lt_replicate {zero : α} {l : List α} (h : ∀ a ∈ l, zero ≤ a) :
    ¬ l < List.replicate l.length zero := by
  induction l with
  | nil => exact lt_irrefl _
  | cons a l ih =>
      rw [List.length_cons, List.replicate_succ, List.cons_lt_cons_iff]
      rintro (hlt | ⟨-, hrest⟩)
      · exact absurd hlt (not_lt.mpr (h a List.mem_cons_self))
      · exact ih (fun b hb => h b (List.mem_cons_of_mem a hb)) hrest

/-- **Trailing zeros do not matter** to the order, if what is written in their
place comes before them. -/
theorem trimmed_lt {zero stop : α} (hstop : stop < zero) {left right : List α} {n m : ℕ}
    (hlength : left.length + n = right.length + m) (hleft : ∀ a ∈ left, zero ≤ a)
    (hright : ∀ a ∈ right, zero ≤ a)
    (h : left ++ List.replicate n zero < right ++ List.replicate m zero) (more more' : List α) :
    left ++ stop :: more < right ++ stop :: more' := by
  induction left generalizing right with
  | nil =>
      cases right with
      | nil =>
          obtain rfl : n = m := by simpa using hlength
          exact absurd h (lt_irrefl _)
      | cons b right =>
          rw [List.nil_append, List.cons_append, List.cons_lt_cons_iff]
          exact .inl (hstop.trans_le (hright b List.mem_cons_self))
  | cons a left ih =>
      cases right with
      | nil =>
          -- what is before zeros would have to be less than zeros
          refine absurd h ?_
          obtain rfl : m = (a :: left ++ List.replicate n zero).length := by
            rw [List.length_append, List.length_replicate, hlength, List.length_nil, Nat.zero_add]
          refine not_lt_replicate fun b hb => ?_
          rcases List.mem_append.mp hb with hmem | hmem
          · exact hleft b hmem
          · exact (List.eq_of_mem_replicate hmem).ge
      | cons b right =>
          rw [List.cons_append, List.cons_append, List.cons_lt_cons_iff] at h ⊢
          rcases h with hlt | ⟨heq, hrest⟩
          · exact .inl hlt
          · refine .inr ⟨heq, ih (by simpa [Nat.add_right_comm] using hlength)
              (fun c hc => hleft c (List.mem_cons_of_mem a hc))
              (fun c hc => hright c (List.mem_cons_of_mem b hc)) hrest⟩

end Dictionary

/-! ## Digits -/

/-- So many decimal digits of a number. -/
def digits : ℕ → ℕ → List Char
  | 0, _ => []
  | width + 1, n => digits width (n / 10) ++ [Nat.digitChar (n % 10)]

@[simp] theorem length_digits (width n : ℕ) : (digits width n).length = width := by
  induction width generalizing n with
  | zero => rfl
  | succ width ih => simp [digits, ih]

theorem length_digits_eq (width n m : ℕ) :
    (digits width n).length = (digits width m).length := by
  rw [length_digits, length_digits]

theorem digitChar_lt : ∀ n < 10, ∀ m < 10, n < m → Nat.digitChar n < Nat.digitChar m := by
  decide

theorem zero_le_digitChar : ∀ n < 10, '0' ≤ Nat.digitChar n := by
  decide

theorem zero_le_of_mem_digits {width n : ℕ} {c : Char} (h : c ∈ digits width n) : '0' ≤ c := by
  induction width generalizing n with
  | zero => cases h
  | succ width ih =>
      rcases List.mem_append.mp h with hmem | hmem
      · exact ih hmem
      · rw [List.mem_singleton.mp hmem]
        exact zero_le_digitChar _ (Nat.mod_lt n (by decide))

/-- **Numbers of one width** stand in the order of their digits. -/
theorem digits_lt {width n m : ℕ} (hm : m < 10 ^ width) (h : n < m) :
    digits width n < digits width m := by
  induction width generalizing n m with
  | zero => omega
  | succ width ih =>
      rw [digits, digits]
      rcases Nat.lt_or_ge (n / 10) (m / 10) with hlt | hge
      · exact append_lt_append_of_lt (length_digits_eq ..) (ih (by omega) hlt) _ _
      · have hsame : n / 10 = m / 10 := by omega
        rw [hsame]
        refine List.append_left_lt (List.cons_lt_cons_iff.mpr (.inl ?_))
        exact digitChar_lt _ (Nat.mod_lt n (by decide)) _ (Nat.mod_lt m (by decide)) (by omega)

/-- A number is before another one, whatever follows, or is the same and what
follows decides. -/
theorem digits_append_lt {width n m : ℕ} {more more' : List Char} (hm : m < 10 ^ width)
    (h : n < m ∨ n = m ∧ more < more') : digits width n ++ more < digits width m ++ more' := by
  rcases h with hlt | ⟨rfl, hmore⟩
  · exact append_lt_append_of_lt (length_digits_eq ..) (digits_lt hm hlt) _ _
  · exact List.append_left_lt hmore

/-- The first digits of a number, and the last. -/
theorem digits_add (width more n : ℕ) :
    digits (width + more) n = digits width (n / 10 ^ more) ++ digits more (n % 10 ^ more) := by
  induction more generalizing n with
  | zero => simp [digits]
  | succ more ih =>
      rw [← Nat.add_assoc, digits, ih, digits, Nat.div_div_eq_div_mul, ← pow_succ',
        List.append_assoc]
      congr 3
      · rw [pow_succ', Nat.mod_mul_right_div_self]
      · rw [pow_succ', Nat.mod_mul_right_mod]

theorem digits_zero (width : ℕ) : digits width 0 = List.replicate width '0' := by
  induction width with
  | zero => rfl
  | succ width ih =>
      rw [digits, Nat.zero_div, ih, List.replicate_succ']
      rfl

/-- Two digits or more, a separator, and what follows. -/
theorem separated_lt {width n m : ℕ} {separator : Char} {more more' : List Char}
    (hm : m < 10 ^ width) (h : n < m ∨ n = m ∧ more < more') :
    digits width n ++ separator :: more < digits width m ++ separator :: more' := by
  refine digits_append_lt hm (h.imp_right fun hsame => ?_)
  exact ⟨hsame.1, List.cons_lt_cons_iff.mpr (.inr ⟨rfl, hsame.2⟩)⟩

/-! ## Fractions of a second -/

/-- The nanoseconds behind the point, without the groups of zeros at their
end, and without the point if that is all. -/
def fraction (nanos : ℕ) : List Char :=
  if nanos = 0 then []
  else if nanos % 1000000 = 0 then '.' :: digits 3 (nanos / 1000000)
  else if nanos % 1000 = 0 then '.' :: digits 6 (nanos / 1000)
  else '.' :: digits 9 nanos

/-- The digits a fraction shows, with the zeros it leaves out. -/
theorem fraction_eq {nanos : ℕ} (hsome : nanos ≠ 0) :
    ∃ shown zeros, fraction nanos = '.' :: shown ∧ (∀ c ∈ shown, '0' ≤ c) ∧
      shown.length + zeros = 9 ∧ shown ++ List.replicate zeros '0' = digits 9 nanos := by
  unfold fraction
  rw [if_neg hsome]
  by_cases hmillis : nanos % 1000000 = 0
  · rw [if_pos hmillis]
    refine ⟨_, 6, rfl, fun c hc => zero_le_of_mem_digits hc, by rw [length_digits], ?_⟩
    rw [digits_add 3 6 nanos, ← digits_zero]
    norm_num [hmillis]
  rw [if_neg hmillis]
  by_cases hmicros : nanos % 1000 = 0
  · rw [if_pos hmicros]
    refine ⟨_, 3, rfl, fun c hc => zero_le_of_mem_digits hc, by rw [length_digits], ?_⟩
    rw [digits_add 6 3 nanos, ← digits_zero]
    norm_num [hmicros]
  · rw [if_neg hmicros]
    exact ⟨_, 0, rfl, fun c hc => zero_le_of_mem_digits hc, by rw [length_digits],
      List.append_nil _⟩

/-- **Fractions of any two precisions** stand in the order of the nanoseconds,
before a plus sign. -/
theorem fraction_lt {nanos nanos' : ℕ} (hlast : nanos' < 10 ^ 9) (h : nanos < nanos')
    (more more' : List Char) :
    fraction nanos ++ '+' :: more < fraction nanos' ++ '+' :: more' := by
  obtain ⟨shown', zeros', htext', hdigits', hlength', hall'⟩ :=
    fraction_eq (show nanos' ≠ 0 by omega)
  rw [htext']
  by_cases hnone : nanos = 0
  · rw [fraction, if_pos hnone]
    exact List.cons_lt_cons_iff.mpr (.inl (by decide))
  · obtain ⟨shown, zeros, htext, hdigits, hlength, hall⟩ := fraction_eq hnone
    rw [htext, List.cons_append, List.cons_append]
    refine List.cons_lt_cons_iff.mpr (.inr ⟨rfl, ?_⟩)
    refine trimmed_lt (show '+' < '0' by decide) (hlength.trans hlength'.symm)
      hdigits hdigits' ?_ _ _
    rw [hall, hall']
    exact digits_lt hlast h

/-! ## Instants -/

/-- A year: four digits, or a sign and at least four. -/
def yearText (year : Int) : List Char :=
  if 0 ≤ year ∧ year ≤ 9999 then digits 4 year.toNat
  else (if year < 0 then '-' else '+') ::
    (if year.natAbs < 10000 then digits 4 year.natAbs else Nat.toDigits 10 year.natAbs)

/-- A date. -/
def dateText (date : Date) : List Char :=
  yearText date.year ++ '-' :: (digits 2 date.month ++ '-' :: digits 2 date.day)

/-- A second of a day, and so many nanoseconds of it, in UTC. -/
def clockText (second nanos : ℕ) : List Char :=
  digits 2 (second / 3600) ++ ':' :: (digits 2 (second / 60 % 60) ++ ':' ::
    (digits 2 (second % 60) ++ (fraction nanos ++ '+' :: ['0', '0', ':', '0', '0'])))

/-- The day of an instant, from the year 0 on. -/
def dayOf (instant : Int) : Int := instant / 1000000000 / 86400 + 719528

/-- The second of its day. -/
def secondOf (instant : Int) : ℕ := (instant / 1000000000 % 86400).toNat

/-- The nanosecond of its second. -/
def nanosOf (instant : Int) : ℕ := (instant % 1000000000).toNat

/-- An instant, in nanoseconds since 1970, in RFC 3339. -/
def timestamp (instant : Int) : List Char :=
  dateText (dateOf (dayOf instant)) ++ 'T' :: clockText (secondOf instant) (nanosOf instant)

example : String.ofList (timestamp 951782400250000000) = "2000-02-29T00:00:00.250+00:00" := by
  decide +kernel

theorem clockText_lt {second second' nanos nanos' : ℕ} (hday : second' < 86400)
    (hsecond : nanos' < 10 ^ 9) (h : second < second' ∨ second = second' ∧ nanos < nanos') :
    clockText second nanos < clockText second' nanos' := by
  unfold clockText
  refine separated_lt (by omega) ?_
  rcases Nat.lt_or_ge (second / 3600) (second' / 3600) with hhour | hhour
  · exact .inl hhour
  refine .inr ⟨by omega, separated_lt (by omega) ?_⟩
  rcases Nat.lt_or_ge (second / 60 % 60) (second' / 60 % 60) with hminute | hminute
  · exact .inl hminute
  refine .inr ⟨by omega, digits_append_lt (by omega) ?_⟩
  rcases h with hless | ⟨rfl, hnanos⟩
  · exact .inl (by omega)
  · exact .inr ⟨rfl, fraction_lt hsecond hnanos _ _⟩

theorem dateText_lt {date date' : Date} (hfirst : 0 ≤ date.year) (hlast : date'.year ≤ 9999)
    (hmonth : date'.month < 100) (hday : date'.day < 100) (h : date.Before date')
    (more more' : List Char) : dateText date ++ more < dateText date' ++ more' := by
  have hyears : date.year ≤ date'.year := by
    rcases h with hlt | ⟨heq, -⟩
    · exact hlt.le
    · exact heq.le
  unfold dateText yearText
  rw [if_pos ⟨hfirst, by omega⟩, if_pos ⟨by omega, hlast⟩]
  simp only [List.append_assoc, List.cons_append]
  refine separated_lt (by omega) ?_
  rcases h with hyear | ⟨hyear, h⟩
  · exact .inl (by omega)
  refine .inr ⟨by rw [hyear], separated_lt hmonth (h.imp_right fun hsame => ⟨hsame.1, ?_⟩)⟩
  exact digits_append_lt hday (.inl hsame.2)

/-- An instant in a year of four digits. -/
def InFourDigits (instant : Int) : Prop := 0 ≤ dayOf instant ∧ dayOf instant < yearStart 10000

instance (instant : Int) : Decidable (InFourDigits instant) := inferInstanceAs (Decidable (_ ∧ _))

/-- The year of an instant has four digits just where the instant is in one. -/
theorem inFourDigits_iff {instant : Int} : InFourDigits instant ↔
    0 ≤ (dateOf (dayOf instant)).year ∧ (dateOf (dayOf instant)).year ≤ 9999 := by
  have hfirst : 0 ≤ yearOf (dayOf instant) ↔ yearStart 0 ≤ dayOf instant := le_yearOf_iff
  have hlast : 10000 ≤ yearOf (dayOf instant) ↔ yearStart 10000 ≤ dayOf instant := le_yearOf_iff
  have hzero : yearStart 0 = 0 := by decide
  show InFourDigits instant ↔ 0 ≤ yearOf (dayOf instant) ∧ yearOf (dayOf instant) ≤ 9999
  unfold InFourDigits
  omega

/-- A later instant is on a later day, or later on the day. -/
theorem dayOf_lt_or {instant instant' : Int} (h : instant < instant') :
    dayOf instant < dayOf instant' ∨ dayOf instant = dayOf instant' ∧
      (secondOf instant < secondOf instant' ∨
        secondOf instant = secondOf instant' ∧ nanosOf instant < nanosOf instant') := by
  unfold dayOf secondOf nanosOf
  omega

/-- **An earlier instant has the earlier text.** -/
theorem timestamp_lt {instant instant' : Int} (hyear : InFourDigits instant)
    (hyear' : InFourDigits instant') (h : instant < instant') :
    timestamp instant < timestamp instant' := by
  obtain ⟨hfirst, -⟩ := inFourDigits_iff.mp hyear
  obtain ⟨-, hlast⟩ := inFourDigits_iff.mp hyear'
  unfold timestamp
  rcases dayOf_lt_or h with hday | ⟨hday, hclock⟩
  · obtain ⟨hmonth, hdays⟩ := dateOf_bounds (dayOf instant')
    exact dateText_lt hfirst hlast hmonth hdays (dateOf_lt hday) _ _
  · rw [hday]
    refine List.append_left_lt (List.cons_lt_cons_iff.mpr (.inr ⟨rfl, ?_⟩))
    refine clockText_lt ?_ ?_ hclock
    · unfold secondOf
      omega
    · unfold nanosOf
      omega

/-- **Texts stand in the order of the instants.** -/
theorem timestamp_lt_iff {instant instant' : Int} (hyear : InFourDigits instant)
    (hyear' : InFourDigits instant') :
    timestamp instant < timestamp instant' ↔ instant < instant' := by
  refine ⟨fun h => ?_, timestamp_lt hyear hyear'⟩
  rcases lt_trichotomy instant instant' with hlt | rfl | hgt
  · exact hlt
  · exact absurd h (lt_irrefl _)
  · exact absurd h (timestamp_lt hyear' hyear hgt).asymm

/-- Different instants have different texts. -/
theorem timestamp_injective {instant instant' : Int} (hyear : InFourDigits instant)
    (hyear' : InFourDigits instant') (h : timestamp instant = timestamp instant') :
    instant = instant' := by
  have hless := timestamp_lt_iff hyear hyear'
  have hgreater := timestamp_lt_iff hyear' hyear
  rw [h] at hless hgreater
  simp only [lt_self_iff_false, false_iff] at hless hgreater
  omega

/-! ## Years of more digits -/

/-- A year of four digits starts with a digit. -/
theorem timestamp_eq_of_inFourDigits {instant : Int} (h : InFourDigits instant) :
    ∃ first rest, timestamp instant = first :: rest ∧ '0' ≤ first := by
  obtain ⟨hfirst, hlast⟩ := inFourDigits_iff.mp h
  unfold timestamp dateText yearText
  rw [if_pos ⟨hfirst, hlast⟩]
  generalize hyear : digits 4 (dateOf (dayOf instant)).year.toNat = year
  cases year with
  | nil => exact absurd (congrArg List.length hyear) (by simp)
  | cons first year =>
      exact ⟨first, _, rfl, zero_le_of_mem_digits (hyear ▸ List.mem_cons_self)⟩

/-- Any other starts with a sign, which comes before every digit. -/
theorem timestamp_eq_of_not_inFourDigits {instant : Int} (h : ¬ InFourDigits instant) :
    ∃ sign rest, timestamp instant = sign :: rest ∧ sign < '0' := by
  rw [inFourDigits_iff] at h
  unfold timestamp dateText yearText
  rw [if_neg h]
  refine ⟨_, _, rfl, ?_⟩
  by_cases hsign : (dateOf (dayOf instant)).year < 0
  · rw [if_pos hsign]
    decide
  · rw [if_neg hsign]
    decide

/-- A text is of a four-digit year or of another one. -/
theorem timestamp_ne {instant instant' : Int} (hyear : InFourDigits instant)
    (hyear' : ¬ InFourDigits instant') : timestamp instant ≠ timestamp instant' := by
  obtain ⟨first, rest, htext, hdigit⟩ := timestamp_eq_of_inFourDigits hyear
  obtain ⟨sign, rest', htext', hsign⟩ := timestamp_eq_of_not_inFourDigits hyear'
  rw [htext, htext']
  intro h
  rw [(List.cons.inj h).1] at hdigit
  exact lt_irrefl _ (hsign.trans_le hdigit)

/-- **No text of a four-digit year is before one of another year.** -/
theorem not_timestamp_lt {instant instant' : Int} (hyear : InFourDigits instant)
    (hyear' : ¬ InFourDigits instant') : ¬ timestamp instant < timestamp instant' := by
  obtain ⟨first, rest, htext, hdigit⟩ := timestamp_eq_of_inFourDigits hyear
  obtain ⟨sign, rest', htext', hsign⟩ := timestamp_eq_of_not_inFourDigits hyear'
  rw [htext, htext', List.cons_lt_cons_iff]
  rintro (hless | ⟨rfl, -⟩)
  · exact lt_irrefl _ ((hdigit.trans_lt hless).trans hsign)
  · exact lt_irrefl _ (hsign.trans_le hdigit)

/-- So the texts are in the order of the instants up to the year 9999. -/
theorem timestamp_lt_iff_of_early {instant instant' : Int} (hyear : InFourDigits instant)
    (hearly : dayOf instant' < yearStart 10000) :
    timestamp instant < timestamp instant' ↔ instant < instant' := by
  by_cases hyear' : InFourDigits instant'
  · exact timestamp_lt_iff hyear hyear'
  · refine iff_of_false (not_timestamp_lt hyear hyear') fun hlt => hyear' ⟨?_, hearly⟩
    have hfirst := hyear.1
    unfold dayOf at hfirst ⊢
    omega

/-! ## Reading -/

/-- The number of some decimal digits. -/
def number (text : List Char) : ℕ := text.foldl (fun n c => 10 * n + (c.toNat - 48)) 0

theorem toNat_digitChar : ∀ n < 10, (Nat.digitChar n).toNat - 48 = n := by decide

/-- Digits are read back. -/
theorem number_digits {width n : ℕ} (h : n < 10 ^ width) : number (digits width n) = n := by
  induction width generalizing n with
  | zero =>
      rw [pow_zero, Nat.lt_one_iff] at h
      exact h.symm
  | succ width ih =>
      have hfirst : number (digits width (n / 10)) = n / 10 := ih (by omega)
      rw [digits, number, List.foldl_append, ← number, hfirst]
      simp only [List.foldl_cons, List.foldl_nil, toNat_digitChar _ (Nat.mod_lt n (by decide))]
      omega

/-- The nanoseconds of a fraction, from the digits it shows. -/
def readFraction (text : List Char) : ℕ :=
  let shown := text.tail.takeWhile Char.isDigit
  number shown * 10 ^ (9 - shown.length)

theorem isDigit_digitChar : ∀ n < 10, (Nat.digitChar n).isDigit = true := by decide

theorem isDigit_of_mem_digits {width n : ℕ} : ∀ c ∈ digits width n, c.isDigit = true := by
  induction width generalizing n with
  | zero => simp [digits]
  | succ width ih =>
      intro c hc
      rcases List.mem_append.mp hc with hmem | hmem
      · exact ih c hmem
      · rw [List.mem_singleton.mp hmem]
        exact isDigit_digitChar _ (Nat.mod_lt n (by decide))

theorem readFraction_digits {width n : ℕ} (h : n < 10 ^ width) (rest : List Char) :
    readFraction ('.' :: (digits width n ++ '+' :: rest)) = n * 10 ^ (9 - width) := by
  have hshown : (digits width n ++ '+' :: rest).takeWhile Char.isDigit = digits width n := by
    rw [List.takeWhile_append_of_pos isDigit_of_mem_digits]
    simp
  simp only [readFraction, List.tail_cons, hshown, number_digits h, length_digits]

/-- A fraction is read back, whatever its precision. -/
theorem readFraction_fraction {nanos : ℕ} (h : nanos < 10 ^ 9) :
    readFraction (fraction nanos ++ '+' :: ['0', '0', ':', '0', '0']) = nanos := by
  unfold fraction
  by_cases hnone : nanos = 0
  · rw [if_pos hnone, hnone]
    decide
  rw [if_neg hnone]
  by_cases hmillis : nanos % 1000000 = 0
  · rw [if_pos hmillis, List.cons_append, readFraction_digits (by omega)]
    omega
  rw [if_neg hmillis]
  by_cases hmicros : nanos % 1000 = 0
  · rw [if_pos hmicros, List.cons_append, readFraction_digits (by omega)]
    omega
  · rw [if_neg hmicros, List.cons_append, readFraction_digits h]
    omega

/-- The day of a date, from the year 0 on. -/
def dayNumber (date : Date) : Int :=
  yearStart date.year + monthStart (isLeap date.year) date.month + date.day - 1

theorem dayNumber_dateOf (day : Int) : dayNumber (dateOf day) = day := by
  obtain ⟨hstart, -⟩ := yearOf_spec day
  obtain ⟨-, -, hmonth, -⟩ := monthOf_spec _ _ (dayOfYear_lt day)
  simp only [dayNumber, dateOf]
  omega

/-- The instant of a date, a second of the day and so many nanoseconds. -/
def instantOf (date : Date) (second nanos : ℕ) : Int :=
  ((dayNumber date - 719528) * 86400 + second) * 1000000000 + nanos

theorem instantOf_eq (instant : Int) :
    instantOf (dateOf (dayOf instant)) (secondOf instant) (nanosOf instant) = instant := by
  rw [instantOf, dayNumber_dateOf]
  unfold dayOf secondOf nanosOf
  omega

/-- What the digits of a text say, in the places where a timestamp has
them. -/
def readInstant : List Char → Int
  | y₃ :: y₂ :: y₁ :: y₀ :: _ :: m₁ :: m₀ :: _ :: d₁ :: d₀ :: _ ::
      h₁ :: h₀ :: _ :: n₁ :: n₀ :: _ :: s₁ :: s₀ :: rest =>
      instantOf ⟨number [y₃, y₂, y₁, y₀], number [m₁, m₀], number [d₁, d₀]⟩
        (number [h₁, h₀] * 3600 + number [n₁, n₀] * 60 + number [s₁, s₀]) (readFraction rest)
  | _ => 0

/-- The instant of a four-digit year that a text is the timestamp of. -/
def ofTimestamp (text : List Char) : Option Int :=
  if InFourDigits (readInstant text) ∧ timestamp (readInstant text) = text then
    some (readInstant text)
  else none

theorem readInstant_timestamp {instant : Int} (h : InFourDigits instant) :
    readInstant (timestamp instant) = instant := by
  obtain ⟨hfirst, hlast⟩ := inFourDigits_iff.mp h
  obtain ⟨hmonth, hday⟩ := dateOf_bounds (dayOf instant)
  have hsecond : secondOf instant < 86400 := by
    unfold secondOf
    omega
  have hnanos : nanosOf instant < 10 ^ 9 := by
    unfold nanosOf
    omega
  -- the text has its digits in the places where they are read
  have htext : readInstant (timestamp instant) =
      instantOf ⟨number (digits 4 (dateOf (dayOf instant)).year.toNat),
          number (digits 2 (dateOf (dayOf instant)).month),
          number (digits 2 (dateOf (dayOf instant)).day)⟩
        (number (digits 2 (secondOf instant / 3600)) * 3600 +
          number (digits 2 (secondOf instant / 60 % 60)) * 60 +
          number (digits 2 (secondOf instant % 60)))
        (readFraction (fraction (nanosOf instant) ++ '+' :: ['0', '0', ':', '0', '0'])) := by
    unfold timestamp dateText yearText
    rw [if_pos ⟨hfirst, hlast⟩]
    rfl
  have hyear : ((dateOf (dayOf instant)).year.toNat : Int) = (dateOf (dayOf instant)).year := by
    omega
  have hclock : secondOf instant / 3600 * 3600 + secondOf instant / 60 % 60 * 60 +
      secondOf instant % 60 = secondOf instant := by omega
  rw [htext, number_digits (by omega), number_digits hmonth, number_digits hday,
    number_digits (by omega), number_digits (by omega), number_digits (by omega),
    readFraction_fraction hnanos, hyear, hclock]
  exact instantOf_eq instant

/-- **A timestamp is read back**, if its year has four digits. -/
theorem ofTimestamp_timestamp (instant : Int) :
    ofTimestamp (timestamp instant) = if InFourDigits instant then some instant else none := by
  unfold ofTimestamp
  by_cases hyear : InFourDigits instant
  · rw [readInstant_timestamp hyear, if_pos ⟨hyear, rfl⟩, if_pos hyear]
  · rw [if_neg hyear, if_neg]
    rintro ⟨hread, hsame⟩
    exact timestamp_ne hread hyear hsame

end Calendar

end Llmap
