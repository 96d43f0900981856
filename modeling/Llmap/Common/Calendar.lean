import Mathlib.Tactic
/-!
# Dates

The proleptic Gregorian calendar. Days are numbered from the first of
January of the year 0 on, in both directions. `dateOf` is the date of a day,
and dates stand in the order of their days (`dateOf_lt`).
-/

namespace Llmap

namespace Calendar

/-- A year with a 29th of February. -/
def isLeap (year : Int) : Bool := year % 4 = 0 && (year % 100 ≠ 0 || year % 400 = 0)

/-- The first day of a year. -/
def yearStart (year : Int) : Int :=
  365 * year + (year + 3) / 4 - (year + 99) / 100 + (year + 399) / 400

/-- The number of days of a year. -/
def yearLength (leap : Bool) : ℕ := if leap then 366 else 365

theorem yearStart_succ (year : Int) :
    yearStart (year + 1) = yearStart year + yearLength (isLeap year) := by
  unfold yearStart yearLength
  by_cases hleap : isLeap year = true
  · rw [if_pos hleap]
    simp only [isLeap, Bool.and_eq_true, Bool.or_eq_true, decide_eq_true_eq] at hleap
    omega
  · rw [if_neg hleap]
    simp only [isLeap, Bool.and_eq_true, Bool.or_eq_true, decide_eq_true_eq] at hleap
    omega

theorem yearStart_mono {year year' : Int} (h : year ≤ year') :
    yearStart year ≤ yearStart year' := by
  unfold yearStart
  omega

/-- The year of a day. 400 years have 146097 days, which gives the year or the
one before it. -/
def yearOf (day : Int) : Int :=
  let year := (day - 2) * 400 / 146097
  if yearStart (year + 1) ≤ day then year + 1 else year

/-- A day is in its year. -/
theorem yearOf_spec (day : Int) :
    yearStart (yearOf day) ≤ day ∧ day < yearStart (yearOf day + 1) := by
  unfold yearOf
  simp only
  split
  · rename_i h
    refine ⟨h, ?_⟩
    unfold yearStart
    omega
  · rename_i h
    refine ⟨?_, not_le.mp h⟩
    unfold yearStart
    omega

/-- The year is the one whose days a day is among. -/
theorem le_yearOf_iff {day year : Int} : year ≤ yearOf day ↔ yearStart year ≤ day := by
  obtain ⟨hstart, hend⟩ := yearOf_spec day
  constructor
  · intro h
    exact (yearStart_mono h).trans hstart
  · intro h
    by_contra hlater
    have := yearStart_mono (show yearOf day + 1 ≤ year by omega)
    omega

/-! ## Months -/

/-- The lengths of the months. -/
def monthLengths (leap : Bool) : List ℕ :=
  [31, if leap then 29 else 28, 31, 30, 31, 30, 31, 31, 30, 31, 30, 31]

/-- The days of a year before a month. -/
def monthStart (leap : Bool) (month : ℕ) : ℕ := ((monthLengths leap).take (month - 1)).sum

/-- The month of a day of a year: as many as have begun. -/
def monthOf (leap : Bool) (day : ℕ) : ℕ :=
  ((List.range 12).filter fun month => monthStart leap (month + 1) ≤ day).length

/-- A day of a year is in its month. -/
theorem monthOf_spec : ∀ (leap : Bool), ∀ day < yearLength leap,
    1 ≤ monthOf leap day ∧ monthOf leap day ≤ 12 ∧
      monthStart leap (monthOf leap day) ≤ day ∧
      day < monthStart leap (monthOf leap day + 1) := by
  decide +kernel

/-- No month is longer than 31 days. -/
theorem monthStart_succ_le : ∀ (leap : Bool), ∀ month < 13,
    monthStart leap (month + 1) ≤ monthStart leap month + 31 := by
  decide +kernel

theorem monthStart_mono {leap : Bool} {month month' : ℕ} (h : month ≤ month') :
    monthStart leap month ≤ monthStart leap month' := by
  unfold monthStart
  exact List.Sublist.sum_le_sum
    (List.take_sublist_take_left (Nat.sub_le_sub_right h 1)) fun _ _ => Nat.zero_le _

/-! ## Dates -/

/-- A date: a year, a month from 1 on and a day from 1 on. -/
structure Date where
  year : Int
  month : ℕ
  day : ℕ
deriving DecidableEq

/-- Dates in their order. -/
def Date.Before (left right : Date) : Prop :=
  left.year < right.year ∨ left.year = right.year ∧
    (left.month < right.month ∨ left.month = right.month ∧ left.day < right.day)

/-- The date of a day. -/
def dateOf (day : Int) : Date :=
  let year := yearOf day
  let dayOfYear := (day - yearStart year).toNat
  let month := monthOf (isLeap year) dayOfYear
  ⟨year, month, dayOfYear - monthStart (isLeap year) month + 1⟩

example : dateOf 719527 = ⟨1969, 12, 31⟩ ∧ dateOf 730544 = ⟨2000, 2, 29⟩ := by decide +kernel

/-- The day of a year is one of its days. -/
theorem dayOfYear_lt (day : Int) :
    (day - yearStart (yearOf day)).toNat < yearLength (isLeap (yearOf day)) := by
  obtain ⟨hstart, hend⟩ := yearOf_spec day
  rw [yearStart_succ] at hend
  omega

/-- **A date has two digits for its month and its day.** -/
theorem dateOf_bounds (day : Int) : (dateOf day).month < 100 ∧ (dateOf day).day < 100 := by
  obtain ⟨hfirst, hlast, hstart, hend⟩ := monthOf_spec _ _ (dayOfYear_lt day)
  have hlength := monthStart_succ_le (isLeap (yearOf day)) _ (Nat.lt_succ_of_le hlast)
  simp only [dateOf]
  omega

/-- **Dates stand in the order of their days.** -/
theorem dateOf_lt {day day' : Int} (h : day < day') : (dateOf day).Before (dateOf day') := by
  obtain ⟨hstart, -⟩ := yearOf_spec day
  have hyear : yearOf day ≤ yearOf day' := le_yearOf_iff.mpr (hstart.trans h.le)
  rcases hyear.lt_or_eq with hlt | heq
  · exact .inl hlt
  -- in one year, the months stand in the order of the days of the year
  have hless : (day - yearStart (yearOf day)).toNat < (day' - yearStart (yearOf day')).toNat := by
    rw [← heq]
    omega
  have hspec := monthOf_spec _ _ (dayOfYear_lt day)
  have hspec' := monthOf_spec _ _ (dayOfYear_lt day')
  rw [← heq] at hspec' hless
  refine .inr ⟨heq, ?_⟩
  simp only [dateOf, ← heq]
  generalize (day - yearStart (yearOf day)).toNat = early at hspec hless ⊢
  generalize (day' - yearStart (yearOf day)).toNat = late at hspec' hless ⊢
  rcases lt_trichotomy (monthOf (isLeap (yearOf day)) early) (monthOf (isLeap (yearOf day)) late)
    with hlt | hsame | hgt
  · exact .inl hlt
  · refine .inr ⟨hsame, ?_⟩
    rw [← hsame] at hspec' ⊢
    omega
  · have hmonths : monthStart (isLeap (yearOf day)) (monthOf (isLeap (yearOf day)) late + 1) ≤
        monthStart (isLeap (yearOf day)) (monthOf (isLeap (yearOf day)) early) :=
      monthStart_mono hgt
    omega

end Calendar

end Llmap
