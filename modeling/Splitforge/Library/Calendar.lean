import Mathlib.Algebra.BigOperators.Group.List.Basic
import Mathlib.Algebra.GroupWithZero.Nat
import Mathlib.Data.Int.Order.Basic
import Mathlib.Data.List.Basic

/-!
# The Gregorian calendar

Days counted from the first of January of year 0, and nanoseconds from that of 1970, as dates and
times of day. The year of a day is found by the mean length of a year and corrected by one, the
month and the day of the month by going down the months. A date that does not exist has no day.
-/

namespace Splitforge.Library.Calendar

/-! ## Years -/

/-- Whether a year has a 29th of February. -/
def isLeap (year : Int) : Bool := year % 4 = 0 && (year % 100 ≠ 0 || year % 400 = 0)

/-- The days of a year. -/
def yearLength (year : Int) : Int := if isLeap year then 366 else 365

/-- The days from the start of year 0 to the start of a year. -/
def daysBefore (year : Int) : Int :=
  365 * year + (year + 3) / 4 - (year + 99) / 100 + (year + 399) / 400

theorem is_leap_iff {year : Int} :
    isLeap year = true ↔ year % 4 = 0 ∧ (year % 100 ≠ 0 ∨ year % 400 = 0) := by
  simp [isLeap]

theorem days_before_succ (year : Int) :
    daysBefore (year + 1) = daysBefore year + yearLength year := by
  unfold daysBefore yearLength
  split_ifs with h
  · rw [is_leap_iff] at h
    omega
  · rw [is_leap_iff] at h
    omega

theorem days_before_mono {year year' : Int} (h : year ≤ year') :
    daysBefore year ≤ daysBefore year' := by
  unfold daysBefore
  omega

/-- The year a day is in. -/
def yearOf (day : Int) : Int :=
  let guess := 400 * day / 146097
  if day < daysBefore guess then guess - 1
  else if daysBefore (guess + 1) ≤ day then guess + 1 else guess

/-- A day is in its year. -/
theorem year_of_bounds (day : Int) :
    daysBefore (yearOf day) ≤ day ∧ day < daysBefore (yearOf day + 1) := by
  unfold yearOf
  dsimp only
  split_ifs with hbefore hbehind
  · rw [Int.sub_add_cancel]
    refine ⟨?_, hbefore⟩
    unfold daysBefore at *
    omega
  · refine ⟨hbehind, ?_⟩
    unfold daysBefore at *
    omega
  · exact ⟨not_lt.mp hbefore, not_le.mp hbehind⟩

/-! ## Months -/

/-- The days of each month. -/
def monthLengths (leap : Bool) : List Nat :=
  [31, if leap then 29 else 28, 31, 30, 31, 30, 31, 31, 30, 31, 30, 31]

/-- Goes down some lengths: how many are passed, and what is left behind them. -/
def descend : List Nat → Nat → Nat × Nat
  | [], left => (0, left)
  | length :: lengths, left =>
      if left < length then (0, left)
      else
        let (passed, left) := descend lengths (left - length)
        (passed + 1, left)

/-- What was passed and what is left are all there was. -/
theorem sum_take_descend (lengths : List Nat) (left : Nat) :
    (lengths.take (descend lengths left).1).sum + (descend lengths left).2 = left := by
  induction lengths generalizing left with
  | nil => simp [descend]
  | cons length lengths ih =>
      unfold descend
      split_ifs with h
      · simp
      · have hrest := ih (left - length)
        simp only [List.take_succ_cons, List.sum_cons]
        omega

/-- Going down does not pass everything, and less is left than the length it stops at. -/
theorem descend_lt {lengths : List Nat} {left : Nat} (h : left < lengths.sum) :
    (descend lengths left).2 < lengths.getD (descend lengths left).1 0 := by
  induction lengths generalizing left with
  | nil => simp at h
  | cons length lengths ih =>
      unfold descend
      split_ifs with hlt
      · simpa using hlt
      · rw [List.sum_cons] at h
        have hleft : left - length < lengths.sum := by omega
        simpa using ih hleft

/-- The place where going down stops. -/
theorem descend_lt_length {lengths : List Nat} {left : Nat} (h : left < lengths.sum) :
    (descend lengths left).1 < lengths.length := by
  by_contra hbeyond
  have hlt := descend_lt h
  rw [List.getD_eq_getElem?_getD, List.getElem?_eq_none (Nat.le_of_not_lt hbeyond)] at hlt
  exact absurd hlt (Nat.not_lt_zero _)

/-! ## Dates -/

/-- A date: the month and the day count from 1. -/
structure Date where
  year : Int
  month : Nat
  day : Nat
deriving DecidableEq

/-- The date of a day. -/
def Date.ofDays (day : Int) : Date :=
  let year := yearOf day
  let (passed, left) := descend (monthLengths (isLeap year)) (day - daysBefore year).toNat
  ⟨year, passed + 1, left + 1⟩

/-- A date that exists. -/
def Date.Exists (date : Date) : Prop :=
  1 ≤ date.month ∧ date.month ≤ 12 ∧ 1 ≤ date.day ∧
    date.day ≤ (monthLengths (isLeap date.year)).getD (date.month - 1) 0

instance (date : Date) : Decidable date.Exists := instDecidableAnd

/-- The day of a date, if it exists. -/
def Date.toDays (date : Date) : Option Int :=
  if date.Exists then
    some (daysBefore date.year +
      ((monthLengths (isLeap date.year)).take (date.month - 1)).sum + (date.day - 1 : Nat))
  else none

/-- No month has more than 31 days. -/
theorem month_length_le (leap : Bool) (passed : Nat) :
    (monthLengths leap).getD passed 0 ≤ 31 := by
  by_cases hpassed : passed < 12
  · have hall : ∀ leap, ∀ passed < 12, (monthLengths leap).getD passed 0 ≤ 31 := by decide
    exact hall leap passed hpassed
  · have hlength : (monthLengths leap).length ≤ passed := Nat.le_of_not_lt hpassed
    rw [List.getD_eq_getElem?_getD, List.getElem?_eq_none hlength]
    exact Nat.zero_le _

theorem sum_month_lengths (year : Int) :
    ((monthLengths (isLeap year)).sum : Int) = yearLength year := by
  unfold yearLength monthLengths
  cases isLeap year with
  | false => rfl
  | true => rfl

theorem left_lt (day : Int) : (day - daysBefore (yearOf day)).toNat <
    (monthLengths (isLeap (yearOf day))).sum := by
  obtain ⟨hlower, hupper⟩ := year_of_bounds day
  have hlength := sum_month_lengths (yearOf day)
  rw [days_before_succ, ← hlength] at hupper
  omega

/-- The date of a day exists. -/
theorem Date.exists_of_days (day : Int) : (Date.ofDays day).Exists := by
  have hleft := left_lt day
  have hmonth := descend_lt_length hleft
  have hday := descend_lt hleft
  have htwelve : (monthLengths (isLeap (yearOf day))).length = 12 := rfl
  rw [htwelve] at hmonth
  refine ⟨Nat.le_add_left .., hmonth, Nat.le_add_left .., ?_⟩
  exact hday

/-- The day of the date of a day is that day. -/
theorem Date.to_days_of_days (day : Int) : (Date.ofDays day).toDays = some day := by
  obtain ⟨hlower, _⟩ := year_of_bounds day
  have hsum := sum_take_descend (monthLengths (isLeap (yearOf day)))
    (day - daysBefore (yearOf day)).toNat
  rw [Date.toDays, if_pos (Date.exists_of_days day)]
  show some (daysBefore (yearOf day) + _ + _) = _
  simp only [Date.ofDays, Nat.add_sub_cancel]
  congr 1
  omega

/-! ## Times of day -/

/-- A date and a time of day. -/
structure DateTime where
  date : Date
  hour : Nat
  minute : Nat
  second : Nat
  nanosecond : Nat
deriving DecidableEq

/-- The day of the first of January 1970. -/
def epochDay : Int := 719528

/-- The nanoseconds of a day. -/
def dayNanos : Int := 86400000000000

/-- The date and time of day some nanoseconds from the start of 1970. -/
def DateTime.ofNanos (nanos : Int) : DateTime :=
  let left := (nanos % dayNanos).toNat
  ⟨Date.ofDays (nanos / dayNanos + epochDay), left / 3600000000000, left / 60000000000 % 60,
    left / 1000000000 % 60, left % 1000000000⟩

/-- A time of day that exists. -/
def DateTime.IsTime (time : DateTime) : Prop :=
  time.hour < 24 ∧ time.minute < 60 ∧ time.second < 60 ∧ time.nanosecond < 1000000000

instance (time : DateTime) : Decidable time.IsTime := instDecidableAnd

/-- The nanoseconds from the start of 1970 to a date and time of day, if it exists. -/
def DateTime.toNanos (time : DateTime) : Option Int :=
  if time.IsTime then
    time.date.toDays.map fun day => (day - epochDay) * dayNanos +
      (((time.hour * 60 + time.minute) * 60 + time.second) * 1000000000 + time.nanosecond : Nat)
  else none

theorem DateTime.is_time_of_nanos (nanos : Int) : (DateTime.ofNanos nanos).IsTime := by
  have hlower := Int.emod_nonneg nanos (b := dayNanos) (by decide)
  have hupper := Int.emod_lt_of_pos nanos (b := dayNanos) (by decide)
  unfold dayNanos at hlower hupper
  unfold DateTime.IsTime DateTime.ofNanos dayNanos
  dsimp only
  omega

/-- The date and time of day of an instant are those of that instant. -/
theorem DateTime.to_nanos_of_nanos (nanos : Int) :
    (DateTime.ofNanos nanos).toNanos = some nanos := by
  have hlower := Int.emod_nonneg nanos (b := dayNanos) (by decide)
  have hupper := Int.emod_lt_of_pos nanos (b := dayNanos) (by decide)
  have hsplit := Int.mul_ediv_add_emod nanos dayNanos
  rw [DateTime.toNanos, if_pos (DateTime.is_time_of_nanos nanos)]
  show (Date.ofDays (nanos / dayNanos + epochDay)).toDays.map _ = _
  rw [Date.to_days_of_days, Option.map_some, Int.add_sub_cancel]
  congr 1
  unfold DateTime.ofNanos
  unfold dayNanos at *
  dsimp only
  omega

/-- Cutting an instant to whole microseconds cuts nothing but its nanoseconds. -/
theorem DateTime.of_nanos_whole_micros (nanos : Int) :
    DateTime.ofNanos (nanos / 1000 * 1000) =
      { DateTime.ofNanos nanos with
        nanosecond := (DateTime.ofNanos nanos).nanosecond / 1000 * 1000 } := by
  have hlower := Int.emod_nonneg nanos (b := dayNanos) (by decide)
  have hday : nanos / 1000 * 1000 / dayNanos = nanos / dayNanos := by
    unfold dayNanos
    omega
  have hleft : (nanos / 1000 * 1000 % dayNanos).toNat =
      (nanos % dayNanos).toNat / 1000 * 1000 := by
    unfold dayNanos at *
    omega
  unfold DateTime.ofNanos
  rw [hday, hleft]
  generalize (nanos % dayNanos).toNat = left
  simp only [DateTime.mk.injEq, true_and]
  omega

end Splitforge.Library.Calendar
