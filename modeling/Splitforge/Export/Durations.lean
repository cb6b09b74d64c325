import Mathlib.Data.String.Basic
import Splitforge.Library.Decimal

/-!
# Exported durations

The time columns of the results file write a duration as hours, minutes, seconds and milliseconds.
All but the hours are padded with zeros, so two durations sort as text as they sort as time while
their hour counts do. Hour counts of different lengths need not.
-/

namespace Splitforge.Export

open Splitforge.Library

/-! ## The source's formatting -/

/-- `format_duration_ms`: a duration as `H:MM:SS.mmm`. -/
def formatDurationMs (totalMs : Int) : String :=
  let sign := if totalMs < 0 then "-" else ""
  let magnitude := totalMs.natAbs
  let millis := magnitude % 1000
  let seconds := (magnitude / 1000) % 60
  let minutes := (magnitude / 60000) % 60
  let hours := magnitude / 3600000
  sign ++ toString hours ++ ":" ++ String.ofList (padded 2 minutes) ++ ":" ++
    String.ofList (padded 2 seconds) ++ "." ++ String.ofList (padded 3 millis)

/-- `format_optional_ms`: a cell of a time column, which is empty where there is no time. -/
def formatOptionalMs (value : Option Int) : String := (value.map formatDurationMs).getD ""

/-! ## What stands behind the hours -/

/-- What a duration's text says behind its hours. -/
def belowHours (magnitude : Nat) : List Char :=
  padded 2 (magnitude / 60000 % 60) ++ ':' :: (padded 2 (magnitude / 1000 % 60) ++
    '.' :: padded 3 (magnitude % 1000))

/-- The text of a duration that is not negative. -/
theorem to_list_format (magnitude : Nat) :
    (formatDurationMs magnitude).toList =
      Nat.toDigits 10 (magnitude / 3600000) ++ ':' :: belowHours magnitude := by
  have hsign : ¬ (magnitude : Int) < 0 := by omega
  simp [formatDurationMs, belowHours, hsign]

theorem below_hours_lt_iff (magnitude magnitude' : Nat) :
    belowHours magnitude < belowHours magnitude' ↔
      magnitude % 3600000 < magnitude' % 3600000 := by
  have hminutes : ∀ n : Nat, n / 60000 % 60 < 10 ^ 2 := fun n => by omega
  have hseconds : ∀ n : Nat, n / 1000 % 60 < 10 ^ 2 := fun n => by omega
  have hmillis : ∀ n : Nat, n % 1000 < 10 ^ 3 := fun n => by omega
  have hlength : ∀ n n' : Nat, (padded 2 (n / 60000 % 60)).length =
      (padded 2 (n' / 60000 % 60)).length := fun n n' => by
    rw [length_padded_of_lt (by omega) (hminutes n), length_padded_of_lt (by omega) (hminutes n')]
  have hlength' : ∀ n n' : Nat, (padded 2 (n / 1000 % 60)).length =
      (padded 2 (n' / 1000 % 60)).length := fun n n' => by
    rw [length_padded_of_lt (by omega) (hseconds n), length_padded_of_lt (by omega) (hseconds n')]
  rw [belowHours, belowHours, append_lt_append_iff (hlength _ _), List.cons_lt_cons_self,
    append_lt_append_iff (hlength' _ _), List.cons_lt_cons_self,
    padded_lt_iff (by omega) (hminutes _) (hminutes _), padded_inj,
    padded_lt_iff (by omega) (hseconds _) (hseconds _), padded_inj,
    padded_lt_iff (by omega) (hmillis _) (hmillis _)]
  omega

/-! ## The order of the texts -/

/-- The lesser of two hour counts is below the number that as many leading digits of the greater
one write, or the counts are one. -/
def HoursSort (hours hours' : Nat) : Prop :=
  hours = hours' ∨ min hours hours' < max hours hours' /
    10 ^ ((Nat.toDigits 10 (max hours hours')).length -
      (Nat.toDigits 10 (min hours hours')).length)

instance {hours hours' : Nat} : Decidable (HoursSort hours hours') := instDecidableOr

theorem hours_sort_comm {hours hours' : Nat} : HoursSort hours hours' ↔ HoursSort hours' hours := by
  rw [HoursSort, HoursSort, min_comm, max_comm, eq_comm]

theorem length_to_digits_mono {number number' : Nat} (h : number ≤ number') :
    (Nat.toDigits 10 number).length ≤ (Nat.toDigits 10 number').length := by
  refine (Nat.length_toDigits_le_iff (by omega) Nat.length_toDigits_pos).mpr ?_
  refine Nat.lt_of_le_of_lt h ?_
  exact (Nat.length_toDigits_le_iff (by omega) Nat.length_toDigits_pos).mp (Nat.le_refl _)

/-- The lesser of two durations is written before the greater one exactly when their hours sort. -/
theorem format_lt_iff_hours {magnitude magnitude' : Nat} (hlt : magnitude < magnitude') :
    formatDurationMs magnitude < formatDurationMs magnitude' ↔
      HoursSort (magnitude / 3600000) (magnitude' / 3600000) := by
  rw [String.lt_iff_toList_lt, to_list_format, to_list_format]
  by_cases hhours : magnitude / 3600000 = magnitude' / 3600000
  · rw [hhours, append_lt_append_iff rfl, List.cons_lt_cons_self, below_hours_lt_iff]
    refine ⟨fun _ => Or.inl rfl, fun _ => Or.inr ⟨rfl, ?_⟩⟩
    omega
  · have hle : magnitude / 3600000 < magnitude' / 3600000 := by omega
    have hdigits : Nat.toDigits 10 (magnitude / 3600000) ≠
        Nat.toDigits 10 (magnitude' / 3600000) := by
      intro heq
      have hvalue := congrArg digitsValue heq
      rw [digits_value_to_digits, digits_value_to_digits] at hvalue
      exact hhours hvalue
    have hlength := length_to_digits_mono hle.le
    rw [digits_mark_lt_iff (by decide) all_digits_to_digits hlength hdigits,
      digits_lt_iff all_digits_to_digits
        (fun c hmem => all_digits_to_digits c (List.mem_of_mem_take hmem))
        (by rw [List.length_take]; omega),
      digits_value_take all_digits_to_digits, digits_value_to_digits, digits_value_to_digits,
      HoursSort, min_eq_left hle.le, max_eq_right hle.le]
    exact ⟨Or.inr, fun h => h.resolve_left hhours⟩

theorem length_below_hours (magnitude : Nat) : (belowHours magnitude).length = 9 := by
  have hminutes : magnitude / 60000 % 60 < 10 ^ 2 := by omega
  have hseconds : magnitude / 1000 % 60 < 10 ^ 2 := by omega
  have hmillis : magnitude % 1000 < 10 ^ 3 := by omega
  simp [belowHours, length_padded_of_lt _ hminutes, length_padded_of_lt _ hseconds,
    length_padded_of_lt _ hmillis]

/-- No two durations have one text. -/
theorem format_inj {magnitude magnitude' : Nat} :
    formatDurationMs magnitude = formatDurationMs magnitude' ↔ magnitude = magnitude' := by
  refine ⟨?_, fun h => h ▸ rfl⟩
  intro h
  have htext := congrArg String.toList h
  rw [to_list_format, to_list_format] at htext
  obtain ⟨hdigits, hbelow⟩ := List.append_inj' htext (by
    rw [List.length_cons, List.length_cons, length_below_hours, length_below_hours])
  have hhours := congrArg digitsValue hdigits
  rw [digits_value_to_digits, digits_value_to_digits] at hhours
  have hbelow := (List.cons.inj hbelow).2
  have hless : ¬ magnitude % 3600000 < magnitude' % 3600000 := by
    rw [← below_hours_lt_iff, hbelow]
    exact lt_irrefl _
  have hmore : ¬ magnitude' % 3600000 < magnitude % 3600000 := by
    rw [← below_hours_lt_iff, hbelow]
    exact lt_irrefl _
  omega

/-! ## The order of the columns -/

/-- The hours of a duration. -/
def hoursOf (totalMs : Int) : Nat := totalMs.natAbs / 3600000

/-- Text and time order two durations alike exactly when their hours sort. -/
theorem format_lt_iff {magnitude magnitude' : Nat} :
    (formatDurationMs magnitude < formatDurationMs magnitude' ↔ magnitude < magnitude') ↔
      HoursSort (magnitude / 3600000) (magnitude' / 3600000) := by
  rcases Nat.lt_trichotomy magnitude magnitude' with hlt | heq | hgt
  · rw [format_lt_iff_hours hlt, iff_true_right hlt]
  · subst heq
    exact ⟨fun _ => Or.inl rfl, fun _ => iff_of_false (lt_irrefl _) (lt_irrefl _)⟩
  · have hne : formatDurationMs magnitude ≠ formatDurationMs magnitude' := by
      rw [Ne, format_inj]
      omega
    have hflip : ¬ formatDurationMs magnitude < formatDurationMs magnitude' ↔
        formatDurationMs magnitude' < formatDurationMs magnitude :=
      ⟨fun h => lt_of_le_of_ne (not_lt.mp h) hne.symm, fun h => not_lt.mpr h.le⟩
    have hnot : ¬ magnitude < magnitude' := by omega
    rw [iff_false_right hnot, hflip, format_lt_iff_hours hgt, hours_sort_comm]

/-- Two durations have one text only when they are one, and text orders them as time does exactly
when their hours sort. -/
theorem durations_sort_as_times (first second : Int) (hfirst : 0 ≤ first) (hsecond : 0 ≤ second) :
    ((formatDurationMs first < formatDurationMs second ↔ first < second) ∧
      (formatDurationMs first = formatDurationMs second ↔ first = second)) ↔
        HoursSort (hoursOf first) (hoursOf second) := by
  obtain ⟨first, rfl⟩ := Int.eq_ofNat_of_zero_le hfirst
  obtain ⟨second, rfl⟩ := Int.eq_ofNat_of_zero_le hsecond
  rw [hoursOf, hoursOf, Int.natAbs_natCast, Int.natAbs_natCast, ← format_lt_iff, Int.ofNat_lt,
    Int.natCast_inj]
  exact ⟨fun h => h.1, fun h => ⟨h, format_inj⟩⟩

/-- One hour and twenty-three hours. -/
theorem one_hour_sorts_before_a_day :
    ((formatDurationMs 3600000 < formatDurationMs 82800000 ↔ (3600000 : Int) < 82800000) ∧
      (formatDurationMs 3600000 = formatDurationMs 82800000 ↔ (3600000 : Int) = 82800000)) :=
  (durations_sort_as_times 3600000 82800000 (by omega) (by omega)).mpr (by decide)

/-- Nine hours and ten hours: the ten hours are the earlier text. -/
theorem ten_hours_sort_before_nine :
    ¬ ∀ first second : Int, 0 ≤ first → 0 ≤ second →
      (formatDurationMs first < formatDurationMs second ↔ first < second) ∧
        (formatDurationMs first = formatDurationMs second ↔ first = second) := by
  intro h
  have htext := (h 32400000 36000000 (by omega) (by omega)).1.mpr (by omega)
  have hlt : 32400000 < 36000000 := by omega
  have hhours : HoursSort 9 10 := (format_lt_iff_hours hlt).mp htext
  exact absurd hhours (by decide)

/-- Two cells of a time column stand as their times, an empty cell before every time. -/
def CellLe (first second : Option Int) : Prop :=
  ∀ time ∈ first, ∃ time' ∈ second, time ≤ time'

/-- Every time of a column is none below zero, and the hours of any two sort. -/
def ColumnSorts (column : List (Option Int)) : Prop :=
  ∀ first ∈ column, ∀ time ∈ first, 0 ≤ time ∧
    ∀ second ∈ column, ∀ time' ∈ second, HoursSort (hoursOf time) (hoursOf time')

theorem empty_lt_format {time : Int} (htime : 0 ≤ time) : "" < formatDurationMs time := by
  obtain ⟨magnitude, rfl⟩ := Int.eq_ofNat_of_zero_le htime
  rw [String.lt_iff_toList_lt, to_list_format]
  cases Nat.toDigits 10 (magnitude / 3600000) with
  | nil => exact List.nil_lt_cons ..
  | cons c digits => exact List.nil_lt_cons ..

/-- A time column whose hours sort is in order as text exactly when its cells are in order. -/
theorem column_sorted_iff {column : List (Option Int)} (hsorts : ColumnSorts column) :
    (column.map formatOptionalMs).Pairwise (fun first second => ¬ second < first) ↔
      column.Pairwise CellLe := by
  rw [List.pairwise_map]
  refine List.Pairwise.iff_of_mem ?_
  intro first second hfirst hsecond
  cases first with
  | none =>
      refine iff_of_true ?_ fun time htime => nomatch htime
      rw [String.lt_iff_toList_lt]
      exact List.not_lt_nil _
  | some time =>
      obtain ⟨hpositive, hhours⟩ := hsorts _ hfirst time rfl
      cases second with
      | none =>
          refine ⟨fun h => absurd (empty_lt_format hpositive) h, fun h => ?_⟩
          obtain ⟨time', htime', -⟩ := h time rfl
          cases htime'
      | some time' =>
          obtain ⟨hpositive', -⟩ := hsorts _ hsecond time' rfl
          obtain ⟨magnitude, rfl⟩ := Int.eq_ofNat_of_zero_le hpositive
          obtain ⟨magnitude', rfl⟩ := Int.eq_ofNat_of_zero_le hpositive'
          have hlt : formatDurationMs magnitude' < formatDurationMs magnitude ↔
              magnitude' < magnitude :=
            format_lt_iff.mpr (hours_sort_comm.mp (hhours _ hsecond _ rfl))
          show ¬ formatDurationMs magnitude' < formatDurationMs magnitude ↔ _
          rw [hlt, CellLe]
          constructor
          · intro h time htime
            cases htime
            exact ⟨_, rfl, by omega⟩
          · intro h
            obtain ⟨time', htime', hle⟩ := h _ rfl
            cases htime'
            omega

end Splitforge.Export
