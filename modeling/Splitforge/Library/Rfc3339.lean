import Splitforge.Library.Calendar
import Splitforge.Library.Decimal
import Splitforge.Library.Lines

/-!
# Instants as RFC 3339 text

An instant with an offset from UTC is written as its local date and time, with as many digits of a
fraction of a second as it needs, and the offset. The reader takes the writer's own text back and
is strict about everything else.
-/

namespace Splitforge.Library.Rfc3339

open Splitforge.Library.Calendar

/-- The nanoseconds of a second. -/
def secondNanos : Int := 1000000000

/-! ## Writing -/

/-- The digits of a fraction of so many places, without the zeros at its end. -/
def fractionDigits : Nat → Nat → List Char
  | 0, _ => []
  | places + 1, number =>
      if number % 10 = 0 then fractionDigits places (number / 10) else padded (places + 1) number

/-- The nanoseconds of a second behind a point, where there are any. -/
def fraction (nanosecond : Nat) : List Char :=
  if nanosecond = 0 then [] else '.' :: fractionDigits 9 nanosecond

/-- An offset of whole minutes, in seconds. -/
def offsetText (offset : Int) : List Char :=
  if offset = 0 then ['Z']
  else (if offset < 0 then '-' else '+') ::
    (padded 2 (offset.natAbs / 3600) ++ ':' :: padded 2 (offset.natAbs / 60 % 60))

/-- A date and time of day in a year of four digits, without the offset. -/
def localText (time : DateTime) : List Char :=
  padded 4 time.date.year.toNat ++ '-' :: (padded 2 time.date.month ++ '-' ::
    (padded 2 time.date.day ++ 'T' :: (padded 2 time.hour ++ ':' :: (padded 2 time.minute ++
      ':' :: (padded 2 time.second ++ fraction time.nanosecond)))))

/-- An instant at an offset, or the component that cannot be written. -/
def format (nanos offset : Int) : Except String (List Char) :=
  let time := DateTime.ofNanos (nanos + offset * secondNanos)
  if time.date.year < 0 ∨ 9999 < time.date.year then .error "year"
  else if 23 < offset.natAbs / 3600 then .error "offset_hour"
  else if offset.natAbs % 60 ≠ 0 then .error "offset_second"
  else .ok (localText time ++ offsetText offset)

/-! ## Reading -/

/-- A fraction of a second in nanoseconds, if there is one, and what follows. -/
def takeFraction : List Char → Option (Nat × List Char)
  | '.' :: text =>
      let digits := text.takeWhile Char.isDigit
      if digits = [] then none
      else some (digitsValue (digits.take 9) * 10 ^ (9 - digits.length),
        text.dropWhile Char.isDigit)
  | text => some (0, text)

/-- Hours and minutes that end a text, in seconds. -/
def readHours (text : List Char) : Option Nat := do
  let (hours, text) ← takeDigits 2 text
  let text ← [':'].isPrefixOf? text
  let (minutes, text) ← takeDigits 2 text
  if text = [] ∧ minutes < 60 then some (hours * 3600 + minutes * 60) else none

/-- An offset that ends a text, in seconds. -/
def readOffset : List Char → Option Int
  | '+' :: text => (readHours text).map fun (seconds : Nat) => (seconds : Int)
  | '-' :: text => (readHours text).map fun (seconds : Nat) => -(seconds : Int)
  | text => if text = ['Z'] then some 0 else none

/-- The instant of a text. -/
def parse (text : List Char) : Option Int := do
  let (year, text) ← takeDigits 4 text
  let text ← ['-'].isPrefixOf? text
  let (month, text) ← takeDigits 2 text
  let text ← ['-'].isPrefixOf? text
  let (day, text) ← takeDigits 2 text
  let text ← ['T'].isPrefixOf? text
  let (hour, text) ← takeDigits 2 text
  let text ← [':'].isPrefixOf? text
  let (minute, text) ← takeDigits 2 text
  let text ← [':'].isPrefixOf? text
  let (second, text) ← takeDigits 2 text
  let (nanosecond, text) ← takeFraction text
  let offset ← readOffset text
  let nanos ← DateTime.toNanos ⟨⟨year, month, day⟩, hour, minute, second, nanosecond⟩
  some (nanos - offset * secondNanos)

/-! ## What is written is read back -/

variable {places number : Nat} {rest : List Char} {offset nanos : Int}

/-- The digits of a fraction are some digits, no more than its places, and spell it. -/
theorem fraction_digits_spec (hpos : 0 < number) (hlt : number < 10 ^ places) :
    AllDigits (fractionDigits places number) ∧ fractionDigits places number ≠ [] ∧
      (fractionDigits places number).length ≤ places ∧
      digitsValue (fractionDigits places number) *
        10 ^ (places - (fractionDigits places number).length) = number := by
  induction places generalizing number with
  | zero => omega
  | succ places ih =>
      unfold fractionDigits
      split_ifs with hzero
      · -- a zero at the end is left out, and is made up for by the place it leaves
        rw [pow_succ] at hlt
        have hpos' : 0 < number / 10 := by omega
        obtain ⟨hdigits, hne, hlength, hvalue⟩ := ih hpos' (by omega)
        refine ⟨hdigits, hne, by omega, ?_⟩
        rw [Nat.succ_sub hlength, pow_succ, ← Nat.mul_assoc, hvalue]
        omega
      · have hlength := length_padded_of_lt (Nat.succ_pos places) hlt
        refine ⟨all_digits_padded, ?_, hlength.le, ?_⟩
        · intro hnil
          rw [hnil] at hlength
          cases hlength
        · rw [hlength, Nat.sub_self, pow_zero, Nat.mul_one, digits_value_padded]

/-- A fraction is read from in front of what begins with no digit and no point. -/
theorem take_fraction_fraction {c : Char} (hdigit : c.isDigit = false) (hpoint : c ≠ '.')
    (hlt : number < 1000000000) :
    takeFraction (fraction number ++ c :: rest) = some (number, c :: rest) := by
  unfold fraction
  split_ifs with hzero
  · rw [List.nil_append, hzero]
    unfold takeFraction
    split
    · next heq =>
        injection heq with heq _
        exact absurd heq hpoint
    · rfl
  · obtain ⟨hdigits, hne, hlength, hvalue⟩ :=
      @fraction_digits_spec 9 number (Nat.pos_of_ne_zero hzero) hlt
    have htake : (fractionDigits 9 number ++ c :: rest).takeWhile Char.isDigit =
        fractionDigits 9 number := by
      rw [List.takeWhile_append_of_pos hdigits,
        List.takeWhile_cons_of_neg (by simp [hdigit]), List.append_nil]
    have hdrop : (fractionDigits 9 number ++ c :: rest).dropWhile Char.isDigit = c :: rest := by
      rw [List.dropWhile_append_of_pos hdigits, List.dropWhile_cons_of_neg (by simp [hdigit])]
    rw [List.cons_append, takeFraction]
    simp only [htake, hdrop, if_neg hne, List.take_of_length_le hlength, hvalue]

/-- An offset begins with no digit and no point. -/
theorem exists_offset_text (offset : Int) :
    ∃ c rest, offsetText offset = c :: rest ∧ c.isDigit = false ∧ c ≠ '.' := by
  unfold offsetText
  split_ifs
  · exact ⟨'Z', [], rfl, rfl, by decide⟩
  · exact ⟨'-', _, rfl, rfl, by decide⟩
  · exact ⟨'+', _, rfl, rfl, by decide⟩

/-- Hours and minutes are read as the seconds they write. -/
theorem read_hours_padded {seconds : Nat} (hhours : seconds / 3600 ≤ 23)
    (hwhole : seconds % 60 = 0) :
    readHours (padded 2 (seconds / 3600) ++ ':' :: padded 2 (seconds / 60 % 60)) =
      some seconds := by
  have hminutes : takeDigits 2 (padded 2 (seconds / 60 % 60)) =
      some (seconds / 60 % 60, []) := by
    have htake := @take_digits_padded [] (seconds / 60 % 60) 2 (by omega) (by omega)
    rwa [List.append_nil] at htake
  unfold readHours
  dsimp only [Bind.bind]
  rw [take_digits_padded (by omega) (by omega), Option.bind_some]
  show (Option.bind (some _) _) = _
  rw [Option.bind_some, hminutes, Option.bind_some, if_pos ⟨rfl, by omega⟩]
  congr 1
  omega

/-- An offset that can be written is read as it was. -/
theorem read_offset_offset_text (hhours : offset.natAbs / 3600 ≤ 23)
    (hwhole : offset.natAbs % 60 = 0) : readOffset (offsetText offset) = some offset := by
  unfold offsetText
  split_ifs with hzero hnegative
  · rw [hzero]
    rfl
  · rw [readOffset, read_hours_padded hhours hwhole, Option.map_some]
    congr 1
    omega
  · rw [readOffset, read_hours_padded hhours hwhole, Option.map_some]
    congr 1
    omega

/-- An instant that is written is read back. -/
theorem parse_format {text : List Char} (h : format nanos offset = .ok text) :
    parse text = some nanos := by
  unfold format at h
  dsimp only at h
  split_ifs at h with hyear hhours hwhole
  injection h with h
  obtain ⟨hyear, hyear'⟩ := not_or.mp hyear
  have hnanos := DateTime.to_nanos_of_nanos (nanos + offset * secondNanos)
  obtain ⟨hhour, hminute, hsecond, hnano⟩ :=
    DateTime.is_time_of_nanos (nanos + offset * secondNanos)
  obtain ⟨_, hmonth, _, hday⟩ :=
    Date.exists_of_days ((nanos + offset * secondNanos) / dayNanos + epochDay)
  have hlength := month_length_le
    (isLeap (Date.ofDays ((nanos + offset * secondNanos) / dayNanos + epochDay)).year)
    ((Date.ofDays ((nanos + offset * secondNanos) / dayNanos + epochDay)).month - 1)
  change (DateTime.ofNanos _).date.month ≤ 12 at hmonth
  change (DateTime.ofNanos _).date.day ≤ _ at hday
  obtain ⟨c, rest, hoffset, hdigit, hpoint⟩ := exists_offset_text offset
  have hread := read_offset_offset_text (Nat.le_of_not_lt hhours) (not_not.mp hwhole)
  generalize DateTime.ofNanos (nanos + offset * secondNanos) = time at *
  have htaketwo : ∀ number rest, number < 100 →
      takeDigits 2 (padded 2 number ++ rest) = some (number, rest) :=
    fun number rest h => take_digits_padded (by omega) h
  have hmark : ∀ (mark : Char) (text : List Char), [mark].isPrefixOf? (mark :: text) = some text :=
    fun mark text => strip_front_append [mark] text
  rw [← h, localText, parse, hoffset]
  simp only [List.append_assoc, List.cons_append]
  dsimp only [Bind.bind]
  rw [take_digits_padded (by omega) (by omega), Option.bind_some, hmark, Option.bind_some,
    htaketwo time.date.month _ (by omega), Option.bind_some, hmark, Option.bind_some,
    htaketwo time.date.day _ (by omega), Option.bind_some, hmark, Option.bind_some,
    htaketwo time.hour _ (by omega), Option.bind_some, hmark, Option.bind_some,
    htaketwo time.minute _ (by omega), Option.bind_some, hmark, Option.bind_some,
    htaketwo time.second _ (by omega), Option.bind_some,
    take_fraction_fraction hdigit hpoint hnano, Option.bind_some, ← hoffset, hread,
    Option.bind_some]
  have hdate : (time.date.year.toNat : Int) = time.date.year :=
    Int.toNat_of_nonneg (not_lt.mp hyear)
  rw [hdate]
  change (DateTime.toNanos time).bind _ = _
  rw [hnanos, Option.bind_some, Int.add_sub_cancel]

end Splitforge.Library.Rfc3339
