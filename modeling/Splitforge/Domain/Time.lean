import Mathlib.Order.Basic
import Mathlib.Order.Lattice
import Mathlib.Data.Int.Order.Basic
import Mathlib.Algebra.Group.Int.Defs

/-!
# Instants and durations

The parts of the `time` crate that the repository computes with. An instant is a number of
nanoseconds since the Unix epoch inside the range that crate represents in UTC, so every
difference of two instants is far from the ends of `i64` when it is counted in milliseconds.
-/

namespace Splitforge.Domain

/-- The least `i64`. -/
def i64Min : Int := -2 ^ 63

/-- The greatest `i64`. -/
def i64Max : Int := 2 ^ 63 - 1

/-- `i64::try_from(value).unwrap_or(i64::MAX)`. -/
def i64OrMax (value : Int) : Int :=
  if i64Min ≤ value ∧ value ≤ i64Max then value else i64Max

/-- A value that fits `i64` is not changed. -/
theorem i64_or_max_eq {value : Int} (hlower : i64Min ≤ value) (hupper : value ≤ i64Max) :
    i64OrMax value = value :=
  if_pos ⟨hlower, hupper⟩

/-- The first instant of the year -9999, in nanoseconds since the Unix epoch. -/
def minNanos : Int := -377705116800 * 10 ^ 9

/-- The last nanosecond of the year 9999. -/
def maxNanos : Int := 253402300800 * 10 ^ 9 - 1

/-- An instant. Equality and order are those of the instant, as for the crate's type, whose
offset from UTC takes part in neither. -/
@[ext]
structure OffsetDateTime where
  nanos : Int
  lower : minNanos ≤ nanos
  upper : nanos ≤ maxNanos
deriving DecidableEq

instance : LinearOrder OffsetDateTime :=
  LinearOrder.lift' OffsetDateTime.nanos (fun _ _ h => OffsetDateTime.ext h)

/-- Earlier instants are fewer nanoseconds from the epoch. -/
theorem OffsetDateTime.le_iff {first second : OffsetDateTime} :
    first ≤ second ↔ first.nanos ≤ second.nanos := Iff.rfl

/-- Strict order of instants, in nanoseconds. -/
theorem OffsetDateTime.lt_iff {first second : OffsetDateTime} :
    first < second ↔ first.nanos < second.nanos := Iff.rfl

/-- `OffsetDateTime::from_unix_timestamp_nanos`. -/
def OffsetDateTime.fromUnixTimestampNanos (nanos : Int) : Option OffsetDateTime :=
  if h : minNanos ≤ nanos ∧ nanos ≤ maxNanos then some ⟨nanos, h.1, h.2⟩ else none

/-- An instant some seconds after the start of 1970, for small numbers. -/
def second (number : UInt8) : OffsetDateTime :=
  have hnumber : number.toNat < 256 := number.toNat_lt
  ⟨number.toNat * 10 ^ 9, by unfold minNanos; omega, by unfold maxNanos; omega⟩

/-- A signed span of time, in nanoseconds. -/
@[ext]
structure Duration where
  nanos : Int
deriving DecidableEq

instance : LinearOrder Duration :=
  LinearOrder.lift' Duration.nanos (fun _ _ h => Duration.ext h)

/-- Strict order of durations, in nanoseconds. -/
theorem Duration.lt_iff {first second : Duration} :
    first < second ↔ first.nanos < second.nanos := Iff.rfl

/-- `Duration::milliseconds`. -/
def Duration.milliseconds (milliseconds : Int) : Duration :=
  ⟨milliseconds * 1000000⟩

/-- `Duration::whole_milliseconds`, which truncates toward zero. -/
def Duration.wholeMilliseconds (duration : Duration) : Int :=
  duration.nanos.tdiv 1000000

instance : HSub OffsetDateTime OffsetDateTime Duration :=
  ⟨fun later earlier => ⟨later.nanos - earlier.nanos⟩⟩

@[simp]
theorem OffsetDateTime.sub_nanos (later earlier : OffsetDateTime) :
    (later - earlier).nanos = later.nanos - earlier.nanos := rfl

/-- Truncation toward zero divides the magnitude. -/
theorem Duration.nat_abs_whole_milliseconds (duration : Duration) :
    duration.wholeMilliseconds.natAbs = duration.nanos.natAbs / 1000000 :=
  Int.natAbs_tdiv _ _

/-- The whole milliseconds between two instants are far from the ends of `i64`. -/
theorem OffsetDateTime.abs_whole_milliseconds_le (later earlier : OffsetDateTime) :
    -10 ^ 15 ≤ (later - earlier).wholeMilliseconds ∧
      (later - earlier).wholeMilliseconds ≤ 10 ^ 15 := by
  have habs := (later - earlier).nat_abs_whole_milliseconds
  rw [OffsetDateTime.sub_nanos] at habs
  have hlater := And.intro later.lower later.upper
  have hearlier := And.intro earlier.lower earlier.upper
  simp only [minNanos, maxNanos] at hlater hearlier
  omega

/-- The whole milliseconds between two instants always fit `i64`. -/
theorem OffsetDateTime.i64_or_max_sub (later earlier : OffsetDateTime) :
    i64OrMax (later - earlier).wholeMilliseconds = (later - earlier).wholeMilliseconds := by
  have hbounds := later.abs_whole_milliseconds_le earlier
  apply i64_or_max_eq <;> simp only [i64Min, i64Max] <;> omega

end Splitforge.Domain
