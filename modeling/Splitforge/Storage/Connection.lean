import Splitforge.Domain.Time
import Mathlib.Data.UInt
import Mathlib.Data.List.Infix

/-!
# Errors and stored instants

The errors of the storage crate, and the conversion of instants to the whole microseconds that
the database and the sidecar hold. A stored instant is the floor of the original.
-/

namespace Splitforge.Storage

open Splitforge.Domain

/-- The errors storage reports on the paths modelled here. -/
inductive StorageError where
  | sqlite (text : String)
  | decode (text : String)
  | timestampOutOfRange
  | sidecar (text : String)
  | unstorable (text : String)
deriving DecidableEq

/-- The failures the journal's port reports. -/
inductive JournalError where
  | backend (text : String)
  | appendOnlyViolation (operation : String)
  | corrupt (text : String)
  | unstorable (text : String)
deriving DecidableEq

/-- The port's failure for a storage error. -/
def JournalError.ofStorageError : StorageError → JournalError
  | .decode text => .corrupt text
  | .unstorable text => .unstorable text
  | .sqlite text =>
      if "append-only".toList <:+: text.toList then .appendOnlyViolation text
      else .backend ("sqlite error: " ++ text)
  | .timestampOutOfRange => .backend "timestamp out of representable range"
  | .sidecar text => .backend ("sidecar journal: " ++ text)

/-- `i64::try_from` of a wider signed value. -/
def i64TryFrom (value : Int) : Option Int64 :=
  if i64Min ≤ value ∧ value ≤ i64Max then some (Int64.ofInt value) else none

/-- A value that fits `i64` is kept. -/
theorem i64_try_from_eq {value : Int} (hlower : i64Min ≤ value) (hupper : value ≤ i64Max) :
    i64TryFrom value = some (Int64.ofInt value) :=
  if_pos ⟨hlower, hupper⟩

theorem to_int_of_int {value : Int} (hlower : i64Min ≤ value) (hupper : value ≤ i64Max) :
    (Int64.ofInt value).toInt = value := by
  simp only [i64Min, i64Max] at hlower hupper
  exact Int64.toInt_ofInt_of_le hlower (by omega)

/-- `to_micros`: microseconds since the Unix epoch, rounded down. -/
def toMicros (value : OffsetDateTime) : Except StorageError Int64 :=
  match i64TryFrom (value.nanos / 1000) with
  | some micros => .ok micros
  | none => .error .timestampOutOfRange

/-- `from_micros`. -/
def fromMicros (micros : Int64) : Except StorageError OffsetDateTime :=
  match OffsetDateTime.fromUnixTimestampNanos (micros.toInt * 1000) with
  | some value => .ok value
  | none => .error .timestampOutOfRange

theorem min_nanos_le_whole_micros (value : OffsetDateTime) :
    minNanos ≤ value.nanos / 1000 * 1000 := by
  have hlower := value.lower
  simp only [minNanos] at hlower ⊢
  omega

theorem whole_micros_le_max_nanos (value : OffsetDateTime) :
    value.nanos / 1000 * 1000 ≤ maxNanos := by
  have hupper := value.upper
  simp only [maxNanos] at hupper ⊢
  omega

/-- The instant a stored instant comes back as. -/
def wholeMicros (value : OffsetDateTime) : OffsetDateTime :=
  ⟨value.nanos / 1000 * 1000, min_nanos_le_whole_micros value, whole_micros_le_max_nanos value⟩

/-- The first instant of 1970. -/
def epoch : OffsetDateTime := ⟨0, by decide, by decide⟩

/-- The microseconds of an instant. -/
def micros (value : OffsetDateTime) : Int64 := Int64.ofInt (value.nanos / 1000)

theorem micros_bounds (value : OffsetDateTime) :
    i64Min ≤ value.nanos / 1000 ∧ value.nanos / 1000 ≤ i64Max := by
  have hlower := value.lower
  have hupper := value.upper
  simp only [minNanos, maxNanos, i64Min, i64Max] at *
  omega

/-- Every instant has storable microseconds. -/
@[simp]
theorem to_micros_eq (value : OffsetDateTime) : toMicros value = .ok (micros value) := by
  rw [toMicros, i64_try_from_eq (micros_bounds value).1 (micros_bounds value).2, micros]

/-- Stored microseconds come back as the instant they are the floor of. -/
@[simp]
theorem from_micros_micros (value : OffsetDateTime) :
    fromMicros (micros value) = .ok (wholeMicros value) := by
  have hint : (micros value).toInt * 1000 = (wholeMicros value).nanos := by
    rw [micros, to_int_of_int (micros_bounds value).1 (micros_bounds value).2, wholeMicros]
  rw [fromMicros, OffsetDateTime.fromUnixTimestampNanos, hint,
    dif_pos ⟨(wholeMicros value).lower, (wholeMicros value).upper⟩]

/-- An instant that came from storage is stored as it is. -/
theorem whole_micros_of_from_micros {stored : Int64} {value : OffsetDateTime}
    (h : fromMicros stored = .ok value) : wholeMicros value = value := by
  rw [fromMicros, OffsetDateTime.fromUnixTimestampNanos] at h
  split_ifs at h
  cases h
  apply OffsetDateTime.ext
  simp only [wholeMicros]
  omega

/-- Storing a stored instant changes nothing. -/
@[simp]
theorem whole_micros_whole_micros (value : OffsetDateTime) :
    wholeMicros (wholeMicros value) = wholeMicros value := by
  apply OffsetDateTime.ext
  simp only [wholeMicros]
  omega

@[simp]
theorem micros_whole_micros (value : OffsetDateTime) :
    micros (wholeMicros value) = micros value := by
  simp only [micros, wholeMicros]
  congr 1
  omega

end Splitforge.Storage
