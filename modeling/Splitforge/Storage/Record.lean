import Splitforge.Domain.Read
import Splitforge.Library.Hex
import Splitforge.Storage.Connection

/-!
# Stored records of reads

The words and numbers a read is stored as, the check that a read can be stored, and the record
a sidecar line carries. A record of a storable read reads back as that read with its instants
in whole microseconds.
-/

namespace Splitforge.Storage

open Splitforge.Domain Splitforge.Library

/-- The stored word for a clock state. -/
def clockStateToStr : DeviceClockState → String
  | .gpsLocked => "gps_locked"
  | .rtc => "rtc"
  | .ntpSynced => "ntp_synced"
  | .manual => "manual"
  | .unsynced => "unsynced"

/-- The clock state a stored word stands for. -/
def clockStateFromStr (text : String) : Option DeviceClockState :=
  if text = "gps_locked" then some .gpsLocked
  else if text = "rtc" then some .rtc
  else if text = "ntp_synced" then some .ntpSynced
  else if text = "manual" then some .manual
  else if text = "unsynced" then some .unsynced
  else none

/-- The stored word for a fallback reason. -/
def fallbackToStr : FallbackReason → String
  | .noReaderTimestamp => "no_reader_timestamp"
  | .readerUptimeOnly => "reader_uptime_only"
  | .readerUntrusted => "reader_untrusted"
  | .offsetExceededThreshold => "offset_exceeded_threshold"

/-- The fallback reason a stored word stands for. -/
def fallbackFromStr (text : String) : Option FallbackReason :=
  if text = "no_reader_timestamp" then some .noReaderTimestamp
  else if text = "reader_uptime_only" then some .readerUptimeOnly
  else if text = "reader_untrusted" then some .readerUntrusted
  else if text = "offset_exceeded_threshold" then some .offsetExceededThreshold
  else none

@[simp]
theorem clock_state_from_str_to_str (state : DeviceClockState) :
    clockStateFromStr (clockStateToStr state) = some state := by
  cases state <;> decide

@[simp]
theorem fallback_from_str_to_str (reason : FallbackReason) :
    fallbackFromStr (fallbackToStr reason) = some reason := by
  cases reason <;> decide

/-- `hex_lower`. -/
def hexLower (bytes : List UInt8) : String := String.ofList (Hex.encode bytes)

/-- Whether an unsigned value fits the signed column it is stored in. -/
def fitsI64 (value : UInt64) : Bool := (i64TryFrom value.toNat).isSome

/-- The refusal of a read whose value does not fit its column. -/
def refuse (read : RawRead) (field why : String) : StorageError :=
  .unstorable ("read " ++ read.id.uuid.toText ++ ": " ++ field ++ " " ++ why)

/-- `storable`: whether every value in a read fits the column it is stored in. -/
def storable (read : RawRead) : Except StorageError Unit :=
  if read.readerTimestamp.any fun timestamp => !(toMicros timestamp).isOk then
    .error (refuse read "reader_timestamp" "is outside the storable range")
  else if !(toMicros read.receivedAt).isOk then
    .error (refuse read "received_at" "is outside the storable range")
  else if read.readerUptimeUs.any fun value => !fitsI64 value then
    .error (refuse read "reader_uptime_us" "exceeds i64::MAX")
  else if read.receivedAtMonotonicNs.any fun value => !fitsI64 value then
    .error (refuse read "received_at_monotonic_ns" "exceeds i64::MAX")
  else .ok ()

/-- A read as the database and the sidecar give it back: its instants are whole microseconds. -/
def asStored (read : RawRead) : RawRead :=
  { read with
    readerTimestamp := read.readerTimestamp.map wholeMicros
    receivedAt := wholeMicros read.receivedAt }

@[simp]
theorem as_stored_id (read : RawRead) : (asStored read).id = read.id := rfl

@[simp]
theorem as_stored_as_stored (read : RawRead) : asStored (asStored read) = asStored read := by
  simp [asStored, Function.comp_def]

/-- Every instant can be stored, so only the two unsigned counters can be too large. -/
theorem storable_iff {read : RawRead} :
    storable read = .ok () ↔
      read.readerUptimeUs.all fitsI64 = true ∧ read.receivedAtMonotonicNs.all fitsI64 = true := by
  cases huptime : read.readerUptimeUs <;> cases hmonotonic : read.receivedAtMonotonicNs <;>
    simp [storable, huptime, hmonotonic, Except.isOk, Except.toBool]
  split_ifs <;> simp_all

/-- A read and its stored form are storable together. -/
theorem storable_as_stored {read : RawRead} (h : storable read = .ok ()) :
    storable (asStored read) = .ok () := by
  rw [storable_iff] at h ⊢
  exact h

/-- One read as it was recovered from the sidecar. -/
@[ext]
structure SidecarRead where
  read : RawRead
  recordedAt : OffsetDateTime
deriving DecidableEq

/-- The on-disk shape of one line. Its field names are a contract with every build that reads
a file written by this one. -/
@[ext]
structure SidecarRecord where
  id : String
  source : String
  antenna : Option UInt16
  chip : String
  readerTimestampUs : Option Int64
  readerUptimeUs : Option UInt64
  receivedAtUs : Int64
  receivedAtMonotonicNs : Option UInt64
  rssiDbm : Option Int16
  deviceClockState : String
  timestampSource : String
  timestampFallbackReason : Option String
  clockOffsetMs : Option Int64
  rawPayloadHex : String
  recordedAtUs : Int64
deriving DecidableEq

/-- The stored words for a timestamp source. -/
def sourceToStr : TimestampSource → String × Option String
  | .readerUtc => ("reader_utc", none)
  | .deviceReceipt reason => ("device_receipt", some (fallbackToStr reason))

/-- The timestamp source some stored words stand for. -/
def sourceFromStr (source : String) (reason : Option String) : Option TimestampSource :=
  if source = "reader_utc" then some .readerUtc
  else if source = "device_receipt" then do
    let reason ← reason
    let reason ← fallbackFromStr reason
    pure (.deviceReceipt reason)
  else none

@[simp]
theorem source_from_str_to_str (source : TimestampSource) :
    sourceFromStr (sourceToStr source).1 (sourceToStr source).2 = some source := by
  cases source with
  | readerUtc => decide
  | deviceReceipt reason => cases reason <;> decide

/-- `SidecarRecord::of`. -/
def SidecarRecord.of (read : RawRead) (recordedAt : OffsetDateTime) :
    Except StorageError SidecarRecord := do
  let (sourceText, fallbackText) := sourceToStr read.timestampSource
  let readerTimestampUs ← read.readerTimestamp.mapM toMicros
  let receivedAtUs ← toMicros read.receivedAt
  let recordedAtUs ← toMicros recordedAt
  pure {
    id := read.id.uuid.toText
    source := read.source.text
    antenna := read.antenna
    chip := read.chip.text
    readerTimestampUs
    readerUptimeUs := read.readerUptimeUs
    receivedAtUs
    receivedAtMonotonicNs := read.receivedAtMonotonicNs
    rssiDbm := read.rssiDbm
    deviceClockState := clockStateToStr read.deviceClockState
    timestampSource := sourceText
    timestampFallbackReason := fallbackText
    clockOffsetMs := read.clockOffsetMs
    rawPayloadHex := hexLower read.rawPayload
    recordedAtUs }

/-- `SidecarRecord::into_read`. The texts of its errors are dropped by the only caller's
caller, so they are not kept. -/
def SidecarRecord.intoRead (record : SidecarRecord) : Option SidecarRead := do
  let uuid ← Uuid.parseStr record.id
  let timestampSource ← sourceFromStr record.timestampSource record.timestampFallbackReason
  let recordedAt ← (fromMicros record.recordedAtUs).toOption
  let readerTimestamp ← record.readerTimestampUs.mapM fun us => (fromMicros us).toOption
  let receivedAt ← (fromMicros record.receivedAtUs).toOption
  let deviceClockState ← clockStateFromStr record.deviceClockState
  let rawPayload ← Hex.decode record.rawPayloadHex.toList
  let recovered : SidecarRead := {
    recordedAt
    read := {
      id := ⟨uuid⟩
      source := ⟨record.source⟩
      antenna := record.antenna
      chip := ⟨record.chip⟩
      readerTimestamp
      readerUptimeUs := record.readerUptimeUs
      receivedAt
      receivedAtMonotonicNs := record.receivedAtMonotonicNs
      rssiDbm := record.rssiDbm
      deviceClockState
      timestampSource
      clockOffsetMs := record.clockOffsetMs
      rawPayload } }
  let _ ← (storable recovered.read).toOption
  pure recovered

/-- The record of a read. -/
def recordOf (read : RawRead) (recordedAt : OffsetDateTime) : SidecarRecord where
  id := read.id.uuid.toText
  source := read.source.text
  antenna := read.antenna
  chip := read.chip.text
  readerTimestampUs := read.readerTimestamp.map micros
  readerUptimeUs := read.readerUptimeUs
  receivedAtUs := micros read.receivedAt
  receivedAtMonotonicNs := read.receivedAtMonotonicNs
  rssiDbm := read.rssiDbm
  deviceClockState := clockStateToStr read.deviceClockState
  timestampSource := (sourceToStr read.timestampSource).1
  timestampFallbackReason := (sourceToStr read.timestampSource).2
  clockOffsetMs := read.clockOffsetMs
  rawPayloadHex := hexLower read.rawPayload
  recordedAtUs := micros recordedAt

/-- Every read has a record. -/
theorem sidecar_record_of_eq (read : RawRead) (recordedAt : OffsetDateTime) :
    SidecarRecord.of read recordedAt = .ok (recordOf read recordedAt) := by
  cases htimestamp : read.readerTimestamp <;>
    simp [SidecarRecord.of, recordOf, htimestamp] <;> rfl

/-- A storable read comes back from its record. -/
theorem into_read_record_of {read : RawRead} {recordedAt : OffsetDateTime}
    (h : storable read = .ok ()) :
    (recordOf read recordedAt).intoRead = some ⟨asStored read, wholeMicros recordedAt⟩ := by
  have hstorable := storable_as_stored h
  cases htimestamp : read.readerTimestamp <;>
    simp_all [SidecarRecord.intoRead, recordOf, asStored, hexLower, Except.toOption]

/-- What a converted value that is present came from. -/
theorem eq_ok_of_to_option {value : Except StorageError OffsetDateTime} {result : OffsetDateTime}
    (h : value.toOption = some result) : value = .ok result := by
  cases value with
  | error error => cases h
  | ok other => cases h; rfl

/-- What comes back from a record is storable, and is stored as it is. -/
theorem into_read_eq_some {record : SidecarRecord} {recovered : SidecarRead}
    (h : record.intoRead = some recovered) :
    storable recovered.read = .ok () ∧ asStored recovered.read = recovered.read ∧
      wholeMicros recovered.recordedAt = recovered.recordedAt := by
  simp only [SidecarRecord.intoRead, Option.bind_eq_bind, Option.bind_eq_some_iff] at h
  obtain ⟨_, _, _, _, recordedAt, hrecorded, reader, hreader, receivedAt, hreceived, _, _, _, _, _,
    hstorable, hrecovered⟩ := h
  cases hrecovered
  refine ⟨?_, ?_, whole_micros_of_from_micros (eq_ok_of_to_option hrecorded)⟩
  · cases hresult : storable _ with
    | ok _ => rfl
    | error _ => rw [hresult] at hstorable; cases hstorable
  · have hwhole : reader.map wholeMicros = reader := by
      cases hstored : record.readerTimestampUs with
      | none =>
          rw [hstored] at hreader
          cases hreader
          rfl
      | some stored =>
          rw [hstored] at hreader
          obtain ⟨value, hvalue, heq⟩ := Option.map_eq_some_iff.mp hreader
          rw [← heq, Option.map_some,
            whole_micros_of_from_micros (eq_ok_of_to_option hvalue)]
    rw [asStored, hwhole, whole_micros_of_from_micros (eq_ok_of_to_option hreceived)]

end Splitforge.Storage
