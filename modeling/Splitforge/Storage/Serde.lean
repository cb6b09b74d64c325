import Splitforge.Library.Sha256
import Splitforge.Storage.Sidecar

/-!
# The crates a line is encoded with

`sha2`'s SHA-256, and the compact JSON `serde_json` writes for a `SidecarRecord`, its fields in
the order they are declared. The reader takes the writer's own output and is strict about
everything else.
-/

namespace Splitforge.Storage

open Splitforge.Domain Splitforge.Library Splitforge.Library.Json

/-- A `u16`. -/
def u16 : Form UInt16 :=
  Json.nat.via UInt16.toNat (fun number => if number < 2 ^ 16 then some (.ofNat number) else none)
    fun value => by rw [if_pos value.toNat_lt, UInt16.ofNat_toNat]

/-- A `u64`. -/
def u64 : Form UInt64 :=
  Json.nat.via UInt64.toNat (fun number => if number < 2 ^ 64 then some (.ofNat number) else none)
    fun value => by rw [if_pos value.toNat_lt, UInt64.ofNat_toNat]

/-- An `i16`. -/
def i16 : Form Int16 :=
  Json.int.via Int16.toInt
    (fun number => if -2 ^ 15 ≤ number ∧ number < 2 ^ 15 then some (.ofInt number) else none)
    fun value => by rw [if_pos ⟨value.le_toInt, value.toInt_lt⟩, Int16.ofInt_toInt]

theorem i64_try_from_to_int (value : Int64) : i64TryFrom value.toInt = some value := by
  have hlower := value.le_toInt
  have hupper := value.toInt_lt
  rw [i64_try_from_eq (by simpa [i64Min] using hlower) (by simp only [i64Max]; omega),
    Int64.ofInt_toInt]

/-- An `i64`. -/
def i64 : Form Int64 :=
  Json.int.via Int64.toInt i64TryFrom i64_try_from_to_int

/-- No number is written like `null`. -/
theorem decimal_head (number : Nat) : (Json.decimal number).head? ≠ Json.null.head? := by
  obtain ⟨byte, rest, hdecimal⟩ := List.exists_cons_of_ne_nil (Json.decimal_ne_nil number)
  have hdigit := @Json.is_digit_of_mem_decimal number byte (by simp [hdecimal])
  rw [hdecimal, List.head?_cons, Json.null_eq, List.head?_cons]
  rintro ⟨⟩
  exact absurd hdigit (by decide)

theorem int_head (number : Int) : (Json.int.write number).head? ≠ Json.null.head? := by
  change (if number < 0 then Json.minus :: Json.decimal number.natAbs
    else Json.decimal number.natAbs).head? ≠ _
  split_ifs
  · rw [List.head?_cons, Json.null_eq]
    decide
  · exact decimal_head _

/-- A string is not written like `null`. -/
theorem string_head (text : String) : (Json.string.write text).head? ≠ Json.null.head? := by
  change (Json.quote :: _).head? ≠ _
  rw [List.head?_cons, Json.null_eq]
  decide

/-- The members of a record, in the order of its fields. -/
def members : Form SidecarRecord :=
  Form.via
    (pair (named "id" string) <| pair (named "source" string) <|
      pair (named "antenna" (optional u16 fun _ => decimal_head _)) <|
      pair (named "chip" string) <|
      pair (named "reader_timestamp_us" (optional i64 fun _ => int_head _)) <|
      pair (named "reader_uptime_us" (optional u64 fun _ => decimal_head _)) <|
      pair (named "received_at_us" i64) <|
      pair (named "received_at_monotonic_ns" (optional u64 fun _ => decimal_head _)) <|
      pair (named "rssi_dbm" (optional i16 fun _ => int_head _)) <|
      pair (named "device_clock_state" string) <| pair (named "timestamp_source" string) <|
      pair (named "timestamp_fallback_reason" (optional string string_head)) <|
      pair (named "clock_offset_ms" (optional i64 fun _ => int_head _)) <|
      pair (named "raw_payload_hex" string) (named "recorded_at_us" i64))
    (fun record => (record.id, record.source, record.antenna, record.chip,
      record.readerTimestampUs, record.readerUptimeUs, record.receivedAtUs,
      record.receivedAtMonotonicNs, record.rssiDbm, record.deviceClockState,
      record.timestampSource, record.timestampFallbackReason, record.clockOffsetMs,
      record.rawPayloadHex, record.recordedAtUs))
    (fun (id, source, antenna, chip, readerTimestampUs, readerUptimeUs, receivedAtUs,
        receivedAtMonotonicNs, rssiDbm, deviceClockState, timestampSource,
        timestampFallbackReason, clockOffsetMs, rawPayloadHex, recordedAtUs) =>
      some ⟨id, source, antenna, chip, readerTimestampUs, readerUptimeUs, receivedAtUs,
        receivedAtMonotonicNs, rssiDbm, deviceClockState, timestampSource,
        timestampFallbackReason, clockOffsetMs, rawPayloadHex, recordedAtUs⟩)
    fun _ => rfl

/-- SHA-256 and compact JSON. -/
def serde : Crates where
  sha256 := Sha256.digest
  toJson := writeObject members
  fromJson := readObject members
  length_sha256 := Sha256.length_digest
  from_json_to_json := read_object_write_object members
  to_json_valid record := (clean_write_object members record).valid
  to_json_newline record h :=
    absurd ((clean_write_object members record).noControl newline h) (by decide)
  to_json_opening record := by
    have hopening : Utf8.encode "\x7b\"id\":" = 0x7b :: label "id" := by decide
    rw [hopening]
    exact write_object_opening "id" string _ (record.id, _)
  from_json_scan _ _ h := scan_of_read_object h

end Splitforge.Storage
