import Splitforge.Library.Fallible
import Splitforge.Storage.ResultText
import Splitforge.Storage.Serde

/-!
# Raw reads as an operator sees them

The view of a stored read and its compact JSON. An instant is written where RFC 3339 can write it,
so a read of a year beyond 9999 has no text. The text of any other read is one line, and the view
is read back from it.
-/

namespace Splitforge.Cli

open Splitforge.Domain Splitforge.Library Splitforge.Library.Json
open Splitforge.Storage hiding members
open Splitforge.Storage.Results

/-- A raw read, as an operator wants to see it. -/
structure RawReadView where
  seq : Nat
  id : RawReadId
  source : ReaderId
  antenna : Option UInt16
  chip : ChipId
  «at» : OffsetDateTime
  timestampSource : TimestampSource
  readerTimestamp : Option OffsetDateTime
  receivedAt : OffsetDateTime
  clockOffsetMs : Option Int64
  deviceClockState : DeviceClockState
  rssiDbm : Option Int16
  payloadBytes : Nat
  payloadSha256 : String
  recordedAt : OffsetDateTime

/-- `RawReadView::of`. -/
def RawReadView.of (stored : StoredRawRead) : RawReadView where
  seq := stored.seq
  id := stored.read.id
  source := stored.read.source
  antenna := stored.read.antenna
  chip := stored.read.chip
  «at» := stored.read.authoritativeTimestamp
  timestampSource := stored.read.timestampSource
  readerTimestamp := stored.read.readerTimestamp
  receivedAt := stored.read.receivedAt
  clockOffsetMs := stored.read.clockOffsetMs
  deviceClockState := stored.read.deviceClockState
  rssiDbm := stored.read.rssiDbm
  payloadBytes := stored.read.rawPayload.length
  payloadSha256 := stored.payloadSha256
  recordedAt := stored.recordedAt

/-! ## The values of its members -/

/-- The members of a timestamp source: its tag, and the reason of the one that has one. -/
def writeSource : TimestampSource → List UInt8
  | .readerUtc => writeObject (named "kind" string) "reader_utc"
  | .deviceReceipt reason =>
      writeObject (pair (named "kind" string) (named "reason" string))
        ("device_receipt", fallbackToStr reason)

/-- Reads a timestamp source by its tag. -/
def readSource (text : List UInt8) : Option (TimestampSource × List UInt8) := do
  let text ← strip [0x7b] text
  let (tag, text) ← (named "kind" string).read text
  match tag with
  | "reader_utc" => (strip [0x7d] text).map fun text => (.readerUtc, text)
  | "device_receipt" => do
      let text ← strip [comma] text
      let (reason, text) ← (named "reason" string).read text
      let reason ← fallbackFromStr reason
      let text ← strip [0x7d] text
      pure (.deviceReceipt reason, text)
  | _ => none

theorem read_source_write_source (source : TimestampSource) (rest : List UInt8) :
    readSource (writeSource source ++ rest) = some (source, rest) := by
  have htag := fun (tag : String) (stop : UInt8) (rest : List UInt8) (hstop : IsStop stop) =>
    (named "kind" string).read_write tag stop rest hstop
  cases source with
  | readerUtc =>
      simp [writeSource, readSource, writeObject, strip, htag _ 0x7d _ (Or.inr rfl)]
  | deviceReceipt reason =>
      have hreason :=
        (named "reason" string).read_write (fallbackToStr reason) 0x7d rest (Or.inr rfl)
      simp [writeSource, readSource, writeObject, pair, strip, htag _ 0x2c _ (Or.inl rfl), hreason,
        comma]

/-- A timestamp source. -/
def sourceBlock : Block TimestampSource :=
  .of writeSource readSource read_source_write_source fun source => by
    cases source with
    | readerUtc => exact clean_write_object _ _
    | deviceReceipt reason => exact clean_write_object _ _

/-- A name: its text. -/
def nameBlock (kind : NameKind) : Block (Name kind) :=
  stringBlock.via Name.text (fun text => some ⟨text⟩) fun _ => rfl

/-- A clock state: its word. -/
def clockStateBlock : Block DeviceClockState :=
  stringBlock.via clockStateToStr clockStateFromStr clock_state_from_str_to_str

/-! ## The text of a view -/

/-- The members of a view as they are written, its instants as text. -/
abbrev Written := Nat × RawReadId × ReaderId × Option UInt16 × ChipId × String × TimestampSource ×
  Option String × String × Option Int64 × DeviceClockState × Option Int16 × Nat × String × String

theorem u16_head (value : UInt16) : (u16.write value).head? ≠ null.head? := decimal_head _

theorem i64_head (value : Int64) : (i64.write value).head? ≠ null.head? := int_head _

theorem i16_head (value : Int16) : (i16.write value).head? ≠ null.head? := int_head _

/-- The members of a view, in the order of its fields. -/
def viewMembers : Form Written :=
  pair (named "seq" nat) <| pair (named "id" (idBlock .rawRead).form) <|
  pair (named "source" (nameBlock .reader).form) <|
  pair (named "antenna" (optional u16 u16_head)) <|
  pair (named "chip" (nameBlock .chip).form) <| pair (named "at" string) <|
  pair (named "timestamp_source" sourceBlock.form) <|
  pair (named "reader_timestamp" (optional string string_head)) <|
  pair (named "received_at" string) <|
  pair (named "clock_offset_ms" (optional i64 i64_head)) <|
  pair (named "device_clock_state" clockStateBlock.form) <|
  pair (named "rssi_dbm" (optional i16 i16_head)) <|
  pair (named "payload_bytes" nat) <| pair (named "payload_sha256" string)
    (named "recorded_at" string)

/-- `time::serde::rfc3339` of an instant of the journal, which is in UTC. -/
def writeInstant (at' : OffsetDateTime) : Except String String := writeGun 0 at'

/-- A view's members, where its instants can be written. -/
def RawReadView.written (view : RawReadView) : Except String Written := do
  let at' ← writeInstant view.at
  let readerTimestamp ← view.readerTimestamp.mapM writeInstant
  let receivedAt ← writeInstant view.receivedAt
  let recordedAt ← writeInstant view.recordedAt
  pure (view.seq, view.id, view.source, view.antenna, view.chip, at', view.timestampSource,
    readerTimestamp, receivedAt, view.clockOffsetMs, view.deviceClockState, view.rssiDbm,
    view.payloadBytes, view.payloadSha256, recordedAt)

/-- `serde_json::to_string` of a view. -/
def RawReadView.toJson (view : RawReadView) : Except String (List UInt8) :=
  view.written.map (writeObject viewMembers)

/-- The view of its members. -/
def RawReadView.ofWritten : Written → Option RawReadView
  | (seq, id, source, antenna, chip, at', timestampSource, readerTimestamp, receivedAt,
      clockOffsetMs, deviceClockState, rssiDbm, payloadBytes, payloadSha256, recordedAt) => do
    let at' ← readGun at'
    let readerTimestamp ← readerTimestamp.mapM readGun
    let receivedAt ← readGun receivedAt
    let recordedAt ← readGun recordedAt
    pure ⟨seq, id, source, antenna, chip, at', timestampSource, readerTimestamp, receivedAt,
      clockOffsetMs, deviceClockState, rssiDbm, payloadBytes, payloadSha256, recordedAt⟩

/-- The view a line of JSON is of. -/
def readView (text : List UInt8) : Option RawReadView :=
  (readObject viewMembers text).bind RawReadView.ofWritten

/-- An optional instant is read back. -/
theorem map_m_read_gun {at' : Option OffsetDateTime} {text : Option String}
    (h : at'.mapM writeInstant = .ok text) : text.mapM readGun = some at' := by
  cases at' with
  | none =>
      injection h with h
      rw [← h]
      rfl
  | some at' =>
      rw [Option.mapM_some] at h
      cases hwrite : writeInstant at' with
      | error error =>
          rw [hwrite] at h
          cases h
      | ok text' =>
          rw [hwrite] at h
          injection h with h
          rw [← h, Option.mapM_some, read_gun_write_gun hwrite]
          rfl

/-- A view is read back from its members. -/
theorem of_written_written {view : RawReadView} {written : Written}
    (h : view.written = .ok written) : RawReadView.ofWritten written = some view := by
  rw [RawReadView.written] at h
  obtain ⟨at', hat, h⟩ := exists_of_bind h
  obtain ⟨readerTimestamp, hreader, h⟩ := exists_of_bind h
  obtain ⟨receivedAt, hreceived, h⟩ := exists_of_bind h
  obtain ⟨recordedAt, hrecorded, h⟩ := exists_of_bind h
  cases h
  have hread := fun {at' : OffsetDateTime} {text : String} (h : writeInstant at' = .ok text) =>
    read_gun_write_gun h
  rw [RawReadView.ofWritten, hread hat, map_m_read_gun hreader, hread hreceived, hread hrecorded]
  rfl

/-- A view is read back from its text, which is one line. -/
theorem read_view_to_json {view : RawReadView} {text : List UInt8} (h : view.toJson = .ok text) :
    readView text = some view ∧ newline ∉ text := by
  rw [RawReadView.toJson] at h
  cases hwritten : view.written with
  | error error =>
      rw [hwritten] at h
      cases h
  | ok written =>
      rw [hwritten] at h
      injection h with h
      subst h
      refine ⟨?_, fun hmem => ?_⟩
      · rw [readView, read_object_write_object, Option.bind_some, of_written_written hwritten]
      · exact absurd ((clean_write_object viewMembers written).noControl newline hmem) (by decide)

end Splitforge.Cli
