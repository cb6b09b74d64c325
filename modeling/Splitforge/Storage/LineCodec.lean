import Splitforge.Storage.Serde
import Splitforge.Storage.SidecarLines

/-!
# Reads and their lines

A storable read whose instants are whole microseconds has a line, and the line gives the read back
as it was. Every line that parses, whoever wrote it, gives such a read.
-/

namespace Splitforge.Storage

open Splitforge.Domain Splitforge.Library

/-- An instant is a whole number of microseconds. -/
def InWholeMicros (value : OffsetDateTime) : Prop := (1000 : Int) ∣ value.nanos

theorem whole_micros_eq_self_iff {value : OffsetDateTime} :
    wholeMicros value = value ↔ InWholeMicros value := by
  rw [OffsetDateTime.ext_iff, InWholeMicros]
  show value.nanos / 1000 * 1000 = value.nanos ↔ _
  omega

/-- The instants of a read are whole microseconds. -/
def ReadInWholeMicros (read : RawRead) : Prop :=
  (∀ timestamp ∈ read.readerTimestamp, InWholeMicros timestamp) ∧ InWholeMicros read.receivedAt

theorem as_stored_eq_self_iff {read : RawRead} : asStored read = read ↔ ReadInWholeMicros read := by
  have hreader : read.readerTimestamp.map wholeMicros = read.readerTimestamp ↔
      ∀ timestamp ∈ read.readerTimestamp, InWholeMicros timestamp := by
    cases read.readerTimestamp with
    | none => simp
    | some timestamp => simp [whole_micros_eq_self_iff]
  rw [ReadInWholeMicros, ← hreader, ← whole_micros_eq_self_iff]
  constructor
  · intro h
    exact ⟨congrArg RawRead.readerTimestamp h, congrArg RawRead.receivedAt h⟩
  · intro h
    rw [asStored, h.1, h.2]

/-- A read and an instant have a line, and the line parses as them. -/
def ReadsBack (crates : Crates) (read : RawRead) (recordedAt : OffsetDateTime) : Prop :=
  ∃ record, SidecarRecord.of read recordedAt = .ok record ∧
    newline ∉ encodeLine crates record ∧
    parseLine crates (encodeLine crates record) = some ⟨read, recordedAt⟩

theorem reads_back_of_storable (crates : Crates) {read : RawRead} {recordedAt : OffsetDateTime}
    (hstorable : storable read = .ok ()) (hread : asStored read = read)
    (hrecorded : wholeMicros recordedAt = recordedAt) : ReadsBack crates read recordedAt := by
  refine ⟨_, sidecar_record_of_eq read recordedAt, newline_notMem_encode_line _, ?_⟩
  rw [parse_line_encode_line, into_read_record_of hstorable, hread, hrecorded]

/-- A storable read in whole microseconds comes back from its line, and what comes from any line is
a storable read that comes back from its own. -/
theorem line_codec_round_trip (crates : Crates) :
    (∀ read recordedAt, storable read = .ok () → ReadInWholeMicros read →
      InWholeMicros recordedAt → ReadsBack crates read recordedAt) ∧
    ∀ line recovered, parseLine crates line = some recovered →
      storable recovered.read = .ok () ∧
        ReadsBack crates recovered.read recovered.recordedAt := by
  constructor
  · intro read recordedAt hstorable hread hrecorded
    exact reads_back_of_storable crates hstorable (as_stored_eq_self_iff.mpr hread)
      (whole_micros_eq_self_iff.mpr hrecorded)
  · intro line recovered hline
    obtain ⟨json, record, -, -, hread⟩ := parse_line_eq_some hline
    obtain ⟨hstorable, hstored, hwhole⟩ := into_read_eq_some hread
    exact ⟨hstorable, reads_back_of_storable crates hstorable hstored hwhole⟩

/-- A read with a reader's time, a payload and a name outside ASCII. -/
def gateRead : RawRead where
  id := ⟨Uuid.fromU128 217⟩
  source := ⟨"Start\n – Süd \"A\""⟩
  antenna := some 2
  chip := ⟨"E28011"⟩
  readerTimestamp := some (second 3)
  readerUptimeUs := none
  receivedAt := second 4
  receivedAtMonotonicNs := some 9876543210
  rssiDbm := some (-60)
  deviceClockState := .ntpSynced
  timestampSource := .deviceReceipt .offsetExceededThreshold
  clockOffsetMs := some (-1000)
  rawPayload := [0, 10, 255]

/-- Such a read comes back. -/
theorem line_codec_gate_read : ReadsBack serde gateRead (second 5) := by
  refine (line_codec_round_trip serde).1 gateRead (second 5) (storable_iff.mpr ⟨rfl, rfl⟩)
    ⟨?_, ?_⟩ ?_
  · intro timestamp htimestamp
    cases htimestamp
    exact ⟨3000000, rfl⟩
  · exact ⟨4000000, rfl⟩
  · exact ⟨5000000, rfl⟩

end Splitforge.Storage
