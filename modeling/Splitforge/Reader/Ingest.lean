import Splitforge.Domain.Clock
import Splitforge.Domain.Event
import Splitforge.Thingmagic.TagReport

/-!
# From messages to evidence

What the device makes of a reader's message before anything is concluded from it. The reader's
clock is believed as far as the operator trusts it, and why it was or was not is written down.
-/

namespace Splitforge.Reader

open Splitforge.Domain Splitforge.Thingmagic

/-- `DEFAULT_MAX_OFFSET_MS`. -/
def defaultMaxOffsetMs : Int := 5000

/-- How messages become evidence. -/
structure Ingest where
  trust : TimestampTrust
  maxOffsetMs : Int

/-- What a message says about the time: an instant and how far the device was ahead of it, an
uptime, or nothing. -/
def claimed (timestamp : ReaderTimestamp) (receivedAt : OffsetDateTime) :
    Option OffsetDateTime × Option UInt64 × Option Int64 :=
  match timestamp with
  | .utc at' => (some at', none, some (.ofInt (i64OrMax (receivedAt - at').wholeMilliseconds)))
  | .uptime micros => (none, some micros, none)
  | .absent => (none, none, none)

/-- Which clock is authoritative, and why. -/
def Ingest.source (ingest : Ingest) (readerTimestamp : Option OffsetDateTime)
    (readerUptimeUs : Option UInt64) (clockOffsetMs : Option Int64) : TimestampSource :=
  match readerTimestamp, readerUptimeUs with
  | some _, _ =>
      match ingest.trust with
      | .trusted => .readerUtc
      | .untrusted => .deviceReceipt .readerUntrusted
      | .auto =>
          if clockOffsetMs.any fun ms => magnitude ms.toInt ≤ ingest.maxOffsetMs then .readerUtc
          else .deviceReceipt .offsetExceededThreshold
  | none, some _ => .deviceReceipt .readerUptimeOnly
  | none, none => .deviceReceipt .noReaderTimestamp

/-- `Ingest::normalize`. The identifier is minted here. -/
def Ingest.normalize (ingest : Ingest) (id : RawReadId) (message : ReaderMessage)
    (receivedAt : OffsetDateTime) (monotonicNs : Option UInt64)
    (deviceClockState : DeviceClockState) : RawRead :=
  let (readerTimestamp, readerUptimeUs, clockOffsetMs) := claimed message.timestamp receivedAt
  { id
    source := message.source
    antenna := message.antenna
    chip := message.chip
    readerTimestamp
    readerUptimeUs
    receivedAt
    receivedAtMonotonicNs := monotonicNs
    rssiDbm := message.rssiDbm
    deviceClockState
    timestampSource := ingest.source readerTimestamp readerUptimeUs clockOffsetMs
    clockOffsetMs
    rawPayload := message.rawPayload }

/-- Whether a reader's instant is believed. -/
def Ingest.Believes (ingest : Ingest) (at' receivedAt : OffsetDateTime) : Prop :=
  ingest.trust = .trusted ∨
    ingest.trust = .auto ∧ magnitude (receivedAt - at').wholeMilliseconds ≤ ingest.maxOffsetMs

/-- A message that claims an instant is timed by it when the reader is believed, and otherwise by
the receipt. -/
theorem authoritative_normalize (ingest : Ingest) (id : RawReadId) {message : ReaderMessage}
    {at' receivedAt : OffsetDateTime} (htime : message.timestamp = .utc at')
    (monotonicNs : Option UInt64) (state : DeviceClockState) :
    (ingest.Believes at' receivedAt →
      (ingest.normalize id message receivedAt monotonicNs state).authoritativeTimestamp = at') ∧
    (¬ ingest.Believes at' receivedAt →
      (ingest.normalize id message receivedAt monotonicNs state).authoritativeTimestamp =
        receivedAt) := by
  have hoffset : (Int64.ofInt (i64OrMax (receivedAt - at').wholeMilliseconds)).toInt =
      (receivedAt - at').wholeMilliseconds := by
    have hbounds := receivedAt.abs_whole_milliseconds_le at'
    rw [OffsetDateTime.i64_or_max_sub]
    exact Int64.toInt_ofInt_of_le (by omega) (by omega)
  simp only [Ingest.normalize, claimed, htime, Ingest.source, RawRead.authoritativeTimestamp,
    Ingest.Believes, Option.any_some, hoffset, decide_eq_true_eq]
  cases ingest.trust with
  | trusted => simp
  | untrusted => simp
  | auto =>
      by_cases hwithin : magnitude (receivedAt - at').wholeMilliseconds ≤ ingest.maxOffsetMs
      · simp [hwithin]
      · simp [hwithin]

end Splitforge.Reader
