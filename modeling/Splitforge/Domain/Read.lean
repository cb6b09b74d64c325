import Splitforge.Domain.Ids
import Splitforge.Domain.Time
import Mathlib.Data.UInt

/-!
# Raw reads

What a reader told the device, normalized. A read is evidence: it is written to the journal
before anything is concluded from it.
-/

namespace Splitforge.Domain

/-- The device clock's synchronization state when a read was received. -/
inductive DeviceClockState where
  | gpsLocked | rtc | ntpSynced | manual | unsynced
deriving DecidableEq

/-- `DeviceClockState::is_trustworthy`: whether times under this clock need no caveat. -/
def DeviceClockState.isTrustworthy : DeviceClockState → Bool
  | .gpsLocked | .rtc | .ntpSynced => true
  | .manual | .unsynced => false

/-- Why a read fell back to the device clock instead of the reader's timestamp. -/
inductive FallbackReason where
  | noReaderTimestamp | readerUptimeOnly | readerUntrusted | offsetExceededThreshold
deriving DecidableEq

/-- Which clock produced the authoritative timestamp for a read, and why. -/
inductive TimestampSource where
  | readerUtc
  | deviceReceipt (reason : FallbackReason)
deriving DecidableEq

/-- A single normalized read, exactly as reported. -/
@[ext]
structure RawRead where
  id : RawReadId
  source : ReaderId
  antenna : Option UInt16
  chip : ChipId
  readerTimestamp : Option OffsetDateTime
  readerUptimeUs : Option UInt64
  receivedAt : OffsetDateTime
  receivedAtMonotonicNs : Option UInt64
  rssiDbm : Option Int16
  deviceClockState : DeviceClockState
  timestampSource : TimestampSource
  clockOffsetMs : Option Int64
  rawPayload : List UInt8
deriving DecidableEq

/-- The timestamp that counts for timing purposes: the reader's when it is trusted and
present, and the receipt time otherwise. -/
def RawRead.authoritativeTimestamp (read : RawRead) : OffsetDateTime :=
  match read.timestampSource with
  | .readerUtc => read.readerTimestamp.getD read.receivedAt
  | .deviceReceipt _ => read.receivedAt

/-- A raw read as it exists in the journal, with the fields storage assigns. `seq` is the
insertion sequence, a total order independent of any clock. -/
@[ext]
structure StoredRawRead where
  seq : Nat
  recordedAt : OffsetDateTime
  payloadSha256 : String
  read : RawRead
deriving DecidableEq

end Splitforge.Domain
