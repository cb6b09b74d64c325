import Splitforge.Domain.Read

/-!
# Gaps

A gap is a stretch in which a reader was not producing. It is derived from the two edges that
bound it, and a check decides what its next tick does from what it knows about the reader.
-/

namespace Splitforge.Domain

/-- Why there is no connection. -/
inductive Disconnection where
  | notOpened
  | ended
  | notStarted
deriving DecidableEq

/-- What is written beside the gap a disconnection opens. -/
def Disconnection.detail : Disconnection → String
  | .notOpened => "the reader's port could not be opened"
  | .ended => "the connection to the reader ended"
  | .notStarted => "the reader did not start reading when told to"

/-- How a gap came to be noticed: the transport said so, or the stream went quiet. -/
inductive GapDetection where
  | confirmed
  | suspected
deriving DecidableEq

/-- Which end of a gap an event records. -/
inductive GapEdge where
  | opened
  | closed
deriving DecidableEq

/-- A gap, assembled from its edges. -/
structure ReaderGap where
  openedSeq : Nat
  closedSeq : Option Nat
  readerId : ReaderId
  detection : GapDetection
  startedAt : OffsetDateTime
  endedAt : Option OffsetDateTime
  startedMonotonicMs : Nat
  endedMonotonicMs : Option Nat
  detail : Option String
deriving DecidableEq

/-- Whether a gap has no end yet. -/
def ReaderGap.isOpen (gap : ReaderGap) : Bool := gap.closedSeq.isNone

/-- What the silence watchdog does on a tick. -/
inductive SilenceVerdict where
  | idle
  | «open»
  | close
deriving DecidableEq

/-- `assess_silence`: a threshold of zero switches the check off, and silence means nothing
while no race is running. -/
def assessSilence (thresholdMs : Nat) (raceRunning : Bool) (silentForMs : Nat) : SilenceVerdict :=
  if thresholdMs = 0 ∨ raceRunning = false then .idle
  else if thresholdMs ≤ silentForMs then .open
  else .close

/-- What the heartbeat check does on a tick. -/
inductive HeartbeatVerdict where
  | idle
  | «open»
  | close
deriving DecidableEq

/-- `assess_heartbeat`: the check is not armed until the reader has been heard, and closes only a
gap it opened. -/
def assessHeartbeat (thresholdMs : Nat) (heard : Bool) (quietForMs : Nat) (isOpen : Bool) :
    HeartbeatVerdict :=
  if thresholdMs = 0 ∨ heard = false then
    if isOpen then .close else .idle
  else if thresholdMs ≤ quietForMs then .open
  else if isOpen then .close
  else .idle

end Splitforge.Domain
