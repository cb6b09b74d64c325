import Splitforge.Domain.Derived

/-!
# Results

How a participant's race ended, what operators declared about it, the rules it is scored under,
and the line scoring concludes.
-/

namespace Splitforge.Domain

/-- How a participant's race ended. -/
inductive ResultStatus where
  | finished | dns | dnf | dq
deriving DecidableEq

/-- The place of a status in the derived order. -/
def ResultStatus.rank : ResultStatus → Nat
  | .finished => 0
  | .dns => 1
  | .dnf => 2
  | .dq => 3

instance : LinearOrder ResultStatus :=
  LinearOrder.lift' ResultStatus.rank fun first second h => by
    cases first <;> cases second <;> first | rfl | cases h

/-- `ResultStatus::is_placed`: whether this status competes for a place. -/
def ResultStatus.isPlaced : ResultStatus → Bool
  | .finished => true
  | _ => false

/-- Which clock a participant's time is measured from. -/
inductive StartMode where
  | gun | chip
deriving DecidableEq

/-- An operator declaring how a participant's race ended. The one with the highest sequence for a
participant is in force. -/
structure StatusDeclaration where
  id : StatusDeclarationId
  seq : Nat
  race : RaceId
  participant : ParticipantId
  status : ResultStatus
  reason : String
  actor : String
  declaredAt : OffsetDateTime
deriving DecidableEq

/-- The rules a race is scored under. -/
structure ScoringPolicy where
  startMode : StartMode
  timing : TimingPolicy
  gunTime : Option OffsetDateTime

/-- A condition that made a result less than straightforward. -/
inductive ResultFlag where
  | noStartReadUnderChipTime
  | noGunTime
  | finishBeforeStart
  | declaredFinishedWithoutFinishRead
  | startReadBeforeGun
  | finishReadBeforeGun
  | manualStart
  | manualFinish
  | manualStartOverChip
  | manualFinishOverChip
  | untrustedDeviceClock
  | clockStepDuringResult
deriving DecidableEq

/-- Where a participant's status came from. -/
inductive StatusSource where
  | derived | declared
deriving DecidableEq

/-- One participant's line in the results. -/
structure ResultEntry where
  participant : ParticipantId
  bib : Bib
  name : String
  status : ResultStatus
  statusSource : StatusSource
  statusReason : Option String
  startAt : Option OffsetDateTime
  finishAt : Option OffsetDateTime
  gunTimeMs : Option Int
  chipTimeMs : Option Int
  scoringTimeMs : Option Int
  place : Option Nat
  flags : List ResultFlag
  timingEvents : List TimingEventId
deriving DecidableEq

end Splitforge.Domain
