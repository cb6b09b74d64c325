import Splitforge.Domain.Race
import Splitforge.Domain.Result

/-!
# A race as it is loaded

The configuration of a race with what interpreting its reads does not need: the name of the event,
the readers as an operator entered them, and who recorded the starts and stops.
-/

namespace Splitforge.Domain

/-- How far a reader's own clock is trusted. -/
inductive TimestampTrust where
  | trusted | untrusted | auto
deriving DecidableEq

/-- `TimestampTrust::as_str`. -/
def TimestampTrust.asStr : TimestampTrust → String
  | .trusted => "trusted"
  | .untrusted => "untrusted"
  | .auto => "auto"

/-- A configured reader. -/
structure Reader where
  id : ReaderId
  label : String
  endpoint : Option String
  timestampTrust : TimestampTrust
deriving DecidableEq

/-- `SessionAction::as_str`. -/
def SessionAction.asStr : SessionAction → String
  | .start => "start"
  | .stop => "stop"

/-- A recorded start or stop, and who recorded it. -/
structure SessionRow where
  seq : Nat
  session : RaceSession
  actor : String
  note : Option String
  recordedAt : OffsetDateTime
deriving DecidableEq

/-- `RaceConfig::checkpoint_by_id`. -/
def RaceConfig.checkpointById (config : RaceConfig) (id : CheckpointId) : Option Checkpoint :=
  config.checkpoints.find? fun checkpoint => checkpoint.id = id

/-- A race as it is loaded. The starts and stops its reads are interpreted with are those that were
recorded. -/
structure EventConfig where
  event : String
  config : RaceConfig
  readers : List Reader
  startMode : StartMode
  sessions : List SessionRow
  recorded : config.sessions = sessions.map (·.session)

end Splitforge.Domain
