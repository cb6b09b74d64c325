import Splitforge.Domain.Event
import Splitforge.Library.Runs
import Splitforge.Library.Saves
import Splitforge.Storage.Antennas
import Splitforge.Storage.Assignments
import Splitforge.Storage.Results

/-!
# The configuration store

Everything an operator sets up before a race: the event, its races, their checkpoints and rosters,
who wears which chip, the readers and what they cover, the rules and the starts and stops. Nothing
here mints an identifier. What is saved under one that is there amends its row, and what a row is
filed under stays: a race stays with its event, a checkpoint with its race, a bib with its
participant. An identifier is kept as itself; its column holds its text, which reads back as it.
-/

namespace Splitforge.Domain

open Std (ExtTreeMap)

/-- `EventId`. -/
structure EventId where
  uuid : Uuid
deriving DecidableEq

/-- A race, with the event it belongs to. -/
structure EventRace extends Race where
  event : EventId
deriving DecidableEq

/-- `TimestampTrust::parse`. -/
def TimestampTrust.parse (value : String) : Except String TimestampTrust :=
  match lowercased value with
  | "trusted" => .ok .trusted
  | "untrusted" => .ok .untrusted
  | "auto" => .ok .auto
  | _ => .error "expected one of: trusted, untrusted, auto"

/-- `StartMode::parse`. -/
def StartMode.parse (value : String) : Except String StartMode :=
  match lowercased value with
  | "gun" => .ok .gun
  | "chip" => .ok .chip
  | _ => .error "expected one of: gun, chip"

/-- `SessionAction::parse`. -/
def SessionAction.parse (value : String) : Except String SessionAction :=
  match lowercased value with
  | "start" => .ok .start
  | "stop" => .ok .stop
  | _ => .error "expected one of: start, stop"

@[simp]
theorem timestamp_trust_parse_as_str (trust : TimestampTrust) :
    TimestampTrust.parse trust.asStr = .ok trust := by
  cases trust with
  | trusted => rfl
  | untrusted => rfl
  | auto => rfl

@[simp]
theorem start_mode_parse_as_str (mode : StartMode) : StartMode.parse mode.asStr = .ok mode := by
  cases mode with
  | gun => rfl
  | chip => rfl

@[simp]
theorem session_action_parse_as_str (action : SessionAction) :
    SessionAction.parse action.asStr = .ok action := by
  cases action with
  | start => rfl
  | stop => rfl

/-- `TimingPolicy::default`. -/
def TimingPolicy.default : TimingPolicy := ⟨3000, .first, none, ∅⟩

end Splitforge.Domain

namespace Splitforge.Storage.Config

open Splitforge.Domain Splitforge.Library
open Splitforge.Library.Json (readText writeText)
open Splitforge.Storage.Results (PolicyFits Texts TimingRecord orDecode orExpected timingBlock
  timingRecord)

/-- A race day, which may contain several races. -/
structure Event where
  id : EventId
  name : String
deriving DecidableEq

/-! ## Rows -/

/-- A row of `events`. -/
structure EventRow where
  id : EventId
  name : String
  createdAtUs : Int64
deriving DecidableEq

/-- A row of `races`. -/
structure RaceRow where
  id : RaceId
  event : EventId
  name : String
  scheduledStartUs : Option Int64
  expectedLaps : Int64
  createdAtUs : Int64
deriving DecidableEq

/-- A row of `checkpoints`. -/
structure CheckpointRow where
  id : CheckpointId
  race : RaceId
  name : String
  kind : String
  sequence : Int64
deriving DecidableEq

/-- A row of `readers`. -/
structure ReaderRow where
  id : ReaderId
  label : String
  endpoint : Option String
  timestampTrust : String
  createdAtUs : Int64
deriving DecidableEq

/-- A row of `timing_policies`. -/
structure PolicyRow where
  race : RaceId
  policyJson : String
  updatedAtUs : Int64
  startMode : String
deriving DecidableEq

/-- A row of `race_sessions`. -/
structure StoredSession where
  seq : Nat
  race : RaceId
  action : String
  atUs : Int64
  actor : String
  note : Option String
  recordedAtUs : Int64
deriving DecidableEq

/-! ## Upserts -/

/-- `save_event` on a row that is there. -/
def eventSaves : Saves EventRow EventRow EventId where
  keyOf := (·.id)
  key := (·.id)
  fresh := id
  amend := fun row excluded => { row with name := excluded.name }
  key_fresh := fun _ => rfl
  key_amend := fun _ _ h => h

/-- `save_race` on a row that is there, which stays with its event. -/
def raceSaves : Saves RaceRow RaceRow RaceId where
  keyOf := (·.id)
  key := (·.id)
  fresh := id
  amend := fun row excluded => {
    row with
    name := excluded.name
    scheduledStartUs := excluded.scheduledStartUs
    expectedLaps := excluded.expectedLaps }
  key_fresh := fun _ => rfl
  key_amend := fun _ _ h => h

/-- `save_checkpoint` on a row that is there, which stays with its race. -/
def checkpointSaves : Saves CheckpointRow CheckpointRow CheckpointId where
  keyOf := (·.id)
  key := (·.id)
  fresh := id
  amend := fun row excluded => {
    row with
    name := excluded.name
    kind := excluded.kind
    sequence := excluded.sequence }
  key_fresh := fun _ => rfl
  key_amend := fun _ _ h => h

/-- `import_participants` on a bib that is there, which stays with its participant. -/
def participantSaves : Saves Participant Participant (RaceId × Bib) where
  keyOf := fun row => (row.race, row.bib)
  key := fun row => (row.race, row.bib)
  fresh := id
  amend := fun row excluded => { row with name := excluded.name }
  key_fresh := fun _ => rfl
  key_amend := fun _ _ h => h

/-- `save_reader` on a row that is there. -/
def readerSaves : Saves ReaderRow ReaderRow ReaderId where
  keyOf := (·.id)
  key := (·.id)
  fresh := id
  amend := fun row excluded => {
    row with
    label := excluded.label
    endpoint := excluded.endpoint
    timestampTrust := excluded.timestampTrust }
  key_fresh := fun _ => rfl
  key_amend := fun _ _ h => h

/-- The two upserts of `timing_policies`. -/
inductive PolicyChange where
  | policy (excluded : PolicyRow)
  | startMode (excluded : PolicyRow)

/-- The row one of them would insert. -/
def PolicyChange.excluded : PolicyChange → PolicyRow
  | .policy excluded => excluded
  | .startMode excluded => excluded

/-- What one of them makes of a row that is there. -/
def PolicyChange.amend (row : PolicyRow) : PolicyChange → PolicyRow
  | .policy excluded =>
      { row with policyJson := excluded.policyJson, updatedAtUs := excluded.updatedAtUs }
  | .startMode excluded =>
      { row with startMode := excluded.startMode, updatedAtUs := excluded.updatedAtUs }

/-- `set_policy` and `set_start_mode`. -/
def policySaves : Saves PolicyRow PolicyChange RaceId where
  keyOf := (·.race)
  key := (·.excluded.race)
  fresh := (·.excluded)
  amend := PolicyChange.amend
  key_fresh := fun _ => rfl
  key_amend := fun _ change h => by cases change <;> exact h

/-- `map_antenna`, which deletes the row of its port and inserts another. -/
def antennaSaves : Saves ReaderAntenna ReaderAntenna (ReaderId × Option Int64) where
  keyOf := (·.port)
  key := (·.port)
  fresh := id
  amend := fun _ excluded => excluded
  key_fresh := fun _ => rfl
  key_amend := fun _ _ _ => rfl

/-- `import_assignments`. -/
def assignmentSaves : Saves AssignmentRow AssignmentRow (RaceId × ChipId × Int64) where
  keyOf := (·.key)
  key := (·.key)
  fresh := id
  amend := fun _ excluded => excluded
  key_fresh := fun _ => rfl
  key_amend := fun _ _ _ => rfl

/-! ## The store -/

/-- The tables of the configuration. -/
structure ConfigTables where
  events : List EventRow
  races : List RaceRow
  checkpoints : List CheckpointRow
  participants : List Participant
  assignments : AssignmentTable
  readers : List ReaderRow
  antennas : List ReaderAntenna
  policies : List PolicyRow
  sessions : List StoredSession

theorem none_keyed : (([] : List AssignmentRow).map (·.key)).Nodup := List.nodup_nil

theorem none_written :
    ∀ row ∈ ([] : List AssignmentRow), ∃ assignment, row = asRow assignment :=
  fun _ hrow => absurd hrow List.not_mem_nil

/-- A new database. -/
def ConfigTables.empty : ConfigTables where
  events := []
  races := []
  checkpoints := []
  participants := []
  assignments := ⟨[], none_keyed, none_written⟩
  readers := []
  antennas := []
  policies := []
  sessions := []

/-- Whether an event is there to refer to. -/
def ConfigTables.hasEvent (tables : ConfigTables) (event : EventId) : Bool :=
  tables.events.any fun row => row.id = event

/-- Whether a race is there to refer to. -/
def ConfigTables.hasRace (tables : ConfigTables) (race : RaceId) : Bool :=
  tables.races.any fun row => row.id = race

/-- Whether a participant is there to refer to. -/
def ConfigTables.hasParticipant (tables : ConfigTables) (participant : ParticipantId) : Bool :=
  tables.participants.any fun row => row.id = participant

/-- Whether a reader and a checkpoint are there to refer to. -/
def ConfigTables.hasPort (tables : ConfigTables) (reader : ReaderId) (checkpoint : CheckpointId) :
    Bool :=
  tables.readers.any (fun row => row.id = reader) &&
    tables.checkpoints.any fun row => row.id = checkpoint

/-- A reference to a row that is not there. -/
def noReference : StorageError := .sqlite "FOREIGN KEY constraint failed"

/-- An upsert into a table whose rows have an owner and a name, which no two rows of one owner
share. A row that is there keeps its owner, and a new one's has to be known. -/
def saveNamed {Row Key Owner : Type} [DecidableEq Key] [DecidableEq Owner]
    (saves : Saves Row Row Key) (owner : Row → Owner) (name : Row → String)
    (known : Owner → Bool) (columns : String) (excluded : Row) (rows : List Row) :
    Except StorageError (List Row) :=
  let existing := rows.find? fun row => saves.keyOf row = saves.key excluded
  let owned := owner (existing.getD excluded)
  if rows.any fun row => saves.keyOf row ≠ saves.key excluded ∧ owner row = owned ∧
      name row = name excluded then
    .error (.sqlite ("UNIQUE constraint failed: " ++ columns))
  else if existing.isSome || known (owner excluded) then .ok (saves.put excluded rows)
  else .error noReference

/-- `save_event`. -/
def saveEvent (now : OffsetDateTime) (event : Event) (tables : ConfigTables) :
    Except StorageError ConfigTables := do
  let createdAtUs ← toMicros now
  let events ← saveNamed eventSaves (fun _ => ()) (·.name) (fun _ => true) "events.name"
    ⟨event.id, event.name, createdAtUs⟩ tables.events
  .ok { tables with events }

/-- `save_race`. -/
def saveRace (now : OffsetDateTime) (race : EventRace) (tables : ConfigTables) :
    Except StorageError ConfigTables := do
  let scheduled ← race.scheduledStart.mapM toMicros
  let createdAtUs ← toMicros now
  let races ← saveNamed raceSaves (·.event) (·.name) tables.hasEvent
    "races.event_id, races.name"
    ⟨race.id, race.event, race.name, scheduled, Int64.ofInt race.expectedLaps.toNat, createdAtUs⟩
    tables.races
  .ok { tables with races }

/-- `kind_to_str`. -/
def kindToStr : CheckpointKind → String
  | .start => "start"
  | .split => "split"
  | .finish => "finish"
  | .lap => "lap"

/-- `kind_from_str`. -/
def kindFromStr (texts : Texts) : String → Except StorageError CheckpointKind
  | "start" => .ok .start
  | "split" => .ok .split
  | "finish" => .ok .finish
  | "lap" => .ok .lap
  | other => .error (.decode ("unknown checkpoint kind " ++ texts.debug other))

/-- `save_checkpoint`. -/
def saveCheckpoint (checkpoint : Checkpoint) (tables : ConfigTables) :
    Except StorageError ConfigTables := do
  let checkpoints ← saveNamed checkpointSaves (·.race) (·.name) tables.hasRace
    "checkpoints.race_id, checkpoints.name"
    ⟨checkpoint.id, checkpoint.race, checkpoint.name, kindToStr checkpoint.kind,
      Int64.ofInt checkpoint.sequence.toNat⟩
    tables.checkpoints
  .ok { tables with checkpoints }

/-- One participant of an import: the row of the bib is looked up, and left, renamed or added. -/
def importParticipant (state : ImportSummary × ConfigTables) (participant : Participant) :
    Except StorageError (ImportSummary × ConfigTables) :=
  let (summary, tables) := state
  let saved := { tables with
    participants := participantSaves.put participant tables.participants }
  match tables.participants.find? fun row =>
      (row.race, row.bib) = (participant.race, participant.bib) with
  | some existing =>
      if existing.name = participant.name then
        .ok ({ summary with unchanged := summary.unchanged + 1 }, tables)
      else .ok ({ summary with updated := summary.updated + 1 }, saved)
  | none =>
      if tables.hasParticipant participant.id then
        .error (.sqlite "UNIQUE constraint failed: participants.id")
      else if tables.hasRace participant.race then
        .ok ({ summary with inserted := summary.inserted + 1 }, saved)
      else .error noReference

/-- `import_participants`: the summary, and the tables after the transaction. -/
def importParticipants (participants : List Participant) (tables : ConfigTables) :
    Except StorageError (ImportSummary × ConfigTables) :=
  participants.foldlM importParticipant (⟨0, 0, 0⟩, tables)

/-- One assignment of an import, whose row refers to a participant and a race if it is written. -/
def importReferenced (tables : ConfigTables) (state : ImportSummary × AssignmentTable)
    (assignment : ChipAssignment) : Except StorageError (ImportSummary × AssignmentTable) := do
  let next ← importAssignment state assignment
  if next.1.unchanged ≠ state.1.unchanged ∨
      tables.hasParticipant assignment.participant ∧ tables.hasRace assignment.race then .ok next
  else .error noReference

/-- `import_assignments`: the summary, and the tables after the transaction. -/
def importChipAssignments (assignments : List ChipAssignment) (tables : ConfigTables) :
    Except StorageError (ImportSummary × ConfigTables) := do
  let (summary, assignments) ←
    assignments.foldlM (importReferenced tables) (⟨0, 0, 0⟩, tables.assignments)
  .ok (summary, { tables with assignments })

/-- `save_reader`. -/
def saveReader (now : OffsetDateTime) (reader : Reader) (tables : ConfigTables) :
    Except StorageError ConfigTables := do
  let createdAtUs ← toMicros now
  .ok { tables with
    readers := readerSaves.put
      ⟨reader.id, reader.label, reader.endpoint, reader.timestampTrust.asStr, createdAtUs⟩
      tables.readers }

/-- `map_antenna`. -/
def mapPort (reader : ReaderId) (antenna : Option UInt16) (checkpoint : CheckpointId)
    (tables : ConfigTables) : Except StorageError ConfigTables :=
  if tables.hasPort reader checkpoint then
    .ok { tables with
      antennas := mapped tables.antennas ⟨reader, antenna.map antennaColumn, checkpoint⟩ }
  else .error noReference

/-- The row a policy or a start mode is saved to, which needs its race when it is new. -/
def savePolicy (change : PolicyChange) (tables : ConfigTables) :
    Except StorageError ConfigTables :=
  if tables.policies.any (fun row => row.race = change.excluded.race) ||
      tables.hasRace change.excluded.race then
    .ok { tables with policies := policySaves.put change tables.policies }
  else .error noReference

/-- `serde_json::to_string` of a timing policy. -/
def timingToString (policy : TimingPolicy) : String := writeText timingBlock (timingRecord policy)

/-- `set_policy`. -/
def setPolicy (now : OffsetDateTime) (race : RaceId) (policy : TimingPolicy)
    (tables : ConfigTables) : Except StorageError ConfigTables := do
  let updatedAtUs ← toMicros now
  savePolicy (.policy ⟨race, timingToString policy, updatedAtUs, "gun"⟩) tables

/-- `set_start_mode`. -/
def setStartMode (now : OffsetDateTime) (race : RaceId) (mode : StartMode)
    (tables : ConfigTables) : Except StorageError ConfigTables := do
  let updatedAtUs ← toMicros now
  savePolicy (.startMode ⟨race, timingToString .default, updatedAtUs, mode.asStr⟩) tables

/-- `record_session`: the tables after it. Rows are never deleted, so the next sequence is the
next number. -/
def recordSession (now : OffsetDateTime) (race : RaceId) (action : SessionAction)
    (at' : OffsetDateTime) (actor : String) (note : Option String) (tables : ConfigTables) :
    Except StorageError ConfigTables := do
  let atUs ← toMicros at'
  let recordedAtUs ← toMicros now
  if tables.hasRace race then
    .ok { tables with
      sessions := tables.sessions ++
        [⟨tables.sessions.length + 1, race, action.asStr, atUs, actor, note, recordedAtUs⟩] }
  else .error noReference

/-! ## Reading -/

section Reading

variable (texts : Texts)

/-- `race_from_row`. -/
def raceFromRow (row : RaceRow) : Except StorageError EventRace := do
  let scheduledStart ← row.scheduledStartUs.mapM fromMicros
  let expectedLaps ← orDecode "expected_laps out of range" (u16TryFrom row.expectedLaps)
  .ok ⟨⟨row.id, row.name, scheduledStart, expectedLaps⟩, row.event⟩

/-- `checkpoint_from_row`. -/
def checkpointFromRow (row : CheckpointRow) : Except StorageError Checkpoint := do
  let kind ← kindFromStr texts row.kind
  let sequence ← orDecode "checkpoint sequence out of range" (u16TryFrom row.sequence)
  .ok ⟨row.id, row.race, row.name, kind, sequence⟩

/-- A reader, from its row. -/
def readerFromRow (row : ReaderRow) : Except StorageError Reader := do
  let trust ← orExpected texts "timestamp_trust" row.timestampTrust
    (TimestampTrust.parse row.timestampTrust)
  .ok ⟨row.id, row.label, row.endpoint, trust⟩

/-- A start or a stop, from its row. -/
def sessionFromRow (row : StoredSession) : Except StorageError SessionRow := do
  let action ← orExpected texts "session action" row.action (SessionAction.parse row.action)
  let at' ← fromMicros row.atUs
  let recordedAt ← fromMicros row.recordedAtUs
  .ok ⟨row.seq, ⟨action, at'⟩, row.actor, row.note, recordedAt⟩

/-- `events`: every event, oldest first. -/
def events (tables : ConfigTables) : List Event :=
  (sortByKey (fun row => toLex (row.createdAtUs.toInt, row.name)) tables.events).map fun row =>
    ⟨row.id, row.name⟩

/-- `races`: every race, oldest first. -/
def races (tables : ConfigTables) : Except StorageError (List EventRace) :=
  (sortByKey (fun row => toLex (row.createdAtUs.toInt, row.name)) tables.races).mapM raceFromRow

/-- `checkpoints`: a race's checkpoints, in course order. -/
def checkpoints (tables : ConfigTables) (race : RaceId) : Except StorageError (List Checkpoint) :=
  (sortByKey (fun row => toLex (row.sequence.toInt, row.name))
    (tables.checkpoints.filter fun row => row.race = race)).mapM (checkpointFromRow texts)

/-- `participants`: a race's roster, in bib order. -/
def participants (tables : ConfigTables) (race : RaceId) : List Participant :=
  sortByKey (fun row => row.bib.text) (tables.participants.filter fun row => row.race = race)

/-- `readers`: every configured reader, oldest first. -/
def readers (tables : ConfigTables) : Except StorageError (List Reader) :=
  (sortByKey (fun row => toLex (row.createdAtUs.toInt, row.id)) tables.readers).mapM
    (readerFromRow texts)

/-- `antenna_map_for`: the mapping restricted to the checkpoints of one race. -/
def antennasFor (tables : ConfigTables) (race : RaceId) : Except StorageError AntennaMap :=
  readAntennaMap (tables.antennas.filter fun row =>
    tables.checkpoints.any fun known => known.id = row.checkpoint && known.race = race)

/-- `serde_json::from_str` of a timing policy. -/
def timingFromStr (text : String) : Option TimingPolicy :=
  (readText timingBlock text).bind TimingRecord.policy

/-- `policy`: the rules of a race, or the default ones when none were set. -/
def policy (tables : ConfigTables) (race : RaceId) : Except StorageError TimingPolicy :=
  match tables.policies.find? fun row => row.race = race with
  | some row => orDecode ("stored timing policy for race " ++ race.uuid.toText ++ ": " ++
      texts.jsonError row.policyJson) (timingFromStr row.policyJson)
  | none => .ok .default

/-- `start_mode`: which clock placement is measured from. Defaults to the gun. -/
def startMode (tables : ConfigTables) (race : RaceId) : Except StorageError StartMode :=
  match tables.policies.find? fun row => row.race = race with
  | some row => orExpected texts "start mode" row.startMode (StartMode.parse row.startMode)
  | none => .ok .gun

/-- `sessions`: a race's recorded starts and stops, oldest first. -/
def sessions (tables : ConfigTables) (race : RaceId) : Except StorageError (List SessionRow) :=
  (sortByKey (·.seq) (tables.sessions.filter fun row => row.race = race)).mapM
    (sessionFromRow texts)

/-- `race_is_running`: whether the last row of a race is a start. -/
def raceIsRunning (tables : ConfigTables) (race : RaceId) : Bool :=
  (maxByKey (·.seq) (tables.sessions.filter fun row => row.race = race)).any fun row =>
    row.action = SessionAction.start.asStr

/-- `RaceConfig`, as it is assembled from the tables. -/
structure LoadedConfig where
  event : Event
  race : EventRace
  checkpoints : List Checkpoint
  participants : List Participant
  assignments : List ChipAssignment
  readers : List Reader
  antennas : AntennaMap
  policy : TimingPolicy
  startMode : StartMode
  sessions : List SessionRow

/-- `RaceConfig::is_running`: whether the race was started and not stopped since. -/
def LoadedConfig.isRunning (config : LoadedConfig) : Bool :=
  config.sessions.getLast?.any fun row => row.session.action = .start

/-- `load`: everything needed to derive one race's results. -/
def load (tables : ConfigTables) (race : RaceId) : Except StorageError LoadedConfig :=
  match tables.races.find? fun row => row.id = race with
  | none => .error (.decode ("no race with id " ++ race.uuid.toText))
  | some row => do
      let race ← raceFromRow row
      match tables.events.find? fun row => row.id = race.event with
      | none => .error (.decode ("race " ++ race.id.uuid.toText ++ " has no event"))
      | some row => do
          let checkpoints ← checkpoints texts tables race.id
          let assignments ← Storage.assignments tables.assignments race.id
          let readers ← readers texts tables
          let antennas ← antennasFor tables race.id
          let policy ← policy texts tables race.id
          let startMode ← startMode texts tables race.id
          let sessions ← sessions texts tables race.id
          .ok {
            event := ⟨row.id, row.name⟩
            race
            checkpoints
            participants := participants tables race.id
            assignments
            readers
            antennas
            policy
            startMode
            sessions }

end Reading

end Splitforge.Storage.Config
