import Splitforge.Cli.Results
import Splitforge.Cli.Summary
import Splitforge.Domain.Event
import Splitforge.Library.Sha256
import Splitforge.Storage.Journal
import Splitforge.Storage.ManualEntries

/-!
# The diagnostic bundle

Everything needed to debug a device. Chips and operators go out as tokens, free text does not go
out, and what a check found goes out only if the check is on a list.
-/

namespace Splitforge.Cli

open Splitforge.Domain Splitforge.Library Splitforge.Storage
open Std (ExtTreeMap)

variable {Token : Type}

/-- `BUNDLE_FORMAT`. -/
def bundleFormat : String := "splitforge.diagnostic-bundle"

/-- `BUNDLE_VERSION`. -/
def bundleVersion : Nat := 1

/-- `AUDIT_LIMIT`: how many audit entries a bundle carries. -/
def auditLimit : Nat := 500

/-- `TOKEN_LIMIT`: how many tokens of chips are listed for a race. -/
def tokenLimit : Nat := 50

/-- `DETAIL_IS_SAFE_TO_SHARE`: the checks whose message may be copied into a bundle. -/
def detailIsSafeToShare : List String :=
  ["database.integrity", "database.foreign_keys", "storage.free_space", "journal.sidecar",
    "journal.sequence", "config.race", "config.checkpoints", "config.readers", "config.roster",
    "config.gun_time", "scoring.finish", "scoring.start", "scoring.gun", "clock.device",
    "clock.steps", "clock.source"]

/-! ## Names and paths -/

/-- Hashes identifiers with a salt that lives only as long as one bundle. -/
structure Pseudonymizer where
  salt : Uuid

/-- The sixteen bytes of a UUID. -/
def saltBytes (salt : Uuid) : List UInt8 :=
  (List.range 16).map fun place => UInt8.ofNat (salt.value.val / 256 ^ (15 - place))

/-- `Pseudonymizer::token`: four bytes of the digest of the salt and the identifier. -/
def Pseudonymizer.token (names : Pseudonymizer) (value : String) : String :=
  let digest := Sha256.digest (saltBytes names.salt ++ 0 :: Utf8.encode value)
  String.ofList ("h:".toList ++ Hex.encode (digest.take 4))

/-- A path: its last part, and the texts of the path and the directories above it, longest
first. -/
structure DatabasePath where
  fileName : Option String
  ancestors : List String

/-- `redact_paths`: the database keeps its name, its directories do not. -/
def redactPaths (message : String) (database : DatabasePath) : String :=
  let fileName := database.fileName.getD "<database>"
  database.ancestors.zipIdx.foldl (fun text ancestor =>
    if ancestor.1 = "" ∨ ancestor.1 = "." then text
    else text.replace ancestor.1 (if ancestor.2 = 0 then fileName else "<path>")) message

/-! ## What the device says -/

/-- One thing the diagnosis found. -/
structure Finding where
  severity : String
  check : String
  detail : String

/-- What is known of the time source of the device. -/
structure ClockSourceView where
  measurement : String
  state : Option String
  detail : String
  referenceKind : Option String
  reference : Option String
  stratum : Option Nat
  rmsOffsetMs : Option Float
  leapPending : Option Bool

/-- What the diagnosis concluded. -/
structure DoctorReport where
  clockSource : ClockSourceView
  checksRun : Nat
  errors : Nat
  warnings : Nat
  findings : List Finding

/-- What a volume has left, in bytes. -/
structure DiskSpace where
  availableBytes : Nat
  totalBytes : Nat

/-- `DiskSpace::available_mb`. -/
def DiskSpace.availableMb (space : DiskSpace) : Nat := space.availableBytes / (1024 * 1024)

/-- `DiskSpace::total_mb`. -/
def DiskSpace.totalMb (space : DiskSpace) : Nat := space.totalBytes / (1024 * 1024)

/-- `DiskSpace::is_above`. -/
def DiskSpace.isAbove (space : DiskSpace) (floor : Nat) : Bool := floor ≤ space.availableBytes

/-- `DEFAULT_MIN_FREE_BYTES`. -/
def defaultMinFreeBytes : Nat := 256 * 1024 * 1024

/-- The text of a failure of the storage. -/
def storageErrorText : StorageError → String
  | .sqlite text => "sqlite error: " ++ text
  | .decode text => "stored value could not be decoded: " ++ text
  | .timestampOutOfRange => "timestamp out of representable range"
  | .sidecar text => "sidecar journal: " ++ text
  | .unstorable text => "the read cannot be stored: " ++ text

/-- The device at the moment a bundle is taken: the time, the build, where the database lies, the
space on its volume, and what comparing the sidecar gives, if it can be compared. -/
structure Moment where
  now : OffsetDateTime
  toolVersion : String
  database : DatabasePath
  space : Except StorageError DiskSpace
  survey : Option SidecarStatus
  sidecarPresent : Bool

/-! ## What the database says -/

/-- One row of the audit trail. -/
structure AuditEntry where
  seq : Nat
  «at» : OffsetDateTime
  actor : String
  action : String
  subject : Option String
  detail : Option String
deriving DecidableEq

/-- What is read of the database for a bundle. -/
inductive BundleRead where
  | floor | schemaVersion | clockSteps | manualEntries | largestClockStep
  | raceManualEntries (race : RaceId)
  | revisions (race : RaceId)
  | auditTrail

/-- What an error says was being read. -/
def BundleRead.context : BundleRead → String
  | .floor => "reading the floor"
  | .schemaVersion => "reading schema version"
  | .clockSteps => "counting clock steps"
  | .manualEntries => "counting manual entries"
  | .largestClockStep => "reading the largest clock step"
  | .raceManualEntries _ => "counting manual entries for the race"
  | .revisions _ => "reading result revisions"
  | .auditTrail => "reading the audit trail"

/-- Why a bundle was not built. -/
structure BundleError where
  context : String
  cause : StorageError
deriving DecidableEq

/-- The database of an event, and which of what is read of it cannot be. The floor is absent where
none is set, or none that is a number. Rows stand in the order of their keys. -/
structure EventDatabase where
  minFreeBytes : Option Nat
  schemaVersion : Int
  reads : List StoredRawRead
  clockSteps : List ClockStep
  manualEntries : List StoredManualEntry
  configs : List EventConfig
  results : ResultStore
  auditLog : List AuditEntry
  failing : BundleRead → Option StorageError

/-- What is read, unless it cannot be. -/
def EventDatabase.reading {Value : Type} (database : EventDatabase) (what : BundleRead)
    (value : Value) : Except BundleError Value :=
  match database.failing what with
  | some cause => .error ⟨what.context, cause⟩
  | none => .ok value

/-- `SqliteJournal::largest_clock_step_ms`: the first of those that are largest by magnitude. -/
def largestClockStepMs (steps : List ClockStep) : Option Int :=
  (leastByKey (fun step => -(magnitude step.stepMs)) steps).map (·.stepMs)

/-- `ConfigStore::audit_trail`: the latest rows, latest first. -/
def auditTrail (rows : List AuditEntry) (limit : Nat) : List AuditEntry :=
  rows.reverse.take limit

/-- `ResultStore::revisions`: the revisions of a race by number. -/
def ResultStore.revisions (store : ResultStore) (race : RaceId) : List RevisionRow :=
  sortByKey (fun row => row.revision.number) (store.ofRace race)

/-! ## The sections -/

/-- What the bundle says about its own contents. -/
structure PrivacyNote where
  policy : String
  identifiers : String
  withheld : String

/-- `PrivacyNote::new`. -/
def privacyNote : PrivacyNote where
  policy := "Contains no participant names, bib numbers, or chip identifiers. Safe to " ++
    "attach to a public issue."
  identifiers := "`h:` values are SHA-256 over a random per-bundle salt that was " ++
    "discarded. Comparable within this file only."
  withheld := "Operator free text (notes, reasons) and any diagnostic detail not on " ++
    "the allowlist are withheld rather than filtered."

/-- One finding, with its message only if the check is on the list. -/
structure BundledFinding where
  severity : String
  check : String
  detail : Option String
  detailWithheld : Option String

/-- `BundledFinding::of`. -/
def BundledFinding.of (finding : Finding) (database : DatabasePath) : BundledFinding :=
  if finding.check ∈ detailIsSafeToShare then
    ⟨finding.severity, finding.check, some (redactPaths finding.detail database), none⟩
  else
    ⟨finding.severity, finding.check, none,
      some ("this check's message can name participants; run `splitforge doctor` on " ++
        "the device to read it")⟩

/-- The time source, without what could name a network. -/
structure BundledClockSource where
  measurement : String
  state : Option String
  referenceKind : Option String
  stratum : Option Nat
  rmsOffsetMs : Option Float
  leapPending : Option Bool

/-- `BundledClockSource::of`. -/
def BundledClockSource.of (view : ClockSourceView) : BundledClockSource :=
  ⟨view.measurement, view.state, view.referenceKind, view.stratum, view.rmsOffsetMs,
    view.leapPending⟩

/-- The device and the file the bundle was taken from. -/
structure DeviceSection where
  database : String
  schemaVersion : Int
  minFreeMb : Nat
  freeMb : Option Nat
  totalMb : Option Nat
  aboveFloor : Option Bool
  spaceError : Option String
  clockSteps : Nat
  manualEntries : Nat
  largestClockStepMs : Option Int
  clockSource : BundledClockSource

/-- What the journal holds, counted. -/
structure JournalSection where
  rawReads : Nat
  firstSeq : Option Nat
  lastSeq : Option Nat
  sequenceGaps : Nat
  firstReadAt : Option OffsetDateTime
  lastReadAt : Option OffsetDateTime
  untrustedClockReads : Nat
  deviceTimedReads : Nat
  maxClockOffsetMs : Option Int64
  distinctChips : Nat
  bySource : ExtTreeMap String Nat
  sidecar : Option SidecarStatus
  sidecarPresent : Bool

/-- A checkpoint. -/
structure CheckpointSummary where
  name : String
  kind : String
  sequence : UInt16

/-- A configured reader. -/
structure ReaderSummary where
  id : String
  endpointConfigured : Bool
  timestampTrust : String
  covers : List String

/-- A recorded start or stop. -/
structure SessionSummary (Token : Type) where
  seq : Nat
  action : String
  «at» : OffsetDateTime
  actor : Token
  notePresent : Bool

/-- A published revision. -/
structure RevisionSummaryView (Token : Type) where
  number : Nat
  status : String
  generatedAt : OffsetDateTime
  actor : Token
  digest : String
  entries : Nat
  reasonPresent : Bool

/-- One configured race, reduced to its shape. -/
structure RaceSection (Token : Type) where
  event : String
  race : String
  scheduledStart : Option OffsetDateTime
  gunTime : Option OffsetDateTime
  expectedLaps : UInt16
  startMode : String
  policy : TimingPolicy
  checkpoints : List CheckpointSummary
  readers : List ReaderSummary
  participants : Nat
  assignments : Nat
  participantsWithoutAChip : Nat
  manualEntries : Nat
  unassignedChipsRead : List Token
  unassignedChipsReadTotal : Nat
  sessions : List (SessionSummary Token)
  revisions : List (RevisionSummaryView Token)

/-- One audit entry, reduced to the fact that it happened. -/
structure AuditSummary (Token : Type) where
  seq : Nat
  «at» : OffsetDateTime
  actor : Token
  action : String

/-- What the diagnosis concluded, with the findings passed through the list. -/
structure BundledDoctor where
  checksRun : Nat
  errors : Nat
  warnings : Nat
  findings : List BundledFinding

/-- The whole bundle. -/
structure Bundle (Token : Type) where
  format : String
  version : Nat
  toolVersion : String
  generatedAt : OffsetDateTime
  privacy : PrivacyNote
  device : DeviceSection
  doctor : BundledDoctor
  journal : JournalSection
  races : List (RaceSection Token)
  audit : List (AuditSummary Token)

/-! ## Building -/

/-- The report as a bundle has it. -/
def BundledDoctor.of (report : DoctorReport) (database : DatabasePath) : BundledDoctor :=
  ⟨report.checksRun, report.errors, report.warnings,
    report.findings.map fun finding => BundledFinding.of finding database⟩

/-- `device_section`: summarizes the device and its storage. -/
def deviceSection (moment : Moment) (database : EventDatabase) (clockSource : ClockSourceView) :
    Except BundleError DeviceSection := do
  let floor ← database.reading .floor (database.minFreeBytes.getD defaultMinFreeBytes)
  let schemaVersion ← database.reading .schemaVersion database.schemaVersion
  let clockSteps ← database.reading .clockSteps database.clockSteps.length
  let manualEntries ← database.reading .manualEntries database.manualEntries.length
  let largest ← database.reading .largestClockStep (largestClockStepMs database.clockSteps)
  return {
    database := moment.database.fileName.getD "(unnamed)"
    schemaVersion
    minFreeMb := floor / (1024 * 1024)
    freeMb := moment.space.toOption.map DiskSpace.availableMb
    totalMb := moment.space.toOption.map DiskSpace.totalMb
    aboveFloor := moment.space.toOption.map (·.isAbove floor)
    spaceError :=
      match moment.space with
      | .ok _ => none
      | .error error => some (redactPaths (storageErrorText error) moment.database)
    clockSteps
    manualEntries
    largestClockStepMs := largest
    clockSource := .of clockSource }

/-- A reader and antenna as text. -/
def Source.text (source : Source) : String :=
  source.reader.text ++ "/" ++ (source.antenna.map fun antenna => toString antenna.toNat).getD "*"

/-- `journal_section`: counts the journal without reproducing it. -/
def journalSection (moment : Moment) (summary : JournalSummary) : JournalSection where
  rawReads := summary.reads
  firstSeq := summary.firstSeq
  lastSeq := summary.lastSeq
  sequenceGaps := summary.gapCount
  firstReadAt := summary.firstReadAt
  lastReadAt := summary.lastReadAt
  untrustedClockReads := summary.untrustedClockReads
  deviceTimedReads := summary.deviceTimedReads
  maxClockOffsetMs := summary.maxClockOffsetMs
  distinctChips := summary.chips.length
  bySource := summary.readsBySource.toList.foldl (fun counts entry =>
    counts.insert entry.1.text entry.2) ∅
  sidecar := moment.survey
  sidecarPresent := moment.sidecarPresent

/-- The name of a checkpoint. -/
def checkpointName (config : RaceConfig) (id : CheckpointId) : String :=
  ((config.checkpointById id).map (·.name)).getD "(unknown)"

/-- A mapping of a reader, as text. -/
def coverage (config : RaceConfig) (antenna : Option Nat) (checkpoint : CheckpointId) : String :=
  match antenna with
  | some antenna => "antenna " ++ toString antenna ++ " → " ++ checkpointName config checkpoint
  | none => "all antennas → " ++ checkpointName config checkpoint

/-- A reader of a race, with what it covers. -/
def readerSummary (config : RaceConfig) (reader : Reader) : ReaderSummary where
  id := reader.id.text
  endpointConfigured := reader.endpoint.isSome
  timestampTrust := reader.timestampTrust.asStr
  covers := (config.antennas.entries.filter fun entry => entry.1 = reader.id).map fun entry =>
    coverage config entry.2.1 entry.2.2

/-- A checkpoint of a race. -/
def checkpointSummary (checkpoint : Checkpoint) : CheckpointSummary where
  name := checkpoint.name
  kind :=
    match checkpoint.kind with
    | .start => "start"
    | .finish => "finish"
    | .lap => "lap"
    | .split => "split"
  sequence := checkpoint.sequence

/-- The chips that were read and are assigned to nobody in a race, in their order. -/
def unassigned (config : RaceConfig) (summary : JournalSummary) : List ChipId :=
  summary.chips.filter fun chip =>
    ! config.assignments.any fun assignment => assignment.chip = chip

/-- The entrants of a race who have no chip. -/
def withoutAChip (config : RaceConfig) : Nat :=
  config.participants.countP fun participant =>
    ! config.assignments.any fun assignment => assignment.participant = participant.id

/-- A recorded start or stop, as a bundle has it. -/
def sessionSummary (token : String → Token) (row : SessionRow) : SessionSummary Token where
  seq := row.seq
  action := row.session.action.asStr
  «at» := row.session.at
  actor := token row.actor
  notePresent := row.note.isSome

/-- A published revision, as a bundle has it. -/
def revisionSummary (newV5 : Uuid → String → Uuid) (token : String → Token) (row : RevisionRow) :
    RevisionSummaryView Token where
  number := row.revision.number
  status := row.revision.status.asStr
  generatedAt := row.revision.generatedAt
  actor := token row.actor
  digest := row.revision.digest newV5
  entries := row.revision.entries.length
  reasonPresent := row.revision.reason ≠ ""

/-- One race's configuration reduced to its shape, with the chips that are assigned to nobody and
what is read for the race. -/
def raceShape (newV5 : Uuid → String → Uuid) (token : String → Token) (config : EventConfig)
    (unassigned : List ChipId) (entries : List StoredManualEntry) (revisions : List RevisionRow) :
    RaceSection Token where
  event := config.event
  race := config.config.race.name
  scheduledStart := config.config.race.scheduledStart
  gunTime := config.config.gunTime
  expectedLaps := config.config.race.expectedLaps
  startMode :=
    match config.startMode with
    | .gun => "gun"
    | .chip => "chip"
  policy := config.config.policy
  checkpoints := config.config.checkpoints.map checkpointSummary
  readers := config.readers.map (readerSummary config.config)
  participants := config.config.participants.length
  assignments := config.config.assignments.length
  participantsWithoutAChip := withoutAChip config.config
  manualEntries := entries.length
  unassignedChipsRead := (unassigned.take tokenLimit).map fun chip => token chip.text
  unassignedChipsReadTotal := unassigned.length
  sessions := config.sessions.map (sessionSummary token)
  revisions := revisions.map (revisionSummary newV5 token)

/-- `race_section`: reduces one race's configuration to its shape. -/
def raceSection (newV5 : Uuid → String → Uuid) (token : String → Token) (database : EventDatabase)
    (summary : JournalSummary) (config : EventConfig) : Except BundleError (RaceSection Token) := do
  let race := config.config.race.id
  let entries ← database.reading (.raceManualEntries race)
    (Storage.manualEntries database.manualEntries race)
  let revisions ← database.reading (.revisions race) (database.results.revisions race)
  return raceShape newV5 token config (unassigned config.config summary) entries revisions

/-- A row of the audit trail, as a bundle has it. -/
def auditSummary (token : String → Token) (entry : AuditEntry) : AuditSummary Token :=
  ⟨entry.seq, entry.at, token entry.actor, entry.action⟩

/-- `build`: builds a bundle of a database at a moment. `token` is what a value goes out as. -/
def build (newV5 : Uuid → String → Uuid) (token : String → Token) (moment : Moment)
    (database : EventDatabase) (report : DoctorReport) : Except BundleError (Bundle Token) := do
  let summary := JournalSummary.of database.reads
  let device ← deviceSection moment database report.clockSource
  let races ← database.configs.mapM (raceSection newV5 token database summary)
  let audit ← database.reading .auditTrail (auditTrail database.auditLog auditLimit)
  return {
    format := bundleFormat
    version := bundleVersion
    toolVersion := moment.toolVersion
    generatedAt := moment.now
    privacy := privacyNote
    device
    doctor := .of report moment.database
    journal := journalSection moment summary
    races
    audit := audit.map (auditSummary token) }

end Splitforge.Cli
