import Splitforge.Cli.ClockSource

/-!
# The diagnosis

`doctor` asks the database, the disk, the sidecar and the time daemon, and looks at the
configuration of every race. What will produce wrong results or lose data is an error, and what an
operator should know before the gun is a warning.
-/

namespace Splitforge.Cli

open Splitforge.Domain Splitforge.Storage

/-! ## The device -/

/-- What the database, the disk, the sidecar and the time daemon answer. -/
structure Answers where
  integrity : Except StorageError (List String)
  foreignKeys : Except StorageError (List String)
  schemaDifferences : Except StorageError (List String)
  space : Except StorageError DiskSpace
  minFreeBytes : Except StorageError Nat
  survey : Except StorageError SidecarStatus
  clockStepCount : Except StorageError Nat
  largestClockStepMs : Except StorageError (Option Int)
  clock : ClockReading
  schemaVersion : Except StorageError Int

/-- The free space against the floor. -/
def spaceCheck (answers : Answers) : Except StorageError (List Finding) :=
  match answers.space with
  | .error error =>
      .ok [.warning "storage.free_space" ("could not measure free space: " ++
        storageErrorText error)]
  | .ok space => do
      let floor ← answers.minFreeBytes
      let floorMb := floor / (1024 * 1024)
      if space.isAbove floor then
        -- within half again of the floor
        if space.availableBytes < min (floor * 3) (2 ^ 64 - 1) / 2 then
          return [.warning "storage.free_space" (toString space.availableMb ++
            " MB free, approaching the " ++ toString floorMb ++
            " MB floor below which a race will not start")]
        else return []
      else
        return [.error "storage.free_space" (toString space.availableMb ++
          " MB free, below the " ++ toString floorMb ++ " MB floor. `splitforge race start` " ++
          "will refuse until this is resolved.")]

/-- A finding about a count, if there is anything to count. -/
def counted (finding : String → String → Finding) (check before : String) (count : Nat)
    (behind : String) : List Finding :=
  if 0 < count then [finding check (before ++ toString count ++ behind)] else []

/-- The sidecar against the database. -/
def sidecarCheck (sidecar : SidecarStatus) : List Finding :=
  counted .error "journal.sidecar" "" sidecar.missingFromDatabase
      (" read(s) are in the sidecar but not in the database. Run `splitforge recover` to " ++
        "replay them.") ++
    counted .warning "journal.sidecar" "" sidecar.missingFromSidecar
      (" read(s) are in the database but not in the sidecar, so they have no second copy. Run " ++
        "`splitforge recover` to back them up.") ++
    counted .error "journal.sidecar" "" sidecar.corruptLines
      (" sidecar line(s) failed their checksum. Those reads cannot be recovered from this file; " ++
        "the database is now the only copy.") ++
    counted .warning "journal.sidecar" "the sidecar ends with " sidecar.tornTailBytes
      (" byte(s) of an unfinished write, which is the expected shape after a power cut. The " ++
        "reads before it are intact.") ++
    counted .warning "journal.sidecar" "" sidecar.tornWrites
      (" write(s) to the sidecar were interrupted and a later write was appended onto them, " ++
        "which is the shape a power cut leaves. The reads written after each were recovered " ++
        "from behind it, and every complete write is intact.")

/-- The steps of the wall clock. -/
def stepCheck (answers : Answers) : Except StorageError (List Finding) := do
  let steps ← answers.clockStepCount
  if 0 < steps then
    let largest := (← answers.largestClockStepMs).getD 0
    let direction := if largest < 0 then "backwards" else "forwards"
    return [.warning "clock.steps" ("the device clock has jumped " ++ toString steps ++
      " time(s) since this database was created, the largest " ++ direction ++ " by " ++
      toString (magnitude largest) ++ " ms. Times recorded on either side of a jump came from " ++
      "different clocks. `splitforge clock steps` lists them.")]
  else return []

/-- The sequence numbers of the journal. -/
def sequenceCheck (summary : JournalSummary) : List Finding :=
  match summary.firstSeq with
  | none => []
  | some firstSeq =>
      (if firstSeq ≠ 1 then
        [.warning "journal.sequence" ("the journal starts at sequence " ++ toString firstSeq ++
          " rather than 1; reads may predate this file")]
      else []) ++
      counted .error "journal.sequence" "the journal has " summary.gapCount
        (" gap(s), after sequence " ++ ", ".intercalate (summary.firstGapsAfter.map toString) ++
          ". Evidence is missing.")

/-! ## The races -/

/-- How many checkpoints of a kind a course has. -/
def countKind (checkpoints : List Checkpoint) (kind : CheckpointKind) : Nat :=
  checkpoints.countP fun checkpoint => checkpoint.kind = kind

/-- The text of a failure of the domain. -/
def domainErrorText : DomainError → String
  | .overlappingChipAssignment chip =>
      "chip " ++ chip.text ++ " is assigned to more than one participant at the same time"

section Races

-- how a text is printed in quotes
variable (debug : String → String)

/-- Whether anything can be read, and whether anything completes. -/
def checkpointCheck (config : RaceConfig) : List Finding :=
  if config.checkpoints = [] then
    [.error "config.checkpoints" ("race " ++ debug config.race.name ++
      " has no checkpoints; no read can be interpreted")]
  else if config.checkpoints.any fun checkpoint =>
      checkpoint.kind = .finish ∨ checkpoint.kind = .lap then []
  else
    [.warning "config.checkpoints" ("race " ++ debug config.race.name ++
      " has no finish or lap checkpoint; nothing will ever complete")]

/-- Whether there are several finishes. -/
def finishCheck (config : RaceConfig) : List Finding :=
  let finishes := countKind config.checkpoints .finish
  if 1 < finishes then
    [.error "scoring.finish" ("race " ++ debug config.race.name ++ " has " ++ toString finishes ++
      " finish checkpoints; scoring needs exactly one, and choosing between them arbitrarily " ++
      "would silently decide which line counted")]
  else []

/-- Whether there are several starts, or none where one is measured from. -/
def startCheck (config : EventConfig) : List Finding :=
  let race := config.config.race
  let starts := countKind config.config.checkpoints .start
  if 1 < starts then
    [.error "scoring.start" ("race " ++ debug race.name ++ " has " ++ toString starts ++
      " start checkpoints; scoring needs exactly one")]
  else if config.startMode = .chip ∧ starts = 0 then
    [.error "scoring.start" ("race " ++ debug race.name ++ " is scored on chip time but has no " ++
      "start checkpoint to measure from; add one, or switch to `--start-mode gun`")]
  else []

/-- Whether there is a gun where one is measured from. -/
def gunCheck (config : EventConfig) : List Finding :=
  if config.startMode = .gun ∧ config.config.gunTime = none then
    [.warning "scoring.gun" ("race " ++ debug config.config.race.name ++ " is scored from the " ++
      "gun, but no start has been recorded and it has no scheduled start; finishers will have " ++
      "no time until one exists")]
  else []

/-- Whether there is a roster. -/
def rosterCheck (config : RaceConfig) : List Finding :=
  if config.participants = [] then
    [.warning "config.roster" ("race " ++ debug config.race.name ++ " has no roster; every " ++
      "crossing will be unassigned")]
  else []

/-- Whether one chip is assigned twice at one instant. -/
def overlapCheck (config : RaceConfig) : List Finding :=
  match config.chips with
  | .ok _ => []
  | .error error => [.error "config.chips" (domainErrorText error)]

/-- Whether somebody has no chip. -/
def chipCheck (config : RaceConfig) : List Finding :=
  let unassigned := (config.participants.filter fun participant =>
    !config.assignments.any fun assignment => assignment.participant = participant.id).map
      fun participant => participant.bib.text
  if unassigned = [] then []
  else
    [.warning "config.chips" ("race " ++ debug config.race.name ++ ": " ++
      toString unassigned.length ++ " entrant(s) have no chip and cannot be timed (" ++
      ", ".intercalate (unassigned.take 10) ++
      (if 10 < unassigned.length then ", …" else "") ++ ")")]

/-- Whether any antenna covers anything. -/
def antennaCheck (config : RaceConfig) : List Finding :=
  if config.antennas.isEmpty then
    [.error "config.readers" ("race " ++ debug config.race.name ++ " has no antenna mapped to a " ++
      "checkpoint; every read will be rejected as unmapped")]
  else []

/-- The first reader of the journal that covers nothing. -/
def sourceCheck (summary : JournalSummary) (config : RaceConfig) : List Finding :=
  match summary.sources.find? fun source =>
      (config.antennas.resolve source.reader source.antenna).isNone with
  | none => []
  | some source =>
      [.error "config.readers" ("reader " ++ debug source.reader.text ++ " (antenna " ++
        (source.antenna.map fun antenna => toString antenna.toNat).getD "none" ++
        ") has reads in the journal but is not mapped to any checkpoint of race " ++
        debug config.race.name)]

/-- Whether there is anything to measure gun times from. -/
def gunTimeCheck (config : RaceConfig) : List Finding :=
  if config.gunTime = none then
    [.warning "config.gun_time" ("race " ++ debug config.race.name ++ " has neither a scheduled " ++
      "start nor a recorded one; gun time scoring will have nothing to measure from")]
  else []

/-- The checks of one race, and what each of them finds. -/
def raceChecks (summary : JournalSummary) (config : EventConfig) : List (List Finding) :=
  let race := config.config
  [checkpointCheck debug race, finishCheck debug race, startCheck debug config,
    gunCheck debug config, rosterCheck debug race, overlapCheck race, chipCheck debug race,
    antennaCheck debug race, sourceCheck debug summary race, gunTimeCheck debug race]

/-- What is found about one race. -/
def raceFindings (summary : JournalSummary) (config : EventConfig) : List Finding :=
  (raceChecks debug summary config).flatten

end Races

/-! ## The report -/

/-- Whether there is any race. -/
def raceCheck (configs : List EventConfig) : List Finding :=
  if configs.isEmpty then
    [.warning "config.race" "no races are configured; `splitforge race create` is the next step"]
  else []

/-- The reads that were taken under a clock without a source. -/
def untrustedCheck (summary : JournalSummary) : List Finding :=
  counted .warning "clock.device" "" summary.untrustedClockReads
    (" read(s) were taken while the device clock had no trustworthy source; results timed by " ++
      "them are published flagged `untrusted_device_clock`")

/-- `doctor`: checks that the database and its configuration are sound. -/
def doctor (debug : String → String) (isIpAddr : String → Bool) (answers : Answers)
    (summary : JournalSummary) (configs : List EventConfig) : Except StorageError DoctorReport := do
  let integrity ← answers.integrity
  let foreignKeys ← answers.foreignKeys
  let differences ← answers.schemaDifferences
  let space ← spaceCheck answers
  let sidecar ← answers.survey
  let steps ← stepCheck answers
  let checks :=
    [integrity.map (.error "database.integrity"), foreignKeys.map (.error "database.foreign_keys"),
      differences.map (.error "database.schema"), space, sidecarCheck sidecar, steps,
      sequenceCheck summary, raceCheck configs] ++
    configs.flatMap (raceChecks debug summary) ++
    [untrustedCheck summary, findingsFor isIpAddr answers.clock]
  let findings := checks.flatten
  let errors := findings.countP fun finding => finding.severity = "error"
  -- a report names the version of the schema, and is not made without it
  let _ ← answers.schemaVersion
  return {
    clockSource := .of isIpAddr answers.clock
    checksRun := checks.length
    errors
    warnings := findings.length - errors
    findings }

end Splitforge.Cli
