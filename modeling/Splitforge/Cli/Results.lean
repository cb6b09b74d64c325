import Splitforge.Domain.Revision
import Splitforge.Raceday.Course
import Splitforge.Results.Clock
import Splitforge.Results.Score

/-!
# Publishing and comparing results

A publication scores the race and writes the scored rows as a revision, unless they are those of
the latest revision, which it tells by their digests. A comparison pairs the rows of two revisions
by participant, in both directions.
-/

namespace Splitforge.Cli

open Splitforge.Domain Splitforge.Library Splitforge.Results Splitforge.Raceday

/-! ## The result store -/

/-- A published revision, and who published it. -/
structure RevisionRow where
  revision : ResultRevision
  actor : String

/-- The revisions of all races, as they were published. -/
structure ResultStore where
  rows : List RevisionRow

/-- The revisions of a race. -/
def ResultStore.ofRace (store : ResultStore) (race : RaceId) : List RevisionRow :=
  store.rows.filter fun row => row.revision.race = race

/-- `SELECT MAX(number) FROM result_revisions WHERE race_id = ..`. -/
def ResultStore.highest (store : ResultStore) (race : RaceId) : Option Nat :=
  (store.ofRace race).foldr (fun row most => some (max row.revision.number (most.getD 0))) none

/-- `ResultStore::next_revision_number`. -/
def ResultStore.nextRevisionNumber (store : ResultStore) (race : RaceId) : Nat :=
  min ((store.highest race).getD 0 + 1) u32Max

/-- `ResultStore::revision`: one revision by number. -/
def ResultStore.revision (store : ResultStore) (race : RaceId) (number : Nat) :
    Option ResultRevision :=
  ((store.ofRace race).find? fun row => row.revision.number = number).map (·.revision)

/-- `ResultStore::latest_revision`. -/
def ResultStore.latestRevision (store : ResultStore) (race : RaceId) : Option ResultRevision :=
  (store.highest race).bind (store.revision race)

/-- `ResultStore::publish`: one more revision, unless its number is taken. -/
def ResultStore.publish (store : ResultStore) (row : RevisionRow) : Except String ResultStore :=
  if (store.revision row.revision.race row.revision.number).isSome then
    .error "UNIQUE constraint failed: result_revisions.race_id, result_revisions.number"
  else .ok ⟨store.rows ++ [row]⟩

/-! ## Publishing -/

/-- `ResultRevision::entry`: one participant's line. -/
def entryOf (entries : List ResultEntry) (participant : ParticipantId) : Option ResultEntry :=
  entries.find? fun entry => entry.participant = participant

/-- How many entries hold a status. -/
def countOf (entries : List ResultEntry) (status : ResultStatus) : Nat :=
  entries.countP fun entry => entry.status = status

/-- Why a publication did not go through: an argument or the results speak against it, the race
cannot be scored, or the store did not take it. -/
inductive PublishError where
  | refused (text : String)
  | scoring (error : ScoringError)
  | storage (text : String)
deriving DecidableEq

/-- What a publication reports. -/
structure PublishView where
  revision : Nat
  status : String
  race : String
  reason : String
  digest : String
  entries : Nat
  finished : Nat
  dnf : Nat
  dns : Nat
  dq : Nat
  changed : Bool
  clockCaveats : Nat
deriving DecidableEq

/-- `scoreboard`, behind the derivation: the scored rows, with the flags of the clock on them. -/
def scoreboard (input : ScoringInput) (untrusted : List TimingEventId) (steps : List ClockStep) :
    Except ScoringError (List ResultEntry) :=
  match score input with
  | .error error => .error error
  | .ok entries => .ok (flagClock entries untrusted steps input.policy.gunTime)

/-- Whether a revision says something else than the one before it. -/
def isChanged (newV5 : Uuid → String → Uuid) (previous : Option ResultRevision)
    (digest : String) : Bool :=
  previous.all fun earlier => earlier.digest newV5 ≠ digest

/-- Whether the times of an entry are in doubt for the device's clock. -/
def hasClockCaveat (entry : ResultEntry) : Bool :=
  entry.flags.any fun flag => flag = .untrustedDeviceClock ∨ flag = .clockStepDuringResult

/-- What `publish` is told. -/
structure Publication where
  race : Race
  status : RevisionStatus
  actor : String
  reason : String
  allowUnchanged : Bool
  now : OffsetDateTime

/-- `publish`: scores the race and publishes the rows. -/
def publish (newV5 : Uuid → String → Uuid) (store : ResultStore) (publication : Publication)
    (input : ScoringInput) (untrusted : List TimingEventId) (steps : List ClockStep) :
    Except PublishError (ResultStore × PublishView) :=
  if trim publication.reason = "" then
    .error (.refused ("--reason must say something: a revision nobody can explain is one " ++
      "nobody can defend"))
  else
    match scoreboard input untrusted steps with
    | .error error => .error (.scoring error)
    | .ok entries =>
        let race := publication.race.id
        let number := store.nextRevisionNumber race
        let revision : ResultRevision :=
          { race, number
            status := publication.status
            generatedAt := publication.now
            reason := publication.reason
            policy := input.policy
            entries }
        let digest := revision.digest newV5
        let previous := store.latestRevision race
        let changed := isChanged newV5 previous digest
        if changed = false ∧ publication.allowUnchanged = false then
          .error (.refused ("these results are identical to revision " ++
            toString ((previous.map (·.number)).getD 0) ++
            "; publish anyway with --allow-unchanged"))
        else
          match store.publish ⟨revision, publication.actor⟩ with
          | .error text => .error (.storage text)
          | .ok store =>
              .ok (store,
                { revision := number
                  status := publication.status.asStr
                  race := publication.race.name
                  reason := publication.reason
                  digest
                  entries := entries.length
                  finished := countOf entries .finished
                  dnf := countOf entries .dnf
                  dns := countOf entries .dns
                  dq := countOf entries .dq
                  changed
                  clockCaveats := entries.countP hasClockCaveat })

/-! ## Comparing -/

/-- A number with zeros in front of it, up to a width. -/
def zeroPadded (width number : Nat) : String :=
  let digits := (toString number).toList
  String.ofList (List.replicate (width - digits.length) '0' ++ digits)

/-- `format_duration_ms`: a duration as `H:MM:SS.mmm`. -/
def formatDurationMs (totalMs : Int) : String :=
  let magnitude := totalMs.natAbs
  (if totalMs < 0 then "-" else "") ++ toString (magnitude / 3600000) ++ ":" ++
    zeroPadded 2 (magnitude / 60000 % 60) ++ ":" ++ zeroPadded 2 (magnitude / 1000 % 60) ++ "." ++
    zeroPadded 3 (magnitude % 1000)

/-- How one participant's line differs between two revisions. -/
structure ChangeView where
  bib : String
  name : String
  change : String
  statusFrom : Option String
  statusTo : Option String
  placeFrom : Option Nat
  placeTo : Option Nat
  timeFrom : Option String
  timeTo : Option String
  reason : Option String
deriving DecidableEq

/-- The difference between two revisions. -/
structure DiffView where
  race : String
  «from» : Nat
  «to» : Nat
  fromReason : String
  toReason : String
  changed : Nat
  unchanged : Nat
  changes : List ChangeView
deriving DecidableEq

/-- Whether a line says what an earlier one of the participant said. -/
def isUnchanged (before entry : ResultEntry) : Bool :=
  before.status = entry.status ∧ before.place = entry.place ∧
    before.scoringTimeMs = entry.scoringTimeMs

/-- A value, if it has changed. -/
def ifChanged {Value : Type} (changed : Bool) (value : Option Value) : Option Value :=
  if changed then value else none

/-- A line of the later revision against the earlier one, if they differ. -/
def changeOf (earlier : List ResultEntry) (entry : ResultEntry) : Option ChangeView :=
  match entryOf earlier entry.participant with
  | some before =>
      if isUnchanged before entry then none
      else
        let statusChanged := before.status ≠ entry.status
        let placeChanged := before.place ≠ entry.place
        let timeChanged := before.scoringTimeMs ≠ entry.scoringTimeMs
        some
          { bib := entry.bib.text
            name := entry.name
            change := if statusChanged then "status" else "placement"
            statusFrom := ifChanged statusChanged (some before.status.asStr)
            statusTo := ifChanged statusChanged (some entry.status.asStr)
            placeFrom := ifChanged placeChanged before.place
            placeTo := ifChanged placeChanged entry.place
            timeFrom := (ifChanged timeChanged before.scoringTimeMs).map formatDurationMs
            timeTo := (ifChanged timeChanged entry.scoringTimeMs).map formatDurationMs
            reason := entry.statusReason }
  | none =>
      some
        { bib := entry.bib.text
          name := entry.name
          change := "added"
          statusFrom := none
          statusTo := some entry.status.asStr
          placeFrom := none
          placeTo := entry.place
          timeFrom := none
          timeTo := entry.scoringTimeMs.map formatDurationMs
          reason := entry.statusReason }

/-- A line of the earlier revision whose participant is gone from the later one. -/
def removalOf (later : List ResultEntry) (entry : ResultEntry) : Option ChangeView :=
  match entryOf later entry.participant with
  | some _ => none
  | none =>
      some
        { bib := entry.bib.text
          name := entry.name
          change := "removed"
          statusFrom := some entry.status.asStr
          statusTo := none
          placeFrom := entry.place
          placeTo := none
          timeFrom := entry.scoringTimeMs.map formatDurationMs
          timeTo := none
          reason := none }

/-- `diff`: compares two revisions line by line. -/
def diff (store : ResultStore) (race : Race) (fromNumber toNumber : Nat) :
    Except String DiffView :=
  match store.revision race.id fromNumber with
  | none => .error (race.name ++ " has no revision " ++ toString fromNumber)
  | some earlier =>
      match store.revision race.id toNumber with
      | none => .error (race.name ++ " has no revision " ++ toString toNumber)
      | some later =>
          let changes := later.entries.filterMap (changeOf earlier.entries) ++
            earlier.entries.filterMap (removalOf later.entries)
          .ok
            { race := race.name
              «from» := fromNumber
              «to» := toNumber
              fromReason := earlier.reason
              toReason := later.reason
              changed := changes.length
              unchanged := later.entries.countP fun entry =>
                (changeOf earlier.entries entry).isNone
              changes }

end Splitforge.Cli
