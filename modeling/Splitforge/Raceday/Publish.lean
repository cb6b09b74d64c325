import Splitforge.Raceday.Course

/-!
# What is published

The documents that RaceDay Connect is sent, built from what was derived: the course, every
runner's crossings and which runners they changed for, the batches that restate those runners, and
published revisions with each runner's splits.
-/

namespace Splitforge.Raceday

open Std (ExtTreeMap)
open Splitforge.Domain Splitforge.Library

/-- Why a document could not be built. -/
inductive PublishError (Metres : Type) where
  | courseMismatch (race course : RaceId)
  | invalidKey (key : String)
  | duplicateKey (key : String)
  | noDistance (race : RaceId)
  | splitUnplaced (race : RaceId) (checkpoint : String)
  | splitOffCourse (race : RaceId) (checkpoint : String) (meters lap : Metres)
  | pointKeyCollision (race : RaceId) (first second key : String)
  | tooManyEntries (count : Nat)
  | bibTooLong (bib : String)
deriving DecidableEq

/-! ## Mats -/

/-- `trim_end_matches('-')`. -/
def trimHyphens (key : List Char) : List Char :=
  (key.reverse.dropWhile (· = '-')).reverse

/-- One character of a name, in the key of the mat: letters and digits are kept in lower case, and
anything else becomes a single hyphen. -/
def pushKey (key : List Char) (c : Char) : List Char :=
  if c.isAlphanum then key ++ [c.toLower]
  else if key ≠ [] ∧ key.getLast? ≠ some '-' then key ++ ['-']
  else key

/-- `point_key`: the key a checkpoint publishes as. -/
@[irreducible]
def pointKey (name : String) : String :=
  let key := trimHyphens ((trimHyphens (name.toList.foldl pushKey [])).take maxKeyLen)
  if key = [] then "point" else String.ofList key

/-- `laps`. -/
def laps (config : RaceConfig) : UInt16 :=
  if config.race.expectedLaps = 0 then 1 else config.race.expectedLaps

/-- A mat, where it sits, and what role it plays. -/
structure Placed (Metres : Type) where
  point : TimingPoint Metres
  kind : CheckpointKind
  sequence : UInt16

section Documents

variable {Metres : Type} [Meters Metres]

/-- How far along the lap a checkpoint sits. -/
def position (race : RaceId) (course : Course Metres) (lap : Metres) (checkpoint : Checkpoint) :
    Except (PublishError Metres) Metres :=
  match checkpoint.kind with
  | .start => .ok Meters.zero
  | .finish | .lap => .ok lap
  | .split =>
      match course.splits[checkpoint.name]? with
      | none => .error (.splitUnplaced race checkpoint.name)
      | some meters =>
          if Meters.isFinite meters && Meters.le Meters.zero meters && Meters.le meters lap then
            .ok meters
          else .error (.splitOffCourse race checkpoint.name meters lap)

/-- One checkpoint of `points`: the checkpoints by key so far, and the mats placed so far. -/
def addPoint (race : RaceId) (course : Course Metres) (lap : Metres)
    (state : ExtTreeMap String Checkpoint × ExtTreeMap CheckpointId (Placed Metres))
    (checkpoint : Checkpoint) :
    Except (PublishError Metres)
      (ExtTreeMap String Checkpoint × ExtTreeMap CheckpointId (Placed Metres)) := do
  let meters ← position race course lap checkpoint
  let key := pointKey checkpoint.name
  match state.1[key]? with
  | some first => .error (.pointKeyCollision race first.name checkpoint.name key)
  | none =>
      .ok (state.1.insert key checkpoint,
        state.2.insert checkpoint.id
          ⟨⟨key, checkpoint.name, meters⟩, checkpoint.kind, checkpoint.sequence⟩)

/-- `points`: this race's mats, placed on the course. -/
def points (config : RaceConfig) (course : Course Metres) :
    Except (PublishError Metres) (ExtTreeMap CheckpointId (Placed Metres)) := do
  if course.race ≠ config.race.id then
    .error (.courseMismatch config.race.id course.race)
  else if trim course.key ≠ course.key ∨ course.key.length = 0 ∨ maxKeyLen < course.key.length then
    .error (.invalidKey course.key)
  else if (Meters.isFinite course.meters && Meters.lt Meters.zero course.meters) = false then
    .error (.noDistance config.race.id)
  else
    let lap := Meters.divide course.meters (Meters.ofLaps (laps config))
    let (_, placed) ← config.checkpoints.foldlM (addPoint config.race.id course lap) (∅, ∅)
    .ok placed

/-- `in_course_order`: along the course, and by the operator's sequence where two mats share a
position. -/
def inCourseOrder (points : ExtTreeMap CheckpointId (Placed Metres)) : List (TimingPoint Metres) :=
  (sortByKey (fun placed => toLex (Meters.totalKey placed.point.meters, placed.sequence.toNat))
    (points.toList.map Prod.snd)).map Placed.point

/-- One race of `manifest`: the keys so far, and the distances so far. -/
def addDistance (state : List String × List (Distance Metres))
    (race : RaceConfig × Course Metres) :
    Except (PublishError Metres) (List String × List (Distance Metres)) := do
  let (config, course) := race
  if course.key ∈ state.1 then .error (.duplicateKey course.key)
  else
    let placed ← points config course
    .ok (state.1 ++ [course.key], state.2 ++ [{
      key := course.key
      name := config.race.name
      meters := course.meters
      gunAt := config.gunTime
      timingPoints := inCourseOrder placed
      laps := laps config }])

/-- `manifest`: the course document for every race published to one RaceDay Connect race. -/
def manifest (races : List (RaceConfig × Course Metres)) :
    Except (PublishError Metres) (Manifest Metres) := do
  let (_, distances) ← races.foldlM addDistance ([], [])
  .ok ⟨distances⟩

/-! ## Crossings -/

/-- Why a timing event was not published. -/
inductive SkipReason where
  | beforeTheGun | unknownParticipant | bibTooLong
deriving DecidableEq

/-- A timing event that was not published. -/
structure Skipped where
  event : TimingEventId
  reason : SkipReason
deriving DecidableEq

/-- Every runner's crossings in one race, and the ones that cannot be published. -/
structure Crossings where
  runners : ExtTreeMap RunnerRef (List Crossing)
  skipped : List Skipped

/-- `elapsed_ms`: milliseconds from one instant to another, floored at zero. -/
def elapsedMs (start finish : OffsetDateTime) : Option Int :=
  let elapsed := max (finish - start).wholeMilliseconds 0
  if elapsed < 2 ^ 63 then some elapsed else none

/-- Text, unless there is nothing but white space in it. -/
def unlessBlank (text : String) : Option String :=
  if trim text = "" then none else some text

/-- One event of `crossings`. -/
def addCrossing (config : RaceConfig) (course : Course Metres)
    (points : ExtTreeMap CheckpointId (Placed Metres)) (out : Crossings) (event : TimingEvent) :
    Crossings :=
  match points[event.checkpoint]? with
  -- another race's mat
  | none => out
  | some placed =>
      if event.lap = 0 then { out with skipped := out.skipped ++ [⟨event.id, .beforeTheGun⟩] }
      else
        match config.participants.reverse.find? fun other => other.id = event.participant with
        | none => { out with skipped := out.skipped ++ [⟨event.id, .unknownParticipant⟩] }
        | some participant =>
            let bib := participant.bib.text
            if maxBibLen < bib.length then
              { out with skipped := out.skipped ++ [⟨event.id, .bibTooLong⟩] }
            else
              { out with runners := push out.runners ⟨course.key, bib⟩ {
                  distanceKey := course.key
                  pointKey := placed.point.key
                  bib
                  name := unlessBlank participant.name
                  elapsedMs := config.gunTime.bind fun gun => elapsedMs gun event.at
                  crossedAt := event.at
                  lap := event.lap } }

/-- The order of a runner's crossings. -/
def crossingKey (crossing : Crossing) : OffsetDateTime ×ₗ Nat ×ₗ String :=
  toLex (crossing.crossedAt, toLex (crossing.lap.toNat, crossing.pointKey))

/-- `crossings`: every runner's publishable crossings in one race. -/
def crossings (config : RaceConfig) (course : Course Metres) (events : List TimingEvent) :
    Except (PublishError Metres) Crossings := do
  let placed ← points config course
  let out := events.foldl (addCrossing config course placed) ⟨∅, []⟩
  .ok { out with runners := out.runners.map fun _ list => sortByKey crossingKey list }

/-- `changed`: the runners whose crossings differ between what was last sent and what is true now,
including runners who have none any more. -/
def changed (sent now : ExtTreeMap RunnerRef (List Crossing)) : List RunnerRef :=
  sortByKey id
    ((now.toList.filter fun entry => sent[entry.1]? ≠ some entry.2).map Prod.fst ++
      sent.keys.filter fun runner => !now.contains runner)

/-- One runner of `batches`: the batches so far, and the one being filled. A runner is never split
across two of them. -/
def addRunner (now : ExtTreeMap RunnerRef (List Crossing)) (max : Nat)
    (state : List CrossingsBatch × CrossingsBatch) (runner : RunnerRef) :
    List CrossingsBatch × CrossingsBatch :=
  let (out, batch) := state
  let theirs := now[runner]?.getD []
  let full := max ≤ batch.replaces.length ∨ max < batch.crossings.length + theirs.length
  if full ∧ batch.replaces ≠ [] then (out ++ [batch], ⟨theirs, [runner]⟩)
  else (out, ⟨batch.crossings ++ theirs, batch.replaces ++ [runner]⟩)

/-- `batches`: batches that restate each of the runners in full. -/
def batches (now : ExtTreeMap RunnerRef (List Crossing)) (runners : List RunnerRef) (max : Nat) :
    List CrossingsBatch :=
  let (out, batch) := runners.foldl (addRunner now (if max = 0 then 1 else max)) ([], ⟨[], []⟩)
  if batch.replaces = [] then out else out ++ [batch]

/-! ## Revisions -/

/-- The event that an identifier of an entry stands for, when it is a crossing of a split on a lap
of the race. -/
def splitEvent (points : ExtTreeMap CheckpointId (Placed Metres))
    (events : ExtTreeMap TimingEventId TimingEvent) (id : TimingEventId) : Option TimingEvent := do
  let event ← events[id]?
  let placed ← points[event.checkpoint]?
  if placed.kind ≠ .split ∨ event.lap = 0 then none else some event

/-- The order that a runner's crossings of one mat are compared in. -/
def lapOrder (event : TimingEvent) : Nat ×ₗ OffsetDateTime :=
  toLex (event.lap.toNat, event.at)

/-- The event held for a mat, when another one is seen there: the greater, the first of two that
are equal. -/
def keepLast (held : Option TimingEvent) (event : TimingEvent) : TimingEvent :=
  match held with
  | none => event
  | some held => if lapOrder held < lapOrder event then event else held

/-- `splits`: one for each split, at the last lap it read the runner. -/
def splits (entry : ResultEntry) (basis : OffsetDateTime)
    (points : ExtTreeMap CheckpointId (Placed Metres))
    (events : ExtTreeMap TimingEventId TimingEvent) : List Split :=
  let last := accumulate keepLast (fun event => some event.checkpoint)
    (entry.timingEvents.filterMap (splitEvent points events))
  let out := last.toList.filterMap fun (checkpoint, event) => do
    let placed ← points[checkpoint]?
    let elapsed ← elapsedMs basis event.at
    some (placed.point.meters, (⟨placed.point.key, elapsed⟩ : Split))
  (sortByKey (fun split => toLex (Meters.totalKey split.1, split.2.pointKey)) out).map Prod.snd

/-- The instant that a runner's splits are measured from. -/
def basisOf (policy : ScoringPolicy) (entry : ResultEntry) : Option OffsetDateTime :=
  match policy.startMode with
  | .chip => entry.startAt.or policy.gunTime
  | .gun => policy.gunTime

/-- The row of one entry. -/
def rowOf (course : Course Metres) (policy : ScoringPolicy)
    (points : ExtTreeMap CheckpointId (Placed Metres))
    (events : ExtTreeMap TimingEventId TimingEvent) (entry : ResultEntry) :
    Except (PublishError Metres) ResultRow :=
  let bib := entry.bib.text
  if maxBibLen < bib.length then .error (.bibTooLong bib)
  else .ok {
    distanceKey := course.key
    bib
    name := (unlessBlank entry.name).getD ("Bib " ++ bib)
    status := entry.status.asStr
    overallPlace := entry.place
    gunMs := entry.gunTimeMs
    chipMs := entry.chipTimeMs
    splits := match basisOf policy entry with
      | some basis => splits entry basis points events
      | none => [] }

/-- `revision`: one published revision, as a revision of this race's distance. -/
def revision (newV5 : Uuid → String → Uuid) (config : RaceConfig) (course : Course Metres)
    (revision : ResultRevision) (events : List TimingEvent) :
    Except (PublishError Metres) ResultsRevision := do
  if revision.race ≠ course.race then .error (.courseMismatch revision.race course.race)
  else
    let placed ← points config course
    if maxEntriesPerRevision < revision.entries.length then
      .error (.tooManyEntries revision.entries.length)
    else
      let events := events.foldl (fun events event => events.insert event.id event) ∅
      let entries ← revision.entries.mapM (rowOf course revision.policy placed events)
      .ok {
        revision := revision.number
        status := revision.status.asStr
        note := unlessBlank revision.reason
        publishedAt := revision.generatedAt
        distanceKey := course.key
        digest := revision.digest newV5
        entries }

end Documents

end Splitforge.Raceday
