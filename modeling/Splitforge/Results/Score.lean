import Splitforge.Domain.Result
import Splitforge.Library.Grouping
import Splitforge.Library.Sorting
import Mathlib.Data.Int.ConditionallyCompleteOrder

/-!
# Scoring

Timing events, a roster, operator declarations and a policy become result entries. Each
participant's line is built from their crossings of the start and the finish, the finishers are
placed by time, and the lines are put in the order of a results sheet.
-/

namespace Splitforge.Results

open Std (ExtTreeMap)
open Splitforge.Domain Splitforge.Library

/-- Why a race could not be scored at all. -/
inductive ScoringError where
  | noFinishCheckpoint
  | multipleFinishCheckpoints (count : Nat) (names : String)
  | multipleStartCheckpoints (count : Nat) (names : String)
  | chipTimeWithoutStartCheckpoint
deriving DecidableEq

/-- Everything `score` needs. -/
structure ScoringInput where
  participants : List Participant
  checkpoints : List Checkpoint
  timingEvents : List TimingEvent
  declarations : List StatusDeclaration
  policy : ScoringPolicy

/-! ## The course -/

/-- `sole_checkpoint`: the one checkpoint of a kind, or a report that there are several. -/
def soleCheckpoint (checkpoints : List Checkpoint) (kind : CheckpointKind) :
    Except ScoringError (Option CheckpointId) :=
  match sortByKey (fun checkpoint => checkpoint.sequence.toNat)
      (checkpoints.filter fun checkpoint => checkpoint.kind = kind) with
  | [] => .ok none
  | [only] => .ok (some only.id)
  | several =>
      let count := several.length
      let names := ", ".intercalate (several.map (·.name))
      .error (match kind with
        | .finish => .multipleFinishCheckpoints count names
        | _ => .multipleStartCheckpoints count names)

/-- The finish and the start of the course, as `score` finds them before it scores anybody. -/
def courseLines (checkpoints : List Checkpoint) (startMode : StartMode) :
    Except ScoringError (CheckpointId × Option CheckpointId) := do
  match ← soleCheckpoint checkpoints .finish with
  | none => .error .noFinishCheckpoint
  | some finish =>
      let start ← soleCheckpoint checkpoints .start
      if startMode = .chip ∧ start = none then .error .chipTimeWithoutStartCheckpoint
      else .ok (finish, start)

/-! ## Crossings -/

/-- `is_manual`: whether an operator entered this event rather than a chip producing it. -/
def isManual (event : TimingEvent) : Bool :=
  match event.origin with
  | .manual _ => true
  | .acceptedRead _ => false

/-- The order of the events of one checkpoint: by time, then by identifier. -/
def order (event : TimingEvent) : OffsetDateTime ×ₗ TimingEventId :=
  toLex (event.at, event.id)

/-- Whether an event came before the gun. -/
def isBeforeGun (gun : Option OffsetDateTime) (event : TimingEvent) : Bool :=
  gun.any fun gun => event.at < gun

/-- One participant's crossings of one checkpoint, by whether they count: the earliest at or after
the gun, the latest before it, and the earliest chip crossing at or after it. -/
structure Crossings where
  counted : Option TimingEvent
  beforeGun : Option TimingEvent
  countedChip : Option TimingEvent

/-- `Crossings::default`. -/
def Crossings.empty : Crossings :=
  ⟨none, none, none⟩

/-- `Crossings::add`. -/
def Crossings.add (gun : Option OffsetDateTime) (crossings : Crossings) (event : TimingEvent) :
    Crossings :=
  if isBeforeGun gun event then
    -- before the gun the latest is kept, and from the gun on the earliest
    if crossings.beforeGun.all fun held => order held < order event then
      { crossings with beforeGun := some event }
    else crossings
  else
    let counted :=
      if crossings.counted.all fun held => order event < order held then some event
      else crossings.counted
    let countedChip :=
      if !isManual event && crossings.countedChip.all fun held => order event < order held then
        some event
      else crossings.countedChip
    { crossings with counted, countedChip }

/-- `Crossings::manual_flags`: the flags saying the event used from this checkpoint was typed, and
whether a chip crossing was passed over for it. -/
def Crossings.manualFlags (crossings : Crossings) (used : Option TimingEvent)
    (manual overChip : ResultFlag) : List ResultFlag :=
  match used.filter isManual with
  | none => []
  | some used =>
      let usedIsCounted := crossings.counted.any fun counted => counted.id = used.id
      manual :: if usedIsCounted && crossings.countedChip.isSome then [overChip] else []

/-- Every participant's crossings of every checkpoint. -/
def crossingsOf (gun : Option OffsetDateTime) (events : List TimingEvent) :
    ExtTreeMap (ParticipantId ×ₗ CheckpointId) Crossings :=
  accumulate (fun crossings event => (crossings.getD .empty).add gun event)
    (fun event => some (toLex (event.participant, event.checkpoint))) events

/-- Who started: whoever was at the start line, or anywhere on the course once the race was on. -/
def startedOf (gun : Option OffsetDateTime) (start : Option CheckpointId)
    (events : List TimingEvent) : ExtTreeMap ParticipantId Unit :=
  accumulate (fun _ _ => ())
    (fun event =>
      let duringTheRace := gun.all fun gun => gun ≤ event.at
      let atTheStartLine := start = some event.checkpoint
      if duringTheRace ∨ atTheStartLine then some event.participant else none) events

/-- `latest_declarations`: the declaration in force for each participant. -/
def latestDeclarations (declarations : List StatusDeclaration) :
    ExtTreeMap ParticipantId StatusDeclaration :=
  accumulate (fun held declaration => match held with
    | none => declaration
    | some held => if held.seq < declaration.seq then declaration else held)
    (fun declaration => some declaration.participant) declarations

/-! ## One line -/

/-- `elapsed_ms`: milliseconds between two instants. -/
def elapsedMs (start finish : OffsetDateTime) : Int :=
  i64OrMax (finish - start).wholeMilliseconds

/-- When a participant started, the event that says so, and the flag for a start that came from
the gun rather than from the mat. -/
def startOf (atStart : Crossings) (gun : Option OffsetDateTime) :
    Option OffsetDateTime × Option TimingEvent × List ResultFlag :=
  match atStart.counted, atStart.beforeGun, gun with
  | some event, _, _ => (some event.at, some event, [])
  -- somebody on the line before the gun was there when the race started
  | none, some event, some gun => (some gun, some event, [.startReadBeforeGun])
  | _, _, _ => (none, none, [])

/-- The measured time placement uses, and the flags for what was missing. -/
def measuredTime (startMode : StartMode) (finishAt : Option OffsetDateTime)
    (gunTimeMs chipTimeMs : Option Int) : Option Int × List ResultFlag :=
  let withoutGun := if gunTimeMs = none then [.noGunTime] else []
  if finishAt = none then (none, [])
  else match startMode, chipTimeMs with
    | .gun, _ => (gunTimeMs, withoutGun)
    | .chip, some chip => (some chip, [])
    | .chip, none => (gunTimeMs, .noStartReadUnderChipTime :: withoutGun)

/-- How a participant's race ended, where that comes from, and why. -/
def statusOf (declaration : Option StatusDeclaration) (finishAt : Option OffsetDateTime)
    (started : Bool) : ResultStatus × StatusSource × Option String :=
  match declaration with
  | some declaration => (declaration.status, .declared, some declaration.reason)
  | none =>
      let derived :=
        if finishAt.isSome then .finished
        else if started then .dnf
        else .dns
      (derived, .derived, none)

/-- `build_entry`: one participant's line, before placement. -/
def buildEntry (participant : Participant) (atStart atFinish : Crossings) (started : Bool)
    (declaration : Option StatusDeclaration) (policy : ScoringPolicy) : ResultEntry :=
  let (startAt, startEvent, startFlags) := startOf atStart policy.gunTime
  let finishEvent := atFinish.counted
  let finishAt := finishEvent.map (·.at)
  let gunTimeMs := policy.gunTime.bind fun gun => finishAt.map (elapsedMs gun)
  let chipTimeMs := startAt.bind fun start => finishAt.map (elapsedMs start)
  let (measured, timeFlags) := measuredTime policy.startMode finishAt gunTimeMs chipTimeMs
  let impossible := measured.any (· < 0)
  let (status, statusSource, statusReason) := statusOf declaration finishAt started
  { participant := participant.id
    bib := participant.bib
    name := participant.name
    status
    statusSource
    statusReason
    startAt
    finishAt
    gunTimeMs
    chipTimeMs
    -- a finish before the start it is measured from is reported, not published
    scoringTimeMs := if impossible then none else measured
    place := none
    flags := startFlags ++
      atStart.manualFlags startEvent .manualStart .manualStartOverChip ++
      atFinish.manualFlags finishEvent .manualFinish .manualFinishOverChip ++
      (if finishEvent = none ∧ atFinish.beforeGun.isSome then [.finishReadBeforeGun] else []) ++
      timeFlags ++
      (if impossible then [.finishBeforeStart] else []) ++
      (if status = .finished ∧ statusSource = .declared ∧ finishAt = none then
        [.declaredFinishedWithoutFinishRead] else [])
    timingEvents := [startEvent, finishEvent].filterMap fun event => event.map (·.id) }

/-! ## Places -/

/-- `str::parse::<u64>`: decimal digits that fit 64 bits, after an optional plus sign. -/
def parseU64 (text : String) : Option Nat :=
  let digits := match text.toList with
    | '+' :: digits => digits
    | digits => digits
  let number := Nat.ofDigitChars 10 digits 0
  if digits ≠ [] ∧ digits.all Char.isDigit ∧ number < 2 ^ 64 then some number else none

/-- `bib_order`: numeric bibs numerically, and everything else lexicographically behind them. -/
def bibOrder (bib : Bib) : Nat ×ₗ Nat ×ₗ String :=
  match parseU64 bib.text with
  | some number => toLex (0, toLex (number, bib.text))
  | none => toLex (1, toLex (0, bib.text))

/-- The greatest `u32`. -/
def u32Max : Nat := 2 ^ 32 - 1

/-- Whether an entry competes for a place. -/
def isPlaceable (entry : ResultEntry) : Bool :=
  entry.status.isPlaced && entry.scoringTimeMs.isSome

/-- The scoring time in the order of `Option`: no time is less than any. -/
def scoringTime (entry : ResultEntry) : WithBot Int :=
  entry.scoringTimeMs

/-- The order places are given in: by time, then by bib, then by participant. -/
def placingKey (entry : ResultEntry) :
    WithBot Int ×ₗ (Nat ×ₗ Nat ×ₗ String) ×ₗ ParticipantId :=
  toLex (scoringTime entry, toLex (bibOrder entry.bib, entry.participant))

/-- The loop of `assign_places`: the entries, and the last place given and the time it was given
for. -/
structure Placing where
  entries : List ResultEntry
  place : Nat
  previousTime : Option Int

/-- One entry of `assign_places`, with its index and its offset in the order of times. Equal times
share a place, and the shared places are consumed. -/
def Placing.next (placing : Placing) (placeable : (ResultEntry × Nat) × Nat) : Placing :=
  let ((entry, index), offset) := placeable
  let time := entry.scoringTimeMs
  let place :=
    if placing.previousTime = time then placing.place
    else min (min offset u32Max + 1) u32Max
  { entries := placing.entries.modify index fun entry => { entry with place := some place }
    place
    previousTime := time }

/-- `assign_places`: overall places by scoring time. -/
def assignPlaces (entries : List ResultEntry) : List ResultEntry :=
  let placeable := sortByKey (fun indexed => placingKey indexed.1)
    (entries.zipIdx.filter fun indexed => isPlaceable indexed.1)
  (placeable.zipIdx.foldl Placing.next ⟨entries, 0, none⟩).entries

/-- The order of a results sheet: by place, then whoever has none, by status, bib and
participant. -/
def publicationKey (entry : ResultEntry) :
    Bool ×ₗ Nat ×ₗ ResultStatus ×ₗ (Nat ×ₗ Nat ×ₗ String) ×ₗ ParticipantId :=
  -- `false` comes first, so whoever has a place does
  toLex (entry.place.isNone, toLex (entry.place.getD 0,
    toLex (entry.status, toLex (bibOrder entry.bib, entry.participant))))

/-- `sort_for_publication`: finishers by place, then everyone else. -/
def sortForPublication (entries : List ResultEntry) : List ResultEntry :=
  sortByKey publicationKey entries

/-! ## Scoring -/

/-- A participant's crossings of a line, none where there is no line or they were not seen. -/
def crossingsAt (crossings : ExtTreeMap (ParticipantId ×ₗ CheckpointId) Crossings)
    (participant : ParticipantId) (line : Option CheckpointId) : Crossings :=
  (line.bind fun line => crossings[toLex (participant, line)]?).getD .empty

/-- The lines of all participants, before placement. -/
def buildEntries (input : ScoringInput) (finish : CheckpointId) (start : Option CheckpointId) :
    List ResultEntry :=
  let crossings := crossingsOf input.policy.gunTime input.timingEvents
  let started := startedOf input.policy.gunTime start input.timingEvents
  let declared := latestDeclarations input.declarations
  input.participants.map fun participant =>
    buildEntry participant (crossingsAt crossings participant.id start)
      (crossingsAt crossings participant.id (some finish)) (started.contains participant.id)
      declared[participant.id]? input.policy

/-- `score`: result entries from timing events, a roster, declarations and a policy. -/
def score (input : ScoringInput) : Except ScoringError (List ResultEntry) := do
  let (finish, start) ← courseLines input.checkpoints input.policy.startMode
  .ok (sortForPublication (assignPlaces (buildEntries input finish start)))

end Splitforge.Results
