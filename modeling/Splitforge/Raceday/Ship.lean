import Splitforge.Engine.Derive
import Splitforge.Library.Program
import Splitforge.Raceday.Publish
import Splitforge.Raceday.Transport

/-!
# The shipper

A process of its own that reads the event database and sends RaceDay Connect what it does not hold,
as far as the shipper's own database says. Each statement on that database is committed by itself,
so a pass is a program of statements and requests, and another process can pair the box again
between any two of them. Columns of JSON are modelled by what they encode, and the course by the
text that is stored and sent.
-/

namespace Splitforge.Raceday

open Std (ExtTreeMap)
open Splitforge.Domain Splitforge.Library Splitforge.Engine

/-! ## The shipper's database -/

/-- What pairing returned, with the address it was asked at: the row of `pairing`. -/
structure PairingRow where
  url : String
  raceId : String
  raceName : String
  slug : String
  token : String
deriving DecidableEq

/-- Where to send, and as whom. -/
structure Pairing where
  url : String
  raceId : String
  token : String
deriving DecidableEq

/-- The pairing that a row stores. -/
def PairingRow.pairing (row : PairingRow) : Pairing := ⟨row.url, row.raceId, row.token⟩

/-- How a revision was settled. -/
inductive RevisionOutcome where
  | delivered | refused
deriving DecidableEq

variable {Metres : Type}

/-- Revisions can be looked up by their race and number. -/
instance : Std.TransOrd (RaceId ×ₗ Nat) := inferInstance

/-- Crossings by their runner. -/
abbrev ByRunner := ExtTreeMap RunnerRef (List Crossing)

/-- `ship.db`: the pairing, the courses, what RaceDay Connect holds as far as the shipper knows, and
how delivery stands. -/
structure ShipDb (Metres : Type) where
  pairing : Option PairingRow
  courses : ExtTreeMap RaceId (Course Metres)
  sentManifest : Option (String × Bool)
  sentCrossings : ByRunner
  sentRevisions : ExtTreeMap (RaceId ×ₗ Nat) RevisionOutcome
  unpaired : Bool
  lastError : Option String

/-- A statement that changes the database. -/
inductive Statement (Metres : Type) where
  | storePairing (row : PairingRow)
  | clearManifest
  | clearCrossings
  | clearRevisions
  | clearDelivery
  | recordCourse (course : Course Metres)
  | recordManifest (json : String) (delivered : Bool)
  | recordRunner (runner : RunnerRef) (crossings : Option (List Crossing))
  | recordRevision (race : RaceId) (number : Nat) (outcome : RevisionOutcome)
  | unpair
  | note (problem : String)
  | finish (problem : Option String)

/-- Executes a statement. Only a revision that is recorded already makes one fail. -/
def ShipDb.execute (db : ShipDb Metres) : Statement Metres → Option (ShipDb Metres)
  | .storePairing row => some { db with pairing := some row }
  | .clearManifest => some { db with sentManifest := none }
  | .clearCrossings => some { db with sentCrossings := ∅ }
  | .clearRevisions => some { db with sentRevisions := ∅ }
  | .clearDelivery => some { db with unpaired := false, lastError := none }
  | .recordCourse course => some { db with courses := db.courses.insert course.race course }
  | .recordManifest json delivered => some { db with sentManifest := some (json, delivered) }
  | .recordRunner runner crossings => some { db with
      sentCrossings := match crossings with
        | some crossings => db.sentCrossings.insert runner crossings
        | none => db.sentCrossings.erase runner }
  | .recordRevision race number outcome =>
      if db.sentRevisions.contains (toLex (race, number)) then none
      else some { db with
        sentRevisions := db.sentRevisions.insert (toLex (race, number)) outcome }
  | .unpair => some { db with unpaired := true }
  | .note problem => some { db with lastError := some problem }
  | .finish problem => some { db with lastError := problem }

/-- A query of the database. -/
inductive Query where
  | paired
  | courses
  | sentManifest
  | sentCrossings
  | sentRevision (race : RaceId) (number : Nat)
deriving DecidableEq

/-- What a query returns. -/
def Query.Rows (Metres : Type) : Query → Type
  | .paired => Option Pairing
  | .courses => List (Course Metres)
  | .sentManifest => Option (String × Bool)
  | .sentCrossings => ByRunner
  | .sentRevision .. => Bool

/-- Answers a query. There is a pairing unless RaceDay Connect has said that there is none. -/
def ShipDb.select (db : ShipDb Metres) : (query : Query) → query.Rows Metres
  | .paired => if db.unpaired then none else db.pairing.map PairingRow.pairing
  | .courses => db.courses.values
  | .sentManifest => db.sentManifest
  | .sentCrossings => db.sentCrossings
  | .sentRevision race number => db.sentRevisions.contains (toLex (race, number))

/-! ## What a pass asks for -/

/-- A document that is sent. -/
inductive Document where
  | manifest (json : String)
  | crossings (batch : CrossingsBatch)
  | results (revision : ResultsRevision)
deriving DecidableEq

/-- What a pass asks its surroundings for. -/
inductive Op (Metres : Type) where
  | select (query : Query)
  | execute (statement : Statement Metres)
  | send (pairing : Pairing) (document : Document)

/-- What a pass is answered. -/
def Op.Answer : Op Metres → Type
  | .select query => query.Rows Metres
  | .execute _ => Unit
  | .send .. => Sent

/-- How a pass ended. -/
inductive Pass where
  | done
  | retry (after : Option Nat)
  | stopped
deriving DecidableEq

/-- Why a pass failed. -/
inductive ShipError (Metres : Type) where
  | event (error : String)
  | chips (error : DomainError)
  | address (url : String)
  | publish (error : PublishError Metres)
deriving DecidableEq

/-- A pass, as a program. A statement that fails ends it where it is. -/
abbrev Shipping (Metres : Type) :=
  Program (Op Metres) Op.Answer (Except (ShipError Metres) Pass)

/-- What is read from the event database in a pass. A revision is found by its race and number. -/
structure Event where
  reads : List StoredRawRead
  load : RaceId → Except String RaceConfig
  manualEntries : RaceId → List ManualEntry
  revisions : RaceId → List Nat
  revision : RaceId → Nat → Option ResultRevision
  found : ∀ race number published, revision race number = some published →
    published.race = race ∧ published.number = number

/-- What other crates compute for the shipper: named identifiers, the JSON of a course, and the text
of an error. -/
structure Crates (Metres : Type) where
  newV5 : Uuid → String → Uuid
  manifestJson : Manifest Metres → String
  display : PublishError Metres → String

/-! ## A pass -/

section Pass

variable [Meters Metres] (crates : Crates Metres)

/-- One race that is published: its configuration, its course, and its timing events. -/
structure Derived (Metres : Type) where
  config : RaceConfig
  course : Course Metres
  events : List TimingEvent

/-- Derives one published race. -/
def deriveRace (event : Event) (course : Course Metres) :
    Except (ShipError Metres) (Derived Metres) := do
  let config ← (event.load course.race).mapError .event
  let chips ← config.chips.mapError .chips
  let derivation := derive crates.newV5 {
    reads := event.reads
    policy := config.policy
    chips
    antennas := config.antennas
    manual := event.manualEntries course.race
    gunTime := config.gunTime }
  .ok ⟨config, course, derivation.timingEvents⟩

/-- Every runner's crossings now, one race after another. -/
def crossingsNow (derived : List (Derived Metres)) :
    Except (ShipError Metres) (ByRunner) :=
  derived.foldlM (fun now race => do
    let published ← (crossings race.config race.course race.events).mapError .publish
    .ok (published.runners.foldl (fun now runner list => now.insert runner list) now)) ∅

/-- `settle`: what an answer that ends the pass means. -/
def settle (sent : Sent) : Shipping Metres :=
  match sent.outcome with
  | .retry after =>
      .ask (.execute (.note ("will retry: " ++ sent.detail))) fun _ => .done (.ok (.retry after))
  | _ =>
      .ask (.execute .unpair) fun _ =>
      .ask (.execute (.note ("RaceDay Connect says this box is not paired; " ++
        "run `splitforge-ship pair`: " ++ sent.detail))) fun _ =>
      .done (.ok .stopped)

/-- `record_runner` for each runner that a batch restates. -/
def recordRunners (now : ByRunner) (rest : Shipping Metres) :
    List RunnerRef → Shipping Metres
  | [] => rest
  | runner :: runners =>
      .ask (.execute (.recordRunner runner now[runner]?)) fun _ => recordRunners now rest runners

/-- The loop over the batches. A refused batch is set aside with the delivered ones, and is the
problem reported unless there is a later one. -/
def sendBatches (pairing : Pairing) (now : ByRunner)
    (rest : Option String → Shipping Metres) : List CrossingsBatch → Option String → Shipping Metres
  | [], problem => rest problem
  | batch :: batches, problem =>
      .ask (.send pairing (.crossings batch)) fun sent : Sent =>
      match sent.outcome with
      | .delivered =>
          recordRunners now (sendBatches pairing now rest batches problem) batch.replaces
      | .refused =>
          let problem := "a batch of crossings was refused: " ++ sent.detail
          recordRunners now (sendBatches pairing now rest batches (some problem)) batch.replaces
      | _ => settle sent

/-- What a revision is, that a pass has to settle: its race and its number. -/
abbrev Owed (Metres : Type) := Derived Metres × Nat

/-- The loop over the revisions not yet delivered. One that cannot be published is set aside as
refused. -/
def sendRevisions (pairing : Pairing) (event : Event) :
    List (Owed Metres) → Option String → Shipping Metres
  | [], problem => .ask (.execute (.finish problem)) fun _ => .done (.ok .done)
  | (race, number) :: owed, problem =>
      .ask (.select (.sentRevision race.course.race number)) fun isDone : Bool =>
      if isDone then sendRevisions pairing event owed problem
      else match event.revision race.course.race number with
        | none => sendRevisions pairing event owed problem
        | some published =>
            match revision crates.newV5 race.config race.course published race.events with
            | .ok document =>
                .ask (.send pairing (.results document)) fun sent : Sent =>
                match sent.outcome with
                | .delivered =>
                    .ask (.execute (.recordRevision race.course.race number .delivered)) fun _ =>
                    sendRevisions pairing event owed problem
                | .refused =>
                    .ask (.execute (.recordRevision race.course.race number .refused)) fun _ =>
                    sendRevisions pairing event owed
                      (some ("revision " ++ toString number ++ " was refused: " ++ sent.detail))
                | _ => settle sent
            | .error error =>
                .ask (.execute (.recordRevision race.course.race number .refused)) fun _ =>
                sendRevisions pairing event owed
                  (some ("revision " ++ toString number ++ " cannot be published: " ++
                    crates.display error))

/-- The revisions of every published race, oldest first. -/
def owedRevisions (event : Event) (derived : List (Derived Metres)) : List (Owed Metres) :=
  derived.flatMap fun race => (event.revisions race.course.race).map fun number => (race, number)

/-- The part of `pass` behind the course: crossings, each changed runner restated whole, and then
the revisions. -/
def sendCrossings (pairing : Pairing) (event : Event) (derived : List (Derived Metres)) :
    Shipping Metres :=
  match crossingsNow derived with
  | .error error => .done (.error error)
  | .ok now =>
      .ask (.select .sentCrossings) fun sent : ByRunner =>
      sendBatches pairing now (sendRevisions crates pairing event (owedRevisions event derived))
        (batches now (changed sent now) maxCrossingsPerBatch) none

/-- The part of `pass` that sends the course, again when it changes. Nothing else is sent against
a course that was refused. -/
def sendManifest (pairing : Pairing) (event : Event) (derived : List (Derived Metres))
    (json : String) : Shipping Metres :=
  .ask (.select .sentManifest) fun last : Option (String × Bool) =>
  if last = some (json, true) then sendCrossings crates pairing event derived
  else if last = some (json, false) then .done (.ok .stopped)
  else
    .ask (.send pairing (.manifest json)) fun sent : Sent =>
    match sent.outcome with
    | .delivered =>
        .ask (.execute (.recordManifest json true)) fun _ =>
        sendCrossings crates pairing event derived
    | .refused =>
        .ask (.execute (.recordManifest json false)) fun _ =>
        .ask (.execute (.note ("the course was refused: " ++ sent.detail))) fun _ =>
        .done (.ok .stopped)
    | _ => settle sent

/-- What a pass derives: every published race, and the text of the course. -/
def deriveAll (event : Event) (courses : List (Course Metres)) :
    Except (ShipError Metres) (List (Derived Metres) × String) := do
  let derived ← courses.mapM (deriveRace crates event)
  let document ← (manifest (derived.map fun race => (race.config, race.course))).mapError .publish
  .ok (derived, crates.manifestJson document)

/-- `pass`: derives every published race, and sends what RaceDay Connect does not hold. -/
def pass (pairing : Pairing) (event : Event) : Shipping Metres :=
  .ask (.select .courses) fun courses : List (Course Metres) =>
  if courses.isEmpty then
    .ask (.execute (.note "no course recorded; run `splitforge-ship course`")) fun _ =>
    .done (.ok .stopped)
  else if isAllowed pairing.url then
    match deriveAll crates event courses with
    | .error error => .done (.error error)
    | .ok (derived, json) => sendManifest crates pairing event derived json
  else .done (.error (.address pairing.url))

/-- A pass under the pairing there is. -/
def passUnder (event : Event) : Option Pairing → Shipping Metres
  | none =>
      .ask (.execute (.note "not paired; run `splitforge-ship pair`")) fun _ => .done (.ok .stopped)
  | some pairing => pass crates pairing event

/-- One turn of `watch`. -/
def turn (event : Event) : Shipping Metres :=
  .ask (.select .paired) (passUnder crates event)

end Pass

/-- The statements that `Command::Pair` executes once RaceDay Connect has answered: the pairing, and
then the reset of what was sent. -/
def pairStatements (row : PairingRow) : List (Statement Metres) :=
  [.storePairing row, .clearManifest, .clearCrossings, .clearRevisions, .clearDelivery]

end Splitforge.Raceday
