import Splitforge.Library.Fallible
import Splitforge.Library.Sorting
import Splitforge.Results.Score
import Splitforge.Storage.LineCodec
import Splitforge.Storage.ResultText

/-!
# The result store

The tables of published revisions and their entries. A publication is one transaction: its rows are
all written or none is. Nothing else writes to the tables.
-/

namespace Splitforge.Storage.Results

open Splitforge.Domain Splitforge.Library Splitforge.Library.Json
open Splitforge.Results (u32Max)

/-! ## What is published -/

/-- A revision with its identifier and who published it, which its digest does not say. -/
structure Revision extends ResultRevision where
  id : Uuid
  actor : String

/-- The numbers of an entry fit their types. -/
structure EntryFits (entry : ResultEntry) : Prop where
  gunTimeMs : ∀ ms ∈ entry.gunTimeMs, i64Min ≤ ms ∧ ms ≤ i64Max
  chipTimeMs : ∀ ms ∈ entry.chipTimeMs, i64Min ≤ ms ∧ ms ≤ i64Max
  scoringTimeMs : ∀ ms ∈ entry.scoringTimeMs, i64Min ≤ ms ∧ ms ≤ i64Max
  place : ∀ place ∈ entry.place, place < 2 ^ 32

/-- The numbers of a revision fit their types. -/
structure RevisionFits (revision : ResultRevision) : Prop where
  number : revision.number < 2 ^ 32
  policy : PolicyFits revision.policy.timing
  entries : ∀ entry ∈ revision.entries, EntryFits entry

/-- A revision of the source's types. Its gun is an instant at an offset from UTC, in seconds. -/
structure Publication extends Revision where
  gunOffset : Int
  fits : RevisionFits toResultRevision

/-! ## The tables -/

/-- A row of `result_revisions`. -/
structure RevisionRow where
  id : String
  raceId : String
  number : Int64
  status : String
  generatedAtUs : Int64
  actor : String
  reason : String
  policyJson : String
  digest : String
  recordedAtUs : Int64
deriving DecidableEq

/-- A row of `result_entries`. -/
structure EntryRow where
  revisionId : String
  participantId : String
  ordinal : Int64
  bib : String
  name : String
  status : String
  statusSource : String
  statusReason : Option String
  startAtUs : Option Int64
  finishAtUs : Option Int64
  gunTimeMs : Option Int64
  chipTimeMs : Option Int64
  scoringTimeMs : Option Int64
  place : Option Int64
  flagsJson : String
  timingEventsJson : String
deriving DecidableEq

/-- The tables of results, and the identifiers their foreign keys refer to. -/
structure ResultTables where
  races : List String
  participants : List String
  resultRevisions : List RevisionRow
  resultEntries : List EntryRow
deriving DecidableEq

/-- A database with some races and participants where nothing was published. -/
def unpublished (races participants : List String) : ResultTables := ⟨races, participants, [], []⟩

/-- A row is that of a race's revision of a number. -/
def RevisionRow.isOf (row : RevisionRow) (race : RaceId) (number : Nat) : Bool :=
  row.raceId = race.uuid.toText && row.number = Int64.ofNat number

/-- `INSERT INTO result_revisions`. -/
def insertRevision (row : RevisionRow) (tables : ResultTables) : Except StorageError ResultTables :=
  if tables.resultRevisions.any fun other => other.id = row.id then
    .error (.sqlite "UNIQUE constraint failed: result_revisions.id")
  else if tables.resultRevisions.any fun other =>
      other.raceId = row.raceId && other.number = row.number then
    .error (.sqlite "UNIQUE constraint failed: result_revisions.race_id, result_revisions.number")
  else if !tables.races.contains row.raceId then .error (.sqlite "FOREIGN KEY constraint failed")
  else .ok { tables with resultRevisions := tables.resultRevisions ++ [row] }

/-- `INSERT INTO result_entries`. -/
def insertEntry (row : EntryRow) (tables : ResultTables) : Except StorageError ResultTables :=
  if tables.resultEntries.any fun other =>
      other.revisionId = row.revisionId && other.participantId = row.participantId then
    .error <| .sqlite <|
      "UNIQUE constraint failed: result_entries.revision_id, result_entries.participant_id"
  else if !(tables.resultRevisions.any fun other => other.id = row.revisionId) ||
      !tables.participants.contains row.participantId then
    .error (.sqlite "FOREIGN KEY constraint failed")
  else .ok { tables with resultEntries := tables.resultEntries ++ [row] }

/-! ## Transactions -/

/-- The statements of a publication. -/
inductive Statement where
  | start
  | revision
  | entry (ordinal : Nat)
  | finish
deriving DecidableEq

/-- What a call finds: the clock, and which of its statements fail. -/
structure PublishEnv where
  now : OffsetDateTime
  fault : Statement → Option String

/-- A transaction: the tables as it found them, and as its statements left them. -/
structure Transaction where
  before : ResultTables
  tables : ResultTables

/-- `Connection::transaction`. -/
def Transaction.of (tables : ResultTables) : Transaction := ⟨tables, tables⟩

/-- What dropping a transaction leaves: its statements are rolled back. -/
def Transaction.rollback (transaction : Transaction) : ResultTables := transaction.before

/-- `Transaction::commit`. -/
def Transaction.commit (transaction : Transaction) : ResultTables := transaction.tables

/-- `Transaction::execute`: one statement, which changes nothing when it fails. -/
def Transaction.execute (transaction : Transaction) (fault : Option String)
    (statement : ResultTables → Except StorageError ResultTables) :
    Except StorageError Unit × Transaction :=
  match fault with
  | some text => (.error (.sqlite text), transaction)
  | none =>
      match statement transaction.tables with
      | .error error => (.error error, transaction)
      | .ok tables => (.ok (), { transaction with tables := tables })

/-! ## Publishing -/

/-- The row of a revision. -/
def revisionRow (newV5 : Uuid → String → Uuid) (policyJson : String) (recordedAtUs : Int64)
    (revision : Revision) : Except StorageError RevisionRow := do
  let generatedAtUs ← toMicros revision.generatedAt
  .ok {
    id := revision.id.toText
    raceId := revision.race.uuid.toText
    number := Int64.ofNat revision.number
    status := revision.status.asStr
    generatedAtUs
    actor := revision.actor
    reason := revision.reason
    policyJson
    digest := revision.digest newV5
    recordedAtUs }

/-- The row of an entry. -/
def entryRow (revision : Uuid) (ordinal : Nat) (entry : ResultEntry) :
    Except StorageError EntryRow := do
  let startAtUs ← entry.startAt.mapM toMicros
  let finishAtUs ← entry.finishAt.mapM toMicros
  .ok {
    revisionId := revision.toText
    participantId := entry.participant.uuid.toText
    ordinal := Int64.ofInt (i64OrMax ordinal)
    bib := entry.bib.text
    name := entry.name
    status := entry.status.asStr
    statusSource := sourceToStr entry.statusSource
    statusReason := entry.statusReason
    startAtUs
    finishAtUs
    gunTimeMs := entry.gunTimeMs.map Int64.ofInt
    chipTimeMs := entry.chipTimeMs.map Int64.ofInt
    scoringTimeMs := entry.scoringTimeMs.map Int64.ofInt
    place := entry.place.map fun place => Int64.ofNat place
    flagsJson := writeText flagsBlock entry.flags
    timingEventsJson := writeText eventsBlock entry.timingEvents }

/-- Writes entries from an ordinal on, up to the first that cannot be written. -/
def writeEntries (env : PublishEnv) (revision : Uuid) :
    Nat → List ResultEntry → Transaction → Except StorageError Unit × Transaction
  | _, [], transaction => (.ok (), transaction)
  | ordinal, entry :: entries, transaction =>
      match entryRow revision ordinal entry with
      | .error error => (.error error, transaction)
      | .ok row =>
          match transaction.execute (env.fault (.entry ordinal)) (insertEntry row) with
          | (.error error, transaction) => (.error error, transaction)
          | (.ok (), transaction) => writeEntries env revision (ordinal + 1) entries transaction

/-- Writes a revision and its entries. -/
def writeRevision (newV5 : Uuid → String → Uuid) (env : PublishEnv) (policyJson : String)
    (recordedAtUs : Int64) (revision : Revision) (transaction : Transaction) :
    Except StorageError Unit × Transaction :=
  match revisionRow newV5 policyJson recordedAtUs revision with
  | .error error => (.error error, transaction)
  | .ok row =>
      match transaction.execute (env.fault .revision) (insertRevision row) with
      | (.error error, transaction) => (.error error, transaction)
      | (.ok (), transaction) => writeEntries env revision.id 0 revision.entries transaction

/-- `ResultStore::publish`: what it returns, and the tables behind it. -/
def publish (newV5 : Uuid → String → Uuid) (env : PublishEnv) (tables : ResultTables)
    (publication : Publication) : Except StorageError Unit × ResultTables :=
  match policyToString publication.gunOffset publication.policy, toMicros env.now,
      env.fault .start with
  | .error error, _, _ => (.error (.decode ("serializing scoring policy: " ++ error)), tables)
  | .ok _, .error error, _ => (.error error, tables)
  | .ok _, .ok _, some text => (.error (.sqlite text), tables)
  | .ok policyJson, .ok recordedAtUs, none =>
      match writeRevision newV5 env policyJson recordedAtUs publication.toRevision (.of tables) with
      | (.error error, transaction) => (.error error, transaction.rollback)
      | (.ok (), transaction) =>
          match env.fault .finish with
          | some text => (.error (.sqlite text), transaction.rollback)
          | none => (.ok (), transaction.commit)

/-- One call of `publish`. -/
structure Call where
  env : PublishEnv
  publication : Publication

/-- The tables behind a call. -/
def Call.after (newV5 : Uuid → String → Uuid) (tables : ResultTables) (call : Call) :
    ResultTables :=
  (publish newV5 call.env tables call.publication).2

/-- The tables behind some calls, one after another. -/
def afterCalls (newV5 : Uuid → String → Uuid) (tables : ResultTables) (calls : List Call) :
    ResultTables :=
  calls.foldl (Call.after newV5) tables

/-! ## Reading -/

/-- What other crates say of a text: its `Debug` form, and why it is no UUID and no JSON. -/
structure Texts where
  debug : String → String
  uuidError : String → String
  jsonError : String → String

/-- A value, or the error for a text that has none. -/
def orDecode {α : Type} (error : String) : Option α → Except StorageError α
  | some value => .ok value
  | none => .error (.decode error)

/-- A name, or the error that says what was expected. -/
def orExpected {α : Type} (texts : Texts) (kind value : String) :
    Except String α → Except StorageError α
  | .ok name => .ok name
  | .error expected => .error (.decode (kind ++ " " ++ texts.debug value ++ ": " ++ expected))

/-- `u32::try_from`. -/
def u32TryFrom (value : Int) : Option Nat :=
  if 0 ≤ value ∧ value < 2 ^ 32 then some value.toNat else none

/-- `uuid_column`. -/
def uuidColumn (texts : Texts) (column text : String) : Except StorageError Uuid :=
  orDecode (column ++ " " ++ texts.debug text ++ ": " ++ texts.uuidError text) (Uuid.parseStr text)

/-- `entry_from_row`. -/
def entryFromRow (texts : Texts) (row : EntryRow) : Except StorageError ResultEntry := do
  let flags ← orDecode ("stored flags are unreadable: " ++ texts.jsonError row.flagsJson)
    (readText flagsBlock row.flagsJson)
  let timingEvents ← orDecode
    ("stored timing events are unreadable: " ++ texts.jsonError row.timingEventsJson)
    (readText eventsBlock row.timingEventsJson)
  let participant ← uuidColumn texts "participant_id" row.participantId
  let status ← orExpected texts "result status" row.status (ResultStatus.parse row.status)
  let statusSource ← parseSource texts.debug row.statusSource
  let startAt ← row.startAtUs.mapM fromMicros
  let finishAt ← row.finishAtUs.mapM fromMicros
  let place ← row.place.mapM fun value => orDecode "negative place" (u32TryFrom value.toInt)
  .ok {
    participant := ⟨participant⟩
    bib := ⟨row.bib⟩
    name := row.name
    status
    statusSource
    statusReason := row.statusReason
    startAt
    finishAt
    gunTimeMs := row.gunTimeMs.map Int64.toInt
    chipTimeMs := row.chipTimeMs.map Int64.toInt
    scoringTimeMs := row.scoringTimeMs.map Int64.toInt
    place
    flags
    timingEvents }

/-- `ResultStore::entries`: the entries of one revision, in publication order. -/
def entries (texts : Texts) (tables : ResultTables) (revision : Uuid) :
    Except StorageError (List ResultEntry) :=
  (sortByKey (·.ordinal.toInt) (tables.resultEntries.filter fun row =>
    row.revisionId = revision.toText)).mapM (entryFromRow texts)

/-- `ResultStore::revision`: one revision by number, with its entries. -/
def revision (texts : Texts) (tables : ResultTables) (race : RaceId) (number : Nat) :
    Except StorageError (Option Revision) :=
  match tables.resultRevisions.find? fun row => row.isOf race number with
  | none => .ok none
  | some row => do
      let status ← orExpected texts "revision status" row.status (RevisionStatus.parse row.status)
      let policy ← orDecode
        ("stored scoring policy is unreadable: " ++ texts.jsonError row.policyJson)
        (policyFromStr row.policyJson)
      let id ← uuidColumn texts "revision id" row.id
      let generatedAt ← fromMicros row.generatedAtUs
      let entries ← entries texts tables id
      .ok <| some {
        id
        race
        number
        status
        generatedAt
        actor := row.actor
        reason := row.reason
        policy
        entries }

/-- The numbers stored for a race. -/
def storedNumbers (tables : ResultTables) (race : RaceId) : List Int :=
  (tables.resultRevisions.filter fun row => row.raceId = race.uuid.toText).map (·.number.toInt)

/-- `ResultStore::next_revision_number`. -/
def nextRevisionNumber (tables : ResultTables) (race : RaceId) : Except StorageError Nat := do
  let highest ← orDecode "negative revision number" <|
    u32TryFrom ((storedNumbers tables race).max?.getD 0)
  .ok (min (highest + 1) u32Max)

/-- `ResultStore::latest_revision`: the revision with the highest number, with its entries. -/
def latestRevision (texts : Texts) (tables : ResultTables) (race : RaceId) :
    Except StorageError (Option Revision) :=
  match (storedNumbers tables race).max? with
  | none => .ok none
  | some number => do
      let number ← orDecode "negative revision number" (u32TryFrom number)
      revision texts tables race number

/-- A revision's header. -/
structure RevisionSummary where
  id : Uuid
  number : Nat
  status : RevisionStatus
  generatedAt : OffsetDateTime
  actor : String
  reason : String
  digest : String
  entries : Nat
deriving DecidableEq

/-- `summary_from_row`. -/
def summaryFromRow (texts : Texts) (tables : ResultTables) (row : RevisionRow) :
    Except StorageError RevisionSummary := do
  let id ← uuidColumn texts "id" row.id
  let number ← orDecode "negative revision number" (u32TryFrom row.number.toInt)
  let status ← orExpected texts "revision status" row.status (RevisionStatus.parse row.status)
  let generatedAt ← fromMicros row.generatedAtUs
  .ok {
    id
    number
    status
    generatedAt
    actor := row.actor
    reason := row.reason
    digest := row.digest
    entries := (tables.resultEntries.filter fun entry => entry.revisionId = row.id).length }

/-- `ResultStore::revisions`: every revision of a race, oldest first, headers only. -/
def revisions (texts : Texts) (tables : ResultTables) (race : RaceId) :
    Except StorageError (List RevisionSummary) :=
  (sortByKey (·.number.toInt) (tables.resultRevisions.filter fun row =>
    row.raceId = race.uuid.toText)).mapM (summaryFromRow texts tables)

end Splitforge.Storage.Results
