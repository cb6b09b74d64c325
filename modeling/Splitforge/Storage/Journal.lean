import Splitforge.Storage.Sidecar

/-!
# The raw read journal

The database's tables, the handle a writer holds, and its operations: appending a batch behind
the sidecar, taking the union of the database and the sidecar, and recording checkpoints.
Whatever can fail at run time (a write, a sync, a transaction, a statement) fails when the
environment of the call says so. A transaction that fails leaves the database as it was.
-/

namespace Splitforge.Storage

open Splitforge.Domain Splitforge.Library

/-- How far the sidecar and the database were known to agree, as recorded. -/
structure SidecarCheckpoint where
  sidecarBytes : Nat
  lastLineSha256 : String
  throughSeq : Nat
  recordedAt : OffsetDateTime
deriving DecidableEq

/-- How far the database and its sidecar have drifted apart. -/
structure SidecarStatus where
  records : Nat
  corruptLines : Nat
  tornTailBytes : Nat
  tornWrites : Nat
  missingFromDatabase : Nat
  missingFromSidecar : Nat
deriving DecidableEq

/-- What reconciliation actually did. -/
structure RecoveryReport where
  found : SidecarStatus
  replayedIntoDatabase : Nat
  backfilledIntoSidecar : Nat
  scannedFromByte : Nat
deriving DecidableEq

/-- The reads a pass handed to `replay`, as the audit row describes them. -/
structure Replayed where
  count : Nat
  firstId : Option RawReadId
  lastId : Option RawReadId
  earliest : Option OffsetDateTime
  latest : Option OffsetDateTime
deriving DecidableEq

/-- An audit row of a replay. -/
structure AuditRow where
  actor : String
  action : String
  replayed : Replayed
  found : SidecarStatus
deriving DecidableEq

/-- The tables the journal reads and writes. Rows stand in the order of their keys, and an
instant stands as it comes back from its column. -/
structure Database where
  rawReads : List StoredRawRead
  sidecarCheckpoints : List SidecarCheckpoint
  auditLog : List AuditRow
deriving DecidableEq

/-- What a crash leaves: the sidecar's bytes and the database. -/
structure Disk where
  file : List UInt8
  database : Database
deriving DecidableEq

/-- A writer's handle. `unconfirmed` says that a sidecar line has been written whose database
row has not been committed. Times of the monotonic clock are in nanoseconds. -/
structure SqliteJournal where
  sidecar : Option Sidecar
  unconfirmed : Bool
  lastCheckpoint : Nat
  checkpointEvery : Nat
deriving DecidableEq

/-- `CHECKPOINT_INTERVAL`, sixty seconds. -/
def checkpointInterval : Nat := 60 * 1000000000

/-- What one attempt to record a checkpoint finds: the two clocks, and whether its statements
fail. -/
structure CheckpointEnv where
  now : OffsetDateTime
  instant : Nat
  fault : Option StorageError

/-- What one append finds: the clock, how the sidecar and the transaction fail, and what an
attempt to record a checkpoint at its end finds. -/
structure AppendEnv where
  now : OffsetDateTime
  sidecar : Option SidecarFault
  transaction : Option StorageError
  checkpoint : CheckpointEnv

/-- What a start finds: how opening, the transaction and a backfill fail, and what the attempt
to record a checkpoint at its end finds. -/
structure RecoverEnv where
  actor : String
  instant : Nat
  opening : Option StorageError
  transaction : Option StorageError
  backfill : Option SidecarFault
  checkpoint : CheckpointEnv

section Rows

variable (crates : Crates)

/-- `u64_to_i64`. -/
def u64ToI64 (value : UInt64) (field : String) : Except StorageError Int64 :=
  match i64TryFrom value.toNat with
  | some value => .ok value
  | none => .error (.decode (field ++ " exceeds i64 range"))

/-- `max_seq`: the highest sequence number, or `0` for an empty journal. -/
def maxSeq (rawReads : List StoredRawRead) : Nat :=
  rawReads.foldr (fun row most => max row.seq most) 0

/-- The ids in a table. -/
def storedIds (rawReads : List StoredRawRead) : List RawReadId :=
  rawReads.map fun row => row.read.id

/-- `insert_one`: the rows with one more, and the read as the caller gets it back. A row is
never deleted, so the next key is one more than the highest. -/
def insertOne (rawReads : List StoredRawRead) (read : RawRead) (recordedAt : OffsetDateTime) :
    Except StorageError (List StoredRawRead × StoredRawRead) := do
  let payloadSha256 := hexLower (crates.sha256 read.rawPayload)
  -- the columns are signed 64-bit integers, so every value is converted before the insert
  let _ ← read.readerTimestamp.mapM toMicros
  let _ ← read.readerUptimeUs.mapM fun value => u64ToI64 value "reader_uptime_us"
  let _ ← read.receivedAtMonotonicNs.mapM fun value => u64ToI64 value "received_at_monotonic_ns"
  let _ ← toMicros read.receivedAt
  let _ ← toMicros recordedAt
  if read.id ∈ storedIds rawReads then
    throw (.sqlite "UNIQUE constraint failed: raw_reads.id")
  let seq := maxSeq rawReads + 1
  -- the row holds what its columns can hold, and the caller gets back what it handed in
  pure (rawReads ++ [⟨seq, wholeMicros recordedAt, payloadSha256, asStored read⟩],
    ⟨seq, recordedAt, payloadSha256, read⟩)

/-- The inserts of a batch, one after another. -/
def insertEach (recordedAt : OffsetDateTime) :
    List StoredRawRead → List RawRead →
      Except StorageError (List StoredRawRead × List StoredRawRead)
  | rawReads, [] => .ok (rawReads, [])
  | rawReads, read :: reads => do
      let (rawReads, stored) ← insertOne crates rawReads read recordedAt
      let (rawReads, others) ← insertEach recordedAt rawReads reads
      pure (rawReads, stored :: others)

end Rows

/-! ## Checkpoints -/

/-- `latest_checkpoint`. -/
def latestCheckpoint (database : Database) : Option SidecarCheckpoint :=
  database.sidecarCheckpoints.getLast?

/-- `SqliteJournal::checkpoint`: records a checkpoint at the handle's tip, unless a sidecar
line waits on its row, there is no tip, or the latest checkpoint is already there. -/
def SqliteJournal.checkpoint (env : CheckpointEnv) (journal : SqliteJournal)
    (database : Database) : Except StorageError Bool × SqliteJournal × Database :=
  -- a sidecar line whose row may be missing: nothing is recorded behind it
  if journal.unconfirmed then (.ok false, journal, database)
  else
    match journal.sidecar.bind (·.tip) with
    | none => (.ok false, journal, database)
    | some tip =>
        let journal := { journal with lastCheckpoint := env.instant }
        match env.fault with
        | some error => (.error error, journal, database)
        | none =>
            if (latestCheckpoint database).any fun latest =>
                latest.sidecarBytes = tip.lineEnd ∧ latest.lastLineSha256 = tip.digest then
              (.ok false, journal, database)
            else if tip.lineEnd = 0 ∨ tip.digest.length ≠ 64 then
              (.error (.sqlite "CHECK constraint failed: sidecar_checkpoints"), journal, database)
            else
              let checkpoint : SidecarCheckpoint :=
                ⟨tip.lineEnd, tip.digest, maxSeq database.rawReads, wholeMicros env.now⟩
              (.ok true, journal,
                { database with
                  sidecarCheckpoints := database.sidecarCheckpoints ++ [checkpoint] })

/-- `SqliteJournal::usable_checkpoint`: the latest checkpoint, if the file and the database
still match it. -/
def usableCheckpoint (disk : Disk) : Option SidecarCheckpoint :=
  match latestCheckpoint disk.database with
  | none => none
  | some checkpoint =>
      -- a table that stops short of the checkpoint is an older one put back
      if maxSeq disk.database.rawReads < checkpoint.throughSeq then none
      else if endsWithLine disk.file ⟨checkpoint.sidecarBytes, checkpoint.lastLineSha256⟩ then
        some checkpoint
      else none

/-! ## Taking the union -/

/-- Where a pass over the sidecar starts. -/
inductive Start where
  | beginning
  | after (checkpoint : SidecarCheckpoint)

/-- Where a writer's start begins its pass: behind the checkpoint it can use, or at the
beginning. -/
def Start.of : Option SidecarCheckpoint → Start
  | some checkpoint => .after checkpoint
  | none => .beginning

/-- The offset a pass starts at. -/
def Start.fromByte : Start → Nat
  | .beginning => 0
  | .after checkpoint => checkpoint.sidecarBytes

/-- What a pass has seen and replayed so far, and the table with the replays. -/
structure Progress where
  rawReads : List StoredRawRead
  seen : List RawReadId
  replaying : List RawReadId
  replayed : Replayed

/-- What one pass found and did. -/
structure Pass where
  status : SidecarStatus
  replayed : Replayed
  backfill : List SidecarRead
  lastVerified : Option Tip
  fromByte : Nat

/-- `Replayed::add`. -/
def Replayed.add (replayed : Replayed) (record : SidecarRead) : Replayed where
  count := replayed.count + 1
  firstId := some (replayed.firstId.getD record.read.id)
  lastId := some record.read.id
  earliest := some (replayed.earliest.elim record.recordedAt (min · record.recordedAt))
  latest := some (replayed.latest.elim record.recordedAt (max · record.recordedAt))

/-- Whether the database holds a read. From the beginning that is answered from the ids stored
before the pass, and after a checkpoint by looking the id up. -/
def Start.holds (start : Start) (stored : List RawReadId) (rawReads : List StoredRawRead)
    (id : RawReadId) : Bool :=
  match start with
  | .beginning => decide (id ∈ stored)
  | .after _ => decide (id ∈ storedIds rawReads)

/-- What a pass does with one verified read: it is replayed if the database does not hold it and
this pass has not replayed it. -/
def passRead (start : Start) (stored : List RawReadId)
    (replay : List StoredRawRead → SidecarRead → Except StorageError (List StoredRawRead))
    (progress : Progress) (record : SidecarRead) : Except StorageError Progress :=
  let progress := { progress with seen := record.read.id :: progress.seen }
  if start.holds stored progress.rawReads record.read.id = true ∨
      record.read.id ∈ progress.replaying then .ok progress
  else
    match replay progress.rawReads record with
    | .error error => .error error
    | .ok rawReads =>
        .ok { progress with
          rawReads
          replaying := record.read.id :: progress.replaying
          replayed := progress.replayed.add record }

/-- `missing_from`: stored reads after a sequence number whose id is not among those seen. -/
def missingFrom (rawReads : List StoredRawRead) (afterSeq : Nat) (seen : List RawReadId) :
    List SidecarRead :=
  (rawReads.filter fun row => afterSeq < row.seq ∧ row.read.id ∉ seen).map fun row =>
    ⟨row.read, row.recordedAt⟩

section Operations

variable (crates : Crates)

/-- `pass`: reads the sidecar from a start, hands each verified read the database does not hold
to `replay` once, and finds the rows the sidecar lacks. Returns the table with the replays. -/
def pass (disk : Disk) (start : Start)
    (replay : List StoredRawRead → SidecarRead → Except StorageError (List StoredRawRead)) :
    Except StorageError (List StoredRawRead × Pass) :=
  let stored := storedIds disk.database.rawReads
  let initial : Progress := ⟨disk.database.rawReads, [], [], ⟨0, none, none, none, none⟩⟩
  match scanFrom crates disk.file start.fromByte (passRead start stored replay) initial with
  | .error error => .error error
  | .ok (progress, tally) =>
      let backfill :=
        match start with
        | .beginning =>
            -- every row was seen in the sidecar, so the table is not read again
            if ∀ id ∈ stored, id ∈ progress.seen then []
            else missingFrom progress.rawReads 0 progress.seen
        | .after checkpoint => missingFrom progress.rawReads checkpoint.throughSeq progress.seen
      .ok (progress.rawReads, {
        status := {
          records := tally.records
          corruptLines := tally.corruptLines
          tornTailBytes := tally.tornTailBytes
          tornWrites := tally.tornWrites
          missingFromDatabase := progress.replayed.count
          missingFromSidecar := backfill.length }
        replayed := progress.replayed
        backfill
        lastVerified := tally.lastVerified
        fromByte := start.fromByte })

/-- What `repair` does with a read the database lacks. -/
def replayInto (rawReads : List StoredRawRead) (record : SidecarRead) :
    Except StorageError (List StoredRawRead) :=
  (insertOne crates rawReads record.read record.recordedAt).map Prod.fst

/-- The tip a pass without a backfill leaves: the last line it verified, or the line of the
checkpoint it started from. -/
def passTip (start : Start) (found : Pass) : Option Tip :=
  found.lastVerified.or
    (match start with
    | .after checkpoint => some ⟨checkpoint.sidecarBytes, checkpoint.lastLineSha256⟩
    | .beginning => none)

/-- `SqliteJournal::repair`: takes the union from a start, and records a checkpoint where it
ends. The replays and their audit row are one transaction. -/
def SqliteJournal.repair (env : RecoverEnv) (journal : SqliteJournal) (disk : Disk)
    (start : Start) : Except StorageError RecoveryReport × SqliteJournal × Disk :=
  match journal.sidecar with
  | none => (.ok ⟨⟨0, 0, 0, 0, 0, 0⟩, 0, 0, 0⟩, journal, disk)
  | some sidecar =>
      match pass crates disk start (replayInto crates) with
      | .error error => (.error error, journal, disk)
      | .ok (rawReads, found) =>
          match env.transaction with
          | some error => (.error error, journal, disk)
          | none =>
              let auditLog :=
                if 0 < found.replayed.count then
                  disk.database.auditLog ++
                    [⟨env.actor, "journal.replay", found.replayed, found.status⟩]
                else disk.database.auditLog
              let database := { disk.database with rawReads, auditLog }
              -- behind the commit: rows the sidecar lacks are appended to it
              let (outcome, sidecar, file) :=
                if found.backfill = [] then
                  match passTip start found with
                  | some tip => (.ok (), { sidecar with tip := some tip }, disk.file)
                  | none => (.ok (), sidecar, disk.file)
                else sidecar.appendRecords crates env.backfill disk.file found.backfill
              let journal := { journal with sidecar := some sidecar }
              match outcome with
              | .error error => (.error error, journal, ⟨file, database⟩)
              | .ok () =>
                  let report : RecoveryReport :=
                    ⟨found.status, found.replayed.count, found.backfill.length, found.fromByte⟩
                  match journal.checkpoint env.checkpoint database with
                  | (.error error, journal, database) => (.error error, journal, ⟨file, database⟩)
                  | (.ok _, journal, database) => (.ok report, journal, ⟨file, database⟩)

/-- The handle `open` gives. -/
def SqliteJournal.opened (path : String) (instant : Nat) : SqliteJournal :=
  ⟨some ⟨path, none⟩, false, instant, checkpointInterval⟩

/-- `SqliteJournal::open_recovering`. A start that fails drops its handle. -/
def openRecovering (env : RecoverEnv) (path : String) (disk : Disk) :
    Except StorageError (SqliteJournal × RecoveryReport) × Disk :=
  match env.opening with
  | some error => (.error error, disk)
  | none =>
      match (SqliteJournal.opened path env.instant).repair crates env disk
          (.of (usableCheckpoint disk)) with
      | (.error error, _, disk) => (.error error, disk)
      | (.ok report, journal, disk) => (.ok (journal, report), disk)

/-- `SqliteJournal::reconcile`: takes the union over the whole sidecar. -/
def SqliteJournal.reconcile (env : RecoverEnv) (journal : SqliteJournal) (disk : Disk) :
    Except StorageError RecoveryReport × SqliteJournal × Disk :=
  journal.repair crates env disk .beginning

/-- `SqliteJournal::survey`: compares the whole sidecar against the database. Its pass counts a
read the database lacks and inserts nothing. -/
def SqliteJournal.survey (journal : SqliteJournal) (disk : Disk) :
    Except StorageError SidecarStatus × Disk :=
  match journal.sidecar with
  | none => (.ok ⟨0, 0, 0, 0, 0, 0⟩, disk)
  | some _ =>
      match pass crates disk .beginning fun rawReads _ => .ok rawReads with
      | .error error => (.error error, disk)
      | .ok (rawReads, found) =>
          (.ok found.status, ⟨disk.file, { disk.database with rawReads }⟩)

/-! ## Appending -/

/-- The part of `insert_all` behind the sidecar: the transaction, and a checkpoint when one is
due, whose failure is dropped. -/
def SqliteJournal.commit (env : AppendEnv) (journal : SqliteJournal) (disk : Disk)
    (reads : List RawRead) : Except StorageError (List StoredRawRead) × SqliteJournal × Disk :=
  match insertEach crates env.now disk.database.rawReads reads with
  | .error error => (.error error, journal, disk)
  | .ok (rawReads, stored) =>
      match env.transaction with
      | some error => (.error error, journal, disk)
      | none =>
          let database := { disk.database with rawReads }
          -- the batch has its rows now, whatever an earlier append left behind
          let journal := { journal with unconfirmed := false }
          if journal.checkpointEvery ≤ env.checkpoint.instant - journal.lastCheckpoint then
            let (_, journal, database) := journal.checkpoint env.checkpoint database
            (.ok stored, journal, ⟨disk.file, database⟩)
          else (.ok stored, journal, ⟨disk.file, database⟩)

/-- `SqliteJournal::insert_all`. Every read is checked before either file sees the batch, and
the sidecar is appended and synced before the transaction opens. -/
def SqliteJournal.insertAll (env : AppendEnv) (journal : SqliteJournal) (disk : Disk)
    (reads : List RawRead) : Except StorageError (List StoredRawRead) × SqliteJournal × Disk :=
  match reads.forM storable with
  | .error error => (.error error, journal, disk)
  | .ok () =>
      match journal.sidecar with
      | none => journal.commit crates env disk reads
      | some sidecar =>
          match sidecar.appendRecords crates env.sidecar disk.file
              (reads.map fun read => ⟨read, env.now⟩) with
          | (.error error, sidecar, file) =>
              -- a line that was written and then failed its fsync is a line without a row too
              (.error error, { journal with sidecar := some sidecar, unconfirmed := true },
                { disk with file })
          | (.ok (), sidecar, file) =>
              SqliteJournal.commit crates env
                { journal with sidecar := some sidecar, unconfirmed := true } { disk with file }
                reads

/-- `RawReadJournal::append_batch`. -/
def SqliteJournal.appendBatch (env : AppendEnv) (journal : SqliteJournal) (disk : Disk)
    (reads : List RawRead) : Except JournalError (List StoredRawRead) × SqliteJournal × Disk :=
  let (outcome, journal, disk) := journal.insertAll crates env disk reads
  (outcome.mapError JournalError.ofStorageError, journal, disk)

/-- `RawReadJournal::append`. -/
def SqliteJournal.append (env : AppendEnv) (journal : SqliteJournal) (disk : Disk)
    (read : RawRead) : Except JournalError StoredRawRead × SqliteJournal × Disk :=
  match journal.insertAll crates env disk [read] with
  | (.error error, journal, disk) => (.error (.ofStorageError error), journal, disk)
  | (.ok stored, journal, disk) =>
      match stored.getLast? with
      | some stored => (.ok stored, journal, disk)
      | none => (.error (.backend "insert returned no row"), journal, disk)

end Operations

end Splitforge.Storage
