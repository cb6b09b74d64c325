import Splitforge.Library.Runs
import Splitforge.Library.WriteAheadLog
import Splitforge.Storage.JournalPass

/-!
# Runs of one writer

One process at a time opens the journal with recovery, appends and records checkpoints; it may
stop at any moment, and the next start opens it again. A crash inside a call is the call with the
failure that stops it there, and then the crash. Such a run is a run of a write-ahead log with
marks: the log is what the sidecar verifies, the table is `raw_reads`, and the marks are the
recorded checkpoints.
-/

namespace Splitforge.Storage

open Splitforge.Domain Splitforge.Library

/-- The disk, and the handle of the writer that is running. -/
structure World where
  disk : Disk
  journal : Option SqliteJournal

/-- What can happen to the writer. -/
inductive Event where
  | openRecovering (path : String) (env : RecoverEnv)
  | append (env : AppendEnv) (read : RawRead)
  | appendBatch (env : AppendEnv) (reads : List RawRead)
  | checkpoint (env : CheckpointEnv)
  | crash

/-- Nothing written yet, and no writer. -/
def World.empty : World := ⟨⟨[], ⟨[], [], []⟩⟩, none⟩

/-- The reads an event offers to the journal. -/
def Event.offers : Event → List RawRead
  | .append _ read => [read]
  | .appendBatch _ reads => reads
  | _ => []

variable (crates : Crates)

/-- One event. There is one writer at a time, so a start does nothing while one is running, and
the other calls need one. -/
def step (world : World) : Event → World
  | .openRecovering path env =>
      match world.journal with
      | some _ => world
      | none =>
          match openRecovering crates env path world.disk with
          | (.error _, disk) => ⟨disk, none⟩
          | (.ok (journal, _), disk) => ⟨disk, some journal⟩
  | .append env read =>
      match world.journal with
      | none => world
      | some journal =>
          let (_, journal, disk) := journal.append crates env world.disk read
          ⟨disk, some journal⟩
  | .appendBatch env reads =>
      match world.journal with
      | none => world
      | some journal =>
          let (_, journal, disk) := journal.appendBatch crates env world.disk reads
          ⟨disk, some journal⟩
  | .checkpoint env =>
      match world.journal with
      | none => world
      | some journal =>
          let (_, journal, database) := journal.checkpoint env world.disk.database
          ⟨{ world.disk with database }, some journal⟩
  | .crash => { world with journal := none }

/-- The reads an event has acknowledged: those of an append that returned without an error. -/
def acknowledges (world : World) : Event → List RawRead
  | .append env read =>
      match world.journal with
      | none => []
      | some journal =>
          match (journal.append crates env world.disk read).1 with
          | .ok _ => [read]
          | .error _ => []
  | .appendBatch env reads =>
      match world.journal with
      | none => []
      | some journal =>
          match (journal.appendBatch crates env world.disk reads).1 with
          | .ok _ => reads
          | .error _ => []
  | _ => []

/-- The reads a run has acknowledged. -/
def acknowledged : World → List Event → List RawRead
  | _, [] => []
  | world, event :: events =>
      acknowledges crates world event ++ acknowledged (step crates world event) events

/-! ## The log a world stands for -/

/-- The mark of a checkpoint. -/
def markOf (disk : Disk) (checkpoint : SidecarCheckpoint) : Mark SidecarRead where
  covered := verified crates (disk.file.take checkpoint.sidecarBytes)
  stored := (disk.database.rawReads.filter fun row => row.seq ≤ checkpoint.throughSeq).map entryOf

/-- What a handle remembers, as reads. -/
def appenderOf (file : List UInt8) (journal : SqliteJournal) : Appender SidecarRead where
  tip := (journal.sidecar.bind (·.tip)).map fun tip => verified crates (file.take tip.lineEnd)
  unconfirmed := journal.unconfirmed

/-- The write-ahead log a world stands for. -/
def walOf (world : World) : Wal SidecarRead where
  log := verified crates world.disk.file
  table := world.disk.database.rawReads.map entryOf
  marks := world.disk.database.sidecarCheckpoints.map (markOf crates world.disk)
  appender := world.journal.map (appenderOf crates world.disk.file)

/-- What every world of a run is made of: a well-formed table, checkpoints and a tip at ends of
lines that are there, and a handle with a sidecar. -/
structure Located (world : World) : Prop where
  rows : WellFormed world.disk.database.rawReads
  checkpoints : ∀ checkpoint ∈ world.disk.database.sidecarCheckpoints,
    EndsLine world.disk.file checkpoint.sidecarBytes ∧
      checkpoint.throughSeq ≤ maxSeq world.disk.database.rawReads
  journal : ∀ journal, world.journal = some journal → ∃ sidecar, journal.sidecar = some sidecar ∧
    ∀ tip, sidecar.tip = some tip → EndsLine world.disk.file tip.lineEnd

theorem located_empty : Located World.empty where
  rows := well_formed_nil
  checkpoints _ h := by cases h
  journal _ h := by cases h

/-- A located world that a world refines into: the moves in between are those of the log. -/
structure Refines (guarded : Prop) (offers : SidecarRead → Prop) (world world' : World) :
    Prop where
  located : Located world'
  moves : Wal.Moves idOf guarded offers (walOf crates world) (walOf crates world')

variable {crates} {guarded : Prop} {offers : SidecarRead → Prop} {world world' world'' : World}

theorem Refines.refl (h : Located world) : Refines crates guarded offers world world :=
  ⟨h, Relation.ReflTransGen.refl⟩

theorem Refines.trans (h : Refines crates guarded offers world world')
    (h' : Refines crates guarded offers world' world'') :
    Refines crates guarded offers world world'' :=
  ⟨h'.located, h.moves.trans h'.moves⟩

/-- A step of the world that is a move of its log. -/
theorem Refines.of_move (h : Located world')
    (hmove : Wal.Move idOf guarded offers (walOf crates world) (walOf crates world')) :
    Refines crates guarded offers world world' :=
  ⟨h, Relation.ReflTransGen.single hmove⟩

/-! ## What growth leaves alone -/

/-- The marks of the checkpoints stay as they are when the file grows. -/
theorem marks_append_file (h : Located world) (more : List UInt8) :
    world.disk.database.sidecarCheckpoints.map
        (markOf crates ⟨world.disk.file ++ more, world.disk.database⟩) =
      world.disk.database.sidecarCheckpoints.map (markOf crates world.disk) := by
  refine List.map_congr_left fun checkpoint hcheckpoint => ?_
  have hle := (h.checkpoints checkpoint hcheckpoint).1.le_length
  rw [markOf, markOf, List.take_append_of_le_length hle]

/-- The marks of the checkpoints stay as they are when reads are inserted. -/
theorem marks_inserted (h : Located world) {reads : List SidecarRead}
    {rawReads' : List StoredRawRead} (auditLog : List AuditRow)
    (hinserted : Inserted crates world.disk.database.rawReads reads rawReads') :
    world.disk.database.sidecarCheckpoints.map (markOf crates
        ⟨world.disk.file, ⟨rawReads', world.disk.database.sidecarCheckpoints, auditLog⟩⟩) =
      world.disk.database.sidecarCheckpoints.map (markOf crates world.disk) := by
  obtain ⟨rows, rfl, _, hseq⟩ := hinserted.exists_rows
  refine List.map_congr_left fun checkpoint hcheckpoint => ?_
  have hthrough := (h.checkpoints checkpoint hcheckpoint).2
  have hnew : rows.filter (fun row => row.seq ≤ checkpoint.throughSeq) = [] := by
    refine List.filter_eq_nil_iff.mpr fun row hrow => ?_
    have hlt := hseq row hrow
    simp only [decide_eq_true_eq]
    omega
  rw [markOf, markOf, List.filter_append, hnew, List.append_nil]

/-- What a handle remembers stays as it is when the file grows. -/
theorem appender_append_file {file : List UInt8} {journal : SqliteJournal}
    (h : ∀ tip, journal.sidecar.bind (·.tip) = some tip → EndsLine file tip.lineEnd)
    (more : List UInt8) :
    appenderOf crates (file ++ more) journal = appenderOf crates file journal := by
  rw [appenderOf, appenderOf]
  congr 1
  cases htip : journal.sidecar.bind (·.tip) with
  | none => rfl
  | some tip => rw [Option.map_some, Option.map_some,
      List.take_append_of_le_length (h tip htip).le_length]

end Splitforge.Storage
