import Splitforge.Library.Sorting
import Splitforge.Storage.WriteAhead

/-!
# Reading the journal as it grows

Whatever the writer does, `raw_reads` changes only at its end, by rows with higher sequence
numbers: those of an append, and those a start replays from the sidecar. So nothing is ever added
behind a reader's back, and reading on from the last row it saw gives the rows it has not seen.
-/

namespace Splitforge.Storage

open Splitforge.Domain Splitforge.Library

variable {crates : Crates} {rawReads : List StoredRawRead} {world : World}

/-- `RawReadJournal::read_since`: the rows after a sequence number, in their order. A number that
no row can have stands for the last one a row can have. -/
def readSince (rawReads : List StoredRawRead) (afterSeq : Nat) : List StoredRawRead :=
  sortByKey (·.seq) (rawReads.filter fun row => i64OrMax afterSeq < row.seq)

/-- The sequence numbers SQLite can give are those of an `i64`. -/
def RowIds (rawReads : List StoredRawRead) : Prop := ∀ row ∈ rawReads, (row.seq : Int) ≤ i64Max

/-- Rows are compared with a number that no row can have as with any other. -/
theorem lt_seq_iff {row : StoredRawRead} (hrow : (row.seq : Int) ≤ i64Max) (afterSeq : Nat) :
    i64OrMax afterSeq < row.seq ↔ afterSeq < row.seq := by
  simp only [i64Max, i64OrMax, i64Min] at hrow ⊢
  split_ifs with hfits
  · omega
  · omega

/-- A well-formed table is read in the order it has. -/
theorem read_since_eq (h : WellFormed rawReads) (hids : RowIds rawReads) (afterSeq : Nat) :
    readSince rawReads afterSeq = rawReads.filter fun row => afterSeq < row.seq := by
  have hsame : rawReads.filter (fun row => i64OrMax afterSeq < row.seq) =
      rawReads.filter fun row => afterSeq < row.seq := by
    refine List.filter_congr fun row hrow => ?_
    exact decide_eq_decide.mpr (lt_seq_iff (hids row hrow) afterSeq)
  rw [readSince, hsame]
  have hsorted := h.seqs_increase.filter fun row => decide (afterSeq < row.seq)
  exact (hsorted.imp fun hlt => le_of_lt hlt).insertionSort_eq

/-! ## What the writer does to the table -/

/-- The transaction of an append inserts reads, or nothing. -/
theorem commit_inserts {disk disk' : Disk} {journal journal' : SqliteJournal} {env : AppendEnv}
    {reads : List RawRead} {outcome : Except StorageError (List StoredRawRead)}
    (hstorable : ∀ read ∈ reads, storable read = .ok ())
    (h : journal.commit crates env disk reads = (outcome, journal', disk')) :
    ∃ inserted, Inserted crates disk.database.rawReads inserted disk'.database.rawReads := by
  rcases commit_cases hstorable h with ⟨_, _, rfl⟩ |
    ⟨stored, rawReads', checkpointed, _, _, _, hinserted, rfl, hcheckpointed⟩
  · exact ⟨[], .nil _⟩
  refine ⟨stamped reads env.now, ?_⟩
  -- the checkpoint behind the transaction leaves the rows as they are
  rcases hcheckpointed with ⟨_, rfl⟩ | ⟨result, hcheckpoint⟩
  · exact hinserted
  · have hrows := checkpoint_raw_reads env.checkpoint { journal with unconfirmed := false }
      { disk.database with rawReads := rawReads' }
    rw [hcheckpoint] at hrows
    show Inserted crates _ _ checkpointed.rawReads
    rw [hrows]
    exact hinserted

/-- An append inserts reads, or nothing. -/
theorem insert_all_inserts {disk : Disk} {journal : SqliteJournal}
    (h : Located ⟨disk, some journal⟩) (env : AppendEnv) (reads : List RawRead) :
    ∃ inserted, Inserted crates disk.database.rawReads inserted
      (journal.insertAll crates env disk reads).2.2.database.rawReads := by
  obtain ⟨sidecar, hsidecar, _⟩ := h.journal journal rfl
  cases hinsert : journal.insertAll crates env disk reads with
  | mk outcome rest =>
      obtain ⟨journal', disk'⟩ := rest
      rcases insert_all_cases hsidecar hinsert with ⟨_, _, rfl⟩ | ⟨hstorable, hrest⟩
      · exact ⟨[], .nil _⟩
      rcases hrest with ⟨_, kept, _, rfl⟩ | ⟨_, hcommit⟩ | ⟨_, _, digest, hcommit⟩
      · exact ⟨[], .nil _⟩
      · exact commit_inserts hstorable hcommit
      · have hinserts := commit_inserts hstorable hcommit
        exact hinserts

/-- A start inserts what it replays, or nothing. -/
theorem open_recovering_inserts (disk : Disk) (env : RecoverEnv) (path : String) :
    ∃ inserted, Inserted crates disk.database.rawReads inserted
      (openRecovering crates env path disk).2.database.rawReads := by
  rw [openRecovering]
  cases hopening : env.opening with
  | some error => exact ⟨[], .nil _⟩
  | none =>
      have hrepair : ∃ inserted, Inserted crates disk.database.rawReads inserted
          ((SqliteJournal.opened path env.instant).repair crates env disk
            (.of (usableCheckpoint disk))).2.2.database.rawReads := by
        obtain ⟨rawReads', found, hpass, hspec⟩ :=
          @pass_spec crates disk (.of (usableCheckpoint disk))
        obtain ⟨reads, hinserted, _⟩ := hspec.inserted
        cases htransaction : env.transaction with
        | some error =>
            simp only [SqliteJournal.repair, SqliteJournal.opened, hpass, htransaction]
            exact ⟨[], .nil _⟩
        | none =>
            refine ⟨reads, ?_⟩
            rw [@repair_rows crates disk (.opened path env.instant) _ rfl _ htransaction _ _ _
              hpass]
            exact hinserted
      dsimp only
      cases hresult : (SqliteJournal.opened path env.instant).repair crates env disk
          (.of (usableCheckpoint disk)) with
      | mk outcome rest =>
          rw [hresult] at hrepair
          cases outcome with
          | error error => exact hrepair
          | ok report => exact hrepair

/-- Whatever happens to the writer, the table it leaves is the one there was with some reads
inserted. -/
theorem step_inserts (h : Located world) (event : Event) :
    ∃ inserted, Inserted crates world.disk.database.rawReads inserted
      (step crates world event).disk.database.rawReads := by
  obtain ⟨disk, running⟩ := world
  cases event with
  | openRecovering path env =>
      cases running with
      | some journal => exact ⟨[], .nil _⟩
      | none =>
          obtain ⟨inserted, hinserted⟩ := @open_recovering_inserts crates disk env path
          refine ⟨inserted, ?_⟩
          simp only [step]
          cases hresult : openRecovering crates env path disk with
          | mk outcome disk' =>
              rw [hresult] at hinserted
              cases outcome with
              | error error => exact hinserted
              | ok opened => exact hinserted
  | append env read =>
      cases running with
      | none => exact ⟨[], .nil _⟩
      | some journal =>
          obtain ⟨inserted, hinserted⟩ := @insert_all_inserts crates _ _ h env [read]
          refine ⟨inserted, ?_⟩
          show Inserted crates _ _ (journal.append crates env disk read).2.2.database.rawReads
          rw [append_eq]
          exact hinserted
  | appendBatch env reads =>
      cases running with
      | none => exact ⟨[], .nil _⟩
      | some journal => exact insert_all_inserts h env reads
  | checkpoint env =>
      cases running with
      | none => exact ⟨[], .nil _⟩
      | some journal =>
          refine ⟨[], ?_⟩
          show Inserted crates _ _ (journal.checkpoint env disk.database).2.2.rawReads
          rw [checkpoint_raw_reads]
          exact .nil _
  | crash => exact ⟨[], .nil _⟩

/-! ## Sequence numbers -/

/-- A table of rows that were inserted is numbered from one. -/
theorem Inserted.max_seq {reads : List SidecarRead} {rawReads' : List StoredRawRead}
    (h : Inserted crates rawReads reads rawReads') (hrows : maxSeq rawReads = rawReads.length) :
    maxSeq rawReads' = rawReads'.length := by
  induction h with
  | nil => exact hrows
  | cons _ _ ih =>
      refine ih ?_
      rw [max_seq_append_row, hrows, List.length_append, List.length_singleton]

/-- The table a run leaves is numbered from one. -/
theorem run_max_seq (crates : Crates) (events : List Event) :
    maxSeq (run (step crates) World.empty events).disk.database.rawReads =
      (run (step crates) World.empty events).disk.database.rawReads.length := by
  induction events using List.reverseRecOn with
  | nil => rfl
  | append_singleton events event ih =>
      obtain ⟨inserted, hinserted⟩ := @step_inserts crates _ (run_ahead crates events).1 event
      rw [run_append, run_cons, run_nil]
      exact hinserted.max_seq ih

/-- Where no more reads are offered than an `i64` can count, every sequence number is one. -/
theorem run_row_ids (crates : Crates) {events : List Event}
    (h : (events.flatMap Event.offers).length < 2 ^ 63) :
    RowIds (run (step crates) World.empty events).disk.database.rawReads := by
  obtain ⟨hlocated, hahead⟩ := run_ahead crates events
  have hmax := run_max_seq crates events
  -- every row is of a read that was offered, and no id is there twice
  have hsubset : storedIds (run (step crates) World.empty events).disk.database.rawReads ⊆
      (events.flatMap Event.offers).map (·.id) := by
    intro id hid
    obtain ⟨row, hrow, rfl⟩ := List.mem_map.mp hid
    obtain ⟨read, hread, heq⟩ :=
      run_offered crates events _ (hahead.log (entryOf row) (List.mem_map_of_mem hrow))
    refine List.mem_map.mpr ⟨read, hread, ?_⟩
    have hread : row.read = asStored read := heq
    rw [hread, as_stored_id]
  have hlength := (List.subperm_of_subset hlocated.rows.ids_nodup hsubset).length_le
  rw [storedIds, List.length_map, List.length_map] at hlength
  intro row hrow
  have hle := seq_le_max_seq hrow
  simp only [i64Max]
  omega

end Splitforge.Storage
