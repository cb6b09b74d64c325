import Splitforge.Storage.Refinement

/-!
# Write-ahead over whole runs

Every event of a run is some moves of the log its world stands for, so the log is ahead of the
table in every world a run reaches: each row has a verified line with the same read. What an
append acknowledges is in the table, and what is in the table is rebuilt from the sidecar alone.
-/

namespace Splitforge.Storage

open Splitforge.Domain Splitforge.Library

variable {crates : Crates} {guarded : Prop} {offers : SidecarRead → Prop} {world : World}

/-- An append that goes through brings every read that the sidecar verifies and the table lacks.
`sidecar` and `transaction` are the failures its call meets. -/
def BringsOrphans (crates : Crates) (disk : Disk) (sidecar : Option SidecarFault)
    (transaction : Option StorageError) (reads : List RawRead) : Prop :=
  (reads = [] ∨ sidecar = none) → transaction = none → Committable disk.database.rawReads reads →
    ∀ entry ∈ verified crates disk.file,
      entry.read.id ∈ storedIds disk.database.rawReads ++ reads.map (·.id)

/-- A failed append is retried first: no append that goes through leaves an orphan behind. -/
def RetriesFirst (crates : Crates) (world : World) : Event → Prop
  | .append env read =>
      world.journal.isSome → BringsOrphans crates world.disk env.sidecar env.transaction [read]
  | .appendBatch env reads =>
      world.journal.isSome → BringsOrphans crates world.disk env.sidecar env.transaction reads
  | _ => True

/-- What `append` and `append_batch` leave is what `insert_all` leaves. -/
theorem append_eq {env : AppendEnv} {journal : SqliteJournal} {disk : Disk} {read : RawRead} :
    (journal.append crates env disk read).2 = (journal.insertAll crates env disk [read]).2 := by
  rw [SqliteJournal.append]
  cases hinsert : journal.insertAll crates env disk [read] with
  | mk outcome rest =>
      cases outcome with
      | error error => rfl
      | ok stored => cases hlast : stored.getLast? <;> simp only [hlast]

/-- Every event is some moves of the log its world stands for. -/
theorem step_refines (h : Located world) (hahead : (walOf crates world).Ahead) (event : Event)
    (hoffers : ∀ read ∈ event.offers, ∀ recordedAt, offers (recovered ⟨read, recordedAt⟩))
    (hguard : guarded → (walOf crates world).Sound idOf ∧ RetriesFirst crates world event) :
    Refines crates guarded offers world (step crates world event) := by
  obtain ⟨disk, running⟩ := world
  -- without a handle only a start does anything, and with one only a start does nothing
  cases event with
  | openRecovering path env =>
      cases running with
      | some journal => exact .refl h
      | none => exact refines_open_recovering h hahead fun hguarded => (hguard hguarded).1
  | append env read =>
      cases running with
      | none => exact .refl h
      | some journal =>
          change Refines crates guarded offers _ ⟨(journal.append crates env disk read).2.2,
            some (journal.append crates env disk read).2.1⟩
          rw [append_eq]
          exact refines_insert_all h (fun hguarded => (hguard hguarded).2 rfl)
            (List.forall_mem_map.mpr fun source hsource => hoffers source hsource _) rfl
  | appendBatch env reads =>
      cases running with
      | none => exact .refl h
      | some journal =>
          exact refines_insert_all h (fun hguarded => (hguard hguarded).2 rfl)
            (List.forall_mem_map.mpr fun source hsource => hoffers source hsource _) rfl
  | checkpoint env =>
      cases running with
      | none => exact .refl h
      | some journal => exact refines_checkpoint h rfl
  | crash =>
      cases running with
      | none => exact .refl h
      | some journal => exact refines_stop h

/-- The empty world stands for the empty log. -/
theorem ahead_empty : (walOf crates World.empty).Ahead :=
  ⟨by rintro _ ⟨⟩, by rintro _ _ ⟨⟩⟩

/-- A read as it may stand in the log of a run that offers some reads. -/
def Offered (reads : List RawRead) (entry : SidecarRead) : Prop :=
  ∃ read ∈ reads, entry.read = asStored read

/-- A run is some moves of the log its world stands for, of reads the run offers. -/
theorem run_refines (h : Located world) (hahead : (walOf crates world).Ahead)
    {events : List Event} {reads : List RawRead}
    (hreads : ∀ event ∈ events, ∀ read ∈ event.offers, read ∈ reads) :
    Refines crates False (Offered reads) world (run (step crates) world events) := by
  induction events generalizing world with
  | nil => exact .refl h
  | cons event events ih =>
      have hstep : Refines crates False (Offered reads) world (step crates world event) :=
        step_refines h hahead event (fun read hread _ =>
          ⟨read, hreads event List.mem_cons_self read hread, rfl⟩) False.elim
      exact hstep.trans (ih hstep.located (hahead.moves hstep.moves) fun other hother =>
        hreads other (List.mem_cons_of_mem _ hother))

/-! ## What an append leaves -/

/-- An append put its reads behind the rows of a table, in order, and no id is there twice. -/
structure Appended (rawReads : List StoredRawRead) (reads : List RawRead)
    (rawReads' : List StoredRawRead) : Prop where
  rows : ∃ rows, rawReads' = rawReads ++ rows ∧ rows.map (·.read) = reads.map asStored
  once : (storedIds rawReads').Nodup

/-- What an append says and what it did to the table: without an error it appended its reads, and
with one it left the table as it was. -/
def AppendOutcome {Error : Type} (rawReads : List StoredRawRead) (reads : List RawRead)
    (outcome : Except Error (List StoredRawRead)) (rawReads' : List StoredRawRead) : Prop :=
  match outcome with
  | .ok stored => Appended rawReads reads rawReads' ∧ stored.map (·.read) = reads
  | .error _ => rawReads' = rawReads

/-- Recording a checkpoint leaves the table alone. -/
theorem checkpoint_raw_reads (env : CheckpointEnv) (journal : SqliteJournal)
    (database : Database) :
    (journal.checkpoint env database).2.2.rawReads = database.rawReads := by
  cases hcheckpoint : journal.checkpoint env database with
  | mk outcome rest =>
      rcases (checkpoint_cases hcheckpoint).2.2 with hsame | ⟨_, _, _, _, hmore⟩
      · rw [hsame]
      · rw [hmore]

/-- The transaction of an append does what the append says. -/
theorem commit_outcome {disk disk' : Disk} {journal journal' : SqliteJournal}
    (hrows : WellFormed disk.database.rawReads) {env : AppendEnv} {reads : List RawRead}
    {outcome : Except StorageError (List StoredRawRead)}
    (hstorable : ∀ read ∈ reads, storable read = .ok ())
    (hresult : journal.commit crates env disk reads = (outcome, journal', disk')) :
    AppendOutcome disk.database.rawReads reads outcome disk'.database.rawReads := by
  rcases commit_cases hstorable hresult with ⟨⟨error, rfl⟩, rfl, rfl⟩ |
    ⟨stored, rawReads', checkpointed, rfl, hstored, _, hinserted, rfl, hcheckpointed⟩
  · rfl
  -- the checkpoint behind the transaction leaves the rows as they are
  have hcommitted : checkpointed.rawReads = rawReads' := by
    rcases hcheckpointed with ⟨_, rfl⟩ | ⟨result, hcheckpoint⟩
    · rfl
    · have hrows := checkpoint_raw_reads env.checkpoint { journal with unconfirmed := false }
        { disk.database with rawReads := rawReads' }
      rwa [hcheckpoint] at hrows
  obtain ⟨rows, heq, hreads, _⟩ := hinserted.exists_rows
  have hread := congrArg (List.map SidecarRead.read) hreads
  refine ⟨⟨⟨rows, hcommitted.trans heq, ?_⟩, ?_⟩, hstored⟩
  · simpa [stamped, recovered, Function.comp_def] using hread
  · change (storedIds checkpointed.rawReads).Nodup
    rw [hcommitted]
    exact (hinserted.well_formed hrows).ids_nodup

/-- An append does what it says. -/
theorem insert_all_outcome {disk disk' : Disk} {journal journal' : SqliteJournal}
    (h : Located ⟨disk, some journal⟩) {env : AppendEnv} {reads : List RawRead}
    {outcome : Except StorageError (List StoredRawRead)}
    (hinsert : journal.insertAll crates env disk reads = (outcome, journal', disk')) :
    AppendOutcome disk.database.rawReads reads outcome disk'.database.rawReads := by
  obtain ⟨sidecar, hsidecar, _⟩ := h.journal journal rfl
  rcases insert_all_cases hsidecar hinsert with ⟨⟨error, rfl⟩, rfl, rfl⟩ | ⟨hstorable, hrest⟩
  · rfl
  rcases hrest with ⟨⟨error, rfl⟩, kept, rfl, rfl⟩ | ⟨_, hresult⟩ | ⟨_, _, digest, hresult⟩
  · rfl
  · exact commit_outcome h.rows hstorable hresult
  · have hcommit := commit_outcome (by exact h.rows) hstorable hresult
    exact hcommit

/-- An append of a batch does what it says. -/
theorem append_batch_outcome {disk : Disk} {journal : SqliteJournal}
    (h : Located ⟨disk, some journal⟩) (env : AppendEnv) (reads : List RawRead) :
    AppendOutcome disk.database.rawReads reads (journal.appendBatch crates env disk reads).1
      (journal.appendBatch crates env disk reads).2.2.database.rawReads := by
  cases hinsert : journal.insertAll crates env disk reads with
  | mk outcome rest =>
      have houtcome := insert_all_outcome h hinsert
      simp only [SqliteJournal.appendBatch, hinsert]
      cases outcome with
      | error error => exact houtcome
      | ok stored => exact houtcome

/-- An append of one read does what it says. -/
theorem append_outcome {disk : Disk} {journal : SqliteJournal}
    (h : Located ⟨disk, some journal⟩) (env : AppendEnv) (read : RawRead) :
    AppendOutcome disk.database.rawReads [read]
      ((journal.append crates env disk read).1.map fun stored => [stored])
      (journal.append crates env disk read).2.2.database.rawReads := by
  cases hinsert : journal.insertAll crates env disk [read] with
  | mk outcome rest =>
      have houtcome := insert_all_outcome h hinsert
      simp only [SqliteJournal.append, hinsert]
      cases outcome with
      | error error => exact houtcome
      | ok stored =>
          obtain ⟨happended, hstored⟩ := houtcome
          obtain ⟨last, rfl, hlast⟩ := List.map_eq_singleton_iff.mp hstored
          exact ⟨happended, congrArg (fun read => [read]) hlast⟩

/-- What an event acknowledges is in the table behind it. -/
theorem mem_table_of_acknowledges (h : Located world) {event : Event} {read : RawRead}
    (hread : read ∈ acknowledges crates world event) :
    ∃ entry ∈ (walOf crates (step crates world event)).table, entry.read = asStored read := by
  obtain ⟨disk, running⟩ := world
  have hrows {rawReads rawReads' : List StoredRawRead} {reads : List RawRead}
      (happended : Appended rawReads reads rawReads') (hmem : read ∈ reads) :
      ∃ entry ∈ rawReads'.map entryOf, entry.read = asStored read := by
    obtain ⟨rows, rfl, hrows⟩ := happended.rows
    have hstored : asStored read ∈ rows.map (·.read) := by
      rw [hrows]
      exact List.mem_map_of_mem hmem
    obtain ⟨row, hrow, heq⟩ := List.mem_map.mp hstored
    exact ⟨entryOf row, List.mem_map_of_mem (List.mem_append_right _ hrow), heq⟩
  cases event with
  | openRecovering path env => cases hread
  | checkpoint env => cases hread
  | crash => cases hread
  | append env source =>
      cases running with
      | none => cases hread
      | some journal =>
          have houtcome := @append_outcome crates _ _ h env source
          simp only [acknowledges] at hread
          cases hresult : (journal.append crates env disk source).1 with
          | error error => rw [hresult] at hread; cases hread
          | ok stored =>
              rw [hresult] at hread houtcome
              exact hrows houtcome.1 hread
  | appendBatch env reads =>
      cases running with
      | none => cases hread
      | some journal =>
          have houtcome := @append_batch_outcome crates _ _ h env reads
          simp only [acknowledges] at hread
          cases hresult : (journal.appendBatch crates env disk reads).1 with
          | error error => rw [hresult] at hread; cases hread
          | ok stored =>
              rw [hresult] at hread houtcome
              exact hrows houtcome.1 hread

/-- What a run acknowledges is in the table it ends with. -/
theorem mem_table_of_acknowledged (h : Located world) (hahead : (walOf crates world).Ahead)
    {events : List Event} {read : RawRead} (hread : read ∈ acknowledged crates world events) :
    ∃ entry ∈ (walOf crates (run (step crates) world events)).table,
      entry.read = asStored read := by
  induction events generalizing world with
  | nil => cases hread
  | cons event events ih =>
      have hstep : Refines crates False (fun _ => True) world (step crates world event) :=
        step_refines h hahead event (fun _ _ _ => trivial) False.elim
      have hahead' := hahead.moves hstep.moves
      rcases List.mem_append.mp hread with hread | hread
      · -- a row that is there stays there through the rest of the run
        obtain ⟨entry, hentry, heq⟩ := mem_table_of_acknowledges h hread
        have hrun := @run_refines crates _ hstep.located hahead' events
          (events.flatMap Event.offers)
          fun other hother source hsource => List.mem_flatMap.mpr ⟨other, hother, hsource⟩
        exact ⟨entry, hrun.moves.table hentry, heq⟩
      · exact ih hstep.located hahead' hread

/-! ## Rebuilding -/

/-- A repair whose transaction does not fail leaves the table of its pass. -/
theorem repair_rows {disk : Disk} {journal : SqliteJournal} {sidecar : Sidecar}
    (hsidecar : journal.sidecar = some sidecar) {env : RecoverEnv} (henv : env.transaction = none)
    {start : Start} {rawReads' : List StoredRawRead} {found : Pass}
    (hpass : pass crates disk start (replayInto crates) = .ok (rawReads', found)) :
    (journal.repair crates env disk start).2.2.database.rawReads = rawReads' := by
  simp only [SqliteJournal.repair, hsidecar, hpass, henv]
  -- neither the backfill nor the checkpoint touches the table
  split
  · rfl
  · split
    all_goals
      rename_i hcheckpoint
      have hrows := congrArg (fun result => result.2.2.rawReads) hcheckpoint
      exact hrows.symm.trans (checkpoint_raw_reads _ _ _)

/-- The table a full reconcile leaves when the database was replaced by an empty one. -/
def rebuilt (crates : Crates) (path : String) (instant : Nat) (env : RecoverEnv)
    (file : List UInt8) : List StoredRawRead :=
  ((SqliteJournal.opened path instant).reconcile crates env
    ⟨file, ⟨[], [], []⟩⟩).2.2.database.rawReads

/-- What is rebuilt from a sidecar is its verified reads, one row for each id. -/
theorem rebuilt_rows {env : RecoverEnv} (henv : env.transaction = none) (path : String)
    (instant : Nat) (file : List UInt8) :
    (storedIds (rebuilt crates path instant env file)).Nodup ∧
      (∀ entry ∈ verified crates file,
        entry.read.id ∈ storedIds (rebuilt crates path instant env file)) ∧
      ∀ row ∈ rebuilt crates path instant env file,
        ∃ entry ∈ verified crates file, row.read = entry.read := by
  obtain ⟨rawReads', found, hpass, hspec⟩ := @pass_spec crates
    ⟨file, ⟨[], [], []⟩⟩ .beginning
  have hrows : rebuilt crates path instant env file = rawReads' := repair_rows rfl henv hpass
  obtain ⟨reads, hinserted, hreads⟩ := hspec.inserted
  rw [hrows]
  refine ⟨(hinserted.well_formed well_formed_nil).ids_nodup, hspec.stored, fun row hrow => ?_⟩
  rcases hinserted.mem_or hrow with hold | ⟨_, read, hread, heq⟩
  · cases hold
  · have hverified := hreads read hread
    rw [(of_mem_verified hverified).2] at heq
    exact ⟨read, hverified, congrArg SidecarRead.read heq⟩

/-- What a run leaves is ahead of its table. -/
theorem run_ahead (crates : Crates) (events : List Event) :
    Located (run (step crates) World.empty events) ∧
      (walOf crates (run (step crates) World.empty events)).Ahead := by
  have hrun := @run_refines crates _ located_empty ahead_empty events
    (events.flatMap Event.offers)
    fun event hevent read hread => List.mem_flatMap.mpr ⟨event, hevent, hread⟩
  exact ⟨hrun.located, ahead_empty.moves hrun.moves⟩

/-- Everything the sidecar verifies after a run is a read the run offered. -/
theorem run_offered (crates : Crates) (events : List Event) :
    ∀ entry ∈ verified crates (run (step crates) World.empty events).disk.file,
      Offered (events.flatMap Event.offers) entry := by
  have hrun := @run_refines crates _ located_empty ahead_empty events
    (events.flatMap Event.offers)
    fun event hevent read hread => List.mem_flatMap.mpr ⟨event, hevent, hread⟩
  exact hrun.moves.offered ahead_empty (by rintro _ ⟨⟩)

/-- What a run acknowledged is rebuilt from its sidecar alone, once each. Ids are minted once, so
the row under an id that was offered for one read only holds that read. -/
theorem rebuilt_of_acknowledged {events : List Event} {read : RawRead}
    (hread : read ∈ acknowledged crates World.empty events) {env : RecoverEnv}
    (henv : env.transaction = none) (path : String) (instant : Nat) :
    let rawReads := rebuilt crates path instant env
      (run (step crates) World.empty events).disk.file
    (storedIds rawReads).count read.id = 1 ∧
      ((∀ other ∈ events.flatMap Event.offers, other.id = read.id → other = read) →
        ∃ row ∈ rawReads, row.read = asStored read) := by
  intro rawReads
  obtain ⟨hnodup, hstored, hentries⟩ := @rebuilt_rows crates _ henv path instant
    (run (step crates) World.empty events).disk.file
  obtain ⟨entry, hentry, heq⟩ := mem_table_of_acknowledged located_empty ahead_empty hread
  have hlog := (run_ahead crates events).2.log entry hentry
  have hid : read.id ∈ storedIds rawReads := by
    have hmem := hstored entry hlog
    rwa [heq] at hmem
  refine ⟨List.count_eq_one_of_mem hnodup hid, fun hminted => ?_⟩
  -- the row under the id came from a verified line, and that from a read the run offered
  obtain ⟨row, hrow, hrowid⟩ := List.mem_map.mp hid
  obtain ⟨other, hother, hrowread⟩ := hentries row hrow
  obtain ⟨source, hsource, hsourced⟩ := run_offered crates events other hother
  have hsame : source = read := by
    refine hminted source hsource ?_
    rw [← hrowid, hrowread, hsourced]
    rfl
  exact ⟨row, hrow, by rw [hrowread, hsourced, hsame]⟩

/-! ## No acknowledged read is lost -/

/-- What the sidecar promises of every world a run reaches: each row has a verified line with the
same read, an append does what it says, and what was acknowledged can be rebuilt. A crash between
any two effects of a call leaves the world of the call that fails there, which is a run too. -/
theorem write_ahead (crates : Crates) (events : List Event) :
    let world := run (step crates) World.empty events
    (∀ row ∈ world.disk.database.rawReads,
      ∃ entry ∈ verified crates world.disk.file, entry.read = row.read) ∧
    (∀ journal, world.journal = some journal → ∀ env : AppendEnv,
      (∀ reads, AppendOutcome world.disk.database.rawReads reads
        (journal.appendBatch crates env world.disk reads).1
        (journal.appendBatch crates env world.disk reads).2.2.database.rawReads) ∧
      ∀ read, AppendOutcome world.disk.database.rawReads [read]
        ((journal.append crates env world.disk read).1.map fun stored => [stored])
        (journal.append crates env world.disk read).2.2.database.rawReads) ∧
    ∀ (path : String) (instant : Nat) (env : RecoverEnv), env.transaction = none →
      ∀ read ∈ acknowledged crates World.empty events,
        (storedIds (rebuilt crates path instant env world.disk.file)).count read.id = 1 ∧
        ((∀ other ∈ events.flatMap Event.offers, other.id = read.id → other = read) →
          ∃ row ∈ rebuilt crates path instant env world.disk.file,
            row.read = asStored read) := by
  intro world
  obtain ⟨hlocated, hahead⟩ := run_ahead crates events
  refine ⟨fun row hrow => ?_, fun journal hjournal env => ?_,
    fun path instant env henv read hread => rebuilt_of_acknowledged hread henv path instant⟩
  · exact ⟨entryOf row, hahead.log _ (List.mem_map_of_mem hrow), rfl⟩
  · have hrunning : Located ⟨world.disk, some journal⟩ := hjournal ▸ hlocated
    exact ⟨append_batch_outcome hrunning env, append_outcome hrunning env⟩

end Splitforge.Storage
