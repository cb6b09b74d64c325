import Splitforge.Storage.Writer

/-!
# The writer refines a write-ahead log

Each part of a call is a move of the log the world stands for: a write to the sidecar, complete
or not, a committed transaction, the clearing of `unconfirmed`, a recorded checkpoint, and a start
after recovery. A call is its parts in order.
-/

namespace Splitforge.Storage

open Splitforge.Domain Splitforge.Library

variable {crates : Crates} {guarded : Prop} {offers : SidecarRead → Prop} {disk : Disk}
  {journal : SqliteJournal}

/-- The keys of the table are the ids in it. -/
theorem ids_entries (rawReads : List StoredRawRead) :
    (rawReads.map entryOf).map idOf = storedIds rawReads :=
  List.map_map

/-- The tip of a handle in a located world ends a line of the file. -/
theorem Located.tip (h : Located ⟨disk, some journal⟩) {tip : Tip}
    (htip : journal.sidecar.bind (·.tip) = some tip) : EndsLine disk.file tip.lineEnd := by
  obtain ⟨sidecar, hsidecar, htips⟩ := h.journal journal rfl
  rw [hsidecar] at htip
  exact htips tip htip

/-- The parts of a world that the file carries stay located when it grows. -/
theorem Located.append_file (h : Located ⟨disk, some journal⟩) (more : List UInt8)
    {journal' : SqliteJournal} {sidecar : Sidecar} (hsidecar : journal'.sidecar = some sidecar)
    (htip : ∀ tip, sidecar.tip = some tip → EndsLine (disk.file ++ more) tip.lineEnd) :
    Located ⟨⟨disk.file ++ more, disk.database⟩, some journal'⟩ where
  rows := h.rows
  checkpoints checkpoint hcheckpoint :=
    ⟨(h.checkpoints checkpoint hcheckpoint).1.append more, (h.checkpoints checkpoint hcheckpoint).2⟩
  journal := by
    rintro _ ⟨⟩
    exact ⟨sidecar, hsidecar, htip⟩

/-- A write that fails leaves some of its reads in the log, unconfirmed. -/
theorem refines_write (h : Located ⟨disk, some journal⟩) {reads : List SidecarRead}
    (hstorable : ∀ read ∈ reads, storable read.read = .ok ())
    (hoffers : ∀ read ∈ reads, offers (recovered read)) (kept : Nat) :
    Refines crates guarded offers ⟨disk, some journal⟩
      ⟨⟨disk.file ++ (batchOf crates reads).take kept, disk.database⟩,
        some { journal with unconfirmed := true }⟩ := by
  obtain ⟨sidecar, hsidecar, htips⟩ := h.journal journal rfl
  obtain ⟨count, hcount⟩ := @verified_append_part crates _ hstorable disk.file kept
  refine .of_move (h.append_file _ hsidecar fun tip htip => (htips tip htip).append _) ?_
  have hmove : Wal.Move idOf guarded offers (walOf crates ⟨disk, some journal⟩) _ :=
    .write _ ((reads.take count).map recovered) rfl
    (List.forall_mem_map.mpr fun read hread => hoffers read (List.mem_of_mem_take hread))
  convert hmove using 1
  simp only [walOf, Option.map_some, hcount, marks_append_file h]
  rw [← appender_append_file fun tip htip => h.tip htip]
  rfl

/-- A write that completes puts its reads in the log and the handle at its end. -/
theorem refines_complete (h : Located ⟨disk, some journal⟩) {reads : List SidecarRead}
    (hreads : reads ≠ []) (hstorable : ∀ read ∈ reads, storable read.read = .ok ())
    (hoffers : ∀ read ∈ reads, offers (recovered read)) (path digest : String) :
    Refines crates guarded offers ⟨disk, some journal⟩
      ⟨⟨disk.file ++ batchOf crates reads, disk.database⟩,
        some { journal with
          sidecar := some ⟨path, some ⟨(disk.file ++ batchOf crates reads).length, digest⟩⟩
          unconfirmed := true }⟩ := by
  refine .of_move (h.append_file _ rfl ?_) ?_
  · rintro _ ⟨⟩
    exact ends_line_append_batch hreads disk.file
  have hmove : Wal.Move idOf guarded offers (walOf crates ⟨disk, some journal⟩) _ :=
    .complete _ (reads.map recovered) rfl (List.forall_mem_map.mpr hoffers)
  convert hmove using 1
  simp only [walOf, Option.map_some, verified_append_batch hstorable, marks_append_file h,
    appenderOf, Option.bind_some, List.take_length]

/-- A committed transaction puts reads of the log into the table. -/
theorem refines_insert {running : Option SqliteJournal} (h : Located ⟨disk, running⟩)
    {reads : List SidecarRead} {rawReads' : List StoredRawRead} (auditLog : List AuditRow)
    (hinserted : Inserted crates disk.database.rawReads reads rawReads')
    (hlog : ∀ read ∈ reads, recovered read ∈ verified crates disk.file)
    (htip : ∀ journal tip, running = some journal → journal.sidecar.bind (·.tip) = some tip →
      ∀ read ∈ reads, recovered read ∈ verified crates (disk.file.take tip.lineEnd)) :
    Refines crates guarded offers ⟨disk, running⟩
      ⟨⟨disk.file, ⟨rawReads', disk.database.sidecarCheckpoints, auditLog⟩⟩, running⟩ := by
  have hgrow := hinserted
  obtain ⟨rows, rfl, hrows, hseq⟩ := hinserted.exists_rows
  have hmax : maxSeq disk.database.rawReads ≤ maxSeq (disk.database.rawReads ++ rows) := by
    have hall : ∀ first second : List StoredRawRead, maxSeq first ≤ maxSeq (first ++ second) := by
      intro first second
      induction first with
      | nil => exact Nat.zero_le _
      | cons row first ih => exact max_le_max le_rfl ih
    exact hall _ _
  refine .of_move ⟨hgrow.well_formed h.rows, fun checkpoint hcheckpoint =>
    ⟨(h.checkpoints checkpoint hcheckpoint).1,
      le_trans (h.checkpoints checkpoint hcheckpoint).2 hmax⟩, h.journal⟩ ?_
  have hentries : rows.map entryOf = reads.map recovered := hrows
  have hmove : Wal.Move idOf guarded offers (walOf crates ⟨disk, running⟩) _ :=
    .insert (reads.map recovered) ?_ ?_
  · convert hmove using 1
    simp only [walOf, List.map_append, hentries]
    rw [marks_inserted h auditLog hgrow]
  · intro entry hentry
    obtain ⟨read, hread, rfl⟩ := List.mem_map.mp hentry
    exact hlog read hread
  · intro appender tip happender happtip entry hentry
    obtain ⟨read, hread, rfl⟩ := List.mem_map.mp hentry
    obtain ⟨journal, hjournal, rfl⟩ := Option.map_eq_some_iff.mp happender
    obtain ⟨lastTip, hlastTip, rfl⟩ := Option.map_eq_some_iff.mp happtip
    exact htip journal lastTip hjournal hlastTip read hread

/-- The handle clears its memory; when guarded, with its whole log in the table. -/
theorem refines_confirm (h : Located ⟨disk, some journal⟩)
    (hguard : guarded → (walOf crates ⟨disk, some journal⟩).Confirmed idOf) :
    Refines crates guarded offers ⟨disk, some journal⟩
      ⟨disk, some { journal with unconfirmed := false }⟩ := by
  refine .of_move ⟨h.rows, h.checkpoints, ?_⟩
    (.confirm (appenderOf crates disk.file journal) rfl hguard)
  rintro _ ⟨⟩
  exact h.journal journal rfl

/-! ## Checkpoints -/

/-- What an attempt to record a checkpoint can do: nothing to the database, or one more row at
the handle's tip, when the handle has nothing unconfirmed. -/
theorem checkpoint_cases {env : CheckpointEnv} {journal' : SqliteJournal}
    {database database' : Database} {outcome : Except StorageError Bool}
    (h : journal.checkpoint env database = (outcome, journal', database')) :
    journal'.sidecar = journal.sidecar ∧ journal'.unconfirmed = journal.unconfirmed ∧
      (database' = database ∨ ∃ tip recordedAt, journal.unconfirmed = false ∧
        journal.sidecar.bind (·.tip) = some tip ∧
        database' = { database with
          sidecarCheckpoints := database.sidecarCheckpoints ++
            [⟨tip.lineEnd, tip.digest, maxSeq database.rawReads, recordedAt⟩] }) := by
  rw [SqliteJournal.checkpoint] at h
  cases hunconfirmed : journal.unconfirmed with
  | true =>
      rw [if_pos hunconfirmed] at h
      cases h
      exact ⟨rfl, hunconfirmed, Or.inl rfl⟩
  | false =>
      rw [if_neg (by simp [hunconfirmed])] at h
      cases htip : journal.sidecar.bind (·.tip) with
      | none =>
          simp only [htip] at h
          cases h
          exact ⟨rfl, hunconfirmed, Or.inl rfl⟩
      | some tip =>
          simp only [htip] at h
          cases hfault : env.fault with
          | some error =>
              simp only [hfault] at h
              cases h
              exact ⟨rfl, hunconfirmed, Or.inl rfl⟩
          | none =>
              simp only [hfault] at h
              split_ifs at h <;> cases h
              · exact ⟨rfl, hunconfirmed, Or.inl rfl⟩
              · exact ⟨rfl, hunconfirmed, Or.inl rfl⟩
              · exact ⟨rfl, hunconfirmed, Or.inr ⟨tip, _, rfl, rfl, rfl⟩⟩

/-- An attempt to record a checkpoint is a mark of the log, or nothing. -/
theorem refines_checkpoint (h : Located ⟨disk, some journal⟩) {env : CheckpointEnv}
    {journal' : SqliteJournal} {database' : Database} {outcome : Except StorageError Bool}
    (hcheckpoint : journal.checkpoint env disk.database = (outcome, journal', database')) :
    Refines crates guarded offers ⟨disk, some journal⟩ ⟨⟨disk.file, database'⟩, some journal'⟩ := by
  obtain ⟨hsidecar, hunconfirmed, hdatabase⟩ := checkpoint_cases hcheckpoint
  have happender (file : List UInt8) :
      appenderOf crates file journal' = appenderOf crates file journal := by
    rw [appenderOf, appenderOf, hsidecar, hunconfirmed]
  have hjournal : ∀ running, some journal' = some running → ∃ sidecar,
      running.sidecar = some sidecar ∧
        ∀ tip, sidecar.tip = some tip → EndsLine disk.file tip.lineEnd := by
    rintro _ ⟨⟩
    rw [hsidecar]
    exact h.journal journal rfl
  rcases hdatabase with rfl | ⟨tip, recordedAt, hconfirmed, htip, rfl⟩
  · refine ⟨⟨h.rows, h.checkpoints, hjournal⟩, ?_⟩
    have hsame : walOf crates ⟨disk, some journal'⟩ = walOf crates ⟨disk, some journal⟩ := by
      simp only [walOf, Option.map_some, happender]
    exact hsame ▸ Relation.ReflTransGen.refl
  · refine .of_move ⟨h.rows, fun checkpoint hmem => ?_, hjournal⟩ ?_
    · rcases List.mem_append.mp hmem with hmem | hmem
      · exact h.checkpoints checkpoint hmem
      · rw [List.mem_singleton.mp hmem]
        exact ⟨h.tip htip, le_rfl⟩
    have hall : disk.database.rawReads.filter
        (fun row => row.seq ≤ maxSeq disk.database.rawReads) = disk.database.rawReads :=
      List.filter_eq_self.mpr fun row hrow => decide_eq_true (seq_le_max_seq hrow)
    have hmove : Wal.Move idOf guarded offers (walOf crates ⟨disk, some journal⟩) _ :=
      .mark _ (verified crates (disk.file.take tip.lineEnd)) rfl hconfirmed
        (by rw [appenderOf, htip, Option.map_some])
    convert hmove using 1
    simp only [walOf, Option.map_some, happender, List.map_append, List.map_cons, List.map_nil]
    congr 2
    simp only [markOf, hall]

/-! ## Appending -/

/-- A batch that will commit unless something fails at run time: every read is storable, and no
id is taken or used twice. -/
structure Committable (rawReads : List StoredRawRead) (reads : List RawRead) : Prop where
  storable : ∀ read ∈ reads, storable read = .ok ()
  ids_nodup : (reads.map (·.id)).Nodup
  fresh : ∀ read ∈ reads, read.id ∉ storedIds rawReads

/-- A batch as the entries the sidecar writes. -/
def stamped (reads : List RawRead) (recordedAt : OffsetDateTime) : List SidecarRead :=
  reads.map fun read => ⟨read, recordedAt⟩

theorem storable_stamped {reads : List RawRead} {recordedAt : OffsetDateTime}
    (h : ∀ read ∈ reads, storable read = .ok ()) :
    ∀ read ∈ stamped reads recordedAt, storable read.read = .ok () := by
  intro read hread
  obtain ⟨source, hsource, rfl⟩ := List.mem_map.mp hread
  exact h source hsource

theorem ids_stamped (reads : List RawRead) (recordedAt : OffsetDateTime) :
    (stamped reads recordedAt).map (fun read => read.read.id) = reads.map (·.id) := by
  rw [stamped, List.map_map]
  rfl

/-- What is inserted was committable. -/
theorem Inserted.committable {rawReads rawReads' : List StoredRawRead} {reads : List RawRead}
    {recordedAt : OffsetDateTime}
    (h : Inserted crates rawReads (stamped reads recordedAt) rawReads')
    (hrows : WellFormed rawReads) (hstorable : ∀ read ∈ reads, storable read = .ok ()) :
    Committable rawReads reads := by
  have hnodup := (h.well_formed hrows).ids_nodup
  rw [h.stored_ids_eq, ids_stamped, List.nodup_append] at hnodup
  obtain ⟨_, hids, hdisjoint⟩ := hnodup
  exact ⟨hstorable, hids, fun read hread hmem =>
    hdisjoint _ hmem _ (List.mem_map_of_mem hread) rfl⟩

/-- What the transaction of an append can do: nothing, or insert the batch, clear `unconfirmed`
and perhaps record a checkpoint. -/
theorem commit_cases {env : AppendEnv} {journal' : SqliteJournal} {disk' : Disk}
    {reads : List RawRead} {outcome : Except StorageError (List StoredRawRead)}
    (hstorable : ∀ read ∈ reads, storable read = .ok ())
    (h : journal.commit crates env disk reads = (outcome, journal', disk')) :
    ((∃ error, outcome = .error error) ∧ journal' = journal ∧ disk' = disk) ∨
      ∃ stored rawReads' checkpointed, outcome = .ok stored ∧ stored.map (·.read) = reads ∧
        env.transaction = none ∧
        Inserted crates disk.database.rawReads (stamped reads env.now) rawReads' ∧
        disk' = ⟨disk.file, checkpointed⟩ ∧
        ((journal' = { journal with unconfirmed := false } ∧
            checkpointed = { disk.database with rawReads := rawReads' }) ∨
          ∃ result, SqliteJournal.checkpoint env.checkpoint { journal with unconfirmed := false }
            { disk.database with rawReads := rawReads' } = (result, journal', checkpointed)) := by
  rw [SqliteJournal.commit] at h
  cases hinsert : insertEach crates env.now disk.database.rawReads reads with
  | error error =>
      simp only [hinsert] at h
      cases h
      exact Or.inl ⟨⟨_, rfl⟩, rfl, rfl⟩
  | ok inserted =>
      obtain ⟨rawReads', stored⟩ := inserted
      obtain ⟨hinserted, hstored⟩ := insert_each_cases hstorable hinsert
      simp only [hinsert] at h
      cases htransaction : env.transaction with
      | some error =>
          simp only [htransaction] at h
          cases h
          exact Or.inl ⟨⟨_, rfl⟩, rfl, rfl⟩
      | none =>
          simp only [htransaction] at h
          split_ifs at h
          · cases h
            exact Or.inr ⟨stored, rawReads', _, rfl, hstored, rfl, hinserted, rfl,
              Or.inr ⟨_, rfl⟩⟩
          · cases h
            exact Or.inr ⟨stored, rawReads', _, rfl, hstored, rfl, hinserted, rfl,
              Or.inl ⟨rfl, rfl⟩⟩

/-- The transaction of an append, behind the sidecar. -/
theorem refines_commit (h : Located ⟨disk, some journal⟩) {env : AppendEnv}
    {journal' : SqliteJournal} {disk' : Disk} {reads : List RawRead}
    {outcome : Except StorageError (List StoredRawRead)}
    (hstorable : ∀ read ∈ reads, storable read = .ok ())
    (hlog : ∀ read ∈ stamped reads env.now, recovered read ∈ verified crates disk.file)
    (htip : ∀ tip, journal.sidecar.bind (·.tip) = some tip → ∀ read ∈ stamped reads env.now,
      recovered read ∈ verified crates (disk.file.take tip.lineEnd))
    (hguard : guarded → env.transaction = none → Committable disk.database.rawReads reads →
      ∀ entry ∈ verified crates disk.file,
        entry.read.id ∈ storedIds disk.database.rawReads ++ reads.map (·.id))
    (hcommit : journal.commit crates env disk reads = (outcome, journal', disk')) :
    Refines crates guarded offers ⟨disk, some journal⟩ ⟨disk', some journal'⟩ := by
  rcases commit_cases hstorable hcommit with ⟨_, rfl, rfl⟩ |
    ⟨stored, rawReads', checkpointed, _, _, htransaction, hinserted, rfl, hcheckpointed⟩
  · exact .refl h
  have hinsert : Refines crates guarded offers ⟨disk, some journal⟩
      ⟨⟨disk.file, { disk.database with rawReads := rawReads' }⟩, some journal⟩ := by
    refine refines_insert h _ hinserted hlog ?_
    rintro _ tip ⟨⟩ hsome
    exact htip tip hsome
  have hconfirm : Refines crates guarded offers
      ⟨⟨disk.file, { disk.database with rawReads := rawReads' }⟩, some journal⟩
      ⟨⟨disk.file, { disk.database with rawReads := rawReads' }⟩,
        some { journal with unconfirmed := false }⟩ := by
    refine refines_confirm hinsert.located fun hguarded entry hentry => ?_
    change idOf entry ∈ (rawReads'.map entryOf).map idOf
    rw [ids_entries, hinserted.stored_ids_eq, ids_stamped]
    exact hguard hguarded htransaction (hinserted.committable h.rows hstorable) entry hentry
  rcases hcheckpointed with ⟨rfl, rfl⟩ | ⟨result, hcheckpoint⟩
  · exact hinsert.trans hconfirm
  · exact (hinsert.trans hconfirm).trans (refines_checkpoint hconfirm.located hcheckpoint)

theorem storable_of_for_m {reads : List RawRead} (h : reads.forM storable = .ok ()) :
    ∀ read ∈ reads, storable read = .ok () := by
  induction reads with
  | nil => exact fun _ hread => absurd hread List.not_mem_nil
  | cons read reads ih =>
      change (storable read >>= fun _ => reads.forM storable) = _ at h
      cases hfirst : storable read with
      | error error => rw [hfirst] at h; cases h
      | ok _ =>
          rw [hfirst] at h
          intro other hother
          rcases List.mem_cons.mp hother with rfl | hother
          · exact hfirst
          · exact ih h other hother

/-- What an append can do: refuse the batch, fail in the sidecar with some of the batch in the
file, or write all of it and go on to the transaction. An empty batch writes nothing. -/
theorem insert_all_cases {env : AppendEnv} {journal' : SqliteJournal} {disk' : Disk}
    {sidecar : Sidecar} {reads : List RawRead}
    {outcome : Except StorageError (List StoredRawRead)}
    (hsidecar : journal.sidecar = some sidecar)
    (h : journal.insertAll crates env disk reads = (outcome, journal', disk')) :
    ((∃ error, outcome = .error error) ∧ journal' = journal ∧ disk' = disk) ∨
      (∀ read ∈ reads, storable read = .ok ()) ∧
        (((∃ error, outcome = .error error) ∧ ∃ kept,
            journal' = { journal with unconfirmed := true } ∧
            disk' = ⟨disk.file ++ (batchOf crates (stamped reads env.now)).take kept,
              disk.database⟩) ∨
          (reads = [] ∧ SqliteJournal.commit crates env { journal with unconfirmed := true } disk
            reads = (outcome, journal', disk')) ∨
          (reads ≠ [] ∧ env.sidecar = none ∧ ∃ digest, SqliteJournal.commit crates env
            { journal with
              sidecar := some ⟨sidecar.path, some
                ⟨(disk.file ++ batchOf crates (stamped reads env.now)).length, digest⟩⟩
              unconfirmed := true }
            ⟨disk.file ++ batchOf crates (stamped reads env.now), disk.database⟩ reads =
              (outcome, journal', disk'))) := by
  rw [SqliteJournal.insertAll] at h
  cases hcheck : reads.forM storable with
  | error error =>
      simp only [hcheck] at h
      cases h
      exact Or.inl ⟨⟨_, rfl⟩, rfl, rfl⟩
  | ok _ =>
      refine Or.inr ⟨storable_of_for_m hcheck, ?_⟩
      simp only [hcheck, hsidecar] at h
      cases hwrite : sidecar.appendRecords crates env.sidecar disk.file
          (reads.map fun read => ⟨read, env.now⟩) with
      | mk written rest =>
          obtain ⟨sidecar', file'⟩ := rest
          simp only [hwrite] at h
          rcases append_records_cases hwrite with ⟨hreads, rfl, rfl, rfl⟩ |
            ⟨error, kept, rfl, rfl, rfl⟩ | ⟨hreads, hfault, rfl, rfl, digest, rfl⟩
          · refine Or.inr (Or.inl ⟨List.map_eq_nil_iff.mp hreads, ?_⟩)
            simp only at h
            rwa [← hsidecar] at h
          · cases h
            exact Or.inl ⟨⟨_, rfl⟩, kept, by rw [← hsidecar], rfl⟩
          · refine Or.inr (Or.inr ⟨fun hnil => hreads (by rw [hnil]; rfl), hfault, digest, h⟩)

/-- An append is a write, and behind a complete one its transaction. When guarded, a batch that
commits must bring every read the sidecar verifies and the table lacks. -/
theorem refines_insert_all (h : Located ⟨disk, some journal⟩) {env : AppendEnv}
    {journal' : SqliteJournal} {disk' : Disk} {reads : List RawRead}
    {outcome : Except StorageError (List StoredRawRead)}
    (hguard : guarded → (reads = [] ∨ env.sidecar = none) → env.transaction = none →
      Committable disk.database.rawReads reads → ∀ entry ∈ verified crates disk.file,
        entry.read.id ∈ storedIds disk.database.rawReads ++ reads.map (·.id))
    (hoffers : ∀ read ∈ stamped reads env.now, offers (recovered read))
    (hinsert : journal.insertAll crates env disk reads = (outcome, journal', disk')) :
    Refines crates guarded offers ⟨disk, some journal⟩ ⟨disk', some journal'⟩ := by
  obtain ⟨sidecar, hsidecar, htips⟩ := h.journal journal rfl
  rcases insert_all_cases hsidecar hinsert with ⟨_, rfl, rfl⟩ | ⟨hstorable, hrest⟩
  · exact .refl h
  have hstamped := @storable_stamped _ env.now hstorable
  rcases hrest with ⟨_, kept, rfl, rfl⟩ | ⟨rfl, hcommit⟩ | ⟨hreads, hfault, digest, hcommit⟩
  · exact refines_write h hstamped hoffers kept
  · -- an empty batch is a write of nothing and a transaction of nothing
    have hwrite := @refines_write crates guarded offers _ _ h [] (by simp) (by simp) 0
    simp only [List.take_zero, List.append_nil] at hwrite
    exact hwrite.trans (refines_commit hwrite.located (by simp) (by simp [stamped])
      (by simp [stamped]) (fun hguarded => hguard hguarded (Or.inl rfl)) hcommit)
  · have hne : stamped reads env.now ≠ [] := by simpa [stamped] using hreads
    have hwrite := @refines_complete crates guarded offers _ _ h _ hne hstamped hoffers
      sidecar.path digest
    have hverified : verified crates (disk.file ++ batchOf crates (stamped reads env.now)) =
        verified crates disk.file ++ (stamped reads env.now).map recovered :=
      verified_append_batch hstamped disk.file
    have hlog : ∀ read ∈ stamped reads env.now,
        recovered read ∈ verified crates (disk.file ++ batchOf crates (stamped reads env.now)) := by
      intro read hread
      rw [hverified]
      exact List.mem_append_right _ (List.mem_map_of_mem hread)
    refine hwrite.trans (refines_commit hwrite.located hstorable hlog ?_ ?_ hcommit)
    · rintro _ ⟨⟩
      rw [List.take_length]
      exact hlog
    · intro hguarded htransaction hcommittable entry hentry
      rw [hverified, List.mem_append] at hentry
      rcases hentry with hentry | hentry
      · exact hguard hguarded (Or.inr hfault) htransaction hcommittable entry hentry
      · obtain ⟨read, hread, rfl⟩ := List.mem_map.mp hentry
        obtain ⟨source, hsource, rfl⟩ := List.mem_map.mp hread
        have hid : source.id ∈ reads.map (·.id) := List.mem_map_of_mem hsource
        exact List.mem_append_right _ hid

/-! ## Recovery -/

/-- A handle that starts with nothing unconfirmed, behind the whole file or nowhere. -/
theorem refines_start (h : Located ⟨disk, none⟩) {sidecar : Sidecar}
    (hsidecar : journal.sidecar = some sidecar) (hunconfirmed : journal.unconfirmed = false)
    (htip : ∀ tip, sidecar.tip = some tip → EndsLine disk.file tip.lineEnd ∧
      verified crates (disk.file.take tip.lineEnd) = verified crates disk.file)
    (hguard : guarded → ∀ entry ∈ verified crates disk.file,
      entry.read.id ∈ storedIds disk.database.rawReads) :
    Refines crates guarded offers ⟨disk, none⟩ ⟨disk, some journal⟩ := by
  refine .of_move ⟨h.rows, h.checkpoints, ?_⟩ ?_
  · rintro _ ⟨⟩
    exact ⟨sidecar, hsidecar, fun tip hsome => (htip tip hsome).1⟩
  have hmove : Wal.Move idOf guarded offers (walOf crates ⟨disk, none⟩) _ :=
    .start (sidecar.tip.map fun tip => verified crates (disk.file.take tip.lineEnd)) rfl ?_ ?_
  · convert hmove using 1
    simp only [walOf, Option.map_some, appenderOf, hsidecar, hunconfirmed, Option.bind_some]
  · intro entries hentries
    obtain ⟨tip, hsome, rfl⟩ := Option.map_eq_some_iff.mp hentries
    exact (htip tip hsome).2
  · intro hguarded entry hentry
    change idOf entry ∈ (disk.database.rawReads.map entryOf).map idOf
    rw [ids_entries]
    exact hguard hguarded entry hentry

/-- A backfill, complete or not, with no handle yet. -/
theorem refines_backfill (h : Located ⟨disk, none⟩) {reads : List SidecarRead}
    (hstorable : ∀ read ∈ reads, storable read.read = .ok ())
    (htable : ∀ read ∈ reads, recovered read ∈ disk.database.rawReads.map entryOf) (kept : Nat) :
    Refines crates guarded offers ⟨disk, none⟩
      ⟨⟨disk.file ++ (batchOf crates reads).take kept, disk.database⟩, none⟩ := by
  obtain ⟨count, hcount⟩ := @verified_append_part crates _ hstorable disk.file kept
  refine .of_move ⟨h.rows, fun checkpoint hcheckpoint =>
    ⟨(h.checkpoints checkpoint hcheckpoint).1.append _, (h.checkpoints checkpoint hcheckpoint).2⟩,
    by rintro _ ⟨⟩⟩ ?_
  have hmove : Wal.Move idOf guarded offers (walOf crates ⟨disk, none⟩) _ :=
    .backfill ((reads.take count).map recovered) rfl
    (List.forall_mem_map.mpr fun read hread => htable read (List.mem_of_mem_take hread))
  convert hmove using 1
  simp only [walOf, Option.map_none, hcount, marks_append_file h]

/-- The handle a start keeps: none when it fails. -/
def keptHandle (outcome : Except StorageError RecoveryReport) (journal : SqliteJournal) :
    Option SqliteJournal :=
  match outcome with
  | .ok _ => some journal
  | .error _ => none

/-- A handle that stops. -/
theorem refines_stop (h : Located ⟨disk, some journal⟩) :
    Refines crates guarded offers ⟨disk, some journal⟩ ⟨disk, none⟩ :=
  .of_move ⟨h.rows, h.checkpoints, by rintro _ ⟨⟩⟩ .stop

/-- The attempt to record a checkpoint at the end of recovery, with whose failure the handle is
dropped. -/
theorem refines_recovered (h : Located ⟨disk, some journal⟩) (env : CheckpointEnv)
    {report : RecoveryReport} {journal' : SqliteJournal} {disk' : Disk}
    {outcome : Except StorageError RecoveryReport}
    (hresult : (match journal.checkpoint env disk.database with
      | (.error error, journal, database) => (.error error, journal, ⟨disk.file, database⟩)
      | (.ok _, journal, database) => (.ok report, journal, ⟨disk.file, database⟩)) =
        (outcome, journal', disk')) :
    Refines crates guarded offers ⟨disk, some journal⟩
      ⟨disk', keptHandle outcome journal'⟩ := by
  cases hcheckpoint : journal.checkpoint env disk.database with
  | mk result rest =>
      obtain ⟨journal'', database'⟩ := rest
      have hrecord := @refines_checkpoint crates guarded offers _ _ h _ _ _ _ hcheckpoint
      rw [hcheckpoint] at hresult
      cases result with
      | error error =>
          cases hresult
          exact hrecord.trans (refines_stop hrecord.located)
      | ok recorded =>
          cases hresult
          exact hrecord

/-- A handle that starts, and the checkpoint it may record at once. -/
theorem refines_resume (h : Located ⟨disk, none⟩) {path : String} {tip : Option Tip}
    {instant : Nat} (htip : ∀ tip', tip = some tip' → EndsLine disk.file tip'.lineEnd ∧
      verified crates (disk.file.take tip'.lineEnd) = verified crates disk.file)
    (hguard : guarded → ∀ entry ∈ verified crates disk.file,
      entry.read.id ∈ storedIds disk.database.rawReads)
    (env : CheckpointEnv) {report : RecoveryReport} {journal' : SqliteJournal} {disk' : Disk}
    {outcome : Except StorageError RecoveryReport}
    (hresult : (match SqliteJournal.checkpoint env
        ⟨some ⟨path, tip⟩, false, instant, checkpointInterval⟩ disk.database with
      | (.error error, journal, database) => (.error error, journal, ⟨disk.file, database⟩)
      | (.ok _, journal, database) => (.ok report, journal, ⟨disk.file, database⟩)) =
        (outcome, journal', disk')) :
    Refines crates guarded offers ⟨disk, none⟩ ⟨disk', keptHandle outcome journal'⟩ := by
  have hstarted := @refines_start crates guarded offers _
    ⟨some ⟨path, tip⟩, false, instant, checkpointInterval⟩ h _ rfl rfl htip hguard
  exact hstarted.trans (refines_recovered hstarted.located env hresult)

/-- A complete backfill, and a handle that starts behind it. -/
theorem refines_backfill_resume (h : Located ⟨disk, none⟩) {reads : List SidecarRead}
    (hreads : reads ≠ []) (hstorable : ∀ read ∈ reads, storable read.read = .ok ())
    (htable : ∀ read ∈ reads, recovered read ∈ disk.database.rawReads.map entryOf)
    {path digest : String} {instant : Nat}
    (hguard : guarded → ∀ entry ∈ verified crates disk.file,
      entry.read.id ∈ storedIds disk.database.rawReads)
    (env : CheckpointEnv) {report : RecoveryReport} {journal' : SqliteJournal} {disk' : Disk}
    {outcome : Except StorageError RecoveryReport}
    (hresult : (match SqliteJournal.checkpoint env
        ⟨some ⟨path, some ⟨(disk.file ++ batchOf crates reads).length, digest⟩⟩, false, instant,
          checkpointInterval⟩ disk.database with
      | (.error error, journal, database) =>
        (.error error, journal, ⟨disk.file ++ batchOf crates reads, database⟩)
      | (.ok _, journal, database) =>
        (.ok report, journal, ⟨disk.file ++ batchOf crates reads, database⟩)) =
        (outcome, journal', disk')) :
    Refines crates guarded offers ⟨disk, none⟩ ⟨disk', keptHandle outcome journal'⟩ := by
  have hfill := @refines_backfill crates guarded offers _ h _ hstorable htable
    (batchOf crates reads).length
  rw [List.take_length] at hfill
  refine hfill.trans (refines_resume hfill.located ?_ ?_ env hresult)
  · rintro _ ⟨⟩
    refine ⟨ends_line_append_batch hreads disk.file, ?_⟩
    rw [List.take_length]
  · -- what the backfill adds to the sidecar is in the table
    intro hguarded entry hentry
    rw [verified_append_batch hstorable, List.mem_append] at hentry
    rcases hentry with hentry | hentry
    · exact hguard hguarded entry hentry
    · obtain ⟨read, hread, rfl⟩ := List.mem_map.mp hentry
      rw [← ids_entries]
      exact List.mem_map_of_mem (htable read hread)

/-- The tip a pass leaves is behind every verified read. -/
theorem pass_tip_spec {start : Start} {rawReads' : List StoredRawRead} {found : Pass}
    (hspec : PassSpec crates disk start rawReads' found)
    (hstart : EndsLine disk.file start.fromByte) {tip : Tip}
    (htip : passTip start found = some tip) : EndsLine disk.file tip.lineEnd ∧
      verified crates (disk.file.take tip.lineEnd) = verified crates disk.file := by
  have hlast := hspec.lastVerified hstart
  unfold passTip at htip
  cases hfound : found.lastVerified with
  | some last =>
      rw [hfound] at hlast htip
      cases htip
      exact hlast
  | none =>
      rw [hfound] at hlast htip
      cases start with
      | beginning => cases htip
      | after checkpoint =>
          cases htip
          refine ⟨hstart, ?_⟩
          rw [hstart.verified_eq, hlast, List.append_nil]
          rfl

/-- What a pass backfills is storable and in the table. -/
theorem backfill_spec {start : Start} {rawReads' : List StoredRawRead} {found : Pass}
    (hspec : PassSpec crates disk start rawReads' found)
    (hlog : ∀ entry ∈ rawReads'.map entryOf, entry ∈ verified crates disk.file)
    {read : SidecarRead} (hread : read ∈ found.backfill) :
    storable read.read = .ok () ∧ recovered read ∈ rawReads'.map entryOf := by
  obtain ⟨row, hrow, rfl⟩ := hspec.backfill read hread
  have hmem : entryOf row ∈ rawReads'.map entryOf := List.mem_map_of_mem hrow
  obtain ⟨hstorable, hrecovered⟩ := of_mem_verified (hlog _ hmem)
  exact ⟨hstorable, hrecovered.symm ▸ hmem⟩

/-- Recovery commits the union, backfills what the sidecar lacks, and starts a handle at the
file's end, which may record a checkpoint there. When guarded, the table must have what the
sidecar verifies in front of the place the pass starts from. -/
theorem refines_repair {path : String} {instant : Nat} {env : RecoverEnv} {start : Start}
    (h : Located ⟨disk, none⟩) (hahead : (walOf crates ⟨disk, none⟩).Ahead)
    (hstart : EndsLine disk.file start.fromByte)
    (hguard : guarded → ∀ entry ∈ verified crates (disk.file.take start.fromByte),
      entry.read.id ∈ storedIds disk.database.rawReads)
    {journal' : SqliteJournal} {disk' : Disk} {outcome : Except StorageError RecoveryReport}
    (hrepair : (SqliteJournal.opened path instant).repair crates env disk start =
      (outcome, journal', disk')) :
    Refines crates guarded offers ⟨disk, none⟩
      ⟨disk', keptHandle outcome journal'⟩ := by
  obtain ⟨rawReads', found, hpass, hspec⟩ := @pass_spec crates disk start
  obtain ⟨reads, hinserted, hreads⟩ := hspec.inserted
  rw [SqliteJournal.repair] at hrepair
  simp only [SqliteJournal.opened, hpass] at hrepair
  cases htransaction : env.transaction with
  | some error =>
      simp only [htransaction] at hrepair
      cases hrepair
      exact .refl h
  | none =>
      simp only [htransaction] at hrepair
      generalize hauditLog : (if 0 < found.replayed.count then _ else _ : List AuditRow) = auditLog
        at hrepair
      have hlog : ∀ read ∈ reads, recovered read ∈ verified crates disk.file := by
        intro read hread
        have hmem := hreads read hread
        rw [(of_mem_verified hmem).2, hstart.verified_eq]
        exact List.mem_append_right _ hmem
      have hinsert : Refines crates guarded offers ⟨disk, none⟩
          ⟨⟨disk.file, ⟨rawReads', disk.database.sidecarCheckpoints, auditLog⟩⟩, none⟩ :=
        refines_insert h auditLog hinserted hlog (by rintro _ _ ⟨⟩)
      have hconfirmed : guarded → ∀ entry ∈ verified crates disk.file,
          entry.read.id ∈ storedIds rawReads' := by
        intro hguarded entry hentry
        rw [hstart.verified_eq, List.mem_append] at hentry
        rcases hentry with hentry | hentry
        · rw [hinserted.stored_ids_eq]
          exact List.mem_append_left _ (hguard hguarded entry hentry)
        · exact hspec.stored entry hentry
      by_cases hbackfill : found.backfill = []
      · rw [if_pos hbackfill] at hrepair
        refine hinsert.trans ?_
        cases htip : passTip start found with
        | none =>
            simp only [htip] at hrepair
            refine @refines_resume crates guarded offers _ hinsert.located path none instant ?_
              hconfirmed env.checkpoint _ _ _ _ hrepair
            rintro _ ⟨⟩
        | some tip =>
            simp only [htip] at hrepair
            refine @refines_resume crates guarded offers _ hinsert.located path (some tip) instant
              ?_ hconfirmed env.checkpoint _ _ _ _ hrepair
            rintro _ ⟨⟩
            exact pass_tip_spec hspec hstart htip
      · rw [if_neg hbackfill] at hrepair
        -- a backfilled read is a row, and a row's read is in the log
        have hrows := fun read => @backfill_spec crates disk _ _ _ hspec
          (hahead.moves hinsert.moves).log read
        have hstorable := fun read hread => (hrows read hread).1
        have htable := fun read hread => (hrows read hread).2
        cases hwrite : Sidecar.appendRecords crates env.backfill ⟨path, none⟩ disk.file
            found.backfill with
        | mk written rest =>
            obtain ⟨sidecar', file'⟩ := rest
            rw [hwrite] at hrepair
            rcases append_records_cases hwrite with ⟨hnil, _⟩ | ⟨error, kept, rfl, rfl, rfl⟩ |
              ⟨_, _, rfl, rfl, digest, rfl⟩
            · exact absurd hnil hbackfill
            · cases hrepair
              exact hinsert.trans (refines_backfill hinsert.located hstorable htable kept)
            · exact hinsert.trans (@refines_backfill_resume crates guarded offers _
                hinsert.located _ hbackfill hstorable htable path digest instant hconfirmed
                env.checkpoint _ _ _ _ hrepair)

/-- A usable checkpoint is one that was recorded. -/
theorem mem_of_usable_checkpoint {checkpoint : SidecarCheckpoint}
    (h : usableCheckpoint disk = some checkpoint) :
    checkpoint ∈ disk.database.sidecarCheckpoints := by
  rw [usableCheckpoint] at h
  cases hlatest : latestCheckpoint disk.database with
  | none => simp only [hlatest] at h; cases h
  | some latest =>
      simp only [hlatest] at h
      split_ifs at h
      cases h
      exact List.mem_of_getLast? hlatest

/-- A start recovers from the latest checkpoint it can use. -/
theorem refines_open_recovering {path : String} {env : RecoverEnv}
    (h : Located ⟨disk, none⟩) (hahead : (walOf crates ⟨disk, none⟩).Ahead)
    (hguard : guarded → (walOf crates ⟨disk, none⟩).Sound idOf) :
    Refines crates guarded offers ⟨disk, none⟩
      (step crates ⟨disk, none⟩ (.openRecovering path env)) := by
  have hfrom : EndsLine disk.file (Start.of (usableCheckpoint disk)).fromByte ∧
      (guarded → ∀ entry ∈
        verified crates (disk.file.take (Start.of (usableCheckpoint disk)).fromByte),
        entry.read.id ∈ storedIds disk.database.rawReads) := by
    cases husable : usableCheckpoint disk with
    | none => exact ⟨ends_line_zero _, fun _ _ hentry => by cases hentry⟩
    | some checkpoint =>
        have hmem := mem_of_usable_checkpoint husable
        refine ⟨(h.checkpoints checkpoint hmem).1, fun hguarded entry hentry => ?_⟩
        have hmark := (hguard hguarded).marks (markOf crates disk checkpoint)
          (List.mem_map_of_mem hmem)
        rw [← ids_entries]
        exact hmark.covered entry hentry
  simp only [step, openRecovering]
  cases hopening : env.opening with
  | some error => exact .refl h
  | none =>
      cases hrepair : (SqliteJournal.opened path env.instant).repair crates env disk
          (.of (usableCheckpoint disk)) with
      | mk outcome rest =>
          obtain ⟨journal', disk'⟩ := rest
          have hrefines := @refines_repair crates guarded offers _ _ _ _ _ h hahead hfrom.1 hfrom.2
            _ _ _ hrepair
          cases outcome with
          | error error => exact hrefines
          | ok report => exact hrefines

end Splitforge.Storage
