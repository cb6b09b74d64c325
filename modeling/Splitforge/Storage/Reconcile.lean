import Splitforge.Storage.Checkpoints

/-!
# Taking the union

A reconcile inserts the first verified line of every id the table lacks, behind the rows that are
there, and appends the rows the sidecar lacks to it. A survey finds beforehand what it will do, and
behind it there is nothing left to do.
-/

namespace Splitforge.Storage

open Splitforge.Domain Splitforge.Library

variable {crates : Crates}

/-- The rows of a journal: unique ids, sequence numbers that start at one and increase, and values
that came out of their columns. -/
structure JournalRows (rawReads : List StoredRawRead) : Prop extends WellFormed rawReads where
  seq_pos : ∀ row ∈ rawReads, 0 < row.seq
  reads_storable : ∀ row ∈ rawReads, storable row.read = .ok ()
  reads_recovered : ∀ row ∈ rawReads, recovered (entryOf row) = entryOf row

/-- Inserted reads that are storable keep the rows of a journal. -/
theorem JournalRows.inserted {rawReads rawReads' : List StoredRawRead} {reads : List SidecarRead}
    (h : JournalRows rawReads) (hinserted : Inserted crates rawReads reads rawReads')
    (hstorable : ∀ read ∈ reads, storable read.read = .ok ()) : JournalRows rawReads' := by
  induction hinserted with
  | nil => exact h
  | @cons rawReads rawReads' read reads hfresh _ ih =>
      have hread := hstorable read List.mem_cons_self
      refine ih ⟨h.append_row hfresh, fun row hrow => ?_, fun row hrow => ?_, fun row hrow => ?_⟩
        fun other hother => hstorable other (List.mem_cons_of_mem _ hother)
      all_goals
        rcases List.mem_append.mp hrow with hold | hnew
      · exact h.seq_pos row hold
      · rw [List.mem_singleton.mp hnew]
        exact Nat.succ_pos _
      · exact h.reads_storable row hold
      · rw [List.mem_singleton.mp hnew]
        exact storable_as_stored hread
      · exact h.reads_recovered row hold
      · rw [List.mem_singleton.mp hnew]
        exact SidecarRead.ext (as_stored_as_stored _) (whole_micros_whole_micros _)

/-! ## Surveying -/

/-- A survey leaves the disk as it is, and finds what a repair from the beginning finds. -/
theorem survey_of_pass {journal : SqliteJournal} {sidecar : Sidecar}
    (hsidecar : journal.sidecar = some sidecar) {disk : Disk} {rawReads' : List StoredRawRead}
    {found : Pass} (hpass : pass crates disk .beginning (replayInto crates) =
      .ok (rawReads', found)) : journal.survey crates disk = (.ok found.status, disk) := by
  obtain ⟨_, found', hpass', hdid⟩ := @pass_replay crates disk .beginning
  rw [hpass] at hpass'
  cases hpass'
  have hseen : ∀ id, id ∈ ((verified crates disk.file).map idOf).reverse ++ [] ↔
      id ∈ (verified crates disk.file).map idOf := fun id => by
    rw [List.append_nil, List.mem_reverse]
  -- a pass that inserts nothing takes the same reads in
  have hkeep : ∀ reads : List SidecarRead, reads.foldlM
      (fun (rawReads : List StoredRawRead) (_ : SidecarRead) =>
        (Except.ok rawReads : Except StorageError (List StoredRawRead)))
      disk.database.rawReads = .ok disk.database.rawReads := fun reads => by
    induction reads with
    | nil => rfl
    | cons read reads ih => exact ih
  have hfold := @fold_pass_read (fun rawReads _ => .ok rawReads)
    (storedIds disk.database.rawReads) (verified crates disk.file)
    ⟨disk.database.rawReads, [], [], ⟨0, none, none, none, none⟩⟩
  rw [hkeep] at hfold
  obtain ⟨tally, hscan, hsurvey⟩ := @pass_of_fold crates disk .beginning _ _ hfold
    fun id hid => Or.inl hid
  obtain ⟨_, tally', hscan', hstatus⟩ := hdid.status
  have htally : tally = tally' := scan_from_tally hscan hscan'
  simp only [SqliteJournal.survey, hsidecar, hsurvey, hstatus, hdid.replayed, hdid.backfill, htally,
    missing_from_congr hseen]
  rfl

/-! ## Repairing -/

/-- A backfill appends some of the lines of its rows, and all of them when it goes through. -/
theorem file_of_backfill {env : RecoverEnv} {start : Start} {found : Pass} {sidecar : Sidecar}
    {file : List UInt8} {part : Except StorageError Unit × Sidecar × List UInt8}
    (hpart : (if found.backfill = [] then
        match passTip start found with
        | some tip => (.ok (), { sidecar with tip := some tip }, file)
        | none => (.ok (), sidecar, file)
      else sidecar.appendRecords crates env.backfill file found.backfill) = part) :
    (part.1 = .ok () → part.2.2 = file ++ batchOf crates found.backfill) ∧
      ∃ kept, part.2.2 = file ++ (batchOf crates found.backfill).take kept := by
  have hwhole : ∀ file' : List UInt8, file' = file ++ batchOf crates found.backfill →
      ∃ kept, file' = file ++ (batchOf crates found.backfill).take kept := fun file' h =>
    ⟨(batchOf crates found.backfill).length, by rw [List.take_length]; exact h⟩
  subst hpart
  by_cases hbackfill : found.backfill = []
  · have hsame : (match passTip start found with
        | some tip => ((.ok (), { sidecar with tip := some tip }, file) :
            Except StorageError Unit × Sidecar × List UInt8)
        | none => (.ok (), sidecar, file)).2.2 = file ++ batchOf crates found.backfill := by
      have hnone : batchOf crates [] = [] := rfl
      rw [hbackfill, hnone, List.append_nil]
      cases passTip start found <;> rfl
    rw [if_pos hbackfill]
    exact ⟨fun _ => hsame, hwhole _ hsame⟩
  · rw [if_neg hbackfill]
    cases happend : sidecar.appendRecords crates env.backfill file found.backfill with
    | mk outcome rest =>
        rcases append_records_cases happend with hcase | hcase | hcase
        · exact absurd hcase.1 hbackfill
        · obtain ⟨_, kept, herror, _, hfile⟩ := hcase
          refine ⟨fun hok => ?_, kept, hfile⟩
          rw [show outcome = _ from herror] at hok
          cases hok
        · exact ⟨fun _ => hcase.2.2.2.1, hwhole _ hcase.2.2.2.1⟩

/-- What a repair can do: fail with the disk as it was, or the replays of its pass and behind them
some of its backfill, which is all of it when the repair goes through. -/
theorem repair_cases {journal journal' : SqliteJournal} {sidecar : Sidecar}
    (hsidecar : journal.sidecar = some sidecar) {env : RecoverEnv} {start : Start}
    {disk disk' : Disk} {outcome : Except StorageError RecoveryReport}
    (h : journal.repair crates env disk start = (outcome, journal', disk')) :
    ((∃ error, outcome = .error error) ∧ disk' = disk) ∨
      ∃ found kept, PassDid crates disk start disk'.database.rawReads found ∧
        pass crates disk start (replayInto crates) = .ok (disk'.database.rawReads, found) ∧
        disk'.file = disk.file ++ (batchOf crates found.backfill).take kept ∧
        ∀ report, outcome = .ok report →
          report = ⟨found.status, found.replayed.count, found.backfill.length, found.fromByte⟩ ∧
            disk'.file = disk.file ++ batchOf crates found.backfill := by
  obtain ⟨rawReads', found, hpass, hdid⟩ := @pass_replay crates disk start
  simp only [SqliteJournal.repair, hsidecar, hpass] at h
  cases htransaction : env.transaction with
  | some error =>
      rw [htransaction] at h
      cases h
      exact Or.inl ⟨⟨_, rfl⟩, rfl⟩
  | none =>
      simp only [htransaction] at h
      have hfile := @file_of_backfill crates env start found sidecar disk.file
      generalize (if found.backfill = [] then _ else _) = part at h hfile
      obtain ⟨outcome, sidecar', file'⟩ := part
      obtain ⟨hwhole, kept, hkept⟩ := hfile rfl
      cases outcome with
      | error error =>
          cases h
          exact Or.inr ⟨found, kept, hdid, hpass, hkept, fun _ hok => by cases hok⟩
      | ok _ =>
          simp only at h
          split at h
          all_goals
            rename_i hcheckpoint
            have hrows := congrArg (fun result => result.2.2.rawReads) hcheckpoint
            have hsame := hrows.symm.trans (checkpoint_raw_reads _ _ _)
            cases h
          · exact Or.inr ⟨found, kept, hsame ▸ hdid, hsame ▸ hpass, hkept,
              fun _ hok => by cases hok⟩
          · exact Or.inr ⟨found, kept, hsame ▸ hdid, hsame ▸ hpass, hkept, fun _ hok => by
              cases hok; exact ⟨rfl, hwhole rfl⟩⟩

/-- What a repair that goes through did: the replays of its pass, and then its backfill. -/
theorem repair_of_ok {journal journal' : SqliteJournal} {sidecar : Sidecar}
    (hsidecar : journal.sidecar = some sidecar) {env : RecoverEnv} {start : Start}
    {disk disk' : Disk} {report : RecoveryReport}
    (h : journal.repair crates env disk start = (.ok report, journal', disk')) :
    ∃ found, pass crates disk start (replayInto crates) = .ok (disk'.database.rawReads, found) ∧
      PassDid crates disk start disk'.database.rawReads found ∧
      report = ⟨found.status, found.replayed.count, found.backfill.length, found.fromByte⟩ ∧
      disk'.file = disk.file ++ batchOf crates found.backfill := by
  rcases repair_cases hsidecar h with ⟨⟨_, herror⟩, _⟩ | ⟨found, _, hdid, hpass, _, hok⟩
  · cases herror
  · obtain ⟨hreport, hfile⟩ := hok report rfl
    exact ⟨found, hpass, hdid, hreport, hfile⟩

/-! ## The union -/

/-- What a reconcile that went through made of a table and a sidecar, and what it reported. The
rows that were there stand in front, and each new row is the first verified line of its id, in
file order. The sidecar has the rows it lacked, behind what it held. -/
structure Reconciled (crates : Crates) (disk : Disk) (report : RecoveryReport) (disk' : Disk) :
    Prop where
  replayed : ∃ rows : List StoredRawRead,
    disk'.database.rawReads = disk.database.rawReads ++ rows ∧
    rows.length = report.replayedIntoDatabase ∧
    (rows.map entryOf).Sublist (verified crates disk.file) ∧
    ∀ row ∈ rows, (verified crates disk.file).find? (fun read => idOf read = row.read.id) =
      some (entryOf row)
  backfilled : ∃ rows : List StoredRawRead, (∀ row ∈ rows, row ∈ disk.database.rawReads) ∧
    rows.length = report.backfilledIntoSidecar ∧
    disk'.file = disk.file ++ batchOf crates (rows.map entryOf) ∧
    verified crates disk'.file = verified crates disk.file ++ rows.map entryOf
  rows : JournalRows disk'.database.rawReads
  once : ∀ read ∈ verified crates disk.file,
    (storedIds disk'.database.rawReads).count (idOf read) = 1
  lines : ∀ row ∈ disk'.database.rawReads, ∃ read ∈ verified crates disk'.file,
    idOf read = row.read.id

/-- Reads that came out of their lines are what is inserted for them. -/
theorem map_recovered {reads : List SidecarRead} {file : List UInt8}
    (h : ∀ read ∈ reads, read ∈ verified crates file) : reads.map recovered = reads := by
  have hall : reads.map recovered = reads.map id :=
    List.map_congr_left fun read hread => (of_mem_verified (h read hread)).2
  rw [hall, List.map_id]

/-- The rows a pass from the beginning backfills are those whose ids no verified line has. -/
theorem missing_from_beginning {rawReads : List StoredRawRead} (h : JournalRows rawReads)
    (seen : List RawReadId) :
    missingFrom rawReads 0 seen = (rawReads.filter fun row => row.read.id ∉ seen).map entryOf := by
  have hfilter : rawReads.filter (fun row => 0 < row.seq ∧ row.read.id ∉ seen) =
      rawReads.filter fun row => row.read.id ∉ seen :=
    List.filter_congr fun row hrow => by simp [h.seq_pos row hrow]
  rw [missingFrom, hfilter]
  rfl

/-- A pass from the beginning and the backfill behind it take the union. -/
theorem reconciled_of_pass {disk disk' : Disk} (hrows : JournalRows disk.database.rawReads)
    {found : Pass} (hdid : PassDid crates disk .beginning disk'.database.rawReads found)
    (hfile : disk'.file = disk.file ++ batchOf crates found.backfill) (fromByte : Nat) :
    Reconciled crates disk
      ⟨found.status, found.replayed.count, found.backfill.length, fromByte⟩ disk' := by
  obtain ⟨hinserted, hreplayed, hbackfill, _, _, _⟩ := hdid
  have hdrop : disk.file.drop Start.beginning.fromByte = disk.file := List.drop_zero
  rw [hdrop] at hinserted hreplayed hbackfill
  have hsublist := @first_of_sublist _ _ _ idOf (storedIds disk.database.rawReads)
    (verified crates disk.file)
  obtain ⟨rows, htable, hentries, _⟩ := hinserted.exists_rows
  rw [map_recovered fun read hread => hsublist.subset hread] at hentries
  have hrows' : JournalRows disk'.database.rawReads :=
    hrows.inserted hinserted fun read hread => (of_mem_verified (hsublist.subset hread)).1
  -- what is backfilled are the rows no verified line has the id of
  rw [Start.afterSeq, missing_from_beginning hrows] at hbackfill
  have hverified : verified crates disk'.file =
      verified crates disk.file ++ found.backfill := by
    rw [hfile, hbackfill, verified_append_batch, List.map_map]
    · refine congrArg _ (List.map_congr_left fun row hrow => ?_)
      exact hrows.reads_recovered row (List.mem_of_mem_filter hrow)
    · intro read hread
      obtain ⟨row, hrow, rfl⟩ := List.mem_map.mp hread
      exact hrows.reads_storable row (List.mem_of_mem_filter hrow)
  refine ⟨⟨rows, htable, ?_, ?_, fun row hrow => ?_⟩, ⟨_, ?_, ?_, hbackfill ▸ hfile, ?_⟩, hrows',
    fun read hread => ?_, fun row hrow => ?_⟩
  · rw [hreplayed, count_replayed_of, ← hentries, List.length_map]
  · rw [show rows.map entryOf = _ from hentries]
    exact hsublist
  · have hmem : entryOf row ∈ rows.map entryOf := List.mem_map_of_mem hrow
    rw [show rows.map entryOf = _ from hentries] at hmem
    exact find_of_mem_first_of hmem
  · exact fun row hrow => List.mem_of_mem_filter hrow
  · rw [hbackfill, List.length_map]
  · rw [hverified, hbackfill]
  · have hids := hinserted.stored_ids_eq
    refine List.count_eq_one_of_mem hrows'.ids_nodup ?_
    rw [hids, List.mem_append]
    by_cases hstored : idOf read ∈ storedIds disk.database.rawReads
    · exact Or.inl hstored
    · exact Or.inr (mem_map_first_of.mpr ⟨hstored, List.mem_map_of_mem hread⟩)
  · rw [hverified]
    by_cases hseen : row.read.id ∈ (verified crates disk.file).map idOf
    · obtain ⟨read, hread, heq⟩ := List.mem_map.mp hseen
      exact ⟨read, List.mem_append_left _ hread, heq⟩
    · -- a row no line has the id of was there before, and is backfilled
      rw [htable, List.mem_append] at hrow
      rcases hrow with hrow | hrow
      · refine ⟨entryOf row, List.mem_append_right _ ?_, rfl⟩
        rw [hbackfill]
        exact List.mem_map_of_mem (List.mem_filter.mpr ⟨hrow, by simpa using hseen⟩)
      · refine absurd ?_ hseen
        have hmem : entryOf row ∈ rows.map entryOf := List.mem_map_of_mem hrow
        rw [show rows.map entryOf = _ from hentries] at hmem
        exact List.mem_map_of_mem (hsublist.subset hmem)

/-- Where the table has every verified id and every row has a verified line, there is nothing left
to do. -/
theorem pass_of_union {disk : Disk} (hrows : JournalRows disk.database.rawReads)
    (htable : ∀ read ∈ verified crates disk.file, idOf read ∈ storedIds disk.database.rawReads)
    (hlines : ∀ row ∈ disk.database.rawReads, ∃ read ∈ verified crates disk.file,
      idOf read = row.read.id) {rawReads' : List StoredRawRead} {found : Pass}
    (hdid : PassDid crates disk .beginning rawReads' found) :
    rawReads' = disk.database.rawReads ∧ found.replayed.count = 0 ∧ found.backfill = [] := by
  obtain ⟨hinserted, hreplayed, hbackfill, _, _, _⟩ := hdid
  have hdrop : disk.file.drop Start.beginning.fromByte = disk.file := List.drop_zero
  rw [hdrop] at hinserted hreplayed hbackfill
  rw [first_of_eq_nil.mpr htable] at hinserted hreplayed
  refine ⟨?_, by rw [hreplayed]; rfl, ?_⟩
  · cases hinserted
    rfl
  · rw [hbackfill, Start.afterSeq, missing_from_beginning hrows, List.map_eq_nil_iff,
      List.filter_eq_nil_iff]
    intro row hrow
    obtain ⟨read, hread, heq⟩ := hlines row hrow
    have hseen : row.read.id ∈ (verified crates disk.file).map idOf :=
      heq ▸ List.mem_map_of_mem hread
    simpa using hseen

/-- A survey finds what a reconcile does, a reconcile that goes through takes the union, and a
second one has nothing to replay and nothing to backfill. -/
theorem reconcile_takes_union (crates : Crates) {journal journal' : SqliteJournal}
    (hsidecar : journal.sidecar.isSome) {disk disk' : Disk}
    (hrows : JournalRows disk.database.rawReads) {env : RecoverEnv} {report : RecoveryReport}
    (h : journal.reconcile crates env disk = (.ok report, journal', disk')) :
    (journal.survey crates disk = (.ok report.found, disk) ∧
      report.found.missingFromDatabase = report.replayedIntoDatabase ∧
      report.found.missingFromSidecar = report.backfilledIntoSidecar) ∧
    Reconciled crates disk report disk' ∧
    ∀ second : SqliteJournal, second.sidecar.isSome →
      ∀ env' report' second' disk'',
        second.reconcile crates env' disk' = (.ok report', second', disk'') →
          report'.replayedIntoDatabase = 0 ∧ report'.backfilledIntoSidecar = 0 ∧
          disk''.database.rawReads = disk'.database.rawReads ∧ disk''.file = disk'.file := by
  obtain ⟨sidecar, hsome⟩ := Option.isSome_iff_exists.mp hsidecar
  obtain ⟨found, hpass, hdid, rfl, hfile⟩ := repair_of_ok hsome h
  have hunion := reconciled_of_pass hrows hdid hfile found.fromByte
  obtain ⟨_, _, _, hstatus⟩ := hdid.status
  refine ⟨⟨survey_of_pass hsome hpass, ?_, ?_⟩, hunion, ?_⟩
  · rw [hstatus]
  · rw [hstatus]
  intro second hsecond env' report' second' disk'' h'
  obtain ⟨sidecar', hsome'⟩ := Option.isSome_iff_exists.mp hsecond
  obtain ⟨found', _, hdid', rfl, hfile'⟩ := repair_of_ok hsome' h'
  -- the table holds what the first reconcile's sidecar verified and what it backfilled
  have htable : ∀ read ∈ verified crates disk'.file,
      idOf read ∈ storedIds disk'.database.rawReads := by
    intro read hread
    obtain ⟨rows, hold, _, _, hverified⟩ := hunion.backfilled
    obtain ⟨_, hgrown, _⟩ := hunion.replayed
    rw [hverified, List.mem_append] at hread
    rcases hread with hread | hread
    · exact List.count_pos_iff.mp (by rw [hunion.once read hread]; exact Nat.one_pos)
    · obtain ⟨row, hrow, rfl⟩ := List.mem_map.mp hread
      rw [hgrown, stored_ids_append]
      exact List.mem_append_left _ (List.mem_map_of_mem (hold row hrow))
  obtain ⟨hsame, hcount, hnone⟩ := pass_of_union hunion.rows htable hunion.lines hdid'
  refine ⟨hcount, by rw [hnone]; rfl, hsame, ?_⟩
  rw [hfile', hnone]
  exact List.append_nil _

/-! ## Recovery when nothing fails -/

/-- Nothing fails. -/
structure RecoverEnv.Calm (env : RecoverEnv) : Prop where
  opening : env.opening = none
  transaction : env.transaction = none
  backfill : env.backfill = none
  checkpoint : env.checkpoint.fault = none

/-- A tip at which a checkpoint can be recorded, or is. -/
def Recordable (database : Database) (tip : Tip) : Prop :=
  (tip.lineEnd ≠ 0 ∧ tip.digest.length = 64) ∨
    ∃ latest, latestCheckpoint database = some latest ∧ latest.sidecarBytes = tip.lineEnd ∧
      latest.lastLineSha256 = tip.digest

/-- Recording a checkpoint at such a tip goes through. -/
theorem checkpoint_succeeds {env : CheckpointEnv} (hfault : env.fault = none)
    {journal : SqliteJournal} {database : Database}
    (htip : ∀ tip, journal.sidecar.bind (·.tip) = some tip → Recordable database tip) :
    ∃ recorded, (journal.checkpoint env database).1 = .ok recorded := by
  rw [SqliteJournal.checkpoint]
  split_ifs with hunconfirmed
  · exact ⟨_, rfl⟩
  cases hsome : journal.sidecar.bind (·.tip) with
  | none => exact ⟨_, rfl⟩
  | some tip =>
      simp only [hfault]
      split_ifs with hlatest hcheck
      · exact ⟨_, rfl⟩
      · rcases htip tip hsome with ⟨hend, hdigest⟩ | ⟨latest, hsome', hmatches⟩
        · exact absurd hcheck (not_or.mpr ⟨hend, fun hne => hne hdigest⟩)
        · rw [hsome'] at hlatest
          exact absurd (by simpa using hmatches) hlatest
      · exact ⟨_, rfl⟩

/-- A backfill whose write does not fail goes through, and leaves such a tip. -/
theorem backfill_succeeds {env : RecoverEnv} (hbackfill : env.backfill = none) {disk : Disk}
    {start : Start} {rawReads' : List StoredRawRead} {found : Pass}
    (hdid : PassDid crates disk start rawReads' found)
    (hstart : ∀ checkpoint, start = .after checkpoint →
      latestCheckpoint disk.database = some checkpoint) {sidecar : Sidecar}
    (htip : ∀ tip, sidecar.tip = some tip → Recordable disk.database tip)
    {part : Except StorageError Unit × Sidecar × List UInt8}
    (hpart : (if found.backfill = [] then
        match passTip start found with
        | some tip => (.ok (), { sidecar with tip := some tip }, disk.file)
        | none => (.ok (), sidecar, disk.file)
      else sidecar.appendRecords crates env.backfill disk.file found.backfill) = part) :
    part.1 = .ok () ∧ ∀ tip, part.2.1.tip = some tip → Recordable disk.database tip := by
  subst hpart
  split_ifs with hnone
  · cases hpass : passTip start found with
    | none => exact ⟨rfl, htip⟩
    | some last =>
        refine ⟨rfl, fun tip hsome => ?_⟩
        cases hsome
        unfold passTip at hpass
        cases hlast : found.lastVerified with
        | some verified =>
            rw [hlast] at hpass
            cases hpass
            exact Or.inl (hdid.tip _ hlast)
        | none =>
            -- nothing verified behind the checkpoint: it is the latest, and stands where it stood
            rw [hlast, Option.none_or] at hpass
            cases start with
            | beginning => cases hpass
            | after checkpoint =>
                cases hpass
                exact Or.inr ⟨checkpoint, hstart checkpoint rfl, rfl, rfl⟩
  · rw [hbackfill, Sidecar.appendRecords, map_m_of_eq]
    simp only
    split
    · exact ⟨rfl, htip⟩
    · rename_i last hlast
      refine ⟨rfl, fun tip hsome => ?_⟩
      cases hsome
      refine Or.inl ⟨?_, length_digest_of _⟩
      rw [List.length_append]
      cases hreads : found.backfill with
      | nil => exact absurd hreads hnone
      | cons read reads =>
          rw [List.map_cons, List.map_cons, unlines_cons, List.length_append, List.length_cons]
          show _ + (_ + (_ + 1)) ≠ 0
          omega

/-- A repair goes through when nothing fails. -/
theorem repair_succeeds {journal : SqliteJournal} {sidecar : Sidecar}
    (hsidecar : journal.sidecar = some sidecar) {env : RecoverEnv} (henv : env.Calm) {disk : Disk}
    {start : Start} (hstart : ∀ checkpoint, start = .after checkpoint →
      latestCheckpoint disk.database = some checkpoint)
    (htip : ∀ tip, sidecar.tip = some tip → Recordable disk.database tip) :
    ∃ report journal' disk',
      journal.repair crates env disk start = (.ok report, journal', disk') := by
  obtain ⟨rawReads', found, hpass, hdid⟩ := @pass_replay crates disk start
  rw [SqliteJournal.repair]
  simp only [hsidecar, hpass, henv.transaction]
  have hback := fun part => @backfill_succeeds crates env henv.backfill disk start _ _ hdid hstart
    sidecar htip part
  generalize (if found.backfill = [] then _ else _) = part at hback
  obtain ⟨outcome, sidecar', file'⟩ := part
  obtain ⟨hok, htip'⟩ := hback _ rfl
  rw [show outcome = .ok () from hok]
  generalize (if 0 < found.replayed.count then _ else _ : List AuditRow) = auditLog
  obtain ⟨recorded, hrecorded⟩ := @checkpoint_succeeds env.checkpoint henv.checkpoint
    { journal with sidecar := some sidecar' }
    ⟨rawReads', disk.database.sidecarCheckpoints, auditLog⟩ htip'
  simp only
  split
  · rename_i hcheckpoint
    rw [hcheckpoint] at hrecorded
    cases hrecorded
  · exact ⟨_, _, _, rfl⟩

/-- A start recovers when nothing fails. -/
theorem open_recovering_succeeds {env : RecoverEnv} (henv : env.Calm) (path : String)
    (disk : Disk) : ∃ journal report disk',
      openRecovering crates env path disk = (.ok (journal, report), disk') := by
  rw [openRecovering]
  simp only [henv.opening]
  obtain ⟨report, journal', disk', hrepair⟩ := @repair_succeeds crates
    (SqliteJournal.opened path env.instant) _ rfl env henv disk (.of (usableCheckpoint disk))
    (fun checkpoint hafter => by
      cases husable : usableCheckpoint disk with
      | none => rw [husable] at hafter; cases hafter
      | some usable =>
          rw [husable] at hafter
          cases hafter
          rw [usableCheckpoint] at husable
          cases hlatest : latestCheckpoint disk.database with
          | none => simp only [hlatest] at husable; cases husable
          | some latest =>
              simp only [hlatest] at husable
              split_ifs at husable
              exact husable)
    (fun tip hnone => by cases hnone)
  simp only [hrepair]
  exact ⟨_, _, _, rfl⟩

/-! ## A table and a sidecar apart -/

/-- A sidecar with the line of one read, and a table with the row of another. -/
def apart (crates : Crates) : Disk where
  file := bareLines crates firstId
  database := ⟨[rowOf crates [] ⟨bareRead secondId, epoch⟩], [], []⟩

theorem journal_rows_apart (crates : Crates) : JournalRows (apart crates).database.rawReads := by
  have hnone : JournalRows [] := ⟨well_formed_nil, by simp, by simp, by simp⟩
  refine @JournalRows.inserted crates _ _ [⟨bareRead secondId, epoch⟩] hnone
    (.cons List.not_mem_nil (.nil _)) fun read hread => ?_
  rw [List.mem_singleton.mp hread]
  rfl

/-- An environment in which nothing fails. -/
def calm : RecoverEnv := ⟨"splitforge", 0, none, none, none, ⟨epoch, 0, none⟩⟩

theorem calm_calm : calm.Calm := ⟨rfl, rfl, rfl, rfl⟩

/-- A table and a sidecar that lack each other's read are reconciled. -/
theorem reconcile_takes_union_apart :
    ∃ report journal' disk', (SqliteJournal.opened "reads.sfj" 0).reconcile serde calm
        (apart serde) = (.ok report, journal', disk') ∧
      Reconciled serde (apart serde) report disk' := by
  obtain ⟨report, journal', disk', h⟩ := @repair_succeeds serde
    (SqliteJournal.opened "reads.sfj" 0) _ rfl calm calm_calm (apart serde) .beginning
    (fun _ hafter => by cases hafter) (fun _ htip => by cases htip)
  exact ⟨report, journal', disk', h,
    (reconcile_takes_union serde rfl (journal_rows_apart serde) h).2.1⟩

end Splitforge.Storage
