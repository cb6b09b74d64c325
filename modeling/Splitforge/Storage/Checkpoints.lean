import Splitforge.Storage.Serde
import Splitforge.Storage.WriteAhead

/-!
# Checkpoints

A checkpoint claims that the sidecar up to some line and the rows up to some key agree, and
recovery starts behind it. The claim is true as long as every append that goes through brings
the reads an earlier failure left in the sidecar without a row. Where it does not, the success
clears the memory of the failure, and the next checkpoint claims a read that is in no row.
-/

namespace Splitforge.Storage

open Splitforge.Domain Splitforge.Library

variable {crates : Crates}

/-- What a checkpoint claims of a disk: every verified read in front of it is in the table, and
every row it covers has a verified line in front of it. -/
structure SidecarCheckpoint.Holds (crates : Crates) (disk : Disk)
    (checkpoint : SidecarCheckpoint) : Prop where
  inTable : ∀ entry ∈ verified crates (disk.file.take checkpoint.sidecarBytes),
    entry.read.id ∈ storedIds disk.database.rawReads
  inSidecar : ∀ row ∈ disk.database.rawReads, row.seq ≤ checkpoint.throughSeq →
    ∃ entry ∈ verified crates (disk.file.take checkpoint.sidecarBytes), entry.read = row.read

/-- A checkpoint whose mark is true holds. -/
theorem holds_of_mark {disk : Disk} {checkpoint : SidecarCheckpoint}
    (h : (markOf crates disk checkpoint).Holds idOf (disk.database.rawReads.map entryOf)) :
    checkpoint.Holds crates disk where
  inTable entry hentry := by
    have hcovered := h.covered entry hentry
    rwa [ids_entries] at hcovered
  inSidecar row hrow hseq := by
    have hrow' : row ∈ disk.database.rawReads.filter fun row => row.seq ≤ checkpoint.throughSeq :=
      List.mem_filter.mpr ⟨hrow, decide_eq_true hseq⟩
    exact ⟨entryOf row, h.stored _ (List.mem_map_of_mem hrow'), rfl⟩

/-! ## What recovery leaves -/

/-- The ids a repair leaves are those of the rows and of the verified reads, when the table has
what the sidecar verifies in front of the place the pass starts from. -/
theorem repaired_ids {disk : Disk} {journal : SqliteJournal} {sidecar : Sidecar}
    (hsidecar : journal.sidecar = some sidecar) {env : RecoverEnv} (henv : env.transaction = none)
    {start : Start} (hstart : EndsLine disk.file start.fromByte)
    (hfront : ∀ entry ∈ verified crates (disk.file.take start.fromByte),
      entry.read.id ∈ storedIds disk.database.rawReads) (id : RawReadId) :
    id ∈ storedIds (journal.repair crates env disk start).2.2.database.rawReads ↔
      id ∈ storedIds disk.database.rawReads ∨
        ∃ entry ∈ verified crates disk.file, entry.read.id = id := by
  obtain ⟨rawReads', found, hpass, hspec⟩ := @pass_spec crates disk start
  obtain ⟨reads, hinserted, hreads⟩ := hspec.inserted
  have hids := hinserted.stored_ids_eq
  rw [repair_rows hsidecar henv hpass]
  constructor
  · intro hid
    rw [hids, List.mem_append] at hid
    refine hid.imp_right fun hid => ?_
    obtain ⟨read, hread, rfl⟩ := List.mem_map.mp hid
    refine ⟨read, ?_, rfl⟩
    rw [hstart.verified_eq]
    exact List.mem_append_right _ (hreads read hread)
  · rintro (hid | ⟨entry, hentry, rfl⟩)
    · rw [hids]
      exact List.mem_append_left _ hid
    · rw [hstart.verified_eq, List.mem_append] at hentry
      rcases hentry with hentry | hentry
      · rw [hids]
        exact List.mem_append_left _ (hfront entry hentry)
      · exact hspec.stored entry hentry

/-- A start whose checkpoints hold leaves the ids of the rows and of the verified reads. -/
theorem open_recovering_ids {disk : Disk}
    (hends : ∀ checkpoint ∈ disk.database.sidecarCheckpoints,
      EndsLine disk.file checkpoint.sidecarBytes)
    (hholds : ∀ checkpoint ∈ disk.database.sidecarCheckpoints, checkpoint.Holds crates disk)
    {env : RecoverEnv} (hopening : env.opening = none) (htransaction : env.transaction = none)
    (path : String) (id : RawReadId) :
    id ∈ storedIds (openRecovering crates env path disk).2.database.rawReads ↔
      id ∈ storedIds disk.database.rawReads ∨
        ∃ entry ∈ verified crates disk.file, entry.read.id = id := by
  have hdisk : (openRecovering crates env path disk).2 =
      ((SqliteJournal.opened path env.instant).repair crates env disk
        (.of (usableCheckpoint disk))).2.2 := by
    simp only [openRecovering, hopening]
    split
    · rename_i hrepair
      rw [hrepair]
    · rename_i hrepair
      rw [hrepair]
  rw [hdisk]
  cases husable : usableCheckpoint disk with
  | none => exact repaired_ids rfl htransaction (ends_line_zero _) (by rintro _ ⟨⟩) id
  | some checkpoint =>
      have hmem := mem_of_usable_checkpoint husable
      have htable := (hholds checkpoint hmem).inTable
      exact repaired_ids rfl htransaction (hends checkpoint hmem) htable id

/-- A full reconcile leaves the ids of the rows and of the verified reads. -/
theorem reconcile_ids {disk : Disk} {env : RecoverEnv} (htransaction : env.transaction = none)
    (path : String) (instant : Nat) (id : RawReadId) :
    id ∈ storedIds ((SqliteJournal.opened path instant).reconcile crates env
        disk).2.2.database.rawReads ↔
      id ∈ storedIds disk.database.rawReads ∨
        ∃ entry ∈ verified crates disk.file, entry.read.id = id :=
  repaired_ids rfl htransaction (ends_line_zero _) (by rintro _ ⟨⟩) id

/-! ## Runs that retry first -/

theorem sound_empty : (walOf crates World.empty).Sound idOf where
  toAhead := ahead_empty
  marks _ hmark := by cases hmark
  confirmed _ happender := by cases happender

/-- A run in which every append that goes through brings the orphans keeps the log sound. -/
theorem run_sound {events : List Event}
    (h : Allowed (step crates) (RetriesFirst crates) World.empty events) :
    Located (run (step crates) World.empty events) ∧
      (walOf crates (run (step crates) World.empty events)).Sound idOf := by
  refine @run_invariant _ _ _ _ (fun world => Located world ∧ (walOf crates world).Sound idOf)
    (fun world event ⟨hlocated, hsound⟩ hretries => ?_) _ _ ⟨located_empty, sound_empty⟩ h
  have hstep : Refines crates True (fun _ => True) world (step crates world event) :=
    step_refines hlocated hsound.toAhead event (fun _ _ _ => trivial) fun _ => ⟨hsound, hretries⟩
  exact ⟨hstep.located, hsound.moves hstep.moves⟩

/-- In a run in which every append that goes through brings the orphans, every checkpoint holds
from its recording on, and a start behind the latest one leaves the ids a full reconcile does. -/
theorem checkpoints_hold (crates : Crates) (events : List Event)
    (hretries : Allowed (step crates) (RetriesFirst crates) World.empty events)
    (before : List Event) (hbefore : before <+: events) :
    let disk := (run (step crates) World.empty before).disk
    (∀ checkpoint ∈ disk.database.sidecarCheckpoints, checkpoint.Holds crates disk) ∧
    ∀ (env full : RecoverEnv), env.opening = none → env.transaction = none →
      full.transaction = none → ∀ (path : String) (instant : Nat) (id : RawReadId),
        id ∈ storedIds (openRecovering crates env path disk).2.database.rawReads ↔
          id ∈ storedIds ((SqliteJournal.opened path instant).reconcile crates full
            disk).2.2.database.rawReads := by
  intro disk
  obtain ⟨hlocated, hsound⟩ := run_sound (hretries.before hbefore)
  have hholds : ∀ checkpoint ∈ disk.database.sidecarCheckpoints, checkpoint.Holds crates disk :=
    fun checkpoint hmem => holds_of_mark (hsound.marks _ (List.mem_map_of_mem hmem))
  refine ⟨hholds, fun env full hopening htransaction hfull path instant id => ?_⟩
  rw [open_recovering_ids (fun checkpoint hmem => (hlocated.checkpoints checkpoint hmem).1) hholds
    hopening htransaction path, reconcile_ids hfull]

/-! ## A failed append, and what comes after it -/

/-- The first checkpoint of a database is recorded at the handle's tip. -/
theorem checkpoint_first {env : CheckpointEnv} (hfault : env.fault = none) (path : String)
    {lineEnd : Nat} (hend : lineEnd ≠ 0) {digest : String} (hdigest : digest.length = 64)
    (lastCheckpoint checkpointEvery : Nat) (rawReads : List StoredRawRead)
    (auditLog : List AuditRow) :
    (SqliteJournal.checkpoint env
        ⟨some ⟨path, some ⟨lineEnd, digest⟩⟩, false, lastCheckpoint, checkpointEvery⟩
        ⟨rawReads, [], auditLog⟩).2.2 =
      ⟨rawReads, [⟨lineEnd, digest, maxSeq rawReads, wholeMicros env.now⟩], auditLog⟩ := by
  simp [SqliteJournal.checkpoint, latestCheckpoint, hfault, hend, hdigest]

/-- A read with an id and nothing else to tell. -/
def bareRead (id : RawReadId) : RawRead where
  id := id
  source := ⟨"gate"⟩
  antenna := none
  chip := ⟨"E28011"⟩
  readerTimestamp := none
  readerUptimeUs := none
  receivedAt := epoch
  receivedAtMonotonicNs := none
  rssiDbm := none
  deviceClockState := .unsynced
  timestampSource := .deviceReceipt .noReaderTimestamp
  clockOffsetMs := none
  rawPayload := []

/-- The lines of a bare read. -/
def bareLines (crates : Crates) (id : RawReadId) : List UInt8 :=
  batchOf crates [⟨bareRead id, epoch⟩]

/-- The digest in the line of a bare read. -/
def bareDigest (crates : Crates) (id : RawReadId) : String :=
  digestOf crates (crates.toJson (recordOf (bareRead id) epoch))

/-- An append whose transaction fails. -/
def failingAppend : AppendEnv :=
  ⟨epoch, none, some (.sqlite "disk I/O error"), ⟨epoch, 0, none⟩⟩

/-- An append that goes through when a checkpoint is due. -/
def dueAppend : AppendEnv := ⟨epoch, none, none, ⟨epoch, checkpointInterval, none⟩⟩

/-- A writer starts on nothing, and the transaction of its first append fails. -/
def firstFailure (failed : RawReadId) : List Event :=
  [.openRecovering "reads.sfj" ⟨"splitforge", 0, none, none, none, ⟨epoch, 0, none⟩⟩,
    .appendBatch failingAppend [bareRead failed]]

/-- The next append after a first failure goes through. -/
def appendAfterFailure (failed next : RawReadId) : List Event :=
  firstFailure failed ++ [.appendBatch dueAppend [bareRead next]]

/-- The failed append has left its line and no row. -/
theorem run_first_failure (crates : Crates) (failed : RawReadId) :
    run (step crates) World.empty (firstFailure failed) =
      ⟨⟨bareLines crates failed, ⟨[], [], []⟩⟩,
        some ⟨some ⟨"reads.sfj", some ⟨(bareLines crates failed).length,
          bareDigest crates failed⟩⟩, true, 0, checkpointInterval⟩⟩ := rfl

/-- The append after it writes its line behind, inserts its row, and goes on to a checkpoint. -/
theorem disk_append_after_failure (crates : Crates) (failed next : RawReadId) :
    (run (step crates) World.empty (appendAfterFailure failed next)).disk =
      ⟨bareLines crates failed ++ bareLines crates next,
        (SqliteJournal.checkpoint dueAppend.checkpoint
          ⟨some ⟨"reads.sfj", some ⟨(bareLines crates failed ++ bareLines crates next).length,
            bareDigest crates next⟩⟩, false, 0, checkpointInterval⟩
          ⟨[rowOf crates [] ⟨bareRead next, epoch⟩], [], []⟩).2.2⟩ := by
  rw [appendAfterFailure, run_append, run_first_failure]
  rfl

/-- It leaves both lines, its own row, and a checkpoint at the end. -/
theorem append_after_failure (crates : Crates) (failed next : RawReadId) {disk : Disk}
    (hdisk : (run (step crates) World.empty (appendAfterFailure failed next)).disk = disk) :
    disk.file = bareLines crates failed ++ bareLines crates next ∧
      storedIds disk.database.rawReads = [next] ∧
      disk.database.sidecarCheckpoints =
        [⟨disk.file.length, bareDigest crates next, 1, wholeMicros epoch⟩] := by
  have hend : (bareLines crates failed ++ bareLines crates next).length ≠ 0 := by
    simp [bareLines, batchOf, unlines]
  have hdigest : (bareDigest crates next).length = 64 := length_digest_of _
  rw [disk_append_after_failure, checkpoint_first rfl _ hend hdigest] at hdisk
  subst hdisk
  exact ⟨rfl, rfl, rfl⟩

/-- A bare read is verified behind any file its line was appended to. -/
theorem verified_append_bare (crates : Crates) (file : List UInt8) (id : RawReadId) :
    verified crates (file ++ bareLines crates id) =
      verified crates file ++ [recovered ⟨bareRead id, epoch⟩] :=
  verified_append_batch (by rintro _ (_ | ⟨_, ⟨⟩⟩); rfl) file

/-- A failed append that is given up leaves its read verified in front of a checkpoint, and in no
row. -/
theorem not_holds_after_failure (crates : Crates) {failed next : RawReadId} (h : failed ≠ next)
    {disk : Disk}
    (hdisk : (run (step crates) World.empty (appendAfterFailure failed next)).disk = disk) :
    ∃ checkpoint ∈ disk.database.sidecarCheckpoints, ¬ checkpoint.Holds crates disk := by
  obtain ⟨hfile, hids, hcheckpoints⟩ := append_after_failure crates failed next hdisk
  refine ⟨_, by rw [hcheckpoints]; exact List.mem_singleton_self _, fun hholds => ?_⟩
  have hfailed : recovered ⟨bareRead failed, epoch⟩ ∈ verified crates disk.file := by
    have hfirst := verified_append_bare crates [] failed
    rw [List.nil_append] at hfirst
    rw [hfile, verified_append_bare, hfirst]
    exact List.mem_append_left _ (List.mem_append_right _ (List.mem_singleton_self _))
  have hmem := hholds.inTable (recovered ⟨bareRead failed, epoch⟩)
    (by rw [List.take_length]; exact hfailed)
  rw [hids, List.mem_singleton] at hmem
  exact h hmem

/-- Two ids. -/
def firstId : RawReadId := ⟨.fromU128 1⟩
def secondId : RawReadId := ⟨.fromU128 2⟩

theorem first_id_ne_second_id : firstId ≠ secondId := fun h =>
  absurd (congrArg (fun id : RawReadId => id.uuid.value.val) h) (by decide)

/-- Two appends, the first of them failed and given up: the checkpoint behind the second is
false. -/
theorem not_checkpoints_hold :
    ¬ ∀ checkpoint ∈ (run (step serde) World.empty
        (appendAfterFailure firstId secondId)).disk.database.sidecarCheckpoints,
      checkpoint.Holds serde
        (run (step serde) World.empty (appendAfterFailure firstId secondId)).disk := by
  intro hall
  obtain ⟨checkpoint, hmem, hholds⟩ := not_holds_after_failure serde first_id_ne_second_id rfl
  exact hholds (hall checkpoint hmem)

/-- A failed append that is retried is a run that retries first. -/
theorem retries_first_retried (crates : Crates) (id : RawReadId) :
    Allowed (step crates) (RetriesFirst crates) World.empty (appendAfterFailure id id) := by
  refine (allowed_append _ _ _).mpr ⟨⟨trivial, fun _ _ _ _ _ hentry => ?_, trivial⟩, ?_, trivial⟩
  · cases hentry
  · rw [run_first_failure]
    intro _ _ _ _ entry hentry
    have hverified := verified_append_bare crates [] id
    rw [List.nil_append] at hverified
    change entry ∈ verified crates (bareLines crates id) at hentry
    rw [hverified] at hentry
    rw [List.mem_singleton.mp hentry]
    exact List.mem_singleton_self _

/-- A failed append that is retried records a checkpoint, and it holds. -/
theorem checkpoints_hold_retried :
    ∃ checkpoint ∈ (run (step serde) World.empty
        (appendAfterFailure firstId firstId)).disk.database.sidecarCheckpoints,
      checkpoint.Holds serde
        (run (step serde) World.empty (appendAfterFailure firstId firstId)).disk := by
  have hall := (checkpoints_hold serde _ (retries_first_retried serde firstId) _
    List.prefix_rfl).1
  obtain ⟨_, _, hcheckpoints⟩ := append_after_failure serde firstId firstId rfl
  rw [hcheckpoints, List.forall_mem_singleton] at hall
  exact ⟨_, by rw [hcheckpoints]; exact List.mem_singleton_self _, hall⟩

end Splitforge.Storage
