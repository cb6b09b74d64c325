import Splitforge.Library.FirstOf
import Splitforge.Storage.JournalRows

/-!
# The union a pass takes

A pass with a replay inserts exactly the reads it verifies whose ids the table lacks, once each,
and cannot fail on them. What it backfills are rows.
-/

namespace Splitforge.Storage

open Splitforge.Domain Splitforge.Library

variable {crates : Crates}

/-- What a read or a row is in the log of reads. -/
def entryOf (row : StoredRawRead) : SidecarRead := ⟨row.read, row.recordedAt⟩

/-- The id of a read, which is the key of its entry. -/
def idOf (read : SidecarRead) : RawReadId := read.read.id

/-! ## What a pass replays -/

/-- A pass from the beginning hands over the first read of each id that is neither stored nor
replayed already, in order. -/
theorem fold_pass_read {replay : List StoredRawRead → SidecarRead → Except StorageError
    (List StoredRawRead)} (stored : List RawReadId) (records : List SidecarRead)
    (progress : Progress) :
    records.foldlM (passRead .beginning stored replay) progress =
      ((firstOf idOf (progress.replaying ++ stored) records).foldlM replay progress.rawReads).map
        fun rawReads => {
          rawReads
          seen := (records.map idOf).reverse ++ progress.seen
          replaying := ((firstOf idOf (progress.replaying ++ stored) records).map idOf).reverse ++
            progress.replaying
          replayed := (firstOf idOf (progress.replaying ++ stored) records).foldl Replayed.add
            progress.replayed } := by
  induction records generalizing progress with
  | nil => rfl
  | cons record records ih =>
      rw [List.foldlM_cons, passRead]
      by_cases hskip : record.read.id ∈ stored ∨ record.read.id ∈ progress.replaying
      · -- the read is stored, or this pass has replayed it
        have hknown : idOf record ∈ progress.replaying ++ stored :=
          List.mem_append.mpr hskip.symm
        rw [if_pos (by simpa [Start.holds] using hskip), first_of_cons_of_mem hknown]
        show List.foldlM _ _ _ = _
        rw [ih]
        simp only [List.map_cons, List.reverse_cons, List.append_assoc]
        rfl
      · have hknown : idOf record ∉ progress.replaying ++ stored := fun h =>
          hskip (List.mem_append.mp h).symm
        rw [if_neg (by simpa [Start.holds] using hskip), first_of_cons_of_notMem hknown,
          List.foldlM_cons]
        cases hreplay : replay progress.rawReads record with
        | error error => rfl
        | ok rawReads =>
            show List.foldlM _ _ _ = _
            rw [ih]
            simp only [List.cons_append, List.map_cons, List.reverse_cons, List.append_assoc]
            rfl

/-- A read that is storable and whose id the table lacks gets the next row. -/
theorem replay_into_of_fresh {rawReads : List StoredRawRead} {record : SidecarRead}
    (hstorable : storable record.read = .ok ()) (hfresh : record.read.id ∉ storedIds rawReads) :
    replayInto crates rawReads record = .ok (rawReads ++ [rowOf crates rawReads record]) := by
  rw [replayInto, insert_one_of_storable hstorable, if_neg hfresh]
  rfl

/-- Reads with fresh ids of their own are all inserted. -/
theorem fold_replay_into {rawReads : List StoredRawRead} {reads : List SidecarRead}
    (hstorable : ∀ read ∈ reads, storable read.read = .ok ())
    (hfresh : ∀ read ∈ reads, idOf read ∉ storedIds rawReads) (hnodup : (reads.map idOf).Nodup) :
    ∃ rawReads', reads.foldlM (replayInto crates) rawReads = .ok rawReads' ∧
      Inserted crates rawReads reads rawReads' := by
  induction reads generalizing rawReads with
  | nil => exact ⟨rawReads, rfl, .nil _⟩
  | cons read reads ih =>
      have hread := hfresh read List.mem_cons_self
      rw [List.map_cons, List.nodup_cons] at hnodup
      obtain ⟨rawReads', hfold, hinserted⟩ :=
        @ih (rawReads ++ [rowOf crates rawReads read])
          (fun other hother => hstorable other (List.mem_cons_of_mem _ hother))
          (fun other hother hmem => by
            rw [stored_ids_append, List.mem_append, stored_ids_row_of, List.mem_singleton] at hmem
            rcases hmem with hmem | hsame
            · exact hfresh other (List.mem_cons_of_mem _ hother) hmem
            · refine hnodup.1 ?_
              rw [show idOf read = idOf other from hsame.symm]
              exact List.mem_map_of_mem hother) hnodup.2
      refine ⟨rawReads', ?_, .cons hread hinserted⟩
      rw [List.foldlM_cons, replay_into_of_fresh (hstorable read List.mem_cons_self) hread]
      exact hfold

/-- Looking an id up in the table as it grows and looking it up in the ids stored before come to
the same, because the ids in between are those replayed. -/
theorem fold_pass_read_after {stored : List RawReadId} {progress : Progress}
    (h : ∀ id, id ∈ storedIds progress.rawReads ↔ id ∈ stored ∨ id ∈ progress.replaying)
    (start : Start) {records : List SidecarRead}
    (hstorable : ∀ record ∈ records, storable record.read = .ok ()) :
    records.foldlM (passRead start stored (replayInto crates)) progress =
      records.foldlM (passRead .beginning stored (replayInto crates)) progress := by
  induction records generalizing progress with
  | nil => rfl
  | cons record records ih =>
      have hrest : ∀ other ∈ records, storable other.read = .ok () := fun other hother =>
        hstorable other (List.mem_cons_of_mem _ hother)
      have hholds : start.holds stored progress.rawReads record.read.id = true ∨
          record.read.id ∈ progress.replaying ↔
          record.read.id ∈ stored ∨ record.read.id ∈ progress.replaying := by
        cases start with
        | beginning => simp [Start.holds]
        | after checkpoint => simp [Start.holds, h]
      rw [List.foldlM_cons, List.foldlM_cons, passRead, passRead]
      by_cases hskip : record.read.id ∈ stored ∨ record.read.id ∈ progress.replaying
      · rw [if_pos (hholds.mpr hskip), if_pos (by simpa [Start.holds] using hskip)]
        exact @ih { progress with seen := record.read.id :: progress.seen } h hrest
      · have hfresh : record.read.id ∉ storedIds progress.rawReads := fun hmem =>
          hskip ((h _).mp hmem)
        rw [if_neg fun hmem => hskip (hholds.mp hmem), if_neg (by simpa [Start.holds] using hskip)]
        simp only [@replay_into_of_fresh crates _ _ (hstorable record List.mem_cons_self)
          hfresh]
        refine ih (fun id => ?_) hrest
        simp only [stored_ids_append, stored_ids_row_of, List.mem_append, List.mem_cons,
          List.not_mem_nil, or_false, h, or_assoc]
        exact or_congr_right or_comm

/-- What a pass describes as replayed. -/
def Replayed.of (reads : List SidecarRead) : Replayed :=
  reads.foldl Replayed.add ⟨0, none, none, none, none⟩

theorem count_fold_add (reads : List SidecarRead) (replayed : Replayed) :
    (reads.foldl Replayed.add replayed).count = replayed.count + reads.length := by
  induction reads generalizing replayed with
  | nil => rfl
  | cons read reads ih =>
      rw [List.foldl_cons, ih, List.length_cons]
      show replayed.count + 1 + reads.length = _
      omega

theorem count_replayed_of (reads : List SidecarRead) :
    (Replayed.of reads).count = reads.length := by
  rw [Replayed.of, count_fold_add, Nat.zero_add]

/-! ## What a pass finds missing from the sidecar -/

/-- The sequence number behind which a pass looks for rows the sidecar lacks. -/
def Start.afterSeq : Start → Nat
  | .beginning => 0
  | .after checkpoint => checkpoint.throughSeq

theorem mem_missing_from {rawReads : List StoredRawRead} {afterSeq : Nat} {seen : List RawReadId}
    {read : SidecarRead} (h : read ∈ missingFrom rawReads afterSeq seen) :
    ∃ row ∈ rawReads, read = entryOf row := by
  obtain ⟨row, hrow, rfl⟩ := List.mem_map.mp h
  exact ⟨row, List.mem_of_mem_filter hrow, rfl⟩

/-- Only which ids were seen matters. -/
theorem missing_from_congr {seen seen' : List RawReadId} (h : ∀ id, id ∈ seen ↔ id ∈ seen')
    (rawReads : List StoredRawRead) (afterSeq : Nat) :
    missingFrom rawReads afterSeq seen = missingFrom rawReads afterSeq seen' := by
  simp only [missingFrom, h]

/-- Rows whose ids were seen are not missing. -/
theorem missing_from_append {rows : List StoredRawRead} {seen : List RawReadId}
    (h : ∀ id ∈ storedIds rows, id ∈ seen) (rawReads : List StoredRawRead) (afterSeq : Nat) :
    missingFrom (rawReads ++ rows) afterSeq seen = missingFrom rawReads afterSeq seen := by
  have hnone : rows.filter (fun row => afterSeq < row.seq ∧ row.read.id ∉ seen) = [] := by
    refine List.filter_eq_nil_iff.mpr fun row hrow => ?_
    have hseen := h row.read.id (List.mem_map_of_mem hrow)
    simp [hseen]
  rw [missingFrom, List.filter_append, hnone, List.append_nil, missingFrom]

/-- A pass that took its reads in looks at the whole table when some id was not seen, and there is
nothing to look for when all were. -/
theorem pass_of_fold {disk : Disk} {start : Start}
    {replay : List StoredRawRead → SidecarRead → Except StorageError (List StoredRawRead)}
    {progress : Progress}
    (hfold : (verified crates (disk.file.drop start.fromByte)).foldlM
      (passRead start (storedIds disk.database.rawReads) replay)
      ⟨disk.database.rawReads, [], [], ⟨0, none, none, none, none⟩⟩ = .ok progress)
    (hids : ∀ id ∈ storedIds progress.rawReads,
      id ∈ storedIds disk.database.rawReads ∨ id ∈ progress.seen) :
    ∃ tally, scanFrom crates disk.file start.fromByte
        (passRead start (storedIds disk.database.rawReads) replay)
        ⟨disk.database.rawReads, [], [], ⟨0, none, none, none, none⟩⟩ = .ok (progress, tally) ∧
      pass crates disk start replay = .ok (progress.rawReads, {
        status := {
          records := tally.records
          corruptLines := tally.corruptLines
          tornTailBytes := tally.tornTailBytes
          tornWrites := tally.tornWrites
          missingFromDatabase := progress.replayed.count
          missingFromSidecar :=
            (missingFrom progress.rawReads start.afterSeq progress.seen).length }
        replayed := progress.replayed
        backfill := missingFrom progress.rawReads start.afterSeq progress.seen
        lastVerified := tally.lastVerified
        fromByte := start.fromByte }) := by
  have hscan := @scan_from_fst crates _ (passRead start (storedIds disk.database.rawReads) replay)
    disk.file start.fromByte ⟨disk.database.rawReads, [], [], ⟨0, none, none, none, none⟩⟩
  rw [hfold] at hscan
  cases hresult : scanFrom crates disk.file start.fromByte
      (passRead start (storedIds disk.database.rawReads) replay)
      ⟨disk.database.rawReads, [], [], ⟨0, none, none, none, none⟩⟩ with
  | error error => rw [hresult] at hscan; cases hscan
  | ok result =>
      rw [hresult] at hscan
      cases hscan
      refine ⟨result.2, rfl, ?_⟩
      rw [pass]
      simp only [hresult]
      cases start with
      | after checkpoint => rfl
      | beginning =>
          by_cases hseen : ∀ id ∈ storedIds disk.database.rawReads, id ∈ result.1.seen
          · have hnone : missingFrom result.1.rawReads 0 result.1.seen = [] := by
              rw [missingFrom, List.map_eq_nil_iff, List.filter_eq_nil_iff]
              intro row hrow
              have hmem := (hids row.read.id (List.mem_map_of_mem hrow)).elim
                (hseen row.read.id) id
              simp [hmem]
            simp only [if_pos hseen, Start.afterSeq, hnone]
          · simp only [if_neg hseen, Start.afterSeq]

/-! ## The pass of a repair -/

/-- What a pass with a replay did to the table, and found. -/
structure PassDid (crates : Crates) (disk : Disk) (start : Start)
    (rawReads' : List StoredRawRead) (found : Pass) : Prop where
  inserted : Inserted crates disk.database.rawReads
    (firstOf idOf (storedIds disk.database.rawReads)
      (verified crates (disk.file.drop start.fromByte))) rawReads'
  replayed : found.replayed = .of (firstOf idOf (storedIds disk.database.rawReads)
    (verified crates (disk.file.drop start.fromByte)))
  backfill : found.backfill = missingFrom disk.database.rawReads start.afterSeq
    ((verified crates (disk.file.drop start.fromByte)).map idOf)
  status : ∃ progress tally, scanFrom crates disk.file start.fromByte
      (passRead start (storedIds disk.database.rawReads) (replayInto crates))
      ⟨disk.database.rawReads, [], [], ⟨0, none, none, none, none⟩⟩ = .ok (progress, tally) ∧
    found.status = ⟨tally.records, tally.corruptLines, tally.tornTailBytes, tally.tornWrites,
      found.replayed.count, found.backfill.length⟩
  lastVerified : EndsLine disk.file start.fromByte →
    match found.lastVerified with
    | none => verified crates (disk.file.drop start.fromByte) = []
    | some tip => EndsLine disk.file tip.lineEnd ∧
        verified crates (disk.file.take tip.lineEnd) = verified crates disk.file
  tip : ∀ tip, found.lastVerified = some tip → tip.lineEnd ≠ 0 ∧ tip.digest.length = 64

/-- A pass with a replay succeeds, and inserts the first read of each id the table lacks. -/
theorem pass_replay (disk : Disk) (start : Start) :
    ∃ rawReads' found, pass crates disk start (replayInto crates) = .ok (rawReads', found) ∧
      PassDid crates disk start rawReads' found := by
  have hstorable : ∀ record ∈ verified crates (disk.file.drop start.fromByte),
      storable record.read = .ok () := fun record hrecord => (of_mem_verified hrecord).1
  obtain ⟨rawReads', hreplay, hinserted⟩ := @fold_replay_into crates disk.database.rawReads
    (firstOf idOf (storedIds disk.database.rawReads)
      (verified crates (disk.file.drop start.fromByte)))
    (fun read hread => hstorable read ((first_of_sublist _).subset hread))
    (fun read hread => notMem_known_of_mem_first_of hread) (nodup_map_first_of _)
  have hfold := @fold_pass_read_after crates (storedIds disk.database.rawReads)
    ⟨disk.database.rawReads, [], [], ⟨0, none, none, none, none⟩⟩ (fun id => by simp) start _
    hstorable
  rw [fold_pass_read, List.nil_append, hreplay] at hfold
  have hnew : ∀ id ∈ (firstOf idOf (storedIds disk.database.rawReads)
      (verified crates (disk.file.drop start.fromByte))).map idOf,
      id ∈ (verified crates (disk.file.drop start.fromByte)).map idOf := fun id hid =>
    (mem_map_first_of.mp hid).2
  have hseen : ∀ id, id ∈ ((verified crates (disk.file.drop start.fromByte)).map idOf).reverse ++
      [] ↔ id ∈ (verified crates (disk.file.drop start.fromByte)).map idOf := fun id => by
    rw [List.append_nil, List.mem_reverse]
  obtain ⟨tally, hscan, hpass⟩ := pass_of_fold hfold fun id hid => by
    rw [hinserted.stored_ids_eq, List.mem_append] at hid
    exact hid.imp_right fun hid => (hseen id).mpr (hnew id hid)
  refine ⟨_, _, hpass, hinserted, rfl, ?_, ⟨_, tally, hscan, rfl⟩, fun hoffset =>
    scan_from_last_verified hoffset hscan, fun _ htip => scan_from_tip hscan htip⟩
  obtain ⟨rows, hrows, _⟩ := hinserted.exists_rows
  have hids := hinserted.stored_ids_eq
  rw [hrows, stored_ids_append, List.append_cancel_left_eq] at hids
  simp only [hrows]
  rw [missing_from_congr hseen, missing_from_append fun id hid => hnew id (by rwa [hids] at hid)]

/-- What a pass with a replay did to the table and found. -/
structure PassSpec (crates : Crates) (disk : Disk) (start : Start)
    (rawReads' : List StoredRawRead) (found : Pass) : Prop where
  inserted : ∃ reads, Inserted crates disk.database.rawReads reads rawReads' ∧
    ∀ read ∈ reads, read ∈ verified crates (disk.file.drop start.fromByte)
  stored : ∀ record ∈ verified crates (disk.file.drop start.fromByte),
    record.read.id ∈ storedIds rawReads'
  backfill : ∀ read ∈ found.backfill, ∃ row ∈ rawReads', read = entryOf row
  lastVerified : EndsLine disk.file start.fromByte →
    match found.lastVerified with
    | none => verified crates (disk.file.drop start.fromByte) = []
    | some tip => EndsLine disk.file tip.lineEnd ∧
        verified crates (disk.file.take tip.lineEnd) = verified crates disk.file

/-- A pass with a replay succeeds. -/
theorem pass_spec (disk : Disk) (start : Start) :
    ∃ rawReads' found, pass crates disk start (replayInto crates) = .ok (rawReads', found) ∧
      PassSpec crates disk start rawReads' found := by
  obtain ⟨rawReads', found, hpass, hdid⟩ := @pass_replay crates disk start
  refine ⟨rawReads', found, hpass, ⟨_, hdid.inserted, fun read hread =>
    (first_of_sublist _).subset hread⟩, fun record hrecord => ?_, fun read hread => ?_,
    hdid.lastVerified⟩
  · rw [hdid.inserted.stored_ids_eq, List.mem_append]
    by_cases hstored : record.read.id ∈ storedIds disk.database.rawReads
    · exact Or.inl hstored
    · exact Or.inr (mem_map_first_of.mpr ⟨hstored, List.mem_map_of_mem hrecord⟩)
  · rw [hdid.backfill] at hread
    obtain ⟨row, hrow, heq⟩ := mem_missing_from hread
    obtain ⟨rows, hrows, _⟩ := hdid.inserted.exists_rows
    exact ⟨row, hrows ▸ List.mem_append_left _ hrow, heq⟩

end Splitforge.Storage
