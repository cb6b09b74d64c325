import Splitforge.Engine.SameReads
import Splitforge.Storage.Reconcile

/-!
# The read path

The read path of the service takes one read at a time from the reader, and appends it until it is
stored or refused for good. So the lines of a read that waits on its row are the last that were
written, and the sidecar verifies the first line of each read in the order of the rows: the table
leads the sidecar, through every failure, retry, crash and restart.
-/

namespace Splitforge.Edge

open Splitforge.Domain Splitforge.Library Splitforge.Storage Splitforge.Engine

/-- How a read left the read path. -/
inductive Stored where
  | journaled
  | setAside
deriving DecidableEq

/-- What one attempt of `store` finds. A transaction fails as SQLite fails. -/
structure Attempt where
  env : AppendEnv
  sqlite : ∀ error, env.transaction = some error → ∃ text, error = .sqlite text

/-- The read path: the disk and the journal, and the read `store` is at. -/
structure ReadPath where
  world : World
  current : Option RawRead

/-- Nothing written yet, and no service. -/
def ReadPath.empty : ReadPath := ⟨World.empty, none⟩

/-- What can happen on the read path: the service starts, a read is received, `store` attempts to
append it, a checkpoint is recorded before the exit, and the process dies. -/
inductive ReadPathEvent where
  | start (path : String) (env : RecoverEnv)
  | receive (read : RawRead)
  | attempt (attempt : Attempt)
  | checkpoint (env : CheckpointEnv)
  | crash

section Step

variable (crates : Crates)

/-- One turn of the loop of `store`: how the read left the read path, if it did. Any other
failure is retried with the same read. -/
def storeAttempt (attempt : Attempt) (journal : SqliteJournal) (disk : Disk) (read : RawRead) :
    Option Stored × SqliteJournal × Disk :=
  match journal.append crates attempt.env disk read with
  | (.ok _, journal, disk) => (some .journaled, journal, disk)
  | (.error (.unstorable _), journal, disk) => (some .setAside, journal, disk)
  | (.error _, journal, disk) => (none, journal, disk)

/-- One event. No read is received while `store` is at another. -/
def step (path : ReadPath) : ReadPathEvent → ReadPath
  | .start file env =>
      { path with world := Storage.step crates path.world (.openRecovering file env) }
  | .receive read =>
      match path.world.journal, path.current with
      | some _, none => { path with current := some read }
      | _, _ => path
  | .attempt attempt =>
      match path.world.journal, path.current with
      | some journal, some read =>
          let (stored, journal, disk) := storeAttempt crates attempt journal path.world.disk read
          ⟨⟨disk, some journal⟩, if stored.isSome then none else some read⟩
      | _, _ => path
  | .checkpoint env => { path with world := Storage.step crates path.world (.checkpoint env) }
  | .crash => ⟨Storage.step crates path.world .crash, none⟩

end Step

variable {crates : Crates}

/-! ## One attempt -/

/-- An append does what the insert of its one read does: it fails when that fails, and answers with
the row that comes back. -/
theorem append_of_insert_all {disk disk' : Disk} {journal journal' : SqliteJournal}
    {env : AppendEnv} {read : RawRead} {outcome : Except JournalError StoredRawRead}
    {result : Except StorageError (List StoredRawRead)} {rest : SqliteJournal × Disk}
    (hinsert : journal.insertAll crates env disk [read] = (result, rest))
    (happend : journal.append crates env disk read = (outcome, journal', disk')) :
    rest = (journal', disk') ∧
      (∀ error, result = .error error → ∃ error, outcome = .error error) ∧
      ∀ stored last, result = .ok stored → stored.getLast? = some last → outcome = .ok last := by
  refine ⟨?_, ?_⟩
  · have heq := @append_eq crates env journal disk read
    rw [happend, hinsert] at heq
    exact heq.symm
  rw [SqliteJournal.append, hinsert] at happend
  refine ⟨?_, ?_⟩
  · rintro error rfl
    cases happend
    exact ⟨_, rfl⟩
  · rintro stored last rfl hlast
    simp only [hlast] at happend
    cases happend
    rfl

/-- A part of the line of one read adds nothing else to what verifies. -/
theorem verified_append_one {read : RawRead} (hread : storable read = .ok ())
    (file : List UInt8) (now : OffsetDateTime) (kept : Nat) :
    ∃ more, verified crates (file ++ (batchOf crates (stamped [read] now)).take kept) =
      verified crates file ++ more ∧ ∀ entry ∈ more, entry.read = asStored read := by
  have hone : stamped [read] now = [⟨read, now⟩] := rfl
  obtain ⟨count, hcount⟩ := @verified_append_part crates (stamped [read] now)
    (by rw [hone]; simpa using hread) file kept
  refine ⟨_, hcount, fun entry hentry => ?_⟩
  obtain ⟨source, hsource, rfl⟩ := List.mem_map.mp hentry
  have hmem := List.mem_of_mem_take hsource
  rw [hone, List.mem_singleton] at hmem
  rw [hmem]
  rfl

/-- What an append of one read can do: write its line, or a part of it, or nothing, and fail; or
write its line and insert its row. -/
theorem append_cases {disk disk' : Disk} {journal journal' : SqliteJournal}
    (h : Located ⟨disk, some journal⟩) {env : AppendEnv} {read : RawRead}
    {outcome : Except JournalError StoredRawRead}
    (happend : journal.append crates env disk read = (outcome, journal', disk')) :
    ((∃ error, outcome = .error error) ∧ disk'.database.rawReads = disk.database.rawReads ∧
      ∃ more, verified crates disk'.file = verified crates disk.file ++ more ∧
        (∀ entry ∈ more, entry.read = asStored read) ∧
        (storable read ≠ .ok () → more = [])) ∨
    ((∃ stored, outcome = .ok stored) ∧ storable read = .ok () ∧
      verified crates disk'.file = verified crates disk.file ++ [recovered ⟨read, env.now⟩] ∧
      Inserted crates disk.database.rawReads [⟨read, env.now⟩] disk'.database.rawReads) := by
  obtain ⟨sidecar, hsidecar, _⟩ := h.journal journal rfl
  cases hinsert : journal.insertAll crates env disk [read] with
  | mk result rest =>
      obtain ⟨rfl, hfails, hcomes⟩ := append_of_insert_all hinsert happend
      have hone : stamped [read] env.now = [⟨read, env.now⟩] := rfl
      rcases insert_all_cases hsidecar hinsert with ⟨⟨error, rfl⟩, rfl, rfl⟩ | ⟨hstorable, hrest⟩
      · exact Or.inl ⟨hfails error rfl, rfl, [], by simp, by simp, fun _ => rfl⟩
      have hread : storable read = .ok () := hstorable read List.mem_cons_self
      rcases hrest with ⟨⟨error, rfl⟩, kept, rfl, rfl⟩ | ⟨hnil, _⟩ | ⟨_, _, digest, hcommit⟩
      · obtain ⟨more, hmore, hreads⟩ := verified_append_one hread disk.file env.now kept
        exact Or.inl ⟨hfails error rfl, rfl, more, hmore, hreads, fun hne => absurd hread hne⟩
      · cases hnil
      · rcases commit_cases hstorable hcommit with ⟨⟨error, rfl⟩, rfl, rfl⟩ |
          ⟨stored, rawReads', checkpointed, rfl, hstored, _, hinserted, rfl, hcheckpointed⟩
        · obtain ⟨more, hmore, hreads⟩ := @verified_append_one crates read hread disk.file env.now
            (batchOf crates (stamped [read] env.now)).length
          rw [List.take_length] at hmore
          exact Or.inl ⟨hfails error rfl, rfl, more, hmore, hreads,
            fun hne => absurd hread hne⟩
        · obtain ⟨last, rfl, _⟩ := List.map_eq_singleton_iff.mp hstored
          have hcommitted : checkpointed.rawReads = rawReads' := by
            rcases hcheckpointed with ⟨_, rfl⟩ | ⟨result, hcheckpoint⟩
            · rfl
            · have hrows := congrArg (fun result => result.2.2.rawReads) hcheckpoint
              exact hrows.symm.trans (checkpoint_raw_reads _ _ _)
          refine Or.inr ⟨⟨last, hcomes _ last rfl rfl⟩, hread, ?_, ?_⟩
          · exact verified_append_batch (by rw [hone]; simpa using hread) disk.file
          · rw [hone] at hinserted
            show Inserted crates disk.database.rawReads _ checkpointed.rawReads
            rw [hcommitted]
            exact hinserted

/-- A write to the sidecar fails as the sidecar fails. -/
theorem append_records_error {fault : Option SidecarFault} {sidecar : Sidecar}
    {file : List UInt8} {reads : List SidecarRead} {error : StorageError}
    (h : (sidecar.appendRecords crates fault file reads).1 = .error error) :
    ∃ text, error = .sidecar text := by
  rw [Sidecar.appendRecords, map_m_of_eq] at h
  simp only at h
  split at h
  · cases h
  · split at h
    all_goals cases h
    all_goals exact ⟨_, rfl⟩

/-- A transaction over a read that fits its columns fails as SQLite fails. -/
theorem commit_error (attempt : Attempt) {journal : SqliteJournal} {disk : Disk} {read : RawRead}
    (hstorable : storable read = .ok ()) {error : StorageError}
    (h : (journal.commit crates attempt.env disk [read]).1 = .error error) :
    ∃ text, error = .sqlite text := by
  rw [SqliteJournal.commit, insertEach, insert_one_of_storable hstorable] at h
  by_cases hid : read.id ∈ storedIds disk.database.rawReads
  · rw [if_pos hid] at h
    cases h
    exact ⟨_, rfl⟩
  · rw [if_neg hid] at h
    simp only [bind, Except.bind, insertEach, pure, Except.pure] at h
    cases htransaction : attempt.env.transaction with
    | some failure =>
        simp only [htransaction] at h
        cases h
        exact attempt.sqlite _ htransaction
    | none =>
        simp only [htransaction] at h
        split_ifs at h

/-- Neither kind of failure is a refusal. -/
theorem of_storage_error_ne_unstorable {error : StorageError} {reason : String}
    (h : error = .sidecar reason ∨ error = .sqlite reason) (text : String) :
    JournalError.ofStorageError error ≠ .unstorable text := by
  intro hrefused
  rcases h with rfl | rfl
  · have hbackend : JournalError.backend ("sidecar journal: " ++ reason) = .unstorable text :=
      hrefused
    exact JournalError.noConfusion hbackend
  · dsimp only [JournalError.ofStorageError] at hrefused
    by_cases hguard : "append-only".toList <:+: reason.toList
    · rw [if_pos hguard] at hrefused
      exact JournalError.noConfusion hrefused
    · rw [if_neg hguard] at hrefused
      exact JournalError.noConfusion hrefused

/-- A read that fits its columns is never refused as unstorable. -/
theorem append_ne_unstorable (attempt : Attempt) (journal : SqliteJournal) (disk : Disk)
    {read : RawRead} (hstorable : storable read = .ok ()) (text : String) :
    (journal.append crates attempt.env disk read).1 ≠ .error (.unstorable text) := by
  intro h
  have hcheck : [read].forM storable = .ok () := by
    show (storable read >>= fun _ => [].forM storable) = _
    rw [hstorable]
    rfl
  -- whatever error the insert ends with is not one that maps to this
  have herror : ∀ error, (journal.insertAll crates attempt.env disk [read]).1 = .error error →
      ∃ text, error = .sidecar text ∨ error = .sqlite text := by
    intro error herror
    rw [SqliteJournal.insertAll] at herror
    simp only [hcheck] at herror
    split at herror
    · obtain ⟨text, htext⟩ := commit_error attempt hstorable herror
      exact ⟨text, Or.inr htext⟩
    · split at herror
      · rename_i hwrite
        cases herror
        obtain ⟨text, htext⟩ := append_records_error (congrArg Prod.fst hwrite)
        exact ⟨text, Or.inl htext⟩
      · obtain ⟨text, htext⟩ := commit_error attempt hstorable herror
        exact ⟨text, Or.inr htext⟩
  rw [SqliteJournal.append] at h
  split at h
  · rename_i error _ _ hinsert
    obtain ⟨text', htext⟩ := herror error (congrArg Prod.fst hinsert)
    injection h with h
    exact of_storage_error_ne_unstorable htext text h
  · split at h <;> cases h

/-- The world an attempt leaves is that of the append. -/
theorem store_attempt_world (attempt : Attempt) (journal : SqliteJournal) (disk : Disk)
    (read : RawRead) :
    (⟨(storeAttempt crates attempt journal disk read).2.2,
        some (storeAttempt crates attempt journal disk read).2.1⟩ : World) =
      Storage.step crates ⟨disk, some journal⟩ (.append attempt.env read) := by
  rw [storeAttempt, Storage.step]
  split <;> simp_all

/-! ## The table leads the sidecar -/

/-- Where the read path always is: the log of its world is sound, its table leads its sidecar with
keys one after another, and while the service runs, a line without a row is a line of the read
`store` is at. -/
structure Follows (crates : Crates) (path : ReadPath) : Prop where
  located : Located path.world
  sound : (walOf crates path.world).Sound idOf
  leads : Leads idOf SidecarRead.read (path.world.disk.database.rawReads.map entryOf)
    (verified crates path.world.disk.file)
  seqs : path.world.disk.database.rawReads.map (·.seq) =
    List.range' 1 path.world.disk.database.rawReads.length
  waiting : path.world.journal.isSome → ∀ entry ∈ verified crates path.world.disk.file,
    idOf entry ∉ storedIds path.world.disk.database.rawReads →
      ∃ read, path.current = some read ∧ entry.read = asStored read

theorem follows_empty : Follows crates ReadPath.empty where
  located := located_empty
  sound := sound_empty
  leads := leads_nil _
  seqs := rfl
  waiting hrunning := by cases hrunning

/-- Rows with keys one after another end at their number. -/
theorem max_seq_of_seqs {rawReads : List StoredRawRead}
    (h : rawReads.map (·.seq) = List.range' 1 rawReads.length) :
    maxSeq rawReads = rawReads.length := by
  rcases List.eq_nil_or_concat' rawReads with rfl | ⟨front, last, rfl⟩
  · rfl
  rw [List.length_append, List.length_singleton, List.range'_concat, List.map_append] at h
  obtain ⟨hfront, hlast⟩ := List.append_inj' h rfl
  have hseq : last.seq = front.length + 1 := by
    have hsingle : last.seq = 1 + 1 * front.length := by simpa using hlast
    omega
  have hle : ∀ row ∈ front, row.seq ≤ front.length := by
    intro row hrow
    have hmem : row.seq ∈ front.map (·.seq) := List.mem_map_of_mem hrow
    rw [hfront, List.mem_range'_1] at hmem
    omega
  refine le_antisymm ?_ ?_
  · have hall : ∀ (rows : List StoredRawRead) (most : Nat), (∀ row ∈ rows, row.seq ≤ most) →
        maxSeq rows ≤ most := by
      intro rows most hrows
      induction rows with
      | nil => exact Nat.zero_le _
      | cons row rows ih =>
          exact max_le (hrows row List.mem_cons_self)
            (ih fun other hother => hrows other (List.mem_cons_of_mem _ hother))
    refine hall _ _ fun row hrow => ?_
    rw [List.length_append, List.length_singleton]
    rcases List.mem_append.mp hrow with hold | hnew
    · have := hle row hold
      omega
    · rw [List.mem_singleton.mp hnew, hseq]
  · have hmem := @seq_le_max_seq (front ++ [last]) last (by simp)
    rw [List.length_append, List.length_singleton, ← hseq]
    exact hmem

/-- What is inserted gets the keys that follow. -/
theorem seqs_inserted {rawReads rawReads' : List StoredRawRead} {reads : List SidecarRead}
    (h : Inserted crates rawReads reads rawReads')
    (hseqs : rawReads.map (·.seq) = List.range' 1 rawReads.length) :
    rawReads'.map (·.seq) = List.range' 1 rawReads'.length := by
  induction h with
  | nil => exact hseqs
  | @cons rawReads rawReads' read reads _ _ ih =>
      refine ih ?_
      rw [List.map_append, List.length_append, List.length_singleton, List.range'_concat, hseqs,
        List.map_singleton, rowOf, max_seq_of_seqs hseqs]
      simp [Nat.add_comm]

/-- Inserted reads are rows of their reads. -/
theorem entries_inserted {rawReads rawReads' : List StoredRawRead} {reads : List SidecarRead}
    (h : Inserted crates rawReads reads rawReads') :
    rawReads'.map entryOf = rawReads.map entryOf ++ reads.map recovered := by
  obtain ⟨rows, rfl, hrows, _⟩ := h.exists_rows
  rw [List.map_append]
  exact congrArg (rawReads.map entryOf ++ ·) hrows

/-- A read that comes back is one that fits. -/
theorem storable_of_as_stored {read : RawRead} (h : storable (asStored read) = .ok ()) :
    storable read = .ok () := by
  rw [storable_iff] at h ⊢
  exact h

/-- An append on the read path retries first: what waits on its row is the read it appends. -/
theorem Follows.retries_first {disk : Disk} {journal : SqliteJournal} {read : RawRead}
    (h : Follows crates ⟨⟨disk, some journal⟩, some read⟩) (env : AppendEnv) :
    RetriesFirst crates ⟨disk, some journal⟩ (.append env read) := by
  intro _ _ _ _ entry hentry
  rw [List.mem_append]
  by_cases hstored : entry.read.id ∈ storedIds disk.database.rawReads
  · exact Or.inl hstored
  · obtain ⟨current, hcurrent, hread⟩ := h.waiting rfl entry hentry hstored
    cases hcurrent
    rw [hread]
    exact Or.inr (List.mem_singleton_self _)

/-- Where every entry the table lacks holds one read, and one of them is there, that is the one
entry that waits. -/
theorem first_of_singleton {known : List RawReadId} {log : List SidecarRead} {read : RawRead}
    (hall : ∀ entry ∈ log, idOf entry ∉ known → entry.read = read) {present : SidecarRead}
    (hpresent : present ∈ log) (hnew : idOf present ∉ known) :
    ∃ waiting, firstOf idOf known log = [waiting] ∧ waiting.read = read := by
  have hreads : ∀ entry ∈ firstOf idOf known log, entry.read = read := fun entry hentry =>
    hall entry ((first_of_sublist log).subset hentry) (notMem_known_of_mem_first_of hentry)
  have hmem : idOf present ∈ (firstOf idOf known log).map idOf :=
    mem_map_first_of.mpr ⟨hnew, List.mem_map_of_mem hpresent⟩
  have hnodup := @nodup_map_first_of _ _ _ idOf known log
  match hwaiting : firstOf idOf known log with
  | [] =>
      rw [hwaiting] at hmem
      cases hmem
  | [waiting] =>
      exact ⟨waiting, rfl, hreads waiting (hwaiting ▸ List.mem_singleton_self _)⟩
  | first :: second :: rest =>
      -- two entries of one read have one id
      rw [hwaiting] at hreads hnodup
      have hfirst := hreads first List.mem_cons_self
      have hsecond := hreads second (List.mem_cons_of_mem _ List.mem_cons_self)
      have hsame : idOf first = idOf second := by rw [idOf, idOf, hfirst, hsecond]
      rw [List.map_cons, List.map_cons, List.nodup_cons, hsame] at hnodup
      exact absurd List.mem_cons_self hnodup.1

/-- What an attempt leaves in the table and in the sidecar keeps the table in the lead. -/
theorem Follows.append {disk disk' : Disk} {journal journal' : SqliteJournal} {read : RawRead}
    (h : Follows crates ⟨⟨disk, some journal⟩, some read⟩) {env : AppendEnv}
    {outcome : Except JournalError StoredRawRead}
    (happend : journal.append crates env disk read = (outcome, journal', disk')) :
    Leads idOf SidecarRead.read (disk'.database.rawReads.map entryOf) (verified crates disk'.file) ∧
      disk'.database.rawReads.map (·.seq) = List.range' 1 disk'.database.rawReads.length ∧
      ∀ entry ∈ verified crates disk'.file, idOf entry ∉ storedIds disk'.database.rawReads →
        (∃ error, outcome = .error error) ∧ storable read = .ok () ∧
          entry.read = asStored read := by
  obtain ⟨hlocated, _, hleads, hseqs, hwaiting⟩ := h
  have horphan : ∀ entry ∈ verified crates disk.file,
      idOf entry ∉ storedIds disk.database.rawReads →
        storable read = .ok () ∧ entry.read = asStored read := by
    intro entry hentry hnew
    obtain ⟨current, hcurrent, hread⟩ := hwaiting rfl entry hentry hnew
    cases hcurrent
    exact ⟨storable_of_as_stored (hread ▸ (of_mem_verified hentry).1), hread⟩
  rcases append_cases hlocated happend with
    ⟨herror, hrows, more, hmore, hreads, hnone⟩ | ⟨_, hstorable, hfile, hinserted⟩
  · -- the line may be there, and its row is not
    rw [hrows, hmore]
    refine ⟨hleads.append more, hseqs, fun entry hentry hnew => ?_⟩
    rcases List.mem_append.mp hentry with hold | hmem
    · exact ⟨herror, horphan entry hold hnew⟩
    · refine ⟨herror, ?_, hreads entry hmem⟩
      by_contra hne
      rw [hnone hne] at hmem
      cases hmem
  · -- the line has its row, and it is the only one that had to wait
    have hentries := entries_inserted hinserted
    have hfresh : idOf ⟨read, env.now⟩ ∉ storedIds disk.database.rawReads := by
      cases hinserted
      assumption
    have hlead := hleads.append [recovered ⟨read, env.now⟩]
    rw [← hfile] at hlead
    have hall : ∀ entry ∈ verified crates disk'.file,
        idOf entry ∉ (disk.database.rawReads.map entryOf).map idOf →
          entry.read = asStored read := by
      intro entry hentry hnew
      rw [hfile, List.mem_append, List.mem_singleton] at hentry
      rcases hentry with hold | rfl
      · exact (horphan entry hold (ids_entries disk.database.rawReads ▸ hnew)).2
      · rfl
    obtain ⟨waiting, hone, hread⟩ : ∃ waiting, firstOf idOf
        ((disk.database.rawReads.map entryOf).map idOf) (verified crates disk'.file) = [waiting] ∧
          waiting.read = asStored read := by
      have hmem : recovered ⟨read, env.now⟩ ∈ verified crates disk'.file := by
        rw [hfile]
        exact List.mem_append_right _ (List.mem_singleton_self _)
      refine first_of_singleton hall hmem ?_
      rw [ids_entries]
      exact hfresh
    rw [hentries]
    obtain ⟨hleads', hknown⟩ := hlead.insert
      (show [recovered ⟨read, env.now⟩].map idOf = _ by
        rw [hone, List.map_singleton, List.map_singleton, idOf, idOf, hread]
        rfl)
      (by rw [hone, List.map_singleton, List.map_singleton, hread]; rfl)
    refine ⟨hleads', seqs_inserted hinserted hseqs, fun entry hentry hnew => absurd ?_ hnew⟩
    rw [← ids_entries, hentries]
    exact hknown entry hentry

/-- An attempt keeps the table in the lead. -/
theorem Follows.attempt {path : ReadPath} (h : Follows crates path) (attempt : Attempt) :
    Follows crates (step crates path (.attempt attempt)) := by
  obtain ⟨⟨disk, running⟩, current⟩ := path
  cases running with
  | none => exact h
  | some journal =>
  cases current with
  | none => exact h
  | some read =>
      have hworld := @store_attempt_world crates attempt journal disk read
      have hstep : Refines crates True (fun _ => True) ⟨disk, some journal⟩ _ :=
        step_refines h.located h.sound.toAhead (.append attempt.env read) (fun _ _ _ => trivial)
          fun _ => ⟨h.sound, h.retries_first attempt.env⟩
      rw [← hworld] at hstep
      cases happend : journal.append crates attempt.env disk read with
      | mk outcome rest =>
          obtain ⟨journal', disk'⟩ := rest
          obtain ⟨hleads, hseqs, hwaiting⟩ := h.append happend
          have hafter : (storeAttempt crates attempt journal disk read).2 = (journal', disk') := by
            rw [storeAttempt, happend]
            split <;> simp_all
          have hcurrent : ∀ error, outcome = .error error → storable read = .ok () →
              (storeAttempt crates attempt journal disk read).1 = none := by
            intro error herror hstorable
            have hne := @append_ne_unstorable crates attempt journal disk _ hstorable
            rw [happend] at hne
            rw [storeAttempt, happend, herror]
            cases error with
            | unstorable text => exact absurd herror (hne text)
            | _ => rfl
          rw [hafter] at hstep
          show Follows crates ⟨⟨(storeAttempt crates attempt journal disk read).2.2,
            some (storeAttempt crates attempt journal disk read).2.1⟩,
            if (storeAttempt crates attempt journal disk read).1.isSome then none else some read⟩
          rw [hafter]
          refine ⟨hstep.located, h.sound.moves hstep.moves, hleads, hseqs,
            fun _ entry hentry hnew => ?_⟩
          obtain ⟨⟨error, herror⟩, hstorable, hread⟩ := hwaiting entry hentry hnew
          exact ⟨read, by rw [hcurrent error herror hstorable]; rfl, hread⟩

/-! ## Recovery -/

/-- The replays of a pass and some of its backfill keep the table in the lead, and leave nothing
that waits on its row, when the table has what the sidecar verifies in front of its start. -/
theorem leads_repaired {disk disk' : Disk} {start : Start} {found : Pass}
    (hleads : Leads idOf SidecarRead.read (disk.database.rawReads.map entryOf)
      (verified crates disk.file))
    (hlog : ∀ entry ∈ disk.database.rawReads.map entryOf, entry ∈ verified crates disk.file)
    (hstart : EndsLine disk.file start.fromByte)
    (hfront : ∀ entry ∈ verified crates (disk.file.take start.fromByte),
      idOf entry ∈ storedIds disk.database.rawReads)
    (hdid : PassDid crates disk start disk'.database.rawReads found) {kept : Nat}
    (hfile : disk'.file = disk.file ++ (batchOf crates found.backfill).take kept) :
    Leads idOf SidecarRead.read (disk'.database.rawReads.map entryOf) (verified crates disk'.file) ∧
      ∀ entry ∈ verified crates disk'.file, idOf entry ∈ storedIds disk'.database.rawReads := by
  -- what the pass found behind its start is all that waits
  have hfirst : firstOf idOf (storedIds disk.database.rawReads)
      (verified crates (disk.file.drop start.fromByte)) =
        firstOf idOf ((disk.database.rawReads.map entryOf).map idOf)
          (verified crates disk.file) := by
    rw [ids_entries, hstart.verified_eq, first_of_append, first_of_eq_nil.mpr hfront,
      List.nil_append]
    refine first_of_congr (fun wanted => ?_) _
    rw [List.mem_append]
    refine (or_iff_right_of_imp fun hmem => ?_).symm
    obtain ⟨entry, hentry, rfl⟩ := List.mem_map.mp hmem
    exact hfront entry hentry
  have hentries := entries_inserted hdid.inserted
  rw [hfirst, map_recovered fun read hread => (first_of_sublist _).subset hread] at hentries
  obtain ⟨hleads', hknown⟩ := hleads.insert rfl rfl
  rw [← hentries] at hleads' hknown
  rw [ids_entries] at hknown
  -- a backfilled read is a row, and a row's read is in the log
  have hbackfill : ∀ read ∈ found.backfill, storable read.read = .ok () ∧
      idOf (recovered read) ∈ storedIds disk'.database.rawReads := by
    intro read hread
    rw [hdid.backfill] at hread
    obtain ⟨row, hrow, rfl⟩ := mem_missing_from hread
    have hmem := hlog _ (List.mem_map_of_mem hrow)
    obtain ⟨hstorable, hsame⟩ := of_mem_verified hmem
    exact ⟨hstorable, hknown _ (hsame.symm ▸ hmem)⟩
  obtain ⟨count, hcount⟩ := @verified_append_part crates _ (fun read hread =>
    (hbackfill read hread).1) disk.file kept
  rw [hfile, hcount]
  refine ⟨hleads'.append _, fun entry hentry => ?_⟩
  rcases List.mem_append.mp hentry with hold | hnew
  · exact hknown entry hold
  · obtain ⟨read, hread, rfl⟩ := List.mem_map.mp hnew
    exact (hbackfill read (List.mem_of_mem_take hread)).2

/-- What a sound log has in front of the place a start reads from is in the table. -/
theorem usable_front {disk : Disk} (hlocated : Located ⟨disk, none⟩)
    (hsound : (walOf crates ⟨disk, none⟩).Sound idOf) :
    EndsLine disk.file (Start.of (usableCheckpoint disk)).fromByte ∧
      ∀ entry ∈ verified crates (disk.file.take (Start.of (usableCheckpoint disk)).fromByte),
        idOf entry ∈ storedIds disk.database.rawReads := by
  cases husable : usableCheckpoint disk with
  | none => exact ⟨ends_line_zero _, fun _ hentry => by cases hentry⟩
  | some checkpoint =>
      have hmem := mem_of_usable_checkpoint husable
      refine ⟨(hlocated.checkpoints checkpoint hmem).1, fun entry hentry => ?_⟩
      have hmark := hsound.marks (markOf crates disk checkpoint) (List.mem_map_of_mem hmem)
      rw [← ids_entries]
      exact hmark.covered entry hentry

/-- A start keeps the table in the lead, and a service that starts has nothing that waits. -/
theorem Follows.start {disk : Disk} {current : Option RawRead}
    (h : Follows crates ⟨⟨disk, none⟩, current⟩) (file : String) (env : RecoverEnv) :
    Follows crates (step crates ⟨⟨disk, none⟩, current⟩ (.start file env)) := by
  obtain ⟨hlocated, hsound, hleads, hseqs, _⟩ := h
  have hstep : Refines crates True (fun _ => True) ⟨disk, none⟩ _ :=
    step_refines hlocated hsound.toAhead (.openRecovering file env) (fun _ _ _ => trivial)
      fun _ => ⟨hsound, trivial⟩
  obtain ⟨hstart, hfront⟩ := usable_front hlocated hsound
  have hparts : ∀ disk' : Disk, (Storage.step crates ⟨disk, none⟩
      (.openRecovering file env)).disk = disk' →
      Leads idOf SidecarRead.read (disk'.database.rawReads.map entryOf)
          (verified crates disk'.file) ∧
        disk'.database.rawReads.map (·.seq) = List.range' 1 disk'.database.rawReads.length ∧
        ((Storage.step crates ⟨disk, none⟩ (.openRecovering file env)).journal.isSome →
          ∀ entry ∈ verified crates disk'.file,
            idOf entry ∈ storedIds disk'.database.rawReads) := by
    intro disk' hdisk'
    simp only [Storage.step, openRecovering] at hdisk' ⊢
    cases hopening : env.opening with
    | some error =>
        simp only [hopening] at hdisk' ⊢
        subst hdisk'
        exact ⟨hleads, hseqs, fun hrunning => by cases hrunning⟩
    | none =>
        simp only [hopening] at hdisk' ⊢
        cases hrepair : (SqliteJournal.opened file env.instant).repair crates env disk
            (.of (usableCheckpoint disk)) with
        | mk outcome rest =>
            obtain ⟨journal', repaired⟩ := rest
            have hsame : repaired = disk' := by
              rw [hrepair] at hdisk'
              cases outcome <;> exact hdisk'
            subst hsame
            rcases repair_cases rfl hrepair with
              ⟨⟨error, rfl⟩, rfl⟩ | ⟨found, kept, hdid, _, hfile, _⟩
            · exact ⟨hleads, hseqs, fun hrunning => by cases hrunning⟩
            · obtain ⟨hleads', hknown⟩ := leads_repaired hleads hsound.log hstart hfront hdid hfile
              exact ⟨hleads', seqs_inserted hdid.inserted hseqs, fun _ => hknown⟩
  obtain ⟨hleads', hseqs', hknown⟩ := hparts _ rfl
  exact ⟨hstep.located, hsound.moves hstep.moves, hleads', hseqs',
    fun hrunning entry hentry hnew => absurd (hknown hrunning entry hentry) hnew⟩

/-- A checkpoint leaves the sidecar and the rows as they are, and starts nothing. -/
theorem step_checkpoint (world : World) (env : CheckpointEnv) :
    (Storage.step crates world (.checkpoint env)).disk.file = world.disk.file ∧
      (Storage.step crates world (.checkpoint env)).disk.database.rawReads =
        world.disk.database.rawReads ∧
      ((Storage.step crates world (.checkpoint env)).journal.isSome → world.journal.isSome) := by
  obtain ⟨disk, running⟩ := world
  cases running with
  | none => exact ⟨rfl, rfl, id⟩
  | some journal => exact ⟨rfl, checkpoint_raw_reads _ _ _, fun _ => rfl⟩

/-- Every event keeps the table in the lead. -/
theorem Follows.step {path : ReadPath} (h : Follows crates path) (event : ReadPathEvent) :
    Follows crates (step crates path event) := by
  obtain ⟨⟨disk, running⟩, current⟩ := path
  cases event with
  | start file env =>
      cases running with
      | none => exact h.start file env
      | some journal => exact h
  | receive read =>
      cases running with
      | none => exact h
      | some journal =>
          cases current with
          | some other => exact h
          | none =>
              refine ⟨h.located, h.sound, h.leads, h.seqs, fun hrunning entry hentry hnew => ?_⟩
              obtain ⟨_, hnone, _⟩ := h.waiting hrunning entry hentry hnew
              cases hnone
  | attempt attempt => exact h.attempt attempt
  | checkpoint env =>
      have hstep : Refines crates True (fun _ => True) ⟨disk, running⟩ _ :=
        step_refines h.located h.sound.toAhead (.checkpoint env) (fun _ _ _ => trivial)
          fun _ => ⟨h.sound, trivial⟩
      obtain ⟨hfile, hrows, hrunning⟩ := @step_checkpoint crates ⟨disk, running⟩ env
      refine ⟨hstep.located, h.sound.moves hstep.moves, ?_, ?_, fun hafter => ?_⟩
      · rw [Edge.step, hfile, hrows]
        exact h.leads
      · rw [Edge.step, hrows]
        exact h.seqs
      · rw [Edge.step, hfile, hrows]
        exact h.waiting (hrunning hafter)
  | crash =>
      have hstep : Refines crates True (fun _ => True) ⟨disk, running⟩ _ :=
        step_refines h.located h.sound.toAhead .crash (fun _ _ _ => trivial)
          fun _ => ⟨h.sound, trivial⟩
      exact ⟨hstep.located, h.sound.moves hstep.moves, h.leads, h.seqs,
        fun hrunning => by cases hrunning⟩

/-- Every run keeps the table in the lead. -/
theorem run_follows (crates : Crates) (events : List ReadPathEvent) :
    Follows crates (run (step crates) ReadPath.empty events) :=
  run_keeps (fun _ event h => h.step event) follows_empty events

/-! ## The sidecar alone -/

/-- A service that has recovered has in its table what its sidecar verifies first of each read,
under keys one after another. -/
theorem recovered_rows {path : ReadPath} (h : Follows crates path) {file : String}
    {env : RecoverEnv} {journal : SqliteJournal} {report : RecoveryReport} {disk' : Disk}
    (hopen : openRecovering crates env file path.world.disk = (.ok (journal, report), disk')) :
    (firstOf idOf [] (verified crates disk'.file)).map SidecarRead.read =
        disk'.database.rawReads.map (·.read) ∧
      disk'.database.rawReads.map (·.seq) = List.range' 1 disk'.database.rawReads.length := by
  have hcrash : Follows crates ⟨⟨path.world.disk, none⟩, none⟩ := h.step .crash
  have hstart := hcrash.step (.start file env)
  have hworld : step crates ⟨⟨path.world.disk, none⟩, none⟩ (.start file env) =
      ⟨⟨disk', some journal⟩, none⟩ := by
    rw [step, Storage.step]
    simp only [hopen]
  rw [hworld] at hstart
  have hall : ∀ entry ∈ verified crates disk'.file,
      idOf entry ∈ (disk'.database.rawReads.map entryOf).map idOf := by
    intro entry hentry
    rw [ids_entries]
    by_contra hnew
    obtain ⟨_, hnone, _⟩ := hstart.waiting rfl entry hentry hnew
    cases hnone
  refine ⟨?_, hstart.seqs⟩
  rw [hstart.leads.all hall, List.map_map]
  rfl

/-- What a reconcile makes of an empty database is what the sidecar verifies first of each read,
under keys one after another. -/
theorem rebuilt_reads {handle handle' : SqliteJournal} (hsidecar : handle.sidecar.isSome)
    {env : RecoverEnv} {file : List UInt8} {report : RecoveryReport} {rebuilt : Disk}
    (h : handle.reconcile crates env ⟨file, ⟨[], [], []⟩⟩ = (.ok report, handle', rebuilt)) :
    (firstOf idOf [] (verified crates file)).map SidecarRead.read =
        rebuilt.database.rawReads.map (·.read) ∧
      rebuilt.database.rawReads.map (·.seq) = List.range' 1 rebuilt.database.rawReads.length := by
  obtain ⟨sidecar, hsome⟩ := Option.isSome_iff_exists.mp hsidecar
  obtain ⟨found, _, hdid, _, _⟩ := repair_of_ok hsome h
  refine ⟨?_, seqs_inserted hdid.inserted rfl⟩
  have hentries := entries_inserted hdid.inserted
  rw [map_recovered fun read hread => (first_of_sublist _).subset hread] at hentries
  have hreads := congrArg (List.map SidecarRead.read) hentries
  rw [List.map_map] at hreads
  exact hreads.symm

/-- What a run of the read path leaves after a recovery, a reconcile of an empty database rebuilds
from the sidecar: the same reads in the same order, from which the same is derived. -/
theorem sidecar_reproduces (crates : Crates) (events : List ReadPathEvent) {file : String}
    {env : RecoverEnv} {journal : SqliteJournal} {report : RecoveryReport} {disk : Disk}
    (hopen : openRecovering crates env file
      (run (step crates) ReadPath.empty events).world.disk = (.ok (journal, report), disk))
    {handle handle' : SqliteJournal} (hsidecar : handle.sidecar.isSome) {env' : RecoverEnv}
    {report' : RecoveryReport} {rebuilt : Disk}
    (hreconcile : handle.reconcile crates env' ⟨disk.file, ⟨[], [], []⟩⟩ =
      (.ok report', handle', rebuilt)) :
    rebuilt.database.rawReads.map (fun row => (row.seq, row.read)) =
        disk.database.rawReads.map (fun row => (row.seq, row.read)) ∧
      ∀ newV5 policy chips antennas manual gunTime,
        derive newV5 ⟨rebuilt.database.rawReads, policy, chips, antennas, manual, gunTime⟩ =
          derive newV5 ⟨disk.database.rawReads, policy, chips, antennas, manual, gunTime⟩ := by
  obtain ⟨hreads, hseqs⟩ := recovered_rows (run_follows crates events) hopen
  obtain ⟨hreads', hseqs'⟩ := rebuilt_reads hsidecar hreconcile
  rw [hreads] at hreads'
  have hlength : disk.database.rawReads.length = rebuilt.database.rawReads.length := by
    simpa using congrArg List.length hreads'
  have hrows : rebuilt.database.rawReads.map (fun row => (row.seq, row.read)) =
      disk.database.rawReads.map (fun row => (row.seq, row.read)) := by
    rw [← List.zip_map', ← List.zip_map', ← hreads', hseqs', hseqs, hlength]
  refine ⟨hrows, fun newV5 policy chips antennas manual gunTime => ?_⟩
  exact Engine.derive_eq_of_reads newV5
    ⟨disk.database.rawReads, policy, chips, antennas, manual, gunTime⟩ hrows

/-! ## A read given up at a crash -/

/-- A read is received, the transaction of its first append fails, and the process dies. -/
def diesAfterFailure (read : RawRead) : List ReadPathEvent :=
  [.start "reads.sfj" calm, .receive read,
    .attempt ⟨failingAppend, fun _ herror => ⟨_, (Option.some.inj herror).symm⟩⟩, .crash]

/-- The read the process died at is recovered, and rebuilt from the sidecar. -/
theorem sidecar_reproduces_after_failure :
    ∃ disk rebuilt journal report handle report', openRecovering serde calm "reads.sfj"
        (run (step serde) ReadPath.empty (diesAfterFailure (bareRead firstId))).world.disk =
          (.ok (journal, report), disk) ∧
      (SqliteJournal.opened "rebuilt.sfj" 0).reconcile serde calm ⟨disk.file, ⟨[], [], []⟩⟩ =
        (.ok report', handle, rebuilt) ∧
      rebuilt.database.rawReads.map (fun row => (row.seq, row.read)) =
        disk.database.rawReads.map (fun row => (row.seq, row.read)) := by
  obtain ⟨journal, report, disk, hopen⟩ := @open_recovering_succeeds serde calm calm_calm
    "reads.sfj" (run (step serde) ReadPath.empty (diesAfterFailure (bareRead firstId))).world.disk
  obtain ⟨report', handle, rebuilt, hreconcile⟩ := @repair_succeeds serde
    (SqliteJournal.opened "rebuilt.sfj" 0) _ rfl calm calm_calm ⟨disk.file, ⟨[], [], []⟩⟩
    .beginning (fun _ hafter => by cases hafter) (fun _ htip => by cases htip)
  exact ⟨disk, rebuilt, journal, report, handle, report', hopen, hreconcile,
    (sidecar_reproduces serde _ hopen rfl hreconcile).1⟩

end Splitforge.Edge
