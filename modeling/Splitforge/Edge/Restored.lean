import Splitforge.Edge.ReadPath
import Splitforge.Results.Score
import Splitforge.Storage.ManualEntries

/-!
# Evidence behind a restore

Reads have a line in the sidecar before they have a row, and manual entries have a row only. A
restore puts an older database beside the same sidecar, and a reconcile takes the sidecar's reads
in behind it, in the order they were appended in. So every read comes back with its number, and
every manual entry that the snapshot had, and no other.
-/

namespace Splitforge.Edge

open Splitforge.Domain Splitforge.Library Splitforge.Storage Splitforge.Engine Splitforge.Results

/-- What holds evidence: the disk with a writer's handle, the batch that has to be appended again
because its append failed, and the manual entries. -/
structure Evidence where
  world : World
  waiting : Option (List RawRead)
  manual : List StoredManualEntry

/-- Nothing recorded yet. -/
def Evidence.empty : Evidence := ⟨World.empty, none, []⟩

/-- What can happen: a writer starts and recovers, it appends a batch (one read is a batch of one),
an operator records a manual entry, a checkpoint is recorded, and the writer dies. -/
inductive EvidenceEvent where
  | start (path : String) (env : RecoverEnv)
  | append (env : AppendEnv) (reads : List RawRead)
  | manual (env : ManualEnv) (entry : ManualEntry)
  | checkpoint (env : CheckpointEnv)
  | crash

section Step

variable (crates : Crates) (registered : Registered)

/-- The batch that has to be appended again behind an append: none if it went through, and none if
it is empty or was refused, so that no line of it was written. -/
def waitingAfter (reads : List RawRead) :
    Except JournalError (List StoredRawRead) → Option (List RawRead)
  | .ok _ => none
  | .error _ => if reads ≠ [] ∧ ∀ read ∈ reads, storable read = .ok () then some reads else none

/-- One event. While a batch waits, no other is appended. -/
def evidenceStep (state : Evidence) : EvidenceEvent → Evidence
  | .start path env =>
      match state.world.journal with
      | some _ => state
      | none => { state with
          world := Storage.step crates state.world (.openRecovering path env), waiting := none }
  | .append env reads =>
      match state.world.journal with
      | none => state
      | some journal =>
          if state.waiting.any (· ≠ reads) then state
          else { state with
            world := Storage.step crates state.world (.appendBatch env reads)
            waiting := waitingAfter reads
              (journal.appendBatch crates env state.world.disk reads).1 }
  | .manual env entry =>
      { state with
        manual := withRecorded state.manual (recordManualEntry registered env state.manual entry) }
  | .checkpoint env => { state with world := Storage.step crates state.world (.checkpoint env) }
  | .crash => { state with world := Storage.step crates state.world .crash, waiting := none }

/-- The manual entry an event records, if it records one. -/
def recordedBy (rows : List StoredManualEntry) : EvidenceEvent → List StoredManualEntry
  | .manual env entry =>
      match recordManualEntry registered env rows entry with
      | .ok row => [row]
      | .error _ => []
  | _ => []

/-- The manual entries that are recorded in the course of some events. -/
def recordedIn : Evidence → List EvidenceEvent → List StoredManualEntry
  | _, [] => []
  | state, event :: events =>
      recordedBy registered state.manual event ++
        recordedIn (evidenceStep crates registered state event) events

end Step

variable {crates : Crates} {registered : Registered}

/-! ## One append -/

/-- The transaction of an append leaves the disk as it was, or inserts the batch. -/
theorem commit_rows {disk disk' : Disk} {journal journal' : SqliteJournal} {env : AppendEnv}
    {reads : List RawRead} {outcome : Except StorageError (List StoredRawRead)}
    (hstorable : ∀ read ∈ reads, storable read = .ok ())
    (h : journal.commit crates env disk reads = (outcome, journal', disk')) :
    ((∃ error, outcome = .error error) ∧ disk' = disk) ∨
      (∃ stored, outcome = .ok stored) ∧ disk'.file = disk.file ∧
        Inserted crates disk.database.rawReads (stamped reads env.now) disk'.database.rawReads := by
  rcases commit_cases hstorable h with ⟨herror, _, hdisk⟩ |
    ⟨stored, rawReads', checkpointed, hok, _, _, hinserted, rfl, hcheckpointed⟩
  · exact .inl ⟨herror, hdisk⟩
  · have hrows : checkpointed.rawReads = rawReads' := by
      rcases hcheckpointed with ⟨_, rfl⟩ | ⟨result, hcheckpoint⟩
      · rfl
      · have hsame := congrArg (fun result => result.2.2.rawReads) hcheckpoint
        exact hsame.symm.trans (checkpoint_raw_reads _ _ _)
    refine .inr ⟨⟨stored, hok⟩, rfl, ?_⟩
    show Inserted crates disk.database.rawReads _ checkpointed.rawReads
    rw [hrows]
    exact hinserted

/-- What an append of a batch can do: write some of its lines, or none, and fail; or write its lines
and insert its rows. -/
theorem append_batch_cases {disk disk' : Disk} {journal journal' : SqliteJournal}
    (h : Located ⟨disk, some journal⟩) {env : AppendEnv} {reads : List RawRead}
    {outcome : Except JournalError (List StoredRawRead)}
    (happend : journal.appendBatch crates env disk reads = (outcome, journal', disk')) :
    ((∃ error, outcome = .error error) ∧ disk'.database.rawReads = disk.database.rawReads ∧
      ∃ part, part <+: stamped reads env.now ∧
        verified crates disk'.file = verified crates disk.file ++ part.map recovered ∧
        (part = [] ∨ ∀ read ∈ reads, storable read = .ok ())) ∨
    ((∃ stored, outcome = .ok stored) ∧ (∀ read ∈ reads, storable read = .ok ()) ∧
      verified crates disk'.file =
        verified crates disk.file ++ (stamped reads env.now).map recovered ∧
      Inserted crates disk.database.rawReads (stamped reads env.now) disk'.database.rawReads) := by
  obtain ⟨sidecar, hsidecar, _⟩ := h.journal journal rfl
  cases hinsert : journal.insertAll crates env disk reads with
  | mk result rest =>
      have hsame : outcome = result.mapError JournalError.ofStorageError ∧
          (journal', disk') = rest := by
        rw [SqliteJournal.appendBatch, hinsert] at happend
        cases result <;> cases happend <;> exact ⟨rfl, rfl⟩
      obtain ⟨rfl, rfl⟩ := hsame
      have herror (hresult : ∃ error, result = .error error) :
          ∃ error, result.mapError JournalError.ofStorageError = .error error := by
        obtain ⟨error, rfl⟩ := hresult
        exact ⟨_, rfl⟩
      have hok (hresult : ∃ stored, result = .ok stored) :
          ∃ stored, result.mapError JournalError.ofStorageError = .ok stored := by
        obtain ⟨stored, rfl⟩ := hresult
        exact ⟨stored, rfl⟩
      rcases insert_all_cases hsidecar hinsert with ⟨hfailed, rfl, rfl⟩ | ⟨hstorable, hrest⟩
      · exact .inl ⟨herror hfailed, rfl, [], List.nil_prefix, by simp, .inl rfl⟩
      have hstamped : ∀ read ∈ stamped reads env.now, storable read.read = .ok () :=
        storable_stamped hstorable
      have hlines := @verified_append_batch crates _ hstamped disk.file
      rcases hrest with ⟨hfailed, kept, rfl, rfl⟩ | ⟨rfl, hcommit⟩ | ⟨_, _, digest, hcommit⟩
      · obtain ⟨count, hcount⟩ := @verified_append_part crates _ hstamped disk.file kept
        exact .inl ⟨herror hfailed, rfl, _, List.take_prefix count _, hcount, .inr hstorable⟩
      · rcases commit_rows hstorable hcommit with ⟨hfailed, rfl⟩ | ⟨hstored, hfile, hinserted⟩
        · exact .inl ⟨herror hfailed, rfl, [], List.nil_prefix, by simp, .inl rfl⟩
        · refine .inr ⟨hok hstored, hstorable, ?_, hinserted⟩
          rw [hfile]
          simp [stamped]
      · rcases commit_rows hstorable hcommit with ⟨hfailed, rfl⟩ | ⟨hstored, hfile, hinserted⟩
        · exact .inl ⟨herror hfailed, rfl, _, List.prefix_refl _, hlines, .inr hstorable⟩
        · refine .inr ⟨hok hstored, hstorable, ?_, hinserted⟩
          rw [hfile]
          exact hlines

/-! ## What waits -/

/-- Every line without a row is of a batch, and if the batch can be inserted, what the sidecar
verifies first of those lines is a beginning of it. -/
structure Owes (crates : Crates) (disk : Disk) (reads : List RawRead) : Prop where
  source : ∀ entry ∈ verified crates disk.file, idOf entry ∉ storedIds disk.database.rawReads →
    ∃ read ∈ reads, entry.read = asStored read
  beginning : Committable disk.database.rawReads reads →
    (firstOf idOf (storedIds disk.database.rawReads) (verified crates disk.file)).map
      SidecarRead.read <+: reads.map asStored

/-- Where every line has its row, nothing is owed of any batch. -/
theorem owes_of_settled {disk : Disk} (h : ∀ entry ∈ verified crates disk.file,
    idOf entry ∈ storedIds disk.database.rawReads) (reads : List RawRead) :
    Owes crates disk reads where
  source := fun entry hentry hnew => absurd (h entry hentry) hnew
  beginning := by
    intro _
    rw [first_of_eq_nil.mpr h]
    exact List.nil_prefix

/-- Where nothing is owed of the empty batch, every line has its row. -/
theorem Owes.settled {disk : Disk} (h : Owes crates disk []) :
    ∀ entry ∈ verified crates disk.file, idOf entry ∈ storedIds disk.database.rawReads := by
  intro entry hentry
  by_contra hnew
  obtain ⟨read, hread, _⟩ := h.source entry hentry hnew
  cases hread

/-- What the sidecar verifies first, behind more lines of the batch that is owed. -/
theorem Owes.first_of {disk : Disk} {reads : List RawRead} (h : Owes crates disk reads)
    (hcommittable : Committable disk.database.rawReads reads) {recordedAt : OffsetDateTime}
    {part : List SidecarRead} (hpart : part <+: stamped reads recordedAt) :
    (firstOf idOf (storedIds disk.database.rawReads)
        (verified crates disk.file ++ part.map recovered)).map SidecarRead.read <+:
          reads.map asStored ∧
      (part.map recovered).map SidecarRead.read <+:
        (firstOf idOf (storedIds disk.database.rawReads)
          (verified crates disk.file ++ part.map recovered)).map SidecarRead.read := by
  have hvalues (items : List SidecarRead) :
      (firstOf idOf (storedIds disk.database.rawReads) items).map SidecarRead.read =
        firstOf RawRead.id (storedIds disk.database.rawReads) (items.map SidecarRead.read) :=
    first_of_map (fun _ => rfl) items
  have hids : (reads.map asStored).map RawRead.id = reads.map (·.id) := by
    rw [List.map_map]
    rfl
  have hbeginning := h.beginning hcommittable
  rw [hvalues] at hbeginning
  rw [hvalues, List.map_append]
  refine first_of_append_prefix (hids ▸ hcommittable.ids_nodup) (fun read hread => ?_) hbeginning ?_
  · obtain ⟨source, hsource, rfl⟩ := List.mem_map.mp hread
    exact hcommittable.fresh source hsource
  · have hmapped := (hpart.map recovered).map SidecarRead.read
    have hstamped : ((stamped reads recordedAt).map recovered).map SidecarRead.read =
        reads.map asStored := by
      rw [stamped, List.map_map, List.map_map]
      rfl
    rwa [hstamped] at hmapped

/-- Lines of the batch that is owed leave it owed. -/
theorem Owes.append {disk disk' : Disk} {reads : List RawRead} (h : Owes crates disk reads)
    (hrows : disk'.database.rawReads = disk.database.rawReads) {recordedAt : OffsetDateTime}
    {part : List SidecarRead} (hpart : part <+: stamped reads recordedAt)
    (hfile : verified crates disk'.file = verified crates disk.file ++ part.map recovered) :
    Owes crates disk' reads where
  source := by
    intro entry hentry hnew
    rw [hrows] at hnew
    rw [hfile, List.mem_append] at hentry
    rcases hentry with hold | hmem
    · exact h.source entry hold hnew
    · obtain ⟨line, hline, rfl⟩ := List.mem_map.mp hmem
      obtain ⟨read, hread, rfl⟩ := List.mem_map.mp (hpart.subset hline)
      exact ⟨read, hread, rfl⟩
  beginning := by
    intro hcommittable
    rw [hrows] at hcommittable ⊢
    rw [hfile]
    exact (h.first_of hcommittable hpart).1

/-- The invariant of a run: the log of the world is sound, its table leads its sidecar with keys
one after another, and while a writer runs, a line without a row is of the batch that waits. -/
structure Keeps (crates : Crates) (state : Evidence) : Prop where
  located : Located state.world
  sound : (walOf crates state.world).Sound idOf
  leads : Leads idOf SidecarRead.read (state.world.disk.database.rawReads.map entryOf)
    (verified crates state.world.disk.file)
  seqs : state.world.disk.database.rawReads.map (·.seq) =
    List.range' 1 state.world.disk.database.rawReads.length
  owes : state.world.journal.isSome → Owes crates state.world.disk (state.waiting.getD [])
  waiting : ∀ reads, state.waiting = some reads →
    reads ≠ [] ∧ ∀ read ∈ reads, storable read = .ok ()

theorem keeps_empty : Keeps crates Evidence.empty where
  located := located_empty
  sound := sound_empty
  leads := leads_nil _
  seqs := rfl
  owes hrunning := by cases hrunning
  waiting _ hwaiting := by cases hwaiting

/-- What an append leaves in the table and in the sidecar keeps the table in the lead. -/
theorem append_leads {disk disk' : Disk} {journal journal' : SqliteJournal} {reads : List RawRead}
    (hlocated : Located ⟨disk, some journal⟩)
    (hleads : Leads idOf SidecarRead.read (disk.database.rawReads.map entryOf)
      (verified crates disk.file))
    (hseqs : disk.database.rawReads.map (·.seq) = List.range' 1 disk.database.rawReads.length)
    (howes : Owes crates disk reads) {env : AppendEnv}
    {outcome : Except JournalError (List StoredRawRead)}
    (happend : journal.appendBatch crates env disk reads = (outcome, journal', disk')) :
    Leads idOf SidecarRead.read (disk'.database.rawReads.map entryOf) (verified crates disk'.file) ∧
      disk'.database.rawReads.map (·.seq) = List.range' 1 disk'.database.rawReads.length := by
  rcases append_batch_cases hlocated happend with
    ⟨_, hrows, part, _, hfile, _⟩ | ⟨_, hstorable, hfile, hinserted⟩
  · rw [hrows, hfile]
    exact ⟨hleads.append _, hseqs⟩
  · have hcommittable := hinserted.committable hlocated.rows hstorable
    obtain ⟨hshort, hlong⟩ := howes.first_of hcommittable (List.prefix_refl (stamped reads env.now))
    have hstamped : ((stamped reads env.now).map recovered).map SidecarRead.read =
        reads.map asStored := by
      rw [stamped, List.map_map, List.map_map]
      rfl
    -- what the sidecar verifies first without a row is the batch
    rw [hstamped] at hlong
    have hwhole := List.IsPrefix.eq_of_length hlong
      (Nat.le_antisymm hlong.length_le hshort.length_le)
    have hkeys (items : List SidecarRead) :
        items.map idOf = (items.map SidecarRead.read).map RawRead.id := by
      rw [List.map_map]
      rfl
    have hreads : ((stamped reads env.now).map recovered).map SidecarRead.read =
        (firstOf idOf ((disk.database.rawReads.map entryOf).map idOf)
          (verified crates disk.file ++ (stamped reads env.now).map recovered)).map
            SidecarRead.read := by
      rw [ids_entries, hstamped, hwhole]
    rw [hfile, entries_inserted hinserted]
    refine ⟨((hleads.append _).insert ?_ hreads).1, seqs_inserted hinserted hseqs⟩
    rw [hkeys, hkeys, hreads]

/-- What an append leaves owed: its batch when it has to be appended again, and nothing else. -/
theorem append_owes {disk disk' : Disk} {journal journal' : SqliteJournal} {reads : List RawRead}
    (hlocated : Located ⟨disk, some journal⟩) {waiting : Option (List RawRead)}
    (howes : Owes crates disk (waiting.getD [])) (hbatch : waiting = none ∨ waiting = some reads)
    (hwaiting : ∀ reads, waiting = some reads →
      reads ≠ [] ∧ ∀ read ∈ reads, storable read = .ok ())
    {env : AppendEnv} {outcome : Except JournalError (List StoredRawRead)}
    (happend : journal.appendBatch crates env disk reads = (outcome, journal', disk')) :
    Owes crates disk' ((waitingAfter reads outcome).getD []) := by
  have hreads : Owes crates disk reads := by
    rcases hbatch with rfl | rfl
    · exact owes_of_settled howes.settled reads
    · exact howes
  rcases append_batch_cases hlocated happend with
    ⟨⟨error, rfl⟩, hrows, part, hpart, hfile, hnone⟩ | ⟨⟨stored, rfl⟩, hstorable, hfile, hinserted⟩
  · rw [waitingAfter]
    split_ifs with hagain
    · exact hreads.append hrows hpart hfile
    · -- no line was written, and no other batch waited
      have hempty : part = [] := by
        rcases hnone with hpart | hstorable
        · exact hpart
        · have hnil : reads = [] := by
            by_contra hne
            exact hagain ⟨hne, hstorable⟩
          rw [hnil] at hpart
          exact List.prefix_nil.mp hpart
      have hnot : waiting = none := by
        refine hbatch.resolve_right fun hsome => hagain ?_
        exact hwaiting reads hsome
      rw [hempty, List.map_nil, List.append_nil] at hfile
      refine owes_of_settled ?_ []
      rw [hfile, hrows]
      rw [hnot] at howes
      exact howes.settled
  · refine owes_of_settled ?_ []
    intro entry hentry
    have hids := hinserted.stored_ids_eq
    rw [hfile, List.mem_append] at hentry
    rw [hids, List.mem_append]
    rcases hentry with hold | hnew
    · by_cases hstored : idOf entry ∈ storedIds disk.database.rawReads
      · exact .inl hstored
      · obtain ⟨read, hread, hsame⟩ := hreads.source entry hold hstored
        refine .inr ?_
        rw [ids_stamped, idOf, hsame]
        exact List.mem_map.mpr ⟨read, hread, rfl⟩
    · obtain ⟨line, hline, rfl⟩ := List.mem_map.mp hnew
      exact .inr (List.mem_map.mpr ⟨line, hline, rfl⟩)

/-- Every event is some moves of the log its world stands for. -/
theorem Keeps.refines {state : Evidence} (h : Keeps crates state) (event : EvidenceEvent) :
    Refines crates True (fun _ => True) state.world
      (evidenceStep crates registered state event).world := by
  have hstep (event : Event) (hretries : RetriesFirst crates state.world event) :
      Refines crates True (fun _ => True) state.world (Storage.step crates state.world event) :=
    step_refines h.located h.sound.toAhead event (fun _ _ _ => trivial) fun _ => ⟨h.sound, hretries⟩
  cases event with
  | start path env =>
      rw [evidenceStep]
      split
      · exact .refl h.located
      · exact hstep (.openRecovering path env) trivial
  | append env reads =>
      rw [evidenceStep]
      split
      · exact .refl h.located
      · rename_i journal hjournal
        split_ifs with hother
        · exact .refl h.located
        refine hstep (.appendBatch env reads) ?_
        intro hrunning _ _ _ entry hentry
        rw [List.mem_append]
        by_cases hstored : entry.read.id ∈ storedIds state.world.disk.database.rawReads
        · exact .inl hstored
        · obtain ⟨read, hread, hsame⟩ := (h.owes hrunning).source entry hentry hstored
          cases hwaiting : state.waiting with
          | none =>
              rw [hwaiting] at hread
              cases hread
          | some batch =>
              rw [hwaiting] at hread hother
              have hbatch : batch = reads := by simpa using hother
              rw [hsame, ← hbatch]
              exact .inr (List.mem_map.mpr ⟨read, hread, rfl⟩)
  | manual env entry => exact .refl h.located
  | checkpoint env => exact hstep (.checkpoint env) trivial
  | crash => exact hstep .crash trivial

/-- An append keeps the invariant. -/
theorem Keeps.append {state : Evidence} (h : Keeps crates state) (env : AppendEnv)
    (reads : List RawRead) :
    Keeps crates (evidenceStep crates registered state (.append env reads)) := by
  have hstep := @Keeps.refines crates registered state h (.append env reads)
  obtain ⟨⟨disk, running⟩, waiting, manual⟩ := state
  cases running with
  | none => exact h
  | some journal =>
      rw [evidenceStep] at hstep ⊢
      dsimp only at hstep ⊢
      split_ifs at hstep ⊢ with hother
      · exact h
      have hbatch : waiting = none ∨ waiting = some reads := by
        cases waiting with
        | none => exact .inl rfl
        | some batch => exact .inr (congrArg some (by simpa using hother))
      have howes := h.owes rfl
      cases happend : journal.appendBatch crates env disk reads with
      | mk outcome rest =>
          obtain ⟨journal', disk'⟩ := rest
          have hworld : Storage.step crates ⟨disk, some journal⟩ (.appendBatch env reads) =
              ⟨disk', some journal'⟩ := by
            rw [Storage.step]
            simp only [happend]
          have hreads : Owes crates disk reads := by
            rcases hbatch with rfl | rfl
            · exact owes_of_settled howes.settled reads
            · exact howes
          obtain ⟨hleads, hseqs⟩ := append_leads h.located h.leads h.seqs hreads happend
          rw [hworld] at hstep ⊢
          refine ⟨hstep.located, h.sound.moves hstep.moves, hleads, hseqs,
            fun _ => append_owes h.located howes hbatch h.waiting happend, ?_⟩
          intro again hagain
          cases outcome with
          | ok stored => cases hagain
          | error error =>
              dsimp only [waitingAfter] at hagain
              split_ifs at hagain with hcheck
              cases hagain
              exact hcheck

/-- Every event keeps the invariant. -/
theorem Keeps.step {state : Evidence} (h : Keeps crates state) (event : EvidenceEvent) :
    Keeps crates (evidenceStep crates registered state event) := by
  have hstep := @Keeps.refines crates registered state h event
  cases event with
  | append env reads => exact h.append env reads
  | manual env entry => exact ⟨h.located, h.sound, h.leads, h.seqs, h.owes, h.waiting⟩
  | start path env =>
      obtain ⟨⟨disk, running⟩, waiting, manual⟩ := state
      cases running with
      | some journal => exact h
      | none =>
          have hfollows : Follows crates ⟨⟨disk, none⟩, none⟩ :=
            ⟨h.located, h.sound, h.leads, h.seqs, fun hrunning => by cases hrunning⟩
          obtain ⟨hlocated, hsound, hleads, hseqs, hwaiting⟩ := hfollows.start path env
          refine ⟨hlocated, hsound, hleads, hseqs, fun hrunning => ?_,
            fun _ hnone => by cases hnone⟩
          refine owes_of_settled (fun entry hentry => ?_) []
          by_contra hnew
          obtain ⟨_, hcurrent, _⟩ := hwaiting hrunning entry hentry hnew
          cases hcurrent
  | checkpoint env =>
      obtain ⟨hfile, hrows, hrunning⟩ := @step_checkpoint crates state.world env
      refine ⟨hstep.located, h.sound.moves hstep.moves, ?_, ?_, fun hafter => ?_, h.waiting⟩
      · rw [evidenceStep, hfile, hrows]
        exact h.leads
      · rw [evidenceStep, hrows]
        exact h.seqs
      · obtain ⟨hsource, hbeginning⟩ := h.owes (hrunning hafter)
        refine ⟨?_, ?_⟩
        · rw [evidenceStep, hfile, hrows]
          exact hsource
        · rw [evidenceStep, hfile, hrows]
          exact hbeginning
  | crash =>
      refine ⟨hstep.located, h.sound.moves hstep.moves, h.leads, h.seqs, fun hrunning => ?_,
        fun _ hnone => ?_⟩
      · cases hrunning
      · cases hnone

/-- Every run keeps the invariant. -/
theorem run_keeps_evidence (crates : Crates) (registered : Registered)
    (events : List EvidenceEvent) :
    Keeps crates (run (evidenceStep crates registered) Evidence.empty events) :=
  run_keeps (fun _ event h => h.step event) keeps_empty events

/-- A run puts its rows behind those that are there. -/
theorem Keeps.rows_begin {state : Evidence} (h : Keeps crates state)
    (events : List EvidenceEvent) :
    state.world.disk.database.rawReads.map entryOf <+:
      (run (evidenceStep crates registered) state events).world.disk.database.rawReads.map
        entryOf := by
  induction events generalizing state with
  | nil => exact List.prefix_refl _
  | cons event events ih =>
      have hstep := @Keeps.refines crates registered state h event
      exact hstep.moves.table_prefix.trans (ih (h.step event))

/-! ## Manual entries -/

/-- An event puts the entry it records behind those that are there. -/
theorem manual_of_step (state : Evidence) (event : EvidenceEvent) :
    (evidenceStep crates registered state event).manual =
      state.manual ++ recordedBy registered state.manual event := by
  cases event with
  | manual env entry =>
      rw [evidenceStep, recordedBy]
      cases recordManualEntry registered env state.manual entry with
      | error error => exact (List.append_nil _).symm
      | ok row => rfl
  | start path env =>
      rw [evidenceStep, recordedBy, List.append_nil]
      · cases state.world.journal <;> rfl
      · intro _ _ hmanual
        cases hmanual
  | append env reads =>
      rw [evidenceStep, recordedBy, List.append_nil]
      · cases state.world.journal with
        | none => rfl
        | some journal =>
            dsimp only
            split_ifs <;> rfl
      · intro _ _ hmanual
        cases hmanual
  | checkpoint env => exact (List.append_nil _).symm
  | crash => exact (List.append_nil _).symm

/-- A run puts the entries it records behind those that are there. -/
theorem manual_of_run (state : Evidence) (events : List EvidenceEvent) :
    (run (evidenceStep crates registered) state events).manual =
      state.manual ++ recordedIn crates registered state events := by
  induction events generalizing state with
  | nil => exact (List.append_nil _).symm
  | cons event events ih =>
      rw [run_cons, ih, recordedIn, manual_of_step, List.append_assoc]

/-- What a run records stands behind every entry that was there. -/
theorem seq_of_recorded_in {state : Evidence} {events : List EvidenceEvent}
    {row : StoredManualEntry} (hrow : row ∈ recordedIn crates registered state events) :
    lastEntry state.manual < row.seq := by
  induction events generalizing state with
  | nil => cases hrow
  | cons event events ih =>
      rcases List.mem_append.mp hrow with hfirst | hlater
      · cases event with
        | manual env entry =>
            rw [recordedBy] at hfirst
            cases hrecord : recordManualEntry registered env state.manual entry with
            | error error =>
                rw [hrecord] at hfirst
                cases hfirst
            | ok recorded =>
                rw [hrecord] at hfirst
                rw [List.mem_singleton.mp hfirst, seq_of_recorded hrecord]
                exact Nat.lt_succ_self _
        | _ => cases hfirst
      · have hmore := @manual_of_step crates registered state event
        refine Nat.lt_of_le_of_lt ?_ (ih hlater)
        rw [hmore]
        exact last_entry_le_append _ _

/-! ## Restoring -/

/-- What a database that was replaced owes to the one that a restore and a reconcile put in its
place: its rows with their numbers, and its manual entries; and if every line of the sidecar had
its row, the same is derived and scored for every race. -/
structure Survives (crates : Crates) (replaced : Evidence) (rawReads : List StoredRawRead)
    (entries : List StoredManualEntry) : Prop where
  reads : replaced.world.disk.database.rawReads.map (fun row => (row.seq, row.read)) <+:
    rawReads.map fun row => (row.seq, row.read)
  manual : ∀ entry ∈ replaced.manual, entry ∈ entries
  results : (∀ entry ∈ verified crates replaced.world.disk.file,
      idOf entry ∈ storedIds replaced.world.disk.database.rawReads) →
    ∀ newV5 policy chips antennas gunTime race participants checkpoints declarations scoring,
      let derived := derive newV5
        ⟨rawReads, policy, chips, antennas, manualEntriesFor entries race, gunTime⟩
      let before := derive newV5 ⟨replaced.world.disk.database.rawReads, policy, chips, antennas,
        manualEntriesFor replaced.manual race, gunTime⟩
      derived = before ∧
        score ⟨participants, checkpoints, derived.timingEvents, declarations, scoring⟩ =
          score ⟨participants, checkpoints, before.timingEvents, declarations, scoring⟩

/-- What a reconcile makes of an earlier table and the sidecar as it is: the rows of the later table
with their numbers, and behind them the lines that have no row. -/
theorem reconciled_rows {snapshot replaced : Evidence} (hsnapshot : Keeps crates snapshot)
    (hreplaced : Keeps crates replaced)
    (hbegins : snapshot.world.disk.database.rawReads.map entryOf <+:
      replaced.world.disk.database.rawReads.map entryOf)
    {handle handle' : SqliteJournal} (hsidecar : handle.sidecar.isSome) {env : RecoverEnv}
    {report : RecoveryReport} {restored : Disk}
    (h : handle.reconcile crates env
      ⟨replaced.world.disk.file, snapshot.world.disk.database⟩ = (.ok report, handle', restored)) :
    restored.database.rawReads.map (·.read) =
        replaced.world.disk.database.rawReads.map (·.read) ++
          (firstOf idOf (storedIds replaced.world.disk.database.rawReads)
            (verified crates replaced.world.disk.file)).map SidecarRead.read ∧
      restored.database.rawReads.map (·.seq) =
        List.range' 1 restored.database.rawReads.length := by
  obtain ⟨sidecar, hsome⟩ := Option.isSome_iff_exists.mp hsidecar
  obtain ⟨found, _, hdid, _, _⟩ := repair_of_ok hsome h
  have hinserted : Inserted crates snapshot.world.disk.database.rawReads
      (firstOf idOf (storedIds snapshot.world.disk.database.rawReads)
        (verified crates replaced.world.disk.file)) restored.database.rawReads := hdid.inserted
  refine ⟨?_, seqs_inserted hinserted hsnapshot.seqs⟩
  have hread (rows : List StoredRawRead) :
      rows.map (·.read) = (rows.map entryOf).map SidecarRead.read := by
    rw [List.map_map]
    rfl
  obtain ⟨back, hback⟩ := hbegins
  have hleads := hreplaced.leads
  rw [← hback] at hleads
  have hfront : Leads idOf SidecarRead.read (snapshot.world.disk.database.rawReads.map entryOf)
      (verified crates replaced.world.disk.file) :=
    @Leads.front _ _ _ idOf _ _ _ RawRead.id (fun _ => rfl) _ _ hleads
  have hboth := hfront.inOrder.symm.trans hreplaced.leads.inOrder
  rw [hread, entries_inserted hinserted,
    map_recovered fun read hmem => (first_of_sublist _).subset hmem, List.map_append, hread]
  rw [ids_entries, ids_entries] at hboth
  exact hboth

/-- Rows with keys one after another are told by their reads. -/
theorem numbered_rows {rawReads : List StoredRawRead}
    (h : rawReads.map (·.seq) = List.range' 1 rawReads.length) :
    rawReads.map (fun row => (row.seq, row.read)) =
      (List.range' 1 rawReads.length).zip (rawReads.map (·.read)) := by
  rw [← h, List.zip_map']

/-- Numbered rows whose reads begin with those of others begin with them. -/
theorem numbered_prefix {first second : List StoredRawRead}
    (hfirst : first.map (·.seq) = List.range' 1 first.length)
    (hsecond : second.map (·.seq) = List.range' 1 second.length)
    (h : first.map (·.read) <+: second.map (·.read)) :
    first.map (fun row => (row.seq, row.read)) <+: second.map fun row => (row.seq, row.read) := by
  obtain ⟨rest, hrest⟩ := h
  have hlength : second.length = first.length + rest.length := by
    simpa using (congrArg List.length hrest).symm
  rw [numbered_rows hfirst, numbered_rows hsecond, ← hrest, hlength, ← List.range'_append_1,
    List.zip_append (by simp)]
  exact List.prefix_append _ _

/-- A reconcile in which nothing fails goes through, whatever was restored. -/
theorem reconcile_succeeds (disk : Disk) : ∃ report handle' restored,
    (SqliteJournal.opened "race.sfj" 0).reconcile serde calm disk =
      (.ok report, handle', restored) :=
  @repair_succeeds serde (SqliteJournal.opened "race.sfj" 0) _ rfl calm calm_calm disk .beginning
    (fun _ hafter => by cases hafter) fun _ htip => by cases htip

/-- The rows a sample entry refers to. -/
def onRoster : Registered := ⟨[⟨.fromU128 1⟩], [⟨.fromU128 2⟩], [⟨.fromU128 3⟩]⟩

/-- What an operator wrote down at a finish line. -/
def writtenDown : ManualEntry :=
  ⟨⟨.fromU128 4⟩, ⟨.fromU128 1⟩, ⟨.fromU128 2⟩, ⟨.fromU128 3⟩, epoch, "operator", "chip failed"⟩

end Splitforge.Edge
