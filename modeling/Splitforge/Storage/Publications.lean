import Splitforge.Storage.ResultRows

/-!
# Publications

A publication that succeeds adds its rows and nothing else, and one that fails adds nothing. One
that has all it needs succeeds.
-/

namespace Splitforge.Storage.Results

open Splitforge.Domain Splitforge.Library

variable {newV5 : Uuid → String → Uuid} {env : PublishEnv} {tables tables' : ResultTables}
variable {publication : Publication}

/-! ## Statements -/

theorem insert_revision_eq_ok {row : RevisionRow} (h : insertRevision row tables = .ok tables') :
    (∀ other ∈ tables.resultRevisions, other.id ≠ row.id) ∧
      (∀ other ∈ tables.resultRevisions, other.raceId = row.raceId → other.number ≠ row.number) ∧
      row.raceId ∈ tables.races ∧
      tables' = { tables with resultRevisions := tables.resultRevisions ++ [row] } := by
  unfold insertRevision at h
  split_ifs at h with hid hnumber hrace
  injection h with h
  refine ⟨?_, ?_, by simpa using hrace, h.symm⟩
  · intro other hother hsame
    exact hid (List.any_eq_true.mpr ⟨other, hother, decide_eq_true hsame⟩)
  · intro other hother hsame hsame'
    exact hnumber (List.any_eq_true.mpr ⟨other, hother, by simp [hsame, hsame']⟩)

theorem insert_entry_eq_ok {row : EntryRow} (h : insertEntry row tables = .ok tables') :
    (∀ other ∈ tables.resultEntries, other.revisionId = row.revisionId →
        other.participantId ≠ row.participantId) ∧
      row.participantId ∈ tables.participants ∧
      tables' = { tables with resultEntries := tables.resultEntries ++ [row] } := by
  unfold insertEntry at h
  split_ifs at h with hkey hforeign
  injection h with h
  refine ⟨?_, ?_, h.symm⟩
  · intro other hother hsame hsame'
    exact hkey (List.any_eq_true.mpr ⟨other, hother, by simp [hsame, hsame']⟩)
  · simp only [Bool.or_eq_true, not_or, Bool.not_eq_true', Bool.not_eq_false] at hforeign
    exact List.contains_iff_mem.mp hforeign.2

/-- A statement leaves what its transaction found alone, and it succeeds as it does outside one. -/
theorem execute_eq {transaction transaction' : Transaction} {fault : Option String}
    {statement : ResultTables → Except StorageError ResultTables}
    {result : Except StorageError Unit}
    (h : transaction.execute fault statement = (result, transaction')) :
    transaction'.before = transaction.before ∧
      (result = .ok () →
        fault = none ∧ statement transaction.tables = .ok transaction'.tables) := by
  unfold Transaction.execute at h
  cases fault with
  | some text =>
      injection h with hresult htransaction
      rw [← hresult, ← htransaction]
      exact ⟨rfl, fun hok => nomatch hok⟩
  | none =>
      dsimp only at h
      cases hstatement : statement transaction.tables with
      | error error =>
          rw [hstatement] at h
          injection h with hresult htransaction
          rw [← hresult, ← htransaction]
          exact ⟨rfl, fun hok => nomatch hok⟩
      | ok tables =>
          rw [hstatement] at h
          injection h with hresult htransaction
          rw [← htransaction]
          exact ⟨rfl, fun _ => ⟨rfl, rfl⟩⟩

/-! ## Entries -/

/-- What the entries of a revision have written. -/
structure EntriesWritten (env : PublishEnv) (revision : Uuid) (ordinal : Nat)
    (entries : List ResultEntry) (tables tables' : ResultTables) : Prop where
  rows : ∃ rows, Rows revision ordinal entries rows ∧
    tables' = { tables with resultEntries := tables.resultEntries ++ rows }
  registered : ∀ entry ∈ entries, entry.participant.uuid.toText ∈ tables.participants
  apart : ∀ entry ∈ entries, ∀ row ∈ tables.resultEntries, row.revisionId = revision.toText →
    row.participantId ≠ entry.participant.uuid.toText
  distinct : (entries.map (·.participant)).Nodup
  unfaulted : ∀ index < entries.length, env.fault (.entry (ordinal + index)) = none

/-- The row of an entry, and then those of the entries behind it. -/
theorem EntriesWritten.cons {revision : Uuid} {ordinal : Nat} {entries : List ResultEntry}
    {entry : ResultEntry} {row : EntryRow} {between : ResultTables}
    (h : EntriesWritten env revision (ordinal + 1) entries between tables')
    (hrow : entryRow revision ordinal entry = .ok row)
    (hfault : env.fault (.entry ordinal) = none) (hinsert : insertEntry row tables = .ok between) :
    EntriesWritten env revision ordinal (entry :: entries) tables tables' := by
  obtain ⟨hkey, hregistered, hbetween⟩ := insert_entry_eq_ok hinsert
  obtain ⟨hrevision, hparticipant, _⟩ := entry_row_keys hrow
  obtain ⟨⟨rows, hrows, htables⟩, hall, hapart, hdistinct, hunfaulted⟩ := h
  rw [hbetween] at htables hall hapart
  -- the row of the first entry keeps every other from having its participant
  have hother : ∀ other ∈ entries, other.participant ≠ entry.participant := by
    intro other hmem hsame
    refine hapart other hmem row (List.mem_append_right _ List.mem_cons_self) hrevision ?_
    rw [hparticipant, hsame]
  refine ⟨⟨row :: rows, .cons hrow hrows, ?_⟩, ?_, ?_, ?_, ?_⟩
  · rw [htables, List.append_assoc]
    rfl
  · intro other hmem
    rcases List.mem_cons.mp hmem with rfl | hmem
    · rw [← hparticipant]
      exact hregistered
    · exact hall other hmem
  · intro other hmem stored hstored hsame
    rcases List.mem_cons.mp hmem with rfl | hmem
    · rw [← hparticipant]
      exact hkey stored hstored (hsame.trans hrevision.symm)
    · exact hapart other hmem stored (List.mem_append_left _ hstored) hsame
  · rw [List.map_cons, List.nodup_cons]
    refine ⟨?_, hdistinct⟩
    intro hmem
    obtain ⟨other, hmem, hsame⟩ := List.mem_map.mp hmem
    exact hother other hmem hsame
  · intro index hindex
    cases index with
    | zero => exact hfault
    | succ index =>
        have hnext := hunfaulted index (Nat.lt_of_succ_lt_succ hindex)
        rwa [Nat.add_right_comm] at hnext

/-- Writing entries leaves what the transaction found alone, and writes all of them if it
succeeds. -/
theorem write_entries_eq {revision : Uuid} {ordinal : Nat} {entries : List ResultEntry}
    {transaction transaction' : Transaction} {result : Except StorageError Unit}
    (h : writeEntries env revision ordinal entries transaction = (result, transaction')) :
    transaction'.before = transaction.before ∧ (result = .ok () →
      EntriesWritten env revision ordinal entries transaction.tables transaction'.tables) := by
  induction entries generalizing ordinal transaction with
  | nil =>
      injection h with hresult htransaction
      rw [← htransaction]
      refine ⟨rfl, fun _ => ⟨⟨[], .nil, by rw [List.append_nil]⟩, ?_, ?_, List.nodup_nil, ?_⟩⟩
      · intro entry hentry
        cases hentry
      · intro entry hentry
        cases hentry
      · intro index hindex
        cases hindex
  | cons entry entries ih =>
      unfold writeEntries at h
      cases hrow : entryRow revision ordinal entry with
      | error error =>
          rw [hrow] at h
          injection h with hresult htransaction
          rw [← hresult, ← htransaction]
          exact ⟨rfl, fun hok => nomatch hok⟩
      | ok row =>
          rw [hrow] at h
          dsimp only at h
          rcases hexecute : transaction.execute (env.fault (.entry ordinal)) (insertEntry row) with
            ⟨executed, next⟩
          obtain ⟨hbefore, hok⟩ := execute_eq hexecute
          rw [hexecute] at h
          cases executed with
          | error error =>
              injection h with hresult htransaction
              rw [← hresult, ← htransaction]
              exact ⟨hbefore, fun hok => nomatch hok⟩
          | ok done =>
              obtain ⟨hfault, hinsert⟩ := hok rfl
              obtain ⟨hbefore', hwritten⟩ := ih h
              exact ⟨hbefore'.trans hbefore, fun hresult =>
                (hwritten hresult).cons hrow hfault hinsert⟩

/-! ## Publications -/

/-- What a publication that succeeded has written, and what it has found. -/
structure Published (newV5 : Uuid → String → Uuid) (env : PublishEnv) (tables : ResultTables)
    (publication : Publication) (tables' : ResultTables) : Prop where
  rows : ∃ policyJson recordedAtUs row rows,
    policyToString publication.gunOffset publication.policy = .ok policyJson ∧
      revisionRow newV5 policyJson recordedAtUs publication.toRevision = .ok row ∧
      Rows publication.id 0 publication.entries rows ∧
      tables' = { tables with
        resultRevisions := tables.resultRevisions ++ [row]
        resultEntries := tables.resultEntries ++ rows }
  ids : ∀ row ∈ tables.resultRevisions, row.id ≠ publication.id.toText
  numbers : ∀ row ∈ tables.resultRevisions, row.isOf publication.race publication.number = false
  registered : ∀ entry ∈ publication.entries,
    entry.participant.uuid.toText ∈ tables.participants
  distinct : (publication.entries.map (·.participant)).Nodup
  unfaulted : ∀ ordinal < publication.entries.length, env.fault (.entry ordinal) = none

/-- Writing a revision and its entries keeps the tables to roll back to, and writes all rows if it
succeeds. -/
theorem write_revision_eq {policyJson : String} {recordedAtUs : Int64} {transaction : Transaction}
    {result : Except StorageError Unit}
    (hpolicy : policyToString publication.gunOffset publication.policy = .ok policyJson)
    (h : writeRevision newV5 env policyJson recordedAtUs publication.toRevision (.of tables) =
      (result, transaction)) :
    transaction.rollback = tables ∧
      (result = .ok () → Published newV5 env tables publication transaction.commit) := by
  unfold writeRevision at h
  cases hrow : revisionRow newV5 policyJson recordedAtUs publication.toRevision with
  | error error =>
      rw [hrow] at h
      injection h with hresult htransaction
      rw [← hresult, ← htransaction]
      exact ⟨rfl, fun hok => nomatch hok⟩
  | ok row =>
      rw [hrow] at h
      dsimp only at h
      rcases hexecute : (Transaction.of tables).execute (env.fault .revision)
        (insertRevision row) with ⟨executed, next⟩
      obtain ⟨hbefore, hok⟩ := execute_eq hexecute
      rw [hexecute] at h
      cases executed with
      | error error =>
          injection h with hresult htransaction
          rw [← hresult, ← htransaction]
          exact ⟨hbefore, fun hok => nomatch hok⟩
      | ok done =>
          obtain ⟨hfault, hinsert⟩ := hok rfl
          obtain ⟨hid, hnumber, hrace, htables⟩ := insert_revision_eq_ok hinsert
          obtain ⟨hrowid, hrowrace, hrownumber, _⟩ := revision_row_fields hrow
          obtain ⟨hbefore', hwritten⟩ := write_entries_eq h
          refine ⟨hbefore'.trans hbefore, fun hresult => ?_⟩
          obtain ⟨⟨rows, hrows, htables'⟩, hregistered, _, hdistinct, hunfaulted⟩ :=
            hwritten hresult
          rw [htables] at htables' hregistered
          refine ⟨⟨policyJson, _, row, rows, hpolicy, hrow, hrows, htables'⟩, ?_, ?_, hregistered,
            hdistinct, ?_⟩
          · intro other hother
            rw [← hrowid]
            exact hid other hother
          · intro other hother
            rw [RevisionRow.isOf, Bool.and_eq_false_imp]
            intro hsame
            rw [← hrowrace] at hsame
            rw [← hrownumber]
            exact decide_eq_false (hnumber other hother (of_decide_eq_true hsame))
          · intro ordinal hordinal
            have hnone := hunfaulted ordinal hordinal
            rwa [Nat.zero_add] at hnone

/-- A call fails and leaves the tables as they were, or writes its revision. -/
theorem publish_cases (newV5 : Uuid → String → Uuid) (env : PublishEnv) (tables : ResultTables)
    (publication : Publication) :
    (∃ error, publish newV5 env tables publication = (.error error, tables)) ∨
      ∃ tables', publish newV5 env tables publication = (.ok (), tables') ∧
        Published newV5 env tables publication tables' := by
  unfold publish
  rw [to_micros_eq]
  cases hpolicy : policyToString publication.gunOffset publication.policy with
  | error error => exact Or.inl ⟨_, rfl⟩
  | ok policyJson =>
      cases hstart : env.fault .start with
      | some text => exact Or.inl ⟨_, rfl⟩
      | none =>
          dsimp only
          rcases hwrite : writeRevision newV5 env policyJson (micros env.now)
            publication.toRevision (.of tables) with ⟨written, transaction⟩
          obtain ⟨hrollback, hpublished⟩ := write_revision_eq hpolicy hwrite
          cases written with
          | error error => exact Or.inl ⟨error, congrArg _ hrollback⟩
          | ok done =>
              dsimp only
              cases hfinish : env.fault .finish with
              | some text => exact Or.inl ⟨_, congrArg _ hrollback⟩
              | none => exact Or.inr ⟨transaction.commit, rfl, hpublished rfl⟩

/-! ## What is accepted -/

/-- The tables of a store: entries are those of its revisions, and numbers are numbers. -/
structure Sound (tables : ResultTables) : Prop where
  referenced : ∀ entry ∈ tables.resultEntries,
    ∃ row ∈ tables.resultRevisions, row.id = entry.revisionId
  numbers : ∀ row ∈ tables.resultRevisions, ∃ number < 2 ^ 32, row.number = Int64.ofNat number

theorem sound_unpublished (races participants : List String) :
    Sound (unpublished races participants) where
  referenced _ h := nomatch h
  numbers _ h := nomatch h

theorem execute_of_ok {transaction : Transaction} {fault : Option String}
    {statement : ResultTables → Except StorageError ResultTables} (hfault : fault = none)
    (h : statement transaction.tables = .ok tables') :
    transaction.execute fault statement = (.ok (), { transaction with tables := tables' }) := by
  unfold Transaction.execute
  rw [hfault]
  dsimp only
  rw [h]

/-- A row with new keys in a registered race is added. -/
theorem insert_revision_of_fresh {row : RevisionRow}
    (hid : ∀ other ∈ tables.resultRevisions, other.id ≠ row.id)
    (hnumber : ∀ other ∈ tables.resultRevisions, other.raceId = row.raceId →
      other.number ≠ row.number)
    (hrace : row.raceId ∈ tables.races) :
    insertRevision row tables =
      .ok { tables with resultRevisions := tables.resultRevisions ++ [row] } := by
  have hnoid : (tables.resultRevisions.any fun other => other.id = row.id) = false := by
    simpa using hid
  have hnonumber : (tables.resultRevisions.any fun other =>
      other.raceId = row.raceId && other.number = row.number) = false := by
    simpa using hnumber
  have hregistered : (!tables.races.contains row.raceId) = false := by simpa using hrace
  rw [insertRevision, hnoid, hnonumber, hregistered]
  rfl

/-- A row with a new key, of a stored revision and a registered participant, is added. -/
theorem insert_entry_of_fresh {row : EntryRow}
    (hkey : ∀ other ∈ tables.resultEntries, other.revisionId = row.revisionId →
      other.participantId ≠ row.participantId)
    (hrevision : ∃ other ∈ tables.resultRevisions, other.id = row.revisionId)
    (hparticipant : row.participantId ∈ tables.participants) :
    insertEntry row tables =
      .ok { tables with resultEntries := tables.resultEntries ++ [row] } := by
  have hnokey : (tables.resultEntries.any fun other =>
      other.revisionId = row.revisionId && other.participantId = row.participantId) = false := by
    simpa using hkey
  have hforeign : (!(tables.resultRevisions.any fun other => other.id = row.revisionId) ||
      !tables.participants.contains row.participantId) = false := by
    simpa using ⟨hrevision, hparticipant⟩
  rw [insertEntry, hnokey, hforeign]
  rfl

/-- An entry has a row. -/
theorem exists_entry_row (revision : Uuid) (ordinal : Nat) (entry : ResultEntry) :
    ∃ row, entryRow revision ordinal entry = .ok row := by
  have hmicros : ∀ instant : Option OffsetDateTime,
      ∃ stored, instant.mapM toMicros = .ok stored := by
    intro instant
    cases instant with
    | none => exact ⟨none, rfl⟩
    | some value =>
        rw [Option.mapM_some, to_micros_eq]
        exact ⟨_, rfl⟩
  obtain ⟨startAtUs, hstart⟩ := hmicros entry.startAt
  obtain ⟨finishAtUs, hfinish⟩ := hmicros entry.finishAt
  unfold entryRow
  rw [hstart, hfinish]
  exact ⟨_, rfl⟩

/-- Entries of distinct registered participants are written under a new revision. -/
theorem write_entries_of_distinct {revision : Uuid} {ordinal : Nat} {entries : List ResultEntry}
    {transaction : Transaction}
    (hrevision : ∃ row ∈ transaction.tables.resultRevisions, row.id = revision.toText)
    (hregistered : ∀ entry ∈ entries,
      entry.participant.uuid.toText ∈ transaction.tables.participants)
    (hapart : ∀ entry ∈ entries, ∀ row ∈ transaction.tables.resultEntries,
      row.revisionId = revision.toText → row.participantId ≠ entry.participant.uuid.toText)
    (hdistinct : (entries.map (·.participant)).Nodup)
    (hunfaulted : ∀ index < entries.length, env.fault (.entry (ordinal + index)) = none) :
    ∃ transaction', writeEntries env revision ordinal entries transaction =
      (.ok (), transaction') := by
  induction entries generalizing ordinal transaction with
  | nil => exact ⟨transaction, rfl⟩
  | cons entry entries ih =>
      obtain ⟨row, hrow⟩ := exists_entry_row revision ordinal entry
      obtain ⟨hid, hparticipant, _⟩ := entry_row_keys hrow
      rw [List.map_cons, List.nodup_cons] at hdistinct
      have hkey := hapart entry List.mem_cons_self
      have hmember := hregistered entry List.mem_cons_self
      rw [← hparticipant] at hkey hmember
      rw [← hid] at hkey
      have hinsert := insert_entry_of_fresh hkey (by rwa [hid]) hmember
      have hfault : env.fault (.entry ordinal) = none := hunfaulted 0 (Nat.succ_pos _)
      unfold writeEntries
      rw [hrow]
      dsimp only
      rw [execute_of_ok hfault hinsert]
      refine ih hrevision (fun other hother => hregistered other (List.mem_cons_of_mem _ hother))
        ?_ hdistinct.2 ?_
      · intro other hother stored hstored hsame
        rcases List.mem_append.mp hstored with hstored | hstored
        · exact hapart other (List.mem_cons_of_mem _ hother) stored hstored hsame
        · rw [List.mem_singleton.mp hstored, hparticipant]
          intro hparticipants
          have hsame : entry.participant = other.participant :=
            Splitforge.Domain.Id.ext (Uuid.to_text_injective hparticipants)
          exact hdistinct.1 (List.mem_map.mpr ⟨other, hother, hsame.symm⟩)
      · intro index hindex
        have hnext := hunfaulted (index + 1) (Nat.succ_lt_succ hindex)
        rwa [← Nat.add_assoc, Nat.add_right_comm] at hnext

/-- A call has all it needs to succeed. -/
structure Accepts (env : PublishEnv) (tables : ResultTables) (publication : Publication) :
    Prop where
  unfaulted : ∀ statement, env.fault statement = none
  policy : ∃ policyJson, policyToString publication.gunOffset publication.policy = .ok policyJson
  race : publication.race.uuid.toText ∈ tables.races
  ids : ∀ row ∈ tables.resultRevisions, row.id ≠ publication.id.toText
  numbers : ∀ row ∈ tables.resultRevisions, row.isOf publication.race publication.number = false
  registered : ∀ entry ∈ publication.entries,
    entry.participant.uuid.toText ∈ tables.participants
  distinct : (publication.entries.map (·.participant)).Nodup

/-- A call that has what it needs succeeds. -/
theorem publish_of_accepts (newV5 : Uuid → String → Uuid) (hsound : Sound tables)
    (h : Accepts env tables publication) :
    ∃ tables', publish newV5 env tables publication = (.ok (), tables') := by
  obtain ⟨policyJson, hpolicy⟩ := h.policy
  obtain ⟨row, hrow⟩ : ∃ row, revisionRow newV5 policyJson (micros env.now)
      publication.toRevision = .ok row := by
    unfold revisionRow
    rw [to_micros_eq]
    exact ⟨_, rfl⟩
  obtain ⟨hid, hrace, hnumber, _⟩ := revision_row_fields hrow
  have hids := h.ids
  have hregistered := h.race
  have hnumbers : ∀ other ∈ tables.resultRevisions, other.raceId = row.raceId →
      other.number ≠ row.number := by
    intro other hother hsame hsame'
    have hother := h.numbers other hother
    rw [RevisionRow.isOf, hsame, hsame', hrace, hnumber] at hother
    simp at hother
  rw [← hid] at hids
  rw [← hrace] at hregistered
  have hinsert := insert_revision_of_fresh hids hnumbers hregistered
  have hexecute : (Transaction.of tables).execute (env.fault .revision) (insertRevision row) = _ :=
    execute_of_ok (h.unfaulted .revision) hinsert
  obtain ⟨transaction, hentries⟩ : ∃ transaction, writeEntries env publication.id 0
      publication.entries ⟨tables, { tables with
        resultRevisions := tables.resultRevisions ++ [row] }⟩ = (.ok (), transaction) := by
    refine write_entries_of_distinct ⟨row, List.mem_append_right _ List.mem_cons_self, hid⟩
      h.registered ?_ h.distinct fun index _ => h.unfaulted _
    intro entry _ stored hstored hsame
    obtain ⟨other, hother, hreferenced⟩ := hsound.referenced stored hstored
    exact absurd (hreferenced.trans hsame) (h.ids other hother)
  have hwrite : writeRevision newV5 env policyJson (micros env.now) publication.toRevision
      (.of tables) = (.ok (), transaction) := by
    unfold writeRevision
    rw [hrow]
    dsimp only
    rw [hexecute]
    exact hentries
  refine ⟨transaction.commit, ?_⟩
  unfold publish
  rw [hpolicy, to_micros_eq, h.unfaulted .start]
  dsimp only
  rw [hwrite, h.unfaulted .finish]

/-- It leaves the tables with the rows of the revision. -/
theorem published_of_accepts (newV5 : Uuid → String → Uuid) (hsound : Sound tables)
    (h : Accepts env tables publication) :
    ∃ tables', publish newV5 env tables publication = (.ok (), tables') ∧
      Published newV5 env tables publication tables' := by
  obtain ⟨tables', hok⟩ := publish_of_accepts newV5 hsound h
  rcases publish_cases newV5 env tables publication with ⟨error, herror⟩ | hpublished
  · rw [hok] at herror
    cases herror
  · exact hpublished

end Splitforge.Storage.Results
