import Splitforge.Storage.Publications

/-!
# What was published is returned

The rows of a publication stand as they were written behind every later call, and are read as the
revision that was published. The next number of a race is greater than those it has.
-/

namespace Splitforge.Storage.Results

open Splitforge.Domain Splitforge.Library
open Splitforge.Results (u32Max)

variable {newV5 : Uuid → String → Uuid} {env : PublishEnv} {tables tables' : ResultTables}
variable {publication : Publication}

/-! ## What stands behind a publication -/

/-- The rows of a publication stand in the tables. -/
structure Held (newV5 : Uuid → String → Uuid) (tables : ResultTables) (publication : Publication) :
    Prop where
  header : ∃ policyJson recordedAtUs row,
    policyToString publication.gunOffset publication.policy = .ok policyJson ∧
      revisionRow newV5 policyJson recordedAtUs publication.toRevision = .ok row ∧
      (tables.resultRevisions.find? fun row => row.isOf publication.race publication.number) =
        some row
  rows : Rows publication.id 0 publication.entries
    (tables.resultEntries.filter fun row => row.revisionId = publication.id.toText)

/-- A publication keeps the tables sound. -/
theorem Published.sound (h : Published newV5 env tables publication tables')
    (hsound : Sound tables) : Sound tables' := by
  obtain ⟨policyJson, _, row, rows, _, hrow, hrows, rfl⟩ := h.rows
  obtain ⟨hid, _, hnumber, _⟩ := revision_row_fields hrow
  constructor
  · intro entry hentry
    rcases List.mem_append.mp hentry with hentry | hentry
    · obtain ⟨other, hother, hsame⟩ := hsound.referenced entry hentry
      exact ⟨other, List.mem_append_left _ hother, hsame⟩
    · refine ⟨row, List.mem_append_right _ List.mem_cons_self, ?_⟩
      rw [hid, revision_id_of_mem_rows hrows hentry]
  · intro other hother
    rcases List.mem_append.mp hother with hother | hother
    · exact hsound.numbers other hother
    · rw [List.mem_singleton.mp hother]
      exact ⟨publication.number, publication.fits.number, hnumber⟩

/-- Its rows stand in the tables that a publication leaves. -/
theorem Published.held (h : Published newV5 env tables publication tables')
    (hsound : Sound tables) : Held newV5 tables' publication := by
  obtain ⟨policyJson, recordedAtUs, row, rows, hpolicy, hrow, hrows, rfl⟩ := h.rows
  obtain ⟨hid, hrace, hnumber, _⟩ := revision_row_fields hrow
  refine ⟨⟨policyJson, recordedAtUs, row, hpolicy, hrow, ?_⟩, ?_⟩
  · have hold : (tables.resultRevisions.find? fun row =>
        row.isOf publication.race publication.number) = none := by
      rw [List.find?_eq_none]
      intro other hother
      rw [h.numbers other hother]
      exact Bool.false_ne_true
    have hnew : row.isOf publication.race publication.number = true := by
      simp [RevisionRow.isOf, hrace, hnumber]
    simp only [List.find?_append, hold, Option.none_or, List.find?_cons, hnew]
  · -- no entry stood under the new identifier, for entries are those of revisions
    have hold : (tables.resultEntries.filter fun row =>
        row.revisionId = publication.id.toText) = [] := by
      rw [List.filter_eq_nil_iff]
      intro entry hentry hsame
      obtain ⟨other, hother, hreferenced⟩ := hsound.referenced entry hentry
      exact h.ids other hother (hreferenced.trans (of_decide_eq_true hsame))
    have hnew : (rows.filter fun row => row.revisionId = publication.id.toText) = rows := by
      rw [List.filter_eq_self]
      intro entry hentry
      exact decide_eq_true (revision_id_of_mem_rows hrows hentry)
    simp only [List.filter_append, hold, hnew, List.nil_append]
    exact hrows

/-- The rows of an earlier publication stand behind a later one. -/
theorem Held.publish {later : Publication} (h : Held newV5 tables publication)
    (hlater : Published newV5 env tables later tables') : Held newV5 tables' publication := by
  obtain ⟨_, _, row, rows, _, hrow, hrows, rfl⟩ := hlater.rows
  obtain ⟨policyJson, recordedAtUs, held, hpolicy, hheld, hfind⟩ := h.header
  refine ⟨⟨policyJson, recordedAtUs, held, hpolicy, hheld, ?_⟩, ?_⟩
  · simp only [List.find?_append, hfind, Option.some_or]
  · have hnew : (rows.filter fun row => row.revisionId = publication.id.toText) = [] := by
      rw [List.filter_eq_nil_iff]
      intro entry hentry hsame
      obtain ⟨hid, _⟩ := revision_row_fields hheld
      refine hlater.ids held (List.mem_of_find?_eq_some hfind) ?_
      rw [hid, ← of_decide_eq_true hsame]
      exact revision_id_of_mem_rows hrows hentry
    simp only [List.filter_append, hnew, List.append_nil]
    exact h.rows

/-- A publication whose rows stand in the tables is read as its revision. -/
theorem Held.revision_eq (texts : Texts) (h : Held newV5 tables publication) :
    revision texts tables publication.race publication.number =
      .ok (some (storedRevision publication.toRevision)) := by
  obtain ⟨policyJson, recordedAtUs, row, hpolicy, hrow, hfind⟩ := h.header
  obtain ⟨hid, _, _, hstatus, hgenerated, hactor, hreason, hjson⟩ := revision_row_fields hrow
  have hentries : entries texts tables publication.id =
      .ok (publication.entries.map storedEntry) := by
    rw [entries, sortByKey, (pairwise_of_rows h.rows).2.insertionSort_eq]
    exact map_m_entry_from_row texts h.rows publication.fits.entries
  unfold revision
  rw [hfind]
  simp only [hid, hstatus, hgenerated, hactor, hreason, hjson, revision_status_parse_as_str,
    policy_from_str_policy_to_string hpolicy publication.fits.policy, uuidColumn,
    Uuid.parse_str_to_text, from_micros_micros]
  dsimp only [orDecode, orExpected, Bind.bind, Except.bind]
  rw [hentries]
  rfl

/-! ## Numbers -/

/-- What a publication of another race leaves of a race's numbers. -/
theorem Published.stored_numbers (h : Published newV5 env tables publication tables')
    {race : RaceId} (hrace : publication.race ≠ race) :
    storedNumbers tables' race = storedNumbers tables race := by
  obtain ⟨_, _, row, rows, _, hrow, _, rfl⟩ := h.rows
  obtain ⟨_, hrowrace, _⟩ := revision_row_fields hrow
  have hother : row.raceId ≠ race.uuid.toText := by
    intro hsame
    rw [hrowrace] at hsame
    exact hrace (Splitforge.Domain.Id.ext (Uuid.to_text_injective hsame))
  unfold storedNumbers
  simp [List.filter_append, hother]

/-- A stored number is that of a row. -/
theorem exists_of_mem_stored_numbers (h : Sound tables) {race : RaceId} {number : Int}
    (hnumber : number ∈ storedNumbers tables race) :
    ∃ stored : Nat, stored < 2 ^ 32 ∧ number = stored ∧
      ∃ row ∈ tables.resultRevisions, row.isOf race stored = true := by
  obtain ⟨row, hrow, rfl⟩ := List.mem_map.mp hnumber
  obtain ⟨hrow, hrace⟩ := List.mem_filter.mp hrow
  obtain ⟨stored, hlt, hstored⟩ := h.numbers row hrow
  refine ⟨stored, hlt, ?_, row, hrow, ?_⟩
  · rw [hstored, to_int_of_nat_of_lt hlt]
  · rw [RevisionRow.isOf, hrace, Bool.true_and]
    exact decide_eq_true hstored

/-- The next number is one for a race without revisions, and else greater than every stored one or
the last of all. -/
theorem Sound.next_revision_number (h : Sound tables) (race : RaceId) :
    ∃ next, nextRevisionNumber tables race = .ok next ∧
      (storedNumbers tables race = [] → next = 1) ∧
      ∀ number ∈ storedNumbers tables race,
        number < next ∨ (next = u32Max ∧ (u32Max : Int) ∈ storedNumbers tables race) := by
  unfold nextRevisionNumber
  cases hmax : (storedNumbers tables race).max? with
  | none =>
      rw [List.max?_eq_none_iff] at hmax
      refine ⟨1, rfl, fun _ => rfl, ?_⟩
      intro number hnumber
      rw [hmax] at hnumber
      cases hnumber
  | some highest =>
      obtain ⟨hmem, hgreatest⟩ := List.max?_eq_some_iff.mp hmax
      obtain ⟨stored, hlt, hstored, _⟩ := exists_of_mem_stored_numbers h hmem
      have hnumber : u32TryFrom highest = some stored := by
        rw [hstored, u32_try_from_cast hlt]
      refine ⟨min (stored + 1) u32Max, ?_, ?_, ?_⟩
      · rw [Option.getD_some, hnumber]
        rfl
      · intro hnil
        rw [hnil] at hmem
        cases hmem
      · intro number hmem'
        have hle := hgreatest number hmem'
        have hmaximum : u32Max = 2 ^ 32 - 1 := rfl
        by_cases hlast : stored = u32Max
        · refine Or.inr ⟨?_, ?_⟩
          · rw [hlast]
            exact min_eq_right (Nat.le_succ _)
          · rw [← hlast, ← hstored]
            exact hmem
        · refine Or.inl ?_
          rw [min_eq_left (by omega)]
          omega

/-! ## Any calls -/

theorem Call.after_cases (newV5 : Uuid → String → Uuid) (tables : ResultTables) (call : Call) :
    call.after newV5 tables = tables ∨
      Published newV5 call.env tables call.publication (call.after newV5 tables) := by
  unfold Call.after
  rcases publish_cases newV5 call.env tables call.publication with
    ⟨error, herror⟩ | ⟨tables', hok, hpublished⟩
  · rw [herror]
    exact Or.inl rfl
  · rw [hok]
    exact Or.inr hpublished

/-- What every publication keeps, any calls keep. -/
theorem keep_after_calls {newV5 : Uuid → String → Uuid} {Kept : ResultTables → Prop}
    (hkeep : ∀ {env tables publication tables'}, Kept tables →
      Published newV5 env tables publication tables' → Kept tables')
    (h : Kept tables) (calls : List Call) : Kept (afterCalls newV5 tables calls) := by
  induction calls generalizing tables with
  | nil => exact h
  | cons call calls ih =>
      refine ih ?_
      rcases Call.after_cases newV5 tables call with hsame | hpublished
      · rw [hsame]
        exact h
      · exact hkeep h hpublished

theorem sound_after_calls (newV5 : Uuid → String → Uuid) (races participants : List String)
    (calls : List Call) : Sound (afterCalls newV5 (unpublished races participants) calls) :=
  keep_after_calls (fun hsound hpublished => hpublished.sound hsound)
    (sound_unpublished races participants) calls

theorem stored_numbers_after_calls (newV5 : Uuid → String → Uuid) (tables : ResultTables)
    {race : RaceId} {calls : List Call} (h : ∀ call ∈ calls, call.publication.race ≠ race) :
    storedNumbers (afterCalls newV5 tables calls) race = storedNumbers tables race := by
  induction calls generalizing tables with
  | nil => rfl
  | cons call calls ih =>
      have hrest := ih (call.after newV5 tables) fun other hother =>
        h other (List.mem_cons_of_mem _ hother)
      refine hrest.trans ?_
      rcases Call.after_cases newV5 tables call with hsame | hpublished
      · rw [hsame]
      · exact hpublished.stored_numbers (h call List.mem_cons_self)

/-- An entry of a publication cannot be written: its participant is not registered or has another
entry, or its statement fails. -/
def EntryFails (env : PublishEnv) (tables : ResultTables) (publication : Publication) : Prop :=
  (∃ entry ∈ publication.entries, entry.participant.uuid.toText ∉ tables.participants) ∨
    ¬ (publication.entries.map (·.participant)).Nodup ∨
    ∃ ordinal < publication.entries.length, env.fault (.entry ordinal) ≠ none

/-- A store returns what is published to it. -/
structure Returns (newV5 : Uuid → String → Uuid) (texts : Texts) (tables : ResultTables) :
    Prop where
  /-- What was published is read, and is read behind any later calls. -/
  published : ∀ env publication tables',
    publish newV5 env tables publication = (.ok (), tables') →
      RevisionInWholeMicros publication.toResultRevision →
        ∀ later, revision texts (afterCalls newV5 tables' later) publication.race
          publication.number = .ok (some publication.toRevision)
  /-- A call that fails changes nothing. -/
  failed : ∀ env publication error tables',
    publish newV5 env tables publication = (.error error, tables') → tables' = tables
  /-- A number is given to one revision of a race. -/
  taken : ∀ env publication, (publication.number : Int) ∈ storedNumbers tables publication.race →
    ∃ error, publish newV5 env tables publication = (.error error, tables)
  /-- Where an entry cannot be written, nothing is. -/
  whole : ∀ env publication, EntryFails env tables publication →
    ∃ error, publish newV5 env tables publication = (.error error, tables)
  /-- The next number is the first, greater than all of the race, or the last of all. -/
  next : ∀ race, ∃ next, nextRevisionNumber tables race = .ok next ∧
    (storedNumbers tables race = [] → next = 1) ∧
    ∀ number ∈ storedNumbers tables race,
      number < next ∨ (next = u32Max ∧ (u32Max : Int) ∈ storedNumbers tables race)
  /-- Other races have no part in it. -/
  apart : ∀ race calls, (∀ call ∈ calls, call.publication.race ≠ race) →
    nextRevisionNumber (afterCalls newV5 tables calls) race = nextRevisionNumber tables race

/-- Behind any calls, the store returns what is published to it. -/
theorem returns_published (newV5 : Uuid → String → Uuid) (texts : Texts)
    (races participants : List String) (calls : List Call) :
    Returns newV5 texts (afterCalls newV5 (unpublished races participants) calls) := by
  have hsound := sound_after_calls newV5 races participants calls
  generalize afterCalls newV5 (unpublished races participants) calls = tables at hsound
  constructor
  · intro env publication tables' h hmicros later
    rcases publish_cases newV5 env tables publication with ⟨error, herror⟩ | ⟨_, hok, hpublished⟩
    · rw [h] at herror
      cases herror
    · rw [h] at hok
      cases hok
      have hheld := keep_after_calls (fun hheld hlater => Held.publish hheld hlater)
        (hpublished.held hsound) later
      rw [hheld.revision_eq texts, stored_revision_eq_self hmicros]
  · intro env publication error tables' h
    rcases publish_cases newV5 env tables publication with ⟨error', herror⟩ | ⟨_, hok, _⟩
    · rw [h] at herror
      injection herror
    · rw [h] at hok
      cases hok
  · intro env publication htaken
    rcases publish_cases newV5 env tables publication with herror | ⟨_, _, hpublished⟩
    · exact herror
    · obtain ⟨stored, _, hstored, row, hrow, hof⟩ := exists_of_mem_stored_numbers hsound htaken
      rw [← Int.ofNat.inj hstored, hpublished.numbers row hrow] at hof
      cases hof
  · intro env publication hfails
    rcases publish_cases newV5 env tables publication with herror | ⟨_, _, hpublished⟩
    · exact herror
    · rcases hfails with ⟨entry, hentry, hmissing⟩ | hrepeated | ⟨ordinal, hordinal, hfault⟩
      · exact absurd (hpublished.registered entry hentry) hmissing
      · exact absurd hpublished.distinct hrepeated
      · exact absurd (hpublished.unfaulted ordinal hordinal) hfault
  · exact hsound.next_revision_number
  · intro race calls hother
    unfold nextRevisionNumber
    rw [stored_numbers_after_calls newV5 tables hother]

/-! ## The last number -/

/-- A race. -/
def someRace : RaceId := ⟨.fromU128 5⟩

/-- A revision of the last number there is. -/
def lastPublication : Publication where
  race := someRace
  number := u32Max
  status := .final
  generatedAt := epoch
  reason := "corrected"
  policy := ⟨.gun, ⟨3000, .first, none, ∅⟩, none⟩
  entries := []
  id := .fromU128 9
  actor := "operator"
  gunOffset := 0
  fits := {
    number := by decide
    policy := {
      minIntervalMs := by decide
      minLapMs := fun _ h => nomatch h
      perCheckpoint := fun _ h => nomatch h }
    entries := fun _ h => nomatch h }

/-- A call that nothing keeps from it. -/
def lastCall : Call := ⟨⟨epoch, fun _ => none⟩, lastPublication⟩

/-- A hash that is always the same. -/
def oneHash : Uuid → String → Uuid := fun _ _ => .fromU128 0

/-- A database with the race where nothing was published. -/
def raceTables : ResultTables := unpublished [someRace.uuid.toText] []

/-- The last revision is published. -/
theorem last_call_after : ∃ tables', publish oneHash lastCall.env raceTables lastPublication =
    (.ok (), tables') ∧ Published oneHash lastCall.env raceTables lastPublication tables' := by
  have haccepts : Accepts lastCall.env raceTables lastPublication := {
    unfaulted := fun _ => rfl
    policy := ⟨_, rfl⟩
    race := List.mem_cons_self
    ids := fun _ h => nomatch h
    numbers := fun _ h => nomatch h
    registered := fun _ h => nomatch h
    distinct := List.nodup_nil }
  exact published_of_accepts oneHash (sound_unpublished _ _) haccepts

/-- Behind the last number comes no greater one. -/
theorem next_is_not_greater :
    (u32Max : Int) ∈ storedNumbers (afterCalls oneHash raceTables [lastCall]) someRace ∧
      nextRevisionNumber (afterCalls oneHash raceTables [lastCall]) someRace = .ok u32Max := by
  obtain ⟨tables', hok, hpublished⟩ := last_call_after
  obtain ⟨_, _, row, rows, _, hrow, _, htables⟩ := hpublished.rows
  obtain ⟨_, hrace, hnumber, _⟩ := revision_row_fields hrow
  have hnumbers : storedNumbers (afterCalls oneHash raceTables [lastCall]) someRace =
      [(u32Max : Int)] := by
    show storedNumbers (publish oneHash lastCall.env raceTables lastPublication).2 someRace = _
    rw [hok, htables]
    simp [storedNumbers, raceTables, unpublished, hrace, hnumber, lastPublication, u32Max]
  refine ⟨by simp [hnumbers], ?_⟩
  unfold nextRevisionNumber
  rw [hnumbers]
  rfl

end Splitforge.Storage.Results
