import Splitforge.Cli.Results
import Splitforge.Storage.RevisionHistory

/-!
# The result store and its tables

The store that results are published to and compared from is what the tables are read as: each of
its rows is what a row of `result_revisions` and its entries come back as. The next number and every
revision agree with the tables, and a call of `publish` adds to both or to neither.
-/

namespace Splitforge.Cli

open Splitforge.Domain Splitforge.Library Splitforge.Results
open Splitforge.Storage.Results (ResultTables Held Texts storedRevision storedNumbers readRevision)

/-- What a publication comes back as. -/
def publishedRow (publication : Storage.Results.Publication) : RevisionRow :=
  ⟨(storedRevision publication.toRevision).toResultRevision, publication.actor⟩

/-- A row of the tables is that of a publication, which comes back as a row of the store. -/
def ReadAs (newV5 : Uuid → String → Uuid) (tables : ResultTables)
    (row : Storage.Results.RevisionRow) (published : RevisionRow) : Prop :=
  ∃ publication policyJson recordedAtUs, Held newV5 tables publication ∧
    Storage.Results.revisionRow newV5 policyJson recordedAtUs publication.toRevision = .ok row ∧
      published = publishedRow publication

/-- The tables are read as a store. -/
structure Stands (newV5 : Uuid → String → Uuid) (tables : ResultTables) (store : ResultStore) :
    Prop where
  sound : Storage.Results.Sound tables
  rows : List.Forall₂ (ReadAs newV5 tables) tables.resultRevisions store.rows

variable {newV5 : Uuid → String → Uuid} {tables tables' : ResultTables} {store : ResultStore}
variable {row : Storage.Results.RevisionRow} {published : RevisionRow}

/-! ## Rows -/

/-- The columns that a revision is looked up by. -/
theorem ReadAs.columns (h : ReadAs newV5 tables row published) :
    row.raceId = published.revision.race.uuid.toText ∧
      row.number = Int64.ofNat published.revision.number ∧
      published.revision.number < 2 ^ 32 := by
  obtain ⟨publication, _, _, _, hrow, rfl⟩ := h
  obtain ⟨_, hrace, hnumber, _⟩ := Storage.Results.revision_row_fields hrow
  exact ⟨hrace, hnumber, publication.fits.number⟩

theorem ReadAs.of_race (h : ReadAs newV5 tables row published) (race : RaceId) :
    row.raceId = race.uuid.toText ↔ published.revision.race = race := by
  rw [h.columns.1]
  constructor
  · intro hsame
    exact Splitforge.Domain.Id.ext (Uuid.to_text_injective hsame)
  · intro hsame
    rw [hsame]

/-- The rows of a race come back as its revisions. -/
theorem Stands.of_race (h : Stands newV5 tables store) (race : RaceId) :
    List.Forall₂ (ReadAs newV5 tables)
      (tables.resultRevisions.filter fun row => row.raceId = race.uuid.toText)
      (store.ofRace race) := by
  refine List.rel_filter ?_ h.rows
  intro row published hread
  show decide _ = true ↔ decide _ = true
  rw [decide_eq_true_iff, decide_eq_true_iff]
  exact hread.of_race race

/-- The numbers of a race are those of its revisions. -/
theorem Stands.stored_numbers (h : Stands newV5 tables store) (race : RaceId) :
    storedNumbers tables race =
      (store.ofRace race).map fun row => (row.revision.number : Int) := by
  have hnumbers : List.Forall₂ (· = ·) (storedNumbers tables race)
      ((store.ofRace race).map fun row => (row.revision.number : Int)) := by
    unfold storedNumbers
    rw [List.forall₂_map_left_iff, List.forall₂_map_right_iff]
    refine (h.of_race race).imp fun row published hread => ?_
    obtain ⟨_, hnumber, hlt⟩ := hread.columns
    rw [hnumber, Storage.Results.to_int_of_nat_of_lt hlt]
  rwa [List.forall₂_eq_eq_eq] at hnumbers

/-! ## The next number -/

/-- The highest number of a race. -/
theorem highest_eq_max (store : ResultStore) (race : RaceId) :
    store.highest race = ((store.ofRace race).map (·.revision.number)).max? := by
  unfold ResultStore.highest
  induction store.ofRace race with
  | nil => rfl
  | cons row rows ih =>
      rw [List.foldr_cons, ih, List.map_cons, List.max?_cons]
      cases (rows.map (·.revision.number)).max? with
      | none => exact congrArg some (Nat.max_zero _)
      | some most => rfl

/-- The highest number is that of a row, so it fits `u32`. -/
theorem Stands.highest_lt (h : Stands newV5 tables store) {race : RaceId} {number : Nat}
    (hnumber : store.highest race = some number) : number < 2 ^ 32 := by
  rw [highest_eq_max] at hnumber
  obtain ⟨published, hpublished, rfl⟩ := List.mem_map.mp (List.max?_mem hnumber)
  obtain ⟨row, _, hread⟩ := exists_of_mem_beside (h.of_race race) hpublished
  exact hread.columns.2.2

/-- The highest number of a race's rows is that of its revisions. -/
theorem Stands.max_stored_numbers (h : Stands newV5 tables store) (race : RaceId) :
    (storedNumbers tables race).max? =
      (store.highest race).map fun (number : Nat) => (number : Int) := by
  rw [h.stored_numbers, highest_eq_max]
  induction store.ofRace race with
  | nil => rfl
  | cons row rows ih =>
      rw [List.map_cons, List.map_cons, List.max?_cons, List.max?_cons, ih]
      cases (rows.map (·.revision.number)).max? with
      | none => rfl
      | some most => exact congrArg some (Nat.cast_max _ _).symm

/-- The next number of a race is the same. -/
theorem Stands.next_revision_number_eq (h : Stands newV5 tables store) (race : RaceId) :
    Storage.Results.nextRevisionNumber tables race = .ok (store.nextRevisionNumber race) := by
  unfold Storage.Results.nextRevisionNumber ResultStore.nextRevisionNumber
  rw [h.max_stored_numbers]
  cases hhighest : store.highest race with
  | none => rfl
  | some number =>
      rw [Option.map_some, Option.getD_some,
        Storage.Results.u32_try_from_cast (h.highest_lt hhighest)]
      rfl

/-! ## Reading -/

/-- The store finds a revision by the row that the tables find. -/
theorem Stands.find_beside (h : Stands newV5 tables store) (race : RaceId) {number : Nat}
    (hnumber : number < 2 ^ 32) :
    Option.Rel (ReadAs newV5 tables)
      (tables.resultRevisions.find? fun row => row.isOf race number)
      ((store.ofRace race).find? fun row => row.revision.number = number) := by
  unfold ResultStore.ofRace
  rw [List.find?_filter]
  refine Library.find_beside h.rows fun row published hread => ?_
  obtain ⟨_, hstored, hlt⟩ := hread.columns
  unfold Storage.Results.RevisionRow.isOf
  rw [Bool.eq_iff_iff]
  simp only [Bool.and_eq_true, decide_eq_true_iff]
  refine and_congr (hread.of_race race) ?_
  rw [hstored]
  constructor
  · intro hsame
    have hint := congrArg Int64.toInt hsame
    rw [Storage.Results.to_int_of_nat_of_lt hlt, Storage.Results.to_int_of_nat_of_lt hnumber]
      at hint
    exact Int.ofNat.inj hint
  · intro hsame
    rw [hsame]

/-- A revision is read from the tables as the store has it. -/
theorem Stands.revision_eq (h : Stands newV5 tables store) (texts : Texts) (race : RaceId)
    {number : Nat} (hnumber : number < 2 ^ 32) :
    readRevision texts tables race number = .ok (store.revision race number) := by
  have hfind := h.find_beside race hnumber
  unfold readRevision ResultStore.revision
  cases hrow : tables.resultRevisions.find? fun row => row.isOf race number with
  | none =>
      rw [hrow] at hfind
      cases hpublished : (store.ofRace race).find? fun row => row.revision.number = number with
      | some published =>
          rw [hpublished] at hfind
          cases hfind
      | none =>
          unfold Storage.Results.revision
          rw [hrow]
          rfl
  | some row =>
      rw [hrow] at hfind
      cases hpublished : (store.ofRace race).find? fun row => row.revision.number = number with
      | none =>
          rw [hpublished] at hfind
          cases hfind
      | some published =>
          rw [hpublished] at hfind
          obtain ⟨publication, _, _, hheld, _, hread⟩ := Option.rel_some_some.mp hfind
          have hrace := List.mem_filter.mp (List.mem_of_find?_eq_some hpublished)
          have hof : publication.race = race := by
            have hsame := of_decide_eq_true hrace.2
            rw [hread] at hsame
            exact hsame
          have hnumbered : publication.number = number := by
            have hsame : published.revision.number = number := by
              simpa using List.find?_some hpublished
            rw [hread] at hsame
            exact hsame
          have hrevision := hheld.revision_eq texts
          rw [hof, hnumbered] at hrevision
          rw [hrevision, hread]
          rfl

/-- So is the latest one. -/
theorem Stands.latest_revision_eq (h : Stands newV5 tables store) (texts : Texts) (race : RaceId) :
    (Storage.Results.latestRevision texts tables race).map (Option.map (·.toResultRevision)) =
      .ok (store.latestRevision race) := by
  unfold Storage.Results.latestRevision ResultStore.latestRevision
  rw [h.max_stored_numbers]
  cases hhighest : store.highest race with
  | none => rfl
  | some number =>
      have hlt := h.highest_lt hhighest
      rw [Option.map_some, Option.bind_some]
      dsimp only
      rw [Storage.Results.u32_try_from_cast hlt]
      exact h.revision_eq texts race hlt

/-! ## Publishing -/

/-- A row comes back the same behind a publication. -/
theorem ReadAs.publish {env : Storage.Results.PublishEnv}
    {later : Storage.Results.Publication} (h : ReadAs newV5 tables row published)
    (hlater : Storage.Results.Published newV5 env tables later tables') :
    ReadAs newV5 tables' row published := by
  obtain ⟨publication, policyJson, recordedAtUs, hheld, hrow, hread⟩ := h
  exact ⟨publication, policyJson, recordedAtUs, hheld.publish hlater, hrow, hread⟩

theorem stands_unpublished (newV5 : Uuid → String → Uuid) (races participants : List String) :
    Stands newV5 (Storage.Results.unpublished races participants) ⟨[]⟩ where
  sound := Storage.Results.sound_unpublished races participants
  rows := .nil

/-- The store takes what is published to the tables, and stands for those behind it. -/
theorem Stands.taken {env : Storage.Results.PublishEnv}
    {publication : Storage.Results.Publication} (h : Stands newV5 tables store)
    (hpublished : Storage.Results.Published newV5 env tables publication tables') :
    ∃ store', store.publish (publishedRow publication) = .ok store' ∧
      Stands newV5 tables' store' := by
  refine ⟨⟨store.rows ++ [publishedRow publication]⟩, ?_, hpublished.sound h.sound, ?_⟩
  · -- the number is not taken, for no row has it
    have hnone : (tables.resultRevisions.find? fun row =>
        row.isOf publication.race publication.number) = none := by
      rw [List.find?_eq_none]
      intro row hrow
      rw [hpublished.numbers row hrow]
      exact Bool.false_ne_true
    have hfind := h.find_beside publication.race publication.fits.number
    rw [hnone] at hfind
    have hfree : store.revision publication.race publication.number = none := by
      unfold ResultStore.revision
      cases hfound : (store.ofRace publication.race).find? fun row =>
          row.revision.number = publication.number with
      | none => rfl
      | some published =>
          rw [hfound] at hfind
          cases hfind
    have hsame : store.revision (publishedRow publication).revision.race
        (publishedRow publication).revision.number = none := hfree
    unfold ResultStore.publish
    rw [hsame]
    rfl
  · obtain ⟨policyJson, recordedAtUs, row, rows, _, hrow, _, htables⟩ := hpublished.rows
    have hrevisions : tables'.resultRevisions = tables.resultRevisions ++ [row] := by rw [htables]
    rw [hrevisions]
    refine List.rel_append (h.rows.imp fun _ _ hread => hread.publish hpublished) ?_
    exact .cons ⟨publication, policyJson, recordedAtUs, hpublished.held h.sound, hrow, rfl⟩ .nil

/-- A call fails and leaves the tables as they were, or the store takes what it published. -/
theorem Stands.publish (h : Stands newV5 tables store) (env : Storage.Results.PublishEnv)
    (publication : Storage.Results.Publication) :
    (∃ error, Storage.Results.publish newV5 env tables publication = (.error error, tables)) ∨
      ∃ tables' store', Storage.Results.publish newV5 env tables publication = (.ok (), tables') ∧
        store.publish (publishedRow publication) = .ok store' ∧ Stands newV5 tables' store' := by
  rcases Storage.Results.publish_cases newV5 env tables publication with
    herror | ⟨tables', hok, hpublished⟩
  · exact .inl herror
  · obtain ⟨store', htaken, hstands⟩ := h.taken hpublished
    exact .inr ⟨tables', store', hok, htaken, hstands⟩

/-- Behind any calls the tables are read as a store. -/
theorem stands_after_calls (newV5 : Uuid → String → Uuid) (races participants : List String)
    (calls : List Storage.Results.Call) :
    ∃ store, Stands newV5 (Storage.Results.afterCalls newV5
      (Storage.Results.unpublished races participants) calls) store := by
  have hkeep : ∀ {env tables publication tables'}, (∃ store, Stands newV5 tables store) →
      Storage.Results.Published newV5 env tables publication tables' →
        ∃ store, Stands newV5 tables' store := by
    intro env tables publication tables' hstands hpublished
    obtain ⟨store, hstands⟩ := hstands
    obtain ⟨store', _, hstands'⟩ := hstands.taken hpublished
    exact ⟨store', hstands'⟩
  exact Storage.Results.keep_after_calls hkeep
    ⟨_, stands_unpublished newV5 races participants⟩ calls

end Splitforge.Cli
