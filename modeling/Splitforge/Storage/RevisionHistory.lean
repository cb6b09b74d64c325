import Splitforge.Storage.Published

/-!
# The numbers of a race

A publisher asks for the next number of its race and then publishes under it, while others may do
so too. So the revisions of a race are numbered from one in the order they were published, without
gaps, and every number that is listed is found.
-/

namespace Splitforge.Storage.Results

open Splitforge.Domain Splitforge.Library
open Splitforge.Results (u32Max)

/-- The numbers that `ResultStore::revisions` lists. -/
def listedNumbers (texts : Texts) (tables : ResultTables) (race : RaceId) :
    Except StorageError (List Nat) :=
  (revisions texts tables race).map (List.map (·.number))

/-- What `ResultStore::revision` returns, without its identifier and who published it. -/
def readRevision (texts : Texts) (tables : ResultTables) (race : RaceId) (number : Nat) :
    Except StorageError (Option ResultRevision) :=
  (revision texts tables race number).map (Option.map (·.toResultRevision))

/-- The states of a database where results are published, newest first. A publication has the
number that was next for its race in some state before it. -/
inductive History (newV5 : Uuid → String → Uuid) : List ResultTables → Prop where
  | opened (races participants : List String) : History newV5 [unpublished races participants]
  | registered {tables : ResultTables} {past : List ResultTables} (races participants : List String)
      (hpast : History newV5 (tables :: past)) :
      History newV5 ({ tables with races, participants } :: tables :: past)
  | published {tables : ResultTables} {past : List ResultTables} {call : Call}
      (hpast : History newV5 (tables :: past))
      (hnumber : ∃ seen ∈ tables :: past,
        nextRevisionNumber seen call.publication.race = .ok call.publication.number) :
      History newV5 (call.after newV5 tables :: tables :: past)

/-- The numbers from one on. -/
def numbersTo (count : Nat) : List Int :=
  (List.range count).map fun (index : Nat) => (index : Int) + 1

/-- The tables hold publications, and the revisions of each race are numbered from one. -/
structure Numbered (newV5 : Uuid → String → Uuid) (tables : ResultTables) : Prop where
  sound : Sound tables
  rows : ∀ row ∈ tables.resultRevisions, ∃ publication policyJson recordedAtUs,
    Held newV5 tables publication ∧
      revisionRow newV5 policyJson recordedAtUs publication.toRevision = .ok row
  numbers : ∀ race, ∃ count, storedNumbers tables race = numbersTo count

variable {newV5 : Uuid → String → Uuid} {tables tables' : ResultTables}
variable {past : List ResultTables} {race : RaceId} {count : Nat}

/-! ## Numbers -/

theorem mem_numbers_to {number : Int} :
    number ∈ numbersTo count ↔ 1 ≤ number ∧ number ≤ count := by
  unfold numbersTo
  rw [List.mem_map]
  constructor
  · intro h
    obtain ⟨index, hindex, rfl⟩ := h
    rw [List.mem_range] at hindex
    omega
  · intro h
    refine ⟨(number - 1).toNat, ?_, ?_⟩
    · rw [List.mem_range]
      omega
    · omega

theorem numbers_to_eq (count : Nat) :
    numbersTo count = (List.range' 1 count).map fun (number : Nat) => (number : Int) := by
  unfold numbersTo
  rw [List.range'_eq_map_range, List.map_map]
  refine List.map_congr_left fun index _ => ?_
  show (index : Int) + 1 = ((1 + index : Nat) : Int)
  omega

theorem numbers_to_succ (count : Nat) :
    numbersTo (count + 1) = numbersTo count ++ [(count : Int) + 1] := by
  unfold numbersTo
  rw [List.range_succ, List.map_append, List.map_singleton]

/-- The numbers from one on are in order. -/
theorem pairwise_numbers_to (count : Nat) :
    (numbersTo count).Pairwise fun first second => first ≤ second := by
  unfold numbersTo
  rw [List.pairwise_map]
  refine List.pairwise_lt_range.imp fun hlt => ?_
  omega

/-- The next number is one more than the last, as far as there is one. -/
theorem next_revision_number_of_numbers (h : storedNumbers tables race = numbersTo count)
    (hcount : count < 2 ^ 32) :
    nextRevisionNumber tables race = .ok (min (count + 1) u32Max) := by
  have hmax : (numbersTo count).max?.getD 0 = count := by
    cases count with
    | zero => rfl
    | succ count =>
        have hlast : (numbersTo (count + 1)).max? = some ((count : Int) + 1) := by
          rw [List.max?_eq_some_iff]
          refine ⟨mem_numbers_to.mpr (by omega), ?_⟩
          intro number hnumber
          obtain ⟨_, hle⟩ := mem_numbers_to.mp hnumber
          omega
        rw [hlast, Option.getD_some]
        omega
  unfold nextRevisionNumber
  rw [h, hmax, u32_try_from_cast hcount]
  rfl

/-- There are no more numbers than fit `u32`. -/
theorem Sound.count_lt (hsound : Sound tables) (h : storedNumbers tables race = numbersTo count) :
    count < 2 ^ 32 := by
  cases count with
  | zero => decide
  | succ count =>
      have hlast : ((count + 1 : Nat) : Int) ∈ storedNumbers tables race := by
        rw [h]
        exact mem_numbers_to.mpr (by omega)
      obtain ⟨stored, hlt, hstored, _⟩ := exists_of_mem_stored_numbers hsound hlast
      omega

/-! ## Steps -/

theorem numbered_unpublished (races participants : List String) :
    Numbered newV5 (unpublished races participants) where
  sound := sound_unpublished races participants
  rows _ h := nomatch h
  numbers _ := ⟨0, rfl⟩

/-- Registering races and participants changes nothing of the results. -/
theorem Numbered.register (h : Numbered newV5 tables) (races participants : List String) :
    Numbered newV5 { tables with races, participants } where
  sound := ⟨h.sound.referenced, h.sound.numbers⟩
  rows row hrow := by
    obtain ⟨publication, policyJson, recordedAtUs, hheld, hwritten⟩ := h.rows row hrow
    exact ⟨publication, policyJson, recordedAtUs, ⟨hheld.header, hheld.rows⟩, hwritten⟩
  numbers := h.numbers

/-- A publication adds its number to those of its race. -/
theorem Published.stored_numbers_of_race {env : PublishEnv} {publication : Publication}
    (h : Published newV5 env tables publication tables') :
    storedNumbers tables' publication.race =
      storedNumbers tables publication.race ++ [(publication.number : Int)] := by
  obtain ⟨_, _, row, rows, _, hrow, _, rfl⟩ := h.rows
  obtain ⟨_, hrace, hnumber, _⟩ := revision_row_fields hrow
  have hint := to_int_of_nat_of_lt publication.fits.number
  unfold storedNumbers
  simp [List.filter_append, hrace, hnumber, hint]

/-- A number that was next in an earlier state and is not taken is the next one. -/
theorem Published.number_eq {env : PublishEnv} {publication : Publication} {seen : ResultTables}
    (h : Published newV5 env tables publication tables') (hsound : Sound tables)
    (hseen : Numbered newV5 seen)
    (hfront : storedNumbers seen publication.race <+: storedNumbers tables publication.race)
    (hnumbers : storedNumbers tables publication.race = numbersTo count)
    (hnext : nextRevisionNumber seen publication.race = .ok publication.number) :
    publication.number = count + 1 := by
  obtain ⟨earlier, hearlier⟩ := hseen.numbers publication.race
  have hlt := hseen.sound.count_lt hearlier
  have hle : earlier ≤ count := by
    have hlength := hfront.length_le
    rw [hearlier, hnumbers] at hlength
    simpa [numbersTo] using hlength
  rw [next_revision_number_of_numbers hearlier hlt] at hnext
  injection hnext with hnext
  by_contra hne
  have hmaximum : u32Max = 2 ^ 32 - 1 := rfl
  have hmin : min (earlier + 1) u32Max = publication.number := hnext
  have htaken : (publication.number : Int) ∈ storedNumbers tables publication.race := by
    rw [hnumbers, mem_numbers_to]
    have hlower : 1 ≤ min (earlier + 1) u32Max := by omega
    have hupper : min (earlier + 1) u32Max ≤ earlier + 1 := min_le_left _ _
    omega
  obtain ⟨stored, _, hstored, row, hrow, hof⟩ := exists_of_mem_stored_numbers hsound htaken
  rw [← Int.ofNat.inj hstored, h.numbers row hrow] at hof
  cases hof

/-- A publication under the next number keeps the tables numbered. -/
theorem Numbered.publish {env : PublishEnv} {publication : Publication}
    (h : Numbered newV5 tables) (hpublished : Published newV5 env tables publication tables')
    (hnumber : ∀ count, storedNumbers tables publication.race = numbersTo count →
      publication.number = count + 1) : Numbered newV5 tables' where
  sound := hpublished.sound h.sound
  rows row hrow := by
    obtain ⟨policyJson, recordedAtUs, new, rows, _, hnew, _, htables⟩ := hpublished.rows
    rw [htables] at hrow
    rcases List.mem_append.mp hrow with hrow | hrow
    · obtain ⟨other, policyJson, recordedAtUs, hheld, hwritten⟩ := h.rows row hrow
      exact ⟨other, policyJson, recordedAtUs, hheld.publish hpublished, hwritten⟩
    · rw [List.mem_singleton.mp hrow]
      exact ⟨publication, policyJson, recordedAtUs, hpublished.held h.sound, hnew⟩
  numbers race := by
    obtain ⟨count, hcount⟩ := h.numbers race
    by_cases hrace : publication.race = race
    · subst hrace
      refine ⟨count + 1, ?_⟩
      rw [hpublished.stored_numbers_of_race, hcount, hnumber count hcount, numbers_to_succ]
      rfl
    · exact ⟨count, (hpublished.stored_numbers hrace).trans hcount⟩

/-- The numbers of a race before a publication are the first of those behind it. -/
theorem Published.stored_numbers_front {env : PublishEnv} {publication : Publication}
    (h : Published newV5 env tables publication tables') (race : RaceId) :
    storedNumbers tables race <+: storedNumbers tables' race := by
  by_cases hrace : publication.race = race
  · subst hrace
    rw [h.stored_numbers_of_race]
    exact List.prefix_append _ _
  · rw [h.stored_numbers hrace]

/-! ## Histories -/

/-- Every state is numbered, and the numbers of an earlier one are the first of the newest's. -/
theorem History.numbered (h : History newV5 past) :
    (∀ seen ∈ past, Numbered newV5 seen) ∧
      ∀ newest ∈ past.head?, ∀ seen ∈ past, ∀ race,
        storedNumbers seen race <+: storedNumbers newest race := by
  induction h with
  | opened races participants =>
      constructor
      · intro seen hseen
        rw [List.mem_singleton.mp hseen]
        exact numbered_unpublished races participants
      · intro newest hnewest seen hseen race
        rw [List.mem_singleton.mp hseen, ← Option.mem_some.mp hnewest]
  | @registered tables past races participants hpast ih =>
      obtain ⟨hnumbered, hfront⟩ := ih
      have htables := hnumbered tables List.mem_cons_self
      constructor
      · intro seen hseen
        rcases List.mem_cons.mp hseen with rfl | hseen
        · exact htables.register races participants
        · exact hnumbered seen hseen
      · intro newest hnewest seen hseen race
        rw [← Option.mem_some.mp hnewest]
        rcases List.mem_cons.mp hseen with rfl | hseen
        · exact List.prefix_rfl
        · exact hfront tables rfl seen hseen race
  | @published tables past call hpast hnumber ih =>
      obtain ⟨hnumbered, hfront⟩ := ih
      have htables := hnumbered tables List.mem_cons_self
      obtain ⟨asked, hasked, hnext⟩ := hnumber
      rcases Call.after_cases newV5 tables call with hsame | hpublished
      · rw [hsame]
        constructor
        · intro seen hseen
          rcases List.mem_cons.mp hseen with rfl | hseen
          · exact htables
          · exact hnumbered seen hseen
        · intro newest hnewest seen hseen race
          rw [← Option.mem_some.mp hnewest]
          rcases List.mem_cons.mp hseen with rfl | hseen
          · exact List.prefix_rfl
          · exact hfront tables rfl seen hseen race
      · constructor
        · intro seen hseen
          rcases List.mem_cons.mp hseen with rfl | hseen
          · exact htables.publish hpublished fun count hcount =>
              hpublished.number_eq htables.sound (hnumbered asked hasked)
                (hfront tables rfl asked hasked _) hcount hnext
          · exact hnumbered seen hseen
        · intro newest hnewest seen hseen race
          rw [← Option.mem_some.mp hnewest]
          rcases List.mem_cons.mp hseen with rfl | hseen
          · exact List.prefix_rfl
          · exact (hfront tables rfl seen hseen race).trans (hpublished.stored_numbers_front race)

/-- What a database was before is a history of its own. -/
theorem History.suffix (h : History newV5 past) {earlier : List ResultTables}
    (hearlier : tables :: earlier <:+ past) : History newV5 (tables :: earlier) := by
  induction h with
  | opened races participants =>
      rcases List.suffix_cons_iff.mp hearlier with hsame | hnil
      · rw [hsame]
        exact .opened races participants
      · cases List.suffix_nil.mp hnil
  | registered races participants hpast ih =>
      rcases List.suffix_cons_iff.mp hearlier with hsame | hearlier
      · rw [hsame]
        exact .registered races participants hpast
      · exact ih hearlier
  | published hpast hnumber ih =>
      rcases List.suffix_cons_iff.mp hearlier with hsame | hearlier
      · rw [hsame]
        exact .published hpast hnumber
      · exact ih hearlier

/-! ## Reading -/

/-- A revision whose number is stored is found. -/
theorem Numbered.exists_revision (h : Numbered newV5 tables) (texts : Texts) {number : Nat}
    (hnumber : (number : Int) ∈ storedNumbers tables race) :
    ∃ found : Revision, revision texts tables race number = .ok (some found) ∧
      found.race = race ∧ found.number = number := by
  obtain ⟨stored, hlt, hstored, row, hrow, hof⟩ := exists_of_mem_stored_numbers h.sound hnumber
  obtain ⟨publication, _, _, hheld, hwritten⟩ := h.rows row hrow
  obtain ⟨_, hrace, hrownumber, _⟩ := revision_row_fields hwritten
  rw [← Int.ofNat.inj hstored] at hof hlt
  obtain ⟨hofrace, hofnumber⟩ := Bool.and_eq_true_iff.mp hof
  have hsamerace : publication.race = race := by
    have htext := of_decide_eq_true hofrace
    rw [hrace] at htext
    exact Splitforge.Domain.Id.ext (Uuid.to_text_injective htext)
  have hsamenumber : publication.number = number := by
    have hint := congrArg Int64.toInt (of_decide_eq_true hofnumber)
    rw [hrownumber, to_int_of_nat_of_lt publication.fits.number, to_int_of_nat_of_lt hlt] at hint
    exact Int.ofNat.inj hint
  have hread := hheld.revision_eq texts
  rw [hsamerace, hsamenumber] at hread
  exact ⟨_, hread, hsamerace, hsamenumber⟩

/-- The header of a row is read. -/
theorem summary_from_row_revision_row (texts : Texts) (tables : ResultTables)
    {publication : Publication} {policyJson : String} {recordedAtUs : Int64} {row : RevisionRow}
    (h : revisionRow newV5 policyJson recordedAtUs publication.toRevision = .ok row) :
    ∃ summary, summaryFromRow texts tables row = .ok summary ∧
      (summary.number : Int) = row.number.toInt := by
  obtain ⟨hid, _, hnumber, hstatus, hgenerated, _⟩ := revision_row_fields h
  unfold summaryFromRow uuidColumn
  simp only [hid, hnumber, hstatus, hgenerated, Uuid.parse_str_to_text,
    u32_try_from_of_nat publication.fits.number, revision_status_parse_as_str, from_micros_micros]
  exact ⟨_, rfl, (to_int_of_nat_of_lt publication.fits.number).symm⟩

/-- A race's revisions are listed with the numbers that are stored, in order. -/
theorem Numbered.revisions_eq (h : Numbered newV5 tables) (texts : Texts) (race : RaceId) :
    ∃ summaries, revisions texts tables race = .ok summaries ∧
      summaries.map (fun summary => (summary.number : Int)) = storedNumbers tables race := by
  obtain ⟨count, hcount⟩ := h.numbers race
  have hsorted : (tables.resultRevisions.filter fun row =>
      row.raceId = race.uuid.toText).Pairwise fun first second =>
        first.number.toInt ≤ second.number.toInt := by
    have hpairwise := pairwise_numbers_to count
    rw [← hcount, storedNumbers, List.pairwise_map] at hpairwise
    exact hpairwise
  unfold revisions storedNumbers
  rw [sortByKey, hsorted.insertionSort_eq]
  have hall : ∀ row ∈ tables.resultRevisions.filter fun row => row.raceId = race.uuid.toText,
      ∃ summary, summaryFromRow texts tables row = .ok summary ∧
        (summary.number : Int) = row.number.toInt := by
    intro row hrow
    obtain ⟨publication, _, _, _, hwritten⟩ := h.rows row (List.mem_of_mem_filter hrow)
    exact summary_from_row_revision_row texts tables hwritten
  generalize (tables.resultRevisions.filter fun row => row.raceId = race.uuid.toText) = rows at hall
  obtain ⟨summaries, hsummaries⟩ := exists_map_m fun row hrow =>
    (hall row hrow).imp fun _ hsummary => hsummary.1
  refine ⟨summaries, hsummaries, ?_⟩
  have hread := forall₂_of_map_m hsummaries
  clear hsummaries
  induction hread with
  | nil => rfl
  | @cons row summary rows summaries hrow _ ih =>
      obtain ⟨other, hother, hnumber⟩ := hall row List.mem_cons_self
      rw [hrow] at hother
      injection hother with hother
      rw [List.map_cons, List.map_cons, hother, hnumber,
        ih fun row hrow => hall row (List.mem_cons_of_mem _ hrow)]

/-- The numbers of a race are listed from one on, as they are stored. -/
theorem Numbered.listed_numbers_eq (h : Numbered newV5 tables) (texts : Texts) (race : RaceId) :
    ∃ count, listedNumbers texts tables race = .ok (List.range' 1 count) ∧
      storedNumbers tables race = numbersTo count := by
  obtain ⟨count, hcount⟩ := h.numbers race
  obtain ⟨summaries, hsummaries, hnumbers⟩ := h.revisions_eq texts race
  refine ⟨count, ?_, hcount⟩
  have hsame : summaries.map (·.number) = List.range' 1 count := by
    refine List.map_injective_iff.mpr Int.ofNat_injective ?_
    rw [List.map_map]
    exact (hnumbers.trans hcount).trans (numbers_to_eq count)
  unfold listedNumbers
  rw [hsummaries, ← hsame]
  rfl

/-- A stored revision is read. -/
theorem Numbered.read_revision_is_some (h : Numbered newV5 tables) (texts : Texts) {number : Nat}
    (hnumber : (number : Int) ∈ storedNumbers tables race) :
    ∃ published, readRevision texts tables race number = .ok (some published) := by
  obtain ⟨found, hfound, _⟩ := h.exists_revision texts hnumber
  refine ⟨found.toResultRevision, ?_⟩
  unfold readRevision
  rw [hfound]
  rfl

end Splitforge.Storage.Results
