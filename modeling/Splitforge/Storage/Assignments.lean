import Splitforge.Domain.Ownership
import Splitforge.Library.Keyed
import Splitforge.Storage.Connection
import Mathlib.Data.Prod.Lex

/-!
# Chip assignments

The table of who wears which chip when. A row is keyed by its race, its chip and the microsecond
its window starts at: an import replaces the row with that key, or else adds one.
-/

namespace Splitforge.Storage

open Splitforge.Domain Splitforge.Library

/-- A row of `chip_assignments`. -/
structure AssignmentRow where
  chip : ChipId
  participant : ParticipantId
  race : RaceId
  validFromUs : Int64
  validUntilUs : Option Int64
deriving DecidableEq

/-- What an import finds a row by. -/
def AssignmentRow.key (row : AssignmentRow) : RaceId × ChipId × Int64 :=
  (row.race, row.chip, row.validFromUs)

/-- The row an assignment is written as. -/
def asRow (assignment : ChipAssignment) : AssignmentRow where
  chip := assignment.chip
  participant := assignment.participant
  race := assignment.race
  validFromUs := micros assignment.validFrom
  validUntilUs := assignment.validUntil.map micros

/-- The table. Only imports write to it, so every row was written for an assignment and no two rows
have one key. -/
structure AssignmentTable where
  rows : List AssignmentRow
  keyed : (rows.map (·.key)).Nodup
  written : ∀ row ∈ rows, ∃ assignment, row = asRow assignment

/-- The table after an assignment was written, in the place of the row with its key or last. -/
def AssignmentTable.write (table : AssignmentTable) (assignment : ChipAssignment) :
    AssignmentTable where
  rows := upsert (·.key) (asRow assignment) table.rows
  keyed := nodup_upsert table.keyed
  written := fun row hrow => by
    rcases (mem_upsert table.keyed).mp hrow with rfl | ⟨hrow, _⟩
    · exact ⟨assignment, rfl⟩
    · exact table.written row hrow

/-- What an import did, row by row. -/
structure ImportSummary where
  inserted : Nat
  updated : Nat
  unchanged : Nat
deriving DecidableEq

/-- One assignment of an import: the row with its key is looked up, and left, updated or added. -/
def importAssignment (state : ImportSummary × AssignmentTable) (assignment : ChipAssignment) :
    Except StorageError (ImportSummary × AssignmentTable) := do
  let (summary, table) := state
  let validFrom ← toMicros assignment.validFrom
  let validUntil ← assignment.validUntil.mapM toMicros
  match table.rows.find? fun row => row.key = (assignment.race, assignment.chip, validFrom) with
  | some existing =>
      if existing.participant = assignment.participant ∧ existing.validUntilUs = validUntil then
        .ok ({ summary with unchanged := summary.unchanged + 1 }, table)
      else .ok ({ summary with updated := summary.updated + 1 }, table.write assignment)
  | none => .ok ({ summary with inserted := summary.inserted + 1 }, table.write assignment)

/-- `ConfigStore::import_assignments`: the summary, and the table after the transaction. -/
def importAssignments (table : AssignmentTable) (assignments : List ChipAssignment) :
    Except StorageError (ImportSummary × AssignmentTable) :=
  assignments.foldlM importAssignment (⟨0, 0, 0⟩, table)

/-- The assignment in a row, whose instants may not be representable. -/
def decodeAssignment (row : AssignmentRow) : Except StorageError ChipAssignment := do
  let validUntil ← row.validUntilUs.mapM fromMicros
  let validFrom ← fromMicros row.validFromUs
  .ok ⟨row.chip, row.participant, row.race, validFrom, validUntil⟩

/-- The rows of one race, oldest window first. -/
def raceRows (table : AssignmentTable) (race : RaceId) : List AssignmentRow :=
  sortByKey (fun row => toLex (row.validFromUs.toInt, row.chip))
    (table.rows.filter fun row => row.race = race)

/-- `ConfigStore::assignments`: a race's chip assignments, oldest window first. -/
def assignments (table : AssignmentTable) (race : RaceId) :
    Except StorageError (List ChipAssignment) :=
  (raceRows table race).mapM decodeAssignment

/-- The instant that stored microseconds stand for. -/
def instantOf (stored : Int64) : OffsetDateTime :=
  (fromMicros stored).toOption.getD epoch

/-- The assignment in a row that was written. -/
def AssignmentRow.assignment (row : AssignmentRow) : ChipAssignment where
  chip := row.chip
  participant := row.participant
  race := row.race
  validFrom := instantOf row.validFromUs
  validUntil := row.validUntilUs.map instantOf

/-- An assignment as it comes back: its window to the microsecond. -/
def asHeld (assignment : ChipAssignment) : ChipAssignment :=
  { assignment with
    validFrom := wholeMicros assignment.validFrom
    validUntil := assignment.validUntil.map wholeMicros }

/-- The assignments in a race's rows. -/
def held (table : AssignmentTable) (race : RaceId) : List ChipAssignment :=
  (raceRows table race).map (·.assignment)

/-- The table after assignments were written, one after another. -/
def imported (table : AssignmentTable) (assignments : List ChipAssignment) : AssignmentTable :=
  assignments.foldl AssignmentTable.write table

variable {table : AssignmentTable} {race : RaceId} {assignment : ChipAssignment}
variable {new : List ChipAssignment} {row : AssignmentRow}

@[simp]
theorem instant_of_micros (instant : OffsetDateTime) :
    instantOf (micros instant) = wholeMicros instant := by
  rw [instantOf, from_micros_micros]
  rfl

@[simp]
theorem assignment_as_row (assignment : ChipAssignment) :
    (asRow assignment).assignment = asHeld assignment := by
  simp [AssignmentRow.assignment, asRow, asHeld, Function.comp_def]

@[simp]
theorem as_row_as_held (assignment : ChipAssignment) :
    asRow (asHeld assignment) = asRow assignment := by
  simp [asRow, asHeld, Function.comp_def]

/-- A row that was written is read back. -/
theorem decode_as_row (assignment : ChipAssignment) :
    decodeAssignment (asRow assignment) = .ok (asHeld assignment) := by
  obtain ⟨chip, participant, owner, validFrom, validUntil⟩ := assignment
  cases validUntil with
  | none => simp [decodeAssignment, asRow, asHeld]; rfl
  | some till => simp [decodeAssignment, asRow, asHeld]; rfl

theorem mem_race_rows : row ∈ raceRows table race ↔ row ∈ table.rows ∧ row.race = race := by
  rw [raceRows, mem_sort_by_key, List.mem_filter, decide_eq_true_eq]

/-- The assignments of a race are read back. -/
theorem assignments_eq_held (table : AssignmentTable) (race : RaceId) :
    assignments table race = .ok (held table race) := by
  have hall : ∀ rows : List AssignmentRow, (∀ row ∈ rows, row ∈ table.rows) →
      rows.mapM decodeAssignment = Except.ok (rows.map (·.assignment)) := by
    intro rows hrows
    induction rows with
    | nil => rfl
    | cons row rows ih =>
        obtain ⟨assignment, rfl⟩ := table.written row (hrows row List.mem_cons_self)
        rw [List.mapM_cons, decode_as_row, ih fun other hother =>
          hrows other (List.mem_cons_of_mem _ hother), List.map_cons, assignment_as_row]
        rfl
  exact hall _ fun row hrow => (mem_race_rows.mp hrow).1

/-- What a race holds is what was written for it. -/
theorem mem_held : assignment ∈ held table race ↔
    ∃ row ∈ table.rows, row.race = race ∧ row.assignment = assignment := by
  rw [held, List.mem_map]
  simp only [mem_race_rows, and_assoc]

/-- An assignment that is held is written as the row it came from. -/
theorem as_row_assignment (hrow : row ∈ table.rows) : asRow row.assignment = row := by
  obtain ⟨assignment, rfl⟩ := table.written row hrow
  rw [assignment_as_row, as_row_as_held]

/-- No assignment is held twice. -/
theorem nodup_held (table : AssignmentTable) (race : RaceId) : (held table race).Nodup := by
  have hrows : (raceRows table race).Nodup :=
    (sort_by_key_perm _ _).nodup_iff.mpr ((table.keyed.of_map _).filter _)
  refine (List.nodup_map_iff_inj_on hrows).mpr fun row hrow other hother heq => ?_
  rw [← as_row_assignment (mem_race_rows.mp hrow).1, heq,
    as_row_assignment (mem_race_rows.mp hother).1]

/-- The rows after an import. -/
theorem rows_imported (table : AssignmentTable) (new : List ChipAssignment) :
    (imported table new).rows = upsertAll (·.key) table.rows (new.map asRow) := by
  induction new generalizing table with
  | nil => rfl
  | cons assignment new ih => exact ih (table.write assignment)

/-- A row that is there already can be written again. -/
theorem write_eq_self (hmem : asRow assignment ∈ table.rows) : table.write assignment = table := by
  obtain ⟨rows, keyed, written⟩ := table
  simp only [AssignmentTable.write, upsert_self keyed hmem]

/-- Rows that are there already can be imported again. -/
theorem imported_eq_self (hmem : ∀ assignment ∈ new, asRow assignment ∈ table.rows) :
    imported table new = table := by
  induction new with
  | nil => rfl
  | cons assignment new ih =>
      rw [imported, List.foldl_cons, write_eq_self (hmem assignment List.mem_cons_self)]
      exact ih fun other hother => hmem other (List.mem_cons_of_mem _ hother)

/-- The ends of a window are always storable. -/
theorem map_m_to_micros (instant : Option OffsetDateTime) :
    instant.mapM toMicros = .ok (instant.map micros) := by
  cases instant with
  | none => rfl
  | some instant =>
      rw [Option.mapM_some, to_micros_eq]
      rfl

/-- One assignment is written, and counted as unchanged exactly when its row was there. -/
theorem import_assignment_eq (summary : ImportSummary) (table : AssignmentTable)
    (assignment : ChipAssignment) :
    ∃ summary', importAssignment (summary, table) assignment =
        .ok (summary', table.write assignment) ∧
      summary'.unchanged = summary.unchanged + (if asRow assignment ∈ table.rows then 1 else 0) ∧
      summary'.inserted + summary'.updated = summary.inserted + summary.updated +
        (if asRow assignment ∈ table.rows then 0 else 1) := by
  have hunfold : importAssignment (summary, table) assignment =
      match table.rows.find? fun row => row.key = (asRow assignment).key with
      | some existing =>
          if existing.participant = assignment.participant ∧
              existing.validUntilUs = assignment.validUntil.map micros then
            .ok ({ summary with unchanged := summary.unchanged + 1 }, table)
          else .ok ({ summary with updated := summary.updated + 1 }, table.write assignment)
      | none =>
          .ok ({ summary with inserted := summary.inserted + 1 }, table.write assignment) := by
    rw [importAssignment, to_micros_eq, map_m_to_micros]
    rfl
  rw [hunfold]
  cases hfind : table.rows.find? fun row => row.key = (asRow assignment).key with
  | none =>
      have hnot : asRow assignment ∉ table.rows := by
        intro hmem
        rw [find_key_eq table.keyed hmem] at hfind
        cases hfind
      refine ⟨_, rfl, ?_, ?_⟩
      · rw [if_neg hnot]
        rfl
      · rw [if_neg hnot]
        exact Nat.add_right_comm _ _ _
  | some existing =>
      have hmem := List.mem_of_find?_eq_some hfind
      have hkey : existing.key = (asRow assignment).key := by
        simpa using List.find?_some hfind
      dsimp only
      split_ifs with hsame hthere hthere
      · rw [write_eq_self hthere]
        exact ⟨_, rfl, rfl, rfl⟩
      · refine absurd ?_ hthere
        obtain ⟨chip, participant, race, validFrom, validUntil⟩ := existing
        cases hkey
        obtain ⟨rfl, rfl⟩ := hsame
        exact hmem
      · rw [find_key_eq table.keyed hthere] at hfind
        cases hfind
        exact absurd ⟨rfl, rfl⟩ hsame
      · exact ⟨_, rfl, rfl, rfl⟩

/-- A list of assignments is written, and all are counted as unchanged exactly when their rows were
there. -/
theorem import_all_eq (summary : ImportSummary) (table : AssignmentTable)
    (new : List ChipAssignment) :
    ∃ summary', new.foldlM importAssignment (summary, table) = .ok (summary', imported table new) ∧
      summary'.inserted + summary'.updated + summary'.unchanged =
        summary.inserted + summary.updated + summary.unchanged + new.length ∧
      summary.unchanged ≤ summary'.unchanged ∧
      summary.inserted + summary.updated ≤ summary'.inserted + summary'.updated ∧
      (summary'.inserted + summary'.updated = summary.inserted + summary.updated ↔
        ∀ assignment ∈ new, asRow assignment ∈ table.rows) := by
  induction new generalizing summary table with
  | nil => exact ⟨summary, rfl, rfl, le_rfl, le_rfl, iff_of_true rfl (by simp)⟩
  | cons assignment new ih =>
      obtain ⟨next, hnext, hunchanged, hchanged⟩ := import_assignment_eq summary table assignment
      obtain ⟨after, hafter, htotal, hle, hle', hiff⟩ := ih next (table.write assignment)
      rw [List.foldlM_cons, hnext]
      refine ⟨after, hafter, ?_, ?_, ?_, ?_⟩
      · rw [List.length_cons]
        split_ifs at hunchanged hchanged <;> omega
      · omega
      · omega
      · rw [List.forall_mem_cons]
        by_cases hthere : asRow assignment ∈ table.rows
        · rw [if_pos hthere, Nat.add_zero] at hchanged
          rw [write_eq_self hthere, hchanged] at hiff
          rw [hiff]
          exact (and_iff_right hthere).symm
        · rw [if_neg hthere] at hchanged
          refine iff_of_false (by omega) fun hall => hthere hall.1

/-- What an import leaves, and when it counts every assignment as unchanged. -/
theorem import_assignments_eq (table : AssignmentTable) (new : List ChipAssignment) :
    ∃ summary, importAssignments table new = .ok (summary, imported table new) ∧
      (summary = ⟨0, 0, new.length⟩ ↔ ∀ assignment ∈ new, asRow assignment ∈ table.rows) := by
  obtain ⟨summary, himport, htotal, -, -, hiff⟩ := import_all_eq ⟨0, 0, 0⟩ table new
  refine ⟨summary, himport, ?_⟩
  rw [← hiff]
  obtain ⟨inserted, updated, unchanged⟩ := summary
  simp only [ImportSummary.mk.injEq] at htotal ⊢
  omega

/-- Rounding instants down to the microsecond keeps their order. -/
theorem whole_micros_mono {earlier later : OffsetDateTime} (h : earlier ≤ later) :
    wholeMicros earlier ≤ wholeMicros later := by
  rw [OffsetDateTime.le_iff] at h ⊢
  simp only [wholeMicros]
  omega

/-- An instant is at or after what it is rounded down to. -/
theorem whole_micros_le (instant : OffsetDateTime) : wholeMicros instant ≤ instant := by
  rw [OffsetDateTime.le_iff]
  simp only [wholeMicros]
  omega

/-- Instants of one microsecond are stored alike. -/
theorem micros_eq_iff {first second : OffsetDateTime} :
    micros first = micros second ↔ wholeMicros first = wholeMicros second := by
  constructor
  · intro h
    rw [← instant_of_micros, h, instant_of_micros]
  · intro h
    rw [← micros_whole_micros, h, micros_whole_micros]

/-- A window that is vacant is held as a vacant one. -/
theorem vacant_as_held (hvacant : assignment.vacant = true) :
    (asHeld assignment).vacant = true := by
  rw [ChipAssignment.vacant, Window.vacant, Option.any_eq_true] at hvacant ⊢
  obtain ⟨till, htill, hle⟩ := hvacant
  exact ⟨wholeMicros till, Option.map_eq_some_iff.mpr ⟨till, htill, rfl⟩,
    decide_eq_true (whole_micros_mono (of_decide_eq_true hle))⟩

/-- What is held of a window that is not vacant covers the start of that window. -/
theorem as_held_covers_start (hvacant : (asHeld assignment).vacant = false) :
    (asHeld assignment).covers assignment.validFrom = true := by
  rw [covers_eq_window, Window.covers_iff]
  refine ⟨whole_micros_le _, fun till htill => ?_⟩
  have hlt := Window.vacant_eq_false_iff.mp hvacant till htill
  obtain ⟨exactly, -, rfl⟩ := Option.map_eq_some_iff.mp htill
  rw [OffsetDateTime.lt_iff] at hlt ⊢
  simp only [ChipAssignment.window, asHeld, wholeMicros] at hlt ⊢
  omega

/-- A window that is not vacant as it is held was not vacant, and covers its start both ways. -/
theorem as_held_shares (hvacant : (asHeld assignment).vacant = false) :
    (asHeld assignment).window.Shares assignment.window := by
  refine ⟨assignment.validFrom, as_held_covers_start hvacant, Window.covers_start ?_⟩
  refine Bool.eq_false_iff.mpr fun h => ?_
  rw [vacant_as_held h] at hvacant
  cases hvacant

end Splitforge.Storage
