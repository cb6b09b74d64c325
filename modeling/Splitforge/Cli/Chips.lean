import Splitforge.Library.Fallible
import Splitforge.Raceday.Course
import Splitforge.Storage.Assignments

/-!
# Importing chips

A chip file hands chips to bibs of a roster for windows of time. Before anything is written, the
stored assignments and those of the file are checked together; what is written replaces the stored
assignments with the same chip and start. So an assignment is compared with the one it is about to
replace, and a file that was accepted with itself when it is imported again.
-/

namespace Splitforge.Cli

open Splitforge.Domain Splitforge.Library Splitforge.Raceday Splitforge.Storage

/-- One row of a chip file. -/
structure ChipRow where
  bib : String
  chip : String
  validFrom : Option String
  validUntil : Option String

/-- Why a chip file was not imported. -/
inductive ChipError where
  | noRoster
  | defaultOutOfRange
  | unreadable (line : Nat) (text : String)
  | noChip (line : Nat)
  | notOnRoster (line : Nat) (chip bib : String)
  | badValidFrom (line : Nat)
  | badValidUntil (line : Nat)
  | noRows
  | twoPeople (chip : ChipId)
  | storage (error : StorageError)
deriving DecidableEq

/-- What an import is run with: the clock, `str::to_uppercase`, and the parser of instants. -/
structure ImportEnv where
  now : OffsetDateTime
  uppercase : String → String
  parse : String → Option OffsetDateTime

/-- The instant in a cell, which may be missing or blank. -/
def instantCell (env : ImportEnv) (error : ChipError) (cell : Option String) :
    Except ChipError (Option OffsetDateTime) :=
  match cell.map trim with
  | none => .ok none
  | some value =>
      if value = "" then .ok none
      else
        match env.parse (trim value) with
        | some instant => .ok (some instant)
        | none => .error error

/-- When a window opens that says nothing else: a day before the scheduled start, or now. -/
def defaultFrom (env : ImportEnv) (race : Race) : Except ChipError OffsetDateTime :=
  match race.scheduledStart with
  | none => .ok env.now
  | some start =>
      match OffsetDateTime.fromUnixTimestampNanos (start.nanos - 24 * 3600 * 10 ^ 9) with
      | some opens => .ok opens
      | none => .error .defaultOutOfRange

/-- The assignment in the row of a line. -/
def readChip (env : ImportEnv) (race : Race) (roster : List Participant)
    (opens : OffsetDateTime) (line : Nat) (row : ChipRow) : Except ChipError ChipAssignment :=
  let bib := trim row.bib
  let chip := trim row.chip
  if chip = "" then .error (.noChip line)
  else
    match roster.find? fun participant => participant.bib.text = bib with
    | none => .error (.notOnRoster line chip bib)
    | some participant => do
        let validFrom ← instantCell env (.badValidFrom line) row.validFrom
        let validUntil ← instantCell env (.badValidUntil line) row.validUntil
        .ok ⟨⟨env.uppercase chip⟩, participant.id, race.id, validFrom.getD opens, validUntil⟩

/-- The assignments in the rows from a line on. -/
def readChipsFrom (env : ImportEnv) (race : Race) (roster : List Participant)
    (opens : OffsetDateTime) (line : Nat) :
    List (Except String ChipRow) → Except ChipError (List ChipAssignment)
  | [] => .ok []
  | .error text :: _ => .error (.unreadable line text)
  | .ok row :: rows => do
      let assignment ← readChip env race roster opens line row
      let assignments ← readChipsFrom env race roster opens (line + 1) rows
      .ok (assignment :: assignments)

/-- The assignments in a chip file: the first half of `import_chips`. The first row is line two. -/
def readChips (env : ImportEnv) (race : Race) (roster : List Participant)
    (rows : List (Except String ChipRow)) : Except ChipError (List ChipAssignment) :=
  if roster.isEmpty then .error .noRoster
  else do
    let opens ← defaultFrom env race
    let assignments ← readChipsFrom env race roster opens 2 rows
    if assignments.isEmpty then .error .noRows else .ok assignments

/-- `import_chips`: the summary, and the table behind it. -/
def importChips (env : ImportEnv) (race : Race) (roster : List Participant)
    (rows : List (Except String ChipRow)) (table : AssignmentTable) :
    Except ChipError (ImportSummary × AssignmentTable) := do
  let assignments ← readChips env race roster rows
  -- the stored assignments are checked together with those that would replace them
  match Storage.assignments table race.id with
  | .error error => .error (.storage error)
  | .ok merged =>
      match ChipRegistry.fromAssignments (merged ++ assignments) with
      | .error (.overlappingChipAssignment chip) => .error (.twoPeople chip)
      | .ok _ =>
          match importAssignments table assignments with
          | .error error => .error (.storage error)
          | .ok done => .ok done

/-- The table behind an import: one that fails leaves it as it was. -/
def tableAfter (table : AssignmentTable) :
    Except ChipError (ImportSummary × AssignmentTable) → AssignmentTable
  | .ok (_, table') => table'
  | .error _ => table

/-- Two neighbours overlap among some chip's assignments, taken in the order their windows start. -/
def NeighboursOverlap (assignments : List ChipAssignment) : Prop :=
  ∃ chip, anyOverlap (inTurn chip assignments) = true

/-- New assignments that can be taken twice: as held, every window is empty or inverted, those of
one chip and start are alike, and beside what they leave they overlap no neighbour. -/
structure TakenTwice (table : AssignmentTable) (race : RaceId) (new : List ChipAssignment) :
    Prop where
  vacant : ∀ assignment ∈ new, (asHeld assignment).vacant = true
  alike : ∀ assignment ∈ new, ∀ other ∈ new,
    (asRow assignment).key = (asRow other).key → asRow assignment = asRow other
  apart : ¬ NeighboursOverlap (held (imported table new) race ++ new)

variable {env : ImportEnv} {race : Race} {roster : List Participant} {opens : OffsetDateTime}
variable {rows : List (Except String ChipRow)} {table : AssignmentTable}
variable {new : List ChipAssignment}

/-- A registry is built unless neighbours overlap. -/
theorem exists_registry_iff {assignments : List ChipAssignment} :
    (∃ registry, ChipRegistry.fromAssignments assignments = .ok registry) ↔
      ¬ NeighboursOverlap assignments := by
  constructor
  · intro hbuilt hoverlap
    obtain ⟨registry, hbuilt⟩ := hbuilt
    obtain ⟨chip, hchip⟩ := hoverlap
    rw [(from_assignments_eq_ok_iff.mp hbuilt).1 chip] at hchip
    cases hchip
  · intro hapart
    refine ⟨⟨byChip assignments⟩, from_assignments_eq_ok_iff.mpr ⟨fun chip => ?_, rfl⟩⟩
    exact Bool.eq_false_iff.mpr fun hchip => hapart ⟨chip, hchip⟩

/-- The assignment in a row is for the race. -/
theorem race_read_chip {line : Nat} {row : ChipRow} {assignment : ChipAssignment}
    (hread : readChip env race roster opens line row = .ok assignment) :
    assignment.race = race.id := by
  unfold readChip at hread
  dsimp only at hread
  split_ifs at hread
  split at hread
  · cases hread
  · obtain ⟨_, _, hread⟩ := exists_of_bind hread
    obtain ⟨_, _, hread⟩ := exists_of_bind hread
    cases hread
    rfl

/-- Rows that read give an assignment for the race each. -/
theorem read_chips_from_spec {line : Nat}
    (hread : readChipsFrom env race roster opens line rows = .ok new) :
    new.length = rows.length ∧ ∀ assignment ∈ new, assignment.race = race.id := by
  induction rows generalizing line new with
  | nil =>
      cases hread
      exact ⟨rfl, fun _ hmem => (List.not_mem_nil hmem).elim⟩
  | cons row rows ih =>
      cases row with
      | error text => cases hread
      | ok row =>
          obtain ⟨assignment, hassignment, hread⟩ := exists_of_bind hread
          obtain ⟨others, hothers, hread⟩ := exists_of_bind hread
          cases hread
          obtain ⟨hlength, hrace⟩ := ih hothers
          refine ⟨by rw [List.length_cons, List.length_cons, hlength], ?_⟩
          exact List.forall_mem_cons.mpr ⟨race_read_chip hassignment, hrace⟩

/-- A file that reads gives an assignment for the race for every row. -/
theorem read_chips_spec (hread : readChips env race roster rows = .ok new) :
    new.length = rows.length ∧ ∀ assignment ∈ new, assignment.race = race.id := by
  unfold readChips at hread
  split_ifs at hread
  obtain ⟨opens, _, hread⟩ := exists_of_bind hread
  obtain ⟨assignments, hassignments, hread⟩ := exists_of_bind hread
  split_ifs at hread
  cases hread
  exact read_chips_from_spec hassignments

/-- What an import does with a file that reads. -/
theorem import_chips_eq (hread : readChips env race roster rows = .ok new)
    (table : AssignmentTable) :
    (NeighboursOverlap (held table race.id ++ new) ∧
      ∃ chip, importChips env race roster rows table = .error (.twoPeople chip)) ∨
    (¬ NeighboursOverlap (held table race.id ++ new) ∧ ∃ summary,
      importChips env race roster rows table = .ok (summary, imported table new) ∧
      (summary = ⟨0, 0, rows.length⟩ ↔ ∀ assignment ∈ new, asRow assignment ∈ table.rows)) := by
  obtain ⟨summary, himport, hsummary⟩ := import_assignments_eq table new
  have hcheck : importChips env race roster rows table =
      match ChipRegistry.fromAssignments (held table race.id ++ new) with
      | .error (.overlappingChipAssignment chip) => .error (.twoPeople chip)
      | .ok _ => .ok (summary, imported table new) := by
    rw [importChips, hread]
    simp only [bind, Except.bind, assignments_eq_held, himport]
  rw [hcheck]
  cases hbuilt : ChipRegistry.fromAssignments (held table race.id ++ new) with
  | error error =>
      refine Or.inl ⟨not_not.mp fun hapart => ?_, ?_⟩
      · obtain ⟨registry, hregistry⟩ := exists_registry_iff.mpr hapart
        rw [hregistry] at hbuilt
        cases hbuilt
      · obtain ⟨chip⟩ := error
        exact ⟨chip, rfl⟩
  | ok registry =>
      refine Or.inr ⟨exists_registry_iff.mp ⟨registry, hbuilt⟩, summary, rfl, ?_⟩
      rw [← (read_chips_spec hread).1]
      exact hsummary

/-- What is held after an import: new assignments, and those held before. -/
theorem mem_held_imported {owner : RaceId} {assignment : ChipAssignment}
    (h : assignment ∈ held (imported table new) owner) :
    (∃ written ∈ new, assignment = asHeld written) ∨ assignment ∈ held table owner := by
  obtain ⟨row, hrow, howner, rfl⟩ := mem_held.mp h
  rw [rows_imported] at hrow
  rcases mem_of_mem_upsert_all table.keyed hrow with hnew | ⟨hold, -⟩
  · obtain ⟨written, hwritten, rfl⟩ := List.mem_map.mp hnew
    exact Or.inl ⟨written, hwritten, assignment_as_row written⟩
  · exact Or.inr (mem_held.mpr ⟨row, hold, howner, rfl⟩)

/-- When new assignments of one chip and start are alike, all of them are in the table. -/
theorem as_row_mem_imported_iff :
    (∀ assignment ∈ new, asRow assignment ∈ (imported table new).rows) ↔
    ∀ assignment ∈ new, ∀ other ∈ new, (asRow assignment).key = (asRow other).key →
      asRow assignment = asRow other := by
  have hiff := @mem_upsert_all_iff _ _ _ AssignmentRow.key table.rows (new.map asRow) table.keyed
  rw [rows_imported]
  simpa only [List.forall_mem_map] using hiff

/-- New assignments that are beside themselves without a neighbour overlapping are all vacant: one
that is not would share an instant with what is held of it. -/
theorem vacant_of_apart {owner : RaceId} (howner : ∀ assignment ∈ new, assignment.race = owner)
    (halike : ∀ assignment ∈ new, ∀ other ∈ new,
      (asRow assignment).key = (asRow other).key → asRow assignment = asRow other)
    (hapart : ¬ NeighboursOverlap (held (imported table new) owner ++ new)) :
    ∀ assignment ∈ new, (asHeld assignment).vacant = true := by
  intro assignment hnew
  by_contra hnot
  rw [Bool.not_eq_true] at hnot
  have hheld : asHeld assignment ∈ held (imported table new) owner :=
    mem_held.mpr ⟨asRow assignment, as_row_mem_imported_iff.mpr halike assignment hnew,
      howner assignment hnew, assignment_as_row assignment⟩
  have hpair : [asHeld assignment, assignment].Sublist
      (inTurn assignment.chip (held (imported table new) owner ++ new)) := by
    rw [inTurn, List.filter_append]
    refine List.pair_sublist_insertionSort (whole_micros_le _) ?_
    exact (List.singleton_sublist.mpr (List.mem_filter.mpr ⟨hheld, decide_eq_true rfl⟩)).append
      (List.singleton_sublist.mpr (List.mem_filter.mpr ⟨hnew, decide_eq_true rfl⟩))
  have hchain : (inTurn assignment.chip (held (imported table new) owner ++ new)).IsChain
      fun first second => first.window.overlaps second.window = false :=
    any_overlap_eq_false_iff.mp (Bool.eq_false_iff.mpr fun h => hapart ⟨_, h⟩)
  obtain ⟨between, hbetween, hvacant⟩ := Window.exists_vacant_between ChipAssignment.window
    (sorted_sort_by_key ChipAssignment.validFrom _) hchain hpair (as_held_shares hnot)
  have hturn := (sorted_sort_by_key ChipAssignment.validFrom _).sublist hbetween
  simp only [List.pairwise_cons, List.mem_cons, List.not_mem_nil, or_false] at hturn
  have hstart : wholeMicros between.validFrom = wholeMicros assignment.validFrom := by
    refine le_antisymm (whole_micros_mono (hturn.2.1 assignment rfl)) ?_
    rw [← whole_micros_whole_micros]
    exact whole_micros_mono (hturn.1 between (Or.inl rfl))
  obtain ⟨hmem, hchip⟩ :=
    mem_in_turn.mp (hbetween.subset (List.mem_cons_of_mem _ List.mem_cons_self))
  -- what stands between starts in the same microsecond, so it is held as the same assignment
  have hrow : asRow between ∈ (imported table new).rows ∧ between.race = owner := by
    rcases List.mem_append.mp hmem with hmem | hmem
    · obtain ⟨row, hrow, hrace, rfl⟩ := mem_held.mp hmem
      rw [as_row_assignment hrow]
      exact ⟨hrow, hrace⟩
    · exact ⟨as_row_mem_imported_iff.mpr halike between hmem, howner between hmem⟩
  have hkey : (asRow between).key = (asRow assignment).key := by
    simp only [AssignmentRow.key, asRow, hrow.2, howner assignment hnew, hchip,
      micros_eq_iff.mpr hstart]
  have hsame : asRow between = asRow assignment :=
    List.inj_on_of_nodup_map (imported table new).keyed hrow.1
      (as_row_mem_imported_iff.mpr halike assignment hnew) hkey
  have hvacant' := vacant_as_held hvacant
  rw [← assignment_as_row, hsame, assignment_as_row, hnot] at hvacant'
  cases hvacant'

/-- New assignments that are vacant as held leave no chip ambiguous that was not. -/
theorem unambiguous_of_vacant {owner : RaceId} (hstored : Unambiguous (held table owner))
    (hvacant : ∀ assignment ∈ new, (asHeld assignment).vacant = true) :
    Unambiguous (held (imported table new) owner) := by
  rw [unambiguous_iff_of_nodup (nodup_held _ _)]
  have hold : ∀ at', ∀ assignment ∈ held (imported table new) owner,
      assignment.covers at' = true → assignment ∈ held table owner := by
    intro at' assignment hmem hcovers
    refine (mem_held_imported hmem).resolve_left fun hwritten => ?_
    obtain ⟨written, hnew, rfl⟩ := hwritten
    have hfull : (asHeld written).vacant = false := Window.vacant_eq_false_of_covers hcovers
    rw [hvacant written hnew] at hfull
    cases hfull
  intro at' first hfirst second hsecond hchip hcovers hcovers'
  exact (unambiguous_iff_of_nodup (nodup_held _ _)).mp hstored at' first
    (hold at' first hfirst hcovers) second (hold at' second hsecond hcovers') hchip hcovers hcovers'

/-- An import that succeeds can be repeated only if its assignments can be taken twice. -/
theorem taken_twice_of_again (hread : readChips env race roster rows = .ok new)
    (hagain : importChips env race roster rows (imported table new) =
      .ok (⟨0, 0, rows.length⟩, imported table new)) : TakenTwice table race.id new := by
  rcases import_chips_eq hread (imported table new) with ⟨-, _, hrefused⟩ |
    ⟨hapart, summary, himport, hall⟩
  · rw [hrefused] at hagain
    cases hagain
  · rw [hagain] at himport
    have hthere := hall.mp (congrArg Prod.fst (Except.ok.inj himport)).symm
    have halike := as_row_mem_imported_iff.mp hthere
    exact ⟨vacant_of_apart (read_chips_spec hread).2 halike hapart, halike, hapart⟩

/-- An import whose assignments can be taken twice is repeated without a change. -/
theorem again_of_taken_twice (hread : readChips env race roster rows = .ok new)
    (htwice : TakenTwice table race.id new) :
    importChips env race roster rows (imported table new) =
      .ok (⟨0, 0, rows.length⟩, imported table new) := by
  have hthere : ∀ assignment ∈ new, asRow assignment ∈ (imported table new).rows :=
    as_row_mem_imported_iff.mpr htwice.alike
  have hagain := (import_chips_eq hread (imported table new)).resolve_left
    fun h => htwice.apart h.1
  obtain ⟨-, summary, himport, hall⟩ := hagain
  rw [himport, imported_eq_self hthere, hall.mpr hthere]

/-- An import at second 59, of a file in uppercase whose cells have no instants. -/
def plainEnv : ImportEnv := ⟨second 59, id, fun _ => none⟩

/-- A race with two entrants. -/
def twoEntrants : Race × List Participant :=
  (⟨⟨.fromU128 90⟩, "10K", none, 1⟩, [⟨⟨.fromU128 1⟩, ⟨.fromU128 90⟩, ⟨"7"⟩, ""⟩,
    ⟨⟨.fromU128 2⟩, ⟨.fromU128 90⟩, ⟨"8"⟩, ""⟩])

/-- A file that hands one chip to the second entrant. -/
def oneChip : List (Except String ChipRow) := [.ok ⟨"8", "C1", none, none⟩]

/-- The assignment in that file. -/
def fromNow : ChipAssignment := ⟨⟨"C1"⟩, ⟨.fromU128 2⟩, ⟨.fromU128 90⟩, second 59, none⟩

/-- A table without rows. -/
def noneHanded : AssignmentTable := ⟨[], List.nodup_nil, fun _ h => (List.not_mem_nil h).elim⟩

/-- A table where the first entrant has the chip for good. -/
def handedToFirst : AssignmentTable :=
  noneHanded.write ⟨⟨"C1"⟩, ⟨.fromU128 1⟩, ⟨.fromU128 90⟩, second 0, none⟩

theorem read_one_chip : readChips plainEnv twoEntrants.1 twoEntrants.2 oneChip = .ok [fromNow] := by
  decide +kernel

end Splitforge.Cli
