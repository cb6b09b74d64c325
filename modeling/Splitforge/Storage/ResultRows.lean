import Splitforge.Storage.Results

/-!
# The rows of results

What the rows of a revision and of its entries hold, and that they are read as what was written.
-/

namespace Splitforge.Storage.Results

open Splitforge.Domain Splitforge.Library Splitforge.Library.Json

variable {newV5 : Uuid → String → Uuid}

/-! ## Rows -/

/-- What the row of a revision holds. -/
theorem revision_row_fields {policyJson : String} {recordedAtUs : Int64} {revision : Revision}
    {row : RevisionRow} (h : revisionRow newV5 policyJson recordedAtUs revision = .ok row) :
    row.id = revision.id.toText ∧ row.raceId = revision.race.uuid.toText ∧
      row.number = Int64.ofNat revision.number ∧ row.status = revision.status.asStr ∧
      row.generatedAtUs = micros revision.generatedAt ∧ row.actor = revision.actor ∧
      row.reason = revision.reason ∧ row.policyJson = policyJson := by
  obtain ⟨generatedAtUs, hmicros, h⟩ := exists_of_bind h
  rw [to_micros_eq] at hmicros
  injection hmicros with hmicros
  injection h with h
  rw [← h, hmicros]
  exact ⟨rfl, rfl, rfl, rfl, rfl, rfl, rfl, rfl⟩

/-- The rows of entries, from an ordinal on. -/
def Rows (revision : Uuid) (ordinal : Nat) (entries : List ResultEntry) (rows : List EntryRow) :
    Prop :=
  List.Forall₂ (fun entry row => entryRow revision entry.2 entry.1 = .ok row)
    (entries.zipIdx ordinal) rows

/-- The keys of an entry's row. -/
theorem entry_row_keys {revision : Uuid} {ordinal : Nat} {entry : ResultEntry} {row : EntryRow}
    (h : entryRow revision ordinal entry = .ok row) :
    row.revisionId = revision.toText ∧ row.participantId = entry.participant.uuid.toText ∧
      row.ordinal = Int64.ofInt (i64OrMax ordinal) := by
  obtain ⟨startAtUs, _, h⟩ := exists_of_bind h
  obtain ⟨finishAtUs, _, h⟩ := exists_of_bind h
  injection h with h
  rw [← h]
  exact ⟨rfl, rfl, rfl⟩

/-! ## What is written is read back -/

theorem to_int_of_nat_of_lt {number : Nat} (h : number < 2 ^ 32) :
    (Int64.ofNat number).toInt = number :=
  Int64.toInt_ofNat_of_lt (by omega)

theorem u32_try_from_cast {number : Nat} (h : number < 2 ^ 32) :
    u32TryFrom (number : Int) = some number := by
  rw [u32TryFrom, if_pos (by omega), Int.toNat_natCast]

/-- A number that fits `u32` is read back. -/
theorem u32_try_from_of_nat {number : Nat} (h : number < 2 ^ 32) :
    u32TryFrom (Int64.ofNat number).toInt = some number := by
  rw [to_int_of_nat_of_lt h, u32_try_from_cast h]

/-- Milliseconds that fit `i64` are read back. -/
theorem map_to_int_map_of_int {number : Option Int}
    (h : ∀ ms ∈ number, i64Min ≤ ms ∧ ms ≤ i64Max) :
    (number.map Int64.ofInt).map Int64.toInt = number := by
  cases number with
  | none => rfl
  | some ms =>
      obtain ⟨hlower, hupper⟩ := h ms rfl
      rw [Option.map_some, Option.map_some, to_int_of_int hlower hupper]

/-- An instant is read back to the microsecond. -/
theorem map_m_from_micros {instant : Option OffsetDateTime} {stored : Option Int64}
    (hstored : instant.mapM toMicros = .ok stored) :
    stored.mapM fromMicros = .ok (instant.map wholeMicros) := by
  cases instant with
  | none =>
      injection hstored with hstored
      rw [← hstored]
      rfl
  | some value =>
      rw [Option.mapM_some, to_micros_eq] at hstored
      injection hstored with hstored
      rw [← hstored, Option.mapM_some, from_micros_micros]
      rfl

/-- An entry as it comes back: its instants to the microsecond. -/
def storedEntry (entry : ResultEntry) : ResultEntry :=
  { entry with
    startAt := entry.startAt.map wholeMicros
    finishAt := entry.finishAt.map wholeMicros }

/-- A revision as it comes back. -/
def storedRevision (revision : Revision) : Revision :=
  { revision with
    generatedAt := wholeMicros revision.generatedAt
    entries := revision.entries.map storedEntry }

/-- The instants of an entry are whole microseconds. -/
structure EntryInWholeMicros (entry : ResultEntry) : Prop where
  startAt : ∀ value ∈ entry.startAt, InWholeMicros value
  finishAt : ∀ value ∈ entry.finishAt, InWholeMicros value

/-- The instants of a revision are whole microseconds. -/
structure RevisionInWholeMicros (revision : ResultRevision) : Prop where
  generatedAt : InWholeMicros revision.generatedAt
  entries : ∀ entry ∈ revision.entries, EntryInWholeMicros entry

theorem map_whole_micros_eq_self {instant : Option OffsetDateTime}
    (h : ∀ value ∈ instant, InWholeMicros value) : instant.map wholeMicros = instant := by
  cases instant with
  | none => rfl
  | some value => rw [Option.map_some, whole_micros_eq_self_iff.mpr (h value rfl)]

/-- A revision in whole microseconds comes back as it was. -/
theorem stored_revision_eq_self {revision : Revision}
    (h : RevisionInWholeMicros revision.toResultRevision) : storedRevision revision = revision := by
  have hentries : revision.entries.map storedEntry = revision.entries := by
    refine (List.map_congr_left fun entry hentry => ?_).trans (List.map_id _)
    obtain ⟨hstart, hfinish⟩ := h.entries entry hentry
    rw [storedEntry, map_whole_micros_eq_self hstart, map_whole_micros_eq_self hfinish, id]
  rw [storedRevision, hentries, whole_micros_eq_self_iff.mpr h.generatedAt]

/-- An entry is read back from its row. -/
theorem entry_from_row_entry_row (texts : Texts) {revision : Uuid} {ordinal : Nat}
    {entry : ResultEntry} {row : EntryRow} (h : entryRow revision ordinal entry = .ok row)
    (hfits : EntryFits entry) : entryFromRow texts row = .ok (storedEntry entry) := by
  obtain ⟨startAtUs, hstart, h⟩ := exists_of_bind h
  obtain ⟨finishAtUs, hfinish, h⟩ := exists_of_bind h
  injection h with h
  have hplace : (entry.place.map fun place => Int64.ofNat place).mapM
      (fun value => orDecode "negative place" (u32TryFrom value.toInt)) = .ok entry.place := by
    cases hentry : entry.place with
    | none => rfl
    | some place =>
        rw [Option.map_some, Option.mapM_some, u32_try_from_of_nat (hfits.place place hentry)]
        rfl
  rw [← h]
  unfold entryFromRow uuidColumn
  simp only [read_text_write_text, Uuid.parse_str_to_text, result_status_parse_as_str,
    parse_source_source_to_str, map_m_from_micros hstart, map_m_from_micros hfinish, hplace,
    map_to_int_map_of_int hfits.gunTimeMs, map_to_int_map_of_int hfits.chipTimeMs,
    map_to_int_map_of_int hfits.scoringTimeMs]
  rfl

/-- The entries of a revision are read back from its rows. -/
theorem map_m_entry_from_row (texts : Texts) {revision : Uuid} {ordinal : Nat}
    {entries : List ResultEntry} {rows : List EntryRow} (h : Rows revision ordinal entries rows)
    (hfits : ∀ entry ∈ entries, EntryFits entry) :
    rows.mapM (entryFromRow texts) = .ok (entries.map storedEntry) := by
  induction entries generalizing ordinal rows with
  | nil =>
      cases h
      rfl
  | cons entry entries ih =>
      rw [Rows, List.zipIdx_cons] at h
      cases h with
      | cons hrow hrows =>
          have hentry := entry_from_row_entry_row texts hrow (hfits entry List.mem_cons_self)
          have hentries := ih hrows fun other hother => hfits other (List.mem_cons_of_mem _ hother)
          rw [List.mapM_cons, hentry, hentries]
          rfl

theorem ordinal_mono {ordinal ordinal' : Nat} (h : ordinal ≤ ordinal') :
    (Int64.ofInt (i64OrMax ordinal)).toInt ≤ (Int64.ofInt (i64OrMax ordinal')).toInt := by
  have hbounds : ∀ ordinal : Nat, i64Min ≤ i64OrMax ordinal ∧ i64OrMax ordinal ≤ i64Max := by
    intro ordinal
    unfold i64OrMax i64Min i64Max
    split_ifs <;> omega
  rw [to_int_of_int (hbounds _).1 (hbounds _).2, to_int_of_int (hbounds _).1 (hbounds _).2]
  unfold i64OrMax i64Min i64Max
  split_ifs <;> omega

/-- The rows of a revision stand in the order of their ordinals. -/
theorem pairwise_of_rows {revision : Uuid} {ordinal : Nat} {entries : List ResultEntry}
    {rows : List EntryRow} (h : Rows revision ordinal entries rows) :
    (∀ row ∈ rows, (Int64.ofInt (i64OrMax ordinal)).toInt ≤ row.ordinal.toInt) ∧
      rows.Pairwise fun first second => first.ordinal.toInt ≤ second.ordinal.toInt := by
  induction entries generalizing ordinal rows with
  | nil =>
      cases h
      exact ⟨fun _ hrow => absurd hrow List.not_mem_nil, .nil⟩
  | cons entry entries ih =>
      rw [Rows, List.zipIdx_cons] at h
      cases h with
      | @cons _ row _ rows hrow hrows =>
          obtain ⟨hbehind, hpairwise⟩ := ih hrows
          obtain ⟨_, _, hordinal⟩ := entry_row_keys hrow
          have hnext := ordinal_mono (Nat.le_succ ordinal)
          rw [← hordinal] at hnext ⊢
          have hrest : ∀ other ∈ rows, row.ordinal.toInt ≤ other.ordinal.toInt :=
            fun other hother => hnext.trans (hbehind other hother)
          refine ⟨?_, .cons hrest hpairwise⟩
          intro other hother
          rcases List.mem_cons.mp hother with rfl | hother
          · exact le_rfl
          · exact hrest other hother

theorem revision_id_of_mem_rows {revision : Uuid} {ordinal : Nat} {entries : List ResultEntry}
    {rows : List EntryRow} (h : Rows revision ordinal entries rows) {row : EntryRow}
    (hrow : row ∈ rows) : row.revisionId = revision.toText := by
  unfold Rows at h
  generalize entries.zipIdx ordinal = numbered at h
  induction h with
  | nil => cases hrow
  | cons hentry _ ih =>
      rcases List.mem_cons.mp hrow with rfl | hrow
      · exact (entry_row_keys hentry).1
      · exact ih hrow

end Splitforge.Storage.Results
