import Mathlib.Data.List.Basic
import Mathlib.Data.List.Nodup

/-!
# Keyed tables

A table is a list of rows with a key, and no two rows have one key. A row that is put in takes the
place of the row with its key, or else comes last.
-/

namespace Splitforge.Library

variable {Row Key : Type} [DecidableEq Key] {key : Row → Key} {rows more : List Row} {row : Row}

/-- The rows after one was put in. -/
def upsert (key : Row → Key) (row : Row) : List Row → List Row
  | [] => [row]
  | other :: rows => if key other = key row then row :: rows else other :: upsert key row rows

/-- The rows after others were put in, one after another. -/
def upsertAll (key : Row → Key) (rows more : List Row) : List Row :=
  more.foldl (fun rows row => upsert key row rows) rows

/-- The keys of a table are those it had, and the key of the row that was put in. -/
theorem mem_keys_upsert {wanted : Key} :
    wanted ∈ (upsert key row rows).map key ↔ wanted = key row ∨ wanted ∈ rows.map key := by
  induction rows with
  | nil => simp [upsert]
  | cons other rows ih =>
      rw [upsert]
      split_ifs with hkey
      · rw [List.map_cons, List.map_cons, List.mem_cons, List.mem_cons, hkey]
        exact ⟨Or.inr, fun h => h.elim Or.inl id⟩
      · rw [List.map_cons, List.map_cons, List.mem_cons, List.mem_cons, ih]
        exact or_left_comm

/-- No two rows get one key. -/
theorem nodup_upsert (hnodup : (rows.map key).Nodup) : ((upsert key row rows).map key).Nodup := by
  induction rows with
  | nil => exact List.nodup_singleton _
  | cons other rows ih =>
      obtain ⟨hother, hrows⟩ := List.nodup_cons.mp hnodup
      rw [upsert]
      split_ifs with hkey
      · exact List.nodup_cons.mpr ⟨hkey ▸ hother, hrows⟩
      · refine List.nodup_cons.mpr ⟨fun hmem => ?_, ih hrows⟩
        rcases mem_keys_upsert.mp hmem with h | h
        · exact hkey h
        · exact hother h

/-- In a table there are the row that was put in and the rows with other keys. -/
theorem mem_upsert (hnodup : (rows.map key).Nodup) {other : Row} :
    other ∈ upsert key row rows ↔ other = row ∨ other ∈ rows ∧ key other ≠ key row := by
  induction rows with
  | nil => simp [upsert]
  | cons first rows ih =>
      obtain ⟨hfirst, hrows⟩ := List.nodup_cons.mp hnodup
      rw [upsert]
      split_ifs with hkey
      · rw [List.mem_cons, List.mem_cons]
        refine or_congr_right ⟨fun hmem => ⟨Or.inr hmem, fun hother => ?_⟩, fun h => ?_⟩
        · exact hfirst (List.mem_map.mpr ⟨other, hmem, hother.trans hkey.symm⟩)
        · refine h.1.resolve_left fun heq => h.2 ?_
          rw [heq, hkey]
      · rw [List.mem_cons, List.mem_cons, ih hrows]
        constructor
        · intro h
          rcases h with rfl | h | h
          · exact Or.inr ⟨Or.inl rfl, hkey⟩
          · exact Or.inl h
          · exact Or.inr ⟨Or.inr h.1, h.2⟩
        · intro h
          rcases h with h | ⟨h | h, hother⟩
          · exact Or.inr (Or.inl h)
          · exact Or.inl h
          · exact Or.inr (Or.inr ⟨h, hother⟩)

/-- A row that is there already can be put in again. -/
theorem upsert_self (hnodup : (rows.map key).Nodup) (hmem : row ∈ rows) :
    upsert key row rows = rows := by
  induction rows with
  | nil => cases hmem
  | cons other rows ih =>
      obtain ⟨hother, hrows⟩ := List.nodup_cons.mp hnodup
      rw [upsert]
      rcases List.mem_cons.mp hmem with rfl | hmem
      · rw [if_pos rfl]
      · have hkey : key other ≠ key row := by
          intro heq
          exact hother (heq ▸ List.mem_map_of_mem hmem)
        rw [if_neg hkey, ih hrows hmem]

/-- The keys of a table after others were put in. -/
theorem mem_keys_upsert_all {wanted : Key} :
    wanted ∈ (upsertAll key rows more).map key ↔
      wanted ∈ rows.map key ∨ wanted ∈ more.map key := by
  induction more generalizing rows with
  | nil => simp [upsertAll]
  | cons row more ih =>
      rw [upsertAll, List.foldl_cons, ← upsertAll, ih, mem_keys_upsert, List.map_cons,
        List.mem_cons]
      exact or_assoc.trans or_left_comm

theorem nodup_upsert_all (hnodup : (rows.map key).Nodup) :
    ((upsertAll key rows more).map key).Nodup := by
  induction more generalizing rows with
  | nil => exact hnodup
  | cons row more ih => exact ih (nodup_upsert hnodup)

/-- What is in a table after others were put in: those, and what has none of their keys. -/
theorem mem_of_mem_upsert_all (hnodup : (rows.map key).Nodup) {other : Row}
    (h : other ∈ upsertAll key rows more) :
    other ∈ more ∨ other ∈ rows ∧ ∀ row ∈ more, key row ≠ key other := by
  induction more generalizing rows with
  | nil => exact Or.inr ⟨h, fun row hrow => (List.not_mem_nil hrow).elim⟩
  | cons row more ih =>
      rcases ih (nodup_upsert hnodup) h with hmore | ⟨hrows, hkeys⟩
      · exact Or.inl (List.mem_cons_of_mem _ hmore)
      · rcases (mem_upsert hnodup).mp hrows with rfl | ⟨hrows, hkey⟩
        · exact Or.inl List.mem_cons_self
        · refine Or.inr ⟨hrows, fun next hnext => ?_⟩
          rcases List.mem_cons.mp hnext with rfl | hnext
          · exact hkey.symm
          · exact hkeys next hnext

/-- Every key of the rows that were put in is there, with one of them. -/
theorem exists_mem_upsert_all (hnodup : (rows.map key).Nodup) (hrow : row ∈ more) :
    ∃ other ∈ more, key other = key row ∧ other ∈ upsertAll key rows more := by
  have hthere : key row ∈ (upsertAll key rows more).map key :=
    mem_keys_upsert_all.mpr (Or.inr (List.mem_map_of_mem hrow))
  obtain ⟨other, hother, hsame⟩ := List.mem_map.mp hthere
  rcases mem_of_mem_upsert_all hnodup hother with hmore | ⟨-, hkeys⟩
  · exact ⟨other, hmore, hsame, hother⟩
  · exact absurd hsame.symm (hkeys row hrow)

/-- All the rows that were put in are there exactly when those with one key are equal. -/
theorem mem_upsert_all_iff (hnodup : (rows.map key).Nodup) :
    (∀ row ∈ more, row ∈ upsertAll key rows more) ↔
      ∀ row ∈ more, ∀ other ∈ more, key row = key other → row = other := by
  constructor
  · intro hall row hrow other hother hkey
    exact List.inj_on_of_nodup_map (nodup_upsert_all hnodup) (hall row hrow) (hall other hother)
      hkey
  · intro hequal row hrow
    obtain ⟨other, hother, hkey, hmem⟩ := exists_mem_upsert_all hnodup hrow
    rwa [hequal row hrow other hother hkey.symm]

end Splitforge.Library
