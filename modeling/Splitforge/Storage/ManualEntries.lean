import Splitforge.Domain.Entity
import Splitforge.Storage.Connection

/-!
# Manual entries

The table of what operators wrote down. An entry has a row and nothing else: no line of the sidecar
says what a row of this table said.
-/

namespace Splitforge.Storage

open Splitforge.Domain

/-- A manual entry as it stands in the journal. -/
structure StoredManualEntry where
  seq : Nat
  recordedAt : OffsetDateTime
  entry : ManualEntry
deriving DecidableEq

/-- The rows the foreign keys of the table can refer to. -/
structure Registered where
  races : List RaceId
  participants : List ParticipantId
  checkpoints : List CheckpointId

/-- What one call finds: the clock, and whether its statement fails. -/
structure ManualEnv where
  now : OffsetDateTime
  fault : Option StorageError

/-- The highest sequence number, or `0` for an empty table. -/
def lastEntry (rows : List StoredManualEntry) : Nat :=
  rows.foldr (fun row most => max row.seq most) 0

/-- `record_manual_entry`: what the call returns, which is the row it added. A row is never
deleted, so the next key is one more than the highest. -/
def recordManualEntry (registered : Registered) (env : ManualEnv) (rows : List StoredManualEntry)
    (entry : ManualEntry) : Except StorageError StoredManualEntry :=
  match toMicros env.now, toMicros entry.at, env.fault with
  | .error error, _, _ => .error error
  | .ok _, .error error, _ => .error error
  | .ok _, .ok _, some error => .error error
  | .ok _, .ok _, none =>
      if entry.id ∈ rows.map (·.entry.id) then
        .error (.sqlite "UNIQUE constraint failed: manual_entries.id")
      else if entry.race ∉ registered.races ∨ entry.participant ∉ registered.participants ∨
          entry.checkpoint ∉ registered.checkpoints then
        .error (.sqlite "FOREIGN KEY constraint failed")
      else
        .ok ⟨lastEntry rows + 1, wholeMicros env.now, { entry with «at» := wholeMicros entry.at }⟩

/-- The table behind a call: a call that fails leaves it as it was. -/
def withRecorded (rows : List StoredManualEntry) :
    Except StorageError StoredManualEntry → List StoredManualEntry
  | .ok row => rows ++ [row]
  | .error _ => rows

/-- `manual_entries`: the entries of one race, oldest first. The rows stand in the order of their
keys. -/
def manualEntries (rows : List StoredManualEntry) (race : RaceId) : List StoredManualEntry :=
  rows.filter fun row => row.entry.race = race

/-- `manual_entries_for`: the entries of one race, as derivation input. -/
def manualEntriesFor (rows : List StoredManualEntry) (race : RaceId) : List ManualEntry :=
  (manualEntries rows race).map (·.entry)

/-- No row is above the highest sequence number. -/
theorem seq_le_last_entry {rows : List StoredManualEntry} {row : StoredManualEntry}
    (h : row ∈ rows) : row.seq ≤ lastEntry rows := by
  induction rows with
  | nil => cases h
  | cons other rows ih =>
      rw [lastEntry, List.foldr_cons]
      rcases List.mem_cons.mp h with rfl | h
      · exact Nat.le_max_left _ _
      · exact Nat.le_trans (ih h) (Nat.le_max_right _ _)

theorem last_entry_le_append (rows more : List StoredManualEntry) :
    lastEntry rows ≤ lastEntry (rows ++ more) := by
  induction rows with
  | nil => exact Nat.zero_le _
  | cons row rows ih =>
      show max row.seq (lastEntry rows) ≤ max row.seq (lastEntry (rows ++ more))
      omega

/-- A row that is recorded comes behind the others. -/
theorem seq_of_recorded {registered : Registered} {env : ManualEnv} {rows : List StoredManualEntry}
    {entry : ManualEntry} {row : StoredManualEntry}
    (h : recordManualEntry registered env rows entry = .ok row) : row.seq = lastEntry rows + 1 := by
  unfold recordManualEntry at h
  split at h
  · cases h
  · cases h
  · cases h
  · split_ifs at h
    cases h
    rfl

end Splitforge.Storage
