import Splitforge.Storage.Configured

/-!
# What the configuration store keeps

No call takes a row away, and none files one elsewhere: a race stays with its event, a checkpoint
with its race and a bib with its participant, whatever is saved under their identifiers later. The
starts and stops that were recorded stay as they are, and later ones come behind them.
-/

namespace Splitforge.Storage.Config

open Splitforge.Domain Splitforge.Library

/-- What was said is still said, in the order it was said in. -/
structure Said.Before (said said' : Said) : Prop where
  events : said.events <+: said'.events
  races : said.races <+: said'.races
  checkpoints : said.checkpoints <+: said'.checkpoints
  participants : said.participants <+: said'.participants
  assignments : said.assignments <+: said'.assignments
  readers : said.readers <+: said'.readers
  antennas : said.antennas <+: said'.antennas
  policies : said.policies <+: said'.policies
  sessions : said.sessions <+: said'.sessions

/-- Every row is there still, filed where it was. -/
structure Filed (before after : ConfigTables) : Prop where
  events : ∀ row ∈ before.events, ∃ kept ∈ after.events,
    kept.id = row.id ∧ kept.createdAtUs = row.createdAtUs
  races : ∀ row ∈ before.races, ∃ kept ∈ after.races,
    kept.id = row.id ∧ (kept.event, kept.createdAtUs) = (row.event, row.createdAtUs)
  checkpoints : ∀ row ∈ before.checkpoints, ∃ kept ∈ after.checkpoints,
    kept.id = row.id ∧ kept.race = row.race
  participants : ∀ row ∈ before.participants, ∃ kept ∈ after.participants,
    (kept.race, kept.bib) = (row.race, row.bib) ∧ kept.id = row.id
  assignments : ∀ row ∈ before.assignments.rows, ∃ kept ∈ after.assignments.rows,
    kept.key = row.key
  readers : ∀ row ∈ before.readers, ∃ kept ∈ after.readers,
    kept.id = row.id ∧ kept.createdAtUs = row.createdAtUs
  antennas : ∀ row ∈ before.antennas, ∃ kept ∈ after.antennas, kept.port = row.port
  policies : ∀ row ∈ before.policies, ∃ kept ∈ after.policies, kept.race = row.race
  sessions : before.sessions <+: after.sessions

section Before

variable {said said' : Said} {tables tables' : ConfigTables}

theorem Said.Before.refl (said : Said) : said.Before said where
  events := List.prefix_rfl
  races := List.prefix_rfl
  checkpoints := List.prefix_rfl
  participants := List.prefix_rfl
  assignments := List.prefix_rfl
  readers := List.prefix_rfl
  antennas := List.prefix_rfl
  policies := List.prefix_rfl
  sessions := List.prefix_rfl

/-- One call more says more, and takes nothing back. -/
theorem Said.Before.add (h : said.Before said') (now : OffsetDateTime) (op : ConfigOp) :
    said.Before (said'.add now op) := by
  cases op with
  | saveEvent event => exact { h with events := h.events.trans (List.prefix_append _ _) }
  | saveRace race => exact { h with races := h.races.trans (List.prefix_append _ _) }
  | saveCheckpoint checkpoint =>
      exact { h with checkpoints := h.checkpoints.trans (List.prefix_append _ _) }
  | importParticipants participants =>
      exact { h with participants := h.participants.trans (List.prefix_append _ _) }
  | importAssignments assignments =>
      exact { h with assignments := h.assignments.trans (List.prefix_append _ _) }
  | saveReader reader => exact { h with readers := h.readers.trans (List.prefix_append _ _) }
  | mapAntenna reader antenna checkpoint =>
      exact { h with antennas := h.antennas.trans (List.prefix_append _ _) }
  | setPolicy race policy fits =>
      exact { h with policies := h.policies.trans (List.prefix_append _ _) }
  | setStartMode race mode =>
      exact { h with policies := h.policies.trans (List.prefix_append _ _) }
  | recordSession race session actor note =>
      exact { h with sessions := h.sessions.trans (List.prefix_append _ _) }

/-- What was said before some calls is said behind them. -/
theorem before_run (store : ConfigStore) (calls : List ConfigCall) :
    store.said.Before (run configStep store calls).said := by
  refine @run_keeps _ _ configStep (fun after => store.said.Before after.said) ?_ _
    (Said.Before.refl store.said) calls
  intro after call h
  rw [configStep]
  split
  · exact h
  · split
    · exact h
    · exact h.add call.now call.op

/-- Tables that hold what was said later have the rows of those before. -/
theorem filed_of_before (h : Told said tables) (h' : Told said' tables')
    (hbefore : said.Before said') : Filed tables tables' where
  events := h.events.stays EventRow.createdAtUs h'.events (hbefore.events.map eventRow)
    fun _ _ _ => rfl
  races := h.races.stays (fun row : RaceRow => (row.event, row.createdAtUs)) h'.races
    (hbefore.races.map raceRow) fun _ _ _ => rfl
  checkpoints := h.checkpoints.stays CheckpointRow.race h'.checkpoints
    (hbefore.checkpoints.map checkpointRow) fun _ _ _ => rfl
  participants := h.participants.stays Participant.id h'.participants hbefore.participants
    fun _ _ _ => rfl
  assignments := fun row hrow => by
    obtain ⟨kept, hkept, hkey, _⟩ := h.assignments.stays AssignmentRow.key h'.assignments
      (hbefore.assignments.map asRow) (fun _ _ hkey => hkey.symm) row hrow
    exact ⟨kept, hkept, hkey⟩
  readers := h.readers.stays ReaderRow.createdAtUs h'.readers (hbefore.readers.map readerRow)
    fun _ _ _ => rfl
  antennas := fun row hrow => by
    obtain ⟨kept, hkept, hkey, _⟩ := h.antennas.stays ReaderAntenna.port h'.antennas
      (hbefore.antennas.map antennaRow) (fun _ _ hkey => hkey.symm) row hrow
    exact ⟨kept, hkept, hkey⟩
  policies := fun row hrow => by
    obtain ⟨kept, hkept, hkey, _⟩ := h.policies.stays PolicyRow.race h'.policies
      (hbefore.policies.map policyChange)
      (fun row change hkey => (policySaves.key_amend row change hkey).trans hkey.symm) row hrow
    exact ⟨kept, hkept, hkey⟩
  sessions := by
    obtain ⟨more, hmore⟩ := hbefore.sessions
    rw [h.sessions, h'.sessions, ← hmore, List.mapIdx_append]
    exact List.prefix_append _ _

end Before

/-- After any calls, of which any may have failed, the schema's rules hold, and every row that was
there before the last of them is there still and filed where it was. -/
theorem configuration_kept (calls more : List ConfigCall) :
    Sound (configured (calls ++ more)).tables ∧
      Filed (configured calls).tables (configured (calls ++ more)).tables := by
  obtain ⟨hbefore, _⟩ := told_configured calls
  obtain ⟨hafter, hsound⟩ := told_configured (calls ++ more)
  refine ⟨hsound, filed_of_before hbefore hafter ?_⟩
  have hrun : configured (calls ++ more) = run configStep (configured calls) more :=
    run_append _ _ _
  rw [hrun]
  exact before_run (configured calls) more

end Splitforge.Storage.Config
