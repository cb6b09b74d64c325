import Splitforge.Results.Crossings
import Splitforge.Results.Places

/-!
# The events a line rests on

A participant's line uses at most one event of the start and one of the finish: the earliest at or
after the gun, or at the start the latest before the gun, which stands for a start at the gun. The
other events of the two lines show only in flags.
-/

namespace Splitforge.Results

open Splitforge.Domain Splitforge.Library

/-- A participant's events at a line at or after the gun, and all of them without a gun. -/
def countedAt (input : ScoringInput) (participant : ParticipantId)
    (line : Option CheckpointId) : List TimingEvent :=
  (eventsAt input.timingEvents participant line).filter fun event =>
    !isBeforeGun input.policy.gunTime event

/-- A participant's events at a line before the gun. -/
def earlierAt (input : ScoringInput) (participant : ParticipantId)
    (line : Option CheckpointId) : List TimingEvent :=
  (eventsAt input.timingEvents participant line).filter fun event =>
    isBeforeGun input.policy.gunTime event

/-- The finish event used: the earliest that counts. -/
def finishUsed (input : ScoringInput) (participant : ParticipantId) (finish : CheckpointId) :
    Option TimingEvent :=
  leastByKey order (countedAt input participant (some finish))

/-- The start event used: the earliest that counts, or the latest before the gun. -/
def startUsed (input : ScoringInput) (participant : ParticipantId)
    (start : Option CheckpointId) : Option TimingEvent :=
  (leastByKey order (countedAt input participant start)).or
    (leastByKey (fun event => OrderDual.toDual (order event)) (earlierAt input participant start))

variable {input : ScoringInput} {entries : List ResultEntry} {entry : ResultEntry}
variable {finish : CheckpointId} {start : Option CheckpointId} {participant : ParticipantId}
variable {line : Option CheckpointId}

/-- A published entry is the line of a participant with a place, or without one. -/
theorem exists_line_of_mem (hentry : entry ∈ sortForPublication (assignPlaces
    (buildEntries input finish start))) :
    ∃ runner ∈ input.participants, ∃ place,
      entry = { lineOf input finish start runner with place := place } := by
  rw [sortForPublication, mem_sort_by_key, assign_places_eq, build_entries_eq] at hentry
  obtain ⟨built, hbuilt, rfl⟩ := List.mem_map.mp hentry
  obtain ⟨runner, hrunner, rfl⟩ := List.mem_map.mp hbuilt
  refine ⟨runner, hrunner, ?_⟩
  rw [placed]
  split_ifs
  · exact ⟨_, rfl⟩
  · exact ⟨none, rfl⟩

/-- Without a gun nothing is before it. -/
theorem before_gun_eq_none (events : List TimingEvent) :
    (crossingsFrom none events).beforeGun = none := by
  rw [crossingsFrom, least_by_key_eq_none, List.filter_eq_nil_iff]
  intro event _ hbefore
  cases hbefore

/-- The start of a line, from the crossings there: when it was, the event, and the flag. -/
theorem start_of_eq (gun : Option OffsetDateTime) (events : List TimingEvent) :
    let atStart := crossingsFrom gun events
    startOf atStart gun =
      ((atStart.counted.map (·.at)).or (atStart.beforeGun.bind fun _ => gun),
        atStart.counted.or atStart.beforeGun,
        if atStart.counted = none ∧ atStart.beforeGun.isSome then [.startReadBeforeGun]
        else []) := by
  intro atStart
  have hgun : gun = none → atStart.beforeGun = none := by
    intro hnone
    subst hnone
    exact before_gun_eq_none events
  unfold startOf
  cases hcounted : atStart.counted with
  | some event => simp
  | none =>
      cases hbefore : atStart.beforeGun with
      | none => simp
      | some earlier =>
          cases gun with
          | none => exact absurd (hgun rfl) (by rw [hbefore]; exact Option.some_ne_none _)
          | some gun => simp

/-- The event a line starts with. -/
theorem snd_start_of_eq (input : ScoringInput) (participant : ParticipantId)
    (start : Option CheckpointId) :
    (startOf (crossingsFrom input.policy.gunTime
      (eventsAt input.timingEvents participant start)) input.policy.gunTime).2.1 =
      startUsed input participant start := by
  rw [start_of_eq]
  rfl

/-- The events a line uses are those it names. -/
theorem timing_events_line_of (input : ScoringInput) (finish : CheckpointId)
    (start : Option CheckpointId) (runner : Participant) :
    (lineOf input finish start runner).timingEvents =
      [startUsed input runner.id start, finishUsed input runner.id finish].filterMap
        fun event => event.map (·.id) := by
  rw [← snd_start_of_eq]
  rfl

/-- Where the course has its lines, scoring publishes the lines of the participants. -/
theorem score_of_course_lines
    (hlines : courseLines input.checkpoints input.policy.startMode = .ok (finish, start)) :
    score input = .ok (sortForPublication (assignPlaces
      (input.participants.map (lineOf input finish start)))) := by
  rw [score, hlines, ← build_entries_eq]
  rfl

/-- Scoring fails where the course has no lines, and nowhere else. -/
theorem score_eq_error_iff {error : ScoringError} :
    score input = .error error ↔
      courseLines input.checkpoints input.policy.startMode = .error error := by
  unfold score
  cases courseLines input.checkpoints input.policy.startMode with
  | error found =>
      constructor
      · intro h
        cases h
        rfl
      · intro h
        cases h
        rfl
  | ok lines =>
      constructor
      · intro h
        cases h
      · intro h
        cases h

/-- Whoever is seen at a line from the gun on counts there. -/
theorem mem_counted_at {event : TimingEvent} :
    event ∈ countedAt input participant line ↔ event ∈ input.timingEvents ∧
      event.participant = participant ∧ line = some event.checkpoint ∧
      isBeforeGun input.policy.gunTime event = false := by
  rw [countedAt, List.mem_filter, eventsAt, List.mem_filter, decide_eq_true_eq,
    Bool.not_eq_true', and_assoc, and_assoc]

end Splitforge.Results
