import Splitforge.Results.Crossings
import Splitforge.Results.Places
import Mathlib.Order.Bounds.Basic

/-!
# The rules of a line

What an entry says, in terms of the instants a participant was seen at: the finish is the earliest
at the finish line since the gun, the start is the earliest at the start line since the gun or the
gun itself, times are differences of those, and a status nobody declared follows from them.
-/

namespace Splitforge.Results

open Splitforge.Domain Splitforge.Library

/-! ## Instants -/

/-- The instants a participant was seen anywhere. -/
def seen (input : ScoringInput) (participant : ParticipantId) : Set OffsetDateTime :=
  {instant | ∃ event ∈ input.timingEvents, event.participant = participant ∧ event.at = instant}

/-- The instants a participant was seen at checkpoints of a kind. -/
def seenAt (input : ScoringInput) (participant : ParticipantId) (kind : CheckpointKind) :
    Set OffsetDateTime :=
  {instant | ∃ event ∈ input.timingEvents, event.participant = participant ∧
    (∃ checkpoint ∈ input.checkpoints,
      checkpoint.kind = kind ∧ checkpoint.id = event.checkpoint) ∧ event.at = instant}

/-- The instants at or after the gun, and all instants without a gun. -/
def sinceGun (input : ScoringInput) : Set OffsetDateTime :=
  {instant | ∀ gun, input.policy.gunTime = some gun → gun ≤ instant}

/-- The earliest of some instants, if there is any. -/
def Earliest (instants : Set OffsetDateTime) : Option OffsetDateTime → Prop
  | some instant => IsLeast instants instant
  | none => instants = ∅

/-- Whoever was at the start line at any time, or anywhere since the gun, started. -/
def Started (input : ScoringInput) (participant : ParticipantId) : Prop :=
  (seenAt input participant .start).Nonempty ∨
    (seen input participant ∩ sinceGun input).Nonempty

/-- What an entry says of its participant. -/
structure Rules (input : ScoringInput) (entry : ResultEntry) : Prop where
  finish : Earliest (seenAt input entry.participant .finish ∩ sinceGun input) entry.finishAt
  start_counted : (seenAt input entry.participant .start ∩ sinceGun input).Nonempty →
    Earliest (seenAt input entry.participant .start ∩ sinceGun input) entry.startAt
  start_at_gun : seenAt input entry.participant .start ∩ sinceGun input = ∅ →
    (seenAt input entry.participant .start).Nonempty → entry.startAt = input.policy.gunTime
  no_start : seenAt input entry.participant .start = ∅ → entry.startAt = none
  gun_time : entry.gunTimeMs = input.policy.gunTime.bind fun gun =>
    entry.finishAt.map fun finish => (finish - gun).wholeMilliseconds
  chip_time : entry.chipTimeMs = entry.startAt.bind fun start =>
    entry.finishAt.map fun finish => (finish - start).wholeMilliseconds
  gun_mode : input.policy.startMode = .gun → entry.scoringTimeMs = entry.gunTimeMs
  chip_mode : input.policy.startMode = .chip →
    entry.scoringTimeMs = (entry.chipTimeMs.or entry.gunTimeMs).filter (0 ≤ ·)
  not_negative : ∀ time, entry.scoringTimeMs = some time → 0 ≤ time
  derived : (∀ declaration ∈ input.declarations, declaration.participant ≠ entry.participant) →
    (entry.status = .finished ↔ entry.finishAt.isSome) ∧
    (entry.status = .dnf ↔ entry.finishAt = none ∧ Started input entry.participant) ∧
    (entry.status = .dns ↔ entry.finishAt = none ∧ ¬ Started input entry.participant)

/-- What an entry says apart from what a declaration can change. -/
def measured (entry : ResultEntry) : ResultEntry :=
  { entry with
    status := .finished
    statusSource := .derived
    statusReason := none
    place := none
    flags := entry.flags.filter (· ≠ .declaredFinishedWithoutFinishRead) }

/-! ## Lookups -/

/-- The least event of a list is the earliest of its instants. -/
theorem earliest_of_least {events : List TimingEvent} {instants : Set OffsetDateTime}
    (hinstants : ∀ instant, instant ∈ instants ↔ ∃ event ∈ events, event.at = instant) :
    Earliest instants ((leastByKey order events).map (·.at)) := by
  cases hleast : leastByKey order events with
  | none =>
      rw [least_by_key_eq_none.mp hleast] at hinstants
      refine Set.eq_empty_of_forall_notMem fun instant hinstant => ?_
      obtain ⟨event, hevent, _⟩ := (hinstants instant).mp hinstant
      exact absurd hevent List.not_mem_nil
  | some event =>
      obtain ⟨hmem, hle⟩ := least_of_least_by_key hleast
      refine ⟨(hinstants _).mpr ⟨event, hmem, rfl⟩, fun instant hinstant => ?_⟩
      obtain ⟨other, hother, rfl⟩ := (hinstants instant).mp hinstant
      exact Prod.Lex.monotone_fst _ _ (hle other hother)

/-- An instant is since the gun when an event at it is not before the gun. -/
theorem mem_since_gun {input : ScoringInput} {event : TimingEvent} :
    event.at ∈ sinceGun input ↔ isBeforeGun input.policy.gunTime event = false := by
  show (∀ gun, input.policy.gunTime = some gun → gun ≤ event.at) ↔ _
  cases input.policy.gunTime with
  | none => simp [isBeforeGun]
  | some gun => simp [isBeforeGun]

variable {input : ScoringInput} {participant : ParticipantId} {kind : CheckpointKind}
variable {line : Option CheckpointId}

/-- The events of a participant at the line of a kind are those at the checkpoints of it. -/
theorem mem_seen_at (hline : soleCheckpoint input.checkpoints kind = .ok line)
    {instant : OffsetDateTime} :
    instant ∈ seenAt input participant kind ↔
      ∃ event ∈ eventsAt input.timingEvents participant line, event.at = instant := by
  have hevents (event : TimingEvent) : event ∈ eventsAt input.timingEvents participant line ↔
      event ∈ input.timingEvents ∧ event.participant = participant ∧
        ∃ checkpoint ∈ input.checkpoints,
          checkpoint.kind = kind ∧ checkpoint.id = event.checkpoint := by
    rw [eventsAt, List.mem_filter, decide_eq_true_eq, line_of_sole_checkpoint hline]
  simp only [hevents, and_assoc]
  rfl

/-- The instants counted at a line are those of its events that are not before the gun. -/
theorem mem_seen_at_since_gun (hline : soleCheckpoint input.checkpoints kind = .ok line)
    {instant : OffsetDateTime} :
    instant ∈ seenAt input participant kind ∩ sinceGun input ↔
      ∃ event ∈ (eventsAt input.timingEvents participant line).filter
        (fun event => !isBeforeGun input.policy.gunTime event), event.at = instant := by
  rw [Set.mem_inter_iff, mem_seen_at hline]
  simp only [List.mem_filter, Bool.not_eq_true']
  constructor
  · rintro ⟨⟨event, hevent, rfl⟩, hsince⟩
    exact ⟨event, ⟨hevent, mem_since_gun.mp hsince⟩, rfl⟩
  · rintro ⟨event, ⟨hevent, hsince⟩, rfl⟩
    exact ⟨⟨event, hevent, rfl⟩, mem_since_gun.mpr hsince⟩

/-- The crossing counted at a line is the earliest there since the gun. -/
theorem earliest_counted (hline : soleCheckpoint input.checkpoints kind = .ok line) :
    Earliest (seenAt input participant kind ∩ sinceGun input)
      ((crossingsFrom input.policy.gunTime
        (eventsAt input.timingEvents participant line)).counted.map (·.at)) :=
  earliest_of_least fun _ => mem_seen_at_since_gun hline

/-- Nobody was seen at a line whose events are none. -/
theorem seen_at_eq_empty (hline : soleCheckpoint input.checkpoints kind = .ok line) :
    seenAt input participant kind = ∅ ↔ eventsAt input.timingEvents participant line = [] := by
  rw [Set.eq_empty_iff_forall_notMem, List.eq_nil_iff_forall_not_mem]
  simp only [mem_seen_at hline]
  constructor
  · exact fun h event hevent => h event.at ⟨event, hevent, rfl⟩
  · rintro h instant ⟨event, hevent, _⟩
    exact h event hevent

/-- Those recorded as having started are those who started. -/
theorem started_iff (hstart : soleCheckpoint input.checkpoints .start = .ok line) :
    (startedOf input.policy.gunTime line input.timingEvents).contains participant = true ↔
      Started input participant := by
  rw [contains_started_of, Started]
  constructor
  · intro hcontains
    obtain ⟨event, hevent, hparticipant, hsince | hline⟩ := hcontains
    · exact Or.inr ⟨event.at, ⟨event, hevent, hparticipant, rfl⟩, mem_since_gun.mpr hsince⟩
    · exact Or.inl ⟨event.at, event, hevent, hparticipant,
        (line_of_sole_checkpoint hstart _).mp hline, rfl⟩
  · intro hstarted
    rcases hstarted with ⟨_, event, hevent, hparticipant, hline, _⟩ |
      ⟨_, ⟨event, hevent, hparticipant, rfl⟩, hsince⟩
    · exact ⟨event, hevent, hparticipant, Or.inr ((line_of_sole_checkpoint hstart _).mpr hline)⟩
    · exact ⟨event, hevent, hparticipant, Or.inl (mem_since_gun.mp hsince)⟩

/-! ## One line -/

/-- When a participant started, from their crossings at a line. -/
def startAtLine (input : ScoringInput) (participant : ParticipantId)
    (line : Option CheckpointId) : Option OffsetDateTime :=
  (startOf (crossingsFrom input.policy.gunTime (eventsAt input.timingEvents participant line))
    input.policy.gunTime).1

/-- A start is the crossing counted there, or the gun when there is only an earlier one. -/
theorem start_at_line_eq (input : ScoringInput) (participant : ParticipantId)
    (line : Option CheckpointId) :
    let atStart := crossingsFrom input.policy.gunTime
      (eventsAt input.timingEvents participant line)
    startAtLine input participant line =
      (atStart.counted.map (·.at)).or (atStart.beforeGun.bind fun _ => input.policy.gunTime) := by
  intro atStart
  show (startOf atStart input.policy.gunTime).1 = _
  unfold startOf
  cases atStart.counted <;> cases atStart.beforeGun <;> cases input.policy.gunTime <;> rfl

/-- A start that counts is the earliest since the gun. -/
theorem earliest_start (hline : soleCheckpoint input.checkpoints .start = .ok line)
    (hnonempty : (seenAt input participant .start ∩ sinceGun input).Nonempty) :
    Earliest (seenAt input participant .start ∩ sinceGun input)
      (startAtLine input participant line) := by
  have hcounted := @earliest_counted input participant .start line hline
  rw [start_at_line_eq]
  cases hleast : (crossingsFrom input.policy.gunTime
      (eventsAt input.timingEvents participant line)).counted.map (·.at) with
  | none =>
      rw [hleast] at hcounted
      exact absurd hcounted hnonempty.ne_empty
  | some instant =>
      rw [hleast] at hcounted
      exact hcounted

/-- With every crossing of the start before the gun, the start is the gun. -/
theorem start_eq_gun (hline : soleCheckpoint input.checkpoints .start = .ok line)
    (hempty : seenAt input participant .start ∩ sinceGun input = ∅)
    (hnonempty : (seenAt input participant .start).Nonempty) :
    startAtLine input participant line = input.policy.gunTime := by
  let atStart := crossingsFrom input.policy.gunTime
    (eventsAt input.timingEvents participant line)
  have hnone : atStart.counted = none := by
    have hcounted := @earliest_counted input participant .start line hline
    rw [hempty] at hcounted
    cases hleast : atStart.counted with
    | none => rfl
    | some event =>
        rw [show (crossingsFrom _ _).counted = some event from hleast] at hcounted
        exact absurd hcounted.1 (Set.notMem_empty _)
  -- what was seen at the line and does not count was before the gun
  have hbefore : atStart.beforeGun ≠ none := by
    intro hnoneBefore
    obtain ⟨_, hinstant⟩ := hnonempty
    obtain ⟨event, hevent, _⟩ := (mem_seen_at hline).mp hinstant
    have hlater := List.filter_eq_nil_iff.mp (least_by_key_eq_none.mp hnone) event hevent
    have hearlier := List.filter_eq_nil_iff.mp (least_by_key_eq_none.mp hnoneBefore) event hevent
    rw [Bool.not_eq_true] at hearlier
    rw [hearlier] at hlater
    exact hlater rfl
  obtain ⟨earlier, hearlier⟩ := Option.ne_none_iff_exists'.mp hbefore
  have hstart := start_at_line_eq input participant line
  rw [hstart, show (crossingsFrom _ _).counted = none from hnone,
    show (crossingsFrom _ _).beforeGun = some earlier from hearlier]
  rfl

/-- Without a crossing of the start there is no start. -/
theorem start_eq_none (hline : soleCheckpoint input.checkpoints .start = .ok line)
    (hempty : seenAt input participant .start = ∅) :
    startAtLine input participant line = none := by
  rw [startAtLine, (seen_at_eq_empty hline).mp hempty]
  rfl

/-- The measured time is that of the mode. -/
theorem fst_measured_time (startMode : StartMode) (finishAt : Option OffsetDateTime)
    (gunTimeMs chipTimeMs : Option Int) :
    (measuredTime startMode finishAt gunTimeMs chipTimeMs).1 =
      if finishAt = none then none
      else match startMode with
        | .gun => gunTimeMs
        | .chip => chipTimeMs.or gunTimeMs := by
  unfold measuredTime
  cases finishAt <;> cases startMode <;> cases chipTimeMs <;> rfl

/-- Milliseconds between instants are not cut off. -/
theorem elapsed_ms_eq (start finish : OffsetDateTime) :
    elapsedMs start finish = (finish - start).wholeMilliseconds :=
  OffsetDateTime.i64_or_max_sub finish start

theorem not_negative_of_le {start finish : OffsetDateTime} (h : start ≤ finish) :
    0 ≤ (finish - start).wholeMilliseconds := by
  have hnanos : (0 : Int) ≤ finish.nanos - start.nanos :=
    sub_nonneg.mpr (OffsetDateTime.le_iff.mp h)
  exact Int.tdiv_nonneg hnanos (by decide)

theorem filter_not_negative (measured : Option Int) :
    (if measured.any (· < 0) then none else measured) = measured.filter (0 ≤ ·) := by
  cases measured with
  | none => rfl
  | some time =>
      by_cases h : time < 0
      · simp [h, Option.filter]
      · simp [h, Option.filter, not_lt.mp h]

/-- The times of a line are differences of its instants. -/
theorem times_build_entry (participant : Participant) (atStart atFinish : Crossings)
    (started : Bool) (declaration : Option StatusDeclaration) (policy : ScoringPolicy) :
    let entry := buildEntry participant atStart atFinish started declaration policy
    entry.gunTimeMs = (policy.gunTime.bind fun gun =>
      entry.finishAt.map fun finish => (finish - gun).wholeMilliseconds) ∧
    entry.chipTimeMs = entry.startAt.bind fun start =>
      entry.finishAt.map fun finish => (finish - start).wholeMilliseconds := by
  intro entry
  have helapsed : elapsedMs = fun start finish => (finish - start).wholeMilliseconds :=
    funext₂ elapsed_ms_eq
  have hgun : entry.gunTimeMs =
      policy.gunTime.bind fun gun => entry.finishAt.map (elapsedMs gun) := rfl
  have hchip : entry.chipTimeMs =
      entry.startAt.bind fun start => entry.finishAt.map (elapsedMs start) := rfl
  rw [hgun, hchip, helapsed]
  exact ⟨rfl, rfl⟩

/-- The scoring time of a line is the one its mode measures, when that is not negative. -/
theorem scoring_time_build_entry (participant : Participant) (atStart atFinish : Crossings)
    (started : Bool) (declaration : Option StatusDeclaration) (policy : ScoringPolicy) :
    let entry := buildEntry participant atStart atFinish started declaration policy
    entry.scoringTimeMs =
      (match policy.startMode with
        | .gun => entry.gunTimeMs
        | .chip => entry.chipTimeMs.or entry.gunTimeMs).filter (0 ≤ ·) := by
  intro entry
  have hscoring : entry.scoringTimeMs =
      (measuredTime policy.startMode entry.finishAt entry.gunTimeMs entry.chipTimeMs).1.filter
        (0 ≤ ·) := filter_not_negative _
  rw [hscoring, fst_measured_time]
  obtain ⟨hgun, hchip⟩ := times_build_entry participant atStart atFinish started declaration policy
  by_cases hfinish : entry.finishAt = none
  · -- without a finish there is no time of either mode
    have hgunNone : entry.gunTimeMs = none := by
      rw [hgun, hfinish]
      cases policy.gunTime <;> rfl
    have hchipNone : entry.chipTimeMs = none := by
      rw [hchip, hfinish]
      cases entry.startAt <;> rfl
    rw [if_pos hfinish, hgunNone, hchipNone]
    cases policy.startMode <;> rfl
  · rw [if_neg hfinish]

/-- A status that nobody declared follows from the finish and the start. -/
theorem status_line_of {finish : CheckpointId}
    (hline : soleCheckpoint input.checkpoints .start = .ok line) {participant : Participant}
    (hundeclared : ∀ declaration ∈ input.declarations,
      declaration.participant ≠ participant.id) :
    let entry := lineOf input finish line participant
    (entry.status = .finished ↔ entry.finishAt.isSome) ∧
      (entry.status = .dnf ↔ entry.finishAt = none ∧ Started input participant.id) ∧
      (entry.status = .dns ↔ entry.finishAt = none ∧ ¬ Started input participant.id) := by
  intro entry
  have hnone : (latestDeclarations input.declarations)[participant.id]? = none := by
    rw [get_latest_declarations, least_by_key_eq_none, List.filter_eq_nil_iff]
    intro declaration hdeclaration
    rw [decide_eq_true_eq]
    exact hundeclared declaration hdeclaration
  have hstatus : entry.status =
      if entry.finishAt.isSome then .finished
      else if (startedOf input.policy.gunTime line input.timingEvents).contains participant.id then
        .dnf
      else .dns := by
    show (statusOf (latestDeclarations input.declarations)[participant.id]? _ _).1 = _
    rw [hnone]
    rfl
  rw [hstatus, ← started_iff hline]
  cases entry.finishAt with
  | some finish' => simp
  | none =>
      cases (startedOf input.policy.gunTime line input.timingEvents).contains participant.id <;>
        simp

/-- The line of a participant follows the rules. -/
theorem rules_line_of {finish : CheckpointId}
    (hfinish : soleCheckpoint input.checkpoints .finish = .ok (some finish))
    (hstart : soleCheckpoint input.checkpoints .start = .ok line) (participant : Participant) :
    Rules input (lineOf input finish line participant) := by
  let entry := lineOf input finish line participant
  have hfinishAt : Earliest (seenAt input participant.id .finish ∩ sinceGun input)
      entry.finishAt := earliest_counted hfinish
  have htimes := times_build_entry participant
    (crossingsFrom input.policy.gunTime (eventsAt input.timingEvents participant.id line))
    (crossingsFrom input.policy.gunTime
      (eventsAt input.timingEvents participant.id (some finish)))
    ((startedOf input.policy.gunTime line input.timingEvents).contains participant.id)
    (latestDeclarations input.declarations)[participant.id]? input.policy
  have hscoring : entry.scoringTimeMs =
      (match input.policy.startMode with
        | .gun => entry.gunTimeMs
        | .chip => entry.chipTimeMs.or entry.gunTimeMs).filter (0 ≤ ·) :=
    scoring_time_build_entry _ _ _ _ _ _
  have hgunTime : entry.gunTimeMs = input.policy.gunTime.bind fun gun =>
      entry.finishAt.map fun finish => (finish - gun).wholeMilliseconds := htimes.1
  refine ⟨hfinishAt, earliest_start hstart, start_eq_gun hstart, start_eq_none hstart,
    hgunTime, htimes.2, fun hmode => ?_, fun hmode => ?_, fun time htime => ?_,
    status_line_of hstart⟩
  · -- a finish that counts is not before the gun
    rw [hmode] at hscoring
    refine hscoring.trans ?_
    cases htime : entry.gunTimeMs with
    | none => rfl
    | some time =>
        rw [hgunTime] at htime
        obtain ⟨gun, hgun, hmap⟩ := Option.bind_eq_some_iff.mp htime
        obtain ⟨instant, hinstant, rfl⟩ := Option.map_eq_some_iff.mp hmap
        rw [hinstant] at hfinishAt
        exact Option.filter_eq_some_iff.mpr
          ⟨rfl, decide_eq_true (not_negative_of_le (hfinishAt.1.2 gun hgun))⟩
  · rw [hmode] at hscoring
    exact hscoring
  · have hfilter := hscoring.symm.trans htime
    exact of_decide_eq_true (Option.filter_eq_some_iff.mp hfilter).2

/-! ## Scoring -/

/-- A place changes none of what the rules are about. -/
theorem Rules.placed {entry : ResultEntry} (h : Rules input entry) (times : List (WithBot Int)) :
    Rules input (placed times entry) := by
  unfold Results.placed
  split
  · exact ⟨h.finish, h.start_counted, h.start_at_gun, h.no_start, h.gun_time, h.chip_time,
      h.gun_mode, h.chip_mode, h.not_negative, h.derived⟩
  · exact h

@[simp]
theorem measured_placed (times : List (WithBot Int)) (entry : ResultEntry) :
    measured (placed times entry) = measured entry := by
  unfold placed
  split <;> rfl

/-- A declaration changes nothing else. -/
theorem measured_build_entry (participant : Participant) (atStart atFinish : Crossings)
    (started : Bool) (declaration declaration' : Option StatusDeclaration)
    (policy : ScoringPolicy) :
    measured (buildEntry participant atStart atFinish started declaration policy) =
      measured (buildEntry participant atStart atFinish started declaration' policy) := by
  have hflag (declared : Prop) [Decidable declared] :
      (if declared then [ResultFlag.declaredFinishedWithoutFinishRead] else []).filter
        (· ≠ .declaredFinishedWithoutFinishRead) = [] := by
    split <;> rfl
  unfold measured buildEntry
  simp only [List.filter_append, hflag]

/-- The rules of a published line: finish, start, times and a status nobody declared follow from
the instants a participant was seen at, and other declarations leave everything measured as it
is. -/
theorem score_rules {input : ScoringInput} {entries : List ResultEntry}
    (hscore : score input = .ok entries) :
    (∀ entry ∈ entries, Rules input entry) ∧
    ∀ declarations, ∃ entries', score { input with declarations := declarations } = .ok entries' ∧
      (entries'.map measured).Perm (entries.map measured) := by
  obtain ⟨finish, start, hlines, rfl⟩ := score_eq_ok hscore
  obtain ⟨hfinish, hstart⟩ := sole_checkpoints_of_course_lines hlines
  have hmeasured (entries : List ResultEntry) :
      ((sortForPublication (assignPlaces entries)).map measured).Perm (entries.map measured) := by
    refine ((sort_by_key_perm _ _).map _).trans (List.Perm.of_eq ?_)
    rw [assign_places_eq, List.map_map]
    exact List.map_congr_left fun entry _ => measured_placed _ entry
  refine ⟨fun entry hentry => ?_, fun declarations => ?_⟩
  · rw [sortForPublication, mem_sort_by_key, assign_places_eq, build_entries_eq] at hentry
    obtain ⟨built, hbuilt, rfl⟩ := List.mem_map.mp hentry
    obtain ⟨participant, _, rfl⟩ := List.mem_map.mp hbuilt
    exact (rules_line_of hfinish hstart participant).placed _
  · let input' := { input with declarations := declarations }
    have hscore' : score input' =
        .ok (sortForPublication (assignPlaces (buildEntries input' finish start))) := by
      show (courseLines input.checkpoints input.policy.startMode).bind _ = _
      rw [hlines]
      rfl
    refine ⟨_, hscore', (hmeasured _).trans (List.Perm.trans (List.Perm.of_eq ?_)
      (hmeasured _).symm)⟩
    rw [build_entries_eq, build_entries_eq, List.map_map, List.map_map]
    exact List.map_congr_left fun participant _ => measured_build_entry _ _ _ _ _ _ _

/-- In the sample the first runner, who was on the start line before the gun, starts at the gun. -/
theorem score_rules_sample : sampleEntries.map (·.startAt) = [some (second 10), none, none, none] ∧
    ∀ entry ∈ sampleEntries, Rules sampleRace entry :=
  ⟨by decide +kernel, (score_rules score_sample).1⟩

end Splitforge.Results
