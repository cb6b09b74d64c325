import Splitforge.Cli.Results
import Splitforge.Engine.Laps
import Splitforge.Results.Manual

/-!
# Which results the device's clock can vouch for

A scoreboard flags a result when one of the timing events it rests on came from a crossing whose
credited read the device timed without a trustworthy clock. The flag follows the credited read
through the identifiers of the read, the crossing and the event; and flagging changes nothing else,
so the digest of a revision does not see it.
-/

namespace Splitforge.Cli

open Splitforge.Domain Splitforge.Engine Splitforge.Library Splitforge.Results

/-- What `scoreboard` reads of a race besides the evidence. -/
structure RaceSheet where
  participants : List Participant
  checkpoints : List Checkpoint
  declarations : List StatusDeclaration
  startMode : StartMode
  steps : List ClockStep

/-- What `scoreboard` scores: the derived events of a race, under its policy and its gun. -/
def RaceSheet.scoring (newV5 : Uuid → String → Uuid) (sheet : RaceSheet)
    (input : DerivationInput) : ScoringInput where
  participants := sheet.participants
  checkpoints := sheet.checkpoints
  timingEvents := (derive newV5 input).timingEvents
  declarations := sheet.declarations
  policy := ⟨sheet.startMode, input.policy, input.gunTime⟩

/-- `scoreboard`: scores a race from its evidence, and flags what the clock did. -/
def RaceSheet.scoreboard (newV5 : Uuid → String → Uuid) (sheet : RaceSheet)
    (input : DerivationInput) : Except ScoringError (List ResultEntry) :=
  Cli.scoreboard (sheet.scoring newV5 input)
    (untrustedEvents input.reads (derive newV5 input)) sheet.steps

variable {newV5 : Uuid → String → Uuid} {sheet : RaceSheet} {input : DerivationInput}
variable {entries : List ResultEntry}

/-- Scoring does not flag an untrusted clock. -/
theorem untrusted_not_mem_of_score {scoring : ScoringInput} (h : score scoring = .ok entries) :
    ∀ entry ∈ entries, ResultFlag.untrustedDeviceClock ∉ entry.flags := by
  obtain ⟨finish, start, -, rfl⟩ := score_eq_ok h
  intro entry hentry hflag
  obtain ⟨runner, -, place, rfl⟩ := exists_line_of_mem hentry
  have hmem : ResultFlag.untrustedDeviceClock ∈ (lineOf scoring finish start runner).flags := hflag
  rw [mem_flags_line_of (by simp), mem_manual_flags, mem_manual_flags] at hmem
  simp at hmem

/-- A scoreboard is what was scored, with the flags of the clock. -/
theorem scoreboard_eq_ok (h : sheet.scoreboard newV5 input = .ok entries) :
    ∃ scored, score (sheet.scoring newV5 input) = .ok scored ∧
      entries = flagClock scored (untrustedEvents input.reads (derive newV5 input)) sheet.steps
        input.gunTime := by
  unfold RaceSheet.scoreboard Cli.scoreboard at h
  cases hscore : score (sheet.scoring newV5 input) with
  | error error =>
      rw [hscore] at h
      cases h
  | ok scored =>
      rw [hscore] at h
      cases h
      exact ⟨scored, rfl, rfl⟩

/-- Flags are not a part of a digest. -/
theorem digest_flag_clock (revision : ResultRevision) (scored : List ResultEntry)
    (untrusted : List TimingEventId) (steps : List ClockStep) (gun : Option OffsetDateTime) :
    ({ revision with entries := flagClock scored untrusted steps gun } :
        ResultRevision).digest newV5 =
      ({ revision with entries := scored } : ResultRevision).digest newV5 := by
  have hflat : (flagClock scored untrusted steps gun).flatMap digestOf =
      scored.flatMap digestOf := by
    rw [flagClock, List.flatMap_map]
    rfl
  show (derivedUuid newV5 "result-digest" [String.ofList _]).simple = _
  rw [hflat]
  rfl

/-- An entry rests on an event: it is the start event used, or the finish event used. -/
def RestsOn (scoring : ScoringInput) (finish : CheckpointId) (start : Option CheckpointId)
    (entry : ResultEntry) (event : TimingEvent) : Prop :=
  startUsed scoring entry.participant start = some event ∨
    finishUsed scoring entry.participant finish = some event

/-- The events an entry rests on are events of the race. -/
theorem RestsOn.mem {scoring : ScoringInput} {finish : CheckpointId} {start : Option CheckpointId}
    {entry : ResultEntry} {event : TimingEvent} (h : RestsOn scoring finish start entry event) :
    event ∈ scoring.timingEvents := by
  have hat {line : Option CheckpointId} {counts : TimingEvent → Bool}
      (hmem : event ∈ (eventsAt scoring.timingEvents entry.participant line).filter counts) :
      event ∈ scoring.timingEvents :=
    (List.mem_filter.mp (List.mem_filter.mp hmem).1).1
  rcases h with h | h
  · rcases Option.or_eq_some_iff.mp h with hcounted | ⟨-, hearlier⟩
    · exact hat (least_of_least_by_key hcounted).1
    · exact hat (least_of_least_by_key hearlier).1
  · exact hat (least_of_least_by_key h).1

/-- An entry lists the identifiers of the events it rests on. -/
theorem mem_timing_events_of_score {scoring : ScoringInput} {finish : CheckpointId}
    {start : Option CheckpointId} (h : score scoring = .ok entries)
    (hlines : courseLines scoring.checkpoints scoring.policy.startMode = .ok (finish, start))
    {entry : ResultEntry} (hentry : entry ∈ entries) {id : TimingEventId} :
    id ∈ entry.timingEvents ↔ ∃ event, RestsOn scoring finish start entry event ∧
      event.id = id := by
  obtain ⟨finish', start', hlines', rfl⟩ := score_eq_ok h
  rw [hlines] at hlines'
  cases hlines'
  obtain ⟨runner, -, place, rfl⟩ := exists_line_of_mem hentry
  show id ∈ (lineOf scoring finish start runner).timingEvents ↔ ∃ event,
    (startUsed scoring runner.id start = some event ∨
      finishUsed scoring runner.id finish = some event) ∧ event.id = id
  rw [timing_events_line_of, List.mem_filterMap]
  constructor
  · intro hlisted
    obtain ⟨used, hused, hsome⟩ := hlisted
    obtain ⟨event, rfl, hid⟩ := Option.map_eq_some_iff.mp hsome
    rcases List.mem_cons.mp hused with hused | hused
    · exact ⟨event, Or.inl hused.symm, hid⟩
    · exact ⟨event, Or.inr (List.mem_singleton.mp hused).symm, hid⟩
  · intro hrests
    obtain ⟨event, hevent, hid⟩ := hrests
    refine ⟨some event, ?_, congrArg some hid⟩
    rcases hevent with hevent | hevent
    · rw [hevent]
      exact List.mem_cons_self
    · rw [hevent]
      exact List.mem_cons_of_mem _ (List.mem_singleton_self _)

/-- An entry is flagged exactly when one of the events it lists was timed by an untrusted clock. -/
theorem untrusted_flag_iff_listed (hids : ((derive newV5 input).accepted.map (·.id)).Nodup)
    {scored : List ResultEntry} (hscore : score (sheet.scoring newV5 input) = .ok scored)
    {entry : ResultEntry}
    (hentry : entry ∈ flagClock scored (untrustedEvents input.reads (derive newV5 input))
      sheet.steps input.gunTime) :
    .untrustedDeviceClock ∈ entry.flags ↔
      ∃ event ∈ (derive newV5 input).timingEvents, event.id ∈ entry.timingEvents ∧
        TimedUntrusted input.reads (derive newV5 input) event := by
  obtain ⟨before, hbefore, rfl⟩ := List.mem_map.mp hentry
  rw [List.mem_append, or_iff_right (untrusted_not_mem_of_score hscore before hbefore),
    untrusted_mem_flags]
  constructor
  · intro huses
    obtain ⟨id, hid, huntrusted⟩ := huses
    obtain ⟨event, hevent, rfl, htimed⟩ := (mem_untrusted_events hids).mp huntrusted
    exact ⟨event, hevent, hid, htimed⟩
  · intro huses
    obtain ⟨event, hevent, hid, htimed⟩ := huses
    exact ⟨event.id, hid, (mem_untrusted_events hids).mpr ⟨event, hevent, rfl, htimed⟩⟩

/-- Where identifiers tell events apart, an entry lists an event with some property exactly when it
rests on one. -/
theorem lists_iff_rests_on {scoring : ScoringInput} {finish : CheckpointId}
    {start : Option CheckpointId} {scored : List ResultEntry} (hscore : score scoring = .ok scored)
    (hlines : courseLines scoring.checkpoints scoring.policy.startMode = .ok (finish, start))
    (hids : (scoring.timingEvents.map (·.id)).Nodup) {entry : ResultEntry} (hentry : entry ∈ scored)
    (holds : TimingEvent → Prop) :
    (∃ event ∈ scoring.timingEvents, event.id ∈ entry.timingEvents ∧ holds event) ↔
      ∃ event, RestsOn scoring finish start entry event ∧ holds event := by
  constructor
  · intro huses
    obtain ⟨event, hevent, hid, hholds⟩ := huses
    obtain ⟨used, hrests, heq⟩ := (mem_timing_events_of_score hscore hlines hentry).mp hid
    have hsame : used = event := List.inj_on_of_nodup_map hids hrests.mem hevent heq
    exact ⟨event, hsame ▸ hrests, hholds⟩
  · intro huses
    obtain ⟨event, hrests, hholds⟩ := huses
    exact ⟨event, RestsOn.mem hrests, (mem_timing_events_of_score hscore hlines hentry).mpr
      ⟨event, hrests, rfl⟩, hholds⟩

/-- The flag of an untrusted clock is exact and changes nothing else. An entry of a scoreboard has
it exactly when one of the timing events it lists came from a crossing whose credited read is
untrusted, and, where identifiers tell events apart, when one of those it rests on did. The entries
are those that were scored, in their order, with nothing but flags of the clock behind their own,
so a revision made of them has the same digest. -/
theorem untrusted_clock_exact (hids : (input.reads.map fun stored => stored.read.id).Nodup)
    (hnames : NoCollision newV5 input) (h : sheet.scoreboard newV5 input = .ok entries) :
    (∀ entry ∈ entries, .untrustedDeviceClock ∈ entry.flags ↔
      ∃ event ∈ (derive newV5 input).timingEvents, event.id ∈ entry.timingEvents ∧
        TimedUntrusted input.reads (derive newV5 input) event) ∧
    (((derive newV5 input).timingEvents.map (·.id)).Nodup → ∀ finish start,
      courseLines sheet.checkpoints sheet.startMode = .ok (finish, start) →
      ∀ entry ∈ entries, .untrustedDeviceClock ∈ entry.flags ↔
        ∃ event, RestsOn (sheet.scoring newV5 input) finish start entry event ∧
          TimedUntrusted input.reads (derive newV5 input) event) ∧
    ∃ scored, score (sheet.scoring newV5 input) = .ok scored ∧
      List.Forall₂ (fun before entry => ∃ added,
        entry = { before with flags := before.flags ++ added } ∧
          ∀ flag ∈ added, flag = .untrustedDeviceClock ∨ flag = .clockStepDuringResult)
        scored entries ∧
      ∀ revision : ResultRevision, ({ revision with entries := entries } :
          ResultRevision).digest newV5 =
        ({ revision with entries := scored } : ResultRevision).digest newV5 := by
  obtain ⟨scored, hscore, rfl⟩ := scoreboard_eq_ok h
  have hlisted := fun entry hentry => @untrusted_flag_iff_listed _ _ _
    (derive_accepted_ids_nodup hids hnames) _ hscore entry hentry
  refine ⟨hlisted, fun heventIds finish start hlines entry hentry => ?_, scored, hscore, ?_,
    fun revision => digest_flag_clock revision scored _ _ _⟩
  · rw [hlisted entry hentry]
    obtain ⟨before, hbefore, rfl⟩ := List.mem_map.mp hentry
    exact lists_iff_rests_on hscore hlines heventIds hbefore _
  · rw [flagClock, List.forall₂_map_right_iff]
    exact List.forall₂_same.mpr fun before _ => ⟨_, rfl, fun flag hflag => mem_clock_flags hflag⟩

/-- A race over a start and a finish in which the sample's runner was on the start line when the
gun went. -/
def sampleSheet : RaceSheet where
  participants := [⟨⟨.fromU128 9⟩, ⟨.fromU128 90⟩, ⟨"7"⟩, ""⟩]
  checkpoints := [⟨⟨.fromU128 7⟩, ⟨.fromU128 90⟩, "start", .start, 0⟩,
    ⟨⟨.fromU128 8⟩, ⟨.fromU128 90⟩, "finish", .finish, 1⟩]
  declarations := []
  startMode := .gun
  steps := []

/-- The sample without its manual entry. -/
def chipOnly : DerivationInput :=
  { sample with manual := [] }

/-- The sample's runner is flagged for a start that the device timed without a trustworthy clock. -/
theorem untrusted_clock_exact_sample :
    ∃ entries, sampleSheet.scoreboard sampleV5 chipOnly = .ok entries ∧
      entries.map (·.flags) = [[.startReadBeforeGun, .untrustedDeviceClock]] ∧
      ∀ entry ∈ entries, .untrustedDeviceClock ∈ entry.flags ↔
        ∃ event ∈ (derive sampleV5 chipOnly).timingEvents, event.id ∈ entry.timingEvents ∧
          TimedUntrusted chipOnly.reads (derive sampleV5 chipOnly) event := by
  have hscored : sampleSheet.scoreboard sampleV5 chipOnly = .ok (flagClock
      (sortForPublication (assignPlaces (buildEntries (sampleSheet.scoring sampleV5 chipOnly)
        ⟨.fromU128 8⟩ (some ⟨.fromU128 7⟩))))
      (untrustedEvents chipOnly.reads (derive sampleV5 chipOnly)) [] chipOnly.gunTime) := rfl
  have hnames : NoCollision sampleV5 chipOnly := sample_no_collision
  exact ⟨_, hscored, by decide +kernel, (untrusted_clock_exact (by decide) hnames hscored).1⟩

end Splitforge.Cli
