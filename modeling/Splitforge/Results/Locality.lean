import Splitforge.Library.SameBut
import Splitforge.Results.Lines

/-!
# Crossings that cannot count

Two races whose events differ only in warm-ups of runners who were there again after the gun are
scored alike, and events behind the one that counts at a line change nothing but the flags that say
a chip was passed over.
-/

namespace Splitforge.Results

open Splitforge.Domain Splitforge.Library

/-- An entry without the flags that a chip was passed over. -/
def withoutOverChip (entry : ResultEntry) : ResultEntry :=
  { entry with
    flags := entry.flags.filter fun flag =>
      flag ≠ .manualStartOverChip && flag ≠ .manualFinishOverChip }

/-- Crossings that a line uses alike: a crossing before the gun matters only where none counts. -/
structure UsedAlike (crossings crossings' : Crossings) : Prop where
  counted : crossings.counted = crossings'.counted
  counted_chip : crossings.countedChip = crossings'.countedChip
  before_gun : crossings.counted = none → crossings.beforeGun = crossings'.beforeGun

variable {input : ScoringInput} {finish : CheckpointId} {start : Option CheckpointId}
variable {events' : List TimingEvent} {idle : TimingEvent → Bool}

/-- Crossings that are used alike give one line. -/
theorem build_entry_of_used_alike {atStart atStart' atFinish atFinish' : Crossings}
    (hstart : UsedAlike atStart atStart') (hfinish : UsedAlike atFinish atFinish')
    (runner : Participant) (started : Bool) (declaration : Option StatusDeclaration)
    (policy : ScoringPolicy) :
    buildEntry runner atStart atFinish started declaration policy =
      buildEntry runner atStart' atFinish' started declaration policy := by
  obtain ⟨counted, before, chip⟩ := atStart
  obtain ⟨counted', before', chip'⟩ := atStart'
  obtain ⟨finished, warmed, finishedChip⟩ := atFinish
  obtain ⟨finished', warmed', finishedChip'⟩ := atFinish'
  obtain ⟨rfl, rfl, hbefore⟩ := hstart
  obtain ⟨rfl, rfl, hwarmed⟩ := hfinish
  have hstartOf : startOf ⟨counted, before, chip⟩ policy.gunTime =
      startOf ⟨counted, before', chip⟩ policy.gunTime := by
    cases counted with
    | none => rw [show before = before' from hbefore rfl]
    | some event => rfl
  have hwarm : (finished = none ∧ warmed.isSome = true) = (finished = none ∧
      warmed'.isSome = true) := by
    cases finished with
    | none => rw [show warmed = warmed' from hwarmed rfl]
    | some event => simp
  unfold buildEntry
  simp only [hstartOf, hwarm]
  rfl

/-- The same race with other events. -/
def withEvents (input : ScoringInput) (events : List TimingEvent) : ScoringInput :=
  { input with timingEvents := events }

/-- The same runners started when each of the others was somewhere else from the gun on. -/
theorem contains_started_of_same (hsame : SameBut idle input.timingEvents events')
    (hidle : ∀ event, idle event = true → ∃ other ∈ input.timingEvents,
      other.participant = event.participant ∧ idle other = false ∧
        isBeforeGun input.policy.gunTime other = false) (participant : ParticipantId) :
    (startedOf input.policy.gunTime start events').contains participant =
      (startedOf input.policy.gunTime start input.timingEvents).contains participant := by
  rw [Bool.eq_iff_iff, contains_started_of, contains_started_of]
  constructor
  · intro hstarted
    obtain ⟨event, hevent, rfl, hwhere⟩ := hstarted
    cases hcase : idle event with
    | true =>
        obtain ⟨other, hother, hparticipant, -, hcounts⟩ := hidle event hcase
        exact ⟨other, hother, hparticipant, Or.inl hcounts⟩
    | false => exact ⟨event, hsame.symm.mem hevent hcase, rfl, hwhere⟩
  · intro hstarted
    obtain ⟨event, hevent, rfl, hwhere⟩ := hstarted
    cases hcase : idle event with
    | true =>
        obtain ⟨other, hother, hparticipant, hnot, hcounts⟩ := hidle event hcase
        exact ⟨other, hsame.mem hother hnot, hparticipant, Or.inl hcounts⟩
    | false => exact ⟨event, hsame.mem hevent hcase, rfl, hwhere⟩

/-! ## Warm-ups -/

section WarmUps

variable (hsame : SameBut idle input.timingEvents events')
variable (hidle : ∀ event, idle event = true → isBeforeGun input.policy.gunTime event = true ∧
  countedAt input event.participant (some event.checkpoint) ≠ [])

include hsame hidle

/-- With or without warm-ups a line is used alike. -/
theorem used_alike_of_warm_ups (participant : ParticipantId) (line : Option CheckpointId) :
    UsedAlike
      (crossingsFrom input.policy.gunTime (eventsAt events' participant line))
      (crossingsFrom input.policy.gunTime (eventsAt input.timingEvents participant line)) := by
  have hat : SameBut idle (eventsAt input.timingEvents participant line)
      (eventsAt events' participant line) := hsame.filter _
  have hcounted : (eventsAt events' participant line).filter (fun event =>
      !isBeforeGun input.policy.gunTime event) = countedAt input participant line :=
    (hat.filter_eq fun event hevent => by rw [(hidle event hevent).1]; rfl).symm
  constructor
  · exact congrArg (leastByKey order) hcounted
  · refine congrArg (leastByKey order) (hat.filter_eq fun event hevent => ?_).symm
    rw [(hidle event hevent).1]
    rfl
  · intro hnone
    -- whoever has no crossing that counts has no warm-up among the others
    have hnil : countedAt input participant line = [] :=
      hcounted.symm.trans (least_by_key_eq_none.mp hnone)
    have hevents : eventsAt input.timingEvents participant line =
        eventsAt events' participant line := by
      refine hsame.filter_eq fun event hevent => decide_eq_false fun hwhere => ?_
      obtain ⟨rfl, rfl⟩ := hwhere
      exact (hidle event hevent).2 hnil
    rw [hevents]

/-- With or without warm-ups the race is scored alike. -/
theorem score_of_warm_ups : score (withEvents input events') = score input := by
  have hstarted (start : Option CheckpointId) := @contains_started_of_same _ start _ _ hsame
    fun event hevent => by
      obtain ⟨other, hother⟩ := List.exists_mem_of_ne_nil _ (hidle event hevent).2
      obtain ⟨hmem, hparticipant, -, hcounts⟩ := mem_counted_at.mp hother
      refine ⟨other, hmem, hparticipant, Bool.eq_false_iff.mpr fun h => ?_, hcounts⟩
      rw [(hidle other h).1] at hcounts
      cases hcounts
  have hlines (finish : CheckpointId) (start : Option CheckpointId) :
      lineOf (withEvents input events') finish start = lineOf input finish start := by
    funext runner
    show buildEntry runner _ _ ((startedOf input.policy.gunTime start events').contains runner.id)
      _ _ = _
    rw [hstarted]
    exact build_entry_of_used_alike (used_alike_of_warm_ups hsame hidle _ _)
      (used_alike_of_warm_ups hsame hidle _ _) _ _ _ _
  show (courseLines input.checkpoints input.policy.startMode).bind _ =
    (courseLines input.checkpoints input.policy.startMode).bind _
  refine congrArg _ (funext fun lines => ?_)
  obtain ⟨finish, start⟩ := lines
  dsimp only
  rw [build_entries_eq, build_entries_eq, hlines]
  rfl

end WarmUps

/-! ## Crossings behind the one that counts -/

section Behind

variable (hsame : SameBut idle input.timingEvents events')
variable (hidle : ∀ event, idle event = true → ∃ counted,
  leastByKey order (countedAt input event.participant (some event.checkpoint)) = some counted ∧
    order counted < order event)

include hidle

/-- The crossing that counts is not one of those behind it. -/
theorem counted_of_behind {event : TimingEvent} (hevent : idle event = true) :
    ∃ counted ∈ countedAt input event.participant (some event.checkpoint),
      idle counted = false ∧ order counted < order event := by
  obtain ⟨counted, hleast, hlt⟩ := hidle event hevent
  have hmem := (least_of_least_by_key hleast).1
  refine ⟨counted, hmem, Bool.eq_false_iff.mpr fun h => ?_, hlt⟩
  obtain ⟨-, hparticipant, hcheckpoint, -⟩ := mem_counted_at.mp hmem
  obtain ⟨other, hother, hbefore⟩ := hidle counted h
  rw [hparticipant, ← hcheckpoint, hleast] at hother
  cases hother
  exact lt_irrefl _ hbefore

/-- A crossing behind the one that counts is not before the gun. -/
theorem not_before_gun_of_behind {event : TimingEvent} (hevent : idle event = true) :
    isBeforeGun input.policy.gunTime event = false := by
  obtain ⟨counted, hmem, -, hlt⟩ := counted_of_behind hidle hevent
  have hcounts := (mem_counted_at.mp hmem).2.2.2
  have hle : counted.at ≤ event.at := Prod.Lex.monotone_fst _ _ hlt.le
  unfold isBeforeGun at hcounts ⊢
  cases hgun : input.policy.gunTime with
  | none => rfl
  | some gun =>
      rw [hgun, Option.any_some, decide_eq_false_iff_not, not_lt] at hcounts
      exact decide_eq_false (hcounts.trans hle).not_gt

include hsame

/-- The same crossing counts, and the same one is the latest before the gun. -/
theorem crossings_of_behind (participant : ParticipantId) (line : Option CheckpointId) :
    (crossingsFrom input.policy.gunTime (eventsAt events' participant line)).counted =
        (crossingsFrom input.policy.gunTime
          (eventsAt input.timingEvents participant line)).counted ∧
      (crossingsFrom input.policy.gunTime (eventsAt events' participant line)).beforeGun =
        (crossingsFrom input.policy.gunTime
          (eventsAt input.timingEvents participant line)).beforeGun := by
  have hat : SameBut idle (eventsAt input.timingEvents participant line)
      (eventsAt events' participant line) := hsame.filter _
  constructor
  · refine (hat.filter _).least_eq fun event hmem hevent => ?_
    have hwhere : event.participant = participant ∧ line = some event.checkpoint := by
      rcases hmem with hmem | hmem
      · exact of_decide_eq_true (List.mem_filter.mp (List.mem_filter.mp hmem).1).2
      · exact of_decide_eq_true (List.mem_filter.mp (List.mem_filter.mp hmem).1).2
    obtain ⟨rfl, rfl⟩ := hwhere
    exact counted_of_behind hidle hevent
  · refine congrArg (leastByKey _) (hat.filter_eq fun event hevent => ?_).symm
    exact not_before_gun_of_behind hidle hevent

/-- The runners who started are the same. -/
theorem started_of_behind (participant : ParticipantId) :
    (startedOf input.policy.gunTime start events').contains participant =
      (startedOf input.policy.gunTime start input.timingEvents).contains participant := by
  refine contains_started_of_same hsame (fun event hevent => ?_) participant
  obtain ⟨counted, hmem, hnot, -⟩ := counted_of_behind hidle hevent
  obtain ⟨hcounted, hparticipant, -, hcounts⟩ := mem_counted_at.mp hmem
  exact ⟨counted, hcounted, hparticipant, hnot, hcounts⟩

end Behind

/-- Whether a chip was passed over shows only in the flag for it. -/
theorem filter_manual_flags {crossings crossings' : Crossings} (used : Option TimingEvent)
    {manual overChip : ResultFlag} {shown : ResultFlag → Bool} (hover : shown overChip = false) :
    (crossings.manualFlags used manual overChip).filter shown =
      (crossings'.manualFlags used manual overChip).filter shown := by
  have hgone (condition : Bool) : (if condition then [overChip] else []).filter shown = [] := by
    cases condition with
    | true => rw [if_pos rfl, List.filter_cons_of_neg (by simp [hover]), List.filter_nil]
    | false => rfl
  unfold Crossings.manualFlags
  cases used.filter isManual with
  | none => rfl
  | some used =>
      dsimp only
      rw [List.filter_cons, List.filter_cons, hgone, hgone]

/-- Crossings with one that counts and one before the gun in common give the same line, apart from
the flags that a chip was passed over. -/
theorem without_over_chip_build_entry {atStart atStart' atFinish atFinish' : Crossings}
    (hstart : atStart.counted = atStart'.counted ∧ atStart.beforeGun = atStart'.beforeGun)
    (hfinish : atFinish.counted = atFinish'.counted ∧ atFinish.beforeGun = atFinish'.beforeGun)
    (runner : Participant) (started : Bool) (declaration : Option StatusDeclaration)
    (policy : ScoringPolicy) :
    withoutOverChip (buildEntry runner atStart atFinish started declaration policy) =
      withoutOverChip (buildEntry runner atStart' atFinish' started declaration policy) := by
  obtain ⟨counted, before, chip⟩ := atStart
  obtain ⟨counted', before', chip'⟩ := atStart'
  obtain ⟨finished, warmed, finishedChip⟩ := atFinish
  obtain ⟨finished', warmed', finishedChip'⟩ := atFinish'
  obtain ⟨rfl, rfl⟩ := hstart
  obtain ⟨rfl, rfl⟩ := hfinish
  have hstartOf : startOf ⟨counted, before, chip⟩ policy.gunTime =
      startOf ⟨counted, before, chip'⟩ policy.gunTime := by
    cases counted <;> cases before <;> cases policy.gunTime <;> rfl
  unfold withoutOverChip buildEntry
  have hstartFlags (used : Option TimingEvent) := @filter_manual_flags ⟨counted, before, chip⟩
    ⟨counted, before, chip'⟩ used .manualStart .manualStartOverChip
    (fun flag => flag ≠ .manualStartOverChip && flag ≠ .manualFinishOverChip) rfl
  have hfinishFlags := @filter_manual_flags ⟨finished, warmed, finishedChip⟩
    ⟨finished, warmed, finishedChip'⟩ finished .manualFinish .manualFinishOverChip
    (fun flag => flag ≠ .manualStartOverChip && flag ≠ .manualFinishOverChip) rfl
  simp only [hstartOf, List.filter_append, hstartFlags, hfinishFlags]

/-! ## Publication -/

theorem without_over_chip_placed (times : List (WithBot Int)) (entry : ResultEntry) :
    withoutOverChip (placed times entry) = placed times (withoutOverChip entry) := by
  have hplaceable : isPlaceable (withoutOverChip entry) = isPlaceable entry := rfl
  unfold placed
  rw [hplaceable]
  split <;> rfl

theorem place_times_without_over_chip (entries : List ResultEntry) :
    placeTimes (entries.map withoutOverChip) = placeTimes entries := by
  rw [placeTimes, List.filter_map, List.map_map]
  rfl

/-- Lines that differ in the flags that a chip was passed over are published so. -/
theorem publication_without_over_chip {entries entries' : List ResultEntry}
    (h : entries.map withoutOverChip = entries'.map withoutOverChip) :
    (sortForPublication (assignPlaces entries)).map withoutOverChip =
      (sortForPublication (assignPlaces entries')).map withoutOverChip := by
  have hpublished (entries : List ResultEntry) :
      (sortForPublication (assignPlaces entries)).map withoutOverChip =
        sortForPublication (assignPlaces (entries.map withoutOverChip)) := by
    have hplaced : (entries.map withoutOverChip).map (placed (placeTimes entries)) =
        (entries.map (placed (placeTimes entries))).map withoutOverChip := by
      rw [List.map_map, List.map_map]
      exact List.map_congr_left fun entry _ => (without_over_chip_placed _ entry).symm
    rw [assign_places_eq, assign_places_eq, place_times_without_over_chip, hplaced]
    have hkey (entry : ResultEntry) :
        publicationKey (withoutOverChip entry) = publicationKey entry := rfl
    exact (sort_by_key_map fun first _ second _ => by rw [hkey, hkey]).symm
  rw [hpublished, hpublished, h]

/-- With or without crossings behind those that count, the lines differ in the flags that a chip
was passed over. -/
theorem lines_of_behind (hsame : SameBut idle input.timingEvents events')
    (hidle : ∀ event, idle event = true → ∃ counted,
      leastByKey order (countedAt input event.participant (some event.checkpoint)) =
        some counted ∧ order counted < order event) :
    (input.participants.map (lineOf (withEvents input events') finish start)).map
        withoutOverChip =
      (input.participants.map (lineOf input finish start)).map withoutOverChip := by
  rw [List.map_map, List.map_map]
  refine List.map_congr_left fun runner _ => ?_
  show withoutOverChip (buildEntry runner _ _
    ((startedOf input.policy.gunTime start events').contains runner.id) _ _) = _
  rw [started_of_behind hsame hidle]
  exact without_over_chip_build_entry (crossings_of_behind hsame hidle _ _)
    (crossings_of_behind hsame hidle _ _) _ _ _ _

/-- Crossings that cannot count do not matter. Warm-ups over the finish of runners who finished,
and over the start of runners who started after the gun, change nothing at all; crossings of either
line behind the one that counts change at most the flags that a chip was passed over. -/
theorem idle_crossings_do_not_matter
    (hlines : courseLines input.checkpoints input.policy.startMode = .ok (finish, start))
    (hsame : SameBut idle input.timingEvents events') :
    ((∀ event, idle event = true → event.checkpoint = finish ∧
        isBeforeGun input.policy.gunTime event = true ∧
        countedAt input event.participant (some finish) ≠ []) →
      score (withEvents input events') = score input) ∧
    ((∀ event, idle event = true → start = some event.checkpoint ∧
        isBeforeGun input.policy.gunTime event = true ∧
        countedAt input event.participant start ≠ []) →
      score (withEvents input events') = score input) ∧
    ((∀ event, idle event = true → (event.checkpoint = finish ∨ start = some event.checkpoint) ∧
        ∃ counted, leastByKey order
          (countedAt input event.participant (some event.checkpoint)) = some counted ∧
            order counted < order event) →
      ∃ entries entries', score input = .ok entries ∧
        score (withEvents input events') = .ok entries' ∧
        entries'.map withoutOverChip = entries.map withoutOverChip) := by
  refine ⟨fun hidle => ?_, fun hidle => ?_, fun hidle => ?_⟩
  · refine score_of_warm_ups hsame fun event hevent => ?_
    obtain ⟨hcheckpoint, hbefore, hcounted⟩ := hidle event hevent
    exact ⟨hbefore, hcheckpoint ▸ hcounted⟩
  · refine score_of_warm_ups hsame fun event hevent => ?_
    obtain ⟨hcheckpoint, hbefore, hcounted⟩ := hidle event hevent
    exact ⟨hbefore, hcheckpoint ▸ hcounted⟩
  · refine ⟨_, _, score_of_course_lines hlines,
      @score_of_course_lines (withEvents input events') _ _ hlines, ?_⟩
    exact publication_without_over_chip
      (lines_of_behind hsame fun event hevent => (hidle event hevent).2)

/-- A runner of the sample also crossed the finish before the gun, and later wandered over it. -/
theorem idle_crossings_do_not_matter_sample :
    score (withEvents sampleRace
        (sampleCrossing 9 1 51 3 :: sampleRace.timingEvents)) = score sampleRace ∧
      ∃ entries entries', score sampleRace = .ok entries ∧
        score (withEvents sampleRace
          (sampleRace.timingEvents ++ [sampleCrossing 9 1 51 75])) = .ok entries' ∧
        entries'.map withoutOverChip = entries.map withoutOverChip := by
  have hlines : courseLines sampleRace.checkpoints sampleRace.policy.startMode =
      .ok (⟨.fromU128 51⟩, some ⟨.fromU128 50⟩) := rfl
  constructor
  · have hsame : SameBut (fun event => event = sampleCrossing 9 1 51 3) sampleRace.timingEvents
        (sampleCrossing 9 1 51 3 :: sampleRace.timingEvents) := rfl
    refine (idle_crossings_do_not_matter hlines hsame).1 ?_
    intro event hevent
    rw [of_decide_eq_true hevent]
    exact ⟨rfl, by decide, by decide⟩
  · have hsame : SameBut (fun event => event = sampleCrossing 9 1 51 75) sampleRace.timingEvents
        (sampleRace.timingEvents ++ [sampleCrossing 9 1 51 75]) := rfl
    refine (idle_crossings_do_not_matter hlines hsame).2.2 ?_
    intro event hevent
    rw [of_decide_eq_true hevent]
    exact ⟨Or.inl rfl, sampleCrossing 2 1 51 60, by decide, by decide⟩

end Splitforge.Results
