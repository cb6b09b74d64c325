import Splitforge.Results.Lines

/-!
# Typed starts and finishes

The flags that say a start or a finish was typed by an operator, and that a chip was passed over
for it. They are decided from the crossings kept in one pass, and say exactly what the events used
are.
-/

namespace Splitforge.Results

open Splitforge.Domain Splitforge.Library

variable {input : ScoringInput} {entries : List ResultEntry}
variable {finish : CheckpointId} {start : Option CheckpointId}

/-- Whether an event that may be missing is there and was typed. -/
def Typed (event : Option TimingEvent) : Prop :=
  ∃ used, event = some used ∧ isManual used = true

/-- The flags of one checkpoint: whether the event used was typed, and whether it is the one that
counts there and a chip counts too. -/
theorem mem_manual_flags {crossings : Crossings} {used : Option TimingEvent}
    {manual overChip flag : ResultFlag} :
    flag ∈ crossings.manualFlags used manual overChip ↔
      ∃ event, used = some event ∧ isManual event = true ∧
        (flag = manual ∨ flag = overChip ∧ crossings.countedChip.isSome = true ∧
          crossings.counted.any (fun counted => counted.id = event.id) = true) := by
  rw [Crossings.manualFlags]
  cases used with
  | none => simp
  | some used =>
      cases hmanual : isManual used with
      | false => simp [Option.filter_some, hmanual]
      | true =>
          have hfilter : (some used).filter isManual = some used := by
            rw [Option.filter_some, if_pos hmanual]
          rw [hfilter]
          dsimp only
          rw [List.mem_cons]
          constructor
          · intro h
            refine ⟨used, rfl, hmanual, h.imp_right fun hpassed => ?_⟩
            split_ifs at hpassed with hboth
            · rw [Bool.and_eq_true] at hboth
              exact ⟨List.mem_singleton.mp hpassed, hboth.2, hboth.1⟩
            · cases hpassed
          · intro h
            obtain ⟨event, heq, _, h⟩ := h
            cases heq
            refine h.imp_right fun hpassed => ?_
            rw [if_pos (by rw [hpassed.2.1, hpassed.2.2]; rfl), hpassed.1]
            exact List.mem_singleton_self _

/-- A chip counts at a line exactly when a chip event at or after the gun is there. -/
theorem counted_chip_is_some_iff (input : ScoringInput) (participant : ParticipantId)
    (line : Option CheckpointId) :
    (crossingsFrom input.policy.gunTime
      (eventsAt input.timingEvents participant line)).countedChip.isSome = true ↔
      ∃ chip ∈ countedAt input participant line, isManual chip = false := by
  rw [Option.isSome_iff_ne_none, crossingsFrom, ne_eq, least_by_key_eq_none,
    List.filter_eq_nil_iff]
  simp [countedAt, and_assoc]

/-- What the manual flags of an entry say. -/
structure ManualFlags (input : ScoringInput) (finish : CheckpointId)
    (start : Option CheckpointId) (entry : ResultEntry) : Prop where
  typed_finish : .manualFinish ∈ entry.flags ↔ Typed (finishUsed input entry.participant finish)
  typed_finish_over_chip : .manualFinishOverChip ∈ entry.flags ↔
    Typed (finishUsed input entry.participant finish) ∧
      ∃ chip ∈ countedAt input entry.participant (some finish), isManual chip = false
  typed_start : .manualStart ∈ entry.flags ↔ Typed (startUsed input entry.participant start)
  typed_start_over_chip : .manualStartOverChip ∈ entry.flags ↔
    Typed (leastByKey order (countedAt input entry.participant start)) ∧
      ∃ chip ∈ countedAt input entry.participant start, isManual chip = false

/-- The flags about how a time was measured. -/
theorem mem_time_flags {startMode : StartMode} {finishAt : Option OffsetDateTime}
    {gunTimeMs chipTimeMs : Option Int} {flag : ResultFlag}
    (h : flag ∈ (measuredTime startMode finishAt gunTimeMs chipTimeMs).2) :
    flag = .noGunTime ∨ flag = .noStartReadUnderChipTime := by
  have hgun : flag ∈ (if gunTimeMs = none then [ResultFlag.noGunTime] else []) →
      flag = .noGunTime := by
    intro h
    split_ifs at h
    · exact List.mem_singleton.mp h
    · cases h
  unfold measuredTime at h
  by_cases hfinish : finishAt = none
  · rw [if_pos hfinish] at h
    cases h
  · rw [if_neg hfinish] at h
    cases startMode with
    | gun => exact Or.inl (hgun h)
    | chip =>
        cases chipTimeMs with
        | some chip => cases h
        | none =>
            rcases List.mem_cons.mp h with h | h
            · exact Or.inr h
            · exact Or.inl (hgun h)

/-- The flags of a line that are not about its times or its declaration come from its two
checkpoints. -/
theorem mem_flags_line_of {runner : Participant} {flag : ResultFlag}
    (hflag : flag ∉ [ResultFlag.startReadBeforeGun, .finishReadBeforeGun, .noGunTime,
      .noStartReadUnderChipTime, .finishBeforeStart, .declaredFinishedWithoutFinishRead]) :
    flag ∈ (lineOf input finish start runner).flags ↔
      flag ∈ (crossingsFrom input.policy.gunTime (eventsAt input.timingEvents runner.id
        start)).manualFlags (startUsed input runner.id start) .manualStart
          .manualStartOverChip ∨
      flag ∈ (crossingsFrom input.policy.gunTime (eventsAt input.timingEvents runner.id
        (some finish))).manualFlags (finishUsed input runner.id finish) .manualFinish
          .manualFinishOverChip := by
  simp only [List.mem_cons, List.not_mem_nil, or_false, not_or] at hflag
  obtain ⟨hstart, hwarm, hgun, hunder, hbefore, hdeclared⟩ := hflag
  have hnot (condition : Prop) [Decidable condition] {other : ResultFlag} (hother : flag ≠ other) :
      flag ∉ (if condition then [other] else []) := by
    split_ifs
    · exact fun h => hother (List.mem_singleton.mp h)
    · exact List.not_mem_nil
  have htime {startMode : StartMode} {finishAt : Option OffsetDateTime}
      {gunTimeMs chipTimeMs : Option Int} :
      flag ∉ (measuredTime startMode finishAt gunTimeMs chipTimeMs).2 := by
    intro h
    rcases mem_time_flags h with h | h
    · exact hgun h
    · exact hunder h
  unfold lineOf buildEntry
  simp only [start_of_eq, List.mem_append, htime, hnot _ hstart, hnot _ hwarm, hnot _ hbefore,
    hnot _ hdeclared, or_false, false_or]
  rfl

/-- A chip was passed over at a line exactly when the event that counts there was typed and a chip
event counts too. -/
theorem passed_over_iff {crossings : Crossings} {used earlier : Option TimingEvent}
    (hused : used = crossings.counted.or earlier) :
    (∃ event, used = some event ∧ isManual event = true ∧ crossings.countedChip.isSome = true ∧
      crossings.counted.any (fun counted => counted.id = event.id) = true) ↔
      Typed crossings.counted ∧ crossings.countedChip.isSome = true := by
  cases hcounted : crossings.counted with
  | none => simp [Typed]
  | some counted =>
      rw [hcounted, Option.some_or] at hused
      subst hused
      simp [Typed]

/-- The manual flags of a line say what the events it uses are. -/
theorem manual_flags_line_of (input : ScoringInput) (finish : CheckpointId)
    (start : Option CheckpointId) (runner : Participant) :
    ManualFlags input finish start (lineOf input finish start runner) := by
  let atStart := crossingsFrom input.policy.gunTime (eventsAt input.timingEvents runner.id start)
  let atFinish := crossingsFrom input.policy.gunTime
    (eventsAt input.timingEvents runner.id (some finish))
  have hfinish : finishUsed input runner.id finish = atFinish.counted.or none :=
    Option.or_none.symm
  have hstart : startUsed input runner.id start = atStart.counted.or atStart.beforeGun := rfl
  constructor
  · rw [mem_flags_line_of (by simp), mem_manual_flags, mem_manual_flags]
    simp [Typed]
    rfl
  · rw [mem_flags_line_of (by simp), mem_manual_flags, mem_manual_flags]
    simp only [reduceCtorEq, false_and, or_self, and_false, exists_false, false_or, true_and]
    rw [← counted_chip_is_some_iff, passed_over_iff hfinish]
    rfl
  · rw [mem_flags_line_of (by simp), mem_manual_flags, mem_manual_flags]
    simp [Typed]
    rfl
  · rw [mem_flags_line_of (by simp), mem_manual_flags, mem_manual_flags]
    simp only [reduceCtorEq, false_and, or_self, and_false, exists_false, false_or, true_and,
      or_false]
    rw [← counted_chip_is_some_iff, passed_over_iff hstart]
    rfl

/-- The manual flags are exact: each published entry has them exactly when the events it uses were
typed, and a chip was passed over for them. -/
theorem manual_flags_exact (hscore : score input = .ok entries) :
    ∃ finish start, courseLines input.checkpoints input.policy.startMode = .ok (finish, start) ∧
      ∀ entry ∈ entries,
        entry.timingEvents = [startUsed input entry.participant start,
            finishUsed input entry.participant finish].filterMap (fun event => event.map (·.id)) ∧
          ManualFlags input finish start entry := by
  obtain ⟨finish, start, hlines, rfl⟩ := score_eq_ok hscore
  refine ⟨finish, start, hlines, fun entry hentry => ?_⟩
  obtain ⟨runner, _, place, rfl⟩ := exists_line_of_mem hentry
  have hflags := manual_flags_line_of input finish start runner
  exact ⟨timing_events_line_of input finish start runner, hflags.typed_finish,
    hflags.typed_finish_over_chip, hflags.typed_start, hflags.typed_start_over_chip⟩

/-- In the sample nothing was typed. -/
theorem manual_flags_exact_sample :
    sampleEntries.map (·.flags) = [[.startReadBeforeGun], [], [], []] ∧
    ∃ finish start, courseLines sampleRace.checkpoints sampleRace.policy.startMode =
        .ok (finish, start) ∧
      ∀ entry ∈ sampleEntries,
        entry.timingEvents = [startUsed sampleRace entry.participant start,
            finishUsed sampleRace entry.participant finish].filterMap
              (fun event => event.map (·.id)) ∧
          ManualFlags sampleRace finish start entry :=
  ⟨by decide +kernel, manual_flags_exact score_sample⟩

end Splitforge.Results
