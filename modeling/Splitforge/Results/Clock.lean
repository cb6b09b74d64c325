import Splitforge.Domain.Clock
import Splitforge.Domain.Result
import Splitforge.Library.Grouping

/-!
# What the clock did to a result

A pass over finished entries that flags those whose times the device cannot vouch for. It changes
no time, status or place.
-/

namespace Splitforge.Results

open Splitforge.Domain Splitforge.Library

/-! ## Untrusted events -/

/-- Whether the device timed a read while its clock had no trustworthy source. -/
def isUntrusted (stored : StoredRawRead) : Bool :=
  match stored.read.timestampSource with
  | .deviceReceipt _ => !stored.read.deviceClockState.isTrustworthy
  | .readerUtc => false

/-- `untrusted_events`: the timing events whose time came from the device's clock while it had no
trustworthy source. -/
def untrustedEvents (reads : List StoredRawRead) (derivation : Derivation) :
    List TimingEventId :=
  let untrustedReads := (reads.filter isUntrusted).map fun stored => stored.read.id
  let crossings := accumulate (fun _ crossing => crossing.sourceRawRead)
    (fun crossing => some crossing.id) derivation.accepted
  (derivation.timingEvents.filter fun event => match event.origin with
    | .acceptedRead acceptedRead => crossings[acceptedRead]?.any fun read =>
        untrustedReads.any fun untrusted => untrusted = read
    | .manual _ => false).map (·.id)

/-- A timing event came from a crossing whose credited read is untrusted. -/
def TimedUntrusted (reads : List StoredRawRead) (derivation : Derivation) (event : TimingEvent) :
    Prop :=
  ∃ crossing ∈ derivation.accepted, event.origin = .acceptedRead crossing.id ∧
    ∃ stored ∈ reads, stored.read.id = crossing.sourceRawRead ∧ isUntrusted stored = true

/-- The untrusted events are those that came from a crossing whose credited read is untrusted. -/
theorem mem_untrusted_events {reads : List StoredRawRead} {derivation : Derivation}
    (hids : (derivation.accepted.map (·.id)).Nodup) {id : TimingEventId} :
    id ∈ untrustedEvents reads derivation ↔
      ∃ event ∈ derivation.timingEvents, event.id = id ∧ TimedUntrusted reads derivation event := by
  unfold untrustedEvents
  rw [List.mem_map]
  constructor
  · intro h
    obtain ⟨event, hevent, hid⟩ := h
    obtain ⟨hmem, hfrom⟩ := List.mem_filter.mp hevent
    refine ⟨event, hmem, hid, ?_⟩
    cases horigin : event.origin with
    | manual entry =>
        rw [horigin] at hfrom
        cases hfrom
    | acceptedRead acceptedRead =>
        rw [horigin] at hfrom
        obtain ⟨read, hread, huntrusted⟩ := (Option.any_eq_true _ _).mp hfrom
        obtain ⟨crossing, hcrossing, rfl, rfl⟩ := (get_accumulate_eq_some hids).mp hread
        obtain ⟨untrusted, hmem, heq⟩ := List.any_eq_true.mp huntrusted
        obtain ⟨stored, hstored, rfl⟩ := List.mem_map.mp hmem
        obtain ⟨hstored, hclock⟩ := List.mem_filter.mp hstored
        exact ⟨crossing, hcrossing, horigin, stored, hstored, of_decide_eq_true heq, hclock⟩
  · intro h
    obtain ⟨event, hmem, hid, crossing, hcrossing, horigin, stored, hstored, hsource, hclock⟩ := h
    refine ⟨event, List.mem_filter.mpr ⟨hmem, ?_⟩, hid⟩
    have hread := (@get_accumulate_eq_some _ _ _ _ _ AcceptedRead.sourceRawRead _ hids _ _).mpr
      ⟨crossing, hcrossing, rfl, rfl⟩
    rw [horigin]
    refine (Option.any_eq_true _ _).mpr ⟨_, hread, List.any_eq_true.mpr
      ⟨stored.read.id, ?_, decide_eq_true hsource⟩⟩
    exact List.mem_map_of_mem (List.mem_filter.mpr ⟨hstored, hclock⟩)

/-! ## Flags -/

/-- The earlier of two instants that may be missing. -/
def earliest : Option OffsetDateTime → Option OffsetDateTime → Option OffsetDateTime
  | some first, some second => some (min first second)
  | some first, none => some first
  | none, second => second

@[simp]
theorem earliest_none (first : Option OffsetDateTime) : earliest first none = first := by
  cases first <;> rfl

/-- Whether the span a step was observed across overlaps the span an entry's time was measured
across. -/
def stepApplies (since finish : OffsetDateTime) (step : ClockStep) : Bool :=
  decide (min step.observedBefore step.observedAfter ≤ finish ∧
    since ≤ max step.observedBefore step.observedAfter)

/-- What `flag_clock` adds to one entry. -/
def clockFlags (untrusted : List TimingEventId) (steps : List ClockStep)
    (gun : Option OffsetDateTime) (entry : ResultEntry) : List ResultFlag :=
  (if entry.timingEvents.any (· ∈ untrusted) then [.untrustedDeviceClock] else []) ++
    match entry.finishAt, earliest gun entry.startAt with
    | some finish, some since =>
        if steps.any (stepApplies since finish) then [.clockStepDuringResult] else []
    | _, _ => []

/-- `flag_clock`: adds the clock flags to each entry they apply to. -/
def flagClock (entries : List ResultEntry) (untrusted : List TimingEventId)
    (steps : List ClockStep) (gun : Option OffsetDateTime) : List ResultEntry :=
  entries.map fun entry =>
    { entry with flags := entry.flags ++ clockFlags untrusted steps gun entry }

/-- The pass puts the flag of an untrusted clock on the entries that rest on untrusted events. -/
theorem untrusted_mem_flags {untrusted : List TimingEventId} {steps : List ClockStep}
    {gun : Option OffsetDateTime} {entry : ResultEntry} :
    .untrustedDeviceClock ∈ clockFlags untrusted steps gun entry ↔
      ∃ id ∈ entry.timingEvents, id ∈ untrusted := by
  have hany : entry.timingEvents.any (· ∈ untrusted) = true ↔
      ∃ id ∈ entry.timingEvents, id ∈ untrusted := by
    simp only [List.any_eq_true, decide_eq_true_eq]
  rw [← hany]
  constructor
  · intro h
    rcases List.mem_append.mp h with h | h
    · split_ifs at h with huntrusted
      · exact huntrusted
      · cases h
    · -- the other flag is that of a clock step
      split at h
      · split_ifs at h <;> simp at h
      · cases h
  · intro huntrusted
    rw [clockFlags, if_pos huntrusted]
    exact List.mem_append_left _ (List.mem_singleton_self _)

/-- The pass adds no other flags. -/
theorem mem_clock_flags {untrusted : List TimingEventId} {steps : List ClockStep}
    {gun : Option OffsetDateTime} {entry : ResultEntry} {flag : ResultFlag}
    (h : flag ∈ clockFlags untrusted steps gun entry) :
    flag = .untrustedDeviceClock ∨ flag = .clockStepDuringResult := by
  rcases List.mem_append.mp h with h | h
  · split_ifs at h
    · exact Or.inl (List.mem_singleton.mp h)
    · cases h
  · split at h
    · split_ifs at h
      · exact Or.inr (List.mem_singleton.mp h)
      · cases h
    · cases h

/-- The pass puts the flag of a clock step on the entries a step applies to. -/
theorem clock_step_mem_flags {untrusted : List TimingEventId} {steps : List ClockStep}
    {gun : Option OffsetDateTime} {entry : ResultEntry} {since finish : OffsetDateTime}
    (hfinish : entry.finishAt = some finish) (hsince : earliest gun entry.startAt = some since) :
    .clockStepDuringResult ∈ clockFlags untrusted steps gun entry ↔
      ∃ step ∈ steps, min step.observedBefore step.observedAfter ≤ finish ∧
        since ≤ max step.observedBefore step.observedAfter := by
  have huntrusted : ResultFlag.clockStepDuringResult ∉
      (if entry.timingEvents.any (· ∈ untrusted) then [ResultFlag.untrustedDeviceClock]
        else []) := by
    split_ifs <;> simp
  rw [clockFlags, hfinish, hsince, List.mem_append, or_iff_right huntrusted]
  have hany : steps.any (stepApplies since finish) = true ↔
      ∃ step ∈ steps, min step.observedBefore step.observedAfter ≤ finish ∧
        since ≤ max step.observedBefore step.observedAfter := by
    simp only [List.any_eq_true, stepApplies, decide_eq_true_eq]
  rw [← hany]
  dsimp only
  split_ifs with happlies
  · exact iff_of_true (List.mem_singleton_self _) happlies
  · exact iff_of_false List.not_mem_nil happlies

end Splitforge.Results
