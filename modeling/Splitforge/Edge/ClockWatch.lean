import Splitforge.Results.Clock
import Splitforge.Storage.Connection

/-!
# Watching the clock

The service samples both clocks, and records a step where they have moved apart. A result is
flagged by comparing readings of the wall clock, which the jumps themselves have moved: a window
with a jump inside an entry's time is hidden from the entry when the clock read later at both of
its samples than at the finish, or earlier than where the entry's time begins.
-/

namespace Splitforge.Edge

open Splitforge.Domain Splitforge.Storage Splitforge.Results

/-- A jump of the wall clock, at an instant of the monotonic clock. -/
structure Jump where
  «at» : Nat
  size : Int
  moves : size ≠ 0

/-- A wall clock that follows monotonic time except for jumps, both in nanoseconds. -/
structure WallClock where
  origin : Int
  jumps : List Jump

/-- How far the jumps of a span have moved the clock. -/
def WallClock.moved (clock : WallClock) (after upTo : Nat) : Int :=
  ((clock.jumps.filter fun jump => after < jump.at ∧ jump.at ≤ upTo).map (·.size)).sum

/-- What the clock reads, in nanoseconds since the Unix epoch. -/
def WallClock.reads (clock : WallClock) (instant : Nat) : Int :=
  clock.origin + instant +
    ((clock.jumps.filter fun jump => jump.at ≤ instant).map (·.size)).sum

/-- Both clocks read at one instant. -/
structure Reading (clock : WallClock) where
  instant : Nat
  shown : OffsetDateTime
  reads : shown.nanos = clock.reads instant

/-- The samples of a service, at increasing instants. -/
structure Watch (clock : WallClock) where
  baseline : Reading clock
  samples : List (Reading clock)
  increasing : (baseline :: samples).Pairwise fun first second => first.instant < second.instant

/-- Two consecutive samples. -/
abbrev Window (clock : WallClock) := Reading clock × Reading clock

/-- The windows of a service. -/
def Watch.windows {clock : WallClock} (watch : Watch clock) : List (Window clock) :=
  (watch.baseline :: watch.samples).zip watch.samples

/-- `record_clock_step`: a step as its row holds it, in whole microseconds. -/
def recordClockStep (step : ClockStep) : ClockStep :=
  { step with
    observedBefore := wholeMicros step.observedBefore
    observedAfter := wholeMicros step.observedAfter }

/-- The monotonic milliseconds of a window, as a `u64`. -/
def Window.monotonicMs {clock : WallClock} (window : Window clock) : Nat :=
  min ((window.2.instant - window.1.instant) / 1000000) (2 ^ 64 - 1)

/-- `watch_the_clock`: the steps it records, each sample against the one before it. -/
def watchTheClock {clock : WallClock} : Reading clock → List (Reading clock) → List ClockStep
  | _, [] => []
  | baseline, current :: samples =>
      ((ClockStep.detect baseline.shown current.shown
          (Window.monotonicMs (baseline, current))).map recordClockStep).toList ++
        watchTheClock current samples

/-- The steps a service has recorded. -/
def Watch.recorded {clock : WallClock} (watch : Watch clock) : List ClockStep :=
  watchTheClock watch.baseline watch.samples

/-- An entry whose time is measured from one stamp of the wall clock to another: from the gun when
there is no start, else from its start, to its finish. A stamp stands in whole microseconds, as
its column holds it. -/
structure Timed (clock : WallClock) (gun : Option OffsetDateTime) where
  entry : ResultEntry
  basis : Reading clock
  finish : Reading clock
  measuredFrom : entry.startAt.or gun = some (wholeMicros basis.shown)
  measuredTo : entry.finishAt = some (wholeMicros finish.shown)

variable {clock : WallClock} {gun : Option OffsetDateTime}

/-- A window with a jump behind the basis and before the finish, and whose jumps together come to
more than the threshold. -/
def Window.Crossed (window : Window clock) (timed : Timed clock gun) : Prop :=
  (∃ jump ∈ clock.jumps, window.1.instant < jump.at ∧ jump.at ≤ window.2.instant ∧
      timed.basis.instant < jump.at ∧ jump.at < timed.finish.instant) ∧
    stepThresholdMs * 1000000 < magnitude (clock.moved window.1.instant window.2.instant)

/-- How far the two clocks disagree over a window, in whole milliseconds of each. -/
def Window.divergenceMs (window : Window clock) : Int :=
  (window.2.shown - window.1.shown).wholeMilliseconds - window.monotonicMs

/-- What hides a window from an entry: whole milliseconds bring its divergence down to the
threshold, or the clock read later at both samples than at the finish, or earlier than where the
entry's span begins. -/
inductive Window.Hidden (window : Window clock) (timed : Timed clock gun) : Prop where
  | small (h : magnitude window.divergenceMs ≤ stepThresholdMs)
  | behind (hbefore : wholeMicros timed.finish.shown < wholeMicros window.1.shown)
      (hafter : wholeMicros timed.finish.shown < wholeMicros window.2.shown)
  | ahead (h : ∀ since ∈ earliest gun timed.entry.startAt,
      wholeMicros window.1.shown < since ∧ wholeMicros window.2.shown < since)

/-! ## What is recorded -/

/-- A recorded step is one that was detected over a window. -/
theorem mem_watch_the_clock {baseline : Reading clock} {samples : List (Reading clock)}
    {step : ClockStep} :
    step ∈ watchTheClock baseline samples ↔
      ∃ window ∈ (baseline :: samples).zip samples, ∃ seen,
        ClockStep.detect window.1.shown window.2.shown (Window.monotonicMs window) = some seen ∧
          step = recordClockStep seen := by
  induction samples generalizing baseline with
  | nil => simp [watchTheClock]
  | cons current samples ih =>
      rw [watchTheClock, List.zip_cons_cons, List.mem_append, ih, Option.mem_toList,
        Option.map_eq_some_iff]
      simp only [List.mem_cons, exists_eq_or_imp, eq_comm]

/-- A window that is not hidden is one whose step is recorded and applies. -/
theorem Window.not_hidden_iff {window : Window clock} {timed : Timed clock gun}
    {since : OffsetDateTime} (hsince : earliest gun timed.entry.startAt = some since) :
    ¬ window.Hidden timed ↔ stepThresholdMs < magnitude window.divergenceMs ∧
      min (wholeMicros window.1.shown) (wholeMicros window.2.shown) ≤
        wholeMicros timed.finish.shown ∧
      since ≤ max (wholeMicros window.1.shown) (wholeMicros window.2.shown) := by
  rw [min_le_iff, le_max_iff]
  constructor
  · intro hnot
    refine ⟨?_, ?_, ?_⟩
    · by_contra hsmall
      exact hnot (.small (not_lt.mp hsmall))
    · by_contra hbehind
      rw [not_or, not_le, not_le] at hbehind
      exact hnot (.behind hbehind.1 hbehind.2)
    · by_contra hahead
      rw [not_or, not_le, not_le] at hahead
      refine hnot (.ahead fun other hother => ?_)
      rw [hsince] at hother
      cases hother
      exact hahead
  · rintro ⟨hlarge, hfinish, hbegin⟩ (hsmall | ⟨hbefore, hafter⟩ | hahead)
    · exact absurd hlarge (not_lt.mpr hsmall)
    · exact hfinish.elim (not_le.mpr hbefore) (not_le.mpr hafter)
    · obtain ⟨hbefore, hafter⟩ := hahead since hsince
      exact hbegin.elim (not_le.mpr hbefore) (not_le.mpr hafter)

/-- An entry's span begins somewhere, no later than its basis. -/
theorem Timed.earliest_eq (timed : Timed clock gun) :
    ∃ since, earliest gun timed.entry.startAt = some since ∧
      since ≤ wholeMicros timed.basis.shown := by
  have hbasis := timed.measuredFrom
  cases hstart : timed.entry.startAt with
  | none =>
      rw [hstart, Option.none_or] at hbasis
      exact ⟨_, (earliest_none gun).trans hbasis, le_rfl⟩
  | some start =>
      rw [hstart, Option.some_or] at hbasis
      cases hbasis
      cases gun with
      | none => exact ⟨_, rfl, le_rfl⟩
      | some gun => exact ⟨_, rfl, min_le_right _ _⟩

/-- An entry is flagged when some window is not hidden from it. -/
theorem clock_step_flag_iff (watch : Watch clock) (untrusted : List TimingEventId)
    (timed : Timed clock gun) :
    .clockStepDuringResult ∈ clockFlags untrusted watch.recorded gun timed.entry ↔
      ∃ window ∈ watch.windows, ¬ window.Hidden timed := by
  obtain ⟨since, hsince, _⟩ := timed.earliest_eq
  rw [clock_step_mem_flags timed.measuredTo hsince]
  constructor
  · rintro ⟨step, hstep, hfinish, hbegin⟩
    obtain ⟨window, hwindow, seen, hseen, rfl⟩ := mem_watch_the_clock.mp hstep
    obtain ⟨hbefore, hafter⟩ := ClockStep.observed_of_detect hseen
    have hlarge := (ClockStep.detect_is_some _ _ _).mp (Option.isSome_iff_exists.mpr ⟨_, hseen⟩)
    rw [recordClockStep, hbefore, hafter] at hfinish hbegin
    exact ⟨window, hwindow, (Window.not_hidden_iff hsince).mpr ⟨hlarge, hfinish, hbegin⟩⟩
  · rintro ⟨window, hwindow, hnot⟩
    obtain ⟨hlarge, hfinish, hbegin⟩ := (Window.not_hidden_iff hsince).mp hnot
    obtain ⟨seen, hseen⟩ := Option.isSome_iff_exists.mp
      ((ClockStep.detect_is_some _ _ _).mpr hlarge)
    obtain ⟨hbefore, hafter⟩ := ClockStep.observed_of_detect hseen
    refine ⟨recordClockStep seen, mem_watch_the_clock.mpr ⟨window, hwindow, seen, hseen, rfl⟩, ?_⟩
    rw [recordClockStep, hbefore, hafter]
    exact ⟨hfinish, hbegin⟩

/-! ## A clock that never goes back -/

/-- Between two instants the clock moves by the time and by the jumps. -/
theorem WallClock.reads_eq (clock : WallClock) {earlier later : Nat} (h : earlier ≤ later) :
    clock.reads later = clock.reads earlier + ((later : Int) - earlier) +
      clock.moved earlier later := by
  have hsum : ((clock.jumps.filter fun jump => jump.at ≤ later).map (·.size)).sum =
      ((clock.jumps.filter fun jump => jump.at ≤ earlier).map (·.size)).sum +
        clock.moved earlier later := by
    rw [WallClock.moved]
    induction clock.jumps with
    | nil => rfl
    | cons jump jumps ih =>
        simp only [List.filter_cons, decide_eq_true_eq]
        by_cases hbefore : jump.at ≤ earlier
        · rw [if_pos (le_trans hbefore h), if_pos hbefore, if_neg (by omega), List.map_cons,
            List.map_cons, List.sum_cons, List.sum_cons, ih, add_assoc]
        · by_cases hupTo : jump.at ≤ later
          · rw [if_pos hupTo, if_neg hbefore, if_pos ⟨by omega, hupTo⟩, List.map_cons,
              List.map_cons, List.sum_cons, List.sum_cons, ih, add_left_comm]
          · rw [if_neg hupTo, if_neg hbefore, if_neg (by omega), ih]
  rw [WallClock.reads, WallClock.reads, hsum]
  omega

theorem whole_micros_le {first second : OffsetDateTime} (h : first.nanos ≤ second.nanos) :
    wholeMicros first ≤ wholeMicros second := by
  rw [OffsetDateTime.le_iff]
  simp only [wholeMicros]
  omega

/-- Where the clock never goes back, a window with a jump of at least a millisecond more than the
threshold inside an entry's time is not hidden from it. -/
theorem Window.Crossed.not_hidden {window : Window clock} {timed : Timed clock gun}
    (h : window.Crossed timed) (horder : window.1.instant < window.2.instant)
    (hforward : ∀ earlier later, earlier ≤ later → clock.reads earlier ≤ clock.reads later)
    (hmoved : (stepThresholdMs + 1) * 1000000 ≤
      magnitude (clock.moved window.1.instant window.2.instant)) : ¬ window.Hidden timed := by
  obtain ⟨⟨jump, _, hopen, hclose, hbasis, hfinish⟩, _⟩ := h
  obtain ⟨since, hsince, hbegin⟩ := timed.earliest_eq
  rw [Window.not_hidden_iff hsince]
  have hback := hforward _ _ (le_of_lt horder)
  have hreads := clock.reads_eq (le_of_lt horder)
  refine ⟨?_, ?_, ?_⟩
  · have hwall : (window.2.shown - window.1.shown).wholeMilliseconds =
        (clock.reads window.2.instant - clock.reads window.1.instant) / 1000000 := by
      rw [Duration.wholeMilliseconds, OffsetDateTime.sub_nanos, window.1.reads, window.2.reads,
        Int.tdiv_eq_ediv_of_nonneg (by omega)]
    have hbounds := window.2.shown.abs_whole_milliseconds_le window.1.shown
    rw [Window.divergenceMs, Window.monotonicMs]
    rw [hwall] at hbounds ⊢
    simp only [magnitude, stepThresholdMs] at hmoved ⊢
    omega
  · refine le_trans (min_le_left _ _) (whole_micros_le ?_)
    rw [window.1.reads, timed.finish.reads]
    exact hforward _ _ (by omega)
  · refine le_trans hbegin (le_trans (whole_micros_le ?_) (le_max_right _ _))
    rw [timed.basis.reads, window.2.reads]
    exact hforward _ _ (by omega)

theorem lt_of_mem_zip {baseline : Reading clock} {samples : List (Reading clock)}
    (h : (baseline :: samples).Pairwise fun first second => first.instant < second.instant)
    {window : Window clock} (hwindow : window ∈ (baseline :: samples).zip samples) :
    window.1.instant < window.2.instant := by
  induction samples generalizing baseline with
  | nil => cases hwindow
  | cons current samples ih =>
      obtain ⟨hfirst, hrest⟩ := List.pairwise_cons.mp h
      rw [List.zip_cons_cons, List.mem_cons] at hwindow
      rcases hwindow with rfl | hwindow
      · exact hfirst current List.mem_cons_self
      · exact ih hrest hwindow

/-- A window is between increasing instants. -/
theorem Watch.lt_of_mem_windows (watch : Watch clock) {window : Window clock}
    (h : window ∈ watch.windows) : window.1.instant < window.2.instant :=
  lt_of_mem_zip watch.increasing h

/-- Where the clock never goes back, an entry whose time contains a jump of a window that comes to
a millisecond more than the threshold is flagged. -/
theorem clock_step_flag_of_forward (watch : Watch clock) (untrusted : List TimingEventId)
    {timed : Timed clock gun} {window : Window clock} (hwindow : window ∈ watch.windows)
    (hcrossed : window.Crossed timed)
    (hforward : ∀ earlier later, earlier ≤ later → clock.reads earlier ≤ clock.reads later)
    (hmoved : (stepThresholdMs + 1) * 1000000 ≤
      magnitude (clock.moved window.1.instant window.2.instant)) :
    .clockStepDuringResult ∈ clockFlags untrusted watch.recorded gun timed.entry :=
  (clock_step_flag_iff watch untrusted timed).mpr
    ⟨window, hwindow, hcrossed.not_hidden (watch.lt_of_mem_windows hwindow) hforward hmoved⟩

/-! ## Entries across a jump -/

/-- A clock that is set back fifty seconds between two samples. -/
def setBack : WallClock := ⟨5000000000, [⟨96000000000, -50000000000, by decide⟩]⟩

/-- A sample before the clock is set back, and the next one. -/
def setBackWatch : Watch setBack where
  baseline := ⟨95000000000, second 100, by decide⟩
  samples := [⟨105000000000, second 60, by decide⟩]
  increasing := by simp

/-- A runner who starts with the clock at five seconds, and finishes just after it was set back,
with the clock at fifty-two. -/
def setBackRunner : Timed setBack none where
  entry :=
    { participant := ⟨.fromU128 1⟩, bib := ⟨"7"⟩, name := "Ana", status := .finished
      statusSource := .derived, statusReason := none
      startAt := some (wholeMicros (second 5)), finishAt := some (wholeMicros (second 52))
      gunTimeMs := none, chipTimeMs := some 47000, scoringTimeMs := some 47000
      place := some 1, flags := [], timingEvents := [] }
  basis := ⟨0, second 5, by decide⟩
  finish := ⟨97000000000, second 52, by decide⟩
  measuredFrom := rfl
  measuredTo := rfl

end Splitforge.Edge
