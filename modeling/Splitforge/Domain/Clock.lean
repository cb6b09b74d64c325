import Splitforge.Domain.Time

/-!
# Clock steps

The wall clock jumps when something corrects it, and the monotonic clock does not. A step is seen
by reading both clocks twice and comparing how far each has moved, in whole milliseconds.
-/

namespace Splitforge.Domain

/-- `STEP_THRESHOLD_MS`: how far the two clocks must disagree before it counts as a step. -/
def stepThresholdMs : Int := 250

/-- `i64::saturating_sub`. -/
def saturatingSub (first second : Int) : Int := max i64Min (min i64Max (first - second))

/-- A number without its sign. -/
def magnitude (value : Int) : Int := max value (-value)

/-- `i64::saturating_abs`. -/
def saturatingAbs (value : Int) : Int := min i64Max (magnitude value)

/-- One observed discontinuity between the wall clock and the monotonic clock. -/
structure ClockStep where
  observedBefore : OffsetDateTime
  observedAfter : OffsetDateTime
  monotonicMs : Nat
  stepMs : Int
deriving DecidableEq

/-- `ClockStep::detect`: compares one pair of samples. -/
def ClockStep.detect (observedBefore observedAfter : OffsetDateTime) (monotonicMs : Nat) :
    Option ClockStep :=
  let wallMs := i64OrMax (observedAfter - observedBefore).wholeMilliseconds
  let monotonic := i64OrMax monotonicMs
  let stepMs := saturatingSub wallMs monotonic
  if stepThresholdMs < saturatingAbs stepMs then
    some ⟨observedBefore, observedAfter, monotonicMs, stepMs⟩
  else none

/-- Saturation hides no step: two samples are a step when their whole milliseconds disagree by
more than the threshold. -/
theorem ClockStep.detect_is_some (observedBefore observedAfter : OffsetDateTime)
    (monotonicMs : Nat) :
    (ClockStep.detect observedBefore observedAfter monotonicMs).isSome ↔
      stepThresholdMs <
        magnitude ((observedAfter - observedBefore).wholeMilliseconds - monotonicMs) := by
  have hwall := OffsetDateTime.i64_or_max_sub observedAfter observedBefore
  have hbounds := observedAfter.abs_whole_milliseconds_le observedBefore
  rw [ClockStep.detect, hwall]
  generalize (observedAfter - observedBefore).wholeMilliseconds = wallMs at *
  simp only [stepThresholdMs, saturatingAbs, saturatingSub, magnitude, i64OrMax, i64Min, i64Max]
  split_ifs <;> simp <;> omega

/-- What is seen of a step is what was sampled. -/
theorem ClockStep.observed_of_detect {observedBefore observedAfter : OffsetDateTime}
    {monotonicMs : Nat} {step : ClockStep}
    (h : ClockStep.detect observedBefore observedAfter monotonicMs = some step) :
    step.observedBefore = observedBefore ∧ step.observedAfter = observedAfter := by
  rw [ClockStep.detect] at h
  split_ifs at h
  cases h
  exact ⟨rfl, rfl⟩

end Splitforge.Domain
