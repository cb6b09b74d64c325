import Mathlib.Data.List.Basic

/-!
# Runs of a step function

A run folds a step function over a list of events. An invariant that every allowed event keeps
holds after every run of allowed events, and so in every state such a run goes through.
-/

namespace Splitforge.Library

variable {State Event : Type}

/-- The state after a list of events. -/
def run (step : State → Event → State) (state : State) (events : List Event) : State :=
  events.foldl step state

/-- Every event is allowed in the state it happens in. -/
def Allowed (step : State → Event → State) (allowed : State → Event → Prop) :
    State → List Event → Prop
  | _, [] => True
  | state, event :: events =>
      allowed state event ∧ Allowed step allowed (step state event) events

variable {step : State → Event → State} {allowed : State → Event → Prop}

@[simp]
theorem run_nil (state : State) : run step state [] = state := rfl

@[simp]
theorem run_cons (state : State) (event : Event) (events : List Event) :
    run step state (event :: events) = run step (step state event) events := rfl

@[simp]
theorem run_append (state : State) (first second : List Event) :
    run step state (first ++ second) = run step (run step state first) second :=
  List.foldl_append

/-- A run is allowed when its first part is, and its rest from there. -/
theorem allowed_append (state : State) (first second : List Event) :
    Allowed step allowed state (first ++ second) ↔
      Allowed step allowed state first ∧ Allowed step allowed (run step state first) second := by
  induction first generalizing state with
  | nil => simp [Allowed]
  | cons event first ih => simp [Allowed, ih, and_assoc]

/-- The part of an allowed run up to any point is allowed. -/
theorem Allowed.before {state : State} {events first : List Event}
    (h : Allowed step allowed state events) (hfirst : first <+: events) :
    Allowed step allowed state first := by
  obtain ⟨second, rfl⟩ := hfirst
  exact ((allowed_append state first second).mp h).1

/-- A run that is allowed in two ways is allowed in both at once. -/
theorem Allowed.and {also : State → Event → Prop} {state : State} {events : List Event}
    (h : Allowed step allowed state events) (halso : Allowed step also state events) :
    Allowed step (fun state event => allowed state event ∧ also state event) state events := by
  induction events generalizing state with
  | nil => trivial
  | cons event events ih => exact ⟨⟨h.1, halso.1⟩, ih h.2 halso.2⟩

/-- What every allowed event keeps, every allowed run keeps. -/
theorem run_invariant {invariant : State → Prop}
    (hstep : ∀ state event, invariant state → allowed state event → invariant (step state event))
    {state : State} {events : List Event} (hstate : invariant state)
    (hallowed : Allowed step allowed state events) : invariant (run step state events) := by
  induction events generalizing state with
  | nil => exact hstate
  | cons event events ih =>
      obtain ⟨hevent, hevents⟩ := hallowed
      exact ih (hstep state event hstate hevent) hevents

/-- What every event keeps, every run keeps. -/
theorem run_keeps {invariant : State → Prop}
    (hstep : ∀ state event, invariant state → invariant (step state event)) {state : State}
    (hstate : invariant state) (events : List Event) : invariant (run step state events) := by
  induction events generalizing state with
  | nil => exact hstate
  | cons event events ih => exact ih (hstep state event hstate)

end Splitforge.Library
