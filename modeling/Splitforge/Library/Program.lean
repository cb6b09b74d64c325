import Mathlib.Logic.Basic

/-!
# Programs that ask

A program asks its surroundings for one thing after another, and goes on from each answer. What it
is asked in and what is answered are for the surroundings to say, so one program can be run alone,
in steps between those of others, or until it dies at some point. `Meets` is its precondition for a
claim about every operation and about the value, and it is read off the program from its end.
-/

namespace Splitforge.Library

/-- A program that asks for operations, and returns a value. -/
inductive Program (Op : Type) (Answer : Op → Type) (Value : Type) where
  | done (value : Value)
  | ask (op : Op) (next : Answer op → Program Op Answer Value)

namespace Program

variable {Op : Type} {Answer : Op → Type} {Value World Choice : Type}

section Surroundings

-- what comes of an operation, as the surroundings choose; no answer is the end of the program
variable (perform : World → (op : Op) → Choice → Option (Answer op × World))

/-- Runs a program as long as there are choices: the value it returned, if it came to that, and the
state it left. -/
def run : Program Op Answer Value → World → List Choice → Option Value × World
  | .done value, world, _ => (some value, world)
  | .ask _ _, world, [] => (none, world)
  | .ask op next, world, choice :: choices =>
      match perform world op choice with
      | none => (none, world)
      | some (answer, world) => (next answer).run world choices

/-- Every operation comes in a state that it may be asked in, and the value in one that it may be
returned in. -/
def Meets (may : World → Op → Prop) (post : Value → World → Prop) :
    Program Op Answer Value → World → Prop
  | .done value, world => post value world
  | .ask op next, world => may world op ∧ ∀ choice answer world',
      perform world op choice = some (answer, world') → (next answer).Meets may post world'

end Surroundings

variable {perform : World → (op : Op) → Choice → Option (Answer op × World)}
variable {may may' : World → Op → Prop} {post post' : Value → World → Prop}
variable {program : Program Op Answer Value} {world world' : World}

/-- A run goes on from the answer. -/
theorem run_ask {op : Op} {next : Answer op → Program Op Answer Value} {choice : Choice}
    {choices : List Choice} {answer : Answer op}
    (h : perform world op choice = some (answer, world')) :
    (Program.ask op next).run perform world (choice :: choices) =
      (next answer).run perform world' choices := by
  rw [Program.run, h]

/-- A program that meets its claims returns its value in a state it may be returned in. -/
theorem Meets.returned (h : program.Meets perform may post world) {choices : List Choice}
    {value : Value} (hrun : program.run perform world choices = (some value, world')) :
    post value world' := by
  induction program generalizing world choices with
  | done value' =>
      cases hrun
      exact h
  | ask op next ih =>
      cases choices with
      | nil => cases hrun
      | cons choice choices =>
          unfold run at hrun
          cases hperform : perform world op choice with
          | none =>
              rw [hperform] at hrun
              cases hrun
          | some result =>
              rw [hperform] at hrun
              exact ih result.1 (h.2 choice result.1 result.2 hperform) hrun

/-- A program that dies leaves a state that it was in when it asked for something. -/
theorem Meets.died (h : program.Meets perform may post world) {choices : List Choice}
    (hrun : program.run perform world choices = (none, world')) : ∃ op, may world' op := by
  induction program generalizing world choices with
  | done value => cases hrun
  | ask op next ih =>
      cases choices with
      | nil =>
          cases hrun
          exact ⟨op, h.1⟩
      | cons choice choices =>
          unfold run at hrun
          cases hperform : perform world op choice with
          | none =>
              rw [hperform] at hrun
              cases hrun
              exact ⟨op, h.1⟩
          | some result =>
              rw [hperform] at hrun
              exact ih result.1 (h.2 choice result.1 result.2 hperform) hrun

/-- A run seen through a view of the state is a run of what is seen. -/
theorem run_view {Seen : Type}
    {perform' : Seen → (op : Op) → Choice → Option (Answer op × Seen)} (view : World → Seen)
    (hview : ∀ world op choice,
      (perform world op choice).map (fun result => (result.1, view result.2)) =
        perform' (view world) op choice) {choices : List Choice} :
    Prod.map id view (program.run perform world choices) =
      program.run perform' (view world) choices := by
  induction program generalizing world choices with
  | done value => rfl
  | ask op next ih =>
      cases choices with
      | nil => rfl
      | cons choice choices =>
          have hstep := hview world op choice
          unfold run
          cases hperform : perform world op choice with
          | none =>
              rw [hperform] at hstep
              rw [← hstep]
              rfl
          | some result =>
              rw [hperform] at hstep
              rw [← hstep]
              exact ih result.1

/-- Claims may be weakened. -/
theorem Meets.mono (h : program.Meets perform may post world)
    (hmay : ∀ world op, may world op → may' world op)
    (hpost : ∀ value world, post value world → post' value world) :
    program.Meets perform may' post' world := by
  induction program generalizing world with
  | done value => exact hpost value world h
  | ask op next ih =>
      exact ⟨hmay world op h.1, fun choice answer world' hperform =>
        ih answer (h.2 choice answer world' hperform)⟩

/-- What every allowed operation keeps, a program keeps. -/
theorem Meets.keep (h : program.Meets perform may post world) (Inv : World → Prop)
    (hinv : Inv world)
    (hstep : ∀ world op choice answer world', Inv world → may world op →
      perform world op choice = some (answer, world') → Inv world') :
    program.Meets perform (fun world op => Inv world ∧ may world op)
      (fun value world => Inv world ∧ post value world) world := by
  induction program generalizing world with
  | done value => exact ⟨hinv, h⟩
  | ask op next ih =>
      exact ⟨⟨hinv, h.1⟩, fun choice answer world' hperform =>
        ih answer (h.2 choice answer world' hperform)
          (hstep world op choice answer world' hinv h.1 hperform)⟩

/-- What every allowed operation keeps holds wherever a run stops. -/
theorem Meets.keep_run (h : program.Meets perform may post world) (Inv : World → Prop)
    (hinv : Inv world)
    (hstep : ∀ world op choice answer world', Inv world → may world op →
      perform world op choice = some (answer, world') → Inv world') (choices : List Choice) :
    Inv (program.run perform world choices).2 := by
  have hkeep := h.keep Inv hinv hstep
  cases hrun : program.run perform world choices with
  | mk value world' =>
      cases value with
      | none =>
          obtain ⟨op, hop⟩ := hkeep.died hrun
          exact hop.1
      | some value => exact (hkeep.returned hrun).1

/-- Claims about coarser surroundings, which see a part of the state and may answer more. -/
theorem Meets.refine {Coarse Choice' : Type}
    {perform' : Coarse → (op : Op) → Choice' → Option (Answer op × Coarse)} (view : World → Coarse)
    {may : Coarse → Op → Prop} {post : Value → Coarse → Prop}
    (h : program.Meets perform' may post (view world))
    (hsim : ∀ world op choice answer world', perform world op choice = some (answer, world') →
      ∃ choice', perform' (view world) op choice' = some (answer, view world')) :
    program.Meets perform (fun world => may (view world))
      (fun value world => post value (view world)) world := by
  induction program generalizing world with
  | done value => exact h
  | ask op next ih =>
      refine ⟨h.1, fun choice answer world' hperform => ?_⟩
      obtain ⟨choice', hperform'⟩ := hsim world op choice answer world' hperform
      exact ih answer (h.2 choice' answer (view world') hperform')

end Program

end Splitforge.Library
