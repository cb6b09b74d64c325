import Mathlib.Data.List.Basic
import Mathlib.Data.Option.Basic

/-!
# Incremental scanners

A scanner takes steps on a list of input. A step takes something off the front and changes a
state, or there is none and the scanner waits for more input behind what it holds. A run takes
steps until the scanner waits. The results say when feeding input in chunks comes to the same as
running on all of it, and what a run makes of input that is made of whole frames.
-/

namespace Splitforge.Library

/-- A scanner: its step, and that a step leaves less input. -/
structure Scanner (Byte State : Type) where
  next : State → List Byte → Option (State × List Byte)
  shorter : ∀ {state input state' rest}, next state input = some (state', rest) →
    rest.length < input.length

namespace Scanner

variable {Byte State State' : Type} {scanner : Scanner Byte State}
variable {state state' : State} {input rest more : List Byte}

/-- Takes steps until the scanner waits: the state then, and the input it holds. -/
def run (scanner : Scanner Byte State) (state : State) (input : List Byte) : State × List Byte :=
  match h : scanner.next state input with
  | none => (state, input)
  | some (state', rest) =>
      have := scanner.shorter h
      scanner.run state' rest
termination_by input.length

theorem run_eq_self (h : scanner.next state input = none) :
    scanner.run state input = (state, input) := by
  rw [run]
  split
  · rfl
  · rename_i hsome
    rw [h] at hsome
    cases hsome

theorem run_eq_run (h : scanner.next state input = some (state', rest)) :
    scanner.run state input = scanner.run state' rest := by
  rw [run]
  split
  · rename_i hnone
    rw [h] at hnone
    cases hnone
  · rename_i hsome
    rw [h] at hsome
    cases hsome
    rfl

/-- The rule of runs: what holds when the scanner waits, and before a step when it holds after it,
holds of every input. -/
theorem run_induction (scanner : Scanner Byte State) {motive : State → List Byte → Prop}
    (hwait : ∀ state input, scanner.next state input = none → motive state input)
    (hstep : ∀ state input state' rest, scanner.next state input = some (state', rest) →
      motive state' rest → motive state input) (state : State) (input : List Byte) :
    motive state input := by
  -- every step leaves less input
  induction hlength : input.length using Nat.strongRecOn generalizing state input with
  | ind length ih =>
      cases h : scanner.next state input with
      | none => exact hwait state input h
      | some after =>
          have hshorter : after.2.length < input.length := scanner.shorter h
          exact hstep state input after.1 after.2 h (ih _ (hlength ▸ hshorter) _ _ rfl)

/-- Without input a scanner waits. -/
@[simp]
theorem next_nil : scanner.next state [] = none := by
  cases h : scanner.next state [] with
  | none => rfl
  | some after => exact absurd (scanner.shorter h) (Nat.not_lt_zero _)

/-- A run ends where the scanner waits. -/
theorem next_run (scanner : Scanner Byte State) (state : State) (input : List Byte) :
    scanner.next (scanner.run state input).1 (scanner.run state input).2 = none := by
  refine run_induction scanner (motive := fun state input =>
    scanner.next (scanner.run state input).1 (scanner.run state input).2 = none) ?_ ?_ state input
  · intro state input h
    rw [run_eq_self h]
    exact h
  · intro state input state' rest h ih
    rw [run_eq_run h]
    exact ih

/-- What every step keeps, a run keeps. -/
theorem run_keeps {Inv : State → List Byte → Prop}
    (hstep : ∀ {state input state' rest}, scanner.next state input = some (state', rest) →
      Inv state input → Inv state' rest) (h : Inv state input) :
    Inv (scanner.run state input).1 (scanner.run state input).2 := by
  refine run_induction scanner (motive := fun state input => Inv state input →
    Inv (scanner.run state input).1 (scanner.run state input).2) ?_ ?_ state input h
  · intro state input hnone h
    rw [run_eq_self hnone]
    exact h
  · intro state input state' rest hsome ih h
    rw [run_eq_run hsome]
    exact ih (hstep hsome h)

/-! ## Running out of steps -/

/-- Takes steps until the scanner waits, if it comes to that before so many looks at the input are
used up. -/
def runWithin (scanner : Scanner Byte State) : Nat → State → List Byte →
    Option (State × List Byte)
  | 0, _, _ => none
  | looks + 1, state, input =>
      match scanner.next state input with
      | none => some (state, input)
      | some (state', rest) => scanner.runWithin looks state' rest

/-- A scanner comes to wait, one look after its input is used up at the latest. -/
theorem run_within_eq {looks : Nat} (hlooks : input.length < looks) :
    scanner.runWithin looks state input = some (scanner.run state input) := by
  induction looks generalizing state input with
  | zero => exact absurd hlooks (Nat.not_lt_zero _)
  | succ looks ih =>
      rw [runWithin]
      cases h : scanner.next state input with
      | none => rw [run_eq_self h]
      | some after =>
          have hshorter : after.2.length < input.length := scanner.shorter h
          rw [run_eq_run h]
          exact ih (by omega)

/-! ## Related scanners -/

/-- Related states with the same input. -/
def Alike (related : State → State' → Prop) (first : State × List Byte)
    (second : State' × List Byte) : Prop :=
  related first.1 second.1 ∧ first.2 = second.2

/-- Scanners whose steps keep states related do so in runs. -/
theorem alike_run {scanner' : Scanner Byte State'} {related : State → State' → Prop}
    (hnext : ∀ state state' input, related state state' →
      Option.Rel (Alike related) (scanner.next state input) (scanner'.next state' input))
    {state : State} {state' : State'} (h : related state state') (input : List Byte) :
    Alike related (scanner.run state input) (scanner'.run state' input) := by
  refine run_induction scanner (motive := fun state input =>
    ∀ state', related state state' →
      Alike related (scanner.run state input) (scanner'.run state' input)) ?_ ?_
    state input state' h
  · intro state input hnone state' h
    have hrel := hnext state state' input h
    rw [hnone] at hrel
    cases hnone' : scanner'.next state' input with
    | none =>
        rw [run_eq_self hnone, run_eq_self hnone']
        exact ⟨h, rfl⟩
    | some after =>
        rw [hnone'] at hrel
        cases hrel
  · intro state input after rest hsome ih state' h
    have hrel := hnext state state' input h
    rw [hsome] at hrel
    cases hsome' : scanner'.next state' input with
    | none =>
        rw [hsome'] at hrel
        cases hrel
    | some after' =>
        rw [hsome'] at hrel
        cases hrel with
        | some hafter =>
            obtain ⟨hstate, rfl⟩ := hafter
            rw [run_eq_run hsome, run_eq_run hsome']
            exact ih _ hstate

/-! ## Going on from where another scanner stopped -/

/-- The states and inputs a run comes through. -/
inductive Reaches (scanner : Scanner Byte State) : State → List Byte → State → List Byte → Prop
  | refl (state : State) (input : List Byte) : Reaches scanner state input state input
  | step {state input state' rest state'' rest'} : scanner.next state input = some (state', rest) →
      Reaches scanner state' rest state'' rest' → Reaches scanner state input state'' rest'

/-- A run of one scanner and of another behind it, with more input, is like a run of the other
alone, when that is so of every step the first takes. -/
theorem alike_resume {whole : Scanner Byte State} {related : State → State → Prop}
    (hequivalence : Equivalence related) (more : List Byte) (state : State) (input : List Byte)
    (hstep : ∀ {state' held next rest}, scanner.Reaches state input state' held →
      scanner.next state' held = some (next, rest) →
        Alike related (whole.run next (rest ++ more)) (whole.run state' (held ++ more))) :
    Alike related
      (whole.run (scanner.run state input).1 ((scanner.run state input).2 ++ more))
      (whole.run state (input ++ more)) := by
  refine run_induction scanner (motive := fun state input =>
    (∀ {state' held next rest}, scanner.Reaches state input state' held →
      scanner.next state' held = some (next, rest) →
        Alike related (whole.run next (rest ++ more)) (whole.run state' (held ++ more))) →
    Alike related
      (whole.run (scanner.run state input).1 ((scanner.run state input).2 ++ more))
      (whole.run state (input ++ more))) ?_ ?_ state input hstep
  · intro state input hnone _
    rw [run_eq_self hnone]
    exact ⟨hequivalence.refl _, rfl⟩
  · intro state input state' rest hsome ih hstep
    have hfirst := hstep (.refl state input) hsome
    have hrest := ih fun hreaches => hstep (.step hsome hreaches)
    rw [run_eq_run hsome]
    exact ⟨hequivalence.trans hrest.1 hfirst.1, hrest.2.trans hfirst.2⟩

/-! ## Chunks -/

/-- Runs with one more chunk behind what is held. -/
def feed (scanner : Scanner Byte State) (held : State × List Byte) (chunk : List Byte) :
    State × List Byte :=
  scanner.run held.1 (held.2 ++ chunk)

/-- Steps do not depend on input that is yet to come, up to what relates states: a step is the
same with more input behind, or it takes all there is and going on with what comes is like not
having stopped. -/
structure Patient (scanner : Scanner Byte State) (related : State → State → Prop) : Prop where
  equivalence : Equivalence related
  next : ∀ state state' input, related state state' →
    Option.Rel (Alike related) (scanner.next state input) (scanner.next state' input)
  more : ∀ {state input state' rest}, scanner.next state input = some (state', rest) →
    ∀ more, scanner.next state (input ++ more) = some (state', rest ++ more) ∨
      rest = [] ∧ Alike related (scanner.run state' more) (scanner.run state (input ++ more))

variable {related : State → State → Prop}

/-- Going on with more input is like having had it from the start. -/
theorem Patient.run_append (h : scanner.Patient related) (state : State)
    (input more : List Byte) :
    Alike related (scanner.feed (scanner.run state input) more)
      (scanner.run state (input ++ more)) := by
  refine run_induction scanner (motive := fun state input => Alike related
    (scanner.feed (scanner.run state input) more) (scanner.run state (input ++ more))) ?_ ?_
    state input
  · intro state input hnone
    rw [run_eq_self hnone]
    exact ⟨h.equivalence.refl _, rfl⟩
  · intro state input state' rest hsome ih
    rw [run_eq_run hsome]
    rcases h.more hsome more with hmore | ⟨rfl, halike⟩
    · rw [run_eq_run hmore]
      exact ih
    · rw [run_eq_self next_nil]
      exact halike

/-- However input is cut into chunks, feeding them is like running on all of it. -/
theorem Patient.feed_chunks (h : scanner.Patient related) (state : State) (input : List Byte)
    (chunks : List (List Byte)) :
    Alike related (chunks.foldl scanner.feed (scanner.run state input))
      (scanner.run state (input ++ chunks.flatten)) := by
  -- feeding keeps what is alike so
  have hfeed : ∀ (chunks : List (List Byte)) (held held' : State × List Byte),
      Alike related held held' →
      Alike related (chunks.foldl scanner.feed held) (chunks.foldl scanner.feed held') := by
    intro chunks
    induction chunks with
    | nil => exact fun _ _ halike => halike
    | cons chunk chunks ih =>
        rintro ⟨first, held⟩ ⟨second, held'⟩ ⟨hrelated, rfl⟩
        exact ih _ _ (alike_run h.next hrelated _)
  induction chunks generalizing input with
  | nil =>
      rw [List.flatten_nil, List.append_nil]
      exact ⟨h.equivalence.refl _, rfl⟩
  | cons chunk chunks ih =>
      have hfirst := hfeed chunks _ _ (h.run_append state input chunk)
      have hrest := ih (input ++ chunk)
      rw [List.append_assoc] at hrest
      exact ⟨h.equivalence.trans hfirst.1 hrest.1, hfirst.2.trans hrest.2⟩

/-! ## Whole frames -/

variable {Frame : Type} {bytes : Frame → List Byte} {emit : State → Frame → State}

/-- The scanner takes a whole frame in one step, and waits on any part of one. -/
structure Frames (scanner : Scanner Byte State) (bytes : Frame → List Byte)
    (emit : State → Frame → State) : Prop where
  whole : ∀ state frame more,
    scanner.next state (bytes frame ++ more) = some (emit state frame, more)
  part : ∀ state frame front back, bytes frame = front ++ back → back ≠ [] →
    scanner.next state front = none

/-- A run on the front of some frames takes the whole ones, and holds the rest. -/
theorem Frames.run_front (h : scanner.Frames bytes emit) {frames : List Frame}
    {front back : List Byte} (hfront : front ++ back = frames.flatMap bytes) (state : State) :
    ∃ done left, frames = done ++ left ∧ (scanner.run state front).1 = done.foldl emit state ∧
      (scanner.run state front).2 ++ back = left.flatMap bytes := by
  induction frames generalizing front state with
  | nil =>
      obtain ⟨rfl, rfl⟩ := List.append_eq_nil_iff.mp hfront
      rw [run_eq_self next_nil]
      exact ⟨[], [], rfl, rfl, rfl⟩
  | cons frame frames ih =>
      rw [List.flatMap_cons] at hfront
      rcases List.append_eq_append_iff.mp hfront with
        ⟨back', hbytes, hback⟩ | ⟨front', hfront', hrest⟩
      · by_cases hnil : back' = []
        · -- the front is exactly the frame
          rw [hnil, List.append_nil] at hbytes
          rw [hnil, List.nil_append] at hback
          have hstep := h.whole state frame []
          rw [List.append_nil, hbytes] at hstep
          rw [run_eq_run hstep, run_eq_self next_nil]
          exact ⟨[frame], frames, rfl, rfl, hback⟩
        · -- the front is a part of the frame
          rw [run_eq_self (h.part state frame front back' hbytes hnil)]
          refine ⟨[], frame :: frames, rfl, rfl, ?_⟩
          rw [List.flatMap_cons]
          exact hfront
      · -- the front goes on behind the frame
        rw [hfront', run_eq_run (h.whole state frame front')]
        obtain ⟨done, left, rfl, hstate, hleft⟩ := ih hrest.symm (emit state frame)
        exact ⟨frame :: done, left, rfl, hstate, hleft⟩

/-- However whole frames are cut into chunks, feeding them takes exactly those frames and holds
nothing. -/
theorem Frames.feed_chunks (h : scanner.Frames bytes emit) {frames : List Frame}
    {chunks : List (List Byte)} (hchunks : chunks.flatten = frames.flatMap bytes)
    (state : State) :
    chunks.foldl scanner.feed (state, []) = (frames.foldl emit state, []) := by
  have hheld : ∀ (chunks : List (List Byte)) (frames : List Frame) (state : State)
      (held : List Byte), scanner.next state held = none →
      held ++ chunks.flatten = frames.flatMap bytes →
      chunks.foldl scanner.feed (state, held) = (frames.foldl emit state, []) := by
    intro chunks
    induction chunks with
    | nil =>
        intro frames state held hwait hheld
        rw [List.flatten_nil, List.append_nil] at hheld
        cases frames with
        | nil =>
            rw [hheld]
            rfl
        | cons frame frames =>
            -- a whole frame is not waited on
            rw [hheld, List.flatMap_cons, h.whole] at hwait
            cases hwait
    | cons chunk chunks ih =>
        intro frames state held hwait hheld
        rw [List.flatten_cons, ← List.append_assoc] at hheld
        obtain ⟨done, left, rfl, hstate, hleft⟩ := h.run_front hheld state
        have hrest := ih left _ _ (next_run scanner state (held ++ chunk)) hleft
        rw [List.foldl_cons, List.foldl_append, ← hstate]
        exact hrest
  exact hheld chunks frames state [] next_nil hchunks

end Scanner

end Splitforge.Library
