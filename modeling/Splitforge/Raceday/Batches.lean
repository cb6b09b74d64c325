import Splitforge.Library.Fallible
import Splitforge.Library.Sorting
import Splitforge.Raceday.Ship

/-!
# Batches

The batches of a pass name each runner whose crossings differ from what was sent, once, and carry
exactly what that runner has now.
-/

namespace Splitforge.Raceday

open Std (ExtTreeMap)
open Splitforge.Domain Splitforge.Library

variable {Metres : Type}

/-- The runner of a crossing. -/
def runnerOf (crossing : Crossing) : RunnerRef :=
  ⟨crossing.distanceKey, crossing.bib⟩

/-- What a table has for a runner, who may have nothing. -/
def crossingsOf (table : ByRunner) (runner : RunnerRef) : List Crossing :=
  table[runner]?.getD []

/-! ## Crossings stand under their runner -/

/-- An event publishes nothing, or one crossing of the mat it happened at. -/
theorem add_crossing_cases (config : RaceConfig) (course : Course Metres)
    (placed : ExtTreeMap CheckpointId (Placed Metres)) (out : Crossings) (event : TimingEvent) :
    (addCrossing config course placed out event).runners = out.runners ∨
      ∃ (mat : Placed Metres) (crossing : Crossing), placed[event.checkpoint]? = some mat ∧
        crossing.distanceKey = course.key ∧
        crossing.pointKey = mat.point.key ∧
        (addCrossing config course placed out event).runners =
          push out.runners (runnerOf crossing) crossing := by
  unfold addCrossing
  split
  · exact .inl rfl
  · next mat hmat =>
      split_ifs
      · exact .inl rfl
      · split
        · exact .inl rfl
        · next participant _ =>
            dsimp only
            split_ifs
            · exact .inl rfl
            · exact .inr ⟨mat, ⟨course.key, mat.point.key, participant.bib.text,
                unlessBlank participant.name, config.gunTime.bind fun gun => elapsedMs gun event.at,
                event.at, event.lap⟩, hmat, rfl, rfl, rfl⟩

section Crossings

variable [Meters Metres]

/-- What every crossing of a mat of the race satisfies under its runner, everything that
`crossings` publishes satisfies. -/
theorem every_crossing {config : RaceConfig} {course : Course Metres} {events : List TimingEvent}
    {placed : ExtTreeMap CheckpointId (Placed Metres)} {published : Crossings}
    (hpoints : points config course = .ok placed)
    (h : crossings config course events = .ok published) {Fits : RunnerRef → Crossing → Prop}
    (hfits : ∀ (id : CheckpointId) (mat : Placed Metres) (crossing : Crossing),
      placed[id]? = some mat → crossing.distanceKey = course.key →
        crossing.pointKey = mat.point.key → Fits (runnerOf crossing) crossing) :
    EveryItem Fits published.runners := by
  unfold crossings at h
  rw [hpoints] at h
  cases h
  have hfold : ∀ (events : List TimingEvent) (out : Crossings), EveryItem Fits out.runners →
      EveryItem Fits (events.foldl (addCrossing config course placed) out).runners := by
    intro events out hout
    induction events generalizing out with
    | nil => exact hout
    | cons event events ih =>
        refine ih _ ?_
        rcases add_crossing_cases config course placed out event with
          hsame | ⟨mat, crossing, hmat, hdistance, hpoint, hpushed⟩
        · rw [hsame]
          exact hout
        · rw [hpushed]
          exact hout.push (hfits _ mat crossing hmat hdistance hpoint)
  exact (hfold events ⟨∅, []⟩ every_item_empty).map fun _ _ _ => mem_sort_by_key.mp

/-- What `crossings` publishes stands under its runners. -/
theorem keyed_crossings {config : RaceConfig} {course : Course Metres} {events : List TimingEvent}
    {published : Crossings} (h : crossings config course events = .ok published) :
    KeyedBy runnerOf published.runners := by
  obtain ⟨placed, hpoints, _⟩ := exists_of_bind h
  exact every_crossing hpoints h fun _ _ _ _ _ _ => rfl

/-- What a pass finds stands under its runners. -/
theorem keyed_crossings_now {derived : List (Derived Metres)} {now : ByRunner}
    (h : crossingsNow derived = .ok now) : KeyedBy runnerOf now := by
  refine keep_of_fold_m h keyed_by_empty ?_
  intro now race next hnow hrace
  cases hpublished : crossings race.config race.course race.events with
  | error error =>
      rw [hpublished] at hrace
      cases hrace
  | ok published =>
      rw [hpublished] at hrace
      cases hrace
      exact hnow.extend (keyed_crossings hpublished)

end Crossings

/-! ## What changed -/

/-- A runner has changed who does not have what was sent. -/
theorem mem_changed {sent now : ByRunner} {runner : RunnerRef} :
    runner ∈ changed sent now ↔ sent[runner]? ≠ now[runner]? := by
  unfold changed
  rw [mem_sort_by_key, List.mem_append, List.mem_map, List.mem_filter, mem_keys]
  constructor
  · intro h heq
    rcases h with ⟨entry, hentry, rfl⟩ | ⟨hsent, hnow⟩
    · obtain ⟨hentry, hne⟩ := List.mem_filter.mp hentry
      rw [decide_eq_true_eq, heq, mem_to_list.mp hentry] at hne
      exact hne rfl
    · rw [Bool.not_eq_true', ← ExtTreeMap.isSome_getElem?_eq_contains, ← heq, hsent] at hnow
      cases hnow
  · intro hne
    cases hnow : now[runner]? with
    | some crossings =>
        refine Or.inl ⟨(runner, crossings), List.mem_filter.mpr ⟨mem_to_list.mpr hnow, ?_⟩, rfl⟩
        rw [decide_eq_true_eq, ← hnow]
        exact hne
    | none =>
        refine Or.inr ⟨?_, ?_⟩
        · cases hsent : sent[runner]? with
          | none =>
              rw [hsent, hnow] at hne
              exact absurd rfl hne
          | some crossings => rfl
        · rw [Bool.not_eq_true', ← ExtTreeMap.isSome_getElem?_eq_contains, hnow]
          rfl

/-- Each runner has changed once. -/
theorem nodup_changed (sent now : ByRunner) : (changed sent now).Nodup := by
  unfold changed
  refine (sort_by_key_perm id _).nodup_iff.mpr (List.nodup_append'.mpr ⟨?_, ?_, ?_⟩)
  · exact (nodup_keys_to_list now).sublist (List.filter_sublist.map _)
  · exact ExtTreeMap.nodup_keys.filter _
  · intro runner hnow hsent
    obtain ⟨entry, hentry, rfl⟩ := List.mem_map.mp hnow
    have hget := mem_to_list.mp (List.mem_filter.mp hentry).1
    have hnone := (List.mem_filter.mp hsent).2
    rw [Bool.not_eq_true', ← ExtTreeMap.isSome_getElem?_eq_contains, hget] at hnone
    cases hnone

/-! ## What a batch carries -/

/-- A batch carries all that its runners have. -/
def CrossingsBatch.Restates (now : ByRunner) (batch : CrossingsBatch) : Prop :=
  batch.crossings = batch.replaces.flatMap (crossingsOf now)

/-- One more runner: every batch restates its runners, and the runner is the last of them. -/
theorem add_runner_spec {now : ByRunner} (max : Nat)
    {state : List CrossingsBatch × CrossingsBatch}
    (h : ∀ batch ∈ state.1 ++ [state.2], batch.Restates now) (runner : RunnerRef) :
    (∀ batch ∈ (addRunner now max state runner).1 ++ [(addRunner now max state runner).2],
        batch.Restates now) ∧
      ((addRunner now max state runner).1 ++ [(addRunner now max state runner).2]).flatMap
          CrossingsBatch.replaces =
        (state.1 ++ [state.2]).flatMap CrossingsBatch.replaces ++ [runner] := by
  obtain ⟨out, batch⟩ := state
  unfold addRunner
  dsimp only
  split_ifs with hfull
  · constructor
    · intro other hother
      rcases List.mem_append.mp hother with hold | hnew
      · exact h other hold
      · rw [List.mem_singleton.mp hnew]
        show _ = List.flatMap _ [runner]
        rw [List.flatMap_singleton]
        rfl
    · simp only [List.flatMap_append, List.flatMap_singleton]
  · constructor
    · intro other hother
      rcases List.mem_append.mp hother with hold | hnew
      · exact h other (List.mem_append_left _ hold)
      · rw [List.mem_singleton.mp hnew]
        have hbatch : batch.crossings = batch.replaces.flatMap (crossingsOf now) :=
          h batch (List.mem_append_right _ List.mem_cons_self)
        show _ = List.flatMap _ (batch.replaces ++ [runner])
        rw [List.flatMap_append, List.flatMap_singleton, ← hbatch]
        rfl
    · simp only [List.flatMap_append, List.flatMap_singleton, List.append_assoc]

/-- The batches restate the runners, one after another. -/
theorem batches_spec (now : ByRunner) (runners : List RunnerRef) (max : Nat) :
    (∀ batch ∈ batches now runners max, batch.Restates now) ∧
      (batches now runners max).flatMap CrossingsBatch.replaces = runners := by
  unfold batches
  generalize (if max = 0 then 1 else max) = max
  have hfold : ∀ (done : List RunnerRef) (state : List CrossingsBatch × CrossingsBatch),
      (∀ batch ∈ state.1 ++ [state.2], batch.Restates now) →
      (state.1 ++ [state.2]).flatMap CrossingsBatch.replaces = done →
      (∀ batch ∈ (runners.foldl (addRunner now max) state).1 ++
          [(runners.foldl (addRunner now max) state).2], batch.Restates now) ∧
        ((runners.foldl (addRunner now max) state).1 ++
            [(runners.foldl (addRunner now max) state).2]).flatMap CrossingsBatch.replaces =
          done ++ runners := by
    induction runners with
    | nil =>
        intro done state hstate hdone
        rw [List.append_nil]
        exact ⟨hstate, hdone⟩
    | cons runner runners ih =>
        intro done state hstate hdone
        obtain ⟨hstate', hdone'⟩ := add_runner_spec max hstate runner
        rw [hdone] at hdone'
        have hrest := ih (done ++ [runner]) _ hstate' hdone'
        rw [List.append_assoc] at hrest
        exact hrest
  obtain ⟨hall, hnames⟩ := hfold [] ([], ⟨[], []⟩) (by
    intro batch hbatch
    rw [List.mem_singleton.mp hbatch]
    rfl) rfl
  rw [List.nil_append] at hnames
  generalize runners.foldl (addRunner now max) ([], ⟨[], []⟩) = state at hall hnames
  obtain ⟨out, batch⟩ := state
  dsimp only at hall hnames ⊢
  split_ifs with hempty
  · refine ⟨fun other hother => hall other (List.mem_append_left _ hother), ?_⟩
    rw [List.flatMap_append, List.flatMap_singleton, hempty, List.append_nil] at hnames
    exact hnames
  · exact ⟨hall, hnames⟩

/-- Everybody's crossings are their own. -/
theorem runner_of_mem_crossings_of {now : ByRunner} (hkeyed : KeyedBy runnerOf now)
    {runner : RunnerRef} {crossing : Crossing} (h : crossing ∈ crossingsOf now runner) :
    runnerOf crossing = runner := by
  unfold crossingsOf at h
  cases hget : now[runner]? with
  | none =>
      rw [hget] at h
      cases h
  | some crossings =>
      rw [hget] at h
      exact hkeyed runner crossings hget crossing h

/-- A batch has crossings of nobody but its runners. -/
theorem CrossingsBatch.Restates.complete {now : ByRunner} {batch : CrossingsBatch}
    (h : batch.Restates now) (hkeyed : KeyedBy runnerOf now) :
    ∀ crossing ∈ batch.crossings, runnerOf crossing ∈ batch.replaces := by
  intro crossing hmem
  rw [h] at hmem
  obtain ⟨runner, hrunner, hmem⟩ := List.mem_flatMap.mp hmem
  rw [runner_of_mem_crossings_of hkeyed hmem]
  exact hrunner

/-- Of what a batch carries, each runner that it names has what that runner has now. -/
theorem CrossingsBatch.Restates.of_runner {now : ByRunner} {batch : CrossingsBatch}
    (h : batch.Restates now) (hkeyed : KeyedBy runnerOf now) (hnodup : batch.replaces.Nodup)
    {runner : RunnerRef} :
    batch.crossings.filter (fun crossing => runnerOf crossing = runner) =
      if runner ∈ batch.replaces then crossingsOf now runner else [] := by
  rw [h]
  generalize batch.replaces = runners at hnodup
  have hown : ∀ other, (crossingsOf now other).filter (fun crossing => runnerOf crossing = runner) =
      if other = runner then crossingsOf now runner else [] := by
    intro other
    have hrunner : ∀ crossing ∈ crossingsOf now other, runnerOf crossing = other :=
      fun crossing => runner_of_mem_crossings_of hkeyed
    split_ifs with heq
    · subst heq
      exact List.filter_eq_self.mpr fun crossing hmem => decide_eq_true (hrunner crossing hmem)
    · refine List.filter_eq_nil_iff.mpr fun crossing hmem => ?_
      rw [decide_eq_true_eq, hrunner crossing hmem]
      exact heq
  induction runners with
  | nil => rfl
  | cons other runners ih =>
      obtain ⟨hother, hnodup⟩ := List.nodup_cons.mp hnodup
      rw [List.flatMap_cons, List.filter_append, hown, ih hnodup]
      by_cases heq : other = runner
      · subst heq
        rw [if_pos rfl, if_neg hother, if_pos List.mem_cons_self, List.append_nil]
      · rw [if_neg heq, List.nil_append]
        simp only [List.mem_cons, Ne.symm heq, false_or]

end Splitforge.Raceday
