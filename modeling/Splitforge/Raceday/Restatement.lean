import Splitforge.Raceday.Ledger

/-!
# Batches restate what changed

A server that holds what was sent holds what is true now once it has taken the batches of what
changed, in order, by the contract: each batch drops what is held for the runners it restates and
then holds its crossings, each in the place of one held for the same runner, mat and lap. A runner
is restated whole, by one batch, and a batch keeps to the limit unless it restates one runner alone.
-/

namespace Splitforge.Raceday

open Std (ExtTreeMap)
open Splitforge.Domain Splitforge.Library

/-! ## The contract -/

/-- The runner, mat and lap of a crossing. A server holds one crossing of each. -/
def slotOf (crossing : Crossing) : RunnerRef × String × UInt16 :=
  (runnerOf crossing, crossing.pointKey, crossing.lap)

/-- Holds a crossing, in the place of any held for the same runner, mat and lap. -/
def Server.hold (server : Server) (crossing : Crossing) : Server :=
  { server with
    crossings :=
      server.crossings.filter (fun held => slotOf held ≠ slotOf crossing) ++ [crossing] }

/-- Takes a batch: drops what is held for the runners it restates, then holds its crossings. -/
def Server.takeBatch (server : Server) (batch : CrossingsBatch) : Server :=
  batch.crossings.foldl Server.hold
    { server with
      crossings := server.crossings.filter fun crossing => runnerOf crossing ∉ batch.replaces }

/-- A server holds what a table has for every runner. -/
def Server.Holds (server : Server) (table : ByRunner) : Prop :=
  ∀ runner, server.crossingsOf runner = Raceday.crossingsOf table runner

/-- Each runner has one crossing of a mat and a lap. -/
def OnePerSlot (table : ByRunner) : Prop :=
  ∀ runner, ((crossingsOf table runner).map slotOf).Nodup

/-- A runner's crossings differ. Having no entry differs from an entry without crossings. -/
def Differs (sent now : ByRunner) (runner : RunnerRef) : Prop :=
  sent[runner]? ≠ now[runner]?

/-- Crossings of other runners, mats and laps than those held are held behind them. -/
theorem crossings_foldl_hold (crossings : List Crossing) (server : Server)
    (hnew : ∀ held ∈ server.crossings, ∀ crossing ∈ crossings, slotOf held ≠ slotOf crossing)
    (hslots : (crossings.map slotOf).Nodup) :
    crossings.foldl Server.hold server =
      { server with crossings := server.crossings ++ crossings } := by
  induction crossings generalizing server with
  | nil =>
      rw [List.append_nil]
      rfl
  | cons crossing crossings ih =>
      rw [List.map_cons, List.nodup_cons] at hslots
      obtain ⟨hfirst, hslots⟩ := hslots
      have hkept : server.crossings.filter (fun held => slotOf held ≠ slotOf crossing) =
          server.crossings := by
        refine List.filter_eq_self.mpr ?_
        intro held hheld
        exact decide_eq_true (hnew held hheld crossing (List.mem_cons_self ..))
      have hhold : server.hold crossing =
          { server with crossings := server.crossings ++ [crossing] } := by
        rw [Server.hold, hkept]
      rw [List.foldl_cons, hhold, ih _ ?_ hslots]
      · simp only [List.append_assoc, List.singleton_append]
      · intro held hheld other hother
        rcases List.mem_append.mp hheld with hheld | hheld
        · exact hnew held hheld other (List.mem_cons_of_mem _ hother)
        · rw [List.mem_singleton.mp hheld]
          intro heq
          exact hfirst (heq ▸ List.mem_map_of_mem hother)

/-! ## One batch -/

section Batch

variable {sent now : ByRunner} {batch : CrossingsBatch} {runner : RunnerRef}

/-- A batch that restates runners once each has one crossing of a runner, mat and lap. -/
theorem CrossingsBatch.Restates.nodup_slots (h : batch.Restates now) (hkeyed : KeyedBy runnerOf now)
    (hslots : OnePerSlot now) (hnodup : batch.replaces.Nodup) :
    (batch.crossings.map slotOf).Nodup := by
  rw [h, List.map_flatMap, List.nodup_flatMap]
  refine ⟨fun runner _ => hslots runner, ?_⟩
  refine hnodup.imp ?_
  intro first second hne slot hfirst hsecond
  obtain ⟨crossing, hcrossing, rfl⟩ := List.mem_map.mp hfirst
  obtain ⟨other, hother, heq⟩ := List.mem_map.mp hsecond
  have hrunner : runnerOf other = runnerOf crossing := congrArg Prod.fst heq
  rw [runner_of_mem_crossings_of hkeyed hcrossing, runner_of_mem_crossings_of hkeyed hother]
    at hrunner
  exact hne hrunner.symm

/-- Such a batch is taken as one that replaces what is held. -/
theorem take_batch_eq_take (h : batch.Restates now) (hkeyed : KeyedBy runnerOf now)
    (hslots : OnePerSlot now) (hnodup : batch.replaces.Nodup) (server : Server) :
    server.takeBatch batch = server.take (.crossings batch) := by
  rw [Server.takeBatch, crossings_foldl_hold _ _ ?_ (h.nodup_slots hkeyed hslots hnodup)]
  · rfl
  · intro held hheld crossing hcrossing heq
    have hother := of_decide_eq_true (List.mem_filter.mp hheld).2
    have hrunner : runnerOf held = runnerOf crossing := congrArg Prod.fst heq
    rw [hrunner] at hother
    exact hother (h.complete hkeyed crossing hcrossing)

/-- A runner that a batch restates has what it has now, and the others have what they had. -/
theorem crossings_of_take_batch_eq (h : batch.Restates now) (hkeyed : KeyedBy runnerOf now)
    (hslots : OnePerSlot now) (hnodup : batch.replaces.Nodup) (server : Server) :
    (server.takeBatch batch).crossingsOf runner =
      if runner ∈ batch.replaces then crossingsOf now runner else server.crossingsOf runner := by
  rw [take_batch_eq_take h hkeyed hslots hnodup]
  split_ifs with hmem
  · rw [crossings_of_take_batch hmem, h.of_runner hkeyed hnodup, if_pos hmem]
  · exact crossings_of_take (h.complete hkeyed) (decide_eq_false hmem)

end Batch

/-! ## A run of batches -/

section Run

variable {sent now : ByRunner} {bs : List CrossingsBatch} {runner : RunnerRef}

/-- After a run of batches that restate each runner once, the runners of the run have what they
have now, and the others have what they had. -/
theorem crossings_of_foldl_take_batch (hkeyed : KeyedBy runnerOf now) (hslots : OnePerSlot now)
    (hall : ∀ batch ∈ bs, batch.Restates now)
    (hnodup : (bs.flatMap CrossingsBatch.replaces).Nodup) (server : Server) :
    (bs.foldl Server.takeBatch server).crossingsOf runner =
      if runner ∈ bs.flatMap CrossingsBatch.replaces then crossingsOf now runner
      else server.crossingsOf runner := by
  induction bs generalizing server with
  | nil => rfl
  | cons batch bs ih =>
      rw [List.flatMap_cons] at hnodup
      obtain ⟨hbatch, hrest, -⟩ := List.nodup_append'.mp hnodup
      have hone : (server.takeBatch batch).crossingsOf runner =
          if runner ∈ batch.replaces then crossingsOf now runner else server.crossingsOf runner :=
        crossings_of_take_batch_eq (hall batch (List.mem_cons_self ..)) hkeyed hslots hbatch server
      rw [List.foldl_cons,
        ih (fun other hother => hall other (List.mem_cons_of_mem _ hother)) hrest,
        hone]
      simp only [List.flatMap_cons, List.mem_append]
      by_cases hlater : runner ∈ bs.flatMap CrossingsBatch.replaces
      · rw [if_pos hlater, if_pos (Or.inr hlater)]
      · simp only [hlater, if_false, or_false]

/-- A runner that the batches name once stands in one of them. -/
theorem count_p_replaces (hnodup : (bs.flatMap CrossingsBatch.replaces).Nodup) :
    bs.countP (fun batch => runner ∈ batch.replaces) =
      if runner ∈ bs.flatMap CrossingsBatch.replaces then 1 else 0 := by
  induction bs with
  | nil => rfl
  | cons batch bs ih =>
      rw [List.flatMap_cons] at hnodup
      obtain ⟨-, hrest, hdisjoint⟩ := List.nodup_append'.mp hnodup
      rw [List.countP_cons, ih hrest]
      simp only [List.flatMap_cons, List.mem_append]
      by_cases hhere : runner ∈ batch.replaces
      · have hlater : runner ∉ bs.flatMap CrossingsBatch.replaces := hdisjoint hhere
        simp [hhere, hlater]
      · simp [hhere]

end Run

/-! ## The limits -/

/-- A batch names no more runners than the limit, and has no more crossings unless it names one. -/
def CrossingsBatch.Within (max : Nat) (batch : CrossingsBatch) : Prop :=
  batch.replaces.length ≤ max ∧ (max < batch.crossings.length → batch.replaces.length = 1)

/-- One more runner: every batch keeps to the limit. -/
theorem add_runner_within {now : ByRunner} {max : Nat} (hmax : 0 < max)
    {state : List CrossingsBatch × CrossingsBatch}
    (h : ∀ batch ∈ state.1 ++ [state.2], batch.Within max) (runner : RunnerRef) :
    ∀ batch ∈ (addRunner now max state runner).1 ++ [(addRunner now max state runner).2],
      batch.Within max := by
  obtain ⟨out, batch⟩ := state
  unfold addRunner
  dsimp only
  split_ifs with hfull
  · -- the runner starts a batch of its own
    intro other hother
    rcases List.mem_append.mp hother with hold | hnew
    · exact h other hold
    · rw [List.mem_singleton.mp hnew]
      exact ⟨hmax, fun _ => rfl⟩
  · intro other hother
    rcases List.mem_append.mp hother with hold | hnew
    · exact h other (List.mem_append_left _ hold)
    · rw [List.mem_singleton.mp hnew]
      by_cases hempty : batch.replaces = []
      · -- nobody stands in the batch yet
        rw [hempty]
        exact ⟨hmax, fun _ => rfl⟩
      · have hroom : ¬(max ≤ batch.replaces.length ∨ max < batch.crossings.length +
            (now[runner]?.getD []).length) := fun hover => hfull ⟨hover, hempty⟩
        constructor
        · show (batch.replaces ++ [runner]).length ≤ max
          rw [List.length_append, List.length_singleton]
          omega
        · intro hlarge
          have hlarge : max < (batch.crossings ++ now[runner]?.getD []).length := hlarge
          rw [List.length_append] at hlarge
          omega

/-- Every batch keeps to the limit, which counts as one when it is none. -/
theorem batches_within (now : ByRunner) (runners : List RunnerRef) (max : Nat) :
    ∀ batch ∈ batches now runners max, batch.Within (Nat.max max 1) := by
  have hlimit : (if max = 0 then 1 else max) = Nat.max max 1 := by
    split_ifs with hzero
    · rw [hzero]
      rfl
    · exact (Nat.max_eq_left (by omega)).symm
  unfold batches
  rw [hlimit]
  have hmax : 0 < Nat.max max 1 := Nat.lt_of_lt_of_le Nat.one_pos (Nat.le_max_right ..)
  generalize Nat.max max 1 = max at hmax
  have hfold : ∀ state : List CrossingsBatch × CrossingsBatch,
      (∀ batch ∈ state.1 ++ [state.2], batch.Within max) →
      ∀ batch ∈ (runners.foldl (addRunner now max) state).1 ++
        [(runners.foldl (addRunner now max) state).2], batch.Within max := by
    induction runners with
    | nil => exact fun state hstate => hstate
    | cons runner runners ih =>
        exact fun state hstate => ih _ (add_runner_within hmax hstate runner)
  have hall := hfold ([], ⟨[], []⟩) (by
    intro batch hbatch
    rw [List.mem_singleton.mp hbatch]
    exact ⟨Nat.zero_le _, fun hlarge => absurd hlarge (Nat.not_lt_zero _)⟩)
  generalize runners.foldl (addRunner now max) ([], ⟨[], []⟩) = state at hall
  obtain ⟨out, batch⟩ := state
  dsimp only at hall ⊢
  split_ifs with hempty
  · exact fun other hother => hall other (List.mem_append_left _ hother)
  · exact hall

/-! ## What changed, in batches -/

/-- Batches restate what changed between two tables, at most so many crossings or runners each. -/
structure RestatesChanged (sent now : ByRunner) (max : Nat) (bs : List CrossingsBatch) : Prop where
  /-- A server that held what was sent holds what is true now. -/
  arrives : ∀ server : Server, server.Holds sent → (bs.foldl Server.takeBatch server).Holds now
  /-- Whose crossings differ is named in one batch. -/
  named_once : ∀ runner, Differs sent now runner →
    bs.countP (fun batch => runner ∈ batch.replaces) = 1
  /-- Nobody else is named. -/
  only_changed : ∀ batch ∈ bs, ∀ runner ∈ batch.replaces, Differs sent now runner
  /-- A batch has all crossings of who it names. -/
  all_theirs : ∀ batch ∈ bs, ∀ runner ∈ batch.replaces,
    batch.crossings.filter (fun crossing => runnerOf crossing = runner) = crossingsOf now runner
  /-- It has no crossings of others. -/
  no_others : ∀ batch ∈ bs, ∀ crossing ∈ batch.crossings, runnerOf crossing ∈ batch.replaces
  /-- Whoever has the same crossings keeps, after any number of batches, what a server has. -/
  untouched : ∀ (server : Server) (runner : RunnerRef) (count : Nat), ¬ Differs sent now runner →
    ((bs.take count).foldl Server.takeBatch server).crossingsOf runner = server.crossingsOf runner
  /-- After any number of batches everybody has all that was sent or all that is true now. -/
  wholly : ∀ (server : Server) (runner : RunnerRef) (count : Nat), server.Holds sent →
    ((bs.take count).foldl Server.takeBatch server).crossingsOf runner = crossingsOf sent runner ∨
      ((bs.take count).foldl Server.takeBatch server).crossingsOf runner = crossingsOf now runner
  /-- No batch names more runners than the limit. -/
  few_runners : ∀ batch ∈ bs, batch.replaces.length ≤ Nat.max max 1
  /-- A batch above the limit names one runner. -/
  large_alone : ∀ batch ∈ bs, Nat.max max 1 < batch.crossings.length →
    ∃ runner, batch.replaces = [runner]

/-- The batches of the changed runners, taken in order, restate what changed. -/
theorem batches_restate_changed (sent now : ByRunner) (max : Nat) (hkeyed : KeyedBy runnerOf now)
    (hslots : OnePerSlot now) :
    RestatesChanged sent now max (batches now (changed sent now) max) := by
  obtain ⟨hall, hnames⟩ := batches_spec now (changed sent now) max
  have hwithin := batches_within now (changed sent now) max
  generalize batches now (changed sent now) max = bs at hall hnames hwithin
  have hnodup : (bs.flatMap CrossingsBatch.replaces).Nodup := by
    rw [hnames]
    exact nodup_changed sent now
  have hmem : ∀ runner, runner ∈ bs.flatMap CrossingsBatch.replaces ↔ Differs sent now runner := by
    intro runner
    rw [hnames]
    exact mem_changed
  have hnamed : ∀ batch ∈ bs, ∀ runner ∈ batch.replaces, Differs sent now runner := by
    intro batch hbatch runner hrunner
    exact (hmem runner).mp (List.mem_flatMap.mpr ⟨batch, hbatch, hrunner⟩)
  have hbatch : ∀ batch ∈ bs, batch.replaces.Nodup :=
    fun batch hbatch => (List.nodup_flatMap.mp hnodup).1 batch hbatch
  have hsame : ∀ runner, ¬ Differs sent now runner →
      crossingsOf sent runner = crossingsOf now runner := by
    intro runner hsame
    rw [crossingsOf, crossingsOf, not_not.mp hsame]
  -- a run of some of the batches restates the runners that these name
  have hfront : ∀ (server : Server) (runner : RunnerRef) (count : Nat),
      ((bs.take count).foldl Server.takeBatch server).crossingsOf runner =
        if runner ∈ (bs.take count).flatMap CrossingsBatch.replaces then crossingsOf now runner
        else server.crossingsOf runner := by
    intro server runner count
    refine crossings_of_foldl_take_batch hkeyed hslots
      (fun batch hmem => hall batch (List.mem_of_mem_take hmem)) ?_ server
    rw [← List.take_append_drop count bs, List.flatMap_append] at hnodup
    exact (List.nodup_append'.mp hnodup).1
  constructor
  case arrives =>
    intro server hsent runner
    rw [crossings_of_foldl_take_batch hkeyed hslots hall hnodup]
    split_ifs with hrunner
    · rfl
    · rw [hsent, hsame runner (mt (hmem runner).mpr hrunner)]
  case named_once =>
    intro runner hdiffers
    rw [count_p_replaces hnodup, if_pos ((hmem runner).mpr hdiffers)]
  case only_changed => exact hnamed
  case all_theirs =>
    intro batch hone runner hrunner
    rw [(hall batch hone).of_runner hkeyed (hbatch batch hone), if_pos hrunner]
  case no_others => exact fun batch hone => (hall batch hone).complete hkeyed
  case untouched =>
    intro server runner count hnot
    rw [hfront, if_neg]
    intro hrunner
    obtain ⟨batch, hone, hrunner⟩ := List.mem_flatMap.mp hrunner
    exact hnot (hnamed batch (List.mem_of_mem_take hone) runner hrunner)
  case wholly =>
    intro server runner count hsent
    rw [hfront]
    split_ifs with hrunner
    · exact Or.inr rfl
    · exact Or.inl (hsent runner)
  case few_runners => exact fun batch hone => (hwithin batch hone).1
  case large_alone =>
    intro batch hone hlarge
    exact List.length_eq_one_iff.mp ((hwithin batch hone).2 hlarge)

/-- One crossing, of one runner. -/
def finishLine : Crossing := ⟨"10k", "finish", "12", none, some 2400000, second 0, 1⟩

/-- A table with one crossing, where none was sent. -/
theorem batches_restate_finish_line :
    RestatesChanged ∅ (push ∅ (runnerOf finishLine) finishLine) 0
      (batches (push ∅ (runnerOf finishLine) finishLine)
        (changed ∅ (push ∅ (runnerOf finishLine) finishLine)) 0) := by
  refine batches_restate_changed _ _ _ (every_item_empty.push rfl) ?_
  intro runner
  rw [crossingsOf, push, get_amend]
  split_ifs with heq
  · rw [ExtTreeMap.getElem?_empty]
    exact List.nodup_singleton _
  · rw [ExtTreeMap.getElem?_empty]
    exact List.nodup_nil

end Splitforge.Raceday
