import Splitforge.Engine.MinLap

/-!
# Recovering crossings

What derivation makes of reads that are known to be bursts. Where the reads of a chip at a
checkpoint are bursts with no gap over the window, more than a window apart, those are the bursts
that are judged; and where the rule selects a read of each and no lap is too fast, each of them is
credited, in order.
-/

namespace Splitforge.Engine

open Splitforge.Domain Splitforge.Library

variable {newV5 : Uuid → String → Uuid} {input : DerivationInput} {chip : ChipId}
variable {checkpoint : CheckpointId} {last : Option (OffsetDateTime × Bool)}

/-- The maximal runs of some reads are the bursts they are cut into. -/
theorem split_of_maximal_runs {reads : List StoredRawRead} {window : Duration}
    {bursts : List (List StoredRawRead)} (h : MaximalRuns window reads bursts) :
    splitIntoBursts reads window = bursts := by
  obtain ⟨rfl, hnonempty, hwithin, hapart⟩ := h
  rw [split_into_bursts_eq]
  refine List.splitBy_flatten (fun hnil => hnonempty _ hnil rfl) (fun burst hburst => ?_) ?_
  · exact (hwithin burst hburst).imp fun first second hgap => decide_eq_true hgap
  · refine hapart.imp_of_mem_imp fun burst next hburst hnext hgap => ?_
    have hne := hnonempty burst hburst
    have hne' := hnonempty next hnext
    refine ⟨hne, hne', decide_eq_false (not_le.mpr ?_)⟩
    exact hgap _ (List.getLast?_eq_some_getLast hne) _ (List.head?_eq_some_head hne')

/-- No lap behind the crossing credited last is too fast. -/
def Unhurried (input : DerivationInput) (previous : OffsetDateTime) (stored : StoredRawRead) :
    Prop :=
  ∀ minLapMs ∈ input.policy.minLapMs,
    (minLapMs : Int) ≤ (stored.read.authoritativeTimestamp - previous).wholeMilliseconds

theorem lap_violation_of_unhurried {stored : StoredRawRead}
    (h : ∀ reference ∈ last, Unhurried input reference.1 stored) (raceSide : Bool) :
    lapViolation input.policy last stored.read.authoritativeTimestamp raceSide = none := by
  unfold lapViolation
  cases hlap : input.policy.minLapMs with
  | none => rfl
  | some minLapMs =>
      cases last with
      | none => rfl
      | some reference =>
          have hle := h reference rfl minLapMs hlap
          dsimp only
          split
          · exact if_neg (by omega)
          · rfl

/-- Where the rule selects a read of each burst and no lap is too fast, each burst is credited. -/
theorem credited_of_unhurried {bursts : List (List StoredRawRead)}
    (hselect : ∀ burst ∈ bursts,
      (select burst (input.policy.selectionRuleFor checkpoint)).isSome)
    (hlast : ∀ reference ∈ last, ∀ burst ∈ bursts, ∀ stored ∈ burst,
      Unhurried input reference.1 stored)
    (hlaps : bursts.Pairwise fun burst later => ∀ first ∈ burst, ∀ second ∈ later,
      Unhurried input first.read.authoritativeTimestamp second) :
    List.Forall₂ (CrossingOfBurst newV5 input chip checkpoint) bursts
      ((verdicts input checkpoint last bursts).filterMap
        (crossingFrom newV5 input chip checkpoint)) := by
  induction bursts generalizing last with
  | nil => exact .nil
  | cons burst bursts ih =>
      obtain ⟨hfirst, hrest⟩ := List.pairwise_cons.mp hlaps
      obtain ⟨chosen, hchosen⟩ := Option.isSome_iff_exists.mp (hselect burst List.mem_cons_self)
      have hmem := mem_of_select hchosen
      have hverdict : verdictOf input checkpoint last burst =
          .credited chosen (onTheRaceSide burst input.gunTime) := by
        rw [verdictOf, hchosen]
        dsimp only
        rw [lap_violation_of_unhurried (fun reference hreference =>
          hlast reference hreference burst List.mem_cons_self chosen hmem)]
      rw [verdicts, hverdict]
      refine .cons ⟨chosen, hchosen, rfl⟩ (ih
        (fun other hother => hselect other (List.mem_cons_of_mem _ hother)) ?_ hrest)
      intro reference hreference later hlater stored hstored
      cases hreference
      exact hfirst later hlater chosen hmem stored hstored

/-- Where the reads of a chip at a checkpoint are bursts within the window and apart, and none is
below the floor or too fast, the crossings there are those of the bursts, in order. -/
theorem accepted_of_bursts (newV5 : Uuid → String → Uuid) {bursts : List (List StoredRawRead)}
    (hruns : MaximalRuns (windowAt input checkpoint)
      (inOrder (itemsWith (placeOf input) (toLex (chip, checkpoint)) input.reads)) bursts)
    (hselect : ∀ burst ∈ bursts,
      (select burst (input.policy.selectionRuleFor checkpoint)).isSome)
    (hlaps : bursts.Pairwise fun burst later => ∀ first ∈ burst, ∀ second ∈ later,
      Unhurried input first.read.authoritativeTimestamp second) :
    List.Forall₂ (CrossingOfBurst newV5 input chip checkpoint) bursts
      ((derive newV5 input).accepted.filter fun crossing =>
        crossing.chip = chip ∧ crossing.checkpoint = checkpoint) := by
  rw [accepted_at, creditedAt, verdictsAt, burstsAt, split_of_maximal_runs hruns]
  exact credited_of_unhurried hselect (fun _ hreference => by cases hreference) hlaps

end Splitforge.Engine
