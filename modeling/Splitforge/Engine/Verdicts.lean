import Splitforge.Engine.OrderIndependence
import Splitforge.Engine.Separation

/-!
# Verdicts

What becomes of the bursts of a chip at a checkpoint, without the state the loops carry. Each burst
gets a verdict from its reads and from the crossing credited before it, and the crossings and the
suppressions of a derivation are those of the verdicts of each chip at each checkpoint.
-/

namespace Splitforge.Engine

open Splitforge.Domain Splitforge.Library

/-- What becomes of a burst: none of its reads clears the floor, its lap is too fast, or one of its
reads is credited, on one side of the gun. -/
inductive Verdict where
  | belowFloor
  | belowMinLap (minLapMs : Nat) (actualMs : Int)
  | credited (chosen : StoredRawRead) (raceSide : Bool)

/-- The crossing the next lap is measured from, as far as this one is credited. -/
def Verdict.reference (last : Option (OffsetDateTime × Bool)) :
    Verdict → Option (OffsetDateTime × Bool)
  | .credited chosen raceSide => some (chosen.read.authoritativeTimestamp, raceSide)
  | .belowFloor | .belowMinLap .. => last

/-- The verdict on a burst behind the crossing credited last. -/
def verdictOf (input : DerivationInput) (checkpoint : CheckpointId)
    (last : Option (OffsetDateTime × Bool)) (burst : List StoredRawRead) : Verdict :=
  match select burst (input.policy.selectionRuleFor checkpoint) with
  | none => .belowFloor
  | some chosen =>
      let raceSide := onTheRaceSide burst input.gunTime
      match lapViolation input.policy last chosen.read.authoritativeTimestamp raceSide with
      | some (minLapMs, actualMs) => .belowMinLap minLapMs actualMs
      | none => .credited chosen raceSide

/-- The verdicts on bursts in order. -/
def verdicts (input : DerivationInput) (checkpoint : CheckpointId) :
    Option (OffsetDateTime × Bool) → List (List StoredRawRead) →
      List (List StoredRawRead × Verdict)
  | _, [] => []
  | last, burst :: bursts =>
      let verdict := verdictOf input checkpoint last burst
      (burst, verdict) :: verdicts input checkpoint (verdict.reference last) bursts

/-- The crossing credited last behind some bursts. -/
def referenceAfter (input : DerivationInput) (checkpoint : CheckpointId)
    (last : Option (OffsetDateTime × Bool)) (bursts : List (List StoredRawRead)) :
    Option (OffsetDateTime × Bool) :=
  bursts.foldl (fun last burst => (verdictOf input checkpoint last burst).reference last) last

/-- The crossing of a burst that is credited. -/
def crossingFrom (newV5 : Uuid → String → Uuid) (input : DerivationInput) (chip : ChipId)
    (checkpoint : CheckpointId) (judged : List StoredRawRead × Verdict) : Option AcceptedRead :=
  match judged.2 with
  | .credited chosen _ => some (crossingOf newV5 input chip checkpoint judged.1 chosen)
  | .belowFloor | .belowMinLap .. => none

/-- The suppressions of a burst: all its reads, or all but the one that is credited. -/
def rejectionsFrom (newV5 : Uuid → String → Uuid) (input : DerivationInput) (chip : ChipId)
    (checkpoint : CheckpointId) (judged : List StoredRawRead × Verdict) : List RejectedRead :=
  match judged.2 with
  | .belowFloor => judged.1.map fun stored => ⟨stored.read.id, .belowRssiFloor stored.read.rssiDbm
      (floorOf (input.policy.selectionRuleFor checkpoint))⟩
  | .belowMinLap minLapMs actualMs =>
      judged.1.map fun stored => ⟨stored.read.id, .belowMinLap minLapMs actualMs⟩
  | .credited chosen _ =>
      let crossing := crossingOf newV5 input chip checkpoint judged.1 chosen
      (judged.1.filter fun stored => stored.read.id ≠ chosen.read.id).map fun stored =>
        ⟨stored.read.id, .duplicateWithinWindow crossing.id (i64OrMax
          (stored.read.authoritativeTimestamp -
            chosen.read.authoritativeTimestamp).wholeMilliseconds)⟩

/-- The verdicts on the bursts of a chip at a checkpoint. -/
def verdictsAt (input : DerivationInput) (chip : ChipId) (checkpoint : CheckpointId) :
    List (List StoredRawRead × Verdict) :=
  verdicts input checkpoint none (burstsAt input chip checkpoint)

/-- The crossings of a chip at a checkpoint. -/
def creditedAt (newV5 : Uuid → String → Uuid) (input : DerivationInput) (chip : ChipId)
    (checkpoint : CheckpointId) : List AcceptedRead :=
  (verdictsAt input chip checkpoint).filterMap (crossingFrom newV5 input chip checkpoint)

/-- The suppressions of a chip at a checkpoint. -/
def rejectedAt (newV5 : Uuid → String → Uuid) (input : DerivationInput) (chip : ChipId)
    (checkpoint : CheckpointId) : List RejectedRead :=
  (verdictsAt input chip checkpoint).flatMap (rejectionsFrom newV5 input chip checkpoint)

variable {newV5 : Uuid → String → Uuid} {input : DerivationInput} {chip : ChipId}
variable {checkpoint : CheckpointId} {last : Option (OffsetDateTime × Bool)}

/-! ## The loops -/

/-- One burst does what its verdict says. -/
theorem credit_burst_eq (state : Crossings × Option (OffsetDateTime × Bool))
    (burst : List StoredRawRead) :
    let verdict := verdictOf input checkpoint state.2 burst
    let next := creditBurst newV5 input chip checkpoint state burst
    next.1.accepted = state.1.accepted ++
        (crossingFrom newV5 input chip checkpoint (burst, verdict)).toList ∧
      next.1.rejected = state.1.rejected ++
        rejectionsFrom newV5 input chip checkpoint (burst, verdict) ∧
      next.2 = verdict.reference state.2 := by
  obtain ⟨crossings, last⟩ := state
  intro verdict next
  unfold next verdict creditBurst verdictOf
  cases hselect : select burst (input.policy.selectionRuleFor checkpoint) with
  | none =>
      simp only [hselect]
      exact ⟨(List.append_nil _).symm, rfl, rfl⟩
  | some chosen =>
      simp only [hselect]
      cases lapViolation input.policy last chosen.read.authoritativeTimestamp
          (onTheRaceSide burst input.gunTime) with
      | none => exact ⟨rfl, rfl, rfl⟩
      | some lap => exact ⟨(List.append_nil _).symm, rfl, rfl⟩

/-- The bursts of a group do what their verdicts say. -/
theorem credit_bursts_eq (state : Crossings × Option (OffsetDateTime × Bool))
    (bursts : List (List StoredRawRead)) :
    let judged := verdicts input checkpoint state.2 bursts
    let next := bursts.foldl (creditBurst newV5 input chip checkpoint) state
    next.1.accepted = state.1.accepted ++
        judged.filterMap (crossingFrom newV5 input chip checkpoint) ∧
      next.1.rejected = state.1.rejected ++
        judged.flatMap (rejectionsFrom newV5 input chip checkpoint) := by
  induction bursts generalizing state with
  | nil => exact ⟨(List.append_nil _).symm, (List.append_nil _).symm⟩
  | cons burst bursts ih =>
      obtain ⟨haccepted, hrejected, hlast⟩ :=
        @credit_burst_eq newV5 input chip checkpoint state burst
      obtain ⟨hmore, hothers⟩ := ih (creditBurst newV5 input chip checkpoint state burst)
      rw [hlast] at hmore hothers
      constructor
      · rw [List.foldl_cons, hmore, haccepted, verdicts, List.append_assoc, List.filterMap_cons]
        cases crossingFrom newV5 input chip checkpoint
          (burst, verdictOf input checkpoint state.2 burst) <;> rfl
      · rw [List.foldl_cons, hothers, hrejected, verdicts, List.append_assoc, List.flatMap_cons]

/-- The places some read belongs to, in order. -/
def places (input : DerivationInput) : List (ChipId ×ₗ CheckpointId) :=
  groupKeys (placeOf input) input.reads

/-- The loops collect what becomes of the bursts of every place. -/
theorem credit_groups_eq_verdicts (newV5 : Uuid → String → Uuid) (input : DerivationInput) :
    (creditGroups newV5 input).accepted = (places input).flatMap (fun place =>
        creditedAt newV5 input (ofLex place).1 (ofLex place).2) ∧
      (creditGroups newV5 input).rejected = (unmappedReads input).map unmapped ++
        (places input).flatMap fun place =>
          rejectedAt newV5 input (ofLex place).1 (ofLex place).2 := by
  have hfold : ∀ (places : List (ChipId ×ₗ CheckpointId)) (crossings : Crossings),
      let next := places.foldl (fun crossings place => creditGroup newV5 input crossings
        (place, itemsWith (placeOf input) place input.reads)) crossings
      next.accepted = crossings.accepted ++ places.flatMap (fun place =>
          creditedAt newV5 input (ofLex place).1 (ofLex place).2) ∧
        next.rejected = crossings.rejected ++ places.flatMap fun place =>
          rejectedAt newV5 input (ofLex place).1 (ofLex place).2 := by
    intro places
    induction places with
    | nil => exact fun _ => ⟨(List.append_nil _).symm, (List.append_nil _).symm⟩
    | cons place places ih =>
        intro crossings
        obtain ⟨haccepted, hrejected⟩ := @credit_bursts_eq newV5 input (ofLex place).1
          (ofLex place).2 (crossings, none) (burstsAt input (ofLex place).1 (ofLex place).2)
        obtain ⟨hmore, hothers⟩ := ih (creditGroup newV5 input crossings
          (place, itemsWith (placeOf input) place input.reads))
        constructor
        · rw [List.foldl_cons, hmore, List.flatMap_cons, ← List.append_assoc]
          exact congrArg (· ++ _) haccepted
        · rw [List.foldl_cons, hothers, List.flatMap_cons, ← List.append_assoc]
          exact congrArg (· ++ _) hrejected
  rw [credit_groups_eq]
  exact hfold _ _

/-! ## The verdict on one burst -/

/-- A burst that is credited is credited with the read the rule selects. -/
theorem selected_of_credited {burst : List StoredRawRead} {chosen : StoredRawRead}
    {raceSide : Bool} (h : verdictOf input checkpoint last burst = .credited chosen raceSide) :
    select burst (input.policy.selectionRuleFor checkpoint) = some chosen ∧
      raceSide = onTheRaceSide burst input.gunTime := by
  unfold verdictOf at h
  cases hselect : select burst (input.policy.selectionRuleFor checkpoint) with
  | none =>
      rw [hselect] at h
      cases h
  | some selected =>
      rw [hselect] at h
      simp only at h
      split at h
      · cases h
      · cases h
        exact ⟨rfl, rfl⟩

theorem verdicts_append (front back : List (List StoredRawRead)) :
    verdicts input checkpoint last (front ++ back) =
      verdicts input checkpoint last front ++
        verdicts input checkpoint (referenceAfter input checkpoint last front) back := by
  induction front generalizing last with
  | nil => rfl
  | cons burst front ih =>
      rw [List.cons_append, verdicts, verdicts, ih]
      rfl

theorem map_fst_verdicts (bursts : List (List StoredRawRead)) :
    (verdicts input checkpoint last bursts).map Prod.fst = bursts := by
  induction bursts generalizing last with
  | nil => rfl
  | cons burst bursts ih => rw [verdicts, List.map_cons, ih]

/-- A verdict is on one of the bursts, behind what was credited before it. -/
theorem mem_verdicts {bursts : List (List StoredRawRead)} {burst : List StoredRawRead}
    {verdict : Verdict} (h : (burst, verdict) ∈ verdicts input checkpoint last bursts) :
    ∃ front back, bursts = front ++ burst :: back ∧
      verdict = verdictOf input checkpoint (referenceAfter input checkpoint last front) burst := by
  induction bursts generalizing last with
  | nil => cases h
  | cons first bursts ih =>
      rcases List.mem_cons.mp h with heq | h
      · cases heq
        exact ⟨[], bursts, rfl, rfl⟩
      · obtain ⟨front, back, rfl, hverdict⟩ := ih h
        exact ⟨first :: front, back, rfl, hverdict⟩

/-- A crossing of a verdict is that of its burst. -/
theorem crossing_of_verdict {bursts : List (List StoredRawRead)}
    {judged : List StoredRawRead × Verdict} {crossing : AcceptedRead}
    (hjudged : judged ∈ verdicts input checkpoint last bursts)
    (hcrossing : crossingFrom newV5 input chip checkpoint judged = some crossing) :
    CrossingOfBurst newV5 input chip checkpoint judged.1 crossing := by
  obtain ⟨burst, verdict⟩ := judged
  obtain ⟨front, back, -, hverdict⟩ := mem_verdicts hjudged
  cases verdict with
  | credited chosen raceSide =>
      cases hcrossing
      exact ⟨chosen, (selected_of_credited hverdict.symm).1, rfl⟩
  | belowFloor => cases hcrossing
  | belowMinLap minLapMs actualMs => cases hcrossing

/-! ## The crossings of one place -/

/-- The bursts of a place are apart. -/
theorem bursts_at_apart (input : DerivationInput) (chip : ChipId) (checkpoint : CheckpointId) :
    (burstsAt input chip checkpoint).Pairwise fun burst later =>
      ∀ first ∈ burst, ∀ second ∈ later,
        first.read.authoritativeTimestamp < second.read.authoritativeTimestamp := by
  refine (apart_of_maximal_runs (maximal_runs _ _) (in_order_times _)).imp ?_
  intro burst later hapart first hfirst second hsecond
  have hgap := hapart first hfirst second hsecond
  rw [OffsetDateTime.lt_iff]
  rw [windowAt, Duration.lt_iff, OffsetDateTime.sub_nanos] at hgap
  unfold i64OrMax Duration.milliseconds i64Max i64Min at hgap
  dsimp only at hgap
  split_ifs at hgap <;> omega

/-- The crossings of a place are of its chip and its checkpoint. -/
theorem place_of_mem_credited_at {crossing : AcceptedRead}
    (h : crossing ∈ creditedAt newV5 input chip checkpoint) :
    crossing.chip = chip ∧ crossing.checkpoint = checkpoint := by
  obtain ⟨judged, hjudged, hcrossing⟩ := List.mem_filterMap.mp h
  obtain ⟨chosen, -, rfl⟩ := crossing_of_verdict hjudged hcrossing
  exact ⟨rfl, rfl⟩

/-- The crossings of a place are in the order of their times. -/
theorem credited_at_sorted (newV5 : Uuid → String → Uuid) (input : DerivationInput)
    (chip : ChipId) (checkpoint : CheckpointId) :
    (creditedAt newV5 input chip checkpoint).Pairwise fun first second =>
      first.at < second.at := by
  have hbursts := bursts_at_apart input chip checkpoint
  rw [← @map_fst_verdicts input checkpoint none (burstsAt input chip checkpoint),
    List.pairwise_map] at hbursts
  refine List.pairwise_filterMap.mpr (hbursts.imp_of_mem ?_)
  intro judged later hjudged hlater hapart first hfirst second hsecond
  obtain ⟨chosen, hselect, rfl⟩ := crossing_of_verdict hjudged hfirst
  obtain ⟨chosen', hselect', rfl⟩ := crossing_of_verdict hlater hsecond
  exact hapart chosen (mem_of_select hselect) chosen' (mem_of_select hselect')

/-- A place without reads has no bursts. -/
theorem bursts_at_eq_nil (h : toLex (chip, checkpoint) ∉ places input) :
    burstsAt input chip checkpoint = [] := by
  have hnil : itemsWith (placeOf input) (toLex (chip, checkpoint)) input.reads = [] := by
    refine List.eq_nil_iff_forall_not_mem.mpr fun stored hstored => h ?_
    exact mem_keys_group_by.mpr ⟨stored, mem_items_with.mp hstored⟩
  rw [burstsAt, hnil]
  rfl

/-- The crossings of a derivation at one place are those of the verdicts there. -/
theorem accepted_at (newV5 : Uuid → String → Uuid) (input : DerivationInput) (chip : ChipId)
    (checkpoint : CheckpointId) :
    ((derive newV5 input).accepted.filter fun crossing =>
        crossing.chip = chip ∧ crossing.checkpoint = checkpoint) =
      creditedAt newV5 input chip checkpoint := by
  have hgroups : ((creditGroups newV5 input).accepted.filter fun crossing =>
      crossing.chip = chip ∧ crossing.checkpoint = checkpoint) =
        creditedAt newV5 input chip checkpoint := by
    have hself : ((creditedAt newV5 input chip checkpoint).filter fun crossing =>
        crossing.chip = chip ∧ crossing.checkpoint = checkpoint) =
          creditedAt newV5 input chip checkpoint :=
      List.filter_eq_self.mpr fun crossing hcrossing =>
        decide_eq_true (place_of_mem_credited_at hcrossing)
    rw [(credit_groups_eq_verdicts newV5 input).1, List.filter_flatMap]
    refine (@flat_map_eq_of_others _ _ (places input) ((sorted_keys _).imp fun h => h.ne) _
      (toLex (chip, checkpoint)) (fun place _ hne => ?_) fun hnone => ?_).trans hself
    · refine List.filter_eq_nil_iff.mpr fun crossing hcrossing hwhere => hne ?_
      obtain ⟨hchip, hcheckpoint⟩ := place_of_mem_credited_at hcrossing
      obtain ⟨hchip', hcheckpoint'⟩ := of_decide_eq_true hwhere
      exact congrArg toLex (Prod.ext (hchip.symm.trans hchip')
        (hcheckpoint.symm.trans hcheckpoint'))
    · show (creditedAt newV5 input chip checkpoint).filter _ = []
      rw [creditedAt, verdictsAt, bursts_at_eq_nil hnone]
      rfl
  show (sortByKey (fun crossing : AcceptedRead => toLex (crossing.at, crossing.id))
    (creditGroups newV5 input).accepted).filter _ = _
  rw [sort_by_key_filter, hgroups]
  -- they are sorted already
  refine List.Pairwise.insertionSort_eq ((credited_at_sorted newV5 input chip checkpoint).imp ?_)
  intro first second hlt
  exact Prod.Lex.toLex_le_toLex.mpr (Or.inl hlt)

/-! ## The suppressions of one place -/

/-- The reads of a burst are reads of its place. -/
theorem place_of_mem_burst {burst : List StoredRawRead}
    (hburst : burst ∈ burstsAt input chip checkpoint) {stored : StoredRawRead}
    (hstored : stored ∈ burst) :
    stored ∈ input.reads ∧ placeOf input stored = some (toLex (chip, checkpoint)) := by
  have hmem : stored ∈ (burstsAt input chip checkpoint).flatten :=
    List.mem_flatten.mpr ⟨burst, hburst, hstored⟩
  rw [burstsAt, (maximal_runs _ _).together, inOrder, mem_sort_by_key] at hmem
  exact mem_items_with.mp hmem

/-- The suppressions of a derivation are those of unmapped reads and those of the verdicts. -/
theorem mem_rejected {entry : RejectedRead} :
    entry ∈ (derive newV5 input).rejected ↔ entry ∈ (unmappedReads input).map unmapped ∨
      ∃ chip checkpoint, entry ∈ rejectedAt newV5 input chip checkpoint := by
  have hmem : entry ∈ (derive newV5 input).rejected ↔
      entry ∈ (creditGroups newV5 input).rejected := mem_sort_by_key
  rw [hmem, (credit_groups_eq_verdicts newV5 input).2, List.mem_append, List.mem_flatMap]
  refine or_congr_right ⟨fun h => ?_, fun h => ?_⟩
  · obtain ⟨place, -, hentry⟩ := h
    exact ⟨_, _, hentry⟩
  · obtain ⟨chip, checkpoint, hentry⟩ := h
    refine ⟨toLex (chip, checkpoint), ?_, hentry⟩
    by_contra hnot
    rw [rejectedAt, verdictsAt, bursts_at_eq_nil hnot] at hentry
    cases hentry

/-- A suppression is of a read of a burst that was judged. -/
theorem burst_of_mem_rejected_at {entry : RejectedRead}
    (h : entry ∈ rejectedAt newV5 input chip checkpoint) :
    ∃ burst verdict, (burst, verdict) ∈ verdictsAt input chip checkpoint ∧
      entry ∈ rejectionsFrom newV5 input chip checkpoint (burst, verdict) ∧
      ∃ stored ∈ burst, entry.rawRead = stored.read.id := by
  obtain ⟨⟨burst, verdict⟩, hjudged, hentry⟩ := List.mem_flatMap.mp h
  refine ⟨burst, verdict, hjudged, hentry, ?_⟩
  cases verdict with
  | credited chosen raceSide =>
      obtain ⟨stored, hstored, rfl⟩ := List.mem_map.mp hentry
      exact ⟨stored, (List.mem_filter.mp hstored).1, rfl⟩
  | belowFloor =>
      obtain ⟨stored, hstored, rfl⟩ := List.mem_map.mp hentry
      exact ⟨stored, hstored, rfl⟩
  | belowMinLap minLapMs actualMs =>
      obtain ⟨stored, hstored, rfl⟩ := List.mem_map.mp hentry
      exact ⟨stored, hstored, rfl⟩

/-- A burst that was judged is one of the bursts. -/
theorem burst_of_judged {burst : List StoredRawRead} {verdict : Verdict}
    (h : (burst, verdict) ∈ verdictsAt input chip checkpoint) :
    burst ∈ burstsAt input chip checkpoint := by
  obtain ⟨front, back, hsplit, -⟩ := mem_verdicts h
  rw [hsplit]
  exact List.mem_append_right _ List.mem_cons_self

end Splitforge.Engine
