import Splitforge.Engine.Verdicts

/-!
# The minimum lap

A lap is measured from the crossing credited last, and not across the gun. What the loop carries is
the latest crossing behind a burst, so the rule can be said of a derivation: crossings on one side
of the gun are a minimum lap apart, and a burst is too fast exactly when it is too close behind the
latest crossing, unless that was a warm-up and the race is on.
-/

namespace Splitforge.Engine

open Splitforge.Domain Splitforge.Library

variable {newV5 : Uuid → String → Uuid} {input : DerivationInput} {chip : ChipId}
variable {checkpoint : CheckpointId} {last : Option (OffsetDateTime × Bool)}

/-! ## One lap -/

/-- Whole milliseconds are fewer than some exactly when the span is shorter than those. -/
theorem whole_milliseconds_lt_iff {earlier later : OffsetDateTime} (h : earlier ≤ later)
    {number : Nat} :
    (later - earlier).wholeMilliseconds < number ↔
      later - earlier < Duration.milliseconds number := by
  rw [OffsetDateTime.le_iff] at h
  rw [Duration.lt_iff, Duration.wholeMilliseconds, OffsetDateTime.sub_nanos,
    Int.tdiv_eq_ediv_of_nonneg (by omega)]
  unfold Duration.milliseconds
  dsimp only
  omega

/-- A lap is too fast when it is measured, not across the gun, and shorter than the minimum. -/
theorem lap_violation_iff {policy : TimingPolicy} {minLapMs : Nat}
    (hlap : policy.minLapMs = some minLapMs) {previous at' : OffsetDateTime}
    (hle : previous ≤ at') (previousRaceSide raceSide : Bool) :
    (lapViolation policy (some (previous, previousRaceSide)) at' raceSide).isSome = true ↔
      at' - previous < Duration.milliseconds minLapMs ∧
        ¬ (previousRaceSide = false ∧ raceSide = true) := by
  rw [← whole_milliseconds_lt_iff hle]
  unfold lapViolation
  rw [hlap]
  dsimp only
  cases previousRaceSide <;> cases raceSide <;> simp

/-- What is reported of a lap that is too fast is the minimum. -/
theorem min_lap_of_violation {policy : TimingPolicy} {at' : OffsetDateTime} {raceSide : Bool}
    {minLapMs : Nat} {actualMs : Int}
    (h : lapViolation policy last at' raceSide = some (minLapMs, actualMs)) :
    policy.minLapMs = some minLapMs := by
  unfold lapViolation at h
  cases hlap : policy.minLapMs with
  | none =>
      rw [hlap] at h
      cases h
  | some least =>
      rw [hlap] at h
      cases last with
      | none => cases h
      | some last =>
          dsimp only at h
          split_ifs at h
          cases h
          rfl

/-- The first lap is measured from nothing. -/
theorem lap_violation_none (policy : TimingPolicy) (at' : OffsetDateTime) (raceSide : Bool) :
    lapViolation policy none at' raceSide = none := by
  unfold lapViolation
  cases policy.minLapMs <;> rfl

/-! ## What the loop carries -/

/-- When each burst that is credited is credited, and on which side of the gun. -/
def credits (input : DerivationInput) (checkpoint : CheckpointId)
    (bursts : List (List StoredRawRead)) : List (OffsetDateTime × Bool) :=
  (verdicts input checkpoint none bursts).filterMap fun judged => judged.2.reference none

/-- The loop carries the last of the credits. -/
theorem reference_after_eq (bursts : List (List StoredRawRead)) :
    referenceAfter input checkpoint none bursts =
      (credits input checkpoint bursts).getLast? := by
  induction bursts using List.reverseRecOn with
  | nil => rfl
  | append_singleton bursts burst ih =>
      have hnext : referenceAfter input checkpoint none (bursts ++ [burst]) =
          (verdictOf input checkpoint (referenceAfter input checkpoint none bursts)
            burst).reference (referenceAfter input checkpoint none bursts) := by
        rw [referenceAfter, List.foldl_append]
        rfl
      rw [hnext, credits, verdicts_append, List.filterMap_append, ← credits]
      cases hverdict : verdictOf input checkpoint (referenceAfter input checkpoint none bursts)
          burst with
      | credited chosen raceSide =>
          rw [verdicts, hverdict]
          exact List.getLast?_concat.symm
      | belowFloor =>
          rw [verdicts, hverdict]
          exact ih.trans (congrArg List.getLast? (List.append_nil _).symm)
      | belowMinLap minLapMs actualMs =>
          rw [verdicts, hverdict]
          exact ih.trans (congrArg List.getLast? (List.append_nil _).symm)

/-- A burst of a list is credited with one of its reads. -/
structure CreditedIn (input : DerivationInput) (checkpoint : CheckpointId)
    (bursts : List (List StoredRawRead)) (burst : List StoredRawRead) (chosen : StoredRawRead) :
    Prop where
  judged : (burst, .credited chosen (onTheRaceSide burst input.gunTime)) ∈
    verdicts input checkpoint none bursts
  mem : burst ∈ bursts
  selected : select burst (input.policy.selectionRuleFor checkpoint) = some chosen

/-- A verdict that credits a burst does so with the read the rule selects. -/
theorem credited_in_of_judged {bursts : List (List StoredRawRead)} {burst : List StoredRawRead}
    {chosen : StoredRawRead} {raceSide : Bool}
    (h : (burst, .credited chosen raceSide) ∈ verdicts input checkpoint none bursts) :
    CreditedIn input checkpoint bursts burst chosen ∧
      raceSide = onTheRaceSide burst input.gunTime := by
  obtain ⟨front, back, hsplit, hverdict⟩ := mem_verdicts h
  obtain ⟨hselect, hside⟩ := selected_of_credited hverdict.symm
  refine ⟨⟨hside ▸ h, ?_, hselect⟩, hside⟩
  rw [hsplit]
  exact List.mem_append_right _ List.mem_cons_self

/-- The credits are those of the bursts that are credited. -/
theorem mem_credits {bursts : List (List StoredRawRead)} {credit : OffsetDateTime × Bool} :
    credit ∈ credits input checkpoint bursts ↔
      ∃ burst chosen, CreditedIn input checkpoint bursts burst chosen ∧
        credit = (chosen.read.authoritativeTimestamp, onTheRaceSide burst input.gunTime) := by
  constructor
  · intro h
    obtain ⟨⟨burst, verdict⟩, hjudged, hcredit⟩ := List.mem_filterMap.mp h
    cases verdict with
    | credited chosen raceSide =>
        obtain ⟨hcredited, rfl⟩ := credited_in_of_judged hjudged
        cases hcredit
        exact ⟨burst, chosen, hcredited, rfl⟩
    | belowFloor => cases hcredit
    | belowMinLap minLapMs actualMs => cases hcredit
  · intro h
    obtain ⟨burst, chosen, hcredited, rfl⟩ := h
    exact List.mem_filterMap.mpr ⟨_, hcredited.judged, rfl⟩

/-! ## Bursts of one place -/

/-- Of two bursts one is before the other. -/
theorem burst_cases {burst burst' : List StoredRawRead}
    (hburst : burst ∈ burstsAt input chip checkpoint)
    (hburst' : burst' ∈ burstsAt input chip checkpoint) :
    burst = burst' ∨
      (∀ first ∈ burst, ∀ second ∈ burst',
        first.read.authoritativeTimestamp < second.read.authoritativeTimestamp) ∨
      ∀ first ∈ burst', ∀ second ∈ burst,
        first.read.authoritativeTimestamp < second.read.authoritativeTimestamp := by
  by_cases heq : burst = burst'
  · exact Or.inl heq
  · have hsymm : Std.Symm fun burst later : List StoredRawRead =>
        (∀ first ∈ burst, ∀ second ∈ later,
          first.read.authoritativeTimestamp < second.read.authoritativeTimestamp) ∨
        ∀ first ∈ later, ∀ second ∈ burst,
          first.read.authoritativeTimestamp < second.read.authoritativeTimestamp :=
      ⟨fun _ _ => Or.symm⟩
    have hordered : (burstsAt input chip checkpoint).Pairwise fun burst later =>
        (∀ first ∈ burst, ∀ second ∈ later,
          first.read.authoritativeTimestamp < second.read.authoritativeTimestamp) ∨
        ∀ first ∈ later, ∀ second ∈ burst,
          first.read.authoritativeTimestamp < second.read.authoritativeTimestamp :=
      (bursts_at_apart input chip checkpoint).imp Or.inl
    exact Or.inr (hordered.forall hburst hburst' heq)

/-- Bursts with reads at one instant are one burst. -/
theorem burst_eq_of_at {burst burst' : List StoredRawRead} {stored stored' : StoredRawRead}
    (hburst : burst ∈ burstsAt input chip checkpoint)
    (hburst' : burst' ∈ burstsAt input chip checkpoint) (hstored : stored ∈ burst)
    (hstored' : stored' ∈ burst')
    (hat : stored.read.authoritativeTimestamp = stored'.read.authoritativeTimestamp) :
    burst = burst' := by
  rcases burst_cases hburst hburst' with heq | hbefore | hbehind
  · exact heq
  · exact absurd hat (hbefore stored hstored stored' hstored').ne
  · exact absurd hat (hbehind stored' hstored' stored hstored).ne'

/-- No burst comes twice. -/
theorem bursts_at_nodup (input : DerivationInput) (chip : ChipId) (checkpoint : CheckpointId) :
    (burstsAt input chip checkpoint).Nodup := by
  refine (bursts_at_apart input chip checkpoint).imp_of_mem ?_
  intro burst later hburst hlater h heq
  obtain ⟨stored, hstored⟩ := List.exists_mem_of_ne_nil _
    ((maximal_runs _ _).nonempty burst hburst)
  exact lt_irrefl _ (h stored hstored stored (heq ▸ hstored))

/-- A burst has one verdict. -/
theorem verdict_unique {burst : List StoredRawRead} {verdict verdict' : Verdict}
    (h : (burst, verdict) ∈ verdictsAt input chip checkpoint)
    (h' : (burst, verdict') ∈ verdictsAt input chip checkpoint) : verdict = verdict' := by
  have hnodup : ((verdictsAt input chip checkpoint).map Prod.fst).Nodup := by
    rw [verdictsAt, map_fst_verdicts]
    exact bursts_at_nodup input chip checkpoint
  exact congrArg Prod.snd (List.inj_on_of_nodup_map hnodup h h' rfl)

/-- The crossings of a place are those of its bursts that are credited. -/
theorem mem_credited_at {crossing : AcceptedRead} :
    crossing ∈ creditedAt newV5 input chip checkpoint ↔
      ∃ burst chosen, CreditedIn input checkpoint (burstsAt input chip checkpoint) burst chosen ∧
        crossing = crossingOf newV5 input chip checkpoint burst chosen := by
  constructor
  · intro h
    obtain ⟨⟨burst, verdict⟩, hjudged, hcrossing⟩ := List.mem_filterMap.mp h
    cases verdict with
    | credited chosen raceSide =>
        cases hcrossing
        exact ⟨burst, chosen, (credited_in_of_judged hjudged).1, rfl⟩
    | belowFloor => cases hcrossing
    | belowMinLap minLapMs actualMs => cases hcrossing
  · intro h
    obtain ⟨burst, chosen, hcredited, rfl⟩ := h
    exact List.mem_filterMap.mpr ⟨_, hcredited.judged, rfl⟩

/-- The crossings of a derivation at a place. -/
theorem mem_accepted_at {crossing : AcceptedRead} :
    crossing ∈ creditedAt newV5 input chip checkpoint ↔
      crossing ∈ (derive newV5 input).accepted ∧ crossing.chip = chip ∧
        crossing.checkpoint = checkpoint := by
  rw [← accepted_at, List.mem_filter, decide_eq_true_eq]

/-- A crossing is on a side of the gun when the last read of its burst is. -/
def SideOf (newV5 : Uuid → String → Uuid) (input : DerivationInput) (crossing : AcceptedRead)
    (raceSide : Bool) : Prop :=
  ∃ burst ∈ burstsAt input crossing.chip crossing.checkpoint,
    CrossingOfBurst newV5 input crossing.chip crossing.checkpoint burst crossing ∧
      onTheRaceSide burst input.gunTime = raceSide

/-- The side of a burst's crossing is that of the burst. -/
theorem side_of_iff {burst : List StoredRawRead} {chosen : StoredRawRead}
    (hburst : burst ∈ burstsAt input chip checkpoint)
    (hselect : select burst (input.policy.selectionRuleFor checkpoint) = some chosen)
    {raceSide : Bool} :
    SideOf newV5 input (crossingOf newV5 input chip checkpoint burst chosen) raceSide ↔
      onTheRaceSide burst input.gunTime = raceSide := by
  constructor
  · intro h
    obtain ⟨burst', hburst', ⟨chosen', hselect', heq⟩, hside⟩ := h
    have hat : chosen.read.authoritativeTimestamp = chosen'.read.authoritativeTimestamp :=
      congrArg AcceptedRead.at heq
    rw [burst_eq_of_at hburst hburst' (mem_of_select hselect) (mem_of_select hselect') hat]
    exact hside
  · exact fun hside => ⟨burst, hburst, ⟨chosen, hselect, rfl⟩, hside⟩

/-- A crossing is on one side. -/
theorem SideOf.unique {crossing : AcceptedRead} {raceSide raceSide' : Bool}
    (h : SideOf newV5 input crossing raceSide) (h' : SideOf newV5 input crossing raceSide') :
    raceSide = raceSide' := by
  obtain ⟨burst, hburst, ⟨chosen, hselect, heq⟩, rfl⟩ := h
  obtain ⟨burst', hburst', ⟨chosen', hselect', heq'⟩, rfl⟩ := h'
  have hat : chosen.read.authoritativeTimestamp = chosen'.read.authoritativeTimestamp :=
    (congrArg AcceptedRead.at heq).symm.trans (congrArg AcceptedRead.at heq')
  rw [burst_eq_of_at hburst hburst' (mem_of_select hselect) (mem_of_select hselect') hat]

/-- Crossings of one place at one instant are one crossing. -/
theorem crossing_eq_of_at {crossing crossing' : AcceptedRead}
    (h : crossing ∈ creditedAt newV5 input chip checkpoint)
    (h' : crossing' ∈ creditedAt newV5 input chip checkpoint) (hat : crossing.at = crossing'.at) :
    crossing = crossing' := by
  obtain ⟨burst, chosen, hcredited, rfl⟩ := mem_credited_at.mp h
  obtain ⟨burst', chosen', hcredited', rfl⟩ := mem_credited_at.mp h'
  obtain rfl := burst_eq_of_at hcredited.mem hcredited'.mem (mem_of_select hcredited.selected)
    (mem_of_select hcredited'.selected) hat
  obtain rfl := Option.some.inj (hcredited.selected.symm.trans hcredited'.selected)
  rfl

/-- Bursts that come one after the other are credited so. -/
theorem credits_sorted {bursts : List (List StoredRawRead)}
    (hbursts : bursts.Pairwise fun burst later => ∀ first ∈ burst, ∀ second ∈ later,
      first.read.authoritativeTimestamp < second.read.authoritativeTimestamp) :
    (credits input checkpoint bursts).Pairwise fun first second => first.1 < second.1 := by
  rw [← @map_fst_verdicts input checkpoint none bursts, List.pairwise_map] at hbursts
  refine List.pairwise_filterMap.mpr (hbursts.imp_of_mem ?_)
  intro judged later hjudged hlater hapart first hfirst second hsecond
  have hcredit {judged : List StoredRawRead × Verdict} {credit : OffsetDateTime × Bool}
      (hjudged : judged ∈ verdicts input checkpoint none bursts)
      (hcredit : judged.2.reference none = some credit) :
      ∃ chosen ∈ judged.1, credit.1 = chosen.read.authoritativeTimestamp := by
    obtain ⟨burst, verdict⟩ := judged
    cases verdict with
    | credited chosen raceSide =>
        cases hcredit
        exact ⟨chosen, mem_of_select (credited_in_of_judged hjudged).1.selected, rfl⟩
    | belowFloor => cases hcredit
    | belowMinLap minLapMs actualMs => cases hcredit
  obtain ⟨chosen, hchosen, hat⟩ := hcredit hjudged hfirst
  obtain ⟨chosen', hchosen', hat'⟩ := hcredit hlater hsecond
  rw [hat, hat']
  exact hapart chosen hchosen chosen' hchosen'

/-- A crossing is the latest of a place before an instant. -/
structure LatestBefore (accepted : List AcceptedRead) (chip : ChipId) (checkpoint : CheckpointId)
    (instant : OffsetDateTime) (previous : AcceptedRead) : Prop where
  mem : previous ∈ accepted
  worn : previous.chip = chip
  seen : previous.checkpoint = checkpoint
  before : previous.at < instant
  latest : ∀ other ∈ accepted, other.chip = chip → other.checkpoint = checkpoint →
    other.at < instant → other.at ≤ previous.at

section Behind

variable {front back : List (List StoredRawRead)} {burst : List StoredRawRead}
variable {chosen : StoredRawRead}
variable (hsplit : burstsAt input chip checkpoint = front ++ burst :: back)
variable (hselect : select burst (input.policy.selectionRuleFor checkpoint) = some chosen)

include hsplit hselect

/-- The bursts credited before a burst are those credited earlier than it would be. -/
theorem credited_before_iff {burst' : List StoredRawRead} {chosen' : StoredRawRead} :
    CreditedIn input checkpoint front burst' chosen' ↔
      CreditedIn input checkpoint (burstsAt input chip checkpoint) burst' chosen' ∧
        chosen'.read.authoritativeTimestamp < chosen.read.authoritativeTimestamp := by
  have hapart := bursts_at_apart input chip checkpoint
  have hnodup := bursts_at_nodup input chip checkpoint
  rw [hsplit] at hapart hnodup
  have hverdicts : verdicts input checkpoint none (burstsAt input chip checkpoint) =
      verdicts input checkpoint none front ++
        verdicts input checkpoint (referenceAfter input checkpoint none front) (burst :: back) := by
    rw [hsplit, verdicts_append]
  constructor
  · intro h
    refine ⟨⟨?_, ?_, h.selected⟩, ?_⟩
    · rw [hverdicts]
      exact List.mem_append_left _ h.judged
    · rw [hsplit]
      exact List.mem_append_left _ h.mem
    · exact (List.pairwise_append.mp hapart).2.2 burst' h.mem burst List.mem_cons_self chosen'
        (mem_of_select h.selected) chosen (mem_of_select hselect)
  · intro h
    obtain ⟨hcredited, hlt⟩ := h
    have hjudged := hcredited.judged
    rw [hverdicts] at hjudged
    rcases List.mem_append.mp hjudged with hfront | hback
    · exact (credited_in_of_judged hfront).1
    · -- what is behind is not earlier
      exfalso
      obtain ⟨front', back', hrest, -⟩ := mem_verdicts hback
      have hmem : burst' ∈ burst :: back := by
        rw [hrest]
        exact List.mem_append_right _ List.mem_cons_self
      rcases List.mem_cons.mp hmem with rfl | hmem
      · have heq := hselect.symm.trans hcredited.selected
        cases heq
        exact lt_irrefl _ hlt
      · have hbehind := (List.pairwise_cons.mp (List.pairwise_append.mp hapart).2.1).1 burst' hmem
          chosen (mem_of_select hselect) chosen' (mem_of_select hcredited.selected)
        exact lt_asymm hlt hbehind

/-- What the loop carries to a burst is the latest crossing before it, and its side. -/
theorem exists_latest_of_reference {previous : OffsetDateTime × Bool}
    (h : referenceAfter input checkpoint none front = some previous) :
    ∃ crossing, LatestBefore (derive newV5 input).accepted chip checkpoint
        chosen.read.authoritativeTimestamp crossing ∧
      crossing.at = previous.1 ∧ SideOf newV5 input crossing previous.2 := by
  rw [reference_after_eq] at h
  have hsorted : (credits input checkpoint front).Pairwise fun first second =>
      first.1 < second.1 := by
    have hapart := bursts_at_apart input chip checkpoint
    rw [hsplit] at hapart
    exact credits_sorted (List.pairwise_append.mp hapart).1
  obtain ⟨burst', chosen', hcredited, rfl⟩ := mem_credits.mp (List.mem_of_getLast? h)
  obtain ⟨hmem, hlt⟩ := (credited_before_iff hsplit hselect).mp hcredited
  obtain ⟨haccepted, -, -⟩ := mem_accepted_at.mp (mem_credited_at.mpr
    ⟨burst', chosen', hmem, rfl⟩ : crossingOf newV5 input chip checkpoint burst' chosen' ∈
      creditedAt newV5 input chip checkpoint)
  refine ⟨_, ⟨haccepted, rfl, rfl, hlt, ?_⟩, rfl, (side_of_iff hmem.mem hmem.selected).mpr rfl⟩
  -- another one before the burst is among the credits, and the last of them is the latest
  intro other hother hchip hcheckpoint hbefore
  obtain ⟨burst'', chosen'', hcredited'', rfl⟩ :=
    mem_credited_at.mp (mem_accepted_at.mpr ⟨hother, hchip, hcheckpoint⟩)
  have hcredit := mem_credits.mpr ⟨burst'', chosen'',
    (credited_before_iff hsplit hselect).mpr ⟨hcredited'', hbefore⟩, rfl⟩
  obtain ⟨init, hinit⟩ := List.getLast?_eq_some_iff.mp h
  rw [hinit] at hcredit hsorted
  rcases List.mem_append.mp hcredit with hcredit | hcredit
  · exact ((List.pairwise_append.mp hsorted).2.2 _ hcredit _ (List.mem_singleton_self _)).le
  · exact (congrArg Prod.fst (List.mem_singleton.mp hcredit)).le

/-- The latest crossing before a burst is what the loop carries to it. -/
theorem reference_of_latest {crossing : AcceptedRead}
    (h : LatestBefore (derive newV5 input).accepted chip checkpoint
      chosen.read.authoritativeTimestamp crossing) {raceSide : Bool}
    (hside : SideOf newV5 input crossing raceSide) :
    referenceAfter input checkpoint none front = some (crossing.at, raceSide) := by
  have hmem := mem_accepted_at.mpr ⟨h.mem, h.worn, h.seen⟩
  cases hreference : referenceAfter input checkpoint none front with
  | none =>
      obtain ⟨burst', chosen', hcredited, rfl⟩ := mem_credited_at.mp hmem
      have hcredit := mem_credits.mpr ⟨burst', chosen',
        (credited_before_iff hsplit hselect).mpr ⟨hcredited, h.before⟩, rfl⟩
      rw [reference_after_eq, List.getLast?_eq_none_iff] at hreference
      rw [hreference] at hcredit
      cases hcredit
  | some previous =>
      obtain ⟨latest, hlatest, hat, hside'⟩ :=
        @exists_latest_of_reference newV5 _ _ _ _ _ _ _ hsplit hselect _ hreference
      have hle := h.latest latest hlatest.mem hlatest.worn hlatest.seen hlatest.before
      have hge := hlatest.latest crossing h.mem h.worn h.seen h.before
      obtain rfl := crossing_eq_of_at hmem
        (mem_accepted_at.mpr ⟨hlatest.mem, hlatest.worn, hlatest.seen⟩) (le_antisymm hge hle)
      rw [hat, hside.unique hside']

end Behind

/-! ## The rule -/

/-- A burst is too fast: it would be credited less than the minimum behind the latest crossing
before it, and that was not a warm-up with the race on by now. -/
def TooFast (newV5 : Uuid → String → Uuid) (input : DerivationInput) (minLapMs : Nat)
    (chip : ChipId) (checkpoint : CheckpointId) (burst : List StoredRawRead)
    (chosen : StoredRawRead) : Prop :=
  ∃ previous, LatestBefore (derive newV5 input).accepted chip checkpoint
      chosen.read.authoritativeTimestamp previous ∧
    chosen.read.authoritativeTimestamp - previous.at < Duration.milliseconds minLapMs ∧
    ¬ (SideOf newV5 input previous false ∧ onTheRaceSide burst input.gunTime = true)

/-- A burst is too fast when the loop finds a violation behind what it carries to the burst. -/
theorem too_fast_iff_violation {minLapMs : Nat} (hlap : input.policy.minLapMs = some minLapMs)
    {front back : List (List StoredRawRead)} {burst : List StoredRawRead} {chosen : StoredRawRead}
    (hsplit : burstsAt input chip checkpoint = front ++ burst :: back)
    (hselect : select burst (input.policy.selectionRuleFor checkpoint) = some chosen) :
    TooFast newV5 input minLapMs chip checkpoint burst chosen ↔
      (lapViolation input.policy (referenceAfter input checkpoint none front)
        chosen.read.authoritativeTimestamp
        (onTheRaceSide burst input.gunTime)).isSome = true := by
  constructor
  · intro h
    obtain ⟨previous, hlatest, hclose, hacross⟩ := h
    obtain ⟨burst', chosen', hcredited, rfl⟩ := mem_credited_at.mp
      (mem_accepted_at.mpr ⟨hlatest.mem, hlatest.worn, hlatest.seen⟩)
    have hside := (@side_of_iff newV5 _ _ _ _ _ hcredited.mem hcredited.selected _).mpr rfl
    rw [reference_of_latest hsplit hselect hlatest hside,
      lap_violation_iff hlap hlatest.before.le]
    refine ⟨hclose, fun hboth => hacross ⟨?_, hboth.2⟩⟩
    rw [← hboth.1]
    exact hside
  · intro h
    cases hreference : referenceAfter input checkpoint none front with
    | none =>
        rw [hreference, lap_violation_none] at h
        cases h
    | some previous =>
        obtain ⟨crossing, hlatest, hat, hside⟩ :=
          @exists_latest_of_reference newV5 _ _ _ _ _ _ _ hsplit hselect _ hreference
        rw [hreference, ← Prod.eta previous, ← hat,
          lap_violation_iff hlap hlatest.before.le] at h
        exact ⟨crossing, hlatest, h.1, fun hboth => h.2 ⟨hside.unique hboth.1, hboth.2⟩⟩

section Rule

variable {minLapMs : Nat} (hlap : input.policy.minLapMs = some minLapMs)
variable {burst : List StoredRawRead} {chosen : StoredRawRead}
variable (hburst : burst ∈ burstsAt input chip checkpoint)
variable (hselect : select burst (input.policy.selectionRuleFor checkpoint) = some chosen)

include hlap hburst hselect

/-- The verdict on a burst that passed selection: its lap is too fast, or it is credited. -/
theorem verdict_cases (newV5 : Uuid → String → Uuid) :
    (TooFast newV5 input minLapMs chip checkpoint burst chosen ∧
      ∃ actualMs, (burst, .belowMinLap minLapMs actualMs) ∈ verdictsAt input chip checkpoint) ∨
    (¬ TooFast newV5 input minLapMs chip checkpoint burst chosen ∧
      CreditedIn input checkpoint (burstsAt input chip checkpoint) burst chosen) := by
  obtain ⟨front, back, hsplit⟩ := List.append_of_mem hburst
  let reference := referenceAfter input checkpoint none front
  have hjudged : (burst, verdictOf input checkpoint reference burst) ∈
      verdictsAt input chip checkpoint := by
    rw [verdictsAt, hsplit, verdicts_append]
    exact List.mem_append_right _ List.mem_cons_self
  unfold verdictOf at hjudged
  rw [hselect] at hjudged
  simp only at hjudged
  rw [too_fast_iff_violation hlap hsplit hselect]
  cases hviolation : lapViolation input.policy reference chosen.read.authoritativeTimestamp
      (onTheRaceSide burst input.gunTime) with
  | none =>
      rw [hviolation] at hjudged
      exact Or.inr ⟨Bool.false_ne_true, (credited_in_of_judged hjudged).1⟩
  | some violation =>
      rw [hviolation] at hjudged
      obtain ⟨least, actualMs⟩ := violation
      obtain rfl := Option.some.inj (hlap.symm.trans (min_lap_of_violation hviolation))
      exact Or.inl ⟨rfl, actualMs, hjudged⟩

/-- A burst that passed selection is credited unless it is too fast. -/
theorem credited_iff_not_too_fast :
    (∃ crossing ∈ (derive newV5 input).accepted,
      CrossingOfBurst newV5 input chip checkpoint burst crossing) ↔
        ¬ TooFast newV5 input minLapMs chip checkpoint burst chosen := by
  rcases verdict_cases hlap hburst hselect newV5 with ⟨hfast, actualMs, hjudged⟩ | ⟨hnot, hcredited⟩
  · refine iff_of_false (fun h => ?_) fun h => h hfast
    obtain ⟨crossing, hcrossing, chosen', hselect', rfl⟩ := h
    obtain ⟨burst', chosen'', hcredited, heq⟩ :=
      mem_credited_at.mp (mem_accepted_at.mpr ⟨hcrossing, rfl, rfl⟩)
    obtain rfl := burst_eq_of_at hburst hcredited.mem (mem_of_select hselect')
      (mem_of_select hcredited.selected) (congrArg AcceptedRead.at heq)
    have hsame := verdict_unique hjudged hcredited.judged
    cases hsame
  · refine iff_of_true ?_ hnot
    obtain ⟨haccepted, -, -⟩ := mem_accepted_at.mp (mem_credited_at.mpr
      ⟨burst, chosen, hcredited, rfl⟩ : crossingOf newV5 input chip checkpoint burst chosen ∈
        creditedAt newV5 input chip checkpoint)
    exact ⟨_, haccepted, chosen, hselect, rfl⟩

/-- All reads of a burst that is too fast are suppressed for it. -/
theorem rejected_of_too_fast (hfast : TooFast newV5 input minLapMs chip checkpoint burst chosen) :
    ∃ actualMs, ∀ stored ∈ burst,
      ⟨stored.read.id, .belowMinLap minLapMs actualMs⟩ ∈ (derive newV5 input).rejected := by
  rcases verdict_cases hlap hburst hselect newV5 with ⟨-, actualMs, hjudged⟩ | ⟨hnot, -⟩
  · refine ⟨actualMs, fun stored hstored => mem_rejected.mpr (Or.inr ⟨chip, checkpoint, ?_⟩)⟩
    exact List.mem_flatMap.mpr ⟨_, hjudged, List.mem_map.mpr ⟨stored, hstored, rfl⟩⟩
  · exact absurd hfast hnot

/-- Where reads have different identifiers, only reads of a burst that is too fast are suppressed
for it. -/
theorem too_fast_of_rejected (hids : (input.reads.map fun stored => stored.read.id).Nodup)
    {stored : StoredRawRead} (hstored : stored ∈ burst) {actualMs : Int}
    (h : ⟨stored.read.id, .belowMinLap minLapMs actualMs⟩ ∈ (derive newV5 input).rejected) :
    TooFast newV5 input minLapMs chip checkpoint burst chosen := by
  rcases mem_rejected.mp h with hunmapped | ⟨chip', checkpoint', hentry⟩
  · obtain ⟨other, -, heq⟩ := List.mem_map.mp hunmapped
    have hreason := congrArg RejectedRead.reason heq
    cases hreason
  · obtain ⟨burst', verdict, hjudged, hentry, other, hother, hid⟩ := burst_of_mem_rejected_at hentry
    obtain ⟨hmem, hplace⟩ := place_of_mem_burst hburst hstored
    obtain ⟨hmem', hplace'⟩ := place_of_mem_burst (burst_of_judged hjudged) hother
    obtain rfl := List.inj_on_of_nodup_map hids hmem hmem' hid
    have hsame := toLex_inj.mp (Option.some.inj (hplace.symm.trans hplace'))
    cases hsame
    obtain rfl := burst_eq_of_at hburst (burst_of_judged hjudged) hstored hother rfl
    rcases verdict_cases hlap hburst hselect newV5 with ⟨hfast, -⟩ | ⟨-, hcredited⟩
    · exact hfast
    · obtain rfl := verdict_unique hjudged hcredited.judged
      obtain ⟨duplicate, -, heq⟩ := List.mem_map.mp hentry
      have hreason := congrArg RejectedRead.reason heq
      cases hreason

end Rule

/-! ## The law -/

/-- Behind a crossing on the race side everything of its place is on the race side. -/
theorem race_side_of_le {crossing later : AcceptedRead}
    (h : crossing ∈ creditedAt newV5 input chip checkpoint)
    (hlater : later ∈ creditedAt newV5 input chip checkpoint) (hle : crossing.at ≤ later.at)
    (hside : SideOf newV5 input crossing true) : SideOf newV5 input later true := by
  obtain ⟨burst, chosen, hcredited, rfl⟩ := mem_credited_at.mp h
  obtain ⟨burst', chosen', hcredited', rfl⟩ := mem_credited_at.mp hlater
  rw [side_of_iff hcredited.mem hcredited.selected] at hside
  rw [side_of_iff hcredited'.mem hcredited'.selected]
  rcases burst_cases hcredited.mem hcredited'.mem with rfl | hbefore | hbehind
  · exact hside
  · unfold onTheRaceSide at hside ⊢
    cases hgun : input.gunTime with
    | none => rfl
    | some gun =>
        rw [hgun, Option.all_some] at hside
        obtain ⟨last, hlast, hrace⟩ := (Option.any_eq_true _ _).mp hside
        have hne : burst' ≠ [] := List.ne_nil_of_mem (mem_of_select hcredited'.selected)
        -- the last read of the later burst is later still
        have hlt := hbefore last (List.mem_of_getLast? hlast) _ (List.getLast_mem hne)
        rw [Option.all_some, List.getLast?_eq_some_getLast hne, Option.any_some]
        exact decide_eq_true ((of_decide_eq_true hrace).trans hlt.le)
  · have hlt := hbehind chosen' (mem_of_select hcredited'.selected) chosen
      (mem_of_select hcredited.selected)
    exact absurd hle (not_le.mpr hlt)

/-- Crossings of one place on one side of the gun are credited the minimum apart. -/
theorem min_lap_apart {minLapMs : Nat} (hlap : input.policy.minLapMs = some minLapMs)
    {first second : AcceptedRead} (hfirst : first ∈ creditedAt newV5 input chip checkpoint)
    (hsecond : second ∈ creditedAt newV5 input chip checkpoint) (hlt : first.at < second.at)
    {raceSide : Bool} (hside : SideOf newV5 input first raceSide)
    (hside' : SideOf newV5 input second raceSide) :
    Duration.milliseconds minLapMs ≤ second.at - first.at := by
  obtain ⟨haccepted, -, -⟩ := mem_accepted_at.mp hsecond
  obtain ⟨burst, chosen, hcredited, rfl⟩ := mem_credited_at.mp hsecond
  obtain ⟨front, back, hsplit⟩ := List.append_of_mem hcredited.mem
  have hnot := (credited_iff_not_too_fast hlap hcredited.mem hcredited.selected).mp
    ⟨_, haccepted, chosen, hcredited.selected, rfl⟩
  -- the first crossing is before the burst, so the loop carries one to it
  obtain ⟨previous, hlatest⟩ : ∃ previous, LatestBefore (derive newV5 input).accepted chip
      checkpoint chosen.read.authoritativeTimestamp previous := by
    obtain ⟨burst', chosen', hcredited', rfl⟩ := mem_credited_at.mp hfirst
    have hcredit := mem_credits.mpr ⟨burst', chosen',
      (credited_before_iff hsplit hcredited.selected).mpr ⟨hcredited', hlt⟩, rfl⟩
    cases hreference : referenceAfter input checkpoint none front with
    | none =>
        rw [reference_after_eq, List.getLast?_eq_none_iff] at hreference
        rw [hreference] at hcredit
        cases hcredit
    | some reference =>
        obtain ⟨previous, hlatest, -⟩ :=
          @exists_latest_of_reference newV5 _ _ _ _ _ _ _ hsplit hcredited.selected _ hreference
        exact ⟨previous, hlatest⟩
  obtain ⟨hfirstAccepted, hchip, hcheckpoint⟩ := mem_accepted_at.mp hfirst
  have hle := hlatest.latest first hfirstAccepted hchip hcheckpoint hlt
  have hacross : ¬ (SideOf newV5 input previous false ∧
      onTheRaceSide burst input.gunTime = true) := by
    intro hboth
    obtain ⟨hwarm, hrace⟩ := hboth
    rw [side_of_iff hcredited.mem hcredited.selected, hrace] at hside'
    have hpast := race_side_of_le hfirst
      (mem_accepted_at.mpr ⟨hlatest.mem, hlatest.worn, hlatest.seen⟩) hle (hside' ▸ hside)
    cases hwarm.unique hpast
  have hgap : ¬ chosen.read.authoritativeTimestamp - previous.at <
      Duration.milliseconds minLapMs :=
    fun hclose => hnot ⟨previous, hlatest, hclose, hacross⟩
  refine (not_lt.mp hgap).trans ?_
  rw [OffsetDateTime.le_iff] at hle
  show chosen.read.authoritativeTimestamp.nanos - previous.at.nanos ≤
    chosen.read.authoritativeTimestamp.nanos - first.at.nanos
  omega

/-- The first crossing on the race side is credited, whatever warm-ups came before it. -/
theorem first_race_burst_credited {minLapMs : Nat} (hlap : input.policy.minLapMs = some minLapMs)
    {front back : List (List StoredRawRead)} {burst : List StoredRawRead} {chosen : StoredRawRead}
    (hsplit : burstsAt input chip checkpoint = front ++ burst :: back)
    (hwarm : ∀ earlier ∈ front, onTheRaceSide earlier input.gunTime = true →
      select earlier (input.policy.selectionRuleFor checkpoint) = none)
    (hrace : onTheRaceSide burst input.gunTime = true)
    (hselect : select burst (input.policy.selectionRuleFor checkpoint) = some chosen) :
    ∃ crossing ∈ (derive newV5 input).accepted,
      CrossingOfBurst newV5 input chip checkpoint burst crossing := by
  have hburst : burst ∈ burstsAt input chip checkpoint := by
    rw [hsplit]
    exact List.mem_append_right _ List.mem_cons_self
  refine (credited_iff_not_too_fast hlap hburst hselect).mpr fun h => ?_
  obtain ⟨previous, hlatest, -, hacross⟩ := h
  obtain ⟨burst', chosen', hcredited, rfl⟩ := mem_credited_at.mp
    (mem_accepted_at.mpr ⟨hlatest.mem, hlatest.worn, hlatest.seen⟩)
  have hbefore := (credited_before_iff hsplit hselect).mpr ⟨hcredited, hlatest.before⟩
  refine hacross ⟨(side_of_iff hcredited.mem hcredited.selected).mpr ?_, hrace⟩
  refine Bool.eq_false_iff.mpr fun h => ?_
  have hnone := hwarm burst' hbefore.mem h
  rw [hcredited.selected] at hnone
  cases hnone

/-- A burst that is not credited leaves what the next lap is measured from. -/
theorem reference_of_suppressed {state : Crossings × Option (OffsetDateTime × Bool)}
    {burst : List StoredRawRead}
    (h : (creditBurst newV5 input chip checkpoint state burst).1.accepted = state.1.accepted) :
    (creditBurst newV5 input chip checkpoint state burst).2 = state.2 := by
  obtain ⟨haccepted, -, hlast⟩ := @credit_burst_eq newV5 input chip checkpoint state burst
  rw [hlast]
  rw [haccepted, List.append_right_eq_self] at h
  cases hverdict : verdictOf input checkpoint state.2 burst with
  | credited chosen raceSide =>
      rw [hverdict] at h
      cases h
  | belowFloor => rfl
  | belowMinLap least actualMs => rfl

/-- The minimum-lap law. At every place, crossings on one side of the gun are credited the minimum
apart; a burst that passed selection is suppressed for its lap exactly when it is too fast, and
credited otherwise; the first on the race side is credited, whatever warm-ups came before it; and a
burst that is not credited leaves what the next lap is measured from. -/
theorem min_lap_law (newV5 : Uuid → String → Uuid) {minLapMs : Nat}
    (hlap : input.policy.minLapMs = some minLapMs) (chip : ChipId) (checkpoint : CheckpointId) :
    (((derive newV5 input).accepted.filter fun crossing =>
        crossing.chip = chip ∧ crossing.checkpoint = checkpoint).Pairwise fun first second =>
      ∀ raceSide, SideOf newV5 input first raceSide → SideOf newV5 input second raceSide →
        Duration.milliseconds minLapMs ≤ second.at - first.at) ∧
    (∀ burst ∈ burstsAt input chip checkpoint, ∀ chosen,
      select burst (input.policy.selectionRuleFor checkpoint) = some chosen →
      ((∃ crossing ∈ (derive newV5 input).accepted,
          CrossingOfBurst newV5 input chip checkpoint burst crossing) ↔
        ¬ TooFast newV5 input minLapMs chip checkpoint burst chosen) ∧
      (TooFast newV5 input minLapMs chip checkpoint burst chosen →
        ∃ actualMs, ∀ stored ∈ burst, ⟨stored.read.id, .belowMinLap minLapMs actualMs⟩ ∈
          (derive newV5 input).rejected) ∧
      ((input.reads.map fun stored => stored.read.id).Nodup → ∀ stored ∈ burst,
        ∀ actualMs, ⟨stored.read.id, .belowMinLap minLapMs actualMs⟩ ∈
          (derive newV5 input).rejected →
        TooFast newV5 input minLapMs chip checkpoint burst chosen)) ∧
    (∀ front burst back chosen, burstsAt input chip checkpoint = front ++ burst :: back →
      (∀ earlier ∈ front, onTheRaceSide earlier input.gunTime = true →
        select earlier (input.policy.selectionRuleFor checkpoint) = none) →
      onTheRaceSide burst input.gunTime = true →
      select burst (input.policy.selectionRuleFor checkpoint) = some chosen →
      ∃ crossing ∈ (derive newV5 input).accepted,
        CrossingOfBurst newV5 input chip checkpoint burst crossing) ∧
    ∀ state burst, (creditBurst newV5 input chip checkpoint state burst).1.accepted =
        state.1.accepted →
      (creditBurst newV5 input chip checkpoint state burst).2 = state.2 := by
  refine ⟨?_, fun burst hburst chosen hselect =>
    ⟨credited_iff_not_too_fast hlap hburst hselect, rejected_of_too_fast hlap hburst hselect,
      fun hids stored hstored actualMs h =>
        too_fast_of_rejected hlap hburst hselect hids hstored h⟩,
    fun front burst back chosen hsplit hwarm hrace hselect =>
      first_race_burst_credited hlap hsplit hwarm hrace hselect,
    fun state burst h => reference_of_suppressed h⟩
  rw [accepted_at]
  refine (credited_at_sorted newV5 input chip checkpoint).imp_of_mem ?_
  intro first second hfirst hsecond hlt raceSide hside hside'
  exact min_lap_apart hlap hfirst hsecond hlt hside hside'

/-- A chip that warms up, starts, is seen again too soon, and finishes a lap. -/
def lapped : DerivationInput :=
  { sample with
    reads := [sampleRead 1 ⟨"gate"⟩ 10, sampleRead 2 ⟨"gate"⟩ 20, sampleRead 3 ⟨"gate"⟩ 30,
      sampleRead 4 ⟨"gate"⟩ 90]
    policy := ⟨3000, .first, some 60000, ∅⟩
    gunTime := some (second 15) }

/-- A minimum of a minute suppresses one of the crossings, and not the start behind the warm-up. -/
theorem min_lap_law_sample :
    (derive sampleV5 lapped).accepted.map (·.at) = [second 10, second 20, second 90] ∧
    ((derive sampleV5 lapped).accepted.filter fun crossing =>
        crossing.chip = ⟨"E28011"⟩ ∧ crossing.checkpoint = ⟨.fromU128 7⟩).Pairwise
      fun first second =>
        ∀ raceSide, SideOf sampleV5 lapped first raceSide → SideOf sampleV5 lapped second raceSide →
          Duration.milliseconds 60000 ≤ second.at - first.at :=
  ⟨by decide +kernel, (min_lap_law sampleV5 rfl ⟨"E28011"⟩ ⟨.fromU128 7⟩).1⟩

end Splitforge.Engine
