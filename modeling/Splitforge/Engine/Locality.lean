import Splitforge.Engine.Verdicts
import Splitforge.Library.SameBut

/-!
# What derivation looks at

Two derivations whose inputs differ in one thing differ at most where that thing is looked at.
Manual entries are not looked at for crossings and suppressions, the chip registry only for whom a
crossing is of, the reads of other places not at all, and the gun, without a minimum lap, only for
the numbers of laps, which are a part of the names the identifiers of events are hashes of.
-/

namespace Splitforge.Engine

open Splitforge.Domain Splitforge.Library

variable {newV5 : Uuid → String → Uuid} {input : DerivationInput} {chip : ChipId}
variable {checkpoint : CheckpointId} {last : Option (OffsetDateTime × Bool)}

/-- Verdicts look at the policy and the gun. -/
theorem verdicts_congr {input' : DerivationInput} (hpolicy : input'.policy = input.policy)
    (hgun : input'.gunTime = input.gunTime) (bursts : List (List StoredRawRead)) :
    verdicts input' checkpoint last bursts = verdicts input checkpoint last bursts := by
  induction bursts generalizing last with
  | nil => rfl
  | cons burst bursts ih =>
      have hverdict : verdictOf input' checkpoint last burst =
          verdictOf input checkpoint last burst := by
        unfold verdictOf
        rw [hpolicy, hgun]
      rw [verdicts, verdicts, hverdict, ih]

/-- So do the verdicts on the bursts of a place. -/
theorem verdicts_at_congr {input' : DerivationInput} (hpolicy : input'.policy = input.policy)
    (hgun : input'.gunTime = input.gunTime)
    (hbursts : burstsAt input' chip checkpoint = burstsAt input chip checkpoint) :
    verdictsAt input' chip checkpoint = verdictsAt input chip checkpoint := by
  rw [verdictsAt, hbursts]
  exact verdicts_congr hpolicy hgun _

/-! ## Manual entries -/

/-- The loops do not look at manual entries. -/
theorem credit_groups_manual (newV5 : Uuid → String → Uuid) (input : DerivationInput)
    (manual : List ManualEntry) :
    creditGroups newV5 { input with manual := manual } = creditGroups newV5 input := rfl

/-! ## The chip registry -/

/-- A crossing without whom it is of. -/
def unassigned (crossing : AcceptedRead) : AcceptedRead :=
  { crossing with participant := none }

section Chips

variable {chips : ChipRegistry}

/-- With another registry a burst's crossing is of somebody else at most. -/
theorem crossing_from_chips (judged : List StoredRawRead × Verdict) :
    (crossingFrom newV5 { input with chips := chips } chip checkpoint judged).map unassigned =
      (crossingFrom newV5 input chip checkpoint judged).map unassigned := by
  obtain ⟨burst, verdict⟩ := judged
  cases verdict <;> rfl

theorem rejections_from_chips (judged : List StoredRawRead × Verdict) :
    rejectionsFrom newV5 { input with chips := chips } chip checkpoint judged =
      rejectionsFrom newV5 input chip checkpoint judged := by
  obtain ⟨burst, verdict⟩ := judged
  cases verdict <;> rfl

/-- With another registry the loops credit the same crossings, of somebody else at most, and
suppress the same reads. -/
theorem credit_groups_chips (newV5 : Uuid → String → Uuid) (input : DerivationInput)
    (chips : ChipRegistry) :
    (creditGroups newV5 { input with chips := chips }).accepted.map unassigned =
        (creditGroups newV5 input).accepted.map unassigned ∧
      (creditGroups newV5 { input with chips := chips }).rejected =
        (creditGroups newV5 input).rejected := by
  obtain ⟨haccepted, hrejected⟩ := credit_groups_eq_verdicts newV5 input
  obtain ⟨haccepted', hrejected'⟩ := credit_groups_eq_verdicts newV5 { input with chips := chips }
  have hplaces : places { input with chips := chips } = places input := rfl
  have hverdicts (chip : ChipId) (checkpoint : CheckpointId) :
      verdictsAt { input with chips := chips } chip checkpoint =
        verdictsAt input chip checkpoint := verdicts_at_congr rfl rfl rfl
  constructor
  · rw [haccepted, haccepted', List.map_flatMap, List.map_flatMap, hplaces]
    refine List.flatMap_congr fun place _ => ?_
    rw [creditedAt, creditedAt, List.map_filterMap, List.map_filterMap, hverdicts]
    exact List.filterMap_congr fun judged _ => crossing_from_chips judged
  · rw [hrejected, hrejected', hplaces]
    refine congrArg _ (List.flatMap_congr fun place _ => ?_)
    rw [rejectedAt, rejectedAt, hverdicts]
    exact List.flatMap_congr fun judged _ => rejections_from_chips judged

/-- With another registry crossings are of somebody else at most, and the suppressions are the
same. -/
theorem derive_chips (newV5 : Uuid → String → Uuid) (input : DerivationInput)
    (chips : ChipRegistry) :
    (derive newV5 { input with chips := chips }).accepted.map unassigned =
        (derive newV5 input).accepted.map unassigned ∧
      (derive newV5 { input with chips := chips }).rejected = (derive newV5 input).rejected := by
  obtain ⟨haccepted, hrejected⟩ := credit_groups_chips newV5 input chips
  have hsorted (accepted : List AcceptedRead) :
      (sortByKey (fun crossing => toLex (crossing.at, crossing.id)) accepted).map unassigned =
        sortByKey (fun crossing => toLex (crossing.at, crossing.id))
          (accepted.map unassigned) := by
    symm
    exact sort_by_key_map fun _ _ _ _ => Iff.rfl
  refine ⟨?_, congrArg (sortByKey _) hrejected⟩
  exact (hsorted _).trans ((congrArg (sortByKey _) haccepted).trans (hsorted _).symm)

end Chips

/-! ## The gun -/

section Gun

variable {gunTime : Option OffsetDateTime} (hlap : input.policy.minLapMs = none)

/-- Without a minimum no lap is too fast. -/
theorem lap_violation_no_minimum {policy : TimingPolicy} (hlap : policy.minLapMs = none)
    (at' : OffsetDateTime) (raceSide : Bool) : lapViolation policy last at' raceSide = none := by
  unfold lapViolation
  rw [hlap]

include hlap

/-- Without a minimum a verdict is that of the rule. -/
theorem verdict_no_minimum (burst : List StoredRawRead) :
    verdictOf input checkpoint last burst =
      (select burst (input.policy.selectionRuleFor checkpoint)).elim .belowFloor fun chosen =>
        .credited chosen (onTheRaceSide burst input.gunTime) := by
  unfold verdictOf
  cases hselect : select burst (input.policy.selectionRuleFor checkpoint) with
  | none => rfl
  | some chosen =>
      simp only [lap_violation_no_minimum hlap]
      rfl

/-- With another gun a burst is credited or suppressed alike. -/
theorem judged_gun {last' : Option (OffsetDateTime × Bool)} (burst : List StoredRawRead) :
    crossingFrom newV5 { input with gunTime := gunTime } chip checkpoint
        (burst, verdictOf { input with gunTime := gunTime } checkpoint last' burst) =
      crossingFrom newV5 input chip checkpoint
        (burst, verdictOf input checkpoint last burst) ∧
    rejectionsFrom newV5 { input with gunTime := gunTime } chip checkpoint
        (burst, verdictOf { input with gunTime := gunTime } checkpoint last' burst) =
      rejectionsFrom newV5 input chip checkpoint
        (burst, verdictOf input checkpoint last burst) := by
  rw [verdict_no_minimum hlap, @verdict_no_minimum { input with gunTime := gunTime } _ _ hlap]
  show crossingFrom _ _ _ _ (burst, (select burst (input.policy.selectionRuleFor checkpoint)).elim
      _ _) = _ ∧ rejectionsFrom _ _ _ _ (burst,
        (select burst (input.policy.selectionRuleFor checkpoint)).elim _ _) = _
  cases select burst (input.policy.selectionRuleFor checkpoint) with
  | none => exact ⟨rfl, rfl⟩
  | some chosen => exact ⟨rfl, rfl⟩

/-- With another gun bursts are credited and suppressed alike. -/
theorem verdicts_gun {last' : Option (OffsetDateTime × Bool)}
    (bursts : List (List StoredRawRead)) :
    (verdicts { input with gunTime := gunTime } checkpoint last' bursts).filterMap
        (crossingFrom newV5 { input with gunTime := gunTime } chip checkpoint) =
      (verdicts input checkpoint last bursts).filterMap
        (crossingFrom newV5 input chip checkpoint) ∧
    (verdicts { input with gunTime := gunTime } checkpoint last' bursts).flatMap
        (rejectionsFrom newV5 { input with gunTime := gunTime } chip checkpoint) =
      (verdicts input checkpoint last bursts).flatMap
        (rejectionsFrom newV5 input chip checkpoint) := by
  induction bursts generalizing last last' with
  | nil => exact ⟨rfl, rfl⟩
  | cons burst bursts ih =>
      obtain ⟨hcrossing, hrejections⟩ :=
        @judged_gun newV5 input chip checkpoint last gunTime hlap last' burst
      obtain ⟨hcrossings, hothers⟩ := @ih
        ((verdictOf input checkpoint last burst).reference last)
        ((verdictOf { input with gunTime := gunTime } checkpoint last' burst).reference last')
      rw [verdicts, verdicts, List.filterMap_cons, List.filterMap_cons, List.flatMap_cons,
        List.flatMap_cons, hcrossing, hcrossings, hrejections, hothers]
      exact ⟨rfl, rfl⟩

/-- With another gun the loops credit the same crossings and suppress the same reads. -/
theorem credit_groups_gun (newV5 : Uuid → String → Uuid) (gunTime : Option OffsetDateTime) :
    (creditGroups newV5 { input with gunTime := gunTime }).accepted =
        (creditGroups newV5 input).accepted ∧
      (creditGroups newV5 { input with gunTime := gunTime }).rejected =
        (creditGroups newV5 input).rejected := by
  obtain ⟨haccepted, hrejected⟩ := credit_groups_eq_verdicts newV5 input
  obtain ⟨haccepted', hrejected'⟩ :=
    credit_groups_eq_verdicts newV5 { input with gunTime := gunTime }
  have hplaces : places { input with gunTime := gunTime } = places input := rfl
  constructor
  · rw [haccepted, haccepted', hplaces]
    exact List.flatMap_congr fun place _ => (verdicts_gun hlap _).1
  · rw [hrejected, hrejected', hplaces]
    exact congrArg _ (List.flatMap_congr fun place _ => (verdicts_gun hlap _).2)

end Gun

/-- Two events are the same but for the lap and, where the laps differ, the identifier. -/
def SameButLap (event event' : TimingEvent) : Prop :=
  event' = { event with id := event'.id, lap := event'.lap } ∧
    (event'.lap = event.lap → event' = event)

/-- Two sightings are the same but for the side of the gun. -/
def SameButSide (sighting sighting' : Sighting) : Prop :=
  sighting' = { sighting with raceSide := sighting'.raceSide }

/-- The events of a sighting on either side are the same but for the lap. -/
theorem SameButSide.event {sighting sighting' : Sighting} (h : SameButSide sighting sighting')
    (lap lap' : UInt16) :
    SameButLap (sighting.event newV5 lap) (sighting'.event newV5 lap') := by
  have hevent : sighting'.event newV5 lap' = sighting.event newV5 lap' := by
    rw [show sighting' = _ from h]
    rfl
  rw [hevent]
  constructor
  · unfold Sighting.event
    cases sighting.source <;> rfl
  · intro hlap
    rw [lap_event, lap_event] at hlap
    rw [hlap]

/-- Sightings that are the same but for their sides are numbered so. -/
theorem number_laps_same {sightings sightings' : List Sighting}
    (h : List.Forall₂ SameButSide sightings sightings')
    (counters counters' : Std.ExtTreeMap (ParticipantId ×ₗ CheckpointId) UInt16) :
    List.Forall₂ SameButLap (numberLaps newV5 counters sightings)
      (numberLaps newV5 counters' sightings') := by
  induction h generalizing counters counters' with
  | nil => exact .nil
  | cons hsame _ ih =>
      unfold numberLaps
      split_ifs
      · exact .cons (hsame.event _ _) (ih _ _)
      · exact .cons (hsame.event _ _) (ih _ _)
      · exact .cons (hsame.event _ _) (ih _ _)
      · exact .cons (hsame.event _ _) (ih _ _)

/-- Without a minimum lap another gun changes no crossing and no suppression, and of the events
only the laps and the identifiers with them. -/
theorem derive_gun (newV5 : Uuid → String → Uuid) (hlap : input.policy.minLapMs = none)
    (gunTime : Option OffsetDateTime) :
    let derivation := derive newV5 input
    let derivation' := derive newV5 { input with gunTime := gunTime }
    derivation'.accepted = derivation.accepted ∧ derivation'.rejected = derivation.rejected ∧
      List.Forall₂ SameButLap derivation.timingEvents derivation'.timingEvents := by
  intro derivation derivation'
  obtain ⟨hcredited, hsuppressed⟩ := credit_groups_gun hlap newV5 gunTime
  have haccepted : derivation'.accepted = derivation.accepted := congrArg (sortByKey _) hcredited
  refine ⟨haccepted, congrArg (sortByKey _) hsuppressed, number_laps_same ?_ _ _⟩
  refine forall₂_sort_by_key (fun sighting sighting' hsame => ?_) ?_
  · rw [show sighting' = _ from hsame]
    rfl
  · show List.Forall₂ SameButSide
      (derivation.accepted.filterMap _ ++ input.manual.map _)
      (derivation'.accepted.filterMap _ ++ input.manual.map _)
    rw [haccepted]
    refine List.rel_append (List.rel_filterMap (fun crossing crossing' heq => ?_)
      (List.forall₂_same.mpr fun _ _ => rfl)) ?_
    · subst heq
      unfold sightingOf
      cases crossing.participant with
      | none => exact .none
      | some participant => exact .some rfl
    · rw [List.forall₂_map_left_iff, List.forall₂_map_right_iff]
      exact List.forall₂_same.mpr fun _ _ => rfl

/-! ## The reads of other places -/

/-- The suppressions of the reads of a place, among those of a derivation. -/
def suppressedAt (input : DerivationInput) (rejected : List RejectedRead) (chip : ChipId)
    (checkpoint : CheckpointId) : List RejectedRead :=
  rejected.filter fun entry =>
    (itemsWith (placeOf input) (toLex (chip, checkpoint)) input.reads).any fun stored =>
      stored.read.id = entry.rawRead

/-- Where reads have different identifiers, the suppressions of the reads of a place are those of
its bursts, in the order of their reads. -/
theorem suppressed_at_eq (hids : (input.reads.map fun stored => stored.read.id).Nodup)
    (newV5 : Uuid → String → Uuid) (chip : ChipId) (checkpoint : CheckpointId) :
    suppressedAt input (derive newV5 input).rejected chip checkpoint =
      sortByKey (fun entry => entry.rawRead) (rejectedAt newV5 input chip checkpoint) := by
  have hfilter {chip' : ChipId} {checkpoint' : CheckpointId} {entry : RejectedRead}
      (hentry : entry ∈ rejectedAt newV5 input chip' checkpoint') :
      (itemsWith (placeOf input) (toLex (chip, checkpoint)) input.reads).any (fun stored =>
        stored.read.id = entry.rawRead) = true ↔
          toLex (chip', checkpoint') = toLex (chip, checkpoint) := by
    obtain ⟨burst, verdict, hjudged, -, stored, hstored, hid⟩ := burst_of_mem_rejected_at hentry
    obtain ⟨hmem, hplace⟩ := place_of_mem_burst (burst_of_judged hjudged) hstored
    rw [List.any_eq_true]
    constructor
    · intro h
      obtain ⟨other, hother, heq⟩ := h
      obtain ⟨hother, hplace'⟩ := mem_items_with.mp hother
      have hsame : other = stored := List.inj_on_of_nodup_map hids hother hmem
        ((of_decide_eq_true heq).trans hid)
      rw [hsame, hplace] at hplace'
      exact Option.some.inj hplace'
    · intro h
      exact ⟨stored, mem_items_with.mpr ⟨hmem, hplace.trans (congrArg some h)⟩,
        decide_eq_true hid.symm⟩
  have hunmapped : ((unmappedReads input).map unmapped).filter (fun entry =>
      (itemsWith (placeOf input) (toLex (chip, checkpoint)) input.reads).any fun stored =>
        stored.read.id = entry.rawRead) = [] := by
    refine List.filter_eq_nil_iff.mpr fun entry hentry hany => ?_
    obtain ⟨stored, hstored, rfl⟩ := List.mem_map.mp hentry
    obtain ⟨hmem, hnone⟩ := List.mem_filter.mp hstored
    obtain ⟨other, hother, heq⟩ := List.any_eq_true.mp hany
    obtain ⟨hother, hplace⟩ := mem_items_with.mp hother
    have hsame : other = stored :=
      List.inj_on_of_nodup_map hids hother hmem (of_decide_eq_true heq)
    rw [← hsame, hplace] at hnone
    cases hnone
  show (sortByKey (fun entry : RejectedRead => entry.rawRead)
    (creditGroups newV5 input).rejected).filter _ = _
  rw [sort_by_key_filter, (credit_groups_eq_verdicts newV5 input).2, List.filter_append, hunmapped,
    List.nil_append, List.filter_flatMap]
  refine congrArg _ ((@flat_map_eq_of_others _ _ (places input)
    ((sorted_keys _).imp fun h => h.ne) _ (toLex (chip, checkpoint)) (fun place _ hne => ?_)
    fun hnone => ?_).trans ?_)
  · exact List.filter_eq_nil_iff.mpr fun entry hentry hany => hne ((hfilter hentry).mp hany)
  · show (rejectedAt newV5 input chip checkpoint).filter _ = []
    rw [rejectedAt, verdictsAt, bursts_at_eq_nil hnone]
    rfl
  · exact List.filter_eq_self.mpr fun entry hentry => (hfilter hentry).mpr rfl

/-- The crossings and the suppressions of a place depend on its reads. -/
theorem derive_reads (newV5 : Uuid → String → Uuid) {reads : List StoredRawRead}
    (hsame : SameBut (fun stored => placeOf input stored ≠ some (toLex (chip, checkpoint)))
      input.reads reads) :
    let derivation := derive newV5 input
    let derivation' := derive newV5 { input with reads := reads }
    (derivation'.accepted.filter fun crossing =>
        crossing.chip = chip ∧ crossing.checkpoint = checkpoint) =
      (derivation.accepted.filter fun crossing =>
        crossing.chip = chip ∧ crossing.checkpoint = checkpoint) ∧
    ((input.reads.map fun stored => stored.read.id).Nodup →
      (reads.map fun stored => stored.read.id).Nodup →
      suppressedAt { input with reads := reads } derivation'.rejected chip checkpoint =
        suppressedAt input derivation.rejected chip checkpoint) := by
  intro derivation derivation'
  have hitems : itemsWith (placeOf input) (toLex (chip, checkpoint)) reads =
      itemsWith (placeOf input) (toLex (chip, checkpoint)) input.reads := by
    refine (hsame.filter_eq fun stored hidle => ?_).symm
    have hne := of_decide_eq_true hidle
    simpa using hne
  have hbursts : burstsAt { input with reads := reads } chip checkpoint =
      burstsAt input chip checkpoint :=
    congrArg (fun items => splitIntoBursts (inOrder items) (windowAt input checkpoint)) hitems
  have hverdicts : verdictsAt { input with reads := reads } chip checkpoint =
      verdictsAt input chip checkpoint := verdicts_at_congr rfl rfl hbursts
  constructor
  · rw [accepted_at, accepted_at, creditedAt, hverdicts]
    rfl
  · intro hids hids'
    rw [suppressed_at_eq hids, suppressed_at_eq hids', rejectedAt, hverdicts]
    rfl

/-! ## Locality -/

/-- Locality of derivation. Other manual entries change no crossing and no suppression; another
chip registry changes no suppression, and of a crossing whom it is of; the reads of other places
change nothing at a place; and without a minimum lap another gun changes no crossing and no
suppression, and of an event its lap and with it its identifier. -/
theorem derive_locality (newV5 : Uuid → String → Uuid) (input : DerivationInput) :
    (∀ manual, (derive newV5 { input with manual := manual }).accepted =
        (derive newV5 input).accepted ∧
      (derive newV5 { input with manual := manual }).rejected = (derive newV5 input).rejected) ∧
    (∀ chips, (derive newV5 { input with chips := chips }).accepted.map unassigned =
        (derive newV5 input).accepted.map unassigned ∧
      (derive newV5 { input with chips := chips }).rejected = (derive newV5 input).rejected) ∧
    (∀ chip checkpoint reads,
      SameBut (fun stored => placeOf input stored ≠ some (toLex (chip, checkpoint)))
        input.reads reads →
      ((derive newV5 { input with reads := reads }).accepted.filter fun crossing =>
          crossing.chip = chip ∧ crossing.checkpoint = checkpoint) =
        ((derive newV5 input).accepted.filter fun crossing =>
          crossing.chip = chip ∧ crossing.checkpoint = checkpoint) ∧
      ((input.reads.map fun stored => stored.read.id).Nodup →
        (reads.map fun stored => stored.read.id).Nodup →
        suppressedAt { input with reads := reads }
            (derive newV5 { input with reads := reads }).rejected chip checkpoint =
          suppressedAt input (derive newV5 input).rejected chip checkpoint)) ∧
    (input.policy.minLapMs = none → ∀ gunTime,
      (derive newV5 { input with gunTime := gunTime }).accepted = (derive newV5 input).accepted ∧
      (derive newV5 { input with gunTime := gunTime }).rejected = (derive newV5 input).rejected ∧
      List.Forall₂ SameButLap (derive newV5 input).timingEvents
        (derive newV5 { input with gunTime := gunTime }).timingEvents) := by
  refine ⟨fun manual => ?_, fun chips => derive_chips newV5 input chips,
    fun chip checkpoint reads hsame => derive_reads newV5 hsame,
    fun hlap gunTime => derive_gun newV5 hlap gunTime⟩
  unfold derive
  rw [credit_groups_manual]
  exact ⟨rfl, rfl⟩

/-- The identifiers the hash gives the names of the sample and of the sample with a later gun. -/
def laterV5 (space : Uuid) (name : String) : Uuid :=
  if name = "timing-event\x1f00000000-0000-0000-0000-000000000009\x1f" ++
      "00000000-0000-0000-0000-000000000007\x1f0\x1f8f99fc9a-cfc9-567a-b1a3-988b29f5d886" then
    .fromU128 0x1a6ffb7c19435ad68069360bf5f814b4
  else if name = "timing-event\x1f00000000-0000-0000-0000-000000000009\x1f" ++
      "00000000-0000-0000-0000-000000000007\x1f1\x1f00000000-0000-0000-0000-000000000005" then
    .fromU128 0x476dab51b7885b8dafe4bc2a5e922bb4
  else sampleV5 space name

/-- There is no minimum lap in the sample, and a later gun changes the identifiers of its events
with their laps. -/
theorem gun_changes_ids :
    sample.policy.minLapMs = none ∧
      (derive laterV5 sample).timingEvents.map (·.lap) = [1, 2] ∧
      (derive laterV5 { sample with gunTime := some (second 20) }).timingEvents.map (·.lap) =
        [0, 1] ∧
      (derive laterV5 sample).timingEvents.map (·.id) ≠
        (derive laterV5 { sample with gunTime := some (second 20) }).timingEvents.map (·.id) := by
  refine ⟨rfl, ?_, ?_, ?_⟩
  · decide +kernel
  · decide +kernel
  · decide +kernel

end Splitforge.Engine
