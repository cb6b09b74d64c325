import Splitforge.Engine.Laps
import Splitforge.Engine.Verdicts

/-!
# Laps in the order of the clock

Events are ordered by the credited read, and the side of the gun is judged by the last read of the
burst. So the laps of a participant at a checkpoint follow the clock, but for one kind of pair: a
crossing credited before the gun whose reads were still arriving when it went, and after it in the
order an event that was over before the gun.
-/

namespace Splitforge.Engine

open Splitforge.Domain Splitforge.Library

variable {newV5 : Uuid → String → Uuid} {input : DerivationInput}

/-- The timing events of one participant at one checkpoint, in order. -/
def timingEventsAt (derivation : Derivation) (participant : ParticipantId)
    (checkpoint : CheckpointId) : List TimingEvent :=
  derivation.timingEvents.filter fun event =>
    decide (event.participant = participant) && decide (event.checkpoint = checkpoint)

/-- A crossing credited before the gun whose reads were still arriving when it went, and after it
an event that was over before the gun. -/
def LateWarmUp (input : DerivationInput) (derivation : Derivation) (first second : TimingEvent) :
    Prop :=
  ∃ gun, input.gunTime = some gun ∧
    (∃ acceptedRead, first.origin = .acceptedRead acceptedRead) ∧
    raceSide input derivation first = true ∧ raceSide input derivation second = false ∧
    first.at ≤ second.at ∧ second.at < gun

/-! ## Counting up -/

/-- Laps that count up never decrease. -/
theorem laps_counting_sorted (first length : Nat) :
    (lapsCounting first length).Pairwise fun lap later => lap ≤ later := by
  refine List.pairwise_map.mpr ((List.pairwise_lt_range' (s := first) (n := length)).imp ?_)
  intro lap later hlt
  omega

/-- No lap that counts up from 1 is lap 0. -/
theorem pos_of_mem_laps_counting {length lap : Nat} (hlap : lap ∈ lapsCounting 1 length) :
    0 < lap := by
  obtain ⟨counted, hcounted, rfl⟩ := List.mem_map.mp hlap
  have hone := (List.mem_range'_1.mp hcounted).1
  unfold lastLap
  omega

/-- On the race side the laps of a participant at a checkpoint never decrease. -/
theorem race_laps_sorted (hids : (input.reads.map fun stored => stored.read.id).Nodup)
    (hnames : NoCollision newV5 input) (participant : ParticipantId)
    (checkpoint : CheckpointId) :
    (derive newV5 input).timingEvents.Pairwise fun first second =>
      counts (raceSide input (derive newV5 input)) participant checkpoint first = true →
        counts (raceSide input (derive newV5 input)) participant checkpoint second = true →
          first.lap.toNat ≤ second.lap.toNat := by
  obtain ⟨length, hlaps⟩ := race_laps_eq hids hnames participant checkpoint
  have hsorted := laps_counting_sorted 1 length
  rw [← hlaps, raceLaps, List.pairwise_map] at hsorted
  exact List.pairwise_filter.mp hsorted

/-- An event is on lap 0 exactly when it is not on the race side. -/
theorem lap_pos_iff (hids : (input.reads.map fun stored => stored.read.id).Nodup)
    (hnames : NoCollision newV5 input) {event : TimingEvent}
    (hevent : event ∈ (derive newV5 input).timingEvents) :
    0 < event.lap.toNat ↔ raceSide input (derive newV5 input) event = true := by
  constructor
  · intro hpos
    cases hside : raceSide input (derive newV5 input) event with
    | true => rfl
    | false =>
        have hlap := lap_of_warm_up hids hnames event hevent hside
        rw [hlap] at hpos
        cases hpos
  · intro hside
    obtain ⟨length, hlaps⟩ := race_laps_eq hids hnames event.participant event.checkpoint
    have hcounts : counts (raceSide input (derive newV5 input)) event.participant
        event.checkpoint event = true := by
      simp [counts, hside]
    have hmem : event.lap.toNat ∈ lapsCounting 1 length := by
      rw [← hlaps]
      exact List.mem_map_of_mem (List.mem_filter.mpr ⟨hevent, hcounts⟩)
    exact pos_of_mem_laps_counting hmem

/-! ## Over before the gun -/

/-- The reads of a burst are not after its last. -/
theorem le_last_of_mem_burst {chip : ChipId} {checkpoint : CheckpointId}
    {burst : List StoredRawRead} (hburst : burst ∈ burstsAt input chip checkpoint)
    {stored last : StoredRawRead} (hstored : stored ∈ burst) (hlast : burst.getLast? = some last) :
    stored.read.authoritativeTimestamp ≤ last.read.authoritativeTimestamp := by
  let reads := itemsWith (placeOf input) (toLex (chip, checkpoint)) input.reads
  have htimes := in_order_times reads
  rw [← (maximal_runs (inOrder reads) (windowAt input checkpoint)).together] at htimes
  have hsorted := (List.pairwise_flatten.mp htimes).1 burst hburst
  obtain ⟨front, rfl⟩ := List.getLast?_eq_some_iff.mp hlast
  rcases List.mem_append.mp hstored with hfront | hsame
  · exact (List.pairwise_append.mp hsorted).2.2 stored hfront last (List.mem_singleton_self _)
  · rw [List.mem_singleton.mp hsame]

/-- A crossing is credited no later than the last read of its burst. -/
theorem at_le_last_read (hids : (input.reads.map fun stored => stored.read.id).Nodup)
    {crossing : AcceptedRead} (hcrossing : crossing ∈ (derive newV5 input).accepted) :
    ∃ last, lastReadAt input crossing = some last ∧ crossing.at ≤ last := by
  obtain ⟨burst, hburst, chosen, hchosen, hbuilt⟩ :=
    (derive_separated newV5 input).bursts crossing hcrossing
  have hmem := mem_of_select hchosen
  obtain ⟨last, hlast⟩ : ∃ last, burst.getLast? = some last :=
    ⟨_, List.getLast?_eq_some_getLast (List.ne_nil_of_mem hmem)⟩
  refine ⟨last.read.authoritativeTimestamp, ?_, ?_⟩
  · rw [last_read_at_eq hids (fun stored hstored => (place_of_mem_burst hburst hstored).1)
      (by rw [hbuilt]; rfl), hlast]
    rfl
  · have hat : crossing.at = chosen.read.authoritativeTimestamp := by
      rw [hbuilt]
      rfl
    rw [hat]
    exact le_last_of_mem_burst hburst hmem hlast

/-- What is not on the race side was before the gun. -/
theorem at_lt_gun (hids : (input.reads.map fun stored => stored.read.id).Nodup)
    (hnames : NoCollision newV5 input) {event : TimingEvent}
    (hevent : event ∈ (derive newV5 input).timingEvents)
    (hside : raceSide input (derive newV5 input) event = false) :
    ∃ gun, input.gunTime = some gun ∧ event.at < gun := by
  unfold raceSide at hside
  cases hgun : input.gunTime with
  | none =>
      rw [hgun] at hside
      cases hside
  | some gun =>
      refine ⟨gun, rfl, ?_⟩
      rw [hgun, Option.all_some] at hside
      have hsubject := (event_subjects_perm newV5 input).mem_iff.mp
        (List.mem_map_of_mem (f := subject) hevent)
      rcases List.mem_append.mp hsubject with hchip | hmanual
      · -- the crossing was credited before its last read, and that was before the gun
        obtain ⟨crossing, hcrossing, hsome⟩ := List.mem_filterMap.mp hchip
        obtain ⟨participant, _, heq⟩ := Option.map_eq_some_iff.mp hsome
        have horigin : event.origin = .acceptedRead crossing.id :=
          (congrArg (fun about => about.2.2.2) heq).symm
        have hat : event.at = crossing.at := (congrArg (fun about => about.2.2.1) heq).symm
        obtain ⟨last, hlast, hle⟩ := at_le_last_read hids hcrossing
        rw [horigin] at hside
        dsimp only at hside
        rw [find_key_eq (derive_accepted_ids_nodup hids hnames) hcrossing, Option.bind_some,
          hlast, Option.any_some] at hside
        rw [hat]
        exact lt_of_le_of_lt hle (not_le.mp (of_decide_eq_false hside))
      · obtain ⟨entry, _, heq⟩ := List.mem_map.mp hmanual
        have horigin : event.origin = .manual entry.id :=
          (congrArg (fun about => about.2.2.2) heq).symm
        rw [horigin] at hside
        exact not_le.mp (of_decide_eq_false hside)

/-- An event on the race side that was before the gun is that of a crossing. -/
theorem crossing_of_race_side {derivation : Derivation} {event : TimingEvent}
    {gun : OffsetDateTime} (hgun : input.gunTime = some gun)
    (hside : raceSide input derivation event = true) (hlt : event.at < gun) :
    ∃ acceptedRead, event.origin = .acceptedRead acceptedRead := by
  cases horigin : event.origin with
  | acceptedRead acceptedRead => exact ⟨acceptedRead, rfl⟩
  | manual entry =>
      rw [raceSide, hgun, Option.all_some, horigin] at hside
      exact absurd (of_decide_eq_true hside) (not_le.mpr hlt)

/-! ## The order of laps -/

/-- The lap falls from one event to one behind it exactly when the later is a late warm-up. -/
theorem lap_falls_iff (hids : (input.reads.map fun stored => stored.read.id).Nodup)
    (hnames : NoCollision newV5 input) {first second : TimingEvent}
    (hfirst : first ∈ (derive newV5 input).timingEvents)
    (hsecond : second ∈ (derive newV5 input).timingEvents)
    (hkey : eventKey first ≤ eventKey second)
    (hlaps : raceSide input (derive newV5 input) first = true →
      raceSide input (derive newV5 input) second = true → first.lap.toNat ≤ second.lap.toNat) :
    second.lap < first.lap ↔ LateWarmUp input (derive newV5 input) first second := by
  have hat : first.at ≤ second.at := by
    rcases Prod.Lex.toLex_le_toLex.mp hkey with hlt | heq
    · exact hlt.le
    · exact heq.1.le
  rw [UInt16.lt_iff_toNat_lt]
  constructor
  · intro hfalls
    -- the first has a lap, and if the second had one too it would be no smaller
    have hside := (lap_pos_iff hids hnames hfirst).mp (by omega)
    have hside' : raceSide input (derive newV5 input) second = false := by
      by_contra hrace
      have hle := hlaps hside (Bool.eq_true_of_not_eq_false hrace)
      omega
    obtain ⟨gun, hgun, hlt⟩ := at_lt_gun hids hnames hsecond hside'
    exact ⟨gun, hgun, crossing_of_race_side hgun hside (lt_of_le_of_lt hat hlt), hside, hside',
      hat, hlt⟩
  · intro hlate
    obtain ⟨gun, _, _, hside, hside', _, _⟩ := hlate
    have hpos := (lap_pos_iff hids hnames hfirst).mpr hside
    rw [lap_of_warm_up hids hnames second hsecond hside']
    exact hpos

/-- Laps in order: of two events of one participant at one checkpoint the later is on a smaller
lap exactly when it was over before the gun and comes behind a crossing that was credited before
the gun and not over; and the laps other than 0 are 1, 2, 3, and so on up to the greatest one. -/
theorem laps_in_order (newV5 : Uuid → String → Uuid) (input : DerivationInput)
    (hids : (input.reads.map fun stored => stored.read.id).Nodup)
    (hnames : NoCollision newV5 input) (participant : ParticipantId)
    (checkpoint : CheckpointId) :
    let derivation := derive newV5 input
    let events := timingEventsAt derivation participant checkpoint
    events.Pairwise (fun first second =>
      second.lap < first.lap ↔ LateWarmUp input derivation first second) ∧
    ∃ length, (events.map (·.lap.toNat)).filter (fun lap => decide (0 < lap)) =
      lapsCounting 1 length := by
  intro derivation events
  constructor
  · refine List.pairwise_filter.mpr ?_
    refine ((event_keys_sorted newV5 input).and
      (race_laps_sorted hids hnames participant checkpoint)).imp_of_mem ?_
    intro first second hfirst hsecond hordered hplace hplace'
    obtain ⟨hkey, hlaps⟩ := hordered
    refine lap_falls_iff hids hnames hfirst hsecond hkey fun hside hside' => hlaps ?_ ?_
    · rw [counts, hplace, hside]
      rfl
    · rw [counts, hplace', hside']
      rfl
  · obtain ⟨length, hlaps⟩ := race_laps_eq hids hnames participant checkpoint
    refine ⟨length, ?_⟩
    show ((derivation.timingEvents.filter _).map _).filter _ = _
    rw [← hlaps, raceLaps, List.filter_map, List.filter_filter]
    refine congrArg _ (List.filter_congr fun event hevent => ?_)
    have hpos := lap_pos_iff hids hnames hevent
    rw [counts, Bool.and_comm]
    congr 1
    exact Bool.eq_iff_iff.mpr (decide_eq_true_iff.trans hpos)

/-- The sample with a manual entry between the runner's credited read and the gun, which goes
while the chip is still read. -/
def lateStart : DerivationInput :=
  { sample with
    reads := [sampleRead 1 ⟨"gate"⟩ 10, sampleRead 2 ⟨"gate"⟩ 12]
    manual := [⟨⟨.fromU128 5⟩, ⟨.fromU128 4⟩, ⟨.fromU128 9⟩, ⟨.fromU128 7⟩,
      second 11, "timer", "chip failed"⟩]
    gunTime := some (second 12) }

theorem late_start_laps :
    (timingEventsAt (derive sampleV5 lateStart) ⟨.fromU128 9⟩ ⟨.fromU128 7⟩).map (·.lap) =
      [1, 0] := by
  decide +kernel

theorem late_start_no_collision : NoCollision sampleV5 lateStart := by
  have hnames : acceptedNames lateStart = acceptedNames sample := by
    decide +kernel
  rw [NoCollision, hnames]
  exact sample_no_collision

/-- The start is on lap 1 and the entry behind it on lap 0. -/
theorem laps_fall :
    ¬ (timingEventsAt (derive sampleV5 lateStart) ⟨.fromU128 9⟩ ⟨.fromU128 7⟩).Pairwise
      fun first second => first.lap ≤ second.lap := by
  intro hsorted
  have hlaps : ((timingEventsAt (derive sampleV5 lateStart) ⟨.fromU128 9⟩ ⟨.fromU128 7⟩).map
      (·.lap)).Pairwise fun first second => first ≤ second := List.pairwise_map.mpr hsorted
  rw [late_start_laps] at hlaps
  exact absurd hlaps (by decide)

/-- The laps of the runner who starts late are in order but for the warm-up. -/
theorem laps_in_order_sample :
    (timingEventsAt (derive sampleV5 lateStart) ⟨.fromU128 9⟩ ⟨.fromU128 7⟩).Pairwise
      fun first second => second.lap < first.lap ↔
        LateWarmUp lateStart (derive sampleV5 lateStart) first second :=
  (laps_in_order sampleV5 lateStart (by decide) late_start_no_collision ⟨.fromU128 9⟩
    ⟨.fromU128 7⟩).1

end Splitforge.Engine
