import Splitforge.Engine.Evidence

/-!
# Laps

The sightings are numbered in one pass, with a counter for each participant at each checkpoint.
A counter holds the number of sightings on the race side so far, so the laps of one participant
at one checkpoint count up from one, and stop at the greatest number there is.
-/

namespace Splitforge.Engine

open Std (ExtTreeMap)
open Splitforge.Domain Splitforge.Library

variable {newV5 : Uuid → String → Uuid} {input : DerivationInput}

/-- The greatest lap number. -/
def lastLap : Nat := 65535

/-- What a timing event is about: who, where, when, and the evidence. -/
def subject (event : TimingEvent) :
    ParticipantId × CheckpointId × OffsetDateTime × TimingEventOrigin :=
  (event.participant, event.checkpoint, event.at, event.origin)

/-- What the timing event of a crossing is about, if its chip resolved to anybody. -/
def crossingSubject (crossing : AcceptedRead) :
    Option (ParticipantId × CheckpointId × OffsetDateTime × TimingEventOrigin) :=
  crossing.participant.map fun participant =>
    (participant, crossing.checkpoint, crossing.at, .acceptedRead crossing.id)

/-- What the timing event of a manual entry is about. -/
def manualSubject (entry : ManualEntry) :
    ParticipantId × CheckpointId × OffsetDateTime × TimingEventOrigin :=
  (entry.participant, entry.checkpoint, entry.at, .manual entry.id)

/-- The kind of the evidence and its identifier: chips come before manual entries. -/
def originKey : TimingEventOrigin → Nat ×ₗ Uuid
  | .acceptedRead acceptedRead => toLex (0, acceptedRead.uuid)
  | .manual manualEntry => toLex (1, manualEntry.uuid)

/-- The order of timing events: by instant, then by kind, then by identifier. -/
def eventKey (event : TimingEvent) : OffsetDateTime ×ₗ (Nat ×ₗ Uuid) :=
  toLex (event.at, originKey event.origin)

/-- When the last read of a crossing's burst was. -/
def lastReadAt (input : DerivationInput) (crossing : AcceptedRead) : Option OffsetDateTime :=
  crossing.burstRawReads.getLast?.bind fun id =>
    (input.reads.find? fun stored => stored.read.id = id).map fun stored =>
      stored.read.authoritativeTimestamp

/-- Whether a timing event is on the race side of the gun: its own instant for a manual entry,
and the last read of the burst for a crossing. -/
def raceSide (input : DerivationInput) (derivation : Derivation) (event : TimingEvent) : Bool :=
  input.gunTime.all fun gun => match event.origin with
    | .manual _ => gun ≤ event.at
    | .acceptedRead acceptedRead =>
        ((derivation.accepted.find? fun crossing => crossing.id = acceptedRead).bind
          (lastReadAt input)).any fun last => gun ≤ last

/-! ## Numbering -/

/-- What a sighting is about. -/
def Sighting.subject (sighting : Sighting) :
    ParticipantId × CheckpointId × OffsetDateTime × TimingEventOrigin :=
  (sighting.participant, sighting.checkpoint, sighting.at, match sighting.source with
    | .crossing credited => .acceptedRead credited.id
    | .manual entry => .manual entry.id)

@[simp]
theorem subject_event (sighting : Sighting) (lap : UInt16) :
    subject (sighting.event newV5 lap) = sighting.subject := by
  unfold Sighting.event Sighting.subject
  cases sighting.source <;> rfl

@[simp]
theorem lap_event (sighting : Sighting) (lap : UInt16) :
    (sighting.event newV5 lap).lap = lap := by
  unfold Sighting.event
  cases sighting.source <;> rfl

@[simp]
theorem event_key_event (sighting : Sighting) (lap : UInt16) :
    eventKey (sighting.event newV5 lap) = sighting.key := by
  unfold Sighting.event Sighting.key
  cases sighting.source <;> rfl

/-- Numbering gives each sighting its event, in order. -/
theorem map_number_laps {Value : Type} {eventValue : TimingEvent → Value}
    {value : Sighting → Value}
    (h : ∀ sighting lap, eventValue (sighting.event newV5 lap) = value sighting)
    (counters : ExtTreeMap (ParticipantId ×ₗ CheckpointId) UInt16) (sightings : List Sighting) :
    (numberLaps newV5 counters sightings).map eventValue = sightings.map value := by
  induction sightings generalizing counters with
  | nil => rfl
  | cons sighting sightings ih =>
      unfold numberLaps
      split
      · rw [List.map_cons, List.map_cons, h, ih]
      · rw [List.map_cons, List.map_cons, h, ih]

theorem to_nat_next_lap (counter : UInt16) :
    (nextLap counter).toNat = min (counter.toNat + 1) lastLap := by
  have hlt := counter.toNat_lt
  unfold nextLap lastLap
  split_ifs with h
  · rw [UInt16.toNat_add]
    simp only [UInt16.toNat_one]
    omega
  · omega

/-- A sighting that is not on the race side is on lap 0. -/
theorem lap_eq_zero {side : TimingEvent → Bool} {sightings : List Sighting}
    (hside : ∀ sighting ∈ sightings, ∀ lap,
      side (sighting.event newV5 lap) = sighting.raceSide)
    (counters : ExtTreeMap (ParticipantId ×ₗ CheckpointId) UInt16) :
    ∀ event ∈ numberLaps newV5 counters sightings, side event = false → event.lap = 0 := by
  induction sightings generalizing counters with
  | nil => exact fun event hevent => absurd hevent List.not_mem_nil
  | cons sighting sightings ih =>
      have hrest := fun counters => ih (fun other hother =>
        hside other (List.mem_cons_of_mem _ hother)) counters
      unfold numberLaps
      intro event hevent hfalse
      split at hevent
      · rename_i hrace
        rcases List.mem_cons.mp hevent with rfl | hevent
        · rw [hside sighting List.mem_cons_self, hrace] at hfalse
          cases hfalse
        · exact hrest _ event hevent hfalse
      · rcases List.mem_cons.mp hevent with rfl | hevent
        · exact lap_event sighting 0
        · exact hrest _ event hevent hfalse

/-- Whether a timing event is one participant's at one checkpoint, on the race side. -/
def counts (side : TimingEvent → Bool) (participant : ParticipantId) (checkpoint : CheckpointId)
    (event : TimingEvent) : Bool :=
  decide (event.participant = participant) && decide (event.checkpoint = checkpoint) &&
    side event

theorem counts_event {side : TimingEvent → Bool} {sighting : Sighting} {lap : UInt16}
    (hside : side (sighting.event newV5 lap) = sighting.raceSide) (participant : ParticipantId)
    (checkpoint : CheckpointId) :
    counts side participant checkpoint (sighting.event newV5 lap) =
      (decide (sighting.participant = participant) &&
        decide (sighting.checkpoint = checkpoint) && sighting.raceSide) := by
  have hsubject := @subject_event newV5 sighting lap
  have hparticipant : (sighting.event newV5 lap).participant = sighting.participant :=
    congrArg Prod.fst hsubject
  have hcheckpoint : (sighting.event newV5 lap).checkpoint = sighting.checkpoint :=
    congrArg (fun subject => subject.2.1) hsubject
  rw [counts, hparticipant, hcheckpoint, hside]

/-- The laps of one participant at one checkpoint on the race side, in order. -/
def raceLaps (side : TimingEvent → Bool) (participant : ParticipantId)
    (checkpoint : CheckpointId) (events : List TimingEvent) : List Nat :=
  (events.filter (counts side participant checkpoint)).map (·.lap.toNat)

/-- `1, 2, 3, ...` from some number on, stopping at the greatest lap. -/
def lapsCounting (first length : Nat) : List Nat :=
  (List.range' first length).map fun lap => min lap lastLap

/-- The laps of one participant at one checkpoint go on from the counter, one by one. -/
theorem race_laps_from {side : TimingEvent → Bool} {sightings : List Sighting}
    (hside : ∀ sighting ∈ sightings, ∀ lap,
      side (sighting.event newV5 lap) = sighting.raceSide)
    (participant : ParticipantId) (checkpoint : CheckpointId)
    {counters : ExtTreeMap (ParticipantId ×ₗ CheckpointId) UInt16} {count : Nat}
    (hcount : (counters[toLex (participant, checkpoint)]?.getD (0 : UInt16)).toNat =
      min count lastLap) :
    ∃ length, raceLaps side participant checkpoint (numberLaps newV5 counters sightings) =
      lapsCounting (count + 1) length := by
  induction sightings generalizing counters count with
  | nil => exact ⟨0, rfl⟩
  | cons sighting sightings ih =>
      have hrest := fun other hother => hside other (List.mem_cons_of_mem sighting hother)
      have hcounts (lap : UInt16) := counts_event
        (hside sighting List.mem_cons_self lap) participant checkpoint
      unfold numberLaps raceLaps
      cases hrace : sighting.raceSide with
      | false =>
          -- a sighting that is not on the race side is not counted
          have hskip : ¬ counts side participant checkpoint (sighting.event newV5 0) = true := by
            simp [hcounts, hrace]
          rw [if_neg Bool.false_ne_true, List.filter_cons_of_neg hskip]
          exact ih hrest hcount
      | true =>
          rw [if_pos rfl]
          by_cases hplace : sighting.participant = participant ∧ sighting.checkpoint = checkpoint
          · -- the counter goes on by one, and the sighting is on the lap it shows
            obtain ⟨rfl, rfl⟩ := hplace
            let counter :=
              nextLap (counters[toLex (sighting.participant, sighting.checkpoint)]?.getD 0)
            have hcounter : counter.toNat = min (count + 1) lastLap := by
              rw [to_nat_next_lap, hcount]
              omega
            have hinserted : ((counters.insert
                (toLex (sighting.participant, sighting.checkpoint)) counter)[toLex
                  (sighting.participant, sighting.checkpoint)]?.getD (0 : UInt16)).toNat =
                min (count + 1) lastLap := by
              rw [ExtTreeMap.getElem?_insert_self]
              exact hcounter
            obtain ⟨length, hlaps⟩ := ih hrest hinserted
            refine ⟨length + 1, ?_⟩
            rw [List.filter_cons_of_pos (by simp [hcounts, hrace]), List.map_cons, lap_event]
            show counter.toNat :: raceLaps _ _ _ _ = lapsCounting (count + 1) (length + 1)
            rw [hlaps, hcounter]
            rfl
          · -- another counter goes on
            have hskip (lap : UInt16) :
                ¬ counts side participant checkpoint (sighting.event newV5 lap) = true := by
              simpa [hcounts, hrace] using hplace
            rw [List.filter_cons_of_neg (hskip _)]
            refine ih hrest ?_
            rw [ExtTreeMap.getElem?_insert, if_neg]
            · exact hcount
            · intro heq
              have hsame := toLex_inj.mp (compare_eq_iff_eq.mp heq)
              exact hplace (Prod.ext_iff.mp hsame)

/-! ## Derivation -/

/-- The last read of a burst is found from the crossing. -/
theorem last_read_at_eq (hids : (input.reads.map fun stored => stored.read.id).Nodup)
    {burst : List StoredRawRead} (hburst : ∀ stored ∈ burst, stored ∈ input.reads)
    {crossing : AcceptedRead}
    (hcrossing : crossing.burstRawReads = burst.map fun stored => stored.read.id) :
    lastReadAt input crossing =
      burst.getLast?.map fun last => last.read.authoritativeTimestamp := by
  rw [lastReadAt, hcrossing, List.getLast?_map]
  cases hlast : burst.getLast? with
  | none => rfl
  | some last =>
      have hmem := hburst last (List.mem_of_getLast? hlast)
      show (input.reads.find? fun stored => stored.read.id = last.read.id).map _ = _
      rw [find_key_eq hids hmem]

/-- The side of a sighting is the side of its events. -/
theorem race_side_event (hids : (input.reads.map fun stored => stored.read.id).Nodup)
    (hnames : NoCollision newV5 input) {sighting : Sighting}
    (hsighting : sighting ∈ (derive newV5 input).accepted.filterMap
        (sightingOf (creditGroups newV5 input).raceSides) ++
      input.manual.map (manualSighting input)) (lap : UInt16) :
    raceSide input (derive newV5 input) (sighting.event newV5 lap) = sighting.raceSide := by
  rcases List.mem_append.mp hsighting with hchip | hmanual
  · obtain ⟨crossing, hcrossing, hsome⟩ := List.mem_filterMap.mp hchip
    obtain ⟨participant, _, rfl⟩ := Option.map_eq_some_iff.mp hsome
    obtain ⟨seen, hseen, h⟩ := credit_groups_accounted hids hnames
    have hperm : (derive newV5 input).accepted.Perm (creditGroups newV5 input).accepted :=
      sort_by_key_perm _ _
    have hnodup := derive_accepted_ids_nodup hids hnames
    obtain ⟨chip, checkpoint, burst, chosen, hcredited⟩ :=
      h.credited crossing (hperm.mem_iff.mp hcrossing)
    have hburst : crossing.burstRawReads = burst.map fun stored => stored.read.id := by
      rw [hcredited.built]
      rfl
    -- the crossing is found by its identifier, and the last read of its burst by its own
    have hlast := last_read_at_eq hids
      (fun stored hstored => hseen.mem_iff.mp (hcredited.reads stored hstored)) hburst
    show input.gunTime.all (fun gun => (((derive newV5 input).accepted.find?
      fun other => other.id = crossing.id).bind (lastReadAt input)).any fun last => gun ≤ last) =
      (creditGroups newV5 input).raceSides[crossing.id]?.getD true
    rw [find_key_eq hnodup hcrossing, Option.bind_some, hlast, hcredited.side, Option.getD_some,
      onTheRaceSide]
    cases burst.getLast? <;> rfl
  · obtain ⟨entry, _, rfl⟩ := List.mem_map.mp hmanual
    rfl

/-- The timing events are those of the crossings that resolved to somebody and of the manual
entries. -/
theorem event_subjects_perm (newV5 : Uuid → String → Uuid) (input : DerivationInput) :
    ((derive newV5 input).timingEvents.map subject).Perm
      ((derive newV5 input).accepted.filterMap crossingSubject ++
        input.manual.map manualSubject) := by
  show ((numberLaps newV5 ∅ (sortByKey Sighting.key ((derive newV5 input).accepted.filterMap
    (sightingOf (creditGroups newV5 input).raceSides) ++
      input.manual.map (manualSighting input)))).map subject).Perm _
  rw [map_number_laps subject_event]
  refine ((sort_by_key_perm _ _).map _).trans (List.Perm.of_eq ?_)
  rw [List.map_append, List.map_filterMap, List.map_map]
  congr 2
  funext crossing
  rw [sightingOf, Option.map_map]
  rfl

/-- The timing events are in the order of their keys. -/
theorem event_keys_sorted (newV5 : Uuid → String → Uuid) (input : DerivationInput) :
    (derive newV5 input).timingEvents.Pairwise fun first second =>
      eventKey first ≤ eventKey second := by
  let sightings := (derive newV5 input).accepted.filterMap
    (sightingOf (creditGroups newV5 input).raceSides) ++ input.manual.map (manualSighting input)
  have hkeys := map_number_laps (@event_key_event newV5) ∅ (sortByKey Sighting.key sightings)
  have hsorted := sorted_sort_by_key Sighting.key sightings
  rw [← List.pairwise_map (f := Sighting.key) (R := (· ≤ ·)), ← hkeys] at hsorted
  exact List.pairwise_map.mp hsorted

/-- What is not on the race side is on lap 0. -/
theorem lap_of_warm_up (hids : (input.reads.map fun stored => stored.read.id).Nodup)
    (hnames : NoCollision newV5 input) :
    ∀ event ∈ (derive newV5 input).timingEvents,
      raceSide input (derive newV5 input) event = false → event.lap = 0 :=
  lap_eq_zero (fun _ hsighting lap =>
    race_side_event hids hnames (mem_sort_by_key.mp hsighting) lap) ∅

/-- The laps of a participant at a checkpoint on the race side are 1, 2, 3, and so on. -/
theorem race_laps_eq (hids : (input.reads.map fun stored => stored.read.id).Nodup)
    (hnames : NoCollision newV5 input) (participant : ParticipantId)
    (checkpoint : CheckpointId) :
    ∃ length, raceLaps (raceSide input (derive newV5 input)) participant checkpoint
      (derive newV5 input).timingEvents = lapsCounting 1 length :=
  race_laps_from (fun _ hsighting lap =>
    race_side_event hids hnames (mem_sort_by_key.mp hsighting) lap) participant checkpoint rfl

/-- Laps: the timing events are those of the crossings that resolved to somebody and of the manual
entries, in order; without a gun all of them are on the race side; what is not on the race side is
on lap 0; and the laps of a participant at a checkpoint on the race side are 1, 2, 3, and so on up
to the greatest one. -/
theorem laps_numbered (newV5 : Uuid → String → Uuid) (input : DerivationInput)
    (hids : (input.reads.map fun stored => stored.read.id).Nodup)
    (hnames : NoCollision newV5 input) :
    let derivation := derive newV5 input
    let side := raceSide input derivation
    (derivation.timingEvents.map subject).Perm
      (derivation.accepted.filterMap crossingSubject ++ input.manual.map manualSubject) ∧
    derivation.timingEvents.Pairwise (fun first second => eventKey first ≤ eventKey second) ∧
    (input.gunTime = none → ∀ event, side event = true) ∧
    (∀ event ∈ derivation.timingEvents, side event = false → event.lap = 0) ∧
    ∀ participant checkpoint, ∃ length,
      raceLaps side participant checkpoint derivation.timingEvents = lapsCounting 1 length := by
  intro derivation side
  refine ⟨event_subjects_perm newV5 input, event_keys_sorted newV5 input, ?_,
    lap_of_warm_up hids hnames, race_laps_eq hids hnames⟩
  intro hgun event
  show raceSide input derivation event = true
  rw [raceSide, hgun]
  rfl

/-- In the sample the runner's start is lap 1, though its credited read came before the gun, and
the manual entry is lap 2. -/
theorem laps_numbered_sample :
    (derive sampleV5 sample).timingEvents.map (·.lap) = [1, 2] ∧
    (derive sampleV5 sample).timingEvents.Pairwise
      (fun first second => eventKey first ≤ eventKey second) :=
  ⟨by decide +kernel, (laps_numbered sampleV5 sample (by decide) sample_no_collision).2.1⟩

end Splitforge.Engine
