import Splitforge.Domain.Derived
import Splitforge.Library.Grouping
import Splitforge.Library.Sorting

/-!
# Derivation

Raw reads and manual entries become crossings, suppressions and timing events. Reads are grouped
by chip and checkpoint, each group is cut into bursts at long gaps, one read of a burst is
credited, and the crossings and the manual entries together are numbered into laps.
-/

namespace Splitforge.Engine

open Std (ExtTreeMap)
open Splitforge.Domain Splitforge.Library

/-- Everything `derive` needs. -/
structure DerivationInput where
  reads : List StoredRawRead
  policy : TimingPolicy
  chips : ChipRegistry
  antennas : AntennaMap
  manual : List ManualEntry
  gunTime : Option OffsetDateTime

/-! ## Bursts -/

/-- `on_the_race_side`: whether a crossing's reads were still arriving when the gun went. -/
def onTheRaceSide (burst : List StoredRawRead) (gun : Option OffsetDateTime) : Bool :=
  gun.all fun gun => burst.getLast?.any fun last => gun ≤ last.read.authoritativeTimestamp

/-- The loop of `split_into_bursts`: the bursts cut off so far, the one being filled, and the
time of the previous read. -/
structure BurstScan where
  bursts : List (List StoredRawRead)
  current : List StoredRawRead
  previous : Option OffsetDateTime

/-- One read of `split_into_bursts`. -/
def BurstScan.next (window : Duration) (scan : BurstScan) (stored : StoredRawRead) : BurstScan :=
  let at' := stored.read.authoritativeTimestamp
  -- strictly greater: reads exactly `window` apart stay in the same crossing
  if scan.previous.any (fun previous => window < at' - previous) ∧ scan.current ≠ [] then
    ⟨scan.bursts ++ [scan.current], [stored], some at'⟩
  else ⟨scan.bursts, scan.current ++ [stored], some at'⟩

/-- `split_into_bursts`: a new burst starts when the gap from the previous read exceeds the
window. -/
def splitIntoBursts (reads : List StoredRawRead) (window : Duration) :
    List (List StoredRawRead) :=
  let scan := reads.foldl (BurstScan.next window) ⟨[], [], none⟩
  if scan.current = [] then scan.bursts else scan.bursts ++ [scan.current]

/-- The signal strength of a read, the weakest there is when it has none. -/
def strength (stored : StoredRawRead) : Int := (stored.read.rssiDbm.getD Int16.minValue).toInt

/-- `select`: the read within a burst that becomes the crossing. -/
def select (burst : List StoredRawRead) (rule : SelectionRule) : Option StoredRawRead :=
  match rule with
  | .first => burst.head?
  | .firstAboveRssi floorDbm =>
      burst.find? fun stored => stored.read.rssiDbm.any fun rssi => floorDbm ≤ rssi
  | .peakRssi =>
      -- ties go to the earliest read, by the reversed index
      (maxByKey (fun indexed : StoredRawRead × Nat =>
        toLex (strength indexed.1, OrderDual.toDual indexed.2)) burst.zipIdx).map Prod.fst

/-! ## Crossings -/

/-- What the loop over the groups builds: the crossings, which of them are on the race side of
the gun, and the suppressed reads. -/
structure Crossings where
  accepted : List AcceptedRead
  raceSides : ExtTreeMap AcceptedReadId Bool
  rejected : List RejectedRead

/-- Suppresses reads, each with its own reason. -/
def Crossings.reject (crossings : Crossings) (reads : List StoredRawRead)
    (reason : StoredRawRead → RejectionReason) : Crossings :=
  { crossings with
    rejected := crossings.rejected ++ reads.map fun stored => ⟨stored.read.id, reason stored⟩ }

/-- Credits a crossing, and suppresses the other reads of its burst. -/
def Crossings.credit (crossings : Crossings) (crossing : AcceptedRead) (raceSide : Bool)
    (burst : List StoredRawRead) : Crossings :=
  let others := burst.filter fun stored => stored.read.id ≠ crossing.sourceRawRead
  let suppressed := crossings.reject others fun stored =>
    .duplicateWithinWindow crossing.id
      (i64OrMax (stored.read.authoritativeTimestamp - crossing.at).wholeMilliseconds)
  { suppressed with
    accepted := crossings.accepted ++ [crossing]
    raceSides := crossings.raceSides.insert crossing.id raceSide }

/-- The floor a suppressed burst did not clear. -/
def floorOf : SelectionRule → Int16
  | .firstAboveRssi floorDbm => floorDbm
  | .first | .peakRssi => Int16.minValue

/-- A lap credited faster than the minimum, and how fast it would have been. It is not measured
across the gun. -/
def lapViolation (policy : TimingPolicy) (lastCredited : Option (OffsetDateTime × Bool))
    (at' : OffsetDateTime) (raceSide : Bool) : Option (Nat × Int) :=
  match policy.minLapMs, lastCredited with
  | some minLapMs, some (previous, previousRaceSide) =>
      -- a warm-up is not the start of a lap, but two warm-ups are measured
      if previousRaceSide || !raceSide then
        let elapsed := (at' - previous).wholeMilliseconds
        if elapsed < minLapMs then some (minLapMs, i64OrMax elapsed) else none
      else none
  | _, _ => none

variable (newV5 : Uuid → String → Uuid) (input : DerivationInput)

/-- The crossing a burst becomes when one of its reads is credited. -/
def crossingOf (chip : ChipId) (checkpoint : CheckpointId) (burst : List StoredRawRead)
    (chosen : StoredRawRead) : AcceptedRead :=
  let at' := chosen.read.authoritativeTimestamp
  .new newV5 checkpoint chip (input.chips.participantAt chip at') at' chosen.read.id
    (burst.map fun stored => stored.read.id) chosen.read.rssiDbm

/-- One burst of a group: suppressed whole, or credited with one read and its others suppressed.
`lastCredited` says when the previous crossing was credited and on which side of the gun. -/
def creditBurst (chip : ChipId) (checkpoint : CheckpointId)
    (state : Crossings × Option (OffsetDateTime × Bool)) (burst : List StoredRawRead) :
    Crossings × Option (OffsetDateTime × Bool) :=
  let (crossings, lastCredited) := state
  let rule := input.policy.selectionRuleFor checkpoint
  match select burst rule with
  | none =>
      (crossings.reject burst fun stored =>
        .belowRssiFloor stored.read.rssiDbm (floorOf rule), lastCredited)
  | some chosen =>
      let at' := chosen.read.authoritativeTimestamp
      let raceSide := onTheRaceSide burst input.gunTime
      match lapViolation input.policy lastCredited at' raceSide with
      | some (minLapMs, actualMs) =>
          -- the lap before stays the one the next is measured from
          (crossings.reject burst fun _ => .belowMinLap minLapMs actualMs, lastCredited)
      | none =>
          let crossing := crossingOf newV5 input chip checkpoint burst chosen
          (crossings.credit crossing raceSide burst, some (at', raceSide))

/-- The reads of a group in order of time, then of insertion. -/
def inOrder (reads : List StoredRawRead) : List StoredRawRead :=
  sortByKey (fun stored => toLex (stored.read.authoritativeTimestamp, stored.seq)) reads

/-- The dedup window at a checkpoint. -/
def windowAt (checkpoint : CheckpointId) : Duration :=
  .milliseconds (i64OrMax (input.policy.minIntervalMsFor checkpoint))

/-- One group: its reads in order, cut into bursts, each burst credited or suppressed. -/
def creditGroup (crossings : Crossings)
    (group : (ChipId ×ₗ CheckpointId) × List StoredRawRead) : Crossings :=
  let (chip, checkpoint) := ofLex group.1
  ((splitIntoBursts (inOrder group.2) (windowAt input checkpoint)).foldl
    (creditBurst newV5 input chip checkpoint) (crossings, none)).1

/-- Where a read belongs: its chip and the checkpoint its antenna covers. -/
def placeOf (stored : StoredRawRead) : Option (ChipId ×ₗ CheckpointId) :=
  (input.antennas.resolve stored.read.source stored.read.antenna).map fun checkpoint =>
    toLex (stored.read.chip, checkpoint)

/-- The suppression of a read whose antenna covers no checkpoint. -/
def unmapped (stored : StoredRawRead) : RejectedRead :=
  ⟨stored.read.id, .unmappedReader stored.read.source stored.read.antenna⟩

/-- One read of the first loop: into its group, or suppressed. -/
def groupRead (state : ExtTreeMap (ChipId ×ₗ CheckpointId) (List StoredRawRead) ×
      List RejectedRead) (stored : StoredRawRead) :
    ExtTreeMap (ChipId ×ₗ CheckpointId) (List StoredRawRead) × List RejectedRead :=
  match placeOf input stored with
  | some place => (push state.1 place stored, state.2)
  | none => (state.1, state.2 ++ [unmapped stored])

/-- The loop over the groups, in the order of their places, behind the loop over the reads. -/
def creditGroups : Crossings :=
  let (groups, rejected) := input.reads.foldl (groupRead input) (∅, [])
  groups.toList.foldl (creditGroup newV5 input) ⟨[], ∅, rejected⟩

/-! ## Timing events -/

/-- What a timing event comes from. -/
inductive Source where
  | crossing (credited : AcceptedRead)
  | manual (entry : ManualEntry)

/-- Crossings sort ahead of entries, and then by identifier. -/
def Source.key : Source → Nat ×ₗ Uuid
  | .crossing credited => toLex (0, credited.id.uuid)
  | .manual entry => toLex (1, entry.id.uuid)

/-- One piece of evidence that somebody was somewhere, and the side of the gun it is on. -/
structure Sighting where
  «at» : OffsetDateTime
  participant : ParticipantId
  checkpoint : CheckpointId
  raceSide : Bool
  source : Source

/-- The sighting of a crossing, if its chip resolved to anybody. -/
def sightingOf (raceSides : ExtTreeMap AcceptedReadId Bool) (crossing : AcceptedRead) :
    Option Sighting :=
  crossing.participant.map fun participant =>
    ⟨crossing.at, participant, crossing.checkpoint, raceSides[crossing.id]?.getD true,
      .crossing crossing⟩

/-- The sighting of a manual entry: one instant, on the race side when it is at or after the
gun. -/
def manualSighting (entry : ManualEntry) : Sighting :=
  ⟨entry.at, entry.participant, entry.checkpoint, input.gunTime.all fun gun => gun ≤ entry.at,
    .manual entry⟩

/-- The order sightings are numbered in: by time, then by kind, then by identifier. -/
def Sighting.key (sighting : Sighting) : OffsetDateTime ×ₗ (Nat ×ₗ Uuid) :=
  toLex (sighting.at, sighting.source.key)

/-- The timing event of a sighting on a lap. -/
def Sighting.event (sighting : Sighting) (lap : UInt16) : TimingEvent :=
  match sighting.source with
  | .crossing credited =>
      .fromAccepted newV5 sighting.participant sighting.checkpoint sighting.at lap credited.id
  | .manual entry =>
      .fromManual newV5 sighting.participant sighting.checkpoint sighting.at lap entry.id

/-- `u16::saturating_add(1)`. -/
def nextLap (counter : UInt16) : UInt16 :=
  if counter.toNat < 65535 then counter + 1 else counter

/-- Numbers sightings into laps, counting each participant at each checkpoint. What was over
before the gun is lap 0. -/
def numberLaps (counters : ExtTreeMap (ParticipantId ×ₗ CheckpointId) UInt16) :
    List Sighting → List TimingEvent
  | [] => []
  | sighting :: sightings =>
      if sighting.raceSide then
        let place := toLex (sighting.participant, sighting.checkpoint)
        let counter := nextLap (counters[place]?.getD 0)
        sighting.event newV5 counter :: numberLaps (counters.insert place counter) sightings
      else sighting.event newV5 0 :: numberLaps counters sightings

/-- `derive`: crossings, suppressions and timing events from raw reads and manual entries. -/
def derive : Derivation :=
  let crossings := creditGroups newV5 input
  let accepted := sortByKey (fun crossing => toLex (crossing.at, crossing.id)) crossings.accepted
  let sightings :=
    accepted.filterMap (sightingOf crossings.raceSides) ++ input.manual.map (manualSighting input)
  { accepted
    rejected := sortByKey (fun rejected => rejected.rawRead) crossings.rejected
    timingEvents := numberLaps newV5 ∅ (sortByKey Sighting.key sightings) }

end Splitforge.Engine
