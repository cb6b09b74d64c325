import Splitforge.Engine.OrderIndependence

/-!
# Derivation reads the sequence number and the read of a row

When a row was recorded, and the digest beside it, play no part: two tables with the same reads
under the same sequence numbers derive the same.
-/

namespace Splitforge.Engine

open Std (ExtTreeMap)
open Splitforge.Domain Splitforge.Library

variable {newV5 : Uuid → String → Uuid} {input : DerivationInput}

/-- A row with nothing but its sequence number and its read. -/
def bare (stored : StoredRawRead) : StoredRawRead :=
  { stored with recordedAt := stored.read.receivedAt, payloadSha256 := "" }

@[simp]
theorem bare_seq (stored : StoredRawRead) : (bare stored).seq = stored.seq := rfl

@[simp]
theorem bare_read (stored : StoredRawRead) : (bare stored).read = stored.read := rfl

/-! ## One group -/

theorem in_order_map (reads : List StoredRawRead) :
    inOrder (reads.map bare) = (inOrder reads).map bare :=
  (List.map_insertionSort _ _ bare reads fun _ _ _ _ => Iff.rfl).symm

theorem next_map (window : Duration) (scan : BurstScan) (stored : StoredRawRead) :
    BurstScan.next window ⟨scan.bursts.map (List.map bare), scan.current.map bare, scan.previous⟩
        (bare stored) =
      ⟨(scan.next window stored).bursts.map (List.map bare),
        (scan.next window stored).current.map bare, (scan.next window stored).previous⟩ := by
  rw [BurstScan.next, BurstScan.next]
  by_cases hcut : scan.previous.any
      (fun previous => window < stored.read.authoritativeTimestamp - previous) ∧ scan.current ≠ []
  · have hcurrent : scan.current.map bare ≠ [] := by simpa using hcut.2
    rw [if_pos hcut, if_pos ⟨hcut.1, hcurrent⟩]
    simp
  · have hcurrent : ¬ (scan.previous.any
        (fun previous => window < stored.read.authoritativeTimestamp - previous) ∧
          scan.current.map bare ≠ []) := by simpa using hcut
    rw [if_neg hcut]
    refine (if_neg hcurrent).trans ?_
    simp

theorem split_into_bursts_map (reads : List StoredRawRead) (window : Duration) :
    splitIntoBursts (reads.map bare) window =
      (splitIntoBursts reads window).map (List.map bare) := by
  have hscan : ∀ (reads : List StoredRawRead) (scan : BurstScan),
      (reads.map bare).foldl (BurstScan.next window)
          ⟨scan.bursts.map (List.map bare), scan.current.map bare, scan.previous⟩ =
        ⟨(reads.foldl (BurstScan.next window) scan).bursts.map (List.map bare),
          (reads.foldl (BurstScan.next window) scan).current.map bare,
          (reads.foldl (BurstScan.next window) scan).previous⟩ := by
    intro reads
    induction reads with
    | nil => exact fun _ => rfl
    | cons stored reads ih =>
        intro scan
        rw [List.map_cons, List.foldl_cons, List.foldl_cons, next_map, ih]
  have hall := hscan reads ⟨[], [], none⟩
  rw [List.map_nil, List.map_nil] at hall
  rw [splitIntoBursts, splitIntoBursts, hall]
  simp only [List.map_eq_nil_iff]
  split_ifs
  · rfl
  · rw [List.map_append]
    rfl

theorem select_map (burst : List StoredRawRead) (rule : SelectionRule) :
    select (burst.map bare) rule = (select burst rule).map bare := by
  cases rule with
  | first => exact List.head?_map
  | firstAboveRssi floorDbm => exact List.find?_map
  | peakRssi =>
      rw [select, select, List.zipIdx_map]
      simp only [max_by_key_map, Option.map_map]
      rfl

theorem reject_map (crossings : Crossings) (reads : List StoredRawRead)
    {reason reason' : StoredRawRead → RejectionReason}
    (h : ∀ stored, reason (bare stored) = reason' stored) :
    crossings.reject (reads.map bare) reason = crossings.reject reads reason' := by
  rw [Crossings.reject, Crossings.reject, List.map_map]
  congr 2
  exact List.map_congr_left fun stored _ => by rw [Function.comp_apply, h, bare_read]

theorem credit_map (crossings : Crossings) (crossing : AcceptedRead) (raceSide : Bool)
    (burst : List StoredRawRead) :
    crossings.credit crossing raceSide (burst.map bare) =
      crossings.credit crossing raceSide burst := by
  have hfilter : (burst.map bare).filter (fun stored => stored.read.id ≠ crossing.sourceRawRead) =
      (burst.filter fun stored => stored.read.id ≠ crossing.sourceRawRead).map bare :=
    List.filter_map
  rw [Crossings.credit, Crossings.credit, hfilter, reject_map _ _ fun _ => rfl]
  rfl

theorem on_the_race_side_map (burst : List StoredRawRead) (gun : Option OffsetDateTime) :
    onTheRaceSide (burst.map bare) gun = onTheRaceSide burst gun := by
  rw [onTheRaceSide, onTheRaceSide, List.getLast?_map]
  cases burst.getLast? <;> rfl

theorem crossing_of_map (chip : ChipId) (checkpoint : CheckpointId) (burst : List StoredRawRead)
    (chosen : StoredRawRead) :
    crossingOf newV5 input chip checkpoint (burst.map bare) (bare chosen) =
      crossingOf newV5 input chip checkpoint burst chosen := by
  rw [crossingOf, crossingOf, List.map_map]
  rfl

theorem credit_burst_map (chip : ChipId) (checkpoint : CheckpointId)
    (state : Crossings × Option (OffsetDateTime × Bool)) (burst : List StoredRawRead) :
    creditBurst newV5 input chip checkpoint state (burst.map bare) =
      creditBurst newV5 input chip checkpoint state burst := by
  obtain ⟨crossings, lastCredited⟩ := state
  unfold creditBurst
  simp only [select_map, on_the_race_side_map]
  cases hselect : select burst (input.policy.selectionRuleFor checkpoint) with
  | none => simp only [Option.map_none, reject_map _ _ fun _ => rfl]; rfl
  | some chosen =>
      simp only [Option.map_some, bare_read, crossing_of_map, credit_map]
      split
      · rw [reject_map _ _ fun _ => rfl]
      · rfl

theorem credit_group_map (crossings : Crossings) (place : ChipId ×ₗ CheckpointId)
    (reads : List StoredRawRead) :
    creditGroup newV5 input crossings (place, reads.map bare) =
      creditGroup newV5 input crossings (place, reads) := by
  unfold creditGroup
  simp only [in_order_map, split_into_bursts_map, List.foldl_map, credit_burst_map]

/-! ## All groups -/

theorem place_of_bare (stored : StoredRawRead) :
    placeOf input (bare stored) = placeOf input stored := rfl

theorem items_with_map (place : ChipId ×ₗ CheckpointId) (reads : List StoredRawRead) :
    itemsWith (placeOf input) place (reads.map bare) =
      (itemsWith (placeOf input) place reads).map bare :=
  List.filter_map

theorem keys_group_by_map (reads : List StoredRawRead) :
    (groupBy (placeOf input) (reads.map bare)).keys = (groupBy (placeOf input) reads).keys :=
  keys_group_by_eq fun wanted => by simp [place_of_bare]

/-- The loops over the reads and the groups do the same with bare rows. -/
theorem credit_groups_bare (input : DerivationInput) :
    creditGroups newV5 { input with reads := input.reads.map bare } = creditGroups newV5 input := by
  have hunmapped : (unmappedReads { input with reads := input.reads.map bare }).map unmapped =
      (unmappedReads input).map unmapped := by
    have hfilter : unmappedReads { input with reads := input.reads.map bare } =
        (unmappedReads input).map bare := List.filter_map
    rw [hfilter, List.map_map]
    rfl
  rw [credit_groups_eq, credit_groups_eq, hunmapped]
  show (groupBy (placeOf input) (input.reads.map bare)).keys.foldl
    (fun crossings place => creditGroup newV5 input crossings
      (place, itemsWith (placeOf input) place (input.reads.map bare))) _ = _
  simp only [keys_group_by_map, items_with_map, credit_group_map]

/-- Derivation does not look at what a bare row lacks. -/
theorem derive_bare (newV5 : Uuid → String → Uuid) (input : DerivationInput) :
    derive newV5 { input with reads := input.reads.map bare } = derive newV5 input := by
  unfold derive
  rw [credit_groups_bare]
  rfl

/-- Two tables with the same reads under the same sequence numbers derive the same. -/
theorem derive_eq_of_reads (newV5 : Uuid → String → Uuid) (input : DerivationInput)
    {reads : List StoredRawRead} (h : reads.map (fun stored => (stored.seq, stored.read)) =
      input.reads.map fun stored => (stored.seq, stored.read)) :
    derive newV5 { input with reads := reads } = derive newV5 input := by
  have hbare : reads.map bare = input.reads.map bare := by
    have hboth (rows : List StoredRawRead) : rows.map bare =
        (rows.map fun stored => (stored.seq, stored.read)).map fun row =>
          ⟨row.1, row.2.receivedAt, "", row.2⟩ := by
      rw [List.map_map]
      rfl
    rw [hboth, hboth, h]
  rw [← derive_bare newV5 input, ← hbare]
  exact (derive_bare newV5 { input with reads := reads }).symm

end Splitforge.Engine
