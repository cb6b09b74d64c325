import Splitforge.Engine.Laps
import Splitforge.Engine.Locality

/-!
# What later reads leave alone

Derivation starts over with every read that is added, and what it said may change with reads that
come late. Once every read still to come at a checkpoint is more than its window behind the reads
that came there, it cannot: the crossings and the suppressions so far stay, and so do the events,
with their laps, up to the first instant that is still to come.
-/

namespace Splitforge.Engine

open Std (ExtTreeMap)
open Splitforge.Domain Splitforge.Library

/-- A derivation with more reads in the journal. -/
def DerivationInput.withMore (input : DerivationInput) (more : List StoredRawRead) :
    DerivationInput :=
  { input with reads := input.reads ++ more }

/-- Whether the reads to come at every checkpoint are more than its window behind those that came
there. -/
def Beyond (input : DerivationInput) (more : List StoredRawRead) : Prop :=
  ∀ stored ∈ input.reads, ∀ later ∈ more, ∀ checkpoint,
    input.antennas.resolve stored.read.source stored.read.antenna = some checkpoint →
      input.antennas.resolve later.read.source later.read.antenna = some checkpoint →
        windowAt input checkpoint <
          later.read.authoritativeTimestamp - stored.read.authoritativeTimestamp

/-- Whether an instant at a checkpoint is before every read to come there. -/
def Settled (input : DerivationInput) (more : List StoredRawRead) (checkpoint : CheckpointId)
    (at' : OffsetDateTime) : Prop :=
  ∀ later ∈ more, input.antennas.resolve later.read.source later.read.antenna = some checkpoint →
    at' < later.read.authoritativeTimestamp

instance (input : DerivationInput) (more : List StoredRawRead) (checkpoint : CheckpointId)
    (at' : OffsetDateTime) : Decidable (Settled input more checkpoint at') :=
  inferInstanceAs (Decidable (∀ later ∈ more, _ → _))

variable {newV5 : Uuid → String → Uuid} {input : DerivationInput} {more : List StoredRawRead}
variable {chip : ChipId} {checkpoint : CheckpointId}

/-! ## The bursts of a place -/

/-- A window is not negative. -/
theorem lt_of_window_lt {first second : OffsetDateTime}
    (h : windowAt input checkpoint < second - first) : first < second := by
  rw [OffsetDateTime.lt_iff]
  rw [windowAt, Duration.lt_iff, OffsetDateTime.sub_nanos] at h
  unfold i64OrMax Duration.milliseconds i64Max i64Min at h
  dsimp only at h
  split_ifs at h <;> omega

/-- A read of a place was resolved to its checkpoint. -/
theorem resolve_of_place {stored : StoredRawRead}
    (h : placeOf input stored = some (toLex (chip, checkpoint))) :
    input.antennas.resolve stored.read.source stored.read.antenna = some checkpoint := by
  unfold placeOf at h
  obtain ⟨resolved, hresolved, hplace⟩ := Option.map_eq_some_iff.mp h
  rw [hresolved]
  exact congrArg some (Prod.ext_iff.mp (toLex_inj.mp hplace)).2

/-- The bursts of the reads still to come. -/
def burstsToCome (input : DerivationInput) (more : List StoredRawRead) (chip : ChipId)
    (checkpoint : CheckpointId) : List (List StoredRawRead) :=
  burstsAt { input with reads := more } chip checkpoint

/-- The reads to come at a place go into bursts of their own. -/
theorem bursts_at_more (h : Beyond input more) (chip : ChipId) (checkpoint : CheckpointId) :
    burstsAt (input.withMore more) chip checkpoint =
      burstsAt input chip checkpoint ++ burstsToCome input more chip checkpoint := by
  have hgap : ∀ stored ∈ itemsWith (placeOf input) (toLex (chip, checkpoint)) input.reads,
      ∀ later ∈ itemsWith (placeOf input) (toLex (chip, checkpoint)) more,
        windowAt input checkpoint <
          later.read.authoritativeTimestamp - stored.read.authoritativeTimestamp := by
    intro stored hstored later hlater
    obtain ⟨hstored, hplace⟩ := mem_items_with.mp hstored
    obtain ⟨hlater, hplace'⟩ := mem_items_with.mp hlater
    exact h stored hstored later hlater checkpoint (resolve_of_place hplace)
      (resolve_of_place hplace')
  have hitems : itemsWith (placeOf input) (toLex (chip, checkpoint)) (input.reads ++ more) =
      itemsWith (placeOf input) (toLex (chip, checkpoint)) input.reads ++
        itemsWith (placeOf input) (toLex (chip, checkpoint)) more := List.filter_append ..
  have horder : inOrder (itemsWith (placeOf input) (toLex (chip, checkpoint))
      (input.reads ++ more)) =
      inOrder (itemsWith (placeOf input) (toLex (chip, checkpoint)) input.reads) ++
        inOrder (itemsWith (placeOf input) (toLex (chip, checkpoint)) more) := by
    rw [hitems]
    refine sort_by_key_append fun stored hstored later hlater => ?_
    exact Prod.Lex.toLex_le_toLex.mpr (.inl (lt_of_window_lt (hgap stored hstored later hlater)))
  show splitIntoBursts (inOrder (itemsWith (placeOf input) (toLex (chip, checkpoint))
    (input.reads ++ more))) (windowAt input checkpoint) = _
  rw [horder, split_into_bursts_eq, List.splitBy_append, ← split_into_bursts_eq,
    ← split_into_bursts_eq]
  · rfl
  · intro stored hstored later hlater
    have hstored' := mem_sort_by_key.mp (List.mem_of_getLast? hstored)
    have hlater' := mem_sort_by_key.mp (List.mem_of_head? hlater)
    exact decide_eq_false (not_le.mpr (hgap stored hstored' later hlater'))

/-- The verdicts on the bursts so far stay, and those on the bursts to come are behind them. -/
theorem verdicts_at_more (h : Beyond input more) (chip : ChipId) (checkpoint : CheckpointId) :
    verdictsAt (input.withMore more) chip checkpoint =
      verdictsAt input chip checkpoint ++ verdicts input checkpoint
        (referenceAfter input checkpoint none (burstsAt input chip checkpoint))
        (burstsToCome input more chip checkpoint) := by
  have hsame : ∀ bursts, verdicts (input.withMore more) checkpoint none bursts =
      verdicts input checkpoint none bursts := verdicts_congr rfl rfl
  rw [verdictsAt, bursts_at_more h, hsame, verdicts_append]
  rfl

/-! ## The crossings -/

/-- A read so far is before every read to come at its checkpoint. -/
theorem settled_of_mem (h : Beyond input more) {stored : StoredRawRead}
    (hstored : stored ∈ input.reads) (hplace : placeOf input stored =
      some (toLex (chip, checkpoint))) :
    Settled input more checkpoint stored.read.authoritativeTimestamp :=
  fun later hlater hresolved => lt_of_window_lt
    (h stored hstored later hlater checkpoint (resolve_of_place hplace) hresolved)

/-- A read to come is not. -/
theorem not_settled_of_mem {stored : StoredRawRead} (hstored : stored ∈ more)
    (hplace : placeOf input stored = some (toLex (chip, checkpoint))) :
    ¬ Settled input more checkpoint stored.read.authoritativeTimestamp :=
  fun h => lt_irrefl _ (h stored hstored (resolve_of_place hplace))

/-- The crossings so far are settled. -/
theorem settled_of_mem_credited_at (h : Beyond input more) {crossing : AcceptedRead}
    (hcrossing : crossing ∈ creditedAt newV5 input chip checkpoint) :
    Settled input more crossing.checkpoint crossing.at := by
  obtain ⟨judged, hjudged, hfrom⟩ := List.mem_filterMap.mp hcrossing
  obtain ⟨chosen, hselect, rfl⟩ := crossing_of_verdict hjudged hfrom
  obtain ⟨hmem, hplace⟩ := place_of_mem_burst (burst_of_judged hjudged) (mem_of_select hselect)
  exact settled_of_mem h hmem hplace

/-- Of the crossings of a place with more reads, those that are settled are those so far. -/
theorem credited_at_more (h : Beyond input more) (newV5 : Uuid → String → Uuid) (chip : ChipId)
    (checkpoint : CheckpointId) :
    ((creditedAt newV5 (input.withMore more) chip checkpoint).filter fun crossing =>
        Settled input more crossing.checkpoint crossing.at) =
      creditedAt newV5 input chip checkpoint := by
  have hfrom : crossingFrom newV5 (input.withMore more) chip checkpoint =
      crossingFrom newV5 input chip checkpoint := rfl
  rw [creditedAt, verdicts_at_more h, hfrom, List.filterMap_append, List.filter_append]
  have hfront : ((verdictsAt input chip checkpoint).filterMap
      (crossingFrom newV5 input chip checkpoint)).filter (fun crossing =>
        Settled input more crossing.checkpoint crossing.at) =
      creditedAt newV5 input chip checkpoint :=
    List.filter_eq_self.mpr fun crossing hcrossing =>
      decide_eq_true (settled_of_mem_credited_at h hcrossing)
  rw [hfront]
  refine List.append_right_eq_self.mpr (List.filter_eq_nil_iff.mpr fun crossing hcrossing => ?_)
  -- what is still to come is credited with a read that is still to come
  obtain ⟨judged, hjudged, hfrom⟩ := List.mem_filterMap.mp hcrossing
  obtain ⟨chosen, hselect, rfl⟩ := crossing_of_verdict hjudged hfrom
  obtain ⟨burst, verdict⟩ := judged
  obtain ⟨front, back, hsplit, -⟩ := mem_verdicts hjudged
  have hburst : burst ∈ burstsToCome input more chip checkpoint := by
    rw [hsplit]
    exact List.mem_append_right _ List.mem_cons_self
  obtain ⟨hmem, hplace⟩ := place_of_mem_burst hburst (mem_of_select hselect)
  rw [decide_eq_true_eq]
  exact not_settled_of_mem hmem hplace

/-- With more reads there are as many places or more. -/
theorem places_sublist (input : DerivationInput) (more : List StoredRawRead) :
    (places input).Sublist (places (input.withMore more)) := by
  refine List.sublist_of_subperm_of_pairwise ?_ (sorted_keys _) (sorted_keys _)
  refine List.subperm_of_subset ((sorted_keys _).imp fun h => h.ne) fun place hplace => ?_
  obtain ⟨stored, hstored, hkey⟩ := mem_keys_group_by.mp hplace
  exact mem_keys_group_by.mpr ⟨stored, List.mem_append_left _ hstored, hkey⟩

/-- What all places of more reads contribute, where only the reads so far do. -/
theorem flat_map_places_more {Item : Type} (input : DerivationInput) (more : List StoredRawRead)
    {image : ChipId ×ₗ CheckpointId → List Item}
    (h : ∀ place, place ∉ places input → image place = []) :
    (places (input.withMore more)).flatMap image = (places input).flatMap image :=
  flat_map_of_sublist (places_sublist input more) (fun place _ hnot => h place hnot)
    ((sorted_keys _).imp fun h => h.ne)

/-- A place without reads has no crossings, and no suppressions. -/
theorem at_eq_nil {place : ChipId ×ₗ CheckpointId} (h : place ∉ places input) :
    creditedAt newV5 input (ofLex place).1 (ofLex place).2 = [] ∧
      rejectedAt newV5 input (ofLex place).1 (ofLex place).2 = [] := by
  have hnone : toLex ((ofLex place).1, (ofLex place).2) ∉ places input := h
  unfold creditedAt rejectedAt verdictsAt
  rw [bursts_at_eq_nil hnone]
  exact ⟨rfl, rfl⟩

/-- Of the crossings of a derivation with more reads, those that are settled are those so far. -/
theorem accepted_more (h : Beyond input more) (newV5 : Uuid → String → Uuid) :
    ((derive newV5 (input.withMore more)).accepted.filter fun crossing =>
        Settled input more crossing.checkpoint crossing.at) =
      (derive newV5 input).accepted := by
  have hgroups : ((creditGroups newV5 (input.withMore more)).accepted.filter fun crossing =>
      Settled input more crossing.checkpoint crossing.at) =
        (creditGroups newV5 input).accepted := by
    rw [(credit_groups_eq_verdicts newV5 _).1, (credit_groups_eq_verdicts newV5 _).1,
      List.filter_flatMap, List.flatMap_congr fun place _ => credited_at_more h newV5 _ _]
    exact flat_map_places_more input more fun place hnot => (at_eq_nil hnot).1
  show (sortByKey (fun crossing : AcceptedRead => toLex (crossing.at, crossing.id))
    (creditGroups newV5 (input.withMore more)).accepted).filter _ = sortByKey _ _
  rw [sort_by_key_filter, hgroups]

/-! ## The suppressions -/

/-- Whether a suppression is of a read so far. -/
def isSoFar (input : DerivationInput) (entry : RejectedRead) : Bool :=
  input.reads.any fun stored => stored.read.id = entry.rawRead

/-- A suppression of a burst is of one of its reads. -/
theorem read_of_rejection {judged : List StoredRawRead × Verdict} {entry : RejectedRead}
    (h : entry ∈ rejectionsFrom newV5 input chip checkpoint judged) :
    ∃ stored ∈ judged.1, ⟨stored.read.id, entry.reason⟩ = entry := by
  obtain ⟨burst, verdict⟩ := judged
  cases verdict with
  | credited chosen raceSide =>
      obtain ⟨stored, hstored, rfl⟩ := List.mem_map.mp h
      exact ⟨stored, (List.mem_filter.mp hstored).1, rfl⟩
  | belowFloor =>
      obtain ⟨stored, hstored, rfl⟩ := List.mem_map.mp h
      exact ⟨stored, hstored, rfl⟩
  | belowMinLap minLapMs actualMs =>
      obtain ⟨stored, hstored, rfl⟩ := List.mem_map.mp h
      exact ⟨stored, hstored, rfl⟩

/-- Of the suppressions of a derivation with more reads, those of the reads so far are those so
far. -/
theorem rejected_more (h : Beyond input more) (newV5 : Uuid → String → Uuid)
    (hids : ((input.reads ++ more).map fun stored => stored.read.id).Nodup) :
    (derive newV5 (input.withMore more)).rejected.filter (isSoFar input) =
      (derive newV5 input).rejected := by
  have hsoFar : ∀ stored ∈ input.reads, ∀ reason, isSoFar input ⟨stored.read.id, reason⟩ = true :=
    fun stored hstored _ => List.any_eq_true.mpr ⟨stored, hstored, decide_eq_true rfl⟩
  have hnot : ∀ later ∈ more, ∀ reason, ¬ isSoFar input ⟨later.read.id, reason⟩ = true := by
    intro later hlater reason hany
    obtain ⟨stored, hstored, hid⟩ := List.any_eq_true.mp hany
    rw [List.map_append, List.nodup_append] at hids
    exact hids.2.2 _ (List.mem_map_of_mem hstored) _ (List.mem_map_of_mem hlater)
      (of_decide_eq_true hid)
  have hplace : ∀ chip checkpoint, (rejectedAt newV5 (input.withMore more) chip checkpoint).filter
      (isSoFar input) = rejectedAt newV5 input chip checkpoint := by
    intro chip checkpoint
    have hfrom : rejectionsFrom newV5 (input.withMore more) chip checkpoint =
        rejectionsFrom newV5 input chip checkpoint := rfl
    have hfront : ((verdictsAt input chip checkpoint).flatMap
        (rejectionsFrom newV5 input chip checkpoint)).filter (isSoFar input) =
          rejectedAt newV5 input chip checkpoint := by
      refine List.filter_eq_self.mpr fun entry hentry => ?_
      obtain ⟨judged, hjudged, hentry⟩ := List.mem_flatMap.mp hentry
      obtain ⟨stored, hstored, hread⟩ := read_of_rejection hentry
      obtain ⟨hmem, -⟩ := place_of_mem_burst (burst_of_judged hjudged) hstored
      exact hread ▸ hsoFar stored hmem _
    rw [rejectedAt, verdicts_at_more h, hfrom, List.flatMap_append, List.filter_append, hfront]
    refine List.append_right_eq_self.mpr (List.filter_eq_nil_iff.mpr fun entry hentry => ?_)
    -- a burst to come suppresses reads to come
    obtain ⟨judged, hjudged, hentry⟩ := List.mem_flatMap.mp hentry
    obtain ⟨stored, hstored, hread⟩ := read_of_rejection hentry
    obtain ⟨front, back, hsplit, -⟩ := mem_verdicts hjudged
    have hburst : judged.1 ∈ burstsToCome input more chip checkpoint := by
      rw [hsplit]
      exact List.mem_append_right _ List.mem_cons_self
    obtain ⟨hmem, -⟩ := place_of_mem_burst hburst hstored
    exact hread ▸ hnot stored hmem _
  have hunmapped : ((unmappedReads (input.withMore more)).map unmapped).filter (isSoFar input) =
      (unmappedReads input).map unmapped := by
    have hsplit : unmappedReads (input.withMore more) =
        unmappedReads input ++ more.filter fun stored => (placeOf input stored).isNone :=
      List.filter_append ..
    rw [hsplit, List.map_append, List.filter_append]
    have hfront : ((unmappedReads input).map unmapped).filter (isSoFar input) =
        (unmappedReads input).map unmapped := by
      refine List.filter_eq_self.mpr fun entry hentry => ?_
      obtain ⟨stored, hstored, rfl⟩ := List.mem_map.mp hentry
      exact hsoFar stored (List.mem_filter.mp hstored).1 _
    rw [hfront]
    refine List.append_right_eq_self.mpr (List.filter_eq_nil_iff.mpr fun entry hentry => ?_)
    obtain ⟨stored, hstored, rfl⟩ := List.mem_map.mp hentry
    exact hnot stored (List.mem_filter.mp hstored).1 _
  have hgroups : (creditGroups newV5 (input.withMore more)).rejected.filter (isSoFar input) =
      (creditGroups newV5 input).rejected := by
    rw [(credit_groups_eq_verdicts newV5 _).2, (credit_groups_eq_verdicts newV5 _).2,
      List.filter_append, hunmapped, List.filter_flatMap,
      List.flatMap_congr fun place _ => hplace _ _]
    exact congrArg _ (flat_map_places_more input more fun place hnot => (at_eq_nil hnot).2)
  show (sortByKey (fun entry : RejectedRead => entry.rawRead)
    (creditGroups newV5 (input.withMore more)).rejected).filter _ = sortByKey _ _
  rw [sort_by_key_filter, hgroups]

/-! ## The events -/

/-- Counters that agree on the places of some sightings number them alike. -/
theorem number_laps_congr {counters counters' : ExtTreeMap (ParticipantId ×ₗ CheckpointId) UInt16}
    {sightings : List Sighting}
    (h : ∀ sighting ∈ sightings, counters[toLex (sighting.participant, sighting.checkpoint)]? =
      counters'[toLex (sighting.participant, sighting.checkpoint)]?) :
    numberLaps newV5 counters sightings = numberLaps newV5 counters' sightings := by
  induction sightings generalizing counters counters' with
  | nil => rfl
  | cons sighting sightings ih =>
      have hrest := fun other hother => h other (List.mem_cons_of_mem sighting hother)
      unfold numberLaps
      simp only [h sighting List.mem_cons_self]
      split
      · refine congrArg _ (ih fun other hother => ?_)
        rw [get_insert, get_insert, hrest other hother]
      · exact congrArg _ (ih hrest)

/-- Sightings that nothing of their checkpoint that is kept comes behind can be left out before
numbering or after it. -/
theorem number_laps_filter {keeps : CheckpointId → OffsetDateTime → Bool}
    {sightings : List Sighting}
    (hsorted : sightings.Pairwise fun first second =>
      keeps first.checkpoint first.at = false → second.checkpoint = first.checkpoint →
        keeps second.checkpoint second.at = false)
    (counters : ExtTreeMap (ParticipantId ×ₗ CheckpointId) UInt16) :
    (numberLaps newV5 counters sightings).filter (fun event => keeps event.checkpoint event.at) =
      numberLaps newV5 counters
        (sightings.filter fun sighting => keeps sighting.checkpoint sighting.at) := by
  have hevent : ∀ (sighting : Sighting) lap, keeps (sighting.event newV5 lap).checkpoint
      (sighting.event newV5 lap).at = keeps sighting.checkpoint sighting.at := by
    intro sighting lap
    unfold Sighting.event
    cases sighting.source <;> rfl
  induction sightings generalizing counters with
  | nil => rfl
  | cons sighting sightings ih =>
      obtain ⟨hfirst, hrest⟩ := List.pairwise_cons.mp hsorted
      rw [numberLaps]
      cases hkeeps : keeps sighting.checkpoint sighting.at with
      | true =>
          simp only [List.filter_cons, hkeeps, if_true]
          rw [numberLaps]
          split
          · simp only [List.filter_cons, hevent, hkeeps, if_true, ih hrest]
          · simp only [List.filter_cons, hevent, hkeeps, if_true, ih hrest]
      | false =>
          split
          · simp only [List.filter_cons, hevent, hkeeps, Bool.false_eq_true, if_false, ih hrest]
            -- the counter that went on counts nothing that is kept
            refine number_laps_congr fun other hother => ?_
            obtain ⟨hmem, hkept⟩ := List.mem_filter.mp hother
            rw [get_insert, if_neg]
            intro heq
            have hcheckpoint := (Prod.ext_iff.mp (toLex_inj.mp heq)).2
            rw [hfirst other hmem hkeeps hcheckpoint.symm] at hkept
            cases hkept
          · simp only [List.filter_cons, hevent, hkeeps, Bool.false_eq_true, if_false, ih hrest]

/-- The names that the identifiers of more crossings can be hashes of. -/
theorem no_collision_of_more (h : NoCollision newV5 (input.withMore more)) :
    NoCollision newV5 input := by
  refine h.mono fun name hname => ?_
  obtain ⟨stored, hstored, hsome⟩ := List.mem_filterMap.mp hname
  exact List.mem_filterMap.mpr ⟨stored, List.mem_append_left _ hstored, hsome⟩

/-- The crossings so far stay on their side of the gun. -/
theorem race_side_more (hids : ((input.reads ++ more).map fun stored => stored.read.id).Nodup)
    (hnames : NoCollision newV5 (input.withMore more)) {crossing : AcceptedRead}
    (hcrossing : crossing ∈ (derive newV5 input).accepted)
    (hcrossing' : crossing ∈ (derive newV5 (input.withMore more)).accepted) :
    (creditGroups newV5 (input.withMore more)).raceSides[crossing.id]? =
      (creditGroups newV5 input).raceSides[crossing.id]? := by
  have hidsSoFar : (input.reads.map fun stored => stored.read.id).Nodup := by
    rw [List.map_append] at hids
    exact hids.of_append_left
  obtain ⟨seen, hseen, h⟩ := credit_groups_accounted hidsSoFar (no_collision_of_more hnames)
  obtain ⟨seen', hseen', h'⟩ := @credit_groups_accounted newV5 (input.withMore more) hids hnames
  obtain ⟨chip, checkpoint, burst, chosen, hcredited⟩ :=
    h.credited crossing (mem_sort_by_key.mp hcrossing)
  obtain ⟨chip', checkpoint', burst', chosen', hcredited'⟩ :=
    h'.credited crossing (mem_sort_by_key.mp hcrossing')
  -- the burst is known from the reads it names
  have hnamed : burst.map (fun stored => stored.read.id) =
      burst'.map fun stored => stored.read.id := by
    have hburst := congrArg AcceptedRead.burstRawReads hcredited.built
    rw [hcredited'.built] at hburst
    exact hburst.symm
  have hsame : burst = burst' :=
    eq_of_map_key_eq hids
      (fun stored hstored => List.mem_append_left _
        (hseen.mem_iff.mp (hcredited.reads stored hstored)))
      (fun stored hstored => hseen'.mem_iff.mp (hcredited'.reads stored hstored)) hnamed
  rw [hcredited.side, hcredited'.side, hsame]
  rfl

/-- Of the sightings of a derivation with more reads, those that are settled are those so far that
are. -/
theorem sightings_more (h : Beyond input more)
    (hids : ((input.reads ++ more).map fun stored => stored.read.id).Nodup)
    (hnames : NoCollision newV5 (input.withMore more)) :
    ((derive newV5 (input.withMore more)).accepted.filterMap (sightingOf
          (creditGroups newV5 (input.withMore more)).raceSides) ++
        input.manual.map (manualSighting input)).filter (fun sighting =>
          Settled input more sighting.checkpoint sighting.at) =
      ((derive newV5 input).accepted.filterMap (sightingOf (creditGroups newV5 input).raceSides) ++
        input.manual.map (manualSighting input)).filter fun sighting =>
          Settled input more sighting.checkpoint sighting.at := by
  have hfilter : ∀ (raceSides : ExtTreeMap AcceptedReadId Bool) (accepted : List AcceptedRead),
      (accepted.filterMap (sightingOf raceSides)).filter (fun sighting =>
          Settled input more sighting.checkpoint sighting.at) =
        (accepted.filter fun crossing =>
          Settled input more crossing.checkpoint crossing.at).filterMap (sightingOf raceSides) := by
    intro raceSides accepted
    rw [List.filter_filterMap, List.filterMap_filter]
    refine List.filterMap_congr fun crossing _ => ?_
    unfold sightingOf
    cases crossing.participant with
    | none => simp
    | some participant => simp [Option.filter]
  have hbefore : ((derive newV5 input).accepted.filter fun crossing =>
      Settled input more crossing.checkpoint crossing.at) = (derive newV5 input).accepted := by
    rw [← accepted_more h newV5, List.filter_filter]
    simp
  rw [List.filter_append, List.filter_append, hfilter, hfilter, accepted_more h newV5, hbefore]
  refine congrArg (· ++ _) (List.filterMap_congr fun crossing hcrossing => ?_)
  have hcrossing' : crossing ∈ (derive newV5 (input.withMore more)).accepted := by
    rw [← accepted_more h newV5] at hcrossing
    exact (List.mem_filter.mp hcrossing).1
  unfold sightingOf
  rw [race_side_more hids hnames hcrossing hcrossing']

/-- Derivation is final behind the window. When every read still to come at a checkpoint is more
than its window behind the reads that came there, deriving again with the reads to come leaves what
was derived alone: of the crossings those that are settled are the ones so far, of the suppressions
those of the reads so far are, and of the events, laps and identifiers included, those at instants
before the reads to come are the ones so far at such instants. -/
theorem derive_final (newV5 : Uuid → String → Uuid) (input : DerivationInput)
    (more : List StoredRawRead) (hbeyond : Beyond input more)
    (hids : ((input.reads ++ more).map fun stored => stored.read.id).Nodup)
    (hnames : NoCollision newV5 (input.withMore more)) :
    let derivation := derive newV5 input
    let derivation' := derive newV5 (input.withMore more)
    (derivation'.accepted.filter fun crossing =>
        Settled input more crossing.checkpoint crossing.at) = derivation.accepted ∧
      derivation'.rejected.filter (isSoFar input) = derivation.rejected ∧
      (derivation'.timingEvents.filter fun event =>
          Settled input more event.checkpoint event.at) =
        derivation.timingEvents.filter fun event =>
          Settled input more event.checkpoint event.at := by
  intro derivation derivation'
  refine ⟨accepted_more hbeyond newV5, rejected_more hbeyond newV5 hids, ?_⟩
  have hnumbered : ∀ sightings : List Sighting,
      (numberLaps newV5 ∅ (sortByKey Sighting.key sightings)).filter (fun event =>
          Settled input more event.checkpoint event.at) =
        numberLaps newV5 ∅ (sortByKey Sighting.key (sightings.filter fun sighting =>
          Settled input more sighting.checkpoint sighting.at)) := by
    intro sightings
    rw [← sort_by_key_filter]
    refine @number_laps_filter newV5 (fun checkpoint at' => Settled input more checkpoint at') _ ?_
      ∅
    refine (sorted_sort_by_key Sighting.key sightings).imp fun {first second} hle hnot hsame => ?_
    have hat : first.at ≤ second.at := by
      rcases Prod.Lex.toLex_le_toLex.mp hle with hlt | heq
      · exact hlt.le
      · exact heq.1.le
    refine decide_eq_false fun hsettled => of_decide_eq_false hnot fun later hlater hresolved => ?_
    exact hat.trans_lt (hsettled later hlater (hsame ▸ hresolved))
  show (numberLaps newV5 ∅ (sortByKey Sighting.key _)).filter _ =
    (numberLaps newV5 ∅ (sortByKey Sighting.key _)).filter _
  rw [hnumbered, hnumbered]
  exact congrArg (fun sightings => numberLaps newV5 ∅ (sortByKey Sighting.key sightings))
    (sightings_more hbeyond hids hnames)

/-- The sample up to its first read, with the gun at that read. -/
def opening : DerivationInput :=
  { sample with reads := [sampleRead 1 ⟨"gate"⟩ 10], gunTime := some (second 10) }

/-- The next lap, ten seconds later. -/
def nextLapReads : List StoredRawRead := [sampleRead 2 ⟨"gate"⟩ 20]

theorem opening_beyond : Beyond opening nextLapReads := by
  intro stored hstored later hlater checkpoint hresolved _
  rw [List.mem_singleton.mp hstored] at hresolved ⊢
  rw [List.mem_singleton.mp hlater]
  have hgate : (some ⟨.fromU128 7⟩ : Option CheckpointId) = some checkpoint := by
    rw [← hresolved]
    decide +kernel
  cases hgate
  decide +kernel

theorem opening_no_collision : NoCollision sampleV5 (opening.withMore nextLapReads) := by
  have hnames : acceptedNames (opening.withMore nextLapReads) = acceptedNames sample := by
    decide +kernel
  rw [NoCollision, hnames]
  exact sample_no_collision

/-- The start of the runner stays as it is when the next lap is read. -/
theorem derive_final_opening :
    let derivation := derive sampleV5 opening
    let derivation' := derive sampleV5 (opening.withMore nextLapReads)
    (derivation'.accepted.filter fun crossing =>
        Settled opening nextLapReads crossing.checkpoint crossing.at) = derivation.accepted ∧
      derivation'.rejected.filter (isSoFar opening) = derivation.rejected ∧
      (derivation'.timingEvents.filter fun event =>
          Settled opening nextLapReads event.checkpoint event.at) =
        derivation.timingEvents.filter fun event =>
          Settled opening nextLapReads event.checkpoint event.at :=
  derive_final sampleV5 opening nextLapReads opening_beyond (by decide) opening_no_collision

end Splitforge.Engine
