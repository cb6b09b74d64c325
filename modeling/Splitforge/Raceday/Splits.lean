import Splitforge.Engine.Laps
import Splitforge.Library.Fallible
import Splitforge.Raceday.Publish
import Splitforge.Results.Crossings
import Splitforge.Results.Places

/-!
# The splits of a revision

A row carries the splits of the events its entry lists, one for each split of the course, in order.
An entry lists the events its start and its finish rest on, and nothing that happened in between,
so what is published carries everybody's splits only where nobody has any.
-/

namespace Splitforge.Raceday

open Std (ExtTreeMap)
open Splitforge.Domain Splitforge.Library Splitforge.Engine Splitforge.Results

variable {Metres : Type} [Meters Metres]

/-! ## What a row ought to carry -/

/-- The last of somebody's events at a checkpoint, of those on a lap of the race. -/
structure LastAt (theirs : List TimingEvent) (checkpoint : CheckpointId) (event : TimingEvent) :
    Prop where
  mem : event ∈ theirs
  place : event.checkpoint = checkpoint
  lap : event.lap ≠ 0
  last : ∀ other ∈ theirs, other.checkpoint = checkpoint → lapOrder other ≤ lapOrder event

/-- Exactly one split for each split of the course that somebody crossed, at their last event there
and measured from the basis; no other splits; and in the order of the course. -/
structure CarriesSplits (config : RaceConfig) (course : Course Metres) (theirs : List TimingEvent)
    (basis : OffsetDateTime) (splits : List Split) : Prop where
  each : ∀ checkpoint ∈ config.checkpoints, checkpoint.kind = .split →
    ∀ event, LastAt theirs checkpoint.id event →
      splits.filter (fun split => split.pointKey = pointKey checkpoint.name) =
        [⟨pointKey checkpoint.name, max (event.at - basis).wholeMilliseconds 0⟩]
  only : ∀ split ∈ splits, ∃ checkpoint ∈ config.checkpoints, checkpoint.kind = .split ∧
    split.pointKey = pointKey checkpoint.name ∧ ∃ event, LastAt theirs checkpoint.id event
  ordered : splits.Pairwise fun first second =>
    ∀ checkpoint ∈ config.checkpoints, ∀ checkpoint' ∈ config.checkpoints,
      first.pointKey = pointKey checkpoint.name → second.pointKey = pointKey checkpoint'.name →
        ∀ meters meters', course.splits[checkpoint.name]? = some meters →
          course.splits[checkpoint'.name]? = some meters' →
            Meters.totalKey meters ≤ Meters.totalKey meters'

/-- The events of a participant. -/
def eventsOf (events : List TimingEvent) (participant : ParticipantId) : List TimingEvent :=
  events.filter fun event => event.participant = participant

/-- The row of an entry carries the splits of that runner, when they have a basis. -/
def CarriesRow (config : RaceConfig) (course : Course Metres) (policy : ScoringPolicy)
    (events : List TimingEvent) (entry : ResultEntry) (row : ResultRow) : Prop :=
  ∀ basis, basisOf policy entry = some basis →
    CarriesSplits config course (eventsOf events entry.participant) basis row.splits

/-- Somebody has an event on a lap of the race at a split of the course. -/
def CrossesSplit (config : RaceConfig) (theirs : List TimingEvent) : Prop :=
  ∃ checkpoint ∈ config.checkpoints, checkpoint.kind = .split ∧
    ∃ event ∈ theirs, event.checkpoint = checkpoint.id ∧ event.lap ≠ 0

/-! ## Mats -/

/-- A mat that was placed for a checkpoint. -/
structure PlacedFor (race : RaceId) (course : Course Metres) (lap : Metres)
    (checkpoint : Checkpoint) (placed : Placed Metres) : Prop where
  kind : placed.kind = checkpoint.kind
  key : placed.point.key = pointKey checkpoint.name
  meters : position race course lap checkpoint = .ok placed.point.meters

/-- The checkpoints looked at so far are placed, and published under different keys. -/
structure PlacedAll (race : RaceId) (course : Course Metres) (lap : Metres)
    (done : List Checkpoint)
    (state : ExtTreeMap String Checkpoint × ExtTreeMap CheckpointId (Placed Metres)) : Prop where
  keys : ∀ checkpoint ∈ done, state.1[pointKey checkpoint.name]? = some checkpoint
  each : ∀ checkpoint ∈ done, ∃ placed, state.2[checkpoint.id]? = some placed ∧
    PlacedFor race course lap checkpoint placed
  only : ∀ id placed, state.2[id]? = some placed → ∃ checkpoint ∈ done, checkpoint.id = id

/-- A checkpoint is added on the lap and under a key that no checkpoint has yet. -/
theorem add_point_ok {race : RaceId} {course : Course Metres} {lap : Metres}
    {checkpoint : Checkpoint}
    {state state' : ExtTreeMap String Checkpoint × ExtTreeMap CheckpointId (Placed Metres)}
    (h : addPoint race course lap state checkpoint = .ok state') :
    ∃ mat, PlacedFor race course lap checkpoint mat ∧
      state.1[pointKey checkpoint.name]? = none ∧
      state' = (state.1.insert (pointKey checkpoint.name) checkpoint,
        state.2.insert checkpoint.id mat) := by
  unfold addPoint at h
  obtain ⟨meters, hposition, h⟩ := exists_of_bind h
  dsimp only at h
  cases hkey : state.1[pointKey checkpoint.name]? with
  | some first =>
      rw [hkey] at h
      cases h
  | none =>
      rw [hkey] at h
      cases h
      exact ⟨_, ⟨rfl, rfl, hposition⟩, rfl, rfl⟩

/-- One checkpoint more is placed. -/
theorem PlacedAll.add {race : RaceId} {course : Course Metres} {lap : Metres}
    {done : List Checkpoint} {checkpoint : Checkpoint}
    {state state' : ExtTreeMap String Checkpoint × ExtTreeMap CheckpointId (Placed Metres)}
    (h : PlacedAll race course lap done state) (hnew : checkpoint.id ∉ done.map (·.id))
    (hadd : addPoint race course lap state checkpoint = .ok state') :
    PlacedAll race course lap (done ++ [checkpoint]) state' := by
  obtain ⟨mat, hmat, hkey, rfl⟩ := add_point_ok hadd
  constructor
  · intro other hother
    rw [ExtTreeMap.getElem?_insert]
    rcases List.mem_append.mp hother with hother | hother
    · -- an earlier checkpoint has another key
      rw [if_neg]
      · exact h.keys other hother
      · intro heq
        rw [compare_eq_iff_eq.mp heq, h.keys other hother] at hkey
        cases hkey
    · cases List.mem_singleton.mp hother
      rw [if_pos (compare_eq_iff_eq.mpr rfl)]
  · intro other hother
    rw [ExtTreeMap.getElem?_insert]
    rcases List.mem_append.mp hother with hother | hother
    · rw [if_neg]
      · exact h.each other hother
      · intro heq
        exact hnew (List.mem_map.mpr ⟨other, hother, (compare_eq_iff_eq.mp heq).symm⟩)
    · cases List.mem_singleton.mp hother
      rw [if_pos (compare_eq_iff_eq.mpr rfl)]
      exact ⟨mat, rfl, hmat⟩
  · intro id placed hplaced
    rw [ExtTreeMap.getElem?_insert] at hplaced
    split at hplaced
    · next heq =>
        exact ⟨checkpoint, by simp, compare_eq_iff_eq.mp heq⟩
    · obtain ⟨other, hother, hid⟩ := h.only id placed hplaced
      exact ⟨other, List.mem_append_left _ hother, hid⟩

/-- The rest of the checkpoints is placed behind those placed so far. -/
theorem PlacedAll.foldl {race : RaceId} {course : Course Metres} {lap : Metres}
    {done rest : List Checkpoint}
    {state state' : ExtTreeMap String Checkpoint × ExtTreeMap CheckpointId (Placed Metres)}
    (h : PlacedAll race course lap done state) (hids : ((done ++ rest).map (·.id)).Nodup)
    (hfold : rest.foldlM (addPoint race course lap) state = .ok state') :
    PlacedAll race course lap (done ++ rest) state' := by
  induction rest generalizing done state with
  | nil =>
      cases hfold
      rwa [List.append_nil]
  | cons checkpoint rest ih =>
      rw [List.foldlM_cons] at hfold
      obtain ⟨next, hadd, hfold⟩ := exists_of_bind hfold
      rw [List.append_cons] at hids ⊢
      have hnew : checkpoint.id ∉ done.map (·.id) := by
        rw [List.map_append, List.map_append, List.append_assoc] at hids
        intro hmem
        exact List.disjoint_of_nodup_append hids hmem (by simp)
      exact ih (h.add hnew hadd) hids hfold

/-- One lap of a course. -/
def oneLap (config : RaceConfig) (course : Course Metres) : Metres :=
  Meters.divide course.meters (Meters.ofLaps (laps config))

/-- What is asked of the course of a race before its mats are placed. -/
structure Accepted (config : RaceConfig) (course : Course Metres) : Prop where
  race : course.race = config.race.id
  trimmed : trim course.key = course.key
  named : course.key.length ≠ 0
  short : course.key.length ≤ maxKeyLen
  long : (Meters.isFinite course.meters && Meters.lt Meters.zero course.meters) = true

/-- Mats are placed on a course that is accepted, one after the other. -/
theorem accepted_of_points {config : RaceConfig} {course : Course Metres}
    {placed : ExtTreeMap CheckpointId (Placed Metres)} (h : points config course = .ok placed) :
    Accepted config course ∧ ∃ keys, config.checkpoints.foldlM
      (addPoint config.race.id course (oneLap config course)) (∅, ∅) = .ok (keys, placed) := by
  unfold points at h
  split_ifs at h with hrace hkey hlong
  obtain ⟨htrimmed, hnamed, hshort⟩ := not_or.mp hkey |>.imp_right not_or.mp
  refine ⟨⟨not_not.mp hrace, not_not.mp htrimmed, hnamed, not_lt.mp hshort,
    Bool.not_eq_false _ ▸ hlong⟩, ?_⟩
  obtain ⟨state, hfold, h⟩ := exists_of_bind h
  cases h
  exact ⟨state.1, hfold⟩

/-- The mats of a race are placed on its course. -/
theorem placed_all {config : RaceConfig} {course : Course Metres}
    {placed : ExtTreeMap CheckpointId (Placed Metres)} (h : points config course = .ok placed) :
    ∃ keys, PlacedAll config.race.id course (oneLap config course) config.checkpoints
      (keys, placed) := by
  obtain ⟨_, keys, hfold⟩ := accepted_of_points h
  have hempty : PlacedAll config.race.id course (oneLap config course) [] (∅, ∅) := by
    constructor
    · intro checkpoint hmem
      cases hmem
    · intro checkpoint hmem
      cases hmem
    · intro id placed hplaced
      simp at hplaced
  exact ⟨keys, hempty.foldl (by simpa using config.distinct) hfold⟩

/-- Checkpoints that publish under one key are one checkpoint. -/
theorem PlacedAll.key_injective {race : RaceId} {course : Course Metres} {lap : Metres}
    {done : List Checkpoint}
    {state : ExtTreeMap String Checkpoint × ExtTreeMap CheckpointId (Placed Metres)}
    (h : PlacedAll race course lap done state) {checkpoint checkpoint' : Checkpoint}
    (hmem : checkpoint ∈ done) (hmem' : checkpoint' ∈ done)
    (hkey : pointKey checkpoint.name = pointKey checkpoint'.name) : checkpoint = checkpoint' := by
  have hget := h.keys checkpoint hmem
  rw [hkey, h.keys checkpoint' hmem'] at hget
  exact (Option.some.inj hget).symm

/-- A mat that is found was placed for a checkpoint. -/
theorem PlacedAll.found {race : RaceId} {course : Course Metres} {lap : Metres}
    {done : List Checkpoint}
    {state : ExtTreeMap String Checkpoint × ExtTreeMap CheckpointId (Placed Metres)}
    (h : PlacedAll race course lap done state) {id : CheckpointId} {placed : Placed Metres}
    (hget : state.2[id]? = some placed) :
    ∃ checkpoint ∈ done, checkpoint.id = id ∧ PlacedFor race course lap checkpoint placed := by
  obtain ⟨checkpoint, hmem, rfl⟩ := h.only id placed hget
  obtain ⟨placed', hget', hplaced⟩ := h.each checkpoint hmem
  cases hget.symm.trans hget'
  exact ⟨checkpoint, hmem, rfl, hplaced⟩

/-- A split sits where the course says. -/
theorem PlacedFor.split {race : RaceId} {course : Course Metres} {lap meters : Metres}
    {checkpoint : Checkpoint} {placed : Placed Metres}
    (h : PlacedFor race course lap checkpoint placed) (hkind : checkpoint.kind = .split)
    (hmeters : course.splits[checkpoint.name]? = some meters) : placed.point.meters = meters := by
  have hposition := h.meters
  unfold position at hposition
  rw [hkind, hmeters] at hposition
  dsimp only at hposition
  split at hposition
  · exact (Except.ok.inj hposition).symm
  · cases hposition

/-! ## The splits of the listed events -/

/-- The time from the basis always fits. -/
theorem elapsed_ms_eq_some (basis «at» : OffsetDateTime) :
    elapsedMs basis «at» = some (max («at» - basis).wholeMilliseconds 0) := by
  have hbounds := OffsetDateTime.abs_whole_milliseconds_le «at» basis
  unfold elapsedMs
  exact if_pos (by omega)

/-- What is held of the events of a mat is the first of the greatest. -/
theorem foldl_keep_last (events : List TimingEvent) :
    events.foldl (fun held event => some (keepLast held event)) none =
      leastByKey (fun event => OrderDual.toDual (lapOrder event)) events := by
  have hstep : (fun held event => some (keepLast held event)) =
      keepLeast fun event => OrderDual.toDual (lapOrder event) := by
    funext held event
    cases held with
    | none => rfl
    | some held =>
        simp only [keepLast, keepLeast, Option.all_some, OrderDual.toDual_lt_toDual,
          decide_eq_true_eq]
        split <;> rfl
  rw [hstep]
  rfl

/-- The events that an entry lists. -/
def listed (events : ExtTreeMap TimingEventId TimingEvent) (entry : ResultEntry) :
    List TimingEvent :=
  entry.timingEvents.filterMap fun id => events[id]?

/-- The events that splits are made of are those listed for the splits of the course. -/
theorem mem_split_events {config : RaceConfig} {course : Course Metres} {lap : Metres}
    {keys : ExtTreeMap String Checkpoint} {placed : ExtTreeMap CheckpointId (Placed Metres)}
    (hplaced : PlacedAll config.race.id course lap config.checkpoints (keys, placed))
    {events : ExtTreeMap TimingEventId TimingEvent} {entry : ResultEntry} {event : TimingEvent} :
    event ∈ entry.timingEvents.filterMap (splitEvent placed events) ↔
      event ∈ listed events entry ∧ event.lap ≠ 0 ∧
        ∃ checkpoint ∈ config.checkpoints, checkpoint.kind = .split ∧
          checkpoint.id = event.checkpoint := by
  have hsplit : ∀ id, splitEvent placed events id = some event ↔ events[id]? = some event ∧
      event.lap ≠ 0 ∧ ∃ mat, placed[event.checkpoint]? = some mat ∧ mat.kind = .split := by
    intro id
    unfold splitEvent
    cases events[id]? with
    | none => simp
    | some other =>
        simp only [Option.bind_eq_bind, Option.bind_some, Option.some.injEq]
        constructor
        · intro h
          cases hmat : placed[other.checkpoint]? with
          | none =>
              rw [hmat] at h
              cases h
          | some mat =>
              rw [hmat, Option.bind_some] at h
              split at h
              · cases h
              · next hnot =>
                  obtain ⟨hkind, hlap⟩ := not_or.mp hnot
                  cases h
                  exact ⟨rfl, hlap, mat, hmat, not_not.mp hkind⟩
        · rintro ⟨rfl, hlap, mat, hmat, hkind⟩
          rw [hmat, Option.bind_some, if_neg]
          rintro (h | h)
          · exact h hkind
          · exact hlap h
  have hmats : (∃ mat, placed[event.checkpoint]? = some mat ∧ mat.kind = .split) ↔
      ∃ checkpoint ∈ config.checkpoints, checkpoint.kind = .split ∧
        checkpoint.id = event.checkpoint := by
    constructor
    · intro ⟨mat, hmat, hkind⟩
      obtain ⟨checkpoint, hmem, hid, hfor⟩ := hplaced.found hmat
      exact ⟨checkpoint, hmem, hfor.kind.symm.trans hkind, hid⟩
    · intro ⟨checkpoint, hmem, hkind, hid⟩
      obtain ⟨mat, hmat, hfor⟩ := hplaced.each checkpoint hmem
      exact ⟨mat, hid ▸ hmat, hfor.kind.trans hkind⟩
  simp only [List.mem_filterMap, listed, hsplit, hmats]
  constructor
  · intro ⟨id, hid, hget, hrest⟩
    exact ⟨⟨id, hid, hget⟩, hrest⟩
  · intro ⟨⟨id, hid, hget⟩, hrest⟩
    exact ⟨id, hid, hget, hrest⟩

section Listed

variable {config : RaceConfig} {course : Course Metres} {lap : Metres}
variable {keys : ExtTreeMap String Checkpoint} {placed : ExtTreeMap CheckpointId (Placed Metres)}
variable {events : ExtTreeMap TimingEventId TimingEvent} {entry : ResultEntry}

/-- The last listed event of each split. -/
def lastEvents (placed : ExtTreeMap CheckpointId (Placed Metres))
    (events : ExtTreeMap TimingEventId TimingEvent) (entry : ResultEntry) :
    ExtTreeMap CheckpointId TimingEvent :=
  accumulate keepLast (fun event => some event.checkpoint)
    (entry.timingEvents.filterMap (splitEvent placed events))

/-- What stands for a mat is the last event there, and the mat is a split. -/
theorem last_of_get
    (hplaced : PlacedAll config.race.id course lap config.checkpoints (keys, placed))
    {id : CheckpointId} {event : TimingEvent}
    (hget : (lastEvents placed events entry)[id]? = some event) :
    ∃ checkpoint ∈ config.checkpoints, checkpoint.kind = .split ∧ checkpoint.id = id ∧
      LastAt (listed events entry) id event := by
  rw [lastEvents, get_accumulate, foldl_keep_last] at hget
  obtain ⟨hevent, hgreatest⟩ := least_of_least_by_key hget
  obtain ⟨hevent, hplace⟩ := mem_items_with.mp hevent
  obtain ⟨hlisted, hlap, checkpoint, hmem, hkind, hid⟩ := (mem_split_events hplaced).mp hevent
  cases Option.some.inj hplace
  refine ⟨checkpoint, hmem, hkind, hid, hlisted, rfl, hlap, ?_⟩
  intro other hother hthere
  by_cases hzero : other.lap = 0
  · -- lap 0 is below every lap of the race
    refine (Prod.Lex.toLex_lt_toLex.mpr (.inl ?_)).le
    have hpos : event.lap.toNat ≠ 0 := fun h => hlap (UInt16.toNat_inj.mp h)
    rw [hzero]
    show 0 < event.lap.toNat
    omega
  · refine OrderDual.toDual_le_toDual.mp (hgreatest other (mem_items_with.mpr ⟨?_, ?_⟩))
    · exact (mem_split_events hplaced).mpr
        ⟨hother, hzero, checkpoint, hmem, hkind, hid.trans hthere.symm⟩
    · rw [hthere]

/-- A split with a last event has one that is as late. -/
theorem get_of_last
    (hplaced : PlacedAll config.race.id course lap config.checkpoints (keys, placed))
    {checkpoint : Checkpoint} (hmem : checkpoint ∈ config.checkpoints)
    (hkind : checkpoint.kind = .split) {event : TimingEvent}
    (hlast : LastAt (listed events entry) checkpoint.id event) :
    ∃ event', (lastEvents placed events entry)[checkpoint.id]? = some event' ∧
      event'.at = event.at := by
  have hcrossed : event ∈ entry.timingEvents.filterMap (splitEvent placed events) :=
    (mem_split_events hplaced).mpr
      ⟨hlast.mem, hlast.lap, checkpoint, hmem, hkind, hlast.place.symm⟩
  have hthere : checkpoint.id ∈ lastEvents placed events entry :=
    mem_accumulate.mpr ⟨event, hcrossed, by rw [hlast.place]⟩
  obtain ⟨event', hget⟩ := Option.isSome_iff_exists.mp
    (ExtTreeMap.isSome_getElem?_iff_mem.mpr hthere)
  obtain ⟨_, _, _, _, hlast'⟩ := last_of_get hplaced hget
  -- each of the two is at least as late as the other
  have hsame := le_antisymm (hlast.last event' hlast'.mem hlast'.place)
    (hlast'.last event hlast.mem hlast.place)
  exact ⟨event', hget, (Prod.ext_iff.mp (toLex_inj.mp hsame)).2⟩

/-- The split of a mat, and where it sits. -/
def placedSplit (placed : ExtTreeMap CheckpointId (Placed Metres)) (basis : OffsetDateTime)
    (last : CheckpointId × TimingEvent) : Option (Metres × Split) := do
  let mat ← placed[last.1]?
  let elapsed ← elapsedMs basis last.2.at
  some (mat.point.meters, ⟨mat.point.key, elapsed⟩)

theorem placed_split_eq
    (hplaced : PlacedAll config.race.id course lap config.checkpoints (keys, placed))
    {checkpoint : Checkpoint} (hmem : checkpoint ∈ config.checkpoints) (basis : OffsetDateTime)
    (event : TimingEvent) :
    ∃ mat, PlacedFor config.race.id course lap checkpoint mat ∧
      placedSplit placed basis (checkpoint.id, event) =
        some (mat.point.meters,
          ⟨pointKey checkpoint.name, max (event.at - basis).wholeMilliseconds 0⟩) := by
  obtain ⟨mat, hmat, hfor⟩ := hplaced.each checkpoint hmem
  refine ⟨mat, hfor, ?_⟩
  unfold placedSplit
  rw [show placed[(checkpoint.id, event).1]? = some mat from hmat, elapsed_ms_eq_some]
  rw [← hfor.key]
  rfl

/-- The row of an entry carries the splits of the events that the entry lists. -/
theorem carries_listed
    (hplaced : PlacedAll config.race.id course lap config.checkpoints (keys, placed))
    (basis : OffsetDateTime) :
    CarriesSplits config course (listed events entry) basis
      (splits entry basis placed events) := by
  let out := (lastEvents placed events entry).toList.filterMap (placedSplit placed basis)
  have hsplits : splits entry basis placed events = (sortByKey
      (fun split => toLex (Meters.totalKey split.1, split.2.pointKey)) out).map Prod.snd := rfl
  -- where each split comes from
  have hout : ∀ split ∈ out, ∃ checkpoint ∈ config.checkpoints, checkpoint.kind = .split ∧
      (∃ event, LastAt (listed events entry) checkpoint.id event) ∧
      split.2.pointKey = pointKey checkpoint.name ∧
      ∃ mat, PlacedFor config.race.id course lap checkpoint mat ∧ split.1 = mat.point.meters := by
    intro split hsplit
    obtain ⟨⟨id, event⟩, hlast, hsome⟩ := List.mem_filterMap.mp hsplit
    have hget : (lastEvents placed events entry)[id]? = some event :=
      mem_to_list.mp hlast
    obtain ⟨checkpoint, hmem, hkind, rfl, hat⟩ := last_of_get hplaced hget
    obtain ⟨mat, hfor, heq⟩ := placed_split_eq hplaced hmem basis event
    rw [heq] at hsome
    cases hsome
    exact ⟨checkpoint, hmem, hkind, ⟨event, hat⟩, rfl, mat, hfor, rfl⟩
  constructor
  · intro checkpoint hmem hkind event hlast
    obtain ⟨event', hget, hat⟩ := get_of_last hplaced hmem hkind hlast
    obtain ⟨mat, _, hsome⟩ := placed_split_eq hplaced hmem basis event'
    have hfilter : out.filter (fun split => split.2.pointKey = pointKey checkpoint.name) =
        [(mat.point.meters,
          ⟨pointKey checkpoint.name, max (event'.at - basis).wholeMilliseconds 0⟩)] := by
      refine filter_entries_eq_singleton hget hsome (decide_eq_true rfl) ?_
      intro id other split hthere hne hfrom hkey
      -- every other mat has another key
      obtain ⟨checkpoint', hmem', _, rfl, _⟩ := last_of_get hplaced hthere
      obtain ⟨_, _, hfrom'⟩ := placed_split_eq hplaced hmem' basis other
      rw [hfrom'] at hfrom
      cases hfrom
      exact hne (congrArg Checkpoint.id
        (hplaced.key_injective hmem' hmem (of_decide_eq_true hkey)))
    have hsorted := (sort_by_key_perm (fun split : Metres × Split =>
      toLex (Meters.totalKey split.1, split.2.pointKey)) out).filter
        fun split => split.2.pointKey = pointKey checkpoint.name
    rw [hfilter] at hsorted
    rw [hsplits, List.filter_map, ← hat]
    exact congrArg (List.map Prod.snd) (List.perm_singleton.mp hsorted)
  · intro split hsplit
    rw [hsplits] at hsplit
    obtain ⟨placed, hmem, rfl⟩ := List.mem_map.mp hsplit
    obtain ⟨checkpoint, hmem, hkind, hlast, hkey, _⟩ := hout placed (mem_sort_by_key.mp hmem)
    exact ⟨checkpoint, hmem, hkind, hkey, hlast⟩
  · rw [hsplits]
    refine List.pairwise_map.mpr ((sorted_sort_by_key (fun split : Metres × Split =>
      toLex (Meters.totalKey split.1, split.2.pointKey)) out).imp_of_mem ?_)
    intro first second hfirst hsecond hle checkpoint hmem checkpoint' hmem' hkey hkey' meters
      meters' hmeters hmeters'
    obtain ⟨other, hother, hkind, _, hotherKey, mat, hfor, hsits⟩ :=
      hout first (mem_sort_by_key.mp hfirst)
    obtain ⟨other', hother', hkind', _, hotherKey', mat', hfor', hsits'⟩ :=
      hout second (mem_sort_by_key.mp hsecond)
    cases hplaced.key_injective hmem hother (hkey.symm.trans hotherKey)
    cases hplaced.key_injective hmem' hother' (hkey'.symm.trans hotherKey')
    rw [← hfor.split hkind hmeters, ← hfor'.split hkind' hmeters', ← hsits, ← hsits']
    rcases Prod.Lex.toLex_le_toLex.mp hle with hlt | ⟨heq, _⟩
    · exact hlt.le
    · exact heq.le

end Listed

/-! ## What an entry lists -/

variable {newV5 : Uuid → String → Uuid} {input : DerivationInput}

/-- The name that the identifier of a timing event is the hash of. -/
def eventName (event : TimingEvent) : String :=
  derivedName "timing-event" [event.participant.uuid.toText, event.checkpoint.uuid.toText,
    toString event.lap.toNat, (ofLex (originKey event.origin)).2.toText]

/-- The hash tells the names of the derived timing events apart. -/
def NoEventCollision (newV5 : Uuid → String → Uuid) (input : DerivationInput) : Prop :=
  Set.InjOn (newV5 splitforgeNamespace)
    {name | name ∈ (derive newV5 input).timingEvents.map eventName}

/-- Every event that is numbered is that of a sighting. -/
theorem exists_sighting (counters : ExtTreeMap (ParticipantId ×ₗ CheckpointId) UInt16)
    (sightings : List Sighting) :
    ∀ event ∈ numberLaps newV5 counters sightings, ∃ sighting lap,
      event = Sighting.event newV5 sighting lap := by
  induction sightings generalizing counters with
  | nil =>
      intro event hevent
      cases hevent
  | cons sighting sightings ih =>
      unfold numberLaps
      intro event hevent
      split at hevent
      · rcases List.mem_cons.mp hevent with rfl | hevent
        · exact ⟨sighting, _, rfl⟩
        · exact ih _ event hevent
      · rcases List.mem_cons.mp hevent with rfl | hevent
        · exact ⟨sighting, _, rfl⟩
        · exact ih _ event hevent

/-- The identifier of a derived event is the hash of its name. -/
theorem id_eq_hash {event : TimingEvent} (hevent : event ∈ (derive newV5 input).timingEvents) :
    event.id.uuid = newV5 splitforgeNamespace (eventName event) := by
  obtain ⟨sighting, lap, rfl⟩ := exists_sighting _ _ event hevent
  unfold Sighting.event
  cases sighting.source <;> rfl

/-- Names are told apart where the identifiers of the events are. -/
theorem no_event_collision_of_nodup
    (hids : ((derive newV5 input).timingEvents.map (·.id)).Nodup) :
    NoEventCollision newV5 input := by
  intro name hname name' hname' heq
  obtain ⟨event, hevent, rfl⟩ := List.mem_map.mp hname
  obtain ⟨event', hevent', rfl⟩ := List.mem_map.mp hname'
  have huuid : event.id.uuid = event'.id.uuid := by
    rw [id_eq_hash hevent, id_eq_hash hevent', heq]
  rw [List.inj_on_of_nodup_map hids hevent hevent' (Domain.Id.ext huuid)]

/-- A name says whose event it is, and where. -/
theorem event_name_injective {event event' : TimingEvent} (h : eventName event = eventName event') :
    event.participant = event'.participant ∧ event.checkpoint = event'.checkpoint := by
  have hlist := congrArg String.toList h
  simp only [eventName, derivedName, String.toList_ofList, List.flatMap_cons] at hlist
  have hparts := List.append_cancel_left hlist
  obtain ⟨hparticipant, hrest⟩ := List.append_inj hparts (by simp)
  obtain ⟨hcheckpoint, _⟩ := List.append_inj hrest (by simp)
  have htext : event.participant.uuid.toText = event'.participant.uuid.toText :=
    String.toList_inj.mp (List.cons.inj hparticipant).2
  have htext' : event.checkpoint.uuid.toText = event'.checkpoint.uuid.toText :=
    String.toList_inj.mp (List.cons.inj hcheckpoint).2
  exact ⟨Domain.Id.ext (Uuid.to_text_injective htext),
    Domain.Id.ext (Uuid.to_text_injective htext')⟩

/-- Events with one identifier are one runner's at one checkpoint. -/
theorem NoEventCollision.same (hnames : NoEventCollision newV5 input) {event event' : TimingEvent}
    (hevent : event ∈ (derive newV5 input).timingEvents)
    (hevent' : event' ∈ (derive newV5 input).timingEvents) (hid : event.id = event'.id) :
    event.participant = event'.participant ∧ event.checkpoint = event'.checkpoint := by
  refine event_name_injective (hnames (List.mem_map_of_mem hevent)
    (List.mem_map_of_mem hevent') ?_)
  rw [← id_eq_hash hevent, ← id_eq_hash hevent', hid]

/-- The events of a race by identifier. -/
def byId (events : List TimingEvent) : ExtTreeMap TimingEventId TimingEvent :=
  events.foldl (fun events event => events.insert event.id event) ∅

/-- What is found under an identifier is an event that has it. -/
theorem mem_of_by_id {events : List TimingEvent} {id : TimingEventId} {event : TimingEvent}
    (hget : (byId events)[id]? = some event) : event ∈ events ∧ event.id = id := by
  unfold byId at hget
  induction events using List.reverseRecOn with
  | nil => simp at hget
  | append_singleton events last ih =>
      rw [List.foldl_append, List.foldl_cons, List.foldl_nil, ExtTreeMap.getElem?_insert] at hget
      split at hget
      · next heq =>
          cases hget
          exact ⟨by simp, compare_eq_iff_eq.mp heq⟩
      · obtain ⟨hmem, hid⟩ := ih hget
        exact ⟨List.mem_append_left _ hmem, hid⟩

/-- The event that a start rests on is one of the events at the start. -/
theorem mem_of_start {gun : Option OffsetDateTime} {events : List TimingEvent}
    {event : TimingEvent} (h : (startOf (crossingsFrom gun events) gun).2.1 = some event) :
    event ∈ events := by
  unfold startOf at h
  split at h
  · next hcounted =>
      cases h
      exact (List.mem_filter.mp (least_of_least_by_key hcounted).1).1
  · next hbefore =>
      cases h
      exact (List.mem_filter.mp (least_of_least_by_key hbefore).1).1
  · cases h

/-- An entry lists events of its runner at the start and at the finish only. -/
theorem listed_of_score {scoring : ScoringInput} {entries : List ResultEntry}
    (h : score scoring = .ok entries) {entry : ResultEntry} (hentry : entry ∈ entries)
    {id : TimingEventId} (hid : id ∈ entry.timingEvents) :
    ∃ event ∈ scoring.timingEvents, event.id = id ∧ event.participant = entry.participant ∧
      ∃ checkpoint ∈ scoring.checkpoints, checkpoint.kind ≠ .split ∧
        checkpoint.id = event.checkpoint := by
  obtain ⟨finish, start, hlines, rfl⟩ := score_eq_ok h
  obtain ⟨hfinish, hstart⟩ := sole_checkpoints_of_course_lines hlines
  rw [sortForPublication, mem_sort_by_key, assign_places_eq, build_entries_eq] at hentry
  obtain ⟨line, hline, rfl⟩ := List.mem_map.mp hentry
  obtain ⟨participant, _, rfl⟩ := List.mem_map.mp hline
  have hsame : ∀ (times : List (WithBot Int)) (line : ResultEntry),
      (placed times line).timingEvents = line.timingEvents ∧
        (placed times line).participant = line.participant := by
    intro times line
    unfold placed
    split
    · exact ⟨rfl, rfl⟩
    · exact ⟨rfl, rfl⟩
  rw [(hsame _ _).1] at hid
  rw [(hsame _ _).2]
  -- the event is at the start, or it is at the finish
  have hat : ∃ event, event.id = id ∧
      (event ∈ eventsAt scoring.timingEvents participant.id start ∨
        event ∈ eventsAt scoring.timingEvents participant.id (some finish)) := by
    obtain ⟨found, hfound, hsome⟩ := List.mem_filterMap.mp hid
    obtain ⟨event, rfl, hevent⟩ := Option.map_eq_some_iff.mp hsome
    rcases List.mem_cons.mp hfound with hfound | hfound
    · exact ⟨event, hevent, .inl (mem_of_start hfound.symm)⟩
    · refine ⟨event, hevent, .inr ?_⟩
      have hcounted := (List.mem_singleton.mp hfound).symm
      exact (List.mem_filter.mp (least_of_least_by_key hcounted).1).1
  obtain ⟨event, hevent, hmem⟩ := hat
  refine ⟨event, ?_, hevent, ?_⟩
  · rcases hmem with hmem | hmem
    · exact (List.mem_filter.mp hmem).1
    · exact (List.mem_filter.mp hmem).1
  · rcases hmem with hmem | hmem
    · obtain ⟨hwho, hwhere⟩ := of_decide_eq_true (List.mem_filter.mp hmem).2
      obtain ⟨checkpoint, hcheckpoint, hkind, hid⟩ := (line_of_sole_checkpoint hstart _).mp hwhere
      exact ⟨hwho, checkpoint, hcheckpoint, by rw [hkind]; decide, hid⟩
    · obtain ⟨hwho, hwhere⟩ := of_decide_eq_true (List.mem_filter.mp hmem).2
      obtain ⟨checkpoint, hcheckpoint, hkind, hid⟩ := (line_of_sole_checkpoint hfinish _).mp hwhere
      exact ⟨hwho, checkpoint, hcheckpoint, by rw [hkind]; decide, hid⟩

/-! ## The rows of a revision -/

/-- The scoring of a race's derived events. -/
def scoringOf (newV5 : Uuid → String → Uuid) (config : RaceConfig) (input : DerivationInput)
    (declarations : List StatusDeclaration) (policy : ScoringPolicy) : ScoringInput where
  participants := config.participants
  checkpoints := config.checkpoints
  timingEvents := (derive newV5 input).timingEvents
  declarations := declarations
  policy := policy

variable {config : RaceConfig} {course : Course Metres} {declarations : List StatusDeclaration}
variable {published : ResultRevision} {document : ResultsRevision}

/-- A document that was built has a row for each entry, with the mats of the race placed. -/
theorem rows_of_revision {events : List TimingEvent}
    (h : revision newV5 config course published events = .ok document) :
    ∃ placed, points config course = .ok placed ∧
      List.Forall₂ (fun entry row =>
        rowOf course published.policy placed (byId events) entry = .ok row)
        published.entries document.entries := by
  unfold revision at h
  split at h
  · cases h
  · obtain ⟨placed, hpoints, h⟩ := exists_of_bind h
    split at h
    · cases h
    · obtain ⟨rows, hrows, h⟩ := exists_of_bind h
      cases h
      exact ⟨placed, hpoints, forall₂_of_map_m hrows⟩

/-- A revision of the course's race that is small enough, with bibs that are short enough, is
built. -/
theorem exists_document (events : List TimingEvent) (hrace : published.race = course.race)
    {placed : ExtTreeMap CheckpointId (Placed Metres)} (hpoints : points config course = .ok placed)
    (hlength : published.entries.length ≤ maxEntriesPerRevision)
    (hbibs : ∀ entry ∈ published.entries, entry.bib.text.length ≤ maxBibLen) :
    ∃ document, revision newV5 config course published events = .ok document := by
  have hrows : ∃ rows, published.entries.mapM
      (rowOf course published.policy placed (byId events)) = .ok rows := by
    refine exists_map_m fun entry hentry => ?_
    unfold rowOf
    dsimp only
    rw [if_neg (Nat.not_lt.mpr (hbibs entry hentry))]
    exact ⟨_, rfl⟩
  obtain ⟨rows, hrows⟩ := hrows
  unfold revision
  rw [if_neg (not_not.mpr hrace), hpoints]
  simp only [bind, Except.bind]
  rw [if_neg (Nat.not_lt.mpr hlength), show events.foldl _ _ = byId events from rfl, hrows]
  exact ⟨_, rfl⟩

/-- A row has the splits of its entry, where that has a basis. -/
theorem splits_of_row {policy : ScoringPolicy}
    {placed : ExtTreeMap CheckpointId (Placed Metres)}
    {events : ExtTreeMap TimingEventId TimingEvent} {entry : ResultEntry} {row : ResultRow}
    (h : rowOf course policy placed events entry = .ok row) {basis : OffsetDateTime}
    (hbasis : basisOf policy entry = some basis) :
    row.splits = splits entry basis placed events := by
  unfold rowOf at h
  dsimp only at h
  split at h
  · cases h
  · cases h
    rw [hbasis]

/-- An entry lists nothing that happened at a split. -/
theorem not_crosses_split_listed (hnames : NoEventCollision newV5 input)
    (hscore : score (scoringOf newV5 config input declarations published.policy) =
      .ok published.entries) {entry : ResultEntry} (hentry : entry ∈ published.entries) :
    ¬ CrossesSplit config (listed (byId (derive newV5 input).timingEvents) entry) := by
  rintro ⟨checkpoint, hmem, hkind, event, hevent, hplace, _⟩
  obtain ⟨id, hid, hget⟩ := List.mem_filterMap.mp hevent
  obtain ⟨hderived, rfl⟩ := mem_of_by_id hget
  obtain ⟨event', hderived', hsame, _, checkpoint', hmem', hnot, hplace'⟩ :=
    listed_of_score hscore hentry hid
  -- what is found under the identifier happened where the listed event did
  have hwhere := (hnames.same hderived' hderived hsame).2
  have hids : checkpoint'.id = checkpoint.id := by
    rw [hplace', hwhere, hplace]
  cases List.inj_on_of_nodup_map config.distinct hmem' hmem hids
  exact hnot hkind

/-- Among events at a split on a lap of the race there is a last one. -/
theorem exists_last {theirs : List TimingEvent} {event : TimingEvent} (hevent : event ∈ theirs)
    (hlap : event.lap ≠ 0) : ∃ last, LastAt theirs event.checkpoint last := by
  cases hgreatest : leastByKey (fun event => OrderDual.toDual (lapOrder event))
      (theirs.filter fun other => other.checkpoint = event.checkpoint) with
  | none =>
      have hnil := least_by_key_eq_none.mp hgreatest
      exact absurd (decide_eq_true rfl) (List.filter_eq_nil_iff.mp hnil event hevent)
  | some last =>
      obtain ⟨hlast, hle⟩ := least_of_least_by_key hgreatest
      obtain ⟨hmem, hplace⟩ := List.mem_filter.mp hlast
      have hall : ∀ other ∈ theirs, other.checkpoint = event.checkpoint →
          lapOrder other ≤ lapOrder last := fun other hother hthere =>
        OrderDual.toDual_le_toDual.mp
          (hle other (List.mem_filter.mpr ⟨hother, decide_eq_true hthere⟩))
      refine ⟨last, hmem, of_decide_eq_true hplace, ?_, hall⟩
      intro hzero
      have hlapLe := Prod.Lex.monotone_fst _ _ (hall event hevent rfl)
      rw [show (ofLex (lapOrder last)).1 = last.lap.toNat from rfl, hzero] at hlapLe
      exact hlap (UInt16.toNat_inj.mp (Nat.le_zero.mp hlapLe))

/-- Somebody who crossed no split carries no splits, and somebody who did carries some. -/
theorem carries_nil_iff {theirs : List TimingEvent} {basis : OffsetDateTime} :
    CarriesSplits config course theirs basis [] ↔ ¬ CrossesSplit config theirs := by
  constructor
  · intro h ⟨checkpoint, hmem, hkind, event, hevent, hplace, hlap⟩
    obtain ⟨last, hlast⟩ := exists_last hevent hlap
    rw [hplace] at hlast
    cases h.each checkpoint hmem hkind last hlast
  · intro hnone
    constructor
    · intro checkpoint hmem hkind event hlast
      exact absurd ⟨checkpoint, hmem, hkind, event, hlast.mem, hlast.place, hlast.lap⟩ hnone
    · intro split hsplit
      cases hsplit
    · exact .nil

/-- A row with a basis has no splits. -/
theorem splits_eq_nil (hnames : NoEventCollision newV5 input)
    (hscore : score (scoringOf newV5 config input declarations published.policy) =
      .ok published.entries) {placed : ExtTreeMap CheckpointId (Placed Metres)}
    (hpoints : points config course = .ok placed) {entry : ResultEntry}
    (hentry : entry ∈ published.entries) (basis : OffsetDateTime) :
    splits entry basis placed (byId (derive newV5 input).timingEvents) = [] := by
  obtain ⟨keys, hplaced⟩ := placed_all hpoints
  have hcarries : CarriesSplits config course
      (listed (byId (derive newV5 input).timingEvents) entry) basis
      (splits entry basis placed (byId (derive newV5 input).timingEvents)) :=
    carries_listed hplaced basis
  refine List.eq_nil_iff_forall_not_mem.mpr fun split hsplit => ?_
  obtain ⟨checkpoint, hmem, hkind, _, event, hlast⟩ := hcarries.only split hsplit
  exact not_crosses_split_listed hnames hscore hentry
    ⟨checkpoint, hmem, hkind, event, hlast.mem, hlast.place, hlast.lap⟩

/-- The rows of a document carry the splits of the runners, where they have a basis, exactly when
none of those crossed a split on a lap of the race. -/
theorem carries_rows_iff (hnames : NoEventCollision newV5 input)
    (hscore : score (scoringOf newV5 config input declarations published.policy) =
      .ok published.entries)
    (hdocument : revision newV5 config course published (derive newV5 input).timingEvents =
      .ok document) :
    List.Forall₂
        (CarriesRow config course published.policy (derive newV5 input).timingEvents)
        published.entries document.entries ↔
      ∀ entry ∈ published.entries, (basisOf published.policy entry).isSome →
        ¬ CrossesSplit config
          (eventsOf (derive newV5 input).timingEvents entry.participant) := by
  obtain ⟨placed, hpoints, hrows⟩ := rows_of_revision hdocument
  -- row by row, the splits are none
  have hrow : ∀ entry ∈ published.entries, ∀ row,
      rowOf course published.policy placed (byId (derive newV5 input).timingEvents) entry =
        .ok row →
      (CarriesRow config course published.policy (derive newV5 input).timingEvents entry row ↔
        ((basisOf published.policy entry).isSome → ¬ CrossesSplit config
          (eventsOf (derive newV5 input).timingEvents entry.participant))) := by
    intro entry hentry row hof
    have hnil := splits_eq_nil hnames hscore hpoints hentry
    constructor
    · intro h hsome
      obtain ⟨basis, hbasis⟩ := Option.isSome_iff_exists.mp hsome
      have hcarries := h basis hbasis
      rw [splits_of_row hof hbasis, hnil basis] at hcarries
      exact carries_nil_iff.mp hcarries
    · intro h basis hbasis
      rw [splits_of_row hof hbasis, hnil basis]
      exact carries_nil_iff.mpr (h (Option.isSome_iff_exists.mpr ⟨basis, hbasis⟩))
  generalize published.entries = entries at hrows hrow ⊢
  generalize document.entries = rows at hrows
  induction hrows with
  | nil => simp
  | cons hof hrest ih =>
      have hothers := ih fun other hother => hrow other (List.mem_cons_of_mem _ hother)
      rw [List.forall₂_cons, List.forall_mem_cons]
      exact and_congr (hrow _ List.mem_cons_self _ hof) hothers

/-! ## The sample's race -/

/-- The identifiers the hash gives the names of the sample's race. -/
def raceV5 (space : Uuid) (name : String) : Uuid :=
  -- the digest of the revision is the only short name
  if name.utf8ByteSize < 40 then .fromU128 0x35c480ddd11b512aaa4fdaca7f2c333a
  else sampleV5 space name

/-- The race of the sample, with the mat its runner crosses and another one. -/
def sampleConfig (crossed other : CheckpointKind) : RaceConfig where
  race := ⟨⟨.fromU128 4⟩, "5K", none, 1⟩
  checkpoints := [⟨⟨.fromU128 7⟩, ⟨.fromU128 4⟩, "Bridge", crossed, 1⟩,
    ⟨⟨.fromU128 6⟩, ⟨.fromU128 4⟩, "Church", other, 2⟩,
    ⟨⟨.fromU128 8⟩, ⟨.fromU128 4⟩, "Finish", .finish, 3⟩]
  participants := [⟨⟨.fromU128 9⟩, ⟨.fromU128 4⟩, ⟨"12"⟩, "Ada"⟩]
  assignments := []
  antennas := sample.antennas
  policy := sample.policy
  sessions := [⟨.start, second 11⟩]
  distinct := by
    show ([⟨.fromU128 7⟩, ⟨.fromU128 6⟩, ⟨.fromU128 8⟩] : List CheckpointId).Nodup
    decide

/-- The course of that race, in metres. -/
def sampleCourse : Course Int :=
  ⟨⟨.fromU128 4⟩, "5k", 5000,
    ((∅ : ExtTreeMap String Int).insert "Bridge" 2500).insert "Church" 4000⟩

/-- The revision published for it, scored from the gun. -/
def samplePublished (config : RaceConfig) : ResultRevision where
  race := ⟨.fromU128 4⟩
  number := 1
  status := .provisional
  generatedAt := second 70
  reason := ""
  policy := ⟨.gun, sample.policy, some (second 11)⟩
  entries := (score (scoringOf raceV5 config sample []
    ⟨.gun, sample.policy, some (second 11)⟩)).toOption.getD []

/-- The runner crosses the bridge twice. -/
theorem sample_events : (derive raceV5 sample).timingEvents.map
      (fun event => (event.id, event.participant, event.checkpoint, event.lap)) =
    [(⟨.fromU128 0x8840280919c151d7a88e052295cf921c⟩, ⟨.fromU128 9⟩, ⟨.fromU128 7⟩, 1),
      (⟨.fromU128 0x15218a39a129594eadbd6b0ee6652a3a⟩, ⟨.fromU128 9⟩, ⟨.fromU128 7⟩, 2)] := by
  decide +kernel

theorem sample_no_event_collision : NoEventCollision raceV5 sample := by
  refine no_event_collision_of_nodup ?_
  have hids := congrArg (List.map Prod.fst) sample_events
  rw [List.map_map] at hids
  rw [show (derive raceV5 sample).timingEvents.map (·.id) = _ from hids]
  decide

/-- The sample's race is scored, and its only entry is the runner's. -/
theorem sample_scored (crossed other : CheckpointKind)
    (h : (crossed, other) = (.split, .start) ∨ (crossed, other) = (.start, .split)) :
    score (scoringOf raceV5 (sampleConfig crossed other) sample []
        (samplePublished (sampleConfig crossed other)).policy) =
      .ok (samplePublished (sampleConfig crossed other)).entries ∧
    (samplePublished (sampleConfig crossed other)).entries.map
      (fun entry => (entry.participant, entry.bib.text)) = [(⟨.fromU128 9⟩, "12")] := by
  rcases h with h | h
  · cases h
    decide +kernel
  · cases h
    decide +kernel

/-- The revision of the sample's race is built. -/
theorem sample_document (crossed other : CheckpointKind)
    (h : (crossed, other) = (.split, .start) ∨ (crossed, other) = (.start, .split)) :
    ∃ document, revision raceV5 (sampleConfig crossed other) sampleCourse
      (samplePublished (sampleConfig crossed other)) (derive raceV5 sample).timingEvents =
        .ok document := by
  have hpoints : (points (sampleConfig crossed other) sampleCourse).toOption.isSome = true := by
    rcases h with h | h
    · cases h
      decide +kernel
    · cases h
      decide +kernel
  have hentries := (sample_scored crossed other h).2
  cases hplaced : points (sampleConfig crossed other) sampleCourse with
  | error error =>
      rw [hplaced] at hpoints
      cases hpoints
  | ok placed =>
      refine exists_document _ rfl hplaced ?_ ?_
      · have hlength := congrArg List.length hentries
        rw [List.length_map] at hlength
        rw [hlength]
        decide
      · intro entry hentry
        have hmem := List.mem_map_of_mem (f := fun entry : ResultEntry =>
          (entry.participant, entry.bib.text)) hentry
        rw [hentries, List.mem_singleton] at hmem
        rw [show entry.bib.text = "12" from congrArg Prod.snd hmem]
        decide

/-- A published revision carries the splits of every runner with a basis exactly when no runner
with a basis has an event on a lap of the race at a split. -/
theorem splits_carried_iff (newV5 : Uuid → String → Uuid) (config : RaceConfig)
    (course : Course Metres) (input : DerivationInput) (declarations : List StatusDeclaration)
    (published : ResultRevision) (document : ResultsRevision)
    (hnames : NoEventCollision newV5 input)
    (hscore : score (scoringOf newV5 config input declarations published.policy) =
      .ok published.entries)
    (hdocument : revision newV5 config course published (derive newV5 input).timingEvents =
      .ok document) :
    List.Forall₂
        (CarriesRow config course published.policy (derive newV5 input).timingEvents)
        published.entries document.entries ↔
      ∀ entry ∈ published.entries, (basisOf published.policy entry).isSome →
        ¬ CrossesSplit config
          (eventsOf (derive newV5 input).timingEvents entry.participant) :=
  carries_rows_iff hnames hscore hdocument

/-- A race whose runner did not cross the split carries its splits. -/
theorem splits_carried_iff_uncrossed : ∃ document,
    revision raceV5 (sampleConfig .start .split) sampleCourse
      (samplePublished (sampleConfig .start .split)) (derive raceV5 sample).timingEvents =
        .ok document ∧
    List.Forall₂ (CarriesRow (sampleConfig .start .split) sampleCourse
        (samplePublished (sampleConfig .start .split)).policy (derive raceV5 sample).timingEvents)
      (samplePublished (sampleConfig .start .split)).entries document.entries := by
  obtain ⟨document, hdocument⟩ := sample_document .start .split (.inr rfl)
  refine ⟨document, hdocument, (splits_carried_iff raceV5 _ _ sample [] _ document
    sample_no_event_collision (sample_scored .start .split (.inr rfl)).1 hdocument).mpr ?_⟩
  intro entry _ _ ⟨checkpoint, hmem, hkind, event, hevent, hplace, _⟩
  have hid : checkpoint.id = ⟨.fromU128 6⟩ := by
    rcases List.mem_cons.mp hmem with rfl | hmem
    · cases hkind
    · rcases List.mem_cons.mp hmem with rfl | hmem
      · rfl
      · cases List.mem_singleton.mp hmem
        cases hkind
  -- the runner's crossings are all of the start
  have hbridge : event.checkpoint = ⟨.fromU128 7⟩ := by
    have hthere := List.mem_map_of_mem (f := fun event : TimingEvent =>
      (event.id, event.participant, event.checkpoint, event.lap)) (List.mem_filter.mp hevent).1
    rw [sample_events] at hthere
    rcases List.mem_cons.mp hthere with heq | hthere
    · exact congrArg (fun event => event.2.2.1) heq
    · exact congrArg (fun event => event.2.2.1) (List.mem_singleton.mp hthere)
  rw [hbridge, hid] at hplace
  exact absurd hplace (by decide)

/-- A runner's crossing of a split is not in the row published for them. -/
theorem not_splits_carried :
    ¬ ∀ (newV5 : Uuid → String → Uuid) (config : RaceConfig) (course : Course Int)
      (input : DerivationInput) (declarations : List StatusDeclaration)
      (published : ResultRevision) (document : ResultsRevision), NoEventCollision newV5 input →
      score (scoringOf newV5 config input declarations published.policy) = .ok published.entries →
      revision newV5 config course published (derive newV5 input).timingEvents = .ok document →
      List.Forall₂
        (CarriesRow config course published.policy (derive newV5 input).timingEvents)
        published.entries document.entries := by
  intro h
  obtain ⟨document, hdocument⟩ := sample_document .split .start (.inl rfl)
  obtain ⟨hscored, hentries⟩ := sample_scored .split .start (.inl rfl)
  have hnone := (carries_rows_iff sample_no_event_collision hscored hdocument).mp
    (h raceV5 _ _ sample [] _ document sample_no_event_collision hscored hdocument)
  have hrunner : (⟨.fromU128 9⟩, "12") ∈ (samplePublished (sampleConfig .split .start)).entries.map
      (fun entry => (entry.participant, entry.bib.text)) := by
    rw [hentries]
    exact List.mem_singleton_self _
  obtain ⟨entry, hentry, hsame⟩ := List.mem_map.mp hrunner
  -- the runner's first crossing of the bridge, which is a split
  have hfirst : (⟨.fromU128 0x8840280919c151d7a88e052295cf921c⟩, ⟨.fromU128 9⟩, ⟨.fromU128 7⟩, 1) ∈
      (derive raceV5 sample).timingEvents.map
        (fun event => (event.id, event.participant, event.checkpoint, event.lap)) := by
    rw [sample_events]
    exact List.mem_cons_self
  obtain ⟨event, hevent, heq⟩ := List.mem_map.mp hfirst
  have htheirs : event ∈ eventsOf (derive raceV5 sample).timingEvents entry.participant := by
    refine List.mem_filter.mpr ⟨hevent, decide_eq_true ?_⟩
    rw [show event.participant = ⟨.fromU128 9⟩ from congrArg (fun event => event.2.1) heq]
    exact (congrArg Prod.fst hsame).symm
  refine hnone entry hentry rfl ⟨_, List.mem_cons_self, rfl, event, htheirs,
    congrArg (fun event => event.2.2.1) heq, ?_⟩
  rw [show event.lap = 1 from congrArg (fun event => event.2.2.2) heq]
  decide

end Splitforge.Raceday
