import Splitforge.Results.Score
import Splitforge.Library.Ranking

/-!
# Places

The loop of `assign_places` goes through the placeable entries in the order of their times and
carries the last place it gave. What it gives is the standard competition rank of each time among
all of them, and every other entry is left as it is.
-/

namespace Splitforge.Results

open Splitforge.Domain Splitforge.Library

/-- The times that are placed. -/
def placeTimes (entries : List ResultEntry) : List (WithBot Int) :=
  (entries.filter isPlaceable).map scoringTime

/-- The place an entry's time has among times, as far as a `u32` counts. -/
def placeAmong (times : List (WithBot Int)) (entry : ResultEntry) : Nat :=
  min (rank times (scoringTime entry)) u32Max

/-- An entry with a place. -/
def withPlace (place : Nat) (entry : ResultEntry) : ResultEntry :=
  { entry with place := some place }

/-- Gives an entry its place among times, where it stands. -/
def give (times : List (WithBot Int)) (entries : List ResultEntry)
    (indexed : ResultEntry × Nat) : List ResultEntry :=
  entries.modify indexed.2 (withPlace (placeAmong times indexed.1))

/-! ## The loop -/

/-- What the loop carries after the entries behind it: the last of their times and the place of
that time. -/
def Carries (times : List (WithBot Int)) (done : List (ResultEntry × Nat)) (placing : Placing) :
    Prop :=
  placing.previousTime = done.getLast?.bind (fun last => last.1.scoringTimeMs) ∧
    ∀ last, done.getLast? = some last → placing.place = placeAmong times last.1

/-- A time that differs from the one just before it is greater than all before it. -/
theorem lt_of_new_time {done : List (ResultEntry × Nat)} {entry : ResultEntry}
    (hdone : done.Pairwise fun first second => scoringTime first.1 ≤ scoringTime second.1)
    (hle : ∀ indexed ∈ done, scoringTime indexed.1 ≤ scoringTime entry)
    (hnew : done.getLast?.bind (fun last => last.1.scoringTimeMs) ≠ entry.scoringTimeMs) :
    ∀ indexed ∈ done, scoringTime indexed.1 < scoringTime entry := by
  intro indexed hindexed
  obtain ⟨front, last, rfl⟩ :=
    (List.eq_nil_or_concat' done).resolve_left (List.ne_nil_of_mem hindexed)
  have hlastNe : scoringTime last.1 ≠ scoringTime entry := by
    intro heq
    rw [List.getLast?_append] at hnew
    exact hnew heq
  have hlast : scoringTime last.1 < scoringTime entry :=
    lt_of_le_of_ne (hle last (List.mem_append_right _ (List.mem_singleton_self _))) hlastNe
  rcases List.mem_append.mp hindexed with hindexed | hindexed
  · obtain ⟨_, _, hfront⟩ := List.pairwise_append.mp hdone
    exact lt_of_le_of_lt (hfront indexed hindexed last (List.mem_singleton_self _)) hlast
  · rwa [List.mem_singleton.mp hindexed]

/-- Behind times that are less, the rank of the next one in order counts them. -/
theorem rank_of_sorted {done rest : List (ResultEntry × Nat)} {indexed : ResultEntry × Nat}
    (hsorted : (done ++ indexed :: rest).Pairwise fun first second =>
      scoringTime first.1 ≤ scoringTime second.1)
    (hless : ∀ other ∈ done, scoringTime other.1 < scoringTime indexed.1) :
    rank ((done ++ indexed :: rest).map fun indexed => scoringTime indexed.1)
      (scoringTime indexed.1) = done.length + 1 := by
  obtain ⟨_, hback, _⟩ := List.pairwise_append.mp hsorted
  have hfront : ∀ time ∈ done.map fun indexed => scoringTime indexed.1,
      time < scoringTime indexed.1 := List.forall_mem_map.mpr hless
  have hrest : ∀ time ∈ (indexed :: rest).map fun indexed => scoringTime indexed.1,
      scoringTime indexed.1 ≤ time := by
    refine List.forall_mem_map.mpr fun other hother => ?_
    rcases List.mem_cons.mp hother with rfl | hother
    · exact le_refl _
    · exact (List.pairwise_cons.mp hback).1 other hother
  rw [List.map_append, rank_append hfront hrest, List.length_map]

/-- One entry, placeable and not before the ones behind it in time, gets its place. -/
theorem Placing.next_eq {done rest : List (ResultEntry × Nat)} {entry : ResultEntry} {index : Nat}
    (hsorted : (done ++ (entry, index) :: rest).Pairwise fun first second =>
      scoringTime first.1 ≤ scoringTime second.1)
    (hplaceable : ∃ time, entry.scoringTimeMs = some time) {placing : Placing}
    (h : Carries ((done ++ (entry, index) :: rest).map fun indexed => scoringTime indexed.1)
      done placing) :
    let times := (done ++ (entry, index) :: rest).map fun indexed => scoringTime indexed.1
    let next := placing.next ((entry, index), done.length)
    next.entries = give times placing.entries (entry, index) ∧
      Carries times (done ++ [(entry, index)]) next := by
  intro times next
  obtain ⟨time, htime⟩ := hplaceable
  obtain ⟨hprevious, hplace⟩ := h
  have hnext : next.place = placeAmong times entry := by
    by_cases hsame : placing.previousTime = entry.scoringTimeMs
    · -- an equal time shares the place of the one before
      have hkept : next.place = placing.place := if_pos hsame
      rw [hsame, htime] at hprevious
      obtain ⟨last, hlast, hlastTime⟩ := Option.bind_eq_some_iff.mp hprevious.symm
      have heq : scoringTime last.1 = scoringTime entry := hlastTime.trans htime.symm
      rw [hkept, hplace last hlast, placeAmong, placeAmong, heq]
    · -- a new time takes the place behind all before it
      have hnew : next.place = min (min done.length u32Max + 1) u32Max := if_neg hsame
      obtain ⟨hdone, _, hfront⟩ := List.pairwise_append.mp hsorted
      have hless := lt_of_new_time hdone
        (fun indexed hindexed => hfront indexed hindexed _ List.mem_cons_self) (hprevious ▸ hsame)
      have hrank : rank times (scoringTime entry) = done.length + 1 := rank_of_sorted hsorted hless
      rw [hnew, placeAmong, hrank]
      unfold u32Max
      omega
  have hentries : next.entries = placing.entries.modify index (withPlace next.place) := rfl
  refine ⟨?_, ?_, ?_⟩
  · rw [hentries, hnext]
    rfl
  · rw [List.getLast?_append]
    rfl
  · intro last hlast
    rw [List.getLast?_append] at hlast
    obtain rfl : (entry, index) = last := Option.some.inj hlast
    exact hnext

/-- The loop gives every entry its place among the times of all of them. -/
theorem place_entries_eq {placeable : List (ResultEntry × Nat)}
    (hsorted : placeable.Pairwise fun first second => scoringTime first.1 ≤ scoringTime second.1)
    (htimes : ∀ indexed ∈ placeable, ∃ time, indexed.1.scoringTimeMs = some time)
    (entries : List ResultEntry) :
    (placeable.zipIdx.foldl Placing.next ⟨entries, 0, none⟩).entries =
      placeable.foldl (give (placeable.map fun indexed => scoringTime indexed.1)) entries := by
  have hrest : ∀ (rest done : List (ResultEntry × Nat)) (placing : Placing),
      done ++ rest = placeable →
      Carries (placeable.map fun indexed => scoringTime indexed.1) done placing →
      ((rest.zipIdx done.length).foldl Placing.next placing).entries =
        rest.foldl (give (placeable.map fun indexed => scoringTime indexed.1))
          placing.entries := by
    intro rest
    induction rest with
    | nil => exact fun _ _ _ _ => rfl
    | cons indexed rest ih =>
        rintro done placing rfl hcarries
        obtain ⟨hentries, hnext⟩ := Placing.next_eq hsorted
          (htimes indexed (List.mem_append_right _ List.mem_cons_self)) hcarries
        rw [List.zipIdx_cons, List.foldl_cons, List.foldl_cons, ← hentries]
        have hih := ih (done ++ [indexed]) _ (by rw [List.append_assoc]; rfl) hnext
        rw [List.length_append] at hih
        exact hih
  exact hrest placeable [] _ rfl ⟨rfl, fun last hlast => by cases hlast⟩

/-! ## Where places are written -/

variable {times : List (WithBot Int)}

/-- An entry that is not among those that get a place stays as it is. -/
theorem get_give_of_not_mem {placeable : List (ResultEntry × Nat)} {index : Nat}
    (h : index ∉ placeable.map Prod.snd) (entries : List ResultEntry) :
    (placeable.foldl (give times) entries)[index]? = entries[index]? := by
  induction placeable generalizing entries with
  | nil => rfl
  | cons indexed placeable ih =>
      rw [List.map_cons, List.mem_cons, not_or] at h
      rw [List.foldl_cons, ih h.2, give, List.getElem?_modify_ne _ _ (Ne.symm h.1)]

/-- An entry that is among those that get a place has its place, and nothing else is changed. -/
theorem get_give_of_mem {placeable : List (ResultEntry × Nat)} {entry : ResultEntry} {index : Nat}
    (hnodup : (placeable.map Prod.snd).Nodup) (h : (entry, index) ∈ placeable)
    (entries : List ResultEntry) :
    (placeable.foldl (give times) entries)[index]? =
      entries[index]?.map (withPlace (placeAmong times entry)) := by
  induction placeable generalizing entries with
  | nil => cases h
  | cons indexed placeable ih =>
      obtain ⟨hfirst, hnodup⟩ := List.nodup_cons.mp hnodup
      rw [List.foldl_cons]
      rcases List.mem_cons.mp h with rfl | h
      · rw [get_give_of_not_mem hfirst, give, List.getElem?_modify_eq]
        rfl
      · have hne : indexed.2 ≠ index := fun heq => hfirst (heq ▸ List.mem_map_of_mem h)
        rw [ih hnodup h, give, List.getElem?_modify_ne _ _ hne]

/-- An entry with the place it gets, if it gets one. -/
def placed (times : List (WithBot Int)) (entry : ResultEntry) : ResultEntry :=
  if isPlaceable entry then withPlace (placeAmong times entry) entry else entry

/-- The entries that get a place, with their indices, in the order they get it. -/
def inPlacingOrder (entries : List ResultEntry) : List (ResultEntry × Nat) :=
  sortByKey (fun indexed => placingKey indexed.1)
    (entries.zipIdx.filter fun indexed => isPlaceable indexed.1)

theorem in_placing_order_perm (entries : List ResultEntry) :
    (inPlacingOrder entries).Perm (entries.zipIdx.filter fun indexed => isPlaceable indexed.1) :=
  sort_by_key_perm _ _

theorem in_placing_order_sorted (entries : List ResultEntry) :
    (inPlacingOrder entries).Pairwise fun first second =>
      scoringTime first.1 ≤ scoringTime second.1 :=
  (sorted_sort_by_key (fun indexed : ResultEntry × Nat => placingKey indexed.1) _).imp
    fun {first second} hle => Prod.Lex.monotone_fst (placingKey first.1) (placingKey second.1) hle

theorem mem_in_placing_order {entries : List ResultEntry} {entry : ResultEntry} {index : Nat} :
    (entry, index) ∈ inPlacingOrder entries ↔
      entries[index]? = some entry ∧ isPlaceable entry = true := by
  rw [(in_placing_order_perm entries).mem_iff, List.mem_filter, List.mem_zipIdx_iff_getElem?]

theorem in_placing_order_indices_nodup (entries : List ResultEntry) :
    ((inPlacingOrder entries).map Prod.snd).Nodup := by
  refine (((in_placing_order_perm entries).map Prod.snd).nodup_iff).mpr
    (List.Nodup.sublist (List.filter_sublist.map _) ?_)
  rw [List.zipIdx_map_snd]
  exact List.nodup_range'

/-- Their times are the times that are placed. -/
theorem in_placing_order_times (entries : List ResultEntry) :
    ((inPlacingOrder entries).map fun indexed => scoringTime indexed.1).Perm
      (placeTimes entries) := by
  have hentries : (entries.zipIdx.filter fun indexed => isPlaceable indexed.1).map Prod.fst =
      entries.filter isPlaceable := by
    have hfilter := List.filter_map (f := Prod.fst) (p := isPlaceable) (l := entries.zipIdx)
    rw [List.zipIdx_map_fst] at hfilter
    exact hfilter.symm
  refine ((in_placing_order_perm entries).map _).trans (List.Perm.of_eq ?_)
  rw [placeTimes, ← hentries, List.map_map]
  rfl

/-- `assign_places` gives each placeable entry the rank of its time and leaves the others as they
are. -/
theorem assign_places_eq (entries : List ResultEntry) :
    assignPlaces entries = entries.map (placed (placeTimes entries)) := by
  have htimes : ∀ indexed ∈ inPlacingOrder entries,
      ∃ time, indexed.1.scoringTimeMs = some time := by
    intro indexed hindexed
    have hplaceable := (mem_in_placing_order.mp hindexed).2
    exact Option.isSome_iff_exists.mp (Bool.and_eq_true_iff.mp hplaceable).2
  have hassign : assignPlaces entries = (inPlacingOrder entries).foldl
      (give ((inPlacingOrder entries).map fun indexed => scoringTime indexed.1)) entries :=
    place_entries_eq (in_placing_order_sorted entries) htimes entries
  -- an index is given a place exactly when a placeable entry stands there
  have hunplaced : ∀ index, (∀ entry, entries[index]? = some entry → isPlaceable entry ≠ true) →
      index ∉ (inPlacingOrder entries).map Prod.snd := by
    intro index hnone hmem
    obtain ⟨⟨entry, _⟩, hindexed, rfl⟩ := List.mem_map.mp hmem
    obtain ⟨hentry, hplaceable⟩ := mem_in_placing_order.mp hindexed
    exact hnone entry hentry hplaceable
  rw [hassign]
  refine List.ext_getElem? fun index => ?_
  rw [List.getElem?_map]
  cases hentry : entries[index]? with
  | none =>
      rw [get_give_of_not_mem (hunplaced index (by simp [hentry])), hentry]
      rfl
  | some entry =>
      rw [Option.map_some, placed]
      by_cases hplaceable : isPlaceable entry = true
      · rw [get_give_of_mem (in_placing_order_indices_nodup entries)
            (mem_in_placing_order.mpr ⟨hentry, hplaceable⟩),
          hentry, if_pos hplaceable, Option.map_some, placeAmong, placeAmong,
          rank_eq_of_perm (in_placing_order_times entries)]
      · have hindex := hunplaced index fun other hother => by
          rwa [← Option.some.inj (hentry.symm.trans hother)]
        rw [get_give_of_not_mem hindex, hentry, if_neg hplaceable]

/-! ## Published entries -/

/-- Scoring that succeeds found the lines of the course, and publishes the placed lines of the
participants. -/
theorem score_eq_ok {input : ScoringInput} {entries : List ResultEntry}
    (h : score input = .ok entries) :
    ∃ finish start, courseLines input.checkpoints input.policy.startMode = .ok (finish, start) ∧
      entries = sortForPublication (assignPlaces (buildEntries input finish start)) := by
  unfold score at h
  cases hlines : courseLines input.checkpoints input.policy.startMode with
  | error error =>
      rw [hlines] at h
      cases h
  | ok lines =>
      obtain ⟨finish, start⟩ := lines
      rw [hlines] at h
      cases h
      exact ⟨finish, start, rfl, rfl⟩

@[simp]
theorem is_placeable_placed (entry : ResultEntry) :
    isPlaceable (placed times entry) = isPlaceable entry := by
  unfold placed
  split <;> rfl

@[simp]
theorem scoring_time_placed (entry : ResultEntry) :
    scoringTime (placed times entry) = scoringTime entry := by
  unfold placed
  split <;> rfl

@[simp]
theorem participant_placed (entry : ResultEntry) :
    (placed times entry).participant = entry.participant := by
  unfold placed
  split <;> rfl

/-- An entry without a place gets one when it is placeable. -/
theorem place_placed {entry : ResultEntry} (h : entry.place = none) :
    (placed times entry).place =
      if isPlaceable entry then some (placeAmong times entry) else none := by
  unfold placed
  split
  · rfl
  · exact h

/-- What is published: each entry is placeable and has the rank of its time, or has no place, and
the entries are in the order of a results sheet. -/
structure Published (entries : List ResultEntry) : Prop where
  place : ∀ entry ∈ entries, entry.place =
    if isPlaceable entry then some (placeAmong (placeTimes entries) entry) else none
  sorted : entries.Pairwise fun first second => publicationKey first ≤ publicationKey second

/-- Placing and sorting publish lines without places. -/
theorem published_of_place_none {entries : List ResultEntry}
    (h : ∀ entry ∈ entries, entry.place = none) :
    Published (sortForPublication (assignPlaces entries)) := by
  have hperm : (sortForPublication (assignPlaces entries)).Perm
      (entries.map (placed (placeTimes entries))) :=
    (sort_by_key_perm _ _).trans (List.Perm.of_eq (assign_places_eq entries))
  have htimes : (placeTimes (sortForPublication (assignPlaces entries))).Perm
      (placeTimes entries) := by
    have hplaceable : isPlaceable ∘ placed (placeTimes entries) = isPlaceable :=
      funext is_placeable_placed
    have htime : scoringTime ∘ placed (placeTimes entries) = scoringTime :=
      funext scoring_time_placed
    refine ((hperm.filter _).map _).trans (List.Perm.of_eq ?_)
    rw [List.filter_map, List.map_map, hplaceable, htime]
    rfl
  refine ⟨fun entry hentry => ?_, sorted_sort_by_key _ _⟩
  obtain ⟨built, hbuilt, rfl⟩ := List.mem_map.mp (hperm.mem_iff.mp hentry)
  rw [place_placed (h built hbuilt), is_placeable_placed, placeAmong, placeAmong,
    rank_eq_of_perm htimes, scoring_time_placed]

/-- What `score` returns is published, and has one line for each participant. -/
theorem published_of_score {input : ScoringInput} {entries : List ResultEntry}
    (h : score input = .ok entries) :
    Published entries ∧
      (entries.map (·.participant)).Perm (input.participants.map (·.id)) := by
  obtain ⟨finish, start, _, rfl⟩ := score_eq_ok h
  have hnone : ∀ entry ∈ buildEntries input finish start, entry.place = none :=
    List.forall_mem_map.mpr fun _ _ => rfl
  refine ⟨published_of_place_none hnone, ?_⟩
  refine ((sort_by_key_perm _ _).map _).trans (List.Perm.of_eq ?_)
  rw [assign_places_eq, List.map_map, buildEntries, List.map_map]
  exact List.map_congr_left fun participant _ => participant_placed _

/-- An entry has a place when its status is finished and it has a scoring time. -/
theorem Published.is_some_place {entries : List ResultEntry} (h : Published entries)
    {entry : ResultEntry} (hentry : entry ∈ entries) :
    entry.place.isSome = isPlaceable entry := by
  rw [h.place entry hentry]
  cases isPlaceable entry <;> rfl

/-- Where a `u32` can count the entries, the place of an entry among their times is the rank of its
time. -/
theorem place_among_eq {entries : List ResultEntry} (hcount : entries.length < 2 ^ 32)
    {entry : ResultEntry} (hentry : entry ∈ entries) (hplaceable : isPlaceable entry = true) :
    scoringTime entry ∈ placeTimes entries ∧
      placeAmong (placeTimes entries) entry =
        rank (placeTimes entries) (scoringTime entry) := by
  have hmem : scoringTime entry ∈ placeTimes entries :=
    List.mem_map_of_mem (List.mem_filter.mpr ⟨hentry, hplaceable⟩)
  have hle := rank_le_length hmem
  have hlength : (placeTimes entries).length ≤ entries.length := by
    rw [placeTimes, List.length_map]
    exact List.length_filter_le _ _
  refine ⟨hmem, min_eq_left ?_⟩
  unfold u32Max
  omega

/-- So is the place of a published entry. -/
theorem Published.place_eq {entries : List ResultEntry} (h : Published entries)
    (hcount : entries.length < 2 ^ 32) {entry : ResultEntry} (hentry : entry ∈ entries)
    {place : Nat} (hplace : entry.place = some place) :
    scoringTime entry ∈ placeTimes entries ∧
      place = rank (placeTimes entries) (scoringTime entry) := by
  have hplaceable : isPlaceable entry = true := by
    rw [← h.is_some_place hentry, hplace]
    rfl
  obtain ⟨hmem, hrank⟩ := place_among_eq hcount hentry hplaceable
  have hamong := h.place entry hentry
  rw [hplace, if_pos hplaceable, Option.some.injEq] at hamong
  exact ⟨hmem, hamong.trans hrank⟩

/-- Entries that are not behind another in places are not behind it in time. -/
theorem Published.time_le {entries : List ResultEntry} (h : Published entries)
    (hcount : entries.length < 2 ^ 32) {first second : ResultEntry} (hfirst : first ∈ entries)
    (hsecond : second ∈ entries) {place place' : Nat} (hplace : first.place = some place)
    (hplace' : second.place = some place') (hle : place ≤ place') :
    scoringTime first ≤ scoringTime second := by
  obtain ⟨_, hrank⟩ := h.place_eq hcount hfirst hplace
  obtain ⟨hmem, hrank'⟩ := h.place_eq hcount hsecond hplace'
  by_contra hlt
  have hbetter := rank_lt_rank hmem (not_le.mp hlt)
  omega

/-- Before an entry with a place stand only entries with places, and none of them is greater. -/
theorem place_of_publication_le {first second : ResultEntry}
    (h : publicationKey first ≤ publicationKey second) {place : Nat}
    (hplace : second.place = some place) : ∃ place' ≤ place, first.place = some place' := by
  unfold publicationKey at h
  rw [hplace] at h
  cases hfirst : first.place with
  | none =>
      rw [hfirst] at h
      have hnone : true ≤ false := Prod.Lex.monotone_fst _ _ h
      exact absurd hnone (by decide)
  | some place' =>
      rw [hfirst] at h
      rcases Prod.Lex.le_iff.mp h with hlt | ⟨_, hle⟩
      · exact absurd hlt (lt_irrefl false)
      · exact ⟨place', Prod.Lex.monotone_fst _ _ hle, rfl⟩

theorem is_placeable_iff (entry : ResultEntry) :
    isPlaceable entry = true ↔ entry.status = .finished ∧ entry.scoringTimeMs.isSome := by
  rw [isPlaceable, Bool.and_eq_true_iff]
  cases entry.status <;> simp [ResultStatus.isPlaced]

/-- The rank of an entry counts the placed entries that are strictly faster. -/
theorem Published.rank_eq {entries : List ResultEntry} (h : Published entries)
    {entry : ResultEntry} {time : Int} (htime : entry.scoringTimeMs = some time) :
    rank (placeTimes entries) (scoringTime entry) = 1 + entries.countP fun other =>
      other.place.isSome && other.scoringTimeMs.any fun faster => faster < time := by
  have htimeEq : scoringTime entry = ((time : Int) : WithBot Int) := htime
  rw [rank, placeTimes, List.countP_map, List.countP_filter, Nat.add_comm, htimeEq]
  refine congrArg (1 + ·) (List.countP_congr fun other hother => ?_)
  rw [h.is_some_place hother]
  cases hother' : other.scoringTimeMs with
  | none => simp [isPlaceable, hother']
  | some faster =>
      have hfaster : scoringTime other = ((faster : Int) : WithBot Int) := hother'
      simp [hfaster, and_comm]

/-- Before an entry with a place and a time stand only entries with a place and a time, and
neither is greater. -/
theorem Published.placed_before {entries : List ResultEntry} (h : Published entries)
    (hcount : entries.length < 2 ^ 32) {first second : ResultEntry} (hfirst : first ∈ entries)
    (hsecond : second ∈ entries) (hle : publicationKey first ≤ publicationKey second)
    {place : Nat} {time : Int} (hplace : second.place = some place)
    (htime : second.scoringTimeMs = some time) :
    ∃ place' ≤ place, ∃ time' ≤ time,
      first.place = some place' ∧ first.scoringTimeMs = some time' := by
  obtain ⟨place', hplaceLe, hplace'⟩ := place_of_publication_le hle hplace
  have htimeLe := h.time_le hcount hfirst hsecond hplace' hplace hplaceLe
  have hsome : isPlaceable first = true := by
    rw [← h.is_some_place hfirst, hplace']
    rfl
  obtain ⟨time', htime'⟩ := Option.isSome_iff_exists.mp ((is_placeable_iff first).mp hsome).2
  refine ⟨place', hplaceLe, time', ?_, hplace', htime'⟩
  have hfirstTime : scoringTime first = ((time' : Int) : WithBot Int) := htime'
  have hsecondTime : scoringTime second = ((time : Int) : WithBot Int) := htime
  rw [hfirstTime, hsecondTime] at htimeLe
  exact WithBot.coe_le_coe.mp htimeLe

/-- Places are those of standard competition ranking: one line for each participant, a place for
whoever finished with a scoring time, one more than the number of placed entries that were
strictly faster, and the placed entries first, in the order of places and times. -/
theorem score_places {input : ScoringInput} {entries : List ResultEntry}
    (hscore : score input = .ok entries) (hids : (input.participants.map (·.id)).Nodup)
    (hcount : input.participants.length < 2 ^ 32) :
    (entries.map (·.participant)).Perm (input.participants.map (·.id)) ∧
    (entries.map (·.participant)).Nodup ∧
    (∀ entry ∈ entries,
      entry.place.isSome ↔ entry.status = .finished ∧ entry.scoringTimeMs.isSome) ∧
    (∀ entry ∈ entries, ∀ place time, entry.place = some place →
      entry.scoringTimeMs = some time →
      place = 1 + entries.countP fun other =>
        other.place.isSome && other.scoringTimeMs.any fun faster => faster < time) ∧
    entries.Pairwise fun first second => ∀ place time, second.place = some place →
      second.scoringTimeMs = some time → ∃ place' ≤ place, ∃ time' ≤ time,
        first.place = some place' ∧ first.scoringTimeMs = some time' := by
  obtain ⟨h, hperm⟩ := published_of_score hscore
  have hlength : entries.length < 2 ^ 32 := by
    have heq := hperm.length_eq
    rw [List.length_map, List.length_map] at heq
    omega
  refine ⟨hperm, hperm.nodup_iff.mpr hids, ?_, ?_, ?_⟩
  · intro entry hentry
    rw [h.is_some_place hentry]
    exact is_placeable_iff entry
  · intro entry hentry place time hplace htime
    obtain ⟨_, hrank⟩ := h.place_eq hlength hentry hplace
    rw [hrank, h.rank_eq htime]
  · refine h.sorted.imp_of_mem fun hfirst hsecond hle place time hplace htime => ?_
    exact h.placed_before hlength hfirst hsecond hle hplace htime

/-- A participant of the sample. -/
def sampleParticipant (number : Nat) (bib : String) : Participant :=
  ⟨⟨.fromU128 number⟩, ⟨.fromU128 90⟩, ⟨bib⟩, ""⟩

/-- A crossing of the sample: who, at which checkpoint, when. -/
def sampleCrossing (number participant checkpoint : Nat) (seconds : UInt8) : TimingEvent where
  id := ⟨.fromU128 number⟩
  participant := ⟨.fromU128 participant⟩
  checkpoint := ⟨.fromU128 checkpoint⟩
  «at» := second seconds
  lap := 1
  origin := .acceptedRead ⟨.fromU128 number⟩

/-- A race with two runners who finish together, one who comes behind them, and one who is
disqualified. -/
def sampleRace : ScoringInput where
  participants := [sampleParticipant 1 "7", sampleParticipant 2 "12", sampleParticipant 3 "A1",
    sampleParticipant 4 "9"]
  checkpoints := [⟨⟨.fromU128 50⟩, ⟨.fromU128 90⟩, "start", .start, 0⟩,
    ⟨⟨.fromU128 51⟩, ⟨.fromU128 90⟩, "finish", .finish, 1⟩]
  timingEvents := [sampleCrossing 1 1 50 9, sampleCrossing 2 1 51 60, sampleCrossing 3 2 51 60,
    sampleCrossing 4 3 51 70, sampleCrossing 5 4 51 65]
  declarations := [⟨⟨.fromU128 70⟩, 1, ⟨.fromU128 90⟩, ⟨.fromU128 4⟩, .dq,
    "left the course", "referee", second 80⟩]
  policy := ⟨.gun, ⟨3000, .first, none, ∅⟩, some (second 10)⟩

/-- The entries of the sample. -/
def sampleEntries : List ResultEntry :=
  sortForPublication (assignPlaces
    (buildEntries sampleRace ⟨.fromU128 51⟩ (some ⟨.fromU128 50⟩)))

theorem score_sample : score sampleRace = .ok sampleEntries := rfl

/-- In the sample two runners share the first place, and the next is third. -/
theorem score_places_sample : sampleEntries.map (·.place) = [some 1, some 1, some 3, none] ∧
    (sampleEntries.map (·.participant)).Nodup :=
  ⟨by decide +kernel, (score_places score_sample (by decide) (by decide)).2.1⟩

end Splitforge.Results
