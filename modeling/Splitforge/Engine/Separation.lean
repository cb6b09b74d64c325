import Splitforge.Engine.Evidence

/-!
# Separation of crossings

The bursts of the reads in order are their maximal runs with no gap over the window. A crossing is
one burst, credited with the earliest of its reads that the rule prefers, so two crossings of one
chip at one checkpoint come from different bursts and are more than a window apart.
`separated` is the theorem about `derive`.
-/

namespace Splitforge.Engine

open Splitforge.Domain Splitforge.Library

variable {newV5 : Uuid → String → Uuid} {input : DerivationInput}

/-! ## Maximal runs -/

/-- The bursts of some reads are their maximal runs: together they are the reads, none is empty,
no gap in one exceeds the window, and every gap between one and the next does. -/
structure MaximalRuns (window : Duration) (reads : List StoredRawRead)
    (bursts : List (List StoredRawRead)) : Prop where
  together : bursts.flatten = reads
  nonempty : ∀ burst ∈ bursts, burst ≠ []
  within : ∀ burst ∈ bursts, burst.IsChain fun first second =>
    second.read.authoritativeTimestamp - first.read.authoritativeTimestamp ≤ window
  apart : bursts.IsChain fun burst next => ∀ last ∈ burst.getLast?, ∀ first ∈ next.head?,
    window < first.read.authoritativeTimestamp - last.read.authoritativeTimestamp

/-- `split_into_bursts` cuts reads into their maximal runs. -/
theorem maximal_runs (reads : List StoredRawRead) (window : Duration) :
    MaximalRuns window reads (splitIntoBursts reads window) := by
  rw [split_into_bursts_eq]
  refine ⟨List.flatten_splitBy _ _, fun burst => List.ne_nil_of_mem_splitBy, ?_, ?_⟩
  · intro burst hburst
    refine (List.isChain_of_mem_splitBy hburst).imp fun first second hfollows => ?_
    exact of_decide_eq_true hfollows
  · refine (List.isChain_getLast_head_splitBy _ reads).imp fun burst next h => ?_
    obtain ⟨hburst, hnext, hcut⟩ := h
    intro last hlast first hfirst
    rw [List.getLast?_eq_some_getLast hburst] at hlast
    rw [List.head?_eq_some_head hnext] at hfirst
    cases hlast
    cases hfirst
    exact not_le.mp (of_decide_eq_false hcut)

/-- The reads in order are in the order of their times. -/
theorem in_order_times (reads : List StoredRawRead) :
    (inOrder reads).Pairwise fun first second =>
      first.read.authoritativeTimestamp ≤ second.read.authoritativeTimestamp := by
  refine (sorted_sort_by_key _ reads).imp fun {first second} hle => ?_
  rcases Prod.Lex.toLex_le_toLex.mp hle with hlt | heq
  · exact hlt.le
  · exact heq.1.le

/-- Reads of different bursts are more than a window apart. -/
theorem apart_of_maximal_runs {window : Duration} {reads : List StoredRawRead}
    {bursts : List (List StoredRawRead)} (h : MaximalRuns window reads bursts)
    (htimes : reads.Pairwise fun first second =>
      first.read.authoritativeTimestamp ≤ second.read.authoritativeTimestamp) :
    bursts.Pairwise fun burst later => ∀ first ∈ burst, ∀ second ∈ later,
      window < second.read.authoritativeTimestamp - first.read.authoritativeTimestamp := by
  obtain ⟨rfl, hnonempty, hwithin, hcuts⟩ := h
  clear hwithin
  induction bursts with
  | nil => exact List.Pairwise.nil
  | cons burst bursts ih =>
      rw [List.flatten_cons] at htimes
      obtain ⟨hburst, hbursts, hacross⟩ := List.pairwise_append.mp htimes
      refine List.pairwise_cons.mpr ⟨?_, ih
        (fun later hlater => hnonempty later (List.mem_cons_of_mem _ hlater)) hcuts.tail hbursts⟩
      intro later hlater first hfirst second hsecond
      cases bursts with
      | nil => cases hlater
      | cons next bursts =>
          -- from the first read to the burst's last, across the cut, and on to the second read
          have hcut := (List.isChain_cons_cons.mp hcuts).1
          obtain ⟨front, last, rfl⟩ :=
            (List.eq_nil_or_concat' burst).resolve_left (hnonempty _ List.mem_cons_self)
          obtain ⟨head, tail, rfl⟩ := List.exists_cons_of_ne_nil
            (hnonempty next (List.mem_cons_of_mem _ List.mem_cons_self))
          have hgap := hcut last List.getLast?_concat head rfl
          have hbefore : first.read.authoritativeTimestamp ≤ last.read.authoritativeTimestamp := by
            rcases List.mem_append.mp hfirst with hfirst | hfirst
            · exact (List.pairwise_append.mp hburst).2.2 first hfirst last
                (List.mem_singleton_self _)
            · rw [List.mem_singleton.mp hfirst]
          have hafter : head.read.authoritativeTimestamp ≤ second.read.authoritativeTimestamp := by
            have hin : second ∈ (head :: tail) ++ bursts.flatten := by
              rcases List.mem_cons.mp hlater with rfl | hlater
              · exact List.mem_append_left _ hsecond
              · exact List.mem_append_right _ (List.mem_flatten.mpr ⟨later, hlater, hsecond⟩)
            rcases List.mem_cons.mp hin with rfl | hin
            · exact le_refl _
            · exact (List.pairwise_cons.mp hbursts).1 second hin
          rw [Duration.lt_iff, OffsetDateTime.sub_nanos] at hgap ⊢
          rw [OffsetDateTime.le_iff] at hbefore hafter
          omega

/-! ## The preferred read -/

/-- Whether a rule prefers a read of a burst: any read, one that clears the floor, or one that no
other read is stronger than. -/
def Prefers (rule : SelectionRule) (burst : List StoredRawRead) (stored : StoredRawRead) : Prop :=
  match rule with
  | .first => True
  | .firstAboveRssi floorDbm => ∃ rssi ∈ stored.read.rssiDbm, floorDbm ≤ rssi
  | .peakRssi => ∀ other ∈ burst, strength other ≤ strength stored

/-- A read is the earliest of a burst that the rule prefers. -/
def EarliestPreferred (rule : SelectionRule) (burst : List StoredRawRead)
    (chosen : StoredRawRead) : Prop :=
  ∃ front back, burst = front ++ chosen :: back ∧ Prefers rule burst chosen ∧
    ∀ earlier ∈ front, ¬ Prefers rule burst earlier

/-- The strongest read with the least index is the earliest that no other is stronger than. -/
theorem earliest_of_peak {burst : List StoredRawRead} {chosen : StoredRawRead} {index : Nat}
    (h : maxByKey (fun indexed : StoredRawRead × Nat =>
      toLex (strength indexed.1, OrderDual.toDual indexed.2)) burst.zipIdx =
        some (chosen, index)) : EarliestPreferred .peakRssi burst chosen := by
  have hbound : ∀ place (hplace : place < burst.length),
      strength burst[place] < strength chosen ∨
        strength burst[place] = strength chosen ∧ index ≤ place := by
    intro place hplace
    have hmem : (burst[place], place) ∈ burst.zipIdx :=
      List.mem_zipIdx_iff_getElem?.mpr (List.getElem?_eq_getElem hplace)
    exact Prod.Lex.toLex_le_toLex.mp (le_of_max_by_key h _ hmem)
  have hchosen : burst[index]? = some chosen :=
    List.mem_zipIdx_iff_getElem?.mp (mem_of_max_by_key h)
  obtain ⟨hindex, hget⟩ := List.getElem?_eq_some_iff.mp hchosen
  have hstrongest : Prefers .peakRssi burst chosen := by
    intro other hother
    obtain ⟨place, hplace, rfl⟩ := List.getElem_of_mem hother
    rcases hbound place hplace with hlt | ⟨heq, _⟩
    · exact hlt.le
    · exact heq.le
  refine ⟨burst.take index, burst.drop (index + 1), ?_, hstrongest, ?_⟩
  · rw [← hget]
    exact (List.take_append_drop index burst).symm.trans (by rw [List.drop_eq_getElem_cons hindex])
  · -- an earlier read that is as strong would have been taken
    intro earlier hearlier hprefers
    obtain ⟨place, hplace, rfl⟩ := List.getElem_of_mem hearlier
    rw [List.length_take] at hplace
    rw [List.getElem_take] at hprefers
    have hweaker := hprefers chosen (hget ▸ List.getElem_mem hindex)
    rcases hbound place (by omega) with hlt | ⟨_, hle⟩
    · exact absurd hlt (not_lt.mpr hweaker)
    · omega

/-- `select` takes the earliest read the rule prefers. -/
theorem select_earliest {burst : List StoredRawRead} {rule : SelectionRule}
    {chosen : StoredRawRead} (h : select burst rule = some chosen) :
    EarliestPreferred rule burst chosen := by
  cases rule with
  | first =>
      obtain ⟨back, rfl⟩ := List.head?_eq_some_iff.mp h
      exact ⟨[], back, rfl, trivial, fun _ hearlier => absurd hearlier List.not_mem_nil⟩
  | firstAboveRssi floorDbm =>
      obtain ⟨hclears, front, back, hburst, hfront⟩ := List.find?_eq_some_iff_append.mp h
      have hprefers (stored : StoredRawRead) : Prefers (.firstAboveRssi floorDbm) burst stored ↔
          stored.read.rssiDbm.any (fun rssi => floorDbm ≤ rssi) = true := by
        rw [Option.any_eq_true]
        exact exists_congr fun rssi => and_congr Iff.rfl decide_eq_true_iff.symm
      refine ⟨front, back, hburst, (hprefers chosen).mpr hclears, ?_⟩
      intro earlier hearlier hclear
      have hnot := hfront earlier hearlier
      rw [(hprefers earlier).mp hclear] at hnot
      cases hnot
  | peakRssi =>
      obtain ⟨⟨stored, index⟩, hmax, rfl⟩ := Option.map_eq_some_iff.mp h
      exact earliest_of_peak hmax

/-! ## Crossings of one group -/

/-- A crossing is a burst credited with the read the rule selects. -/
def CrossingOfBurst (newV5 : Uuid → String → Uuid) (input : DerivationInput)
    (chip : ChipId) (checkpoint : CheckpointId) (burst : List StoredRawRead)
    (crossing : AcceptedRead) : Prop :=
  ∃ chosen, select burst (input.policy.selectionRuleFor checkpoint) = some chosen ∧
    crossing = crossingOf newV5 input chip checkpoint burst chosen

/-- A burst adds its crossing or none. -/
theorem accepted_of_credit_burst (chip : ChipId) (checkpoint : CheckpointId)
    (state : Crossings × Option (OffsetDateTime × Bool)) (burst : List StoredRawRead) :
    (creditBurst newV5 input chip checkpoint state burst).1.accepted = state.1.accepted ∨
    ∃ crossing, CrossingOfBurst newV5 input chip checkpoint burst crossing ∧
      (creditBurst newV5 input chip checkpoint state burst).1.accepted =
        state.1.accepted ++ [crossing] := by
  obtain ⟨crossings, lastCredited⟩ := state
  rcases @credit_burst_cases newV5 input chip checkpoint crossings lastCredited burst with
    ⟨reason, -, hsuppressed⟩ | ⟨chosen, hselect, hcredited⟩
  · exact Or.inl (by rw [hsuppressed]; rfl)
  · exact Or.inr ⟨_, ⟨chosen, hselect, rfl⟩, by rw [hcredited]; rfl⟩

/-- The crossings a group's bursts add come from different bursts, in order. -/
theorem accepted_of_credit_bursts (chip : ChipId) (checkpoint : CheckpointId)
    (bursts : List (List StoredRawRead)) (state : Crossings × Option (OffsetDateTime × Bool)) :
    ∃ credited added,
      credited.Sublist bursts ∧
      List.Forall₂ (CrossingOfBurst newV5 input chip checkpoint) credited added ∧
      (bursts.foldl (creditBurst newV5 input chip checkpoint) state).1.accepted =
        state.1.accepted ++ added := by
  induction bursts generalizing state with
  | nil => exact ⟨[], [], List.Sublist.refl _, List.Forall₂.nil, (List.append_nil _).symm⟩
  | cons burst bursts ih =>
      obtain ⟨credited, added, hsublist, hadded, haccepted⟩ :=
        ih (creditBurst newV5 input chip checkpoint state burst)
      rw [List.foldl_cons, haccepted]
      rcases @accepted_of_credit_burst newV5 input chip checkpoint state burst with
        hsame | ⟨crossing, hcrossing, hmore⟩
      · exact ⟨credited, added, hsublist.cons _, hadded, by rw [hsame]⟩
      · refine ⟨burst :: credited, crossing :: added, hsublist.cons_cons _,
          List.Forall₂.cons hcrossing hadded, ?_⟩
        rw [hmore, List.append_assoc]
        rfl

/-- The bursts of a chip at a checkpoint. -/
def burstsAt (input : DerivationInput) (chip : ChipId) (checkpoint : CheckpointId) :
    List (List StoredRawRead) :=
  splitIntoBursts (inOrder (itemsWith (placeOf input) (toLex (chip, checkpoint)) input.reads))
    (windowAt input checkpoint)

/-- Two crossings of one chip at one checkpoint are more than the window apart, in either order. -/
def Apart (input : DerivationInput) (first second : AcceptedRead) : Prop :=
  first.chip = second.chip → first.checkpoint = second.checkpoint →
    windowAt input first.checkpoint < second.at - first.at ∨
      windowAt input first.checkpoint < first.at - second.at

theorem Apart.symm {first second : AcceptedRead} (h : Apart input first second) :
    Apart input second first := by
  intro hchip hcheckpoint
  rw [hcheckpoint]
  exact (h hchip.symm hcheckpoint.symm).symm

/-- Crossings of bursts that are apart are apart. -/
theorem apart_of_bursts {chip : ChipId} {checkpoint : CheckpointId}
    {bursts : List (List StoredRawRead)} {added : List AcceptedRead}
    (hadded : List.Forall₂ (CrossingOfBurst newV5 input chip checkpoint) bursts added)
    (hbursts : bursts.Pairwise fun burst later => ∀ first ∈ burst, ∀ second ∈ later,
      windowAt input checkpoint <
        second.read.authoritativeTimestamp - first.read.authoritativeTimestamp) :
    added.Pairwise (Apart input) := by
  induction hadded with
  | nil => exact List.Pairwise.nil
  | @cons burst crossing bursts added hcrossing hadded ih =>
      obtain ⟨hburst, hbursts⟩ := List.pairwise_cons.mp hbursts
      refine List.pairwise_cons.mpr ⟨fun other hother _ _ => Or.inl ?_, ih hbursts⟩
      obtain ⟨chosen, hchosen, rfl⟩ := hcrossing
      obtain ⟨place, hplace, rfl⟩ := List.getElem_of_mem hother
      obtain ⟨later, hselect, heq⟩ := hadded.get (hadded.length_eq ▸ hplace) hplace
      rw [List.get_eq_getElem] at heq
      rw [heq]
      exact hburst _ (List.getElem_mem _) chosen (mem_of_select hchosen) later
        (mem_of_select hselect)

/-! ## Every crossing -/

/-- Every crossing is one of the bursts of its chip at its checkpoint, and crossings are apart. -/
structure Separated (newV5 : Uuid → String → Uuid) (input : DerivationInput)
    (accepted : List AcceptedRead) : Prop where
  bursts : ∀ crossing ∈ accepted, ∃ burst ∈ burstsAt input crossing.chip crossing.checkpoint,
    CrossingOfBurst newV5 input crossing.chip crossing.checkpoint burst crossing
  apart : accepted.Pairwise (Apart input)

/-- The loop over the groups keeps crossings separated, as each place has one group. -/
theorem Separated.groups {places : List (ChipId ×ₗ CheckpointId)} (hplaces : places.Nodup)
    {crossings : Crossings} (h : Separated newV5 input crossings.accepted)
    (hnew : ∀ crossing ∈ crossings.accepted,
      toLex (crossing.chip, crossing.checkpoint) ∉ places) :
    Separated newV5 input ((places.map fun place =>
      (place, itemsWith (placeOf input) place input.reads)).foldl (creditGroup newV5 input)
        crossings).accepted := by
  induction places generalizing crossings with
  | nil => exact h
  | cons place places ih =>
      obtain ⟨hplace, hplaces⟩ := List.nodup_cons.mp hplaces
      obtain ⟨credited, added, hsublist, hadded, haccepted⟩ :=
        @accepted_of_credit_bursts newV5 input (ofLex place).1 (ofLex place).2
          (burstsAt input (ofLex place).1 (ofLex place).2) (crossings, none)
      change (creditGroup newV5 input crossings
        (place, itemsWith (placeOf input) place input.reads)).accepted = _ at haccepted
      have hbursts := (apart_of_maximal_runs (maximal_runs _ _) (in_order_times _)).sublist hsublist
      -- what the group adds is of its place
      have hplaced : ∀ crossing ∈ added, ∃ burst ∈ credited,
          CrossingOfBurst newV5 input (ofLex place).1 (ofLex place).2 burst crossing := by
        intro crossing hcrossing
        obtain ⟨index, hindex, rfl⟩ := List.getElem_of_mem hcrossing
        exact ⟨_, List.getElem_mem (hadded.length_eq ▸ hindex),
          hadded.get (hadded.length_eq ▸ hindex) hindex⟩
      rw [List.map_cons, List.foldl_cons]
      refine ih hplaces ?_ ?_
      · rw [haccepted]
        refine ⟨fun crossing hcrossing => ?_, List.pairwise_append.mpr
          ⟨h.apart, apart_of_bursts hadded hbursts, ?_⟩⟩
        · rcases List.mem_append.mp hcrossing with hcrossing | hcrossing
          · exact h.bursts crossing hcrossing
          · obtain ⟨burst, hburst, chosen, hchosen, rfl⟩ := hplaced crossing hcrossing
            exact ⟨burst, hsublist.subset hburst, chosen, hchosen, rfl⟩
        · intro first hfirst second hsecond hchip hcheckpoint
          obtain ⟨_, _, _, _, rfl⟩ := hplaced second hsecond
          refine absurd ?_ (hnew first hfirst)
          have heq : toLex (first.chip, first.checkpoint) = place :=
            congrArg toLex (Prod.ext hchip hcheckpoint)
          exact heq ▸ List.mem_cons_self
      · intro crossing hcrossing
        rw [haccepted] at hcrossing
        rcases List.mem_append.mp hcrossing with hcrossing | hcrossing
        · exact fun hmem => hnew crossing hcrossing (List.mem_cons_of_mem _ hmem)
        · obtain ⟨_, _, _, _, rfl⟩ := hplaced crossing hcrossing
          exact hplace

/-- The crossings of a derivation are separated. -/
theorem derive_separated (newV5 : Uuid → String → Uuid) (input : DerivationInput) :
    Separated newV5 input (derive newV5 input).accepted := by
  have hgroups : Separated newV5 input (creditGroups newV5 input).accepted := by
    rw [creditGroups, group_reads_eq]
    dsimp only
    rw [to_list_group_by]
    exact Separated.groups ((sorted_keys _).imp fun h => h.ne)
      ⟨fun _ h => absurd h List.not_mem_nil, List.Pairwise.nil⟩
      fun _ h => absurd h List.not_mem_nil
  have hperm : (derive newV5 input).accepted.Perm (creditGroups newV5 input).accepted :=
    sort_by_key_perm _ _
  exact ⟨fun crossing hcrossing => hgroups.bursts crossing (hperm.mem_iff.mp hcrossing),
    (hperm.pairwise_iff fun {_ _} h => h.symm).mpr hgroups.apart⟩

/-- A gap over the dedup window is over the minimum interval: where the interval does not fit
`i64`, no gap between instants is over the window. -/
theorem interval_lt_of_window_lt {checkpoint : CheckpointId} {first second : OffsetDateTime}
    (h : windowAt input checkpoint < second - first) :
    Duration.milliseconds (input.policy.minIntervalMsFor checkpoint) < second - first := by
  have hfirst := And.intro first.lower first.upper
  have hsecond := And.intro second.lower second.upper
  simp only [minNanos, maxNanos] at hfirst hsecond
  rw [windowAt, Duration.lt_iff, OffsetDateTime.sub_nanos] at h
  rw [Duration.lt_iff, OffsetDateTime.sub_nanos]
  unfold i64OrMax Duration.milliseconds i64Max i64Min at h
  unfold Duration.milliseconds
  dsimp only at h ⊢
  split_ifs at h <;> omega

/-- The bursts of reads are their maximal runs in order of time. Accepted crossings of one chip at
one checkpoint are credited more than the checkpoint's minimum interval apart, and each is credited
with the earliest read of a burst that the checkpoint's rule prefers. -/
theorem separated (newV5 : Uuid → String → Uuid) (input : DerivationInput) :
    (∀ reads window, (inOrder reads).Perm reads ∧
      ((inOrder reads).Pairwise fun first second =>
        first.read.authoritativeTimestamp ≤ second.read.authoritativeTimestamp) ∧
      MaximalRuns window (inOrder reads) (splitIntoBursts (inOrder reads) window)) ∧
    ((derive newV5 input).accepted.Pairwise fun first second =>
      first.chip = second.chip → first.checkpoint = second.checkpoint →
        Duration.milliseconds (input.policy.minIntervalMsFor first.checkpoint) <
          second.at - first.at) ∧
    ∀ crossing ∈ (derive newV5 input).accepted,
      ∃ burst ∈ burstsAt input crossing.chip crossing.checkpoint, ∃ chosen,
        EarliestPreferred (input.policy.selectionRuleFor crossing.checkpoint) burst chosen ∧
        crossing.at = chosen.read.authoritativeTimestamp ∧
        crossing.sourceRawRead = chosen.read.id ∧
        crossing.burstRawReads = burst.map fun stored => stored.read.id := by
  obtain ⟨hbursts, hapart⟩ := derive_separated newV5 input
  refine ⟨fun reads window => ⟨sort_by_key_perm _ _, in_order_times reads, maximal_runs _ _⟩,
    ?_, ?_⟩
  · have htimes : (derive newV5 input).accepted.Pairwise fun first second =>
        toLex (first.at, first.id) ≤ toLex (second.at, second.id) := sorted_sort_by_key _ _
    refine (htimes.and hapart).imp fun {first second} h hchip hcheckpoint => ?_
    rcases h.2 hchip hcheckpoint with hlater | hearlier
    · exact interval_lt_of_window_lt hlater
    · -- the crossings are in order of time, so the second is not before the first
      have hinterval := interval_lt_of_window_lt hearlier
      have hle : first.at ≤ second.at := by
        rcases Prod.Lex.toLex_le_toLex.mp h.1 with hlt | heq
        · exact hlt.le
        · exact heq.1.le
      rw [Duration.lt_iff, OffsetDateTime.sub_nanos] at hinterval
      rw [OffsetDateTime.le_iff] at hle
      unfold Duration.milliseconds at hinterval
      dsimp only at hinterval
      omega
  · intro crossing hcrossing
    obtain ⟨burst, hburst, chosen, hchosen, heq⟩ := hbursts crossing hcrossing
    refine ⟨burst, hburst, chosen, select_earliest hchosen, ?_, ?_, ?_⟩ <;> rw [heq] <;> rfl

end Splitforge.Engine
