import Splitforge.Engine.Laps

/-!
# Derivation does not depend on the order of its input

Each group is sorted by time and insertion, and insertion numbers are different, so a group is
the same list whatever order its reads came in. The loops then do the same up to the order of the
suppressions, and those, the crossings and the sightings are sorted by keys that tell them apart.
-/

namespace Splitforge.Engine

open Std (ExtTreeMap)
open Splitforge.Domain Splitforge.Library

variable {newV5 : Uuid → String → Uuid} {input : DerivationInput}

/-- Two states of the loops that differ only in the order of the suppressions. -/
structure Alike (first second : Crossings) : Prop where
  accepted : first.accepted = second.accepted
  raceSides : first.raceSides = second.raceSides
  rejected : first.rejected.Perm second.rejected

theorem Alike.reject {first second : Crossings} (h : Alike first second)
    (reads : List StoredRawRead) (reason : StoredRawRead → RejectionReason) :
    Alike (first.reject reads reason) (second.reject reads reason) :=
  ⟨h.accepted, h.raceSides, h.rejected.append_right _⟩

theorem Alike.credit {first second : Crossings} (h : Alike first second)
    (crossing : AcceptedRead) (side : Bool) (burst : List StoredRawRead) :
    Alike (first.credit crossing side burst) (second.credit crossing side burst) where
  accepted := congrArg (· ++ [crossing]) h.accepted
  raceSides := congrArg (fun sides => sides.insert crossing.id side) h.raceSides
  rejected := h.rejected.append_right _

/-- One burst does the same to states that are alike. -/
theorem Alike.burst {first second : Crossings} (h : Alike first second) (chip : ChipId)
    (checkpoint : CheckpointId) (lastCredited : Option (OffsetDateTime × Bool))
    (burst : List StoredRawRead) :
    Alike (creditBurst newV5 input chip checkpoint (first, lastCredited) burst).1
        (creditBurst newV5 input chip checkpoint (second, lastCredited) burst).1 ∧
      (creditBurst newV5 input chip checkpoint (first, lastCredited) burst).2 =
        (creditBurst newV5 input chip checkpoint (second, lastCredited) burst).2 := by
  unfold creditBurst
  simp only
  split
  · exact ⟨h.reject _ _, rfl⟩
  · split
    · exact ⟨h.reject _ _, rfl⟩
    · exact ⟨h.credit _ _ _, rfl⟩

/-- One group does the same to states that are alike. -/
theorem Alike.group {first second : Crossings} (h : Alike first second)
    (group : (ChipId ×ₗ CheckpointId) × List StoredRawRead) :
    Alike (creditGroup newV5 input first group) (creditGroup newV5 input second group) := by
  have hbursts (chip : ChipId) (checkpoint : CheckpointId) :
      ∀ (bursts : List (List StoredRawRead)) (first second : Crossings)
        (lastCredited : Option (OffsetDateTime × Bool)), Alike first second →
        Alike (bursts.foldl (creditBurst newV5 input chip checkpoint) (first, lastCredited)).1
          (bursts.foldl (creditBurst newV5 input chip checkpoint) (second, lastCredited)).1 := by
    intro bursts
    induction bursts with
    | nil => exact fun _ _ _ h => h
    | cons burst bursts ih =>
        intro first second lastCredited h
        obtain ⟨hstate, hlast⟩ :=
          @Alike.burst newV5 input first second h chip checkpoint lastCredited burst
        rw [List.foldl_cons, List.foldl_cons,
          ← Prod.eta (creditBurst newV5 input chip checkpoint (first, lastCredited) burst),
          ← Prod.eta (creditBurst newV5 input chip checkpoint (second, lastCredited) burst), hlast]
        exact ih _ _ _ hstate
  exact hbursts _ _ _ _ _ _ h

theorem Alike.groups {first second : Crossings} (h : Alike first second)
    (groups : List ((ChipId ×ₗ CheckpointId) × List StoredRawRead)) :
    Alike (groups.foldl (creditGroup newV5 input) first)
      (groups.foldl (creditGroup newV5 input) second) := by
  induction groups generalizing first second with
  | nil => exact h
  | cons group groups ih => exact ih (h.group group)

/-- Reads with different insertion numbers have one order. -/
theorem in_order_eq_of_perm {reads reads' : List StoredRawRead}
    (hseqs : (reads.map (·.seq)).Nodup) (hperm : reads.Perm reads') :
    inOrder reads = inOrder reads' := by
  refine sort_by_key_eq_of_perm ?_ hperm
  have hsecond : (reads.map fun stored =>
      toLex (stored.read.authoritativeTimestamp, stored.seq)).map (fun key => (ofLex key).2) =
        reads.map (·.seq) := by
    rw [List.map_map]
    rfl
  exact List.Nodup.of_map _ (hsecond ▸ hseqs)

/-- The loop over the groups goes through their places in order. -/
theorem credit_groups_eq (input : DerivationInput) :
    creditGroups newV5 input =
      (groupBy (placeOf input) input.reads).keys.foldl
        (fun crossings place =>
          creditGroup newV5 input crossings (place, itemsWith (placeOf input) place input.reads))
        ⟨[], ∅, (unmappedReads input).map unmapped⟩ := by
  rw [creditGroups, group_reads_eq]
  show (groupBy (placeOf input) input.reads).toList.foldl (creditGroup newV5 input) _ = _
  rw [to_list_group_by, List.foldl_map]

/-- The loops do the same, up to the order of the suppressions, with the reads in any order. -/
theorem credit_groups_alike (hseqs : (input.reads.map (·.seq)).Nodup)
    {reads : List StoredRawRead} (hreads : input.reads.Perm reads) (manual : List ManualEntry) :
    Alike (creditGroups newV5 input)
      (creditGroups newV5 { input with reads := reads, manual := manual }) := by
  let input' : DerivationInput := { input with reads := reads, manual := manual }
  have hkeys : (groupBy (placeOf input) input.reads).keys =
      (groupBy (placeOf input') reads).keys := keys_group_by_perm hreads
  have hgroup : ∀ crossings place, creditGroup newV5 input crossings
      (place, itemsWith (placeOf input) place input.reads) =
        creditGroup newV5 input' crossings (place, itemsWith (placeOf input') place reads) := by
    intro crossings place
    have hitems : inOrder (itemsWith (placeOf input) place input.reads) =
        inOrder (itemsWith (placeOf input') place reads) :=
      in_order_eq_of_perm (hseqs.sublist (List.filter_sublist.map _)) (hreads.filter _)
    unfold creditGroup
    rw [hitems]
    rfl
  -- only the suppressions of unmapped reads come in the order of the input
  have hunmapped : Alike ⟨[], ∅, (unmappedReads input).map unmapped⟩
      ⟨[], ∅, (unmappedReads input').map unmapped⟩ :=
    ⟨rfl, rfl, (hreads.filter _).map _⟩
  have hsame := @Alike.groups newV5 input _ _ hunmapped
    ((groupBy (placeOf input) input.reads).keys.map fun place =>
      (place, itemsWith (placeOf input) place input.reads))
  rw [List.foldl_map, List.foldl_map] at hsame
  rw [credit_groups_eq, credit_groups_eq]
  show Alike _ ((groupBy (placeOf input') reads).keys.foldl
    (fun crossings place =>
      creditGroup newV5 input' crossings (place, itemsWith (placeOf input') place reads))
    ⟨[], ∅, (unmappedReads input').map unmapped⟩)
  rw [← funext₂ hgroup, ← hkeys]
  exact hsame

/-! ## Derivation -/

/-- Sightings of crossings and manual entries with different identifiers have different keys. -/
theorem sighting_keys_nodup {raceSides : ExtTreeMap AcceptedReadId Bool}
    {accepted : List AcceptedRead} (haccepted : (accepted.map (·.id)).Nodup)
    {manual : List ManualEntry} (hmanual : (manual.map (·.id)).Nodup) :
    ((accepted.filterMap (sightingOf raceSides) ++
      manual.map (manualSighting input)).map Sighting.key).Nodup := by
  rw [List.Nodup, List.pairwise_map, List.pairwise_append]
  refine ⟨List.pairwise_filterMap.mpr ?_, List.pairwise_map.mpr ?_, ?_⟩
  · refine (List.pairwise_map.mp haccepted).imp ?_
    intro first second hne sighting hfirst sighting' hsecond hkey
    obtain ⟨_, _, rfl⟩ := Option.map_eq_some_iff.mp hfirst
    obtain ⟨_, _, rfl⟩ := Option.map_eq_some_iff.mp hsecond
    have hsource := (Prod.ext_iff.mp (toLex_inj.mp hkey)).2
    exact hne (Domain.Id.ext (Prod.ext_iff.mp (toLex_inj.mp hsource)).2)
  · refine (List.pairwise_map.mp hmanual).imp ?_
    intro first second hne hkey
    have hsource := (Prod.ext_iff.mp (toLex_inj.mp hkey)).2
    exact hne (Domain.Id.ext (Prod.ext_iff.mp (toLex_inj.mp hsource)).2)
  · -- a crossing and a manual entry differ in the kind of the evidence
    intro sighting hchip sighting' hmanual hkey
    obtain ⟨_, _, hsome⟩ := List.mem_filterMap.mp hchip
    obtain ⟨_, _, rfl⟩ := Option.map_eq_some_iff.mp hsome
    obtain ⟨_, _, rfl⟩ := List.mem_map.mp hmanual
    have hsource := (Prod.ext_iff.mp (toLex_inj.mp hkey)).2
    exact Nat.zero_ne_one (Prod.ext_iff.mp (toLex_inj.mp hsource)).1

/-- Derivation does not depend on the order of the reads or of the manual entries. -/
theorem derive_order_independent (newV5 : Uuid → String → Uuid) (input : DerivationInput)
    {reads : List StoredRawRead} {manual : List ManualEntry} (hreads : input.reads.Perm reads)
    (hmanual : input.manual.Perm manual)
    (hids : (input.reads.map fun stored => stored.read.id).Nodup)
    (hseqs : (input.reads.map (·.seq)).Nodup) (hentries : (input.manual.map (·.id)).Nodup)
    (hnames : NoCollision newV5 input) :
    derive newV5 { input with reads := reads, manual := manual } = derive newV5 input := by
  obtain ⟨seen, hseen, h⟩ := credit_groups_accounted hids hnames
  have hseenIds := (hseen.map fun stored => stored.read.id).nodup_iff.mpr hids
  have hacceptedIds := h.accepted_ids_nodup hnames
    (fun stored hstored => hseen.mem_iff.mp hstored) hseenIds
  have hrejectedIds : ((creditGroups newV5 input).rejected.map (·.rawRead)).Nodup :=
    (h.ids.nodup_iff.mpr hseenIds).of_append_right
  have halike := @credit_groups_alike newV5 input hseqs reads hreads manual
  have haccepted : (sortByKey (fun crossing : AcceptedRead => toLex (crossing.at, crossing.id))
      (creditGroups newV5 input).accepted).Perm (creditGroups newV5 input).accepted :=
    sort_by_key_perm _ _
  unfold derive
  simp only [← halike.accepted, ← halike.raceSides]
  congr 1
  · exact (sort_by_key_eq_of_perm hrejectedIds halike.rejected).symm
  · have hkeys := @sighting_keys_nodup input (creditGroups newV5 input).raceSides _
      ((haccepted.map _).nodup_iff.mpr hacceptedIds) _ hentries
    refine congrArg (numberLaps newV5 ∅) (sort_by_key_eq_of_perm hkeys ?_).symm
    exact (hmanual.map _).append_left _

/-- The sample derives the same with its reads the other way round. -/
theorem derive_order_independent_sample :
    derive sampleV5 { sample with reads := sample.reads.reverse, manual := sample.manual } =
      derive sampleV5 sample :=
  derive_order_independent sampleV5 sample (List.reverse_perm _).symm (List.Perm.refl _)
    (by decide) (by decide) (by decide) sample_no_collision

end Splitforge.Engine
