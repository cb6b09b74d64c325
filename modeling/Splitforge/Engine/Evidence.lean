import Splitforge.Engine.Bursts

/-!
# No evidence is lost

Every read is accounted for exactly once, as the credited read of a crossing or as a suppression.
`Accounted` says so of the reads looked at so far. One burst keeps it, so a group does, so the
loop over the groups does, and behind it everything that follows only sorts.
-/

namespace Splitforge.Engine

open Std (ExtTreeMap)
open Splitforge.Domain Splitforge.Library

variable {newV5 : Uuid → String → Uuid} {input : DerivationInput}

/-- Whether a read is suppressed because its antenna covers no checkpoint. -/
def isUnmapped : RejectionReason → Bool
  | .unmappedReader .. => true
  | _ => false

/-- Whether a read is suppressed as a duplicate in a crossing's burst. -/
def duplicates (accepted : AcceptedReadId) : RejectionReason → Bool
  | .duplicateWithinWindow accepted' _ => accepted' = accepted
  | _ => false

/-- The ids of the reads suppressed as duplicates in a crossing's burst. -/
def duplicatesOf (rejected : List RejectedRead) (accepted : AcceptedReadId) : List RawReadId :=
  (rejected.filter fun entry => duplicates accepted entry.reason).map (·.rawRead)

/-- The names that the identifiers of crossings can be hashes of. -/
def acceptedNames (input : DerivationInput) : List String :=
  input.reads.filterMap fun stored =>
    (placeOf input stored).map fun place =>
      acceptedName (ofLex place).2 (ofLex place).1 stored.read.id

/-- The hash tells the names of the input apart. -/
def NoCollision (newV5 : Uuid → String → Uuid) (input : DerivationInput) : Prop :=
  Set.InjOn (newV5 splitforgeNamespace) {name | name ∈ acceptedNames input}

/-- How a crossing came about: from which burst, by which read, and what became of the others. -/
structure Credited (newV5 : Uuid → String → Uuid) (input : DerivationInput)
    (seen : List StoredRawRead) (crossings : Crossings) (crossing : AcceptedRead)
    (chip : ChipId) (checkpoint : CheckpointId) (burst : List StoredRawRead)
    (chosen : StoredRawRead) : Prop where
  reads : ∀ stored ∈ burst, stored ∈ seen
  source : chosen ∈ burst
  place : placeOf input chosen = some (toLex (chip, checkpoint))
  built : crossing = crossingOf newV5 input chip checkpoint burst chosen
  side : crossings.raceSides[crossing.id]? = some (onTheRaceSide burst input.gunTime)
  others : (crossing.sourceRawRead :: duplicatesOf crossings.rejected crossing.id).Perm
    crossing.burstRawReads

/-- The reads looked at so far are accounted for. `unmapped` are the suppressions of those whose
antenna covers nothing. -/
structure Accounted (newV5 : Uuid → String → Uuid) (input : DerivationInput)
    (unmapped : List RejectedRead) (seen : List StoredRawRead) (crossings : Crossings) :
    Prop where
  ids : (crossings.accepted.map (·.sourceRawRead) ++ crossings.rejected.map (·.rawRead)).Perm
    (seen.map fun stored => stored.read.id)
  unmapped : crossings.rejected.filter (fun entry => isUnmapped entry.reason) = unmapped
  pointed : ∀ entry ∈ crossings.rejected, ∀ id, duplicates id entry.reason = true →
    ∃ crossing ∈ crossings.accepted, crossing.id = id
  credited : ∀ crossing ∈ crossings.accepted, ∃ chip checkpoint burst chosen,
    Credited newV5 input seen crossings crossing chip checkpoint burst chosen

/-- A burst is suppressed whole, for a reason of its own, or credited with the read that the rule
selects. -/
theorem credit_burst_cases (chip : ChipId) (checkpoint : CheckpointId) (crossings : Crossings)
    (lastCredited : Option (OffsetDateTime × Bool)) (burst : List StoredRawRead) :
    (∃ reason : StoredRawRead → RejectionReason,
      (∀ stored, isUnmapped (reason stored) = false ∧
        ∀ id, duplicates id (reason stored) = false) ∧
      creditBurst newV5 input chip checkpoint (crossings, lastCredited) burst =
        (crossings.reject burst reason, lastCredited)) ∨
    ∃ chosen, select burst (input.policy.selectionRuleFor checkpoint) = some chosen ∧
      creditBurst newV5 input chip checkpoint (crossings, lastCredited) burst =
        (crossings.credit (crossingOf newV5 input chip checkpoint burst chosen)
          (onTheRaceSide burst input.gunTime) burst,
          some (chosen.read.authoritativeTimestamp, onTheRaceSide burst input.gunTime)) := by
  unfold creditBurst
  cases hselect : select burst (input.policy.selectionRuleFor checkpoint) with
  | none =>
      simp only [hselect]
      exact Or.inl ⟨_, fun _ => ⟨rfl, fun _ => rfl⟩, rfl⟩
  | some chosen =>
      simp only [hselect]
      cases hlap : lapViolation input.policy lastCredited chosen.read.authoritativeTimestamp
          (onTheRaceSide burst input.gunTime) with
      | none =>
          exact Or.inr ⟨chosen, rfl, rfl⟩
      | some lap =>
          exact Or.inl ⟨_, fun _ => ⟨rfl, fun _ => rfl⟩, rfl⟩

/-- The name of a read's crossing is one of the input's names. -/
theorem accepted_name_mem {stored : StoredRawRead} (hmem : stored ∈ input.reads) {chip : ChipId}
    {checkpoint : CheckpointId} (hplace : placeOf input stored = some (toLex (chip, checkpoint))) :
    acceptedName checkpoint chip stored.read.id ∈ acceptedNames input :=
  List.mem_filterMap.mpr ⟨stored, hmem, by rw [hplace]; rfl⟩

/-- Crossings with one identifier were credited with one read. -/
theorem source_eq_of_id_eq (hnames : NoCollision newV5 input) {seen seen' : List StoredRawRead}
    (hseen : ∀ stored ∈ seen, stored ∈ input.reads)
    (hseen' : ∀ stored ∈ seen', stored ∈ input.reads)
    {crossings crossings' : Crossings} {crossing crossing' : AcceptedRead} {chip chip' : ChipId}
    {checkpoint checkpoint' : CheckpointId} {burst burst' : List StoredRawRead}
    {chosen chosen' : StoredRawRead}
    (h : Credited newV5 input seen crossings crossing chip checkpoint burst chosen)
    (h' : Credited newV5 input seen' crossings' crossing' chip' checkpoint' burst' chosen')
    (hid : crossing.id = crossing'.id) : crossing.sourceRawRead = crossing'.sourceRawRead := by
  rw [h.built, h'.built] at hid ⊢
  -- equal identifiers are hashes of equal names, and a name ends in its read
  have hname := hnames
    (accepted_name_mem (hseen _ (h.reads _ h.source)) h.place)
    (accepted_name_mem (hseen' _ (h'.reads _ h'.source)) h'.place) (congrArg Id.uuid hid)
  exact accepted_name_injective hname

/-! ## One burst -/

theorem duplicates_of_append (rejected rejected' : List RejectedRead) (accepted : AcceptedReadId) :
    duplicatesOf (rejected ++ rejected') accepted =
      duplicatesOf rejected accepted ++ duplicatesOf rejected' accepted := by
  rw [duplicatesOf, List.filter_append, List.map_append]
  rfl

/-- Suppressions with other reasons are duplicates of nothing. -/
theorem duplicates_of_eq_nil {rejected : List RejectedRead} {accepted : AcceptedReadId}
    (h : ∀ entry ∈ rejected, duplicates accepted entry.reason = false) :
    duplicatesOf rejected accepted = [] := by
  rw [duplicatesOf, List.filter_eq_nil_iff.mpr fun entry hentry => by simp [h entry hentry],
    List.map_nil]

/-- A crossing stays credited while the suppressions that are added duplicate others and its side
stays recorded. -/
theorem Credited.grow {seen seen' : List StoredRawRead} {crossings crossings' : Crossings}
    {crossing : AcceptedRead} {chip : ChipId} {checkpoint : CheckpointId}
    {burst : List StoredRawRead} {chosen : StoredRawRead} {rejected : List RejectedRead}
    (h : Credited newV5 input seen crossings crossing chip checkpoint burst chosen)
    (hside : crossings'.raceSides[crossing.id]? = crossings.raceSides[crossing.id]?)
    (hrejected : crossings'.rejected = crossings.rejected ++ rejected)
    (hothers : ∀ entry ∈ rejected, duplicates crossing.id entry.reason = false) :
    Credited newV5 input (seen ++ seen') crossings' crossing chip checkpoint burst chosen where
  reads stored hstored := List.mem_append_left _ (h.reads stored hstored)
  source := h.source
  place := h.place
  built := h.built
  side := hside.trans h.side
  others := by
    rw [hrejected, duplicates_of_append, duplicates_of_eq_nil hothers, List.append_nil]
    exact h.others

/-- A burst that is suppressed whole is accounted for. -/
theorem Accounted.reject {unmapped : List RejectedRead} {seen : List StoredRawRead}
    {crossings : Crossings} (h : Accounted newV5 input unmapped seen crossings)
    (burst : List StoredRawRead) {reason : StoredRawRead → RejectionReason}
    (hreason : ∀ stored, isUnmapped (reason stored) = false ∧
      ∀ id, duplicates id (reason stored) = false) :
    Accounted newV5 input unmapped (seen ++ burst) (crossings.reject burst reason) := by
  have hnew : ∀ entry ∈ burst.map fun stored => (⟨stored.read.id, reason stored⟩ : RejectedRead),
      isUnmapped entry.reason = false ∧ ∀ id, duplicates id entry.reason = false :=
    List.forall_mem_map.mpr fun stored _ => hreason stored
  refine ⟨?_, ?_, fun entry hentry id hid => ?_, fun crossing hcrossing => ?_⟩
  · rw [Crossings.reject, List.map_append, List.map_append, List.map_map, ← List.append_assoc]
    exact h.ids.append_right _
  · rw [Crossings.reject, List.filter_append, h.unmapped,
      List.filter_eq_nil_iff.mpr fun entry hentry => by simp [(hnew entry hentry).1],
      List.append_nil]
  · rcases List.mem_append.mp hentry with hentry | hentry
    · exact h.pointed entry hentry id hid
    · rw [(hnew entry hentry).2 id] at hid
      cases hid
  · obtain ⟨chip, checkpoint, from', chosen, hcredited⟩ := h.credited crossing hcrossing
    exact ⟨chip, checkpoint, from', chosen,
      hcredited.grow rfl rfl fun entry hentry => (hnew entry hentry).2 _⟩

/-- The other reads of a credited burst, suppressed as duplicates of its crossing. -/
def duplicatesIn (crossing : AcceptedRead) (others : List StoredRawRead) : List RejectedRead :=
  others.map fun stored => ⟨stored.read.id, .duplicateWithinWindow crossing.id
    (i64OrMax (stored.read.authoritativeTimestamp - crossing.at).wholeMilliseconds)⟩

/-- The duplicates of a crossing are not unmapped, and point at it alone. -/
theorem reason_of_mem_duplicates_in {crossing : AcceptedRead} {others : List StoredRawRead}
    {entry : RejectedRead} (h : entry ∈ duplicatesIn crossing others) :
    isUnmapped entry.reason = false ∧
      ∀ id, duplicates id entry.reason = decide (crossing.id = id) := by
  obtain ⟨stored, _, rfl⟩ := List.mem_map.mp h
  exact ⟨rfl, fun _ => rfl⟩

theorem raw_reads_duplicates_in (crossing : AcceptedRead) (others : List StoredRawRead) :
    (duplicatesIn crossing others).map (·.rawRead) = others.map fun stored => stored.read.id := by
  rw [duplicatesIn, List.map_map]
  rfl

theorem duplicates_of_duplicates_in (crossing : AcceptedRead) (others : List StoredRawRead) :
    duplicatesOf (duplicatesIn crossing others) crossing.id =
      others.map fun stored => stored.read.id := by
  have hall : ∀ entry ∈ duplicatesIn crossing others,
      duplicates crossing.id entry.reason = true := by
    intro entry hentry
    rw [(reason_of_mem_duplicates_in hentry).2]
    exact decide_eq_true rfl
  rw [duplicatesOf, List.filter_eq_self.mpr hall, raw_reads_duplicates_in]

/-- No crossing so far has the identifier of a new read's crossing: it would have been credited
with that read. -/
theorem Accounted.id_ne_of_new (hnames : NoCollision newV5 input) {unmapped : List RejectedRead}
    {seen burst : List StoredRawRead} {crossings : Crossings}
    (h : Accounted newV5 input unmapped seen crossings)
    (hseen : ∀ stored ∈ seen, stored ∈ input.reads) {chip : ChipId} {checkpoint : CheckpointId}
    {chosen : StoredRawRead} (hchosen : chosen ∈ input.reads)
    (hplace : placeOf input chosen = some (toLex (chip, checkpoint)))
    (hnew : ∀ stored ∈ seen, stored.read.id ≠ chosen.read.id) :
    ∀ other ∈ crossings.accepted,
      other.id ≠ (crossingOf newV5 input chip checkpoint burst chosen).id := by
  intro other hother hid
  obtain ⟨_, _, _, source, hcredited⟩ := h.credited other hother
  have hsource := hcredited.reads source hcredited.source
  have hname := hnames (accepted_name_mem (hseen _ hsource) hcredited.place)
    (accepted_name_mem hchosen hplace) (congrArg Id.uuid (hcredited.built ▸ hid))
  exact hnew source hsource (accepted_name_injective hname)

/-- No suppression so far points at a crossing that is not there yet. -/
theorem Accounted.duplicates_of_new {unmapped : List RejectedRead} {seen : List StoredRawRead}
    {crossings : Crossings} (h : Accounted newV5 input unmapped seen crossings)
    {id : AcceptedReadId} (hfresh : ∀ other ∈ crossings.accepted, other.id ≠ id) :
    duplicatesOf crossings.rejected id = [] := by
  refine duplicates_of_eq_nil fun entry hentry => ?_
  by_contra htrue
  obtain ⟨other, hother, hid⟩ := h.pointed entry hentry id (Bool.eq_true_of_not_eq_false htrue)
  exact hfresh other hother hid

/-- A burst that is credited is accounted for, when its reads are new. -/
theorem Accounted.credit (hnames : NoCollision newV5 input) {unmapped : List RejectedRead}
    {seen burst : List StoredRawRead} {crossings : Crossings}
    (h : Accounted newV5 input unmapped seen crossings)
    (hreads : ∀ stored ∈ seen ++ burst, stored ∈ input.reads)
    (hnodup : ((seen ++ burst).map fun stored => stored.read.id).Nodup) {chip : ChipId}
    {checkpoint : CheckpointId}
    (hplace : ∀ stored ∈ burst, placeOf input stored = some (toLex (chip, checkpoint)))
    {chosen : StoredRawRead} (hchosen : chosen ∈ burst) :
    Accounted newV5 input unmapped (seen ++ burst)
      (crossings.credit (crossingOf newV5 input chip checkpoint burst chosen)
        (onTheRaceSide burst input.gunTime) burst) := by
  let crossing := crossingOf newV5 input chip checkpoint burst chosen
  let others := burst.filter fun stored => stored.read.id ≠ chosen.read.id
  obtain ⟨_, hburst, hdisjoint⟩ := List.nodup_append.mp (List.map_append ▸ hnodup)
  have hallIds := (cons_filter_ne_perm hburst hchosen).map fun stored => stored.read.id
  have hfresh : ∀ other ∈ crossings.accepted, other.id ≠ crossing.id := by
    refine h.id_ne_of_new hnames (fun stored hstored => hreads _ (List.mem_append_left _ hstored))
      (hreads _ (List.mem_append_right _ hchosen)) (hplace _ hchosen) fun stored hstored => ?_
    exact hdisjoint _ (List.mem_map_of_mem hstored) _ (List.mem_map_of_mem hchosen)
  refine ⟨?_, ?_, fun entry hentry id hid => ?_, fun other hother => ?_⟩
  · show ((crossings.accepted ++ [crossing]).map (·.sourceRawRead) ++
      (crossings.rejected ++ duplicatesIn crossing others).map (·.rawRead)).Perm _
    rw [List.map_append, List.map_append, List.map_append, raw_reads_duplicates_in]
    refine List.Perm.trans ?_ (h.ids.append hallIds)
    simp only [List.append_assoc, List.map_cons, List.map_nil, List.singleton_append]
    exact List.perm_middle.symm.append_left _
  · show (crossings.rejected ++ duplicatesIn crossing others).filter _ = unmapped
    rw [List.filter_append, h.unmapped, List.filter_eq_nil_iff.mpr fun entry hentry => by
      simp [(reason_of_mem_duplicates_in hentry).1], List.append_nil]
  · rcases List.mem_append.mp hentry with hentry | hentry
    · obtain ⟨other, hother, rfl⟩ := h.pointed entry hentry id hid
      exact ⟨other, List.mem_append_left _ hother, rfl⟩
    · rw [(reason_of_mem_duplicates_in hentry).2 id] at hid
      exact ⟨crossing, List.mem_append_right _ (List.mem_singleton_self _), of_decide_eq_true hid⟩
  · rcases List.mem_append.mp hother with hother | hother
    · -- a crossing from before keeps its side and its duplicates
      obtain ⟨chip', checkpoint', burst', chosen', hcredited⟩ := h.credited other hother
      refine ⟨chip', checkpoint', burst', chosen', hcredited.grow ?_ rfl fun entry hentry => ?_⟩
      · show (crossings.raceSides.insert crossing.id _)[other.id]? = _
        rw [ExtTreeMap.getElem?_insert, if_neg]
        exact fun heq => hfresh other hother (compare_eq_iff_eq.mp heq).symm
      · rw [(reason_of_mem_duplicates_in hentry).2]
        exact decide_eq_false fun heq => hfresh other hother heq.symm
    · -- the new one has the rest of its burst as duplicates
      rw [List.mem_singleton.mp hother]
      refine ⟨chip, checkpoint, burst, chosen, fun stored hstored =>
        List.mem_append_right _ hstored, hchosen, hplace _ hchosen, rfl, ?_, ?_⟩
      · show (crossings.raceSides.insert crossing.id _)[crossing.id]? = _
        rw [ExtTreeMap.getElem?_insert_self]
      · show (crossing.sourceRawRead ::
          duplicatesOf (crossings.rejected ++ duplicatesIn crossing others) crossing.id).Perm _
        rw [duplicates_of_append, h.duplicates_of_new hfresh, duplicates_of_duplicates_in]
        exact hallIds

/-! ## Groups -/

/-- The bursts of one group are accounted for. -/
theorem Accounted.bursts (hnames : NoCollision newV5 input) {unmapped : List RejectedRead}
    {seen : List StoredRawRead} {crossings : Crossings}
    (h : Accounted newV5 input unmapped seen crossings) {bursts : List (List StoredRawRead)}
    (hreads : ∀ stored ∈ seen ++ bursts.flatten, stored ∈ input.reads)
    (hnodup : ((seen ++ bursts.flatten).map fun stored => stored.read.id).Nodup) {chip : ChipId}
    {checkpoint : CheckpointId}
    (hplace : ∀ stored ∈ bursts.flatten, placeOf input stored = some (toLex (chip, checkpoint)))
    (lastCredited : Option (OffsetDateTime × Bool)) :
    Accounted newV5 input unmapped (seen ++ bursts.flatten)
      (bursts.foldl (creditBurst newV5 input chip checkpoint) (crossings, lastCredited)).1 := by
  induction bursts generalizing seen crossings lastCredited with
  | nil => rwa [List.flatten_nil, List.append_nil]
  | cons burst bursts ih =>
      rw [List.flatten_cons, ← List.append_assoc] at hreads hnodup ⊢
      have hburst : ∀ stored ∈ burst, placeOf input stored = some (toLex (chip, checkpoint)) :=
        fun stored hstored => hplace stored (List.mem_append_left _ hstored)
      have hrest := fun stored hstored => hplace stored (List.mem_append_right burst hstored)
      rw [List.foldl_cons]
      rcases @credit_burst_cases newV5 input chip checkpoint crossings lastCredited burst with
        ⟨reason, hreason, heq⟩ | ⟨chosen, hselect, heq⟩
      · rw [heq]
        exact ih (h.reject burst hreason) hreads hnodup hrest _
      · rw [heq]
        refine ih (h.credit hnames ?_ ?_ hburst (mem_of_select hselect)) hreads hnodup hrest _
        · exact fun stored hstored => hreads stored (List.mem_append_left _ hstored)
        · rw [List.map_append] at hnodup
          exact hnodup.of_append_left

/-- A group is accounted for, its reads in order. -/
theorem Accounted.group (hnames : NoCollision newV5 input) {unmapped : List RejectedRead}
    {seen : List StoredRawRead} {crossings : Crossings}
    (h : Accounted newV5 input unmapped seen crossings)
    {group : (ChipId ×ₗ CheckpointId) × List StoredRawRead}
    (hreads : ∀ stored ∈ seen ++ inOrder group.2, stored ∈ input.reads)
    (hnodup : ((seen ++ inOrder group.2).map fun stored => stored.read.id).Nodup)
    (hplace : ∀ stored ∈ group.2, placeOf input stored = some group.1) :
    Accounted newV5 input unmapped (seen ++ inOrder group.2)
      (creditGroup newV5 input crossings group) := by
  have hflatten := flatten_split_into_bursts (inOrder group.2)
    (windowAt input (ofLex group.1).2)
  rw [← hflatten] at hreads hnodup
  have hgroup : ∀ stored ∈ (splitIntoBursts (inOrder group.2)
      (windowAt input (ofLex group.1).2)).flatten,
      placeOf input stored = some (toLex ((ofLex group.1).1, (ofLex group.1).2)) := by
    intro stored hstored
    rw [hflatten] at hstored
    exact hplace stored (mem_sort_by_key.mp hstored)
  have hbursts := h.bursts hnames hreads hnodup hgroup none
  rw [hflatten] at hbursts
  exact hbursts

/-- The groups are accounted for, one after another. -/
theorem Accounted.groups (hnames : NoCollision newV5 input) {unmapped : List RejectedRead}
    {seen : List StoredRawRead} {crossings : Crossings}
    (h : Accounted newV5 input unmapped seen crossings)
    {groups : List ((ChipId ×ₗ CheckpointId) × List StoredRawRead)}
    (hreads : ∀ stored ∈ seen ++ groups.flatMap fun group => inOrder group.2,
      stored ∈ input.reads)
    (hnodup : ((seen ++ groups.flatMap fun group => inOrder group.2).map
      fun stored => stored.read.id).Nodup)
    (hplace : ∀ group ∈ groups, ∀ stored ∈ group.2, placeOf input stored = some group.1) :
    Accounted newV5 input unmapped (seen ++ groups.flatMap fun group => inOrder group.2)
      (groups.foldl (creditGroup newV5 input) crossings) := by
  induction groups generalizing seen crossings with
  | nil => rwa [List.flatMap_nil, List.append_nil]
  | cons group groups ih =>
      rw [List.flatMap_cons, ← List.append_assoc] at hreads hnodup ⊢
      refine ih (h.group hnames ?_ ?_ (hplace group List.mem_cons_self)) hreads hnodup
        fun other hother => hplace other (List.mem_cons_of_mem _ hother)
      · exact fun stored hstored => hreads stored (List.mem_append_left _ hstored)
      · rw [List.map_append] at hnodup
        exact hnodup.of_append_left

/-! ## Derivation -/

/-- The reads whose antenna covers no checkpoint. -/
def unmappedReads (input : DerivationInput) : List StoredRawRead :=
  input.reads.filter fun stored => (placeOf input stored).isNone

/-- The first loop groups the reads that have a place and suppresses the others. -/
theorem group_reads_eq (input : DerivationInput) :
    input.reads.foldl (groupRead input) (∅, []) =
      (groupBy (placeOf input) input.reads, (unmappedReads input).map unmapped) := by
  have hfold : ∀ (reads : List StoredRawRead) groups rejected,
      reads.foldl (groupRead input) (groups, rejected) =
        (reads.foldl (fun groups stored =>
            (placeOf input stored).elim groups fun place => push groups place stored) groups,
          rejected ++ (reads.filter fun stored => (placeOf input stored).isNone).map unmapped) := by
    intro reads
    induction reads with
    | nil => simp
    | cons stored reads ih =>
        intro groups rejected
        rw [List.foldl_cons, List.foldl_cons, groupRead]
        cases hplace : placeOf input stored with
        | none => simp [ih, hplace]
        | some place => simp [ih, hplace]
  exact hfold input.reads ∅ []

/-- The loops account for every read. -/
theorem credit_groups_accounted (hids : (input.reads.map fun stored => stored.read.id).Nodup)
    (hnames : NoCollision newV5 input) :
    ∃ seen, seen.Perm input.reads ∧
      Accounted newV5 input ((unmappedReads input).map unmapped) seen
        (creditGroups newV5 input) := by
  let groups := (groupBy (placeOf input) input.reads).toList
  have hperm : (unmappedReads input ++ groups.flatMap fun group => inOrder group.2).Perm
      input.reads := by
    have hgroups : (groups.flatMap fun group => inOrder group.2).Perm
        (input.reads.filter fun stored => (placeOf input stored).isSome) :=
      (List.Perm.flatMap_left _ fun group _ => sort_by_key_perm _ group.2).trans
        (flat_map_to_list_group_by _ _)
    have hsplit := List.filter_append_perm (fun stored => (placeOf input stored).isNone)
      input.reads
    refine (hgroups.append_left _).trans (List.Perm.trans (List.Perm.of_eq ?_) hsplit)
    simp [unmappedReads]
  have hstart : Accounted newV5 input ((unmappedReads input).map unmapped) (unmappedReads input)
      ⟨[], ∅, (unmappedReads input).map unmapped⟩ := by
    have hreason : ∀ entry ∈ (unmappedReads input).map unmapped, isUnmapped entry.reason = true ∧
        ∀ id, duplicates id entry.reason = false :=
      List.forall_mem_map.mpr fun _ _ => ⟨rfl, fun _ => rfl⟩
    refine ⟨?_, ?_, fun entry hentry id hid => ?_, fun crossing hcrossing => ?_⟩
    · rw [List.map_nil, List.nil_append, List.map_map]
      rfl
    · exact List.filter_eq_self.mpr fun entry hentry => (hreason entry hentry).1
    · rw [(hreason entry hentry).2] at hid
      cases hid
    · cases hcrossing
  refine ⟨_, hperm, ?_⟩
  rw [creditGroups, group_reads_eq]
  refine hstart.groups hnames (fun stored hstored => hperm.mem_iff.mp hstored)
    ((hperm.map _).nodup_iff.mpr hids) fun group hgroup stored hstored => ?_
  have hentry : group ∈ (groupBy (placeOf input) input.reads).toList := hgroup
  rw [to_list_group_by] at hentry
  obtain ⟨place, _, rfl⟩ := List.mem_map.mp hentry
  exact (mem_items_with.mp hstored).2

/-- Crossings have different identifiers. -/
theorem Accounted.accepted_ids_nodup (hnames : NoCollision newV5 input)
    {unmapped : List RejectedRead} {seen : List StoredRawRead} {crossings : Crossings}
    (h : Accounted newV5 input unmapped seen crossings)
    (hseen : ∀ stored ∈ seen, stored ∈ input.reads)
    (hids : (seen.map fun stored => stored.read.id).Nodup) :
    (crossings.accepted.map (·.id)).Nodup := by
  have hsources : (crossings.accepted.map (·.sourceRawRead)).Nodup :=
    (h.ids.nodup_iff.mpr hids).of_append_left
  rw [List.Nodup, List.pairwise_map] at hsources ⊢
  refine hsources.imp_of_mem fun {first second} hfirst hsecond hne hid => hne ?_
  obtain ⟨_, _, _, _, hcredited⟩ := h.credited first hfirst
  obtain ⟨_, _, _, _, hcredited'⟩ := h.credited second hsecond
  exact source_eq_of_id_eq hnames hseen hseen hcredited hcredited' hid

/-- The crossings of a derivation have different identifiers. -/
theorem derive_accepted_ids_nodup (hids : (input.reads.map fun stored => stored.read.id).Nodup)
    (hnames : NoCollision newV5 input) : ((derive newV5 input).accepted.map (·.id)).Nodup := by
  obtain ⟨seen, hseen, h⟩ := credit_groups_accounted hids hnames
  have hperm : (derive newV5 input).accepted.Perm (creditGroups newV5 input).accepted :=
    sort_by_key_perm _ _
  exact (hperm.map _).nodup_iff.mpr (h.accepted_ids_nodup hnames
    (fun stored hstored => hseen.mem_iff.mp hstored) ((hseen.map _).nodup_iff.mpr hids))

/-- Derivation loses and duplicates no evidence: every read is the credited read of one crossing
or suppressed once, a crossing's burst is its read and the duplicates that point at it, and the
reads suppressed as unmapped are those whose antenna covers nothing. -/
theorem no_evidence_lost (newV5 : Uuid → String → Uuid) (input : DerivationInput)
    (hids : (input.reads.map fun stored => stored.read.id).Nodup)
    (hnames : NoCollision newV5 input) :
    let derivation := derive newV5 input
    let accounted := derivation.accepted.map (·.sourceRawRead) ++
      derivation.rejected.map (·.rawRead)
    accounted.Nodup ∧ accounted.Perm (input.reads.map fun stored => stored.read.id) ∧
    (∀ crossing ∈ derivation.accepted, crossing.burstRawReads.Perm
      (crossing.sourceRawRead :: duplicatesOf derivation.rejected crossing.id)) ∧
    ∀ stored ∈ input.reads,
      (∃ entry ∈ derivation.rejected, entry.rawRead = stored.read.id ∧
        isUnmapped entry.reason = true) ↔
      input.antennas.resolve stored.read.source stored.read.antenna = none := by
  intro derivation accounted
  obtain ⟨seen, hseen, h⟩ := credit_groups_accounted hids hnames
  have haccepted : derivation.accepted.Perm (creditGroups newV5 input).accepted :=
    sort_by_key_perm _ _
  have hrejected : derivation.rejected.Perm (creditGroups newV5 input).rejected :=
    sort_by_key_perm _ _
  have hperm : accounted.Perm (input.reads.map fun stored => stored.read.id) :=
    ((haccepted.map _).append (hrejected.map _)).trans (h.ids.trans (hseen.map _))
  refine ⟨hperm.nodup_iff.mpr hids, hperm, fun crossing hcrossing => ?_, fun stored hstored => ?_⟩
  · obtain ⟨chip, checkpoint, burst, chosen, hcredited⟩ :=
      h.credited crossing (haccepted.mem_iff.mp hcrossing)
    have hduplicates := (hrejected.filter fun entry => duplicates crossing.id entry.reason).map
      RejectedRead.rawRead
    exact hcredited.others.symm.trans (hduplicates.symm.cons _)
  · have hplace : placeOf input stored = none ↔
        input.antennas.resolve stored.read.source stored.read.antenna = none :=
      Option.map_eq_none_iff
    have hfilter (entry : RejectedRead) : entry ∈ derivation.rejected ∧
        isUnmapped entry.reason = true ↔ entry ∈ (unmappedReads input).map unmapped := by
      rw [hrejected.mem_iff, ← h.unmapped, List.mem_filter]
    rw [← hplace]
    constructor
    · rintro ⟨entry, hentry, hid, hunmapped⟩
      obtain ⟨other, hother, rfl⟩ := List.mem_map.mp ((hfilter entry).mp ⟨hentry, hunmapped⟩)
      obtain ⟨hmem, hnone⟩ := List.mem_filter.mp hother
      have hsame : other = stored := List.inj_on_of_nodup_map hids hmem hstored hid
      rw [← hsame]
      exact Option.isNone_iff_eq_none.mp hnone
    · intro hnone
      have hmem : unmapped stored ∈ (unmappedReads input).map unmapped :=
        List.mem_map_of_mem (List.mem_filter.mpr
          ⟨hstored, Option.isNone_iff_eq_none.mpr hnone⟩)
      obtain ⟨hentry, hunmapped⟩ := (hfilter _).mpr hmem
      exact ⟨_, hentry, rfl, hunmapped⟩

/-- The identifiers the hash gives the names of the sample. -/
def sampleV5 (_ : Uuid) (name : String) : Uuid :=
  if name = "accepted-read\x1f00000000-0000-0000-0000-000000000007\x1fE28011\x1f" ++
      "00000000-0000-0000-0000-000000000001" then .fromU128 0x8f99fc9acfc9567ab1a3988b29f5d886
  else if name = "accepted-read\x1f00000000-0000-0000-0000-000000000007\x1fE28011\x1f" ++
      "00000000-0000-0000-0000-000000000002" then .fromU128 0xf1ccce93351b504aa3d3718b4e296b81
  else if name = "timing-event\x1f00000000-0000-0000-0000-000000000009\x1f" ++
      "00000000-0000-0000-0000-000000000007\x1f1\x1f8f99fc9a-cfc9-567a-b1a3-988b29f5d886" then
    .fromU128 0x8840280919c151d7a88e052295cf921c
  else .fromU128 0x15218a39a129594eadbd6b0ee6652a3a

/-- A read of the sample. -/
def sampleRead (seq : Nat) (source : ReaderId) (seconds : UInt8) : StoredRawRead where
  seq := seq
  recordedAt := second seconds
  payloadSha256 := ""
  read := {
    id := ⟨.fromU128 seq⟩
    source
    antenna := some 1
    chip := ⟨"E28011"⟩
    readerTimestamp := none
    readerUptimeUs := none
    receivedAt := second seconds
    receivedAtMonotonicNs := none
    rssiDbm := none
    deviceClockState := .unsynced
    timestampSource := .deviceReceipt .noReaderTimestamp
    clockOffsetMs := none
    rawPayload := [] }

/-- A chip seen twice at one checkpoint and once by a reader that is not mapped, and a manual entry
for the runner who wears it. -/
def sample : DerivationInput where
  reads := [sampleRead 1 ⟨"gate"⟩ 10, sampleRead 2 ⟨"gate"⟩ 11, sampleRead 3 ⟨"spare"⟩ 12]
  policy := ⟨3000, .first, none, ∅⟩
  chips := ⟨(∅ : ExtTreeMap ChipId (List ChipAssignment)).insert ⟨"E28011"⟩
    [⟨⟨"E28011"⟩, ⟨.fromU128 9⟩, ⟨.fromU128 4⟩, second 0, none⟩]⟩
  antennas := ⟨∅, (∅ : ExtTreeMap ReaderId CheckpointId).insert ⟨"gate"⟩ ⟨.fromU128 7⟩⟩
  manual := [⟨⟨.fromU128 5⟩, ⟨.fromU128 4⟩, ⟨.fromU128 9⟩, ⟨.fromU128 7⟩,
    second 60, "timer", "chip failed"⟩]
  gunTime := some (second 11)

theorem sample_names : acceptedNames sample =
    ["accepted-read\x1f00000000-0000-0000-0000-000000000007\x1fE28011\x1f" ++
        "00000000-0000-0000-0000-000000000001",
      "accepted-read\x1f00000000-0000-0000-0000-000000000007\x1fE28011\x1f" ++
        "00000000-0000-0000-0000-000000000002"] := by
  decide +kernel

theorem sample_no_collision : NoCollision sampleV5 sample := by
  intro name hname name' hname' heq
  change name ∈ acceptedNames sample at hname
  change name' ∈ acceptedNames sample at hname'
  rw [sample_names] at hname hname'
  simp only [List.mem_cons, List.not_mem_nil, or_false] at hname hname'
  rcases hname with rfl | rfl <;> rcases hname' with rfl | rfl
  · rfl
  · exact absurd heq (by decide)
  · exact absurd heq (by decide)
  · rfl

/-- The sample's reads are accounted for. -/
theorem no_evidence_lost_sample :
    let derivation := derive sampleV5 sample
    (derivation.accepted.map (·.sourceRawRead) ++ derivation.rejected.map (·.rawRead)).Perm
      (sample.reads.map fun stored => stored.read.id) :=
  (no_evidence_lost sampleV5 sample (by decide) sample_no_collision).2.1

end Splitforge.Engine
