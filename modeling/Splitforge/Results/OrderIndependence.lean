import Splitforge.Results.Crossings
import Splitforge.Results.Places

/-!
# Scoring does not depend on the order of its input

What is looked up for a participant is the same in any order of the events and declarations, so
the lines built are the same up to their order. Placing gives each line the rank of its time, and
publication sorts by a key that ends in the participant, so the entries come out as one list.
-/

namespace Splitforge.Results

open Splitforge.Domain Splitforge.Library

/-- An error without the names it lists. -/
def ScoringError.unnamed : ScoringError → ScoringError
  | .multipleFinishCheckpoints count _ => .multipleFinishCheckpoints count ""
  | .multipleStartCheckpoints count _ => .multipleStartCheckpoints count ""
  | .noFinishCheckpoint => .noFinishCheckpoint
  | .chipTimeWithoutStartCheckpoint => .chipTimeWithoutStartCheckpoint

/-- Computations that agree up to the names in their errors still do when they go on alike. -/
theorem map_error_bind {First Second : Type} {found found' : Except ScoringError First}
    {next next' : First → Except ScoringError Second}
    (hfound : found.mapError ScoringError.unnamed = found'.mapError ScoringError.unnamed)
    (hnext : ∀ first, (next first).mapError ScoringError.unnamed =
      (next' first).mapError ScoringError.unnamed) :
    (found >>= next).mapError ScoringError.unnamed =
      (found' >>= next').mapError ScoringError.unnamed := by
  cases found with
  | error error =>
      cases found' with
      | error error' => exact congrArg Except.error (Except.error.inj hfound)
      | ok first' => cases hfound
  | ok first =>
      cases found' with
      | error error' => cases hfound
      | ok first' =>
          cases hfound
          exact hnext first

/-! ## The course -/

/-- The one checkpoint of a kind is the same in any order, and so is how many there are. -/
theorem sole_checkpoint_of_perm {checkpoints checkpoints' : List Checkpoint}
    (hperm : checkpoints.Perm checkpoints') (kind : CheckpointKind) :
    (soleCheckpoint checkpoints kind).mapError ScoringError.unnamed =
      (soleCheckpoint checkpoints' kind).mapError ScoringError.unnamed := by
  have hsorted := (sort_by_key_perm (fun checkpoint : Checkpoint => checkpoint.sequence.toNat)
    (checkpoints.filter fun checkpoint => checkpoint.kind = kind)).trans
      ((hperm.filter _).trans (sort_by_key_perm (fun checkpoint => checkpoint.sequence.toNat)
        (checkpoints'.filter fun checkpoint => checkpoint.kind = kind)).symm)
  unfold soleCheckpoint
  generalize sortByKey (fun checkpoint : Checkpoint => checkpoint.sequence.toNat)
    (checkpoints.filter fun checkpoint => checkpoint.kind = kind) = sorted at hsorted ⊢
  generalize sortByKey (fun checkpoint : Checkpoint => checkpoint.sequence.toNat)
    (checkpoints'.filter fun checkpoint => checkpoint.kind = kind) = sorted' at hsorted ⊢
  have hlength := hsorted.length_eq
  -- only the number of checkpoints decides, and a list of one is the same in any order
  match sorted, sorted' with
  | [], [] => rfl
  | [only], [only'] =>
      rw [List.perm_singleton.mp hsorted.symm]
  | first :: second :: rest, first' :: second' :: rest' =>
      show Except.error (ScoringError.unnamed _) = Except.error (ScoringError.unnamed _)
      rw [hlength]
      cases kind <;> rfl
  | [], _ :: _ => cases hlength
  | _ :: _, [] => cases hlength
  | [_], _ :: _ :: _ => simp at hlength
  | _ :: _ :: _, [_] => simp at hlength

/-- The lines of the course are found, or the same error is, in any order of its checkpoints. -/
theorem course_lines_of_perm {checkpoints checkpoints' : List Checkpoint}
    (hperm : checkpoints.Perm checkpoints') (startMode : StartMode) :
    (courseLines checkpoints startMode).mapError ScoringError.unnamed =
      (courseLines checkpoints' startMode).mapError ScoringError.unnamed := by
  unfold courseLines
  refine map_error_bind (sole_checkpoint_of_perm hperm .finish) fun line => ?_
  cases line with
  | none => rfl
  | some finish => exact map_error_bind (sole_checkpoint_of_perm hperm .start) fun _ => rfl

/-! ## Lines -/

/-- The line of a participant is the same in any order of the events and declarations. -/
theorem line_of_eq_of_perm {input : ScoringInput} (participants : List Participant)
    (checkpoints : List Checkpoint) {timingEvents : List TimingEvent}
    {declarations : List StatusDeclaration} (hevents : input.timingEvents.Perm timingEvents)
    (hdeclarations : input.declarations.Perm declarations)
    (hids : (input.timingEvents.map (·.id)).Nodup)
    (hseqs : (input.declarations.map (·.seq)).Nodup) (finish : CheckpointId)
    (start : Option CheckpointId) :
    lineOf input finish start = lineOf
      ⟨participants, checkpoints, timingEvents, declarations, input.policy⟩ finish start := by
  funext participant
  have hcrossings (line : Option CheckpointId) :
      crossingsFrom input.policy.gunTime (eventsAt input.timingEvents participant.id line) =
        crossingsFrom input.policy.gunTime (eventsAt timingEvents participant.id line) :=
    crossings_from_eq_of_perm (hids.sublist (List.filter_sublist.map _)) (hevents.filter _)
  have hstarted :
      (startedOf input.policy.gunTime start input.timingEvents).contains participant.id =
        (startedOf input.policy.gunTime start timingEvents).contains participant.id := by
    rw [Bool.eq_iff_iff, contains_started_of, contains_started_of]
    simp only [hevents.mem_iff]
  have hdeclared : (latestDeclarations input.declarations)[participant.id]? =
      (latestDeclarations declarations)[participant.id]? := by
    rw [get_latest_declarations, get_latest_declarations]
    refine least_by_key_eq_of_perm ?_ (hdeclarations.filter _)
    have hsublist : ((input.declarations.filter fun declaration =>
        declaration.participant = participant.id).map (·.seq)).Nodup :=
      hseqs.sublist (List.filter_sublist.map _)
    exact hsublist
  show buildEntry _ _ _ _ _ _ = buildEntry _ _ _ _ _ _
  rw [hcrossings, hcrossings, hstarted, hdeclared]

/-! ## Publication -/

/-- Entries of different participants are published as one list, whatever order they are in. -/
theorem publication_of_perm {entries entries' : List ResultEntry} (hperm : entries.Perm entries')
    (hids : (entries.map (·.participant)).Nodup) :
    sortForPublication (assignPlaces entries) = sortForPublication (assignPlaces entries') := by
  have hplaced : placed (placeTimes entries) = placed (placeTimes entries') := by
    funext entry
    have htimes : (placeTimes entries).Perm (placeTimes entries') := (hperm.filter _).map _
    rw [placed, placed, placeAmong, placeAmong, rank_eq_of_perm htimes]
  rw [assign_places_eq, assign_places_eq, ← hplaced]
  -- the order of a results sheet ends in the participant, who tells the entries apart
  refine sort_by_key_eq_of_perm ?_ (hperm.map _)
  have hparticipants : ((entries.map (placed (placeTimes entries))).map publicationKey).map
      (fun key => (ofLex (ofLex (ofLex (ofLex key).2).2).2).2) = entries.map (·.participant) := by
    rw [List.map_map, List.map_map]
    exact List.map_congr_left fun entry _ => participant_placed entry
  exact List.Nodup.of_map _ (hparticipants ▸ hids)

/-- The declaration in force is the one with the highest sequence. -/
theorem latest_declaration_iff {declarations : List StatusDeclaration}
    (hseqs : (declarations.map (·.seq)).Nodup) {participant : ParticipantId}
    {declaration : StatusDeclaration} :
    (latestDeclarations declarations)[participant]? = some declaration ↔
      declaration ∈ declarations ∧ declaration.participant = participant ∧
        ∀ other ∈ declarations, other.participant = participant → other.seq ≤ declaration.seq := by
  have hsublist : ((declarations.filter fun declaration =>
      declaration.participant = participant).map fun declaration =>
        OrderDual.toDual declaration.seq).Nodup :=
    hseqs.sublist (List.filter_sublist.map _)
  rw [get_latest_declarations, least_by_key_eq_some hsublist]
  simp only [List.mem_filter, decide_eq_true_eq, OrderDual.toDual_le_toDual, and_assoc, and_imp]

/-- Scoring does not depend on the order of its input: it returns the same entries in the same
order, or an error of the same kind with the same count; and the declaration in force for a
participant, which their entry shows, is the one with the highest sequence. -/
theorem score_order_independent (input : ScoringInput) {participants : List Participant}
    {checkpoints : List Checkpoint} {timingEvents : List TimingEvent}
    {declarations : List StatusDeclaration} (hparticipants : input.participants.Perm participants)
    (hcheckpoints : input.checkpoints.Perm checkpoints)
    (hevents : input.timingEvents.Perm timingEvents)
    (hdeclarations : input.declarations.Perm declarations)
    (hids : (input.participants.map (·.id)).Nodup)
    (heventIds : (input.timingEvents.map (·.id)).Nodup)
    (hseqs : (input.declarations.map (·.seq)).Nodup) :
    (score input).mapError ScoringError.unnamed =
      (score ⟨participants, checkpoints, timingEvents, declarations, input.policy⟩).mapError
        ScoringError.unnamed ∧
    ∀ entries, score input = .ok entries → ∀ entry ∈ entries, ∀ declaration ∈ input.declarations,
      declaration.participant = entry.participant →
      (∀ other ∈ input.declarations, other.participant = entry.participant →
        other.seq ≤ declaration.seq) →
      entry.status = declaration.status ∧ entry.statusSource = .declared ∧
        entry.statusReason = some declaration.reason := by
  refine ⟨map_error_bind (course_lines_of_perm hcheckpoints _) fun lines => ?_, ?_⟩
  · obtain ⟨finish, start⟩ := lines
    refine congrArg (Except.mapError ScoringError.unnamed ∘ Except.ok) ?_
    rw [build_entries_eq, build_entries_eq,
      line_of_eq_of_perm participants checkpoints hevents hdeclarations heventIds hseqs]
    refine publication_of_perm (hparticipants.map _) ?_
    rw [List.map_map]
    exact hids
  · intro entries hscore entry hentry declaration hdeclaration hparticipant hhighest
    obtain ⟨finish, start, _, rfl⟩ := score_eq_ok hscore
    rw [sortForPublication, mem_sort_by_key, assign_places_eq, build_entries_eq] at hentry
    obtain ⟨built, hbuilt, rfl⟩ := List.mem_map.mp hentry
    obtain ⟨participant, _, rfl⟩ := List.mem_map.mp hbuilt
    rw [participant_placed] at hparticipant hhighest
    have hlatest : (latestDeclarations input.declarations)[participant.id]? = some declaration :=
      (latest_declaration_iff hseqs).mpr ⟨hdeclaration, hparticipant, hhighest⟩
    have hline : (lineOf input finish start participant).status = declaration.status ∧
        (lineOf input finish start participant).statusSource = .declared ∧
        (lineOf input finish start participant).statusReason = some declaration.reason := by
      show (statusOf (latestDeclarations input.declarations)[participant.id]? _ _).1 = _ ∧
        (statusOf (latestDeclarations input.declarations)[participant.id]? _ _).2.1 = _ ∧
        (statusOf (latestDeclarations input.declarations)[participant.id]? _ _).2.2 = _
      rw [hlatest]
      exact ⟨rfl, rfl, rfl⟩
    unfold placed
    split
    · exact hline
    · exact hline

/-- The sample is scored the same with its runners and its crossings the other way round. -/
theorem score_order_independent_sample :
    (score sampleRace).mapError ScoringError.unnamed =
      (score ⟨sampleRace.participants.reverse, sampleRace.checkpoints.reverse,
        sampleRace.timingEvents.reverse, sampleRace.declarations,
        sampleRace.policy⟩).mapError ScoringError.unnamed :=
  (score_order_independent sampleRace (List.reverse_perm _).symm (List.reverse_perm _).symm
    (List.reverse_perm _).symm (List.Perm.refl _) (by decide) (by decide) (by decide)).1

end Splitforge.Results
