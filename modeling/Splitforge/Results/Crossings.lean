import Splitforge.Results.Score

/-!
# What scoring looks up

The crossings of a participant at a line, who started, the declaration in force, and the lines of
the course: each is collected in one pass, and each depends on the events, declarations and
checkpoints it is about and not on the order they came in.
-/

namespace Splitforge.Results

open Std (ExtTreeMap)
open Splitforge.Domain Splitforge.Library

/-! ## Crossings -/

/-- The events of a participant at a line. -/
def eventsAt (events : List TimingEvent) (participant : ParticipantId)
    (line : Option CheckpointId) : List TimingEvent :=
  events.filter fun event =>
    event.participant = participant ∧ line = some event.checkpoint

/-- The crossings of some events of one participant at one line. -/
def crossingsFrom (gun : Option OffsetDateTime) (events : List TimingEvent) : Crossings where
  counted := leastByKey order (events.filter fun event => !isBeforeGun gun event)
  beforeGun := leastByKey (fun event => OrderDual.toDual (order event))
    (events.filter fun event => isBeforeGun gun event)
  countedChip := leastByKey order
    (events.filter fun event => !isBeforeGun gun event && !isManual event)

/-- `add` keeps the earliest of what counts and the latest of what came before the gun. -/
theorem Crossings.add_eq (gun : Option OffsetDateTime) (crossings : Crossings)
    (event : TimingEvent) :
    crossings.add gun event =
      { counted :=
          if !isBeforeGun gun event then keepLeast order crossings.counted event
          else crossings.counted
        beforeGun :=
          if isBeforeGun gun event then
            keepLeast (fun event => OrderDual.toDual (order event)) crossings.beforeGun event
          else crossings.beforeGun
        countedChip :=
          if !isBeforeGun gun event && !isManual event then
            keepLeast order crossings.countedChip event
          else crossings.countedChip } := by
  unfold Crossings.add keepLeast
  -- the latest before the gun is the least in the reversed order
  cases isBeforeGun gun event with
  | true =>
      simp only [Bool.not_true, Bool.false_and, Bool.false_eq_true, if_false, if_true,
        OrderDual.toDual_lt_toDual]
      split <;> rfl
  | false =>
      simp only [Bool.not_false, Bool.true_and, Bool.false_eq_true, if_false, if_true]
      cases isManual event with
      | true => simp only [Bool.not_true, Bool.false_and, Bool.false_eq_true, if_false]
      | false => simp only [Bool.not_false, Bool.true_and, if_true]

/-- The crossings collected are the earliest and latest of the events. -/
theorem foldl_add_eq (gun : Option OffsetDateTime) (events : List TimingEvent) :
    events.foldl (Crossings.add gun) .empty = crossingsFrom gun events := by
  induction events using List.reverseRecOn with
  | nil => rfl
  | append_singleton events event ih =>
      rw [List.foldl_append, ih, List.foldl_cons, List.foldl_nil, Crossings.add_eq]
      unfold crossingsFrom
      simp only [least_by_key_filter_append_singleton]

/-- A participant's crossings of a line are those of their events there. -/
theorem crossings_at_eq (gun : Option OffsetDateTime) (events : List TimingEvent)
    (participant : ParticipantId) (line : Option CheckpointId) :
    crossingsAt (crossingsOf gun events) participant line =
      crossingsFrom gun (eventsAt events participant line) := by
  cases line with
  | none =>
      have hnil : eventsAt events participant none = [] :=
        List.filter_eq_nil_iff.mpr fun event _ => by simp
      rw [hnil]
      rfl
  | some line =>
      have hitems : itemsWith (fun event : TimingEvent =>
          some (toLex (event.participant, event.checkpoint))) (toLex (participant, line)) events =
          eventsAt events participant (some line) := by
        refine List.filter_congr fun event _ => decide_eq_decide.mpr ?_
        rw [Option.some_inj, toLex_inj, Prod.mk.injEq, Option.some_inj, eq_comm (a := line)]
      rw [crossingsAt, Option.bind_some, crossingsOf, get_d_accumulate, hitems, foldl_add_eq]

/-- Events with different identifiers give the same crossings in any order. -/
theorem crossings_from_eq_of_perm {gun : Option OffsetDateTime} {events events' : List TimingEvent}
    (hids : (events.map (·.id)).Nodup) (hperm : events.Perm events') :
    crossingsFrom gun events = crossingsFrom gun events' := by
  -- the identifier is a part of the key, so keys tell the events apart
  have hkeys (counts : TimingEvent → Bool) : ((events.filter counts).map order).Nodup := by
    have hsecond : ((events.filter counts).map order).map (fun key => (ofLex key).2) =
        (events.filter counts).map (·.id) := by
      rw [List.map_map]
      rfl
    exact List.Nodup.of_map _ (hsecond ▸ hids.sublist (List.filter_sublist.map _))
  have hdual (counts : TimingEvent → Bool) :
      ((events.filter counts).map fun event => OrderDual.toDual (order event)).Nodup :=
    hkeys counts
  unfold crossingsFrom
  rw [least_by_key_eq_of_perm (hkeys _) (hperm.filter _),
    least_by_key_eq_of_perm (hdual _) (hperm.filter _),
    least_by_key_eq_of_perm (hkeys _) (hperm.filter _)]

/-! ## Who started -/

/-- Somebody started when they were at the start line, or anywhere with the race on. -/
theorem contains_started_of {gun : Option OffsetDateTime} {start : Option CheckpointId}
    {events : List TimingEvent} {participant : ParticipantId} :
    (startedOf gun start events).contains participant = true ↔
      ∃ event ∈ events, event.participant = participant ∧
        (isBeforeGun gun event = false ∨ start = some event.checkpoint) := by
  rw [ExtTreeMap.contains_iff_mem, startedOf, mem_accumulate]
  refine exists_congr fun event => and_congr_right fun _ => ?_
  have hgun : (gun.all fun gun => gun ≤ event.at) = true ↔ isBeforeGun gun event = false := by
    cases gun <;> simp [isBeforeGun]
  simp only [hgun]
  split <;> simp_all

/-! ## Declarations -/

/-- The declaration in force for a participant is the one with the highest sequence. -/
theorem get_latest_declarations (declarations : List StatusDeclaration)
    (participant : ParticipantId) :
    (latestDeclarations declarations)[participant]? =
      leastByKey (fun declaration => OrderDual.toDual declaration.seq)
        (declarations.filter fun declaration => declaration.participant = participant) := by
  have hitems : itemsWith (fun declaration : StatusDeclaration => some declaration.participant)
      participant declarations =
        declarations.filter fun declaration => declaration.participant = participant :=
    List.filter_congr fun declaration _ => decide_eq_decide.mpr Option.some_inj
  rw [latestDeclarations, get_accumulate, hitems, leastByKey]
  congr 1
  funext held declaration
  unfold keepLeast
  cases held with
  | none => rfl
  | some held =>
      simp only [Option.all_some, OrderDual.toDual_lt_toDual, decide_eq_true_eq]
      split <;> rfl

/-! ## The course -/

/-- The line found for a kind is the checkpoint of that kind. -/
theorem line_of_sole_checkpoint {checkpoints : List Checkpoint} {kind : CheckpointKind}
    {line : Option CheckpointId} (h : soleCheckpoint checkpoints kind = .ok line)
    (id : CheckpointId) :
    line = some id ↔ ∃ checkpoint ∈ checkpoints, checkpoint.kind = kind ∧ checkpoint.id = id := by
  let matching := checkpoints.filter fun checkpoint => checkpoint.kind = kind
  let sorted := sortByKey (fun checkpoint : Checkpoint => checkpoint.sequence.toNat) matching
  have hmem (checkpoint : Checkpoint) :
      checkpoint ∈ sorted ↔ checkpoint ∈ checkpoints ∧ checkpoint.kind = kind := by
    rw [mem_sort_by_key, List.mem_filter, decide_eq_true_eq]
  have hline : line = some id ↔ ∃ checkpoint ∈ sorted, checkpoint.id = id := by
    unfold soleCheckpoint at h
    cases hsorted : sorted with
    | nil =>
        rw [show sortByKey _ _ = [] from hsorted] at h
        cases h
        simp
    | cons only rest =>
        rw [show sortByKey _ _ = only :: rest from hsorted] at h
        cases rest with
        | nil =>
            cases h
            simp
        | cons second rest => cases h
  rw [hline]
  simp only [hmem, and_assoc]

/-- The lines of a course are its checkpoints of the two kinds. -/
theorem sole_checkpoints_of_course_lines {checkpoints : List Checkpoint} {startMode : StartMode}
    {finish : CheckpointId} {start : Option CheckpointId}
    (h : courseLines checkpoints startMode = .ok (finish, start)) :
    soleCheckpoint checkpoints .finish = .ok (some finish) ∧
      soleCheckpoint checkpoints .start = .ok start := by
  unfold courseLines at h
  cases hfinish : soleCheckpoint checkpoints .finish with
  | error error =>
      rw [hfinish] at h
      cases h
  | ok line =>
      cases line with
      | none =>
          rw [hfinish] at h
          cases h
      | some finish' =>
          cases hstart : soleCheckpoint checkpoints .start with
          | error error =>
              rw [hfinish, hstart] at h
              cases h
          | ok start' =>
              rw [hfinish, hstart] at h
              simp only [bind, Except.bind] at h
              split at h <;> cases h
              exact ⟨rfl, rfl⟩

/-- Looking for the one checkpoint of a kind fails exactly when there are several. -/
theorem sole_checkpoint_cases (checkpoints : List Checkpoint) (kind : CheckpointKind) :
    let count := checkpoints.countP fun checkpoint => checkpoint.kind = kind
    (count = 0 ∧ soleCheckpoint checkpoints kind = .ok none) ∨
      (count = 1 ∧ ∃ line, soleCheckpoint checkpoints kind = .ok (some line)) ∨
      (1 < count ∧ ∃ error, soleCheckpoint checkpoints kind = .error error) := by
  intro count
  have hlength : (sortByKey (fun checkpoint : Checkpoint => checkpoint.sequence.toNat)
      (checkpoints.filter fun checkpoint => checkpoint.kind = kind)).length = count := by
    rw [(sort_by_key_perm _ _).length_eq, ← List.countP_eq_length_filter]
  unfold soleCheckpoint
  cases hsorted : sortByKey (fun checkpoint : Checkpoint => checkpoint.sequence.toNat)
      (checkpoints.filter fun checkpoint => checkpoint.kind = kind) with
  | nil =>
      rw [hsorted] at hlength
      exact .inl ⟨hlength.symm, rfl⟩
  | cons only rest =>
      rw [hsorted] at hlength
      cases rest with
      | nil => exact .inr (.inl ⟨hlength.symm, _, rfl⟩)
      | cons second rest =>
          refine .inr (.inr ⟨?_, _, rfl⟩)
          rw [← hlength, List.length_cons, List.length_cons]
          omega

/-- A course cannot be scored that has no finish or several, several starts, or no start where one
is measured from. -/
theorem course_lines_fail_iff (checkpoints : List Checkpoint) (startMode : StartMode) :
    let finishes := checkpoints.countP fun checkpoint => checkpoint.kind = .finish
    let starts := checkpoints.countP fun checkpoint => checkpoint.kind = .start
    (∃ error, courseLines checkpoints startMode = .error error) ↔
      finishes ≠ 1 ∨ 1 < starts ∨ (startMode = .chip ∧ starts = 0) := by
  intro finishes starts
  unfold courseLines
  rcases sole_checkpoint_cases checkpoints .finish with
    ⟨hcount, hfinish⟩ | ⟨hcount, finish, hfinish⟩ | ⟨hcount, error, hfinish⟩
  · rw [hfinish]
    exact iff_of_true ⟨_, rfl⟩ (.inl (by omega))
  · rw [hfinish]
    dsimp only [bind, Except.bind]
    rcases sole_checkpoint_cases checkpoints .start with
      ⟨hstarts, hstart⟩ | ⟨hstarts, start, hstart⟩ | ⟨hstarts, error, hstart⟩
    · rw [hstart]
      dsimp only
      by_cases hchip : startMode = .chip
      · rw [if_pos ⟨hchip, rfl⟩]
        exact iff_of_true ⟨_, rfl⟩ (.inr (.inr ⟨hchip, hstarts⟩))
      · rw [if_neg fun h => hchip h.1]
        refine iff_of_false nofun ?_
        rintro (hone | hmany | ⟨hmeasured, _⟩)
        · exact hone hcount
        · omega
        · exact hchip hmeasured
    · rw [hstart]
      dsimp only
      rw [if_neg fun h => absurd h.2 (Option.some_ne_none start)]
      refine iff_of_false nofun ?_
      rintro (hone | hmany | ⟨_, hnone⟩)
      · exact hone hcount
      · omega
      · omega
    · rw [hstart]
      exact iff_of_true ⟨error, rfl⟩ (.inr (.inl hstarts))
  · rw [hfinish]
    exact iff_of_true ⟨error, rfl⟩ (.inl (by omega))

/-! ## Lines -/

/-- The line of a participant, before placement. -/
def lineOf (input : ScoringInput) (finish : CheckpointId) (start : Option CheckpointId)
    (participant : Participant) : ResultEntry :=
  let gun := input.policy.gunTime
  buildEntry participant
    (crossingsFrom gun (eventsAt input.timingEvents participant.id start))
    (crossingsFrom gun (eventsAt input.timingEvents participant.id (some finish)))
    ((startedOf gun start input.timingEvents).contains participant.id)
    (latestDeclarations input.declarations)[participant.id]? input.policy

/-- The lines built are those of the participants. -/
theorem build_entries_eq (input : ScoringInput) (finish : CheckpointId)
    (start : Option CheckpointId) :
    buildEntries input finish start = input.participants.map (lineOf input finish start) := by
  refine List.map_congr_left fun participant _ => ?_
  rw [crossings_at_eq, crossings_at_eq]
  rfl

end Splitforge.Results
