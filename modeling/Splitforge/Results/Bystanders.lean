import Splitforge.Library.SameBut
import Splitforge.Results.Lines

/-!
# One runner's evidence

What is seen of one runner and declared about them changes their own line. The lines of the others
stay, except for their places, and so does the order the others come in: with fewer than 2³²
runners a results sheet is in the order of times, which nobody else's evidence changes.
-/

namespace Splitforge.Results

open Splitforge.Domain Splitforge.Library

variable {input : ScoringInput} {finish : CheckpointId} {start : Option CheckpointId}

/-- An entry without its place. -/
def withoutPlace (entry : ResultEntry) : ResultEntry :=
  { entry with place := none }

/-- The first entry has a better place than the second. -/
def Better (first second : ResultEntry) : Prop :=
  ∃ place place', first.place = some place ∧ second.place = some place' ∧ place < place'

/-- The order of a results sheet with times for places. -/
def timedKey (entry : ResultEntry) :
    Bool ×ₗ WithBot Int ×ₗ ResultStatus ×ₗ (Nat ×ₗ Nat ×ₗ String) ×ₗ ParticipantId :=
  toLex (!isPlaceable entry, toLex (if isPlaceable entry then scoringTime entry else ⊥,
    toLex (entry.status, toLex (bibOrder entry.bib, entry.participant))))

/-! ## The order of a results sheet -/

section Sheet

variable {lines : List ResultEntry} (hnone : ∀ line ∈ lines, line.place = none)
variable (hcount : lines.length < 2 ^ 32)

include hcount hnone

/-- Lines are published in the order of their times. -/
theorem publication_key_le_iff {first second : ResultEntry} (hfirst : first ∈ lines)
    (hsecond : second ∈ lines) :
    timedKey first ≤ timedKey second ↔
      publicationKey (placed (placeTimes lines) first) ≤
        publicationKey (placed (placeTimes lines) second) := by
  have hkey {line : ResultEntry} (hline : line ∈ lines) :
      publicationKey (placed (placeTimes lines) line) =
        toLex (!isPlaceable line, toLex (if isPlaceable line then
          placeAmong (placeTimes lines) line else 0,
            toLex (line.status, toLex (bibOrder line.bib, line.participant)))) := by
    unfold publicationKey
    rw [place_placed (hnone line hline)]
    unfold placed
    cases isPlaceable line <;> rfl
  rw [hkey hfirst, hkey hsecond, timedKey, timedKey]
  simp only [Prod.Lex.toLex_le_toLex]
  cases hx : isPlaceable first with
  | false =>
      cases isPlaceable second <;> simp
  | true =>
      cases hy : isPlaceable second with
      | false => simp
      | true =>
          obtain ⟨hmem, hrank⟩ := place_among_eq hcount hfirst hx
          obtain ⟨hmem', hrank'⟩ := place_among_eq hcount hsecond hy
          simp only [if_true, hrank, hrank', rank_lt_rank_iff hmem hmem',
            rank_eq_rank_iff hmem hmem']

/-- What is published is the lines in the order of their times, each with its place. -/
theorem publication_eq :
    sortForPublication (assignPlaces lines) =
      (sortByKey timedKey lines).map (placed (placeTimes lines)) := by
  rw [assign_places_eq]
  exact sort_by_key_map fun first hfirst second hsecond =>
    publication_key_le_iff hnone hcount hfirst hsecond

/-- Two lines have one place when they are not placed, or placed with one time. -/
theorem place_eq_place_iff {first second : ResultEntry} (hfirst : first ∈ lines)
    (hsecond : second ∈ lines) :
    (placed (placeTimes lines) first).place = (placed (placeTimes lines) second).place ↔
      isPlaceable first = isPlaceable second ∧
        (isPlaceable first = true → scoringTime first = scoringTime second) := by
  rw [place_placed (hnone first hfirst), place_placed (hnone second hsecond)]
  cases hx : isPlaceable first with
  | false => cases isPlaceable second <;> simp
  | true =>
      cases hy : isPlaceable second with
      | false => simp
      | true =>
          obtain ⟨hmem, hrank⟩ := place_among_eq hcount hfirst hx
          obtain ⟨hmem', hrank'⟩ := place_among_eq hcount hsecond hy
          simp [hrank, hrank', rank_eq_rank_iff hmem hmem']

/-- A line has a better place than another when both are placed and its time is less. -/
theorem better_iff {first second : ResultEntry} (hfirst : first ∈ lines)
    (hsecond : second ∈ lines) :
    Better (placed (placeTimes lines) first) (placed (placeTimes lines) second) ↔
      isPlaceable first = true ∧ isPlaceable second = true ∧
        scoringTime first < scoringTime second := by
  unfold Better
  rw [place_placed (hnone first hfirst), place_placed (hnone second hsecond)]
  cases hx : isPlaceable first with
  | false => simp
  | true =>
      cases hy : isPlaceable second with
      | false => simp
      | true =>
          obtain ⟨hmem, hrank⟩ := place_among_eq hcount hfirst hx
          obtain ⟨hmem', hrank'⟩ := place_among_eq hcount hsecond hy
          simp [hrank, hrank', rank_lt_rank_iff hmem hmem']

/-- Some of what is published is those lines in the order of their times. -/
theorem filter_publication (changed : ParticipantId) :
    (sortForPublication (assignPlaces lines)).filter (fun entry => entry.participant ≠ changed) =
      (sortByKey timedKey (lines.filter fun line => line.participant ≠ changed)).map
        (placed (placeTimes lines)) := by
  rw [publication_eq hnone hcount, List.filter_map, ← sort_by_key_filter]
  refine congrArg _ (List.filter_congr fun line _ => ?_)
  rw [Function.comp_apply, participant_placed]

end Sheet

theorem without_place_placed {times : List (WithBot Int)} {line : ResultEntry}
    (hnone : line.place = none) : withoutPlace (placed times line) = line := by
  have hline : withoutPlace line = line := by
    unfold withoutPlace
    rw [← hnone]
  unfold placed
  split
  · exact hline
  · exact hline

/-! ## Two sheets -/

section Sheets

variable {lines lines' : List ResultEntry}
variable (hnone : ∀ line ∈ lines, line.place = none)
variable (hnone' : ∀ line ∈ lines', line.place = none)
variable (hcount : lines.length < 2 ^ 32) (hcount' : lines'.length < 2 ^ 32)

include hnone hnone' hcount hcount'

/-- Where the others have the same lines, their entries are the same apart from their places. -/
theorem others_without_place {changed : ParticipantId}
    (hothers : (lines'.filter fun line => line.participant ≠ changed) =
      lines.filter fun line => line.participant ≠ changed) :
    ((sortForPublication (assignPlaces lines')).filter fun entry =>
        entry.participant ≠ changed).map withoutPlace =
      ((sortForPublication (assignPlaces lines)).filter fun entry =>
        entry.participant ≠ changed).map withoutPlace := by
  rw [filter_publication hnone hcount, filter_publication hnone' hcount', hothers,
    List.map_map, List.map_map]
  refine List.map_congr_left fun line hline => ?_
  have hline := (List.mem_filter.mp (mem_sort_by_key.mp hline)).1
  rw [Function.comp_apply, Function.comp_apply, without_place_placed (hnone line hline),
    without_place_placed (hnone line hline)]

/-- Entries of two sheets that are the same apart from their places are one line, with its place
in either. -/
theorem exists_line_of_alike {entry entry' : ResultEntry}
    (hentry : entry ∈ sortForPublication (assignPlaces lines))
    (hentry' : entry' ∈ sortForPublication (assignPlaces lines'))
    (heq : withoutPlace entry' = withoutPlace entry) :
    ∃ line ∈ lines, line ∈ lines' ∧ entry = placed (placeTimes lines) line ∧
      entry' = placed (placeTimes lines') line := by
  rw [publication_eq hnone hcount] at hentry
  rw [publication_eq hnone' hcount'] at hentry'
  obtain ⟨line, hline, rfl⟩ := List.mem_map.mp hentry
  obtain ⟨line', hline', rfl⟩ := List.mem_map.mp hentry'
  rw [mem_sort_by_key] at hline hline'
  rw [without_place_placed (hnone line hline), without_place_placed (hnone' line' hline')] at heq
  subst heq
  exact ⟨_, hline, hline', rfl, rfl⟩

/-- Lines that are in both sheets have equal places in both or in neither, and so for better
ones. -/
theorem places_alike {first second first' second' : ResultEntry}
    (hfirst : first ∈ sortForPublication (assignPlaces lines))
    (hsecond : second ∈ sortForPublication (assignPlaces lines))
    (hfirst' : first' ∈ sortForPublication (assignPlaces lines'))
    (hsecond' : second' ∈ sortForPublication (assignPlaces lines'))
    (heq : withoutPlace first' = withoutPlace first)
    (heq' : withoutPlace second' = withoutPlace second) :
    (first'.place = second'.place ↔ first.place = second.place) ∧
      (Better first' second' ↔ Better first second) := by
  obtain ⟨line, hline, hline', rfl, rfl⟩ :=
    exists_line_of_alike hnone hnone' hcount hcount' hfirst hfirst' heq
  obtain ⟨next, hnext, hnext', rfl, rfl⟩ :=
    exists_line_of_alike hnone hnone' hcount hcount' hsecond hsecond' heq'
  rw [place_eq_place_iff hnone hcount hline hnext, place_eq_place_iff hnone' hcount' hline' hnext',
    better_iff hnone hcount hline hnext, better_iff hnone' hcount' hline' hnext']
  exact ⟨Iff.rfl, Iff.rfl⟩

end Sheets

/-! ## The others' lines -/

/-- The same race with other evidence. -/
def withEvidence (input : ScoringInput) (events : List TimingEvent)
    (declarations : List StatusDeclaration) : ScoringInput :=
  { input with timingEvents := events, declarations }

section Others

variable {changed : ParticipantId} {events' : List TimingEvent}
variable {declarations' : List StatusDeclaration}
variable (hevents : SameBut (fun event : TimingEvent => event.participant = changed)
  input.timingEvents events')
variable (hdeclarations : SameBut
  (fun declaration : StatusDeclaration => declaration.participant = changed)
  input.declarations declarations')

include hevents hdeclarations

/-- The line of another runner stays. -/
theorem line_of_other {runner : Participant} (hother : runner.id ≠ changed) :
    lineOf (withEvidence input events' declarations') finish start runner =
      lineOf input finish start runner := by
  have hat (line : Option CheckpointId) :
      eventsAt input.timingEvents runner.id line = eventsAt events' runner.id line := by
    refine hevents.filter_eq fun event hevent => decide_eq_false fun hwhere => hother ?_
    rw [← hwhere.1, of_decide_eq_true hevent]
  have hstarted : (startedOf input.policy.gunTime start events').contains runner.id =
      (startedOf input.policy.gunTime start input.timingEvents).contains runner.id := by
    have hidle {event : TimingEvent} (hparticipant : event.participant = runner.id) :
        decide (event.participant = changed) = false :=
      decide_eq_false fun h => hother (hparticipant.symm.trans h)
    rw [Bool.eq_iff_iff, contains_started_of, contains_started_of]
    constructor
    · intro hstarted
      obtain ⟨event, hevent, hparticipant, hwhere⟩ := hstarted
      exact ⟨event, hevents.symm.mem hevent (hidle hparticipant), hparticipant, hwhere⟩
    · intro hstarted
      obtain ⟨event, hevent, hparticipant, hwhere⟩ := hstarted
      exact ⟨event, hevents.mem hevent (hidle hparticipant), hparticipant, hwhere⟩
  have hdeclared : (latestDeclarations declarations')[runner.id]? =
      (latestDeclarations input.declarations)[runner.id]? := by
    rw [get_latest_declarations, get_latest_declarations]
    refine congrArg _ (hdeclarations.filter_eq fun declaration hdeclaration => ?_).symm
    refine decide_eq_false fun hparticipant => hother ?_
    rw [← hparticipant, of_decide_eq_true hdeclaration]
  show buildEntry runner _ _ ((startedOf input.policy.gunTime start events').contains runner.id)
    (latestDeclarations declarations')[runner.id]? _ = buildEntry runner _ _ _ _ _
  rw [hstarted, hdeclared]
  show buildEntry runner (crossingsFrom _ (eventsAt events' runner.id start))
    (crossingsFrom _ (eventsAt events' runner.id (some finish))) _ _ _ = _
  rw [← hat, ← hat]
  rfl

/-- The lines of the other runners stay. -/
theorem lines_of_others :
    ((input.participants.map (lineOf (withEvidence input events' declarations') finish
        start)).filter fun line => line.participant ≠ changed) =
      (input.participants.map (lineOf input finish start)).filter fun line =>
        line.participant ≠ changed := by
  rw [List.filter_map, List.filter_map]
  refine List.map_congr_left fun runner hrunner => ?_
  exact line_of_other hevents hdeclarations (of_decide_eq_true (List.mem_filter.mp hrunner).2)

/-- One runner's evidence changes only that runner's line and the places. With other evidence of
one runner scoring fails alike; the entries of the others are the same apart from their places, in
the same order; and equal places stay equal and better ones better. -/
theorem others_unchanged (hcount : input.participants.length < 2 ^ 32) :
    (∀ error, score input = .error error ↔
      score (withEvidence input events' declarations') = .error error) ∧
    ∀ entries entries', score input = .ok entries →
      score (withEvidence input events' declarations') = .ok entries' →
      (entries'.filter fun entry => entry.participant ≠ changed).map withoutPlace =
        (entries.filter fun entry => entry.participant ≠ changed).map withoutPlace ∧
      ∀ first ∈ entries, ∀ second ∈ entries, ∀ first' ∈ entries', ∀ second' ∈ entries',
        first.participant ≠ changed → second.participant ≠ changed →
        withoutPlace first' = withoutPlace first → withoutPlace second' = withoutPlace second →
        (first'.place = second'.place ↔ first.place = second.place) ∧
          (Better first' second' ↔ Better first second) := by
  constructor
  · intro error
    rw [score_eq_error_iff, score_eq_error_iff]
    rfl
  · intro entries entries' hentries hentries'
    obtain ⟨finish, start, hlines, rfl⟩ := score_eq_ok hentries
    have hentries'' := hentries'.symm.trans
      (@score_of_course_lines (withEvidence input events' declarations') _ _ hlines)
    cases hentries''
    rw [build_entries_eq]
    let lines := input.participants.map (lineOf input finish start)
    let lines' := input.participants.map
      (lineOf (withEvidence input events' declarations') finish start)
    have hnone : ∀ line ∈ lines, line.place = none := List.forall_mem_map.mpr fun _ _ => rfl
    have hnone' : ∀ line ∈ lines', line.place = none := List.forall_mem_map.mpr fun _ _ => rfl
    have hlength : lines.length < 2 ^ 32 := by rwa [List.length_map]
    have hlength' : lines'.length < 2 ^ 32 := by rwa [List.length_map]
    have hothers : (lines'.filter fun line => line.participant ≠ changed) =
        lines.filter fun line => line.participant ≠ changed :=
      lines_of_others hevents hdeclarations
    refine ⟨others_without_place hnone hnone' hlength hlength' hothers, ?_⟩
    intro first hfirst second hsecond first' hfirst' second' hsecond' _ _ heq heq'
    exact places_alike hnone hnone' hlength hlength' hfirst hsecond hfirst' hsecond' heq heq'

end Others

/-- In the sample two runners share the first place; when one of them is not seen at the finish,
the other entries stay. -/
theorem others_unchanged_sample :
    SameBut (fun event : TimingEvent => event.participant = ⟨.fromU128 1⟩)
      sampleRace.timingEvents (sampleRace.timingEvents.drop 2) ∧
    ∀ entries entries', score sampleRace = .ok entries →
      score (withEvidence sampleRace (sampleRace.timingEvents.drop 2) sampleRace.declarations) =
        .ok entries' →
      (entries'.filter fun entry => entry.participant ≠ ⟨.fromU128 1⟩).map withoutPlace =
        (entries.filter fun entry => entry.participant ≠ ⟨.fromU128 1⟩).map withoutPlace := by
  have hevents : SameBut (fun event : TimingEvent => event.participant = ⟨.fromU128 1⟩)
      sampleRace.timingEvents (sampleRace.timingEvents.drop 2) := rfl
  refine ⟨hevents, fun entries entries' hentries hentries' => ?_⟩
  exact ((others_unchanged hevents rfl (by decide)).2 entries entries' hentries hentries').1

/-! ## More runners than places -/

/-- A runner of the crowd. -/
def crowdId (number : Nat) : ParticipantId :=
  ⟨.fromU128 (number + 1)⟩

/-- When a runner of the crowd finishes, in seconds: nobody is later than the first two. -/
def arrival (number : Nat) : UInt8 :=
  match number with
  | 0 => 2
  | 1 => 3
  | _ => 1

/-- A race in which everybody finishes. -/
def crowd (count : Nat) : ScoringInput where
  participants := (List.range count).map fun number =>
    sampleParticipant (number + 1) (toString (number + 1))
  checkpoints := [⟨⟨.fromU128 51⟩, ⟨.fromU128 90⟩, "finish", .finish, 0⟩]
  timingEvents := (List.range count).map fun number =>
    sampleCrossing (number + 1) (number + 1) 51 (arrival number)
  declarations := []
  policy := ⟨.gun, ⟨3000, .first, none, ∅⟩, some (second 0)⟩

/-- The events of the crowd without those of its third runner. -/
def withoutThird (count : Nat) : List TimingEvent :=
  (crowd count).timingEvents.filter fun event => !decide (event.participant = crowdId 2)

theorem crowd_id_inj {number number' : Nat} (hnumber : number < 2 ^ 32)
    (hnumber' : number' < 2 ^ 32) (h : crowdId number = crowdId number') : number = number' := by
  have hvalue : (number + 1) % 2 ^ 128 = (number' + 1) % 2 ^ 128 :=
    congrArg (fun id : ParticipantId => id.uuid.value.val) h
  rw [Nat.mod_eq_of_lt (by omega), Nat.mod_eq_of_lt (by omega)] at hvalue
  omega

/-- Under gun time a runner who finishes without a declaration is placed by their gun time. -/
theorem placed_of_finish {runner : Participant} {atStart atFinish : Crossings} {started : Bool}
    {policy : ScoringPolicy} {gun : OffsetDateTime} {event : TimingEvent}
    (hfinish : atFinish.counted = some event) (hmode : policy.startMode = .gun)
    (hgun : policy.gunTime = some gun) (htime : 0 ≤ elapsedMs gun event.at) :
    isPlaceable (buildEntry runner atStart atFinish started none policy) = true ∧
      scoringTime (buildEntry runner atStart atFinish started none policy) =
        (elapsedMs gun event.at : Int) := by
  have hnot : ¬ elapsedMs gun event.at < 0 := not_lt.mpr htime
  unfold buildEntry
  simp only [hfinish, hmode, hgun, measuredTime, statusOf, isPlaceable, scoringTime]
  simp [hnot, ResultStatus.isPlaced]
  rfl

/-- A runner without a finish is not placed. -/
theorem not_placed_of_no_finish {runner : Participant} {atStart atFinish : Crossings}
    {started : Bool} {declaration : Option StatusDeclaration} {policy : ScoringPolicy}
    (hfinish : atFinish.counted = none) :
    isPlaceable (buildEntry runner atStart atFinish started declaration policy) = false := by
  unfold buildEntry
  simp only [hfinish, measuredTime, isPlaceable, Option.map_none, if_true, Option.any_none]
  simp

section Crowd

variable {count number : Nat}

/-- The finish event used for a runner of the crowd is when they arrive. -/
theorem finish_used_crowd (hcount : count ≤ 2 ^ 32) (hnumber : number < count) :
    ∃ event, finishUsed (crowd count) (crowdId number) ⟨.fromU128 51⟩ = some event ∧
      event.at = second (arrival number) := by
  have hafter : isBeforeGun (some (second 0)) (sampleCrossing (number + 1) (number + 1) 51
      (arrival number)) = false := by
    unfold arrival
    split <;> rfl
  have hmem : sampleCrossing (number + 1) (number + 1) 51 (arrival number) ∈
      countedAt (crowd count) (crowdId number) (some ⟨.fromU128 51⟩) :=
    mem_counted_at.mpr ⟨List.mem_map.mpr ⟨number, List.mem_range.mpr hnumber, rfl⟩, rfl, rfl,
      hafter⟩
  cases hused : finishUsed (crowd count) (crowdId number) ⟨.fromU128 51⟩ with
  | none =>
      rw [least_by_key_eq_none.mp hused] at hmem
      cases hmem
  | some event =>
      refine ⟨event, rfl, ?_⟩
      obtain ⟨hevent, hparticipant, -, -⟩ := mem_counted_at.mp (least_of_least_by_key hused).1
      obtain ⟨other, hother, rfl⟩ := List.mem_map.mp hevent
      have hlt := List.mem_range.mp hother
      have heq : other = number := crowd_id_inj (by omega) (by omega) hparticipant
      rw [← heq]
      rfl

/-- The line of a runner of the crowd. -/
def crowdLine (count number : Nat) : ResultEntry :=
  lineOf (crowd count) ⟨.fromU128 51⟩ none
    (sampleParticipant (number + 1) (toString (number + 1)))

/-- Everybody in the crowd is placed by when they arrive. -/
theorem crowd_line_placed (hcount : count ≤ 2 ^ 32) (hnumber : number < count) :
    isPlaceable (crowdLine count number) = true ∧
      scoringTime (crowdLine count number) = ((arrival number).toNat * 1000 : Int) := by
  obtain ⟨event, hevent, hat⟩ := finish_used_crowd hcount hnumber
  have htime : elapsedMs (second 0) event.at = (arrival number).toNat * 1000 := by
    rw [hat]
    unfold arrival
    split <;> rfl
  rw [← htime]
  have hgun : (crowd count).policy.gunTime = some (second 0) := rfl
  exact placed_of_finish hevent rfl hgun (by rw [htime]; omega)

/-- The rank of a time among the crowd counts whoever is placed with less. -/
theorem rank_place_times (line : Nat → ResultEntry) (time : WithBot Int) :
    rank (placeTimes ((List.range count).map line)) time =
      (List.range count).countP (fun number =>
        decide (scoringTime (line number) < time) && isPlaceable (line number)) + 1 := by
  rw [rank, placeTimes, List.countP_map, List.countP_filter, List.countP_map]
  rfl

/-- Among at least as many numbers, all but a few of the first are counted. -/
theorem count_from (least count : Nat) :
    (List.range (count + least)).countP (fun number => least ≤ number) = count := by
  induction count with
  | zero =>
      rw [List.countP_eq_zero]
      intro number hnumber
      have hlt := List.mem_range.mp hnumber
      rw [decide_eq_true_eq]
      omega
  | succ count ih =>
      rw [Nat.add_right_comm, List.range_succ, List.countP_append, ih]
      simp

/-- Without the third runner's finish nobody else's evidence changes. -/
theorem crowd_without_third : SameBut (fun event : TimingEvent => event.participant = crowdId 2)
    (crowd count).timingEvents (withoutThird count) := by
  rw [SameBut, withoutThird, List.filter_filter]
  exact List.filter_congr fun event _ => (Bool.and_self _).symm

/-- The line of a runner of the crowd without the third runner's finish. -/
def lineWithoutThird (count number : Nat) : ResultEntry :=
  lineOf (withEvidence (crowd count) (withoutThird count) []) ⟨.fromU128 51⟩ none
    (sampleParticipant (number + 1) (toString (number + 1)))

theorem line_without_third (hnumber : number < 2 ^ 32) (hother : number ≠ 2) :
    lineWithoutThird count number = crowdLine count number :=
  line_of_other crowd_without_third rfl fun h => hother (crowd_id_inj hnumber (by omega) h)

/-- The third runner is not placed without a finish. -/
theorem third_not_placed : isPlaceable (lineWithoutThird count 2) = false := by
  refine not_placed_of_no_finish (least_by_key_eq_none.mpr (List.filter_eq_nil_iff.mpr ?_))
  intro event hevent
  obtain ⟨hevent, hwhere⟩ := List.mem_filter.mp hevent
  obtain ⟨-, hnot⟩ := List.mem_filter.mp hevent
  have hparticipant : event.participant = crowdId 2 := (of_decide_eq_true hwhere).1
  simp [hparticipant] at hnot

/-- The first two of the crowd come behind all others, and without the third behind one less. -/
theorem rank_crowd (hcount : count + 3 ≤ 2 ^ 32) :
    rank (placeTimes ((List.range (count + 3)).map (crowdLine (count + 3))))
        (scoringTime (crowdLine (count + 3) 0)) = count + 2 ∧
      rank (placeTimes ((List.range (count + 3)).map (lineWithoutThird (count + 3))))
        (scoringTime (crowdLine (count + 3) 0)) = count + 1 := by
  have htime {number : Nat} (hnumber : number < count + 3) :
      scoringTime (crowdLine (count + 3) number) < scoringTime (crowdLine (count + 3) 0) ↔
        2 ≤ number := by
    rw [(crowd_line_placed hcount hnumber).2, (crowd_line_placed hcount (by omega)).2]
    rw [WithBot.coe_lt_coe]
    match number with
    | 0 => decide
    | 1 => decide
    | number + 2 =>
        have hless : ((1 : UInt8).toNat * 1000 : Int) < (2 : UInt8).toNat * 1000 := by decide
        exact iff_of_true hless (by omega)
  constructor
  · rw [rank_place_times]
    refine congrArg (· + 1) (Eq.trans (List.countP_congr fun number hnumber => ?_)
      (count_from 2 (count + 1)))
    have hnumber := List.mem_range.mp hnumber
    rw [(crowd_line_placed hcount hnumber).1, Bool.and_true, decide_eq_true_eq,
      decide_eq_true_eq, htime hnumber]
  · rw [rank_place_times]
    refine congrArg (· + 1) (Eq.trans (List.countP_congr fun number hnumber => ?_)
      (count_from 3 count))
    have hnumber := List.mem_range.mp hnumber
    by_cases hthird : number = 2
    · subst hthird
      rw [third_not_placed, Bool.and_false]
      simp
    · rw [line_without_third (by omega) hthird, (crowd_line_placed hcount hnumber).1,
        Bool.and_true, decide_eq_true_eq, decide_eq_true_eq, htime hnumber]
      omega

/-- The place of the line of a runner of the crowd, among lines it is one of. -/
theorem place_crowd {line : Nat → ResultEntry} {number : Nat} (hnumber : number < count)
    (hcount : count ≤ 2 ^ 32) (hline : line number = crowdLine count number) :
    scoringTime (crowdLine count number) ∈ placeTimes ((List.range count).map line) ∧
      (placed (placeTimes ((List.range count).map line)) (crowdLine count number)).place =
        some (min (rank (placeTimes ((List.range count).map line))
          (scoringTime (crowdLine count number))) u32Max) := by
  have hplaceable := (crowd_line_placed hcount hnumber).1
  constructor
  · rw [← hline] at hplaceable ⊢
    exact List.mem_map_of_mem (List.mem_filter.mpr
      ⟨List.mem_map_of_mem (List.mem_range.mpr hnumber), hplaceable⟩)
  · rw [place_placed rfl, if_pos hplaceable]
    rfl

/-- What is published of the crowd, with everybody and without the third runner's finish. -/
theorem score_crowd (count : Nat) :
    score (crowd count) = .ok (sortForPublication (assignPlaces
      ((List.range count).map (crowdLine count)))) ∧
    score (withEvidence (crowd count) (withoutThird count) []) =
      .ok (sortForPublication (assignPlaces
        ((List.range count).map (lineWithoutThird count)))) := by
  have hlines : courseLines (crowd count).checkpoints (crowd count).policy.startMode =
      .ok (⟨.fromU128 51⟩, none) := rfl
  constructor
  · rw [score_of_course_lines hlines, crowd, List.map_map]
    rfl
  · rw [@score_of_course_lines (withEvidence (crowd count) (withoutThird count) []) _ _ hlines,
      withEvidence, crowd, List.map_map]
    rfl

/-- The first two of the crowd share the last place that there is, until the third has no
finish. -/
theorem places_of_crowd {total : Nat} (htotal : total = 2 ^ 32) :
    let times := placeTimes ((List.range total).map (crowdLine total))
    let times' := placeTimes ((List.range total).map (lineWithoutThird total))
    (placed times (crowdLine total 0)).place = (placed times (crowdLine total 1)).place ∧
      (placed times' (crowdLine total 0)).place ≠ (placed times' (crowdLine total 1)).place := by
  intro times times'
  obtain ⟨count, rfl⟩ : ∃ count, total = count + 3 := ⟨total - 3, by omega⟩
  have hcount := htotal.le
  have hless : scoringTime (crowdLine (count + 3) 0) < scoringTime (crowdLine (count + 3) 1) := by
    rw [(crowd_line_placed hcount (by omega)).2, (crowd_line_placed hcount (by omega)).2,
      WithBot.coe_lt_coe]
    decide
  obtain ⟨hrank, hrank'⟩ := rank_crowd hcount
  have hthird (number : Nat) (hnumber : number < 2) :
      lineWithoutThird (count + 3) number = crowdLine (count + 3) number :=
    line_without_third (by omega) (by omega)
  obtain ⟨hmem, hplace⟩ := @place_crowd (count + 3) (crowdLine (count + 3)) 0 (by omega) hcount rfl
  obtain ⟨-, hnext⟩ := @place_crowd (count + 3) (crowdLine (count + 3)) 1 (by omega) hcount rfl
  obtain ⟨hmem', hplace'⟩ := place_crowd (by omega) hcount (hthird 0 (by omega))
  obtain ⟨-, hnext'⟩ := place_crowd (by omega) hcount (hthird 1 (by omega))
  have hbehind := rank_lt_rank hmem hless
  have hbehind' := rank_lt_rank hmem' hless
  rw [hplace, hnext, hplace', hnext', Option.some_inj, ne_eq, Option.some_inj]
  unfold u32Max
  omega

end Crowd

/-- In a crowd of 2³² the last two runners share a place when everybody finishes, and do not when
one of the others has no finish. -/
theorem not_others_unchanged :
    SameBut (fun event : TimingEvent => event.participant = crowdId 2)
      (crowd (2 ^ 32)).timingEvents (withoutThird (2 ^ 32)) ∧
    ∃ entries entries', score (crowd (2 ^ 32)) = .ok entries ∧
      score (withEvidence (crowd (2 ^ 32)) (withoutThird (2 ^ 32)) []) = .ok entries' ∧
      ∃ first ∈ entries, ∃ second ∈ entries, ∃ first' ∈ entries', ∃ second' ∈ entries',
        first.participant ≠ crowdId 2 ∧ second.participant ≠ crowdId 2 ∧
        withoutPlace first' = withoutPlace first ∧ withoutPlace second' = withoutPlace second ∧
        first.place = second.place ∧ first'.place ≠ second'.place := by
  obtain ⟨hscore, hscore'⟩ := score_crowd (2 ^ 32)
  obtain ⟨hsame, hnot⟩ := places_of_crowd rfl
  have hmem {total : Nat} {line : Nat → ResultEntry} {number : Nat} (hnumber : number < total)
      (hline : line number = crowdLine total number) :
      placed (placeTimes ((List.range total).map line)) (crowdLine total number) ∈
        sortForPublication (assignPlaces ((List.range total).map line)) := by
    rw [sortForPublication, mem_sort_by_key, assign_places_eq, ← hline]
    exact List.mem_map_of_mem (List.mem_map_of_mem (List.mem_range.mpr hnumber))
  have hother {times : List (WithBot Int)} {total number : Nat} (hnumber : number < 2) :
      (placed times (crowdLine total number)).participant ≠ crowdId 2 := by
    rw [participant_placed]
    intro h
    have heq : number = 2 := crowd_id_inj (by omega) (by omega) h
    omega
  have hkept {times times' : List (WithBot Int)} {total number : Nat} :
      withoutPlace (placed times' (crowdLine total number)) =
        withoutPlace (placed times (crowdLine total number)) := by
    rw [without_place_placed rfl, without_place_placed rfl]
  refine ⟨crowd_without_third, _, _, hscore, hscore', _, hmem (by omega) rfl, _,
    hmem (by omega) rfl, _, hmem (by omega) (line_without_third (by omega) (by omega)), _,
    hmem (by omega) (line_without_third (by omega) (by omega)), hother (by omega),
    hother (by omega), hkept, hkept, hsame, hnot⟩

end Splitforge.Results
