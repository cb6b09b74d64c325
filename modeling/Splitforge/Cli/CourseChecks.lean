import Splitforge.Cli.Doctor
import Splitforge.Library.Fallible
import Splitforge.Results.Lines

/-!
# What the diagnosis says about a course

Each check reports under one name, so the errors about courses in a report are those the races'
own checks found. They tell the courses that cannot be scored from those that can, but for one
kind: a course that lacks nothing but a finish passes, and is not scored.
-/

namespace Splitforge.Cli

open Splitforge.Domain Splitforge.Library Splitforge.Storage Splitforge.Results

/-! ## What a check reports under -/

/-- Everything found is reported under one name. -/
def ReportedAs (check : String) (findings : List Finding) : Prop :=
  ∀ finding ∈ findings, finding.check = check

theorem reported_nil (check : String) : ReportedAs check [] := by
  intro finding hfinding
  cases hfinding

theorem reported_error (check detail : String) : ReportedAs check [.error check detail] := by
  intro finding hfinding
  rw [List.mem_singleton.mp hfinding, Finding.error]

theorem reported_warning (check detail : String) : ReportedAs check [.warning check detail] := by
  intro finding hfinding
  rw [List.mem_singleton.mp hfinding, Finding.warning]

theorem ReportedAs.append {check : String} {findings others : List Finding}
    (h : ReportedAs check findings) (hothers : ReportedAs check others) :
    ReportedAs check (findings ++ others) := by
  intro finding hfinding
  exact (List.mem_append.mp hfinding).elim (h finding) (hothers finding)

theorem reported_map (check : String) (problems : List String) :
    ReportedAs check (problems.map (.error check)) := by
  intro finding hfinding
  obtain ⟨problem, _, rfl⟩ := List.mem_map.mp hfinding
  rfl

theorem reported_counted {finding : String → String → Finding} {check before behind : String}
    {count : Nat} (hcheck : ∀ detail, (finding check detail).check = check) :
    ReportedAs check (counted finding check before count behind) := by
  unfold counted
  split_ifs
  · intro found hfound
    rw [List.mem_singleton.mp hfound]
    exact hcheck _
  · exact reported_nil check

/-! ### The device -/

theorem reported_space {answers : Answers} {findings : List Finding}
    (h : spaceCheck answers = .ok findings) : ReportedAs "storage.free_space" findings := by
  unfold spaceCheck at h
  cases hspace : answers.space with
  | error error =>
      rw [hspace] at h
      cases h
      exact reported_warning _ _
  | ok space =>
      rw [hspace] at h
      obtain ⟨floor, _, h⟩ := exists_of_bind h
      dsimp only at h
      split_ifs at h
      · cases h
        exact reported_warning _ _
      · cases h
        exact reported_nil _
      · cases h
        exact reported_error _ _

theorem reported_sidecar (sidecar : SidecarStatus) :
    ReportedAs "journal.sidecar" (sidecarCheck sidecar) := by
  unfold sidecarCheck
  refine (((ReportedAs.append ?_ ?_).append ?_).append ?_).append ?_ <;>
    exact reported_counted fun _ => rfl

theorem reported_steps {answers : Answers} {findings : List Finding}
    (h : stepCheck answers = .ok findings) : ReportedAs "clock.steps" findings := by
  unfold stepCheck at h
  obtain ⟨steps, _, h⟩ := exists_of_bind h
  dsimp only at h
  split_ifs at h
  · obtain ⟨largest, _, h⟩ := exists_of_bind h
    cases h
    exact reported_warning _ _
  · cases h
    exact reported_nil _

theorem reported_sequence (summary : JournalSummary) :
    ReportedAs "journal.sequence" (sequenceCheck summary) := by
  unfold sequenceCheck
  split
  · exact reported_nil _
  · refine ReportedAs.append ?_ (reported_counted fun _ => rfl)
    split_ifs
    · exact reported_warning _ _
    · exact reported_nil _

theorem reported_race (configs : List EventConfig) :
    ReportedAs "config.race" (raceCheck configs) := by
  unfold raceCheck
  split_ifs
  · exact reported_warning _ _
  · exact reported_nil _

theorem reported_untrusted (summary : JournalSummary) :
    ReportedAs "clock.device" (untrustedCheck summary) :=
  reported_counted fun _ => rfl

/-! ### A race -/

section Races

variable (debug : String → String)

theorem reported_gun (config : EventConfig) :
    ReportedAs "scoring.gun" (gunCheck debug config) := by
  unfold gunCheck
  split_ifs
  · exact reported_warning _ _
  · exact reported_nil _

theorem reported_roster (config : RaceConfig) :
    ReportedAs "config.roster" (rosterCheck debug config) := by
  unfold rosterCheck
  split_ifs
  · exact reported_warning _ _
  · exact reported_nil _

theorem reported_overlap (config : RaceConfig) :
    ReportedAs "config.chips" (overlapCheck config) := by
  unfold overlapCheck
  split
  · exact reported_nil _
  · exact reported_error _ _

theorem reported_chip (config : RaceConfig) :
    ReportedAs "config.chips" (chipCheck debug config) := by
  unfold chipCheck
  dsimp only
  split_ifs
  · exact reported_nil _
  · exact reported_warning _ _
  · exact reported_warning _ _

theorem reported_antenna (config : RaceConfig) :
    ReportedAs "config.readers" (antennaCheck debug config) := by
  unfold antennaCheck
  split_ifs
  · exact reported_error _ _
  · exact reported_nil _

theorem reported_source (summary : JournalSummary) (config : RaceConfig) :
    ReportedAs "config.readers" (sourceCheck debug summary config) := by
  unfold sourceCheck
  split
  · exact reported_nil _
  · exact reported_error _ _

theorem reported_gun_time (config : RaceConfig) :
    ReportedAs "config.gun_time" (gunTimeCheck debug config) := by
  unfold gunTimeCheck
  split_ifs
  · exact reported_warning _ _
  · exact reported_nil _

end Races

/-! ## Errors about courses -/

/-- The checks that say that a course cannot be scored. -/
def courseChecks : List String := ["scoring.finish", "scoring.start", "config.checkpoints"]

/-- Whether a finding is an error about a course. -/
def isCourseError (finding : Finding) : Bool :=
  finding.severity = "error" ∧ finding.check ∈ courseChecks

/-- Nothing found is an error about a course. -/
def NoCourseError (findings : List Finding) : Prop :=
  ∀ finding ∈ findings, isCourseError finding = false

theorem ReportedAs.no_course_error {check : String} {findings : List Finding}
    (h : ReportedAs check findings) (hcheck : check ∉ courseChecks) : NoCourseError findings := by
  intro finding hfinding
  refine decide_eq_false fun herror => hcheck ?_
  rw [← h finding hfinding]
  exact herror.2

theorem no_course_error_of_warnings {findings : List Finding}
    (h : ∀ finding ∈ findings, finding.severity = "warning") : NoCourseError findings := by
  intro finding hfinding
  refine decide_eq_false fun herror => ?_
  have hseverity := herror.1
  rw [h finding hfinding] at hseverity
  exact absurd hseverity (by decide)

theorem filter_flatten_eq_nil {checks : List (List Finding)}
    (h : ∀ findings ∈ checks, NoCourseError findings) :
    checks.flatten.filter isCourseError = [] := by
  refine List.filter_eq_nil_iff.mpr fun finding hfinding => ?_
  obtain ⟨findings, hfindings, hmem⟩ := List.mem_flatten.mp hfinding
  rw [h findings hfindings finding hmem]
  exact Bool.false_ne_true

/-- The errors about courses in a report are those found about the races. -/
theorem course_errors_of_doctor {debug : String → String} {isIpAddr : String → Bool}
    {answers : Answers} {summary : JournalSummary} {configs : List EventConfig}
    {report : DoctorReport}
    (h : doctor debug isIpAddr answers summary configs = .ok report) :
    report.findings.filter isCourseError =
      configs.flatMap fun config => (raceFindings debug summary config).filter isCourseError := by
  unfold doctor at h
  obtain ⟨integrity, _, h⟩ := exists_of_bind h
  obtain ⟨foreignKeys, _, h⟩ := exists_of_bind h
  obtain ⟨differences, _, h⟩ := exists_of_bind h
  obtain ⟨space, hspace, h⟩ := exists_of_bind h
  obtain ⟨sidecar, _, h⟩ := exists_of_bind h
  obtain ⟨steps, hsteps, h⟩ := exists_of_bind h
  obtain ⟨version, _, h⟩ := exists_of_bind h
  cases h
  -- in front of the races and behind them there are none
  have hfront : ([integrity.map (.error "database.integrity"),
      foreignKeys.map (.error "database.foreign_keys"), differences.map (.error "database.schema"),
      space, sidecarCheck sidecar, steps, sequenceCheck summary, raceCheck configs] :
        List (List Finding)).flatten.filter isCourseError = [] := by
    refine filter_flatten_eq_nil ?_
    simp only [List.forall_mem_cons]
    exact ⟨(reported_map _ _).no_course_error (by decide),
      (reported_map _ _).no_course_error (by decide),
      (reported_map _ _).no_course_error (by decide),
      (reported_space hspace).no_course_error (by decide),
      (reported_sidecar sidecar).no_course_error (by decide),
      (reported_steps hsteps).no_course_error (by decide),
      (reported_sequence summary).no_course_error (by decide),
      (reported_race configs).no_course_error (by decide), nofun⟩
  have hbehind : [untrustedCheck summary, findingsFor isIpAddr answers.clock].flatten.filter
      isCourseError = [] := by
    refine filter_flatten_eq_nil ?_
    simp only [List.forall_mem_cons]
    exact ⟨(reported_untrusted summary).no_course_error (by decide),
      no_course_error_of_warnings (warning_of_findings_for isIpAddr answers.clock), nofun⟩
  dsimp only
  rw [List.flatten_append, List.flatten_append, List.filter_append, List.filter_append, hfront,
    hbehind, List.append_nil, List.nil_append, ← List.flatMap_id, List.flatMap_assoc,
    List.filter_flatMap]
  simp only [List.flatMap_id, raceFindings]

section Courses

variable {debug : String → String} {summary : JournalSummary} {config : EventConfig}

/-- Looking at the checkpoints is an error where there are none. -/
theorem checkpoint_error_iff {config : RaceConfig} :
    (∃ finding ∈ checkpointCheck debug config, isCourseError finding = true) ↔
      config.checkpoints = [] := by
  unfold checkpointCheck
  split_ifs with hnone hcompletes
  · exact iff_of_true ⟨_, List.mem_singleton_self _, rfl⟩ hnone
  · exact iff_of_false nofun hnone
  · refine iff_of_false ?_ hnone
    intro ⟨finding, hfinding, herror⟩
    rw [List.mem_singleton.mp hfinding] at herror
    cases herror

/-- Looking at the finishes is an error where there are several. -/
theorem finish_error_iff {config : RaceConfig} :
    (∃ finding ∈ finishCheck debug config, isCourseError finding = true) ↔
      1 < countKind config.checkpoints .finish := by
  unfold finishCheck
  dsimp only
  split_ifs with hseveral
  · exact iff_of_true ⟨_, List.mem_singleton_self _, rfl⟩ hseveral
  · exact iff_of_false nofun hseveral

/-- Looking at the starts is an error where there are several, or none that is measured from. -/
theorem start_error_iff :
    (∃ finding ∈ startCheck debug config, isCourseError finding = true) ↔
      1 < countKind config.config.checkpoints .start ∨
        (config.startMode = .chip ∧ countKind config.config.checkpoints .start = 0) := by
  unfold startCheck
  dsimp only
  split_ifs with hseveral hnone
  · exact iff_of_true ⟨_, List.mem_singleton_self _, rfl⟩ (.inl hseveral)
  · exact iff_of_true ⟨_, List.mem_singleton_self _, rfl⟩ (.inr hnone)
  · exact iff_of_false nofun (not_or.mpr ⟨hseveral, hnone⟩)

/-- The other checks of a race say nothing about whether its course can be scored. -/
theorem no_other_course_error {findings : List Finding}
    (h : findings ∈ (raceChecks debug summary config).drop 3) : NoCourseError findings := by
  have hall : ∀ findings ∈ (raceChecks debug summary config).drop 3, NoCourseError findings := by
    simp only [raceChecks, List.drop_succ_cons, List.drop_zero, List.forall_mem_cons]
    exact ⟨(reported_gun debug config).no_course_error (by decide),
      (reported_roster debug config.config).no_course_error (by decide),
      (reported_overlap config.config).no_course_error (by decide),
      (reported_chip debug config.config).no_course_error (by decide),
      (reported_antenna debug config.config).no_course_error (by decide),
      (reported_source debug summary config.config).no_course_error (by decide),
      (reported_gun_time debug config.config).no_course_error (by decide), nofun⟩
  exact hall findings h

/-- An error about a course comes of its checkpoints, its finishes or its starts. -/
theorem course_error_iff :
    (∃ finding ∈ raceFindings debug summary config, isCourseError finding = true) ↔
      config.config.checkpoints = [] ∨ 1 < countKind config.config.checkpoints .finish ∨
        1 < countKind config.config.checkpoints .start ∨
          (config.startMode = .chip ∧ countKind config.config.checkpoints .start = 0) := by
  rw [← @checkpoint_error_iff debug, ← @finish_error_iff debug, ← @start_error_iff debug]
  constructor
  · intro ⟨finding, hfinding, herror⟩
    obtain ⟨findings, hfindings, hmem⟩ := List.mem_flatten.mp hfinding
    rcases List.mem_cons.mp hfindings with rfl | hfindings
    · exact .inl ⟨finding, hmem, herror⟩
    · rcases List.mem_cons.mp hfindings with rfl | hfindings
      · exact .inr (.inl ⟨finding, hmem, herror⟩)
      · rcases List.mem_cons.mp hfindings with rfl | hfindings
        · exact .inr (.inr ⟨finding, hmem, herror⟩)
        · rw [no_other_course_error hfindings finding hmem] at herror
          cases herror
  · intro h
    have hfound : ∃ findings ∈ raceChecks debug summary config,
        ∃ finding ∈ findings, isCourseError finding = true := by
      rcases h with h | h | h
      · exact ⟨_, List.mem_cons_self, h⟩
      · exact ⟨_, List.mem_cons_of_mem _ List.mem_cons_self, h⟩
      · exact ⟨_, List.mem_cons_of_mem _ (List.mem_cons_of_mem _ List.mem_cons_self), h⟩
    obtain ⟨findings, hfindings, finding, hmem, herror⟩ := hfound
    exact ⟨finding, List.mem_flatten.mpr ⟨findings, hfindings, hmem⟩, herror⟩

end Courses

/-! ## Courses that cannot be scored -/

/-- The input that a race is scored with. -/
def scoringInput (config : EventConfig) (events : List TimingEvent)
    (declarations : List StatusDeclaration) : ScoringInput where
  participants := config.config.participants
  checkpoints := config.config.checkpoints
  timingEvents := events
  declarations
  policy := ⟨config.startMode, config.config.policy, config.config.gunTime⟩

/-- A race is not scored that has no finish or several, several starts, or no start that is
measured from. -/
theorem score_fails_iff (config : EventConfig) (events : List TimingEvent)
    (declarations : List StatusDeclaration) :
    (∃ error, score (scoringInput config events declarations) = .error error) ↔
      countKind config.config.checkpoints .finish ≠ 1 ∨
        1 < countKind config.config.checkpoints .start ∨
          (config.startMode = .chip ∧ countKind config.config.checkpoints .start = 0) := by
  simp only [score_eq_error_iff]
  exact course_lines_fail_iff config.config.checkpoints config.startMode

/-- A course on which a finish is missing, and nothing else is amiss. -/
structure LacksOnlyFinish (config : EventConfig) : Prop where
  laid : config.config.checkpoints ≠ []
  unfinished : countKind config.config.checkpoints .finish = 0
  single : countKind config.config.checkpoints .start ≤ 1
  started : config.startMode = .chip → countKind config.config.checkpoints .start = 1

/-- The diagnosis of a race and its scoring agree unless only a finish is missing. -/
theorem race_agrees_iff {debug : String → String} {summary : JournalSummary}
    (config : EventConfig) (events : List TimingEvent) (declarations : List StatusDeclaration) :
    ((∃ finding ∈ raceFindings debug summary config, isCourseError finding = true) ↔
        ∃ error, score (scoringInput config events declarations) = .error error) ↔
      ¬ LacksOnlyFinish config := by
  rw [course_error_iff, score_fails_iff]
  have hnone : config.config.checkpoints = [] →
      countKind config.config.checkpoints .finish = 0 := by
    intro hnil
    rw [hnil]
    rfl
  constructor
  · intro hagree hlacks
    rcases hagree.mpr (.inl (by rw [hlacks.unfinished]; decide)) with h | h | h | h
    · exact hlacks.laid h
    · have hzero := hlacks.unfinished
      omega
    · have hone := hlacks.single
      omega
    · have hone := hlacks.started h.1
      omega
  · intro hlacks
    constructor
    · rintro (h | h | h)
      · refine .inl ?_
        rw [hnone h]
        decide
      · exact .inl (by omega)
      · exact .inr h
    · rintro (h | h)
      · by_contra hclean
        rw [not_or, not_or, not_or, not_and] at hclean
        obtain ⟨hlaid, hfinishes, hstarts, hstarted⟩ := hclean
        exact hlacks ⟨hlaid, by omega, by omega, fun hchip => by
          have hzero := hstarted hchip
          omega⟩
      · exact .inr (.inr h)

/-! ## A race with one mat -/

/-- A race from the gun with one runner, one chip and one mat. -/
def matRace (kind : CheckpointKind) : EventConfig where
  event := "Day"
  config :=
    { race := ⟨⟨.fromU128 4⟩, "5K", none, 1⟩
      checkpoints := [⟨⟨.fromU128 7⟩, ⟨.fromU128 4⟩, "Mat", kind, 1⟩]
      participants := [⟨⟨.fromU128 9⟩, ⟨.fromU128 4⟩, ⟨"12"⟩, "Ada"⟩]
      assignments := [⟨⟨"E280"⟩, ⟨.fromU128 9⟩, ⟨.fromU128 4⟩, second 11, none⟩]
      antennas := AntennaMap.new.mapReader ⟨"mat-1"⟩ ⟨.fromU128 7⟩
      policy := ⟨3000, .first, none, ∅⟩
      sessions := [⟨.start, second 11⟩]
      distinct := List.nodup_singleton _ }
  readers := []
  startMode := .gun
  sessions := [⟨1, ⟨.start, second 11⟩, "operator", none, second 12⟩]
  recorded := rfl

/-- A device on which nothing is amiss. -/
def soundAnswers : Answers where
  integrity := .ok []
  foreignKeys := .ok []
  schemaDifferences := .ok []
  space := .ok ⟨2 ^ 40, 2 ^ 41⟩
  minFreeBytes := .ok defaultMinFreeBytes
  survey := .ok ⟨0, 0, 0, 0, 0, 0⟩
  clockStepCount := .ok 0
  largestClockStepMs := .ok none
  clock := .noDaemonTool
  schemaVersion := .ok 1

/-- The diagnosis finds nothing about the race whose mat is a lap, and about the one whose mat is
the finish neither. -/
theorem sound_report (kind : CheckpointKind) (h : kind = .lap ∨ kind = .finish) :
    ∃ report, doctor id (fun _ => false) soundAnswers .empty [matRace kind] = .ok report ∧
      report.errors = 0 ∧ report.warnings = 0 := by
  rcases h with rfl | rfl
  · exact ⟨_, rfl, by decide +kernel, by decide +kernel⟩
  · exact ⟨_, rfl, by decide +kernel, by decide +kernel⟩

/-- The errors about courses in a report are those found about its races, and whether there are
any agrees with whether the race is scored exactly where not only a finish is missing. -/
theorem doctor_agrees_iff (debug : String → String) (isIpAddr : String → Bool) (answers : Answers)
    (summary : JournalSummary) (configs : List EventConfig) (report : DoctorReport)
    (h : doctor debug isIpAddr answers summary configs = .ok report) :
    report.findings.filter isCourseError =
        configs.flatMap (fun config =>
          (raceFindings debug summary config).filter isCourseError) ∧
      ∀ config ∈ configs, ∀ events declarations,
        ((∃ finding ∈ raceFindings debug summary config, isCourseError finding = true) ↔
            ∃ error, score (scoringInput config events declarations) = .error error) ↔
          ¬ LacksOnlyFinish config :=
  ⟨course_errors_of_doctor h, fun config _ events declarations =>
    race_agrees_iff config events declarations⟩

/-- Of the race whose mat is the finish, the diagnosis and scoring say the same. -/
theorem doctor_agrees_finish : ∃ report,
    doctor id (fun _ => false) soundAnswers .empty [matRace .finish] = .ok report ∧
      ((∃ finding ∈ raceFindings id .empty (matRace .finish), isCourseError finding = true) ↔
        ∃ error, score (scoringInput (matRace .finish) [] []) = .error error) := by
  obtain ⟨report, hreport, _⟩ := sound_report .finish (.inr rfl)
  refine ⟨report, hreport, ((doctor_agrees_iff id (fun _ => false) soundAnswers .empty _ report
    hreport).2 (matRace .finish) (List.mem_singleton_self _) [] []).mpr fun hlacks => ?_⟩
  exact absurd hlacks.unfinished (by decide)

/-- The diagnosis passes a race with nothing but a lap mat, which is not scored. -/
theorem not_doctor_agrees :
    ¬ ∀ (debug : String → String) (isIpAddr : String → Bool) (answers : Answers)
      (summary : JournalSummary) (configs : List EventConfig) (report : DoctorReport),
      doctor debug isIpAddr answers summary configs = .ok report →
      ∀ config ∈ configs, ∀ events declarations,
        (∃ finding ∈ raceFindings debug summary config, isCourseError finding = true) ↔
          ∃ error, score (scoringInput config events declarations) = .error error := by
  intro h
  obtain ⟨report, hreport, _⟩ := sound_report .lap (.inl rfl)
  have hagrees := h id (fun _ => false) soundAnswers .empty _ report hreport (matRace .lap)
    (List.mem_singleton_self _) [] []
  refine (race_agrees_iff (matRace .lap) [] []).mp hagrees ⟨List.cons_ne_nil _ _, ?_, ?_, ?_⟩
  · decide
  · decide
  · intro hchip
    cases hchip

end Splitforge.Cli
