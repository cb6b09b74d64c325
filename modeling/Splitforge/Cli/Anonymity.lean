import Splitforge.Cli.Bundle
import Splitforge.Cli.Digests
import Splitforge.Library.Fallible
import Splitforge.Library.Renaming
import Mathlib.Logic.Equiv.Basic

/-!
# What a bundle gives away

Two databases that differ in who took part and who operated the device are told apart by their
bundles in two ways: by the digests of the published revisions, which are copied out as they are and
are taken of the bibs, and by where two tokens are equal.
-/

namespace Splitforge.Cli

open Splitforge.Domain Splitforge.Library Splitforge.Storage
open Marked (tokens outline allTokens renameAll UpToRenaming)

/-! ## The tokens of a bundle -/

instance : Marked SessionSummary where
  rename f view := { view with actor := f view.actor }
  tokens view := [view.actor]
  tokens_rename _ _ := rfl
  rename_rename _ _ _ := rfl
  eq_of_blotted := by
    intro Token first second h htokens
    cases first
    cases second
    cases h
    cases htokens
    rfl

instance : Marked RevisionSummaryView where
  rename f view := { view with actor := f view.actor }
  tokens view := [view.actor]
  tokens_rename _ _ := rfl
  rename_rename _ _ _ := rfl
  eq_of_blotted := by
    intro Token first second h htokens
    cases first
    cases second
    cases h
    cases htokens
    rfl

instance : Marked AuditSummary where
  rename f summary := { summary with actor := f summary.actor }
  tokens summary := [summary.actor]
  tokens_rename _ _ := rfl
  rename_rename _ _ _ := rfl
  eq_of_blotted := by
    intro Token first second h htokens
    cases first
    cases second
    cases h
    cases htokens
    rfl

instance : Marked RaceSection where
  rename f race :=
    { race with
      unassignedChipsRead := race.unassignedChipsRead.map f
      sessions := renameAll f race.sessions
      revisions := renameAll f race.revisions }
  tokens race := race.unassignedChipsRead ++ (allTokens race.sessions ++ allTokens race.revisions)
  tokens_rename f race := by
    rw [List.map_append, List.map_append, Marked.all_tokens_rename_all,
      Marked.all_tokens_rename_all]
  rename_rename f g race := by
    dsimp only
    rw [List.map_map, Marked.rename_all_rename_all, Marked.rename_all_rename_all]
  eq_of_blotted := by
    intro Token first second h htokens
    cases first
    cases second
    injection h
    dsimp only at *
    subst_vars
    rename_i hchips hsessions hrevisions
    obtain ⟨hchips, hrest⟩ := List.append_inj htokens (by simpa using congrArg List.length hchips)
    obtain ⟨hsessions', hrevisions'⟩ := List.append_inj hrest (Marked.length_all_tokens hsessions)
    rw [hchips, Marked.eq_of_all_blotted hsessions hsessions',
      Marked.eq_of_all_blotted hrevisions hrevisions']

instance : Marked Bundle where
  rename f bundle :=
    { bundle with races := renameAll f bundle.races, audit := renameAll f bundle.audit }
  tokens bundle := allTokens bundle.races ++ allTokens bundle.audit
  tokens_rename f bundle := by
    rw [List.map_append, Marked.all_tokens_rename_all, Marked.all_tokens_rename_all]
  rename_rename f g bundle := by
    dsimp only
    rw [Marked.rename_all_rename_all, Marked.rename_all_rename_all]
  eq_of_blotted := by
    intro Token first second h htokens
    cases first
    cases second
    injection h
    dsimp only at *
    subst_vars
    rename_i hraces haudit
    obtain ⟨hraces', haudit'⟩ := List.append_inj htokens (Marked.length_all_tokens hraces)
    rw [Marked.eq_of_all_blotted hraces hraces', Marked.eq_of_all_blotted haudit haudit']

/-! ## Databases that differ in people alone -/

/-- A participant without what tells who it is. -/
def namelessParticipant (participant : Participant) : Participant :=
  { participant with bib := ⟨""⟩, name := "" }

/-- An assignment of the chip under another identifier. -/
def renamedAssignment (rename : ChipId → ChipId) (assignment : ChipAssignment) : ChipAssignment :=
  { assignment with chip := rename assignment.chip }

/-- A start or stop without the operator and the note, but for there being one. -/
def namelessSession (row : SessionRow) : SessionRow :=
  { row with actor := "", note := row.note.map fun _ => "" }

/-- A manual entry without the operator and the reason. -/
def namelessManualEntry (row : StoredManualEntry) : StoredManualEntry :=
  { row with entry := { row.entry with actor := "", reason := "" } }

/-- A line of the results without what tells whose it is, and the reason of its status, but for
there being one. -/
def namelessEntry (entry : ResultEntry) : ResultEntry :=
  { entry with bib := ⟨""⟩, name := "", statusReason := entry.statusReason.map fun _ => "" }

/-- An audit row without the operator, and without the free texts, but for there being any. -/
def namelessAudit (entry : AuditEntry) : AuditEntry :=
  { entry with
    actor := ""
    subject := entry.subject.map fun _ => ""
    detail := entry.detail.map fun _ => "" }

/-- The configurations of a race differ in people and in the identifiers of chips alone. -/
structure SameConfig (rename : ChipId → ChipId) (first second : EventConfig) : Prop where
  event : first.event = second.event
  config : ∃ participants assignments sessions,
    second.config = { first.config with participants, assignments, sessions }
  readers : first.readers = second.readers
  startMode : first.startMode = second.startMode
  participants : (first.config.participants.map namelessParticipant).Perm
    (second.config.participants.map namelessParticipant)
  assignments : (first.config.assignments.map (renamedAssignment rename)).Perm
    second.config.assignments
  sessions : first.sessions.map namelessSession = second.sessions.map namelessSession

/-- Two revisions score the same participants to the same statuses, times and places. A bib decides
the order of lines that are level, so the lines may stand in another. -/
structure SameRevision (first second : RevisionRow) : Prop where
  race : first.revision.race = second.revision.race
  number : first.revision.number = second.revision.number
  status : first.revision.status = second.revision.status
  generatedAt : first.revision.generatedAt = second.revision.generatedAt
  policy : first.revision.policy = second.revision.policy
  reason : first.revision.reason = "" ↔ second.revision.reason = ""
  entries : (first.revision.entries.map namelessEntry).Perm
    (second.revision.entries.map namelessEntry)

/-- Two databases differ in who took part, in the identifiers of the chips, which are renamed, in
who operated the device and in what was written freely, but not in whether anything was. -/
structure SameButPeople (rename : ChipId → ChipId) (first second : EventDatabase) : Prop where
  minFreeBytes : first.minFreeBytes = second.minFreeBytes
  schemaVersion : first.schemaVersion = second.schemaVersion
  reads : List.Forall₂ (SameRead rename) first.reads second.reads
  clockSteps : first.clockSteps = second.clockSteps
  manualEntries : first.manualEntries.map namelessManualEntry =
    second.manualEntries.map namelessManualEntry
  configs : List.Forall₂ (SameConfig rename) first.configs second.configs
  results : List.Forall₂ SameRevision first.results.rows second.results.rows
  auditLog : first.auditLog.map namelessAudit = second.auditLog.map namelessAudit

/-- Two diagnoses of which the same goes out. -/
structure SameReport (database : DatabasePath) (report report' : DoctorReport) : Prop where
  clockSource : BundledClockSource.of report.clockSource = .of report'.clockSource
  doctor : BundledDoctor.of report database = .of report' database

/-! ## What is hashed -/

/-- The values that go out as tokens for a race. -/
def hashedOfRace (database : EventDatabase) (config : EventConfig) : List String :=
  ((unassigned config.config (.of database.reads)).take tokenLimit).map (·.text) ++
    (config.sessions.map (·.actor) ++
      (database.results.revisions config.config.race.id).map (·.actor))

/-- The values that go out as tokens. -/
def hashed (database : EventDatabase) : List String :=
  database.configs.flatMap (hashedOfRace database) ++
    (auditTrail database.auditLog auditLimit).map (·.actor)

/-- The records of a revision, run together as its digest takes them. -/
def digestText (row : RevisionRow) : List Char := row.revision.entries.flatMap digestOf

/-- Two databases give no more away: what the digests of the published revisions are taken of is the
same, and what is hashed is equal in the same places. -/
structure Concealed (first second : EventDatabase) : Prop where
  records : ∀ config ∈ first.configs,
    (first.results.revisions config.config.race.id).map digestText =
      (second.results.revisions config.config.race.id).map digestText
  places : SamePlaces (hashed first) (hashed second)

/-! ## Tokens and what they stand for -/

variable {Token : Type} {newV5 : Uuid → String → Uuid} {token : String → Token} {moment : Moment}

/-- What is read is what is there. -/
theorem eq_of_reading {Value : Type} {database : EventDatabase} {what : BundleRead}
    {value result : Value} (h : database.reading what value = .ok result) : result = value := by
  rw [EventDatabase.reading] at h
  split at h
  · cases h
  · cases h
    rfl

theorem rename_session_summaries (rows : List SessionRow) :
    renameAll token (rows.map (sessionSummary id)) = rows.map (sessionSummary token) :=
  List.map_map

theorem rename_revision_summaries (rows : List RevisionRow) :
    renameAll token (rows.map (revisionSummary newV5 id)) =
      rows.map (revisionSummary newV5 token) :=
  List.map_map

theorem rename_race_shape (config : EventConfig) (chips : List ChipId)
    (entries : List StoredManualEntry) (revisions : List RevisionRow) :
    Marked.rename token (raceShape newV5 id config chips entries revisions) =
      raceShape newV5 token config chips entries revisions := by
  dsimp only [Marked.rename, raceShape]
  rw [rename_session_summaries, rename_revision_summaries, List.map_map]
  rfl

/-- A section is that of the values themselves, with each value under its token. -/
theorem race_section_rename (database : EventDatabase) (summary : JournalSummary)
    (config : EventConfig) : raceSection newV5 token database summary config =
      (raceSection newV5 id database summary config).map (Marked.rename token) := by
  unfold raceSection
  dsimp only
  cases database.reading (.raceManualEntries config.config.race.id)
    (manualEntries database.manualEntries config.config.race.id) with
  | error error => rfl
  | ok entries =>
      cases database.reading (.revisions config.config.race.id)
        (database.results.revisions config.config.race.id) with
      | error error => rfl
      | ok revisions => exact congrArg Except.ok (rename_race_shape config _ entries revisions).symm

/-- A bundle is that of the values themselves, with each value under its token. -/
theorem build_rename (database : EventDatabase) (report : DoctorReport) :
    build newV5 token moment database report =
      (build newV5 id moment database report).map (Marked.rename token) := by
  unfold build
  cases deviceSection moment database report.clockSource with
  | error error => rfl
  | ok device =>
      have hraces := map_m_map (raceSection newV5 id database (.of database.reads))
        (Marked.rename token) database.configs
      rw [← funext fun config => race_section_rename database (.of database.reads) config] at hraces
      dsimp only [bind, Except.bind]
      rw [hraces]
      cases database.configs.mapM (raceSection newV5 id database (.of database.reads)) with
      | error error => rfl
      | ok races =>
          cases database.reading .auditTrail (auditTrail database.auditLog auditLimit) with
          | error error => rfl
          | ok audit =>
              show Except.ok _ = Except.ok (Marked.rename token _)
              dsimp only [Marked.rename, renameAll]
              rw [List.map_map]
              rfl

/-- What a section is. -/
theorem eq_of_race_section {database : EventDatabase} {summary : JournalSummary}
    {config : EventConfig} {shape : RaceSection Token}
    (h : raceSection newV5 token database summary config = .ok shape) :
    shape = raceShape newV5 token config (unassigned config.config summary)
      (manualEntries database.manualEntries config.config.race.id)
      (database.results.revisions config.config.race.id) := by
  unfold raceSection at h
  obtain ⟨entries, hentries, h⟩ := exists_of_bind h
  obtain ⟨revisions, hrevisions, h⟩ := exists_of_bind h
  rw [eq_of_reading hentries, eq_of_reading hrevisions] at h
  cases h
  rfl

/-- The tokens of a section stand for what is hashed for its race. -/
theorem tokens_race_section {database : EventDatabase} {config : EventConfig}
    {shape : RaceSection String}
    (h : raceSection newV5 id database (.of database.reads) config = .ok shape) :
    tokens shape = hashedOfRace database config := by
  rw [eq_of_race_section h]
  show _ ++ (allTokens (List.map _ _) ++ allTokens (List.map _ _)) = _
  rw [Marked.all_tokens_map fun _ => rfl, Marked.all_tokens_map fun _ => rfl]
  rfl

/-- What a bundle is. -/
theorem exists_of_build {database : EventDatabase} {report : DoctorReport} {bundle : Bundle Token}
    (h : build newV5 token moment database report = .ok bundle) :
    ∃ device races,
      deviceSection moment database report.clockSource = .ok device ∧
      database.configs.mapM (raceSection newV5 token database (.of database.reads)) = .ok races ∧
      bundle =
        { format := bundleFormat
          version := bundleVersion
          toolVersion := moment.toolVersion
          generatedAt := moment.now
          privacy := privacyNote
          device
          doctor := .of report moment.database
          journal := journalSection moment (.of database.reads)
          races
          audit := (auditTrail database.auditLog auditLimit).map (auditSummary token) } := by
  unfold build at h
  obtain ⟨device, hdevice, h⟩ := exists_of_bind h
  obtain ⟨races, hraces, h⟩ := exists_of_bind h
  obtain ⟨audit, haudit, h⟩ := exists_of_bind h
  rw [eq_of_reading haudit] at h
  cases h
  exact ⟨device, races, hdevice, hraces, rfl⟩

/-- The tokens of a bundle stand for what is hashed. -/
theorem tokens_build {database : EventDatabase} {report : DoctorReport} {bundle : Bundle String}
    (h : build newV5 id moment database report = .ok bundle) : tokens bundle = hashed database := by
  obtain ⟨device, races, _, hraces, rfl⟩ := exists_of_build h
  have hsections : allTokens races = database.configs.flatMap (hashedOfRace database) := by
    have hall := forall₂_of_map_m hraces
    clear h hraces
    generalize database.configs = configs at hall
    induction hall with
    | nil => rfl
    | cons hsection _ ih =>
        rw [allTokens, List.flatMap_cons, List.flatMap_cons, tokens_race_section hsection]
        exact congrArg (_ ++ ·) ih
  show allTokens races ++ allTokens (List.map _ _) = _
  rw [hsections, Marked.all_tokens_map fun _ => rfl]
  rfl

/-- A bundle is built of every database that can be read. -/
theorem exists_build (newV5 : Uuid → String → Uuid) (token : String → Token) (moment : Moment)
    {database : EventDatabase} (h : ∀ what, database.failing what = none)
    (report : DoctorReport) :
    ∃ bundle, build newV5 token moment database report = .ok bundle := by
  have hreading : ∀ {Value : Type} (what : BundleRead) (value : Value),
      database.reading what value = .ok value := by
    intro Value what value
    rw [EventDatabase.reading, h]
  obtain ⟨races, hraces⟩ := @exists_map_m _ _ _ database.configs
    (raceSection newV5 token database (.of database.reads)) fun config _ => by
      unfold raceSection
      dsimp only
      rw [hreading, hreading]
      exact ⟨_, rfl⟩
  unfold build deviceSection
  dsimp only
  rw [hreading, hreading, hreading, hreading, hreading, hreading, hraces]
  exact ⟨_, rfl⟩

/-- The digests that a bundle shows. -/
def shownDigests (bundle : Bundle Token) : List (List String) :=
  bundle.races.map fun race => race.revisions.map (·.digest)

/-- Renaming the tokens leaves the digests as they are. -/
theorem shown_digests_rename {Token' : Type} (f : Token → Token') (bundle : Bundle Token) :
    shownDigests (Marked.rename f bundle) = shownDigests bundle := by
  show (bundle.races.map (Marked.rename f)).map _ = _
  rw [List.map_map]
  refine List.map_congr_left fun race _ => ?_
  show (race.revisions.map (Marked.rename f)).map _ = _
  rw [List.map_map]
  rfl

/-- The digests that a bundle shows are those of what was published. -/
theorem shown_digests_of_build {database : EventDatabase} {report : DoctorReport}
    {bundle : Bundle Token} (h : build newV5 token moment database report = .ok bundle) :
    shownDigests bundle = database.configs.map fun config =>
      (database.results.revisions config.config.race.id).map (·.revision.digest newV5) := by
  obtain ⟨device, races, _, hraces, rfl⟩ := exists_of_build h
  have hall := forall₂_of_map_m hraces
  clear h hraces
  show races.map _ = _
  generalize database.configs = configs at hall
  induction hall with
  | nil => rfl
  | cons hsection _ ih =>
      rw [List.map_cons, List.map_cons, ih, eq_of_race_section hsection]
      simp only [raceShape, List.map_map]
      rfl

/-! ## Two runs -/

variable {rename : ChipId → ChipId} {first second : EventDatabase} {config config' : EventConfig}

/-- The device is summarized alike. -/
theorem device_section_eq (halike : SameButPeople rename first second)
    {report report' : DoctorReport} (hreport : SameReport moment.database report report')
    {device device' : DeviceSection}
    (h : deviceSection moment first report.clockSource = .ok device)
    (h' : deviceSection moment second report'.clockSource = .ok device') : device = device' := by
  have hentries : first.manualEntries.length = second.manualEntries.length := by
    simpa using congrArg List.length halike.manualEntries
  unfold deviceSection at h h'
  obtain ⟨floor, hfloor, h⟩ := exists_of_bind h
  obtain ⟨version, hversion, h⟩ := exists_of_bind h
  obtain ⟨steps, hsteps, h⟩ := exists_of_bind h
  obtain ⟨entries, hcount, h⟩ := exists_of_bind h
  obtain ⟨largest, hlargest, h⟩ := exists_of_bind h
  obtain ⟨floor', hfloor', h'⟩ := exists_of_bind h'
  obtain ⟨version', hversion', h'⟩ := exists_of_bind h'
  obtain ⟨steps', hsteps', h'⟩ := exists_of_bind h'
  obtain ⟨entries', hcount', h'⟩ := exists_of_bind h'
  obtain ⟨largest', hlargest', h'⟩ := exists_of_bind h'
  have hfloors : floor = floor' := by
    rw [eq_of_reading hfloor, eq_of_reading hfloor', halike.minFreeBytes]
  have hversions : version = version' := by
    rw [eq_of_reading hversion, eq_of_reading hversion', halike.schemaVersion]
  have hcounts : steps = steps' := by
    rw [eq_of_reading hsteps, eq_of_reading hsteps', halike.clockSteps]
  have hentries : entries = entries' := by
    rw [eq_of_reading hcount, eq_of_reading hcount', hentries]
  have hlargests : largest = largest' := by
    rw [eq_of_reading hlargest, eq_of_reading hlargest', halike.clockSteps]
  subst hfloors hversions hcounts hentries hlargests
  rw [hreport.clockSource] at h
  exact Except.ok.inj (h.symm.trans h')

/-- The journal is counted alike. -/
theorem journal_section_eq {summary summary' : JournalSummary}
    (h : SameCounts rename summary summary') :
    journalSection moment summary = journalSection moment summary' := by
  have hlength : summary.chips.length = summary'.chips.length := by
    rw [h.chips.length_eq, List.length_map]
  obtain ⟨chips, hcounts⟩ := h.counts
  subst hcounts
  unfold journalSection
  rw [hlength]

/-- As many chips are assigned to nobody, and they are those of the other database, renamed. -/
theorem unassigned_perm (hrename : Function.Injective rename) {summary summary' : JournalSummary}
    (hcounts : SameCounts rename summary summary') (hconfig : SameConfig rename config config') :
    (unassigned config'.config summary').Perm ((unassigned config.config summary).map rename) := by
  have hassigned : ∀ chip, rename chip ∈ config'.config.assignments.map (·.chip) ↔
      chip ∈ config.config.assignments.map (·.chip) := by
    intro chip
    have hchips := hconfig.assignments.map (·.chip)
    have hlist : (config.config.assignments.map (renamedAssignment rename)).map (·.chip) =
        (config.config.assignments.map (·.chip)).map rename := by
      rw [List.map_map, List.map_map]
      rfl
    rw [← hchips.mem_iff, hlist, List.mem_map_of_injective hrename]
  have hany : ∀ (config : RaceConfig) (chip : ChipId),
      (config.assignments.any fun assignment => assignment.chip = chip) =
        decide (chip ∈ config.assignments.map (·.chip)) := by
    intro config chip
    rw [List.any_eq, decide_eq_decide]
    simp only [decide_eq_true_eq, List.mem_map]
  refine (hcounts.chips.filter _).trans (List.Perm.of_eq ?_)
  rw [unassigned, List.filter_map]
  refine congrArg (List.map rename) (List.filter_congr fun chip _ => ?_)
  rw [Function.comp_apply, hany, hany, decide_eq_decide.mpr (hassigned chip)]

/-- As many entrants have no chip. -/
theorem without_a_chip_eq (hconfig : SameConfig rename config config') :
    withoutAChip config.config = withoutAChip config'.config := by
  have hids : (config.config.participants.map (·.id)).Perm
      (config'.config.participants.map (·.id)) := by
    have hids := hconfig.participants.map (·.id)
    rwa [List.map_map, List.map_map] at hids
  have hworn : (config.config.assignments.map (·.participant)).Perm
      (config'.config.assignments.map (·.participant)) := by
    have hworn := hconfig.assignments.map (·.participant)
    rwa [List.map_map] at hworn
  have hcount : ∀ config : RaceConfig, withoutAChip config =
      (config.participants.map (·.id)).countP fun id =>
        decide (id ∉ config.assignments.map (·.participant)) := by
    intro config
    rw [withoutAChip, List.countP_map]
    refine List.countP_congr fun participant _ => ?_
    simp
  rw [hcount, hcount]
  refine hids.countP_congr fun id _ => ?_
  rw [decide_eq_decide, hworn.mem_iff]

/-- The gun in force is the same. -/
theorem gun_time_eq (hconfig : SameConfig rename config config') :
    config.config.gunTime = config'.config.gunTime := by
  have hsessions : config.config.sessions = config'.config.sessions := by
    have hsessions := congrArg (List.map SessionRow.session) hconfig.sessions
    rw [List.map_map, List.map_map] at hsessions
    rw [config.recorded, config'.recorded]
    exact hsessions
  obtain ⟨participants, assignments, sessions, hsame⟩ := hconfig.config
  rw [RaceConfig.gunTime, RaceConfig.gunTime, hsessions, hsame]

/-- The starts and stops go out alike, but for the operators. -/
theorem session_summaries_eq {rows rows' : List SessionRow}
    (h : rows.map namelessSession = rows'.map namelessSession) :
    rows.map (sessionSummary fun _ => ()) = rows'.map (sessionSummary fun _ => ()) := by
  have hview : (sessionSummary fun _ => ()) = (sessionSummary fun _ => ()) ∘ namelessSession := by
    funext row
    simp [sessionSummary, namelessSession]
  rw [hview, ← List.map_map, h, List.map_map]

/-- Two published revisions go out alike, but for who published them, just when their digests are
taken of the same records. -/
theorem revision_summary_eq_iff {row row' : RevisionRow} (h : SameRevision row row')
    (hhash : Set.InjOn (newV5 splitforgeNamespace)
      {digestName row.revision, digestName row'.revision}) :
    revisionSummary newV5 (fun _ => ()) row = revisionSummary newV5 (fun _ => ()) row' ↔
      digestText row = digestText row' := by
  rw [digestText, digestText, ← digest_eq_iff hhash]
  constructor
  · intro heq
    simpa only [revisionSummary] using congrArg RevisionSummaryView.digest heq
  · intro hdigest
    have hlength : row.revision.entries.length = row'.revision.entries.length := by
      simpa using h.entries.length_eq
    unfold revisionSummary
    rw [h.number, h.status, h.generatedAt, hdigest, hlength, decide_eq_decide.mpr h.reason.not]

/-- What is published of a race is published of it in the other database. -/
theorem revisions_beside (halike : SameButPeople rename first second) (race : RaceId) :
    List.Forall₂ SameRevision (first.results.revisions race) (second.results.revisions race) := by
  refine forall₂_sort_by_key (fun _ _ h => h.number) ?_
  refine List.rel_filter (fun row row' h => ?_) halike.results
  show decide (row.revision.race = race) = true ↔ decide (row'.revision.race = race) = true
  rw [h.race]

/-- The revisions go out alike just when the digests are taken of the same records. -/
theorem revision_summaries_eq_iff {rows rows' : List RevisionRow}
    (h : List.Forall₂ SameRevision rows rows')
    (hhash : Set.InjOn (newV5 splitforgeNamespace)
      {name | ∃ row ∈ rows ++ rows', digestName row.revision = name}) :
    rows.map (revisionSummary newV5 fun _ => ()) = rows'.map (revisionSummary newV5 fun _ => ()) ↔
      rows.map digestText = rows'.map digestText := by
  induction h with
  | nil => exact iff_of_true rfl rfl
  | @cons row row' rows rows' hrow _ ih =>
      have hhead := @revision_summary_eq_iff newV5 row row' hrow (hhash.mono ?_)
      · rw [List.map_cons, List.map_cons, List.map_cons, List.map_cons, List.cons_eq_cons,
          List.cons_eq_cons, hhead, ih (hhash.mono ?_)]
        intro name ⟨other, hother, hname⟩
        refine ⟨other, ?_, hname⟩
        rcases List.mem_append.mp hother with hother | hother
        · exact List.mem_append_left _ (List.mem_cons_of_mem _ hother)
        · exact List.mem_append_right _ (List.mem_cons_of_mem _ hother)
      · intro name hname
        rcases hname with rfl | rfl
        · exact ⟨row, List.mem_append_left _ List.mem_cons_self, rfl⟩
        · exact ⟨row', List.mem_append_right _ List.mem_cons_self, rfl⟩

/-- The sections of a race are alike, but for the tokens, just when the digests are taken of the
same records. -/
theorem race_shape_eq_iff (hconfig : SameConfig rename config config') {chips chips' : List ChipId}
    (hchips : chips.length = chips'.length) {entries entries' : List StoredManualEntry}
    (hentries : entries.length = entries'.length) {rows rows' : List RevisionRow}
    (hrows : List.Forall₂ SameRevision rows rows')
    (hhash : Set.InjOn (newV5 splitforgeNamespace)
      {name | ∃ row ∈ rows ++ rows', digestName row.revision = name}) :
    raceShape newV5 (fun _ => ()) config chips entries rows =
      raceShape newV5 (fun _ => ()) config' chips' entries' rows' ↔
    rows.map digestText = rows'.map digestText := by
  rw [← revision_summaries_eq_iff hrows hhash]
  constructor
  · intro heq
    exact congrArg RaceSection.revisions heq
  · intro hrevisions
    have hparticipants : config.config.participants.length =
        config'.config.participants.length := by
      simpa using hconfig.participants.length_eq
    have hassignments : config.config.assignments.length = config'.config.assignments.length := by
      simpa using hconfig.assignments.length_eq
    obtain ⟨participants, assignments, sessions, hsame⟩ := hconfig.config
    unfold raceShape
    rw [hrevisions, session_summaries_eq hconfig.sessions, hentries, hchips, hparticipants,
      hassignments, without_a_chip_eq hconfig, gun_time_eq hconfig, hconfig.event, hconfig.readers,
      hconfig.startMode, List.map_const', List.map_const', List.length_take, List.length_take,
      hchips, hsame]
    rfl

/-- The names that the digests of all published revisions are the hashes of. -/
def publishedNames (first second : EventDatabase) : Set String :=
  {name | ∃ row ∈ first.results.rows ++ second.results.rows, digestName row.revision = name}

theorem mem_of_mem_revisions {store : ResultStore} {race : RaceId} {row : RevisionRow}
    (h : row ∈ store.revisions race) : row ∈ store.rows :=
  (List.mem_filter.mp (mem_sort_by_key.mp h)).1

/-- The sections of one race are alike, but for the tokens, just when the digests are taken of the
same records. -/
theorem outline_race_section_iff (hrename : Function.Injective rename)
    (halike : SameButPeople rename first second) (hconfig : SameConfig rename config config')
    (hhash : Set.InjOn (newV5 splitforgeNamespace) (publishedNames first second))
    {shape shape' : RaceSection String}
    (h : raceSection newV5 id first (.of first.reads) config = .ok shape)
    (h' : raceSection newV5 id second (.of second.reads) config' = .ok shape') :
    outline shape = outline shape' ↔
      (first.results.revisions config.config.race.id).map digestText =
        (second.results.revisions config.config.race.id).map digestText := by
  have hcounts := same_counts_of hrename halike.reads
  have hchips : (unassigned config.config (.of first.reads)).length =
      (unassigned config'.config (.of second.reads)).length := by
    simpa using (unassigned_perm hrename hcounts hconfig).length_eq.symm
  have hrace : config'.config.race.id = config.config.race.id := by
    obtain ⟨_, _, _, hsame⟩ := hconfig.config
    rw [hsame]
  have hentries : (manualEntries first.manualEntries config.config.race.id).length =
      (manualEntries second.manualEntries config.config.race.id).length := by
    have hcount : ∀ rows : List StoredManualEntry,
        (manualEntries rows config.config.race.id).length =
          (rows.map namelessManualEntry).countP fun row =>
            row.entry.race = config.config.race.id := by
      intro rows
      rw [manualEntries, ← List.countP_eq_length_filter, List.countP_map]
      rfl
    rw [hcount, hcount, halike.manualEntries]
  rw [eq_of_race_section h, eq_of_race_section h', hrace]
  show Marked.rename _ _ = Marked.rename _ _ ↔ _
  rw [rename_race_shape, rename_race_shape]
  refine race_shape_eq_iff hconfig hchips hentries (revisions_beside halike _) (hhash.mono ?_)
  intro name ⟨row, hrow, hname⟩
  refine ⟨row, ?_, hname⟩
  rcases List.mem_append.mp hrow with hrow | hrow
  · exact List.mem_append_left _ (mem_of_mem_revisions hrow)
  · exact List.mem_append_right _ (mem_of_mem_revisions hrow)

/-- The sections of all races are. -/
theorem outline_race_sections_iff (hrename : Function.Injective rename)
    (halike : SameButPeople rename first second)
    (hhash : Set.InjOn (newV5 splitforgeNamespace) (publishedNames first second))
    {configs configs' : List EventConfig}
    (hconfigs : List.Forall₂ (SameConfig rename) configs configs')
    {races races' : List (RaceSection String)}
    (h : List.Forall₂ (fun config race =>
      raceSection newV5 id first (.of first.reads) config = .ok race) configs races)
    (h' : List.Forall₂ (fun config race =>
      raceSection newV5 id second (.of second.reads) config = .ok race) configs' races') :
    renameAll (fun _ => ()) races = renameAll (fun _ => ()) races' ↔
      ∀ config ∈ configs, (first.results.revisions config.config.race.id).map digestText =
        (second.results.revisions config.config.race.id).map digestText := by
  induction hconfigs generalizing races races' with
  | nil =>
      cases h
      cases h'
      exact iff_of_true rfl fun _ hmem => (List.not_mem_nil hmem).elim
  | cons hconfig _ ih =>
      cases h with
      | cons hrace hraces =>
          cases h' with
          | cons hrace' hraces' =>
              rw [renameAll, renameAll, List.map_cons, List.map_cons, List.cons_eq_cons,
                List.forall_mem_cons]
              exact and_congr (outline_race_section_iff hrename halike hconfig hhash hrace hrace')
                (ih hraces hraces')

/-- The audit trail goes out alike, but for the operators. -/
theorem audit_summaries_eq (halike : SameButPeople rename first second) :
    renameAll (fun _ => ()) ((auditTrail first.auditLog auditLimit).map (auditSummary id)) =
      renameAll (fun _ => ()) ((auditTrail second.auditLog auditLimit).map (auditSummary id)) := by
  have hview : ∀ rows : List AuditEntry,
      renameAll (fun _ => ()) ((auditTrail rows auditLimit).map (auditSummary id)) =
        (auditTrail (rows.map namelessAudit) auditLimit).map (auditSummary fun _ => ()) := by
    intro rows
    rw [auditTrail, auditTrail, ← List.map_reverse, ← List.map_take, List.map_map, renameAll,
      List.map_map]
    rfl
  rw [hview, hview, halike.auditLog]

/-- Two bundles are alike, but for the tokens, just when the digests are taken of the same
records. -/
theorem outline_build_iff (hrename : Function.Injective rename)
    (halike : SameButPeople rename first second) {report report' : DoctorReport}
    (hreport : SameReport moment.database report report')
    (hhash : Set.InjOn (newV5 splitforgeNamespace) (publishedNames first second))
    {bundle bundle' : Bundle String} (h : build newV5 id moment first report = .ok bundle)
    (h' : build newV5 id moment second report' = .ok bundle') :
    outline bundle = outline bundle' ↔
      ∀ config ∈ first.configs, (first.results.revisions config.config.race.id).map digestText =
        (second.results.revisions config.config.race.id).map digestText := by
  obtain ⟨device, races, hdevice, hraces, rfl⟩ := exists_of_build h
  obtain ⟨device', races', hdevice', hraces', rfl⟩ := exists_of_build h'
  have hjournal := @journal_section_eq moment _ _ _ (same_counts_of hrename halike.reads)
  rw [← outline_race_sections_iff hrename halike hhash halike.configs (forall₂_of_map_m hraces)
    (forall₂_of_map_m hraces'), device_section_eq halike hreport hdevice hdevice', hjournal,
    hreport.doctor]
  constructor
  · intro heq
    exact congrArg Bundle.races heq
  · intro heq
    show Marked.rename _ _ = Marked.rename _ _
    dsimp only [Marked.rename]
    rw [heq, audit_summaries_eq halike]

/-! ## What a bundle gives away -/

/-- The bundles of two databases that differ in people alone are one up to a one-to-one renaming of
their tokens just when the digests of what is published are taken of the same records, and what is
hashed is equal in the same places. -/
theorem bundles_alike_iff (newV5 : Uuid → String → Uuid) {names names' : String → String}
    (hrename : Function.Injective rename) (halike : SameButPeople rename first second)
    {report report' : DoctorReport} (hreport : SameReport moment.database report report')
    {bundle bundle' : Bundle String} (hbuild : build newV5 names moment first report = .ok bundle)
    (hbuild' : build newV5 names' moment second report' = .ok bundle')
    (hnames : Set.InjOn names {value | value ∈ hashed first})
    (hnames' : Set.InjOn names' {value | value ∈ hashed second})
    (hhash : Set.InjOn (newV5 splitforgeNamespace) (publishedNames first second)) :
    UpToRenaming bundle bundle' ↔ Concealed first second := by
  rw [build_rename] at hbuild hbuild'
  cases hplain : build newV5 id moment first report with
  | error error =>
      rw [hplain] at hbuild
      cases hbuild
  | ok plain =>
      cases hplain' : build newV5 id moment second report' with
      | error error =>
          rw [hplain'] at hbuild'
          cases hbuild'
      | ok plain' =>
          rw [hplain] at hbuild
          rw [hplain'] at hbuild'
          cases hbuild
          cases hbuild'
          rw [← tokens_build hplain] at hnames
          rw [← tokens_build hplain'] at hnames'
          rw [Marked.up_to_renaming_rename_iff hnames hnames',
            outline_build_iff hrename halike hreport hhash hplain hplain', tokens_build hplain,
            tokens_build hplain']
          exact ⟨fun h => ⟨h.1, h.2⟩, fun h => ⟨h.records, h.places⟩⟩

/-- A digest is taken of the bibs: where no bib holds a separator, revisions with the same records
have the same bibs in the same order. -/
theorem bibs_eq_of_digest_text {row row' : RevisionRow}
    (hplain : ∀ entry ∈ row.revision.entries, recordSeparator ∉ entry.bib.text.toList)
    (hplain' : ∀ entry ∈ row'.revision.entries, recordSeparator ∉ entry.bib.text.toList)
    (h : digestText row = digestText row') :
    row.revision.entries.map (·.bib) = row'.revision.entries.map (·.bib) := by
  rcases records_eq_or_takes_in h with hrecords | htakes | htakes
  · generalize row.revision.entries = entries at hrecords
    generalize row'.revision.entries = entries' at hrecords
    induction entries generalizing entries' with
    | nil => rw [List.map_eq_nil_iff.mp hrecords.symm]
    | cons entry entries ih =>
        obtain ⟨entry', rest, rfl, hentry, hrest⟩ := List.map_eq_cons_iff.mp hrecords.symm
        rw [List.map_cons, List.map_cons, (record_injective hentry.symm).1, ih rest hrest.symm]
  · exact absurd htakes (not_takes_in hplain)
  · exact absurd htakes (not_takes_in hplain')

/-- The operators whose names go out as tokens. -/
def operators (database : EventDatabase) : List String :=
  (database.configs.flatMap fun config => config.sessions.map (·.actor) ++
    (database.results.revisions config.config.race.id).map (·.actor)) ++
    (auditTrail database.auditLog auditLimit).map (·.actor)

/-- The chips that are listed for a race, as text, are listed once, and were read. -/
theorem listed_chips {reads : List StoredRawRead} (config : RaceConfig)
    (hnodup : (JournalSummary.of reads).chips.Nodup) :
    (((unassigned config (.of reads)).take tokenLimit).map (·.text)).Nodup ∧
      ∀ text ∈ ((unassigned config (.of reads)).take tokenLimit).map (·.text),
        ∃ stored ∈ reads, stored.read.chip.text = text := by
  constructor
  · have hlisted : ((unassigned config (.of reads)).take tokenLimit).Nodup :=
      (hnodup.filter _).sublist (List.take_sublist _ _)
    exact hlisted.map fun _ _ => Name.ext
  · intro text htext
    obtain ⟨chip, hchip, hname⟩ := List.mem_map.mp htext
    obtain ⟨stored, hstored, hread⟩ :=
      mem_reads_of_chip (List.mem_filter.mp (List.mem_of_mem_take hchip)).1
    exact ⟨stored, hstored, by rw [hread, hname]⟩

/-- Where one race is configured, what is hashed is equal in the same places if the names of the
operators are, and none of them is that of a chip. -/
theorem places_of_one_race (hrename : Function.Injective rename)
    (halike : SameButPeople rename first second) (hfirst : first.configs = [config])
    (hoperators : SamePlaces (operators first) (operators second))
    (hchips : ∀ stored ∈ first.reads, stored.read.chip.text ∉ operators first)
    (hchips' : ∀ stored ∈ second.reads, stored.read.chip.text ∉ operators second) :
    SamePlaces (hashed first) (hashed second) := by
  obtain ⟨config', hconfig, hsecond⟩ : ∃ config', SameConfig rename config config' ∧
      second.configs = [config'] := by
    have hconfigs := halike.configs
    rw [hfirst] at hconfigs
    cases hconfigs' : second.configs with
    | nil =>
        rw [hconfigs'] at hconfigs
        cases hconfigs
    | cons config' configs' =>
        rw [hconfigs'] at hconfigs
        obtain ⟨hconfig, hnil⟩ := List.forall₂_cons.mp hconfigs
        cases hnil
        exact ⟨config', hconfig, rfl⟩
  have hcounts := same_counts_of hrename halike.reads
  have hnodup' : (JournalSummary.of second.reads).chips.Nodup :=
    (hcounts.chips.nodup_iff).mpr (hcounts.nodup.map hrename)
  obtain ⟨honce, hread⟩ := listed_chips config.config hcounts.nodup
  obtain ⟨honce', hread'⟩ := listed_chips config'.config hnodup'
  have hsplit : ∀ {database : EventDatabase} {config : EventConfig}, database.configs = [config] →
      hashed database =
        ((unassigned config.config (.of database.reads)).take tokenLimit).map (·.text) ++
          operators database := by
    intro database config hconfigs
    rw [hashed, operators, hconfigs, List.flatMap_singleton, List.flatMap_singleton, hashedOfRace,
      List.append_assoc]
  rw [hsplit hfirst, hsplit hsecond]
  refine (same_places_of_nodup honce honce' ?_).append hoperators ?_ ?_
  · simp [(unassigned_perm hrename hcounts hconfig).length_eq]
  · intro text htext
    obtain ⟨stored, hstored, hname⟩ := hread text htext
    rw [← hname]
    exact hchips stored hstored
  · intro text htext
    obtain ⟨stored, hstored, hname⟩ := hread' text htext
    rw [← hname]
    exact hchips' stored hstored

/-! ## Two runners -/

/-- A read of a chip. -/
def strayRead (chip : String) : StoredRawRead where
  seq := 1
  recordedAt := Domain.second 10
  payloadSha256 := ""
  read := {
    id := ⟨.fromU128 1⟩
    source := ⟨"mat"⟩
    antenna := some 1
    chip := ⟨chip⟩
    readerTimestamp := none
    readerUptimeUs := none
    receivedAt := Domain.second 10
    receivedAtMonotonicNs := none
    rssiDbm := none
    deviceClockState := .ntpSynced
    timestampSource := .deviceReceipt .noReaderTimestamp
    clockOffsetMs := none
    rawPayload := [] }

/-- The race of two runners, who wear no chips, and who started it. -/
def runnersConfig (bib operator : String) : EventConfig where
  event := "event"
  config := {
    race := runnersRace
    checkpoints := (twoRunners bib 10 20).checkpoints
    participants := (twoRunners bib 10 20).participants
    assignments := []
    antennas := ⟨∅, ∅⟩
    policy := (twoRunners bib 10 20).policy.timing
    sessions := [⟨.start, Domain.second 0⟩]
    distinct := List.nodup_singleton _ }
  readers := []
  startMode := .gun
  sessions := [⟨1, ⟨.start, Domain.second 0⟩, operator, none, Domain.second 0⟩]
  recorded := rfl

/-- A database of two runners, with a read of a chip that nobody wears, and one operator. -/
def runnersDatabase (bib chip operator : String) : EventDatabase where
  minFreeBytes := none
  schemaVersion := 1
  reads := [strayRead chip]
  clockSteps := []
  manualEntries := []
  configs := [runnersConfig bib operator]
  results := ⟨[⟨runnersRevision 1 bib 10 20, operator⟩]⟩
  auditLog := []
  failing := fun _ => none

/-- A device without a sidecar. -/
def runnersMoment : Moment :=
  ⟨Domain.second 200, "0.1.0", ⟨some "event.db", ["event.db"]⟩, .ok ⟨0, 0⟩, some ⟨0, 0, 0, 0, 0, 0⟩,
    false⟩

/-- A diagnosis that found nothing. -/
def cleanReport : DoctorReport :=
  ⟨⟨"no_daemon_tool", none, "", none, none, none, none, none⟩, 0, 0, 0, []⟩

theorem same_but_people_runners {bib bib' : String} (chip chip' operator operator' : String)
    (hentries : ((runnersRevision 1 bib 10 20).entries.map namelessEntry).Perm
      ((runnersRevision 1 bib' 10 20).entries.map namelessEntry)) :
    SameButPeople (Equiv.swap ⟨chip⟩ ⟨chip'⟩) (runnersDatabase bib chip operator)
      (runnersDatabase bib' chip' operator') := by
  constructor
  · rfl
  · rfl
  · refine .cons ⟨[], "", ?_⟩ .nil
    rw [strayRead, strayRead, Equiv.swap_apply_left]
  · rfl
  · rfl
  · exact .cons ⟨rfl, ⟨_, _, _, rfl⟩, rfl, rfl, .refl _, .refl _, rfl⟩ .nil
  · exact .cons ⟨rfl, rfl, rfl, rfl, rfl, Iff.rfl, hentries⟩ .nil
  · rfl

/-- Two databases under one roster, with another chip and another operator, give the same away. -/
theorem bundles_alike_iff_two_runners : ∃ bundle bundle',
    build (fun _ => wordHash) (Pseudonymizer.token ⟨.fromU128 1⟩) runnersMoment
      (runnersDatabase "B" "A0" "ann") cleanReport = .ok bundle ∧
    build (fun _ => wordHash) (Pseudonymizer.token ⟨.fromU128 2⟩) runnersMoment
      (runnersDatabase "B" "B0" "bob") cleanReport = .ok bundle' ∧
    UpToRenaming bundle bundle' := by
  obtain ⟨bundle, hbuild⟩ := @exists_build _ (fun _ => wordHash)
    (Pseudonymizer.token ⟨.fromU128 1⟩) runnersMoment (runnersDatabase "B" "A0" "ann")
    (fun _ => rfl) cleanReport
  obtain ⟨bundle', hbuild'⟩ := @exists_build _ (fun _ => wordHash)
    (Pseudonymizer.token ⟨.fromU128 2⟩) runnersMoment (runnersDatabase "B" "B0" "bob")
    (fun _ => rfl) cleanReport
  have hnames : ∀ value ∈ ["A0", "ann", "ann"], ∀ other ∈ ["A0", "ann", "ann"],
      Pseudonymizer.token ⟨.fromU128 1⟩ value = Pseudonymizer.token ⟨.fromU128 1⟩ other →
        value = other := by decide +kernel
  have hnames' : ∀ value ∈ ["B0", "bob", "bob"], ∀ other ∈ ["B0", "bob", "bob"],
      Pseudonymizer.token ⟨.fromU128 2⟩ value = Pseudonymizer.token ⟨.fromU128 2⟩ other →
        value = other := by decide +kernel
  have hplaces : SamePlaces ["A0", "ann", "ann"] ["B0", "bob", "bob"] :=
    ⟨rfl, by
      intro i j
      rcases i with _ | _ | _ | i <;> rcases j with _ | _ | _ | j <;> simp⟩
  refine ⟨bundle, bundle', hbuild, hbuild', ?_⟩
  refine (bundles_alike_iff (fun _ => wordHash) (Equiv.swap _ _).injective
    (same_but_people_runners "A0" "B0" "ann" "bob" (.refl _)) ⟨rfl, rfl⟩ hbuild hbuild'
    (fun value hvalue other hother => hnames value hvalue other hother)
    (fun value hvalue other hother => hnames' value hvalue other hother) ?_).mpr ⟨?_, hplaces⟩
  · -- one revision is published in both
    refine Set.InjOn.mono ?_ (Set.injOn_singleton _ (digestName (runnersRevision 1 "B" 10 20)))
    intro name ⟨row, hrow, hname⟩
    rcases List.mem_append.mp hrow with hrow | hrow
    · rw [List.mem_singleton.mp hrow] at hname
      exact hname.symm
    · rw [List.mem_singleton.mp hrow] at hname
      exact hname.symm
  · intro config hconfig
    rw [List.mem_singleton.mp hconfig]
    rfl

/-- Two databases that differ in the bib of a runner are told apart by their bundles. -/
theorem not_bundles_alike : ¬ ∀ (newV5 : Uuid → String → Uuid) (names names' : String → String)
    (rename : ChipId → ChipId) (moment : Moment) (first second : EventDatabase)
    (report report' : DoctorReport) (bundle bundle' : Bundle String),
    Function.Injective rename → SameButPeople rename first second →
    SameReport moment.database report report' →
    build newV5 names moment first report = .ok bundle →
    build newV5 names' moment second report' = .ok bundle' →
    Set.InjOn names {value | value ∈ hashed first} →
    Set.InjOn names' {value | value ∈ hashed second} →
    Set.InjOn (newV5 splitforgeNamespace) (publishedNames first second) →
    UpToRenaming bundle bundle' := by
  intro h
  obtain ⟨bundle, hbuild⟩ := @exists_build _ (fun _ => wordHash)
    (Pseudonymizer.token ⟨.fromU128 1⟩) runnersMoment (runnersDatabase "B" "A0" "ann")
    (fun _ => rfl) cleanReport
  obtain ⟨bundle', hbuild'⟩ := @exists_build _ (fun _ => wordHash)
    (Pseudonymizer.token ⟨.fromU128 2⟩) runnersMoment (runnersDatabase "C" "A0" "ann")
    (fun _ => rfl) cleanReport
  have hnames : ∀ value ∈ ["A0", "ann", "ann"], ∀ other ∈ ["A0", "ann", "ann"],
      Pseudonymizer.token ⟨.fromU128 1⟩ value = Pseudonymizer.token ⟨.fromU128 1⟩ other →
        value = other := by decide +kernel
  have hnames' : ∀ value ∈ ["A0", "ann", "ann"], ∀ other ∈ ["A0", "ann", "ann"],
      Pseudonymizer.token ⟨.fromU128 2⟩ value = Pseudonymizer.token ⟨.fromU128 2⟩ other →
        value = other := by decide +kernel
  have hdifferent : wordHash (digestName (runnersRevision 1 "B" 10 20)) ≠
      wordHash (digestName (runnersRevision 1 "C" 10 20)) := by decide +kernel
  have hentries : (runnersRevision 1 "B" 10 20).entries.map namelessEntry =
      (runnersRevision 1 "C" 10 20).entries.map namelessEntry := by decide +kernel
  have hhash : Set.InjOn wordHash (publishedNames (runnersDatabase "B" "A0" "ann")
      (runnersDatabase "C" "A0" "ann")) := by
    refine Set.InjOn.mono ?_ (Set.injOn_pair.mpr fun heq => absurd heq hdifferent)
    intro name ⟨row, hrow, hname⟩
    rcases List.mem_append.mp hrow with hrow | hrow
    · rw [List.mem_singleton.mp hrow] at hname
      exact Or.inl hname.symm
    · rw [List.mem_singleton.mp hrow] at hname
      exact Or.inr hname.symm
  obtain ⟨f, _, hrename⟩ := h (fun _ => wordHash) _ _ _ runnersMoment _ _ cleanReport cleanReport
    bundle bundle' (Equiv.swap _ _).injective
    (same_but_people_runners "A0" "A0" "ann" "ann" (.of_eq hentries)) ⟨rfl, rfl⟩ hbuild hbuild'
    (fun value hvalue other hother => hnames value hvalue other hother)
    (fun value hvalue other hother => hnames' value hvalue other hother) hhash
  have hsame := shown_digests_rename f bundle
  rw [hrename, shown_digests_of_build hbuild, shown_digests_of_build hbuild'] at hsame
  have hdigest : (runnersRevision 1 "C" 10 20).digest (fun _ => wordHash) =
      (runnersRevision 1 "B" 10 20).digest fun _ => wordHash :=
    List.singleton_inj.mp (List.singleton_inj.mp hsame)
  exact hdifferent (simple_injective hdigest).symm

end Splitforge.Cli
