import Splitforge.Library.Fallible
import Splitforge.Storage.Config

/-!
# What the configuration store tells

The store after any calls, of which any may fail: it holds what the calls that succeeded said, and
nothing else. Of each row the first save says what it is filed under, and the last one the rest.
-/

namespace Splitforge.Storage.Config

open Splitforge.Domain Splitforge.Library
open Splitforge.Storage.Results (PolicyFits Texts TimingRecord orDecode orExpected timingBlock
  timingRecord policy_timing_record)

/-- A call that writes to the store. The intervals of a policy fit their type. -/
inductive ConfigOp where
  | saveEvent (event : Event)
  | saveRace (race : EventRace)
  | saveCheckpoint (checkpoint : Checkpoint)
  | importParticipants (participants : List Participant)
  | importAssignments (assignments : List ChipAssignment)
  | saveReader (reader : Reader)
  | mapAntenna (reader : ReaderId) (antenna : Option UInt16) (checkpoint : CheckpointId)
  | setPolicy (race : RaceId) (policy : TimingPolicy) (fits : PolicyFits policy)
  | setStartMode (race : RaceId) (mode : StartMode)
  | recordSession (race : RaceId) (session : RaceSession) (actor : String) (note : Option String)

/-- What a call writes, at an instant. -/
def ConfigOp.write (now : OffsetDateTime) (tables : ConfigTables) :
    ConfigOp → Except StorageError ConfigTables
  | .saveEvent event => Config.saveEvent now event tables
  | .saveRace race => Config.saveRace now race tables
  | .saveCheckpoint checkpoint => Config.saveCheckpoint checkpoint tables
  | .importParticipants participants =>
      (Config.importParticipants participants tables).map (·.2)
  | .importAssignments assignments =>
      (Config.importChipAssignments assignments tables).map (·.2)
  | .saveReader reader => Config.saveReader now reader tables
  | .mapAntenna reader antenna checkpoint => Config.mapPort reader antenna checkpoint tables
  | .setPolicy race policy _ => Config.setPolicy now race policy tables
  | .setStartMode race mode => Config.setStartMode now race mode tables
  | .recordSession race session actor note =>
      Config.recordSession now race session.action session.at actor note tables

/-- A call, the instant it is made at, and how SQLite fails it, if it does. -/
structure ConfigCall where
  op : ConfigOp
  now : OffsetDateTime
  failure : Option StorageError

/-- A start or a stop as it was recorded. -/
structure SessionSaid where
  now : OffsetDateTime
  race : RaceId
  session : RaceSession
  actor : String
  note : Option String

/-- What calls said, in their order: what was saved, and when where a row tells it. -/
structure Said where
  events : List (OffsetDateTime × Event)
  races : List (OffsetDateTime × EventRace)
  checkpoints : List Checkpoint
  participants : List Participant
  assignments : List ChipAssignment
  readers : List (OffsetDateTime × Reader)
  antennas : List (ReaderId × Option UInt16 × CheckpointId)
  policies : List (OffsetDateTime × RaceId × (TimingPolicy ⊕ StartMode))
  sessions : List SessionSaid

/-- What one call more said. -/
def Said.add (said : Said) (now : OffsetDateTime) : ConfigOp → Said
  | .saveEvent event => { said with events := said.events ++ [(now, event)] }
  | .saveRace race => { said with races := said.races ++ [(now, race)] }
  | .saveCheckpoint checkpoint => { said with checkpoints := said.checkpoints ++ [checkpoint] }
  | .importParticipants participants =>
      { said with participants := said.participants ++ participants }
  | .importAssignments assignments =>
      { said with assignments := said.assignments ++ assignments }
  | .saveReader reader => { said with readers := said.readers ++ [(now, reader)] }
  | .mapAntenna reader antenna checkpoint =>
      { said with antennas := said.antennas ++ [(reader, antenna, checkpoint)] }
  | .setPolicy race policy _ =>
      { said with policies := said.policies ++ [(now, race, .inl policy)] }
  | .setStartMode race mode =>
      { said with policies := said.policies ++ [(now, race, .inr mode)] }
  | .recordSession race session actor note =>
      { said with sessions := said.sessions ++ [⟨now, race, session, actor, note⟩] }

/-- The tables, and what the calls that succeeded said, which nothing looks at. -/
structure ConfigStore where
  tables : ConfigTables
  said : Said

/-- One call. What it wrote before it failed is rolled back. -/
def configStep (store : ConfigStore) (call : ConfigCall) : ConfigStore :=
  match call.failure with
  | some _ => store
  | none =>
      match call.op.write call.now store.tables with
      | .error _ => store
      | .ok tables => ⟨tables, store.said.add call.now call.op⟩

/-- A new store, after some calls. -/
def configured (calls : List ConfigCall) : ConfigStore :=
  run configStep ⟨.empty, ⟨[], [], [], [], [], [], [], [], []⟩⟩ calls

/-! ## Rows of what was said -/

/-- The row of an event. -/
def eventRow (saved : OffsetDateTime × Event) : EventRow :=
  ⟨saved.2.id, saved.2.name, micros saved.1⟩

/-- The row of a race. -/
def raceRow (saved : OffsetDateTime × EventRace) : RaceRow :=
  ⟨saved.2.id, saved.2.event, saved.2.name, saved.2.scheduledStart.map micros,
    Int64.ofInt saved.2.expectedLaps.toNat, micros saved.1⟩

/-- The row of a checkpoint. -/
def checkpointRow (saved : Checkpoint) : CheckpointRow :=
  ⟨saved.id, saved.race, saved.name, kindToStr saved.kind, Int64.ofInt saved.sequence.toNat⟩

/-- The row of a reader. -/
def readerRow (saved : OffsetDateTime × Reader) : ReaderRow :=
  ⟨saved.2.id, saved.2.label, saved.2.endpoint, saved.2.timestampTrust.asStr, micros saved.1⟩

/-- The row of a port. -/
def antennaRow (saved : ReaderId × Option UInt16 × CheckpointId) : ReaderAntenna :=
  ⟨saved.1, saved.2.1.map antennaColumn, saved.2.2⟩

/-- The upsert of a policy or of a start mode. -/
def policyChange (saved : OffsetDateTime × RaceId × (TimingPolicy ⊕ StartMode)) : PolicyChange :=
  match saved.2.2 with
  | .inl policy => .policy ⟨saved.2.1, timingToString policy, micros saved.1, "gun"⟩
  | .inr mode => .startMode ⟨saved.2.1, timingToString .default, micros saved.1, mode.asStr⟩

/-- The row of a start or a stop. -/
def sessionRow (said : SessionSaid) (seq : Nat) : StoredSession :=
  ⟨seq, said.race, said.session.action.asStr, micros said.session.at, said.actor, said.note,
    micros said.now⟩

/-- The tables hold what was said. -/
structure Told (said : Said) (tables : ConfigTables) : Prop where
  events : eventSaves.Holds (said.events.map eventRow) tables.events
  races : raceSaves.Holds (said.races.map raceRow) tables.races
  checkpoints : checkpointSaves.Holds (said.checkpoints.map checkpointRow) tables.checkpoints
  participants : participantSaves.Holds said.participants tables.participants
  assignments : assignmentSaves.Holds (said.assignments.map asRow) tables.assignments.rows
  readers : readerSaves.Holds (said.readers.map readerRow) tables.readers
  antennas : antennaSaves.Holds (said.antennas.map antennaRow) tables.antennas
  policies : policySaves.Holds (said.policies.map policyChange) tables.policies
  sessions : tables.sessions =
    said.sessions.mapIdx fun index session => sessionRow session (index + 1)
  fits : ∀ now race policy, (now, race, Sum.inl policy) ∈ said.policies → PolicyFits policy

/-- What the schema enforces: names are not shared under one owner, a participant has one bib, and
every reference is to a row that is there. -/
structure Sound (tables : ConfigTables) : Prop where
  eventNames : (tables.events.map (·.name)).Nodup
  raceNames : (tables.races.map fun row => (row.event, row.name)).Nodup
  checkpointNames : (tables.checkpoints.map fun row => (row.race, row.name)).Nodup
  participantIds : (tables.participants.map (·.id)).Nodup
  raceEvents : ∀ row ∈ tables.races, tables.hasEvent row.event = true
  checkpointRaces : ∀ row ∈ tables.checkpoints, tables.hasRace row.race = true
  participantRaces : ∀ row ∈ tables.participants, tables.hasRace row.race = true
  assignmentRefs : ∀ row ∈ tables.assignments.rows,
    tables.hasParticipant row.participant = true ∧ tables.hasRace row.race = true
  antennaRefs : ∀ row ∈ tables.antennas, tables.hasPort row.reader row.checkpoint = true
  policyRaces : ∀ row ∈ tables.policies, tables.hasRace row.race = true
  sessionRaces : ∀ row ∈ tables.sessions, tables.hasRace row.race = true

/-! ## Steps -/

section Steps

variable {Row Key Owner : Type} [DecidableEq Key] [DecidableEq Owner] {saves : Saves Row Row Key}
variable {owner : Row → Owner} {name : Row → String} {known : Owner → Bool} {columns : String}
variable {excluded : Row} {rows rows' changes : List Row}

/-- An upsert that succeeds is a save. -/
theorem save_named_ok (h : saveNamed saves owner name known columns excluded rows = .ok rows') :
    rows' = saves.put excluded rows := by
  simp only [saveNamed] at h
  split_ifs at h
  exact (Except.ok.inj h).symm

/-- An upsert that succeeds shares no name under one owner. -/
theorem save_named_names
    (h : saveNamed saves owner name known columns excluded rows = .ok rows')
    (howner : ∀ row change, owner (saves.amend row change) = owner row)
    (hname : ∀ row change, name (saves.amend row change) = name change)
    (hfresh : ∀ change, saves.fresh change = change)
    (hkeys : (rows.map saves.keyOf).Nodup)
    (hnames : (rows.map fun row => (owner row, name row)).Nodup) :
    (rows'.map fun row => (owner row, name row)).Nodup := by
  have hput := save_named_ok h
  simp only [saveNamed] at h
  split_ifs at h with hshared
  subst hput
  refine Saves.nodup_part_put hkeys hnames fun row hrow hkey hsame => hshared ?_
  obtain ⟨hsameOwner, hsameName⟩ := Prod.mk.inj hsame
  refine List.any_eq_true.mpr ⟨row, hrow, decide_eq_true ⟨hkey, hsameOwner.trans ?_,
    hsameName.trans ?_⟩⟩
  · cases rows.find? fun row => saves.keyOf row = saves.key excluded with
    | none => exact congrArg owner (hfresh excluded)
    | some before => exact howner before excluded
  · cases rows.find? fun row => saves.keyOf row = saves.key excluded with
    | none => exact congrArg name (hfresh excluded)
    | some before => exact hname before excluded

/-- An upsert that succeeds leaves every owner known. -/
theorem save_named_owners
    (h : saveNamed saves owner name known columns excluded rows = .ok rows')
    (howner : ∀ row change, owner (saves.amend row change) = owner row)
    (hfresh : ∀ change, saves.fresh change = change)
    (hkeys : (rows.map saves.keyOf).Nodup) (hknown : ∀ row ∈ rows, known (owner row) = true) :
    ∀ row ∈ rows', known (owner row) = true := by
  have hput := save_named_ok h
  simp only [saveNamed] at h
  split_ifs at h with _ hthere
  subst hput
  intro row hrow
  rcases (Saves.mem_put hkeys).mp hrow with ⟨hrow, _⟩ | rfl
  · exact hknown row hrow
  · cases hfind : rows.find? fun row => saves.keyOf row = saves.key excluded with
    | none =>
        rw [hfind] at hthere
        show known (owner (saves.fresh excluded)) = true
        rw [hfresh]
        simpa using hthere
    | some before =>
        show known (owner (saves.amend before excluded)) = true
        rw [howner]
        exact hknown before (List.mem_of_find?_eq_some hfind)

end Steps

section Writes

variable {said : Said} {tables tables' : ConfigTables} {now : OffsetDateTime}

/-- What is saved to stays there to refer to. -/
theorem any_put {Row Change Key : Type} [DecidableEq Key] (saves : Saves Row Change Key)
    {rows : List Row} {wanted : Key} (change : Change)
    (h : (rows.any fun row => saves.keyOf row = wanted) = true) :
    ((saves.put change rows).any fun row => saves.keyOf row = wanted) = true := by
  have hmem : wanted ∈ rows.map saves.keyOf := by simpa [List.any_eq_true] using h
  have hput : wanted ∈ (saves.put change rows).map saves.keyOf :=
    Saves.mem_keys_put.mpr (Or.inr hmem)
  simpa [List.any_eq_true] using hput

/-- One save more of a table. -/
theorem holds_put_map {Saved Row Change Key : Type} [DecidableEq Key]
    {saves : Saves Row Change Key} {saved : List Saved} {rows : List Row}
    {change : Saved → Change} (h : saves.Holds (saved.map change) rows) (next : Saved) :
    saves.Holds ((saved ++ [next]).map change) (saves.put (change next) rows) := by
  rw [List.map_append, List.map_singleton]
  exact h.put (change next)

/-- A saved event. -/
theorem told_save_event (h : Told said tables) (hsound : Sound tables) {event : Event}
    (hwrite : saveEvent now event tables = .ok tables') :
    Told (said.add now (.saveEvent event)) tables' ∧ Sound tables' := by
  rw [saveEvent] at hwrite
  obtain ⟨_, hmicros, hrest⟩ := exists_of_bind hwrite
  obtain ⟨rows, hrows, hdone⟩ := exists_of_bind hrest
  cases (to_micros_eq now).symm.trans hmicros
  cases hdone
  have hunnamed : (tables.events.map fun row => ((), row.name)).Nodup := by
    have hnodup := hsound.eventNames.map (f := fun name => ((), name))
      fun _ _ heq => (Prod.mk.inj heq).2
    rwa [List.map_map] at hnodup
  have hnames := save_named_names hrows (fun _ _ => rfl) (fun _ _ => rfl) (fun _ => rfl)
    h.events.nodup hunnamed
  have hput := save_named_ok hrows
  subst hput
  refine ⟨{ h with events := holds_put_map h.events (now, event) },
    { hsound with eventNames := ?_, raceEvents := fun row hrow => ?_ }⟩
  · refine List.Nodup.of_map (fun name => ((), name)) ?_
    rwa [List.map_map]
  · exact any_put eventSaves _ (hsound.raceEvents row hrow)

/-- A saved race. -/
theorem told_save_race (h : Told said tables) (hsound : Sound tables) {race : EventRace}
    (hwrite : saveRace now race tables = .ok tables') :
    Told (said.add now (.saveRace race)) tables' ∧ Sound tables' := by
  rw [saveRace] at hwrite
  obtain ⟨_, hscheduled, hsaved⟩ := exists_of_bind hwrite
  obtain ⟨_, hmicros, hrest⟩ := exists_of_bind hsaved
  obtain ⟨rows, hrows, hdone⟩ := exists_of_bind hrest
  cases (map_m_to_micros race.scheduledStart).symm.trans hscheduled
  cases (to_micros_eq now).symm.trans hmicros
  cases hdone
  have hnames := save_named_names hrows (fun _ _ => rfl) (fun _ _ => rfl) (fun _ => rfl)
    h.races.nodup hsound.raceNames
  have hevents := save_named_owners hrows (fun _ _ => rfl) (fun _ => rfl) h.races.nodup
    hsound.raceEvents
  have hput := save_named_ok hrows
  subst hput
  have hraces : ∀ other, tables.hasRace other = true →
      ((raceSaves.put (raceRow (now, race)) tables.races).any fun row => row.id = other) = true :=
    fun other hother => any_put raceSaves _ hother
  exact ⟨{ h with races := holds_put_map h.races (now, race) },
    { hsound with
      raceNames := hnames
      raceEvents := hevents
      checkpointRaces := fun row hrow => hraces _ (hsound.checkpointRaces row hrow)
      participantRaces := fun row hrow => hraces _ (hsound.participantRaces row hrow)
      assignmentRefs := fun row hrow =>
        ⟨(hsound.assignmentRefs row hrow).1, hraces _ (hsound.assignmentRefs row hrow).2⟩
      policyRaces := fun row hrow => hraces _ (hsound.policyRaces row hrow)
      sessionRaces := fun row hrow => hraces _ (hsound.sessionRaces row hrow) }⟩

/-- A saved checkpoint. -/
theorem told_save_checkpoint (h : Told said tables) (hsound : Sound tables)
    {checkpoint : Checkpoint} (hwrite : saveCheckpoint checkpoint tables = .ok tables') :
    Told (said.add now (.saveCheckpoint checkpoint)) tables' ∧ Sound tables' := by
  rw [saveCheckpoint] at hwrite
  obtain ⟨rows, hrows, hdone⟩ := exists_of_bind hwrite
  cases hdone
  have hnames := save_named_names hrows (fun _ _ => rfl) (fun _ _ => rfl) (fun _ => rfl)
    h.checkpoints.nodup hsound.checkpointNames
  have hraces := save_named_owners hrows (fun _ _ => rfl) (fun _ => rfl) h.checkpoints.nodup
    hsound.checkpointRaces
  have hput := save_named_ok hrows
  subst hput
  refine ⟨{ h with checkpoints := holds_put_map h.checkpoints checkpoint },
    { hsound with
      checkpointNames := hnames
      checkpointRaces := hraces
      antennaRefs := fun row hrow => ?_ }⟩
  obtain ⟨hreader, hcheckpoint⟩ := (Bool.and_eq_true _ _).mp (hsound.antennaRefs row hrow)
  exact (Bool.and_eq_true _ _).mpr ⟨hreader, any_put checkpointSaves _ hcheckpoint⟩

/-- A saved reader. -/
theorem told_save_reader (h : Told said tables) (hsound : Sound tables) {reader : Reader}
    (hwrite : saveReader now reader tables = .ok tables') :
    Told (said.add now (.saveReader reader)) tables' ∧ Sound tables' := by
  rw [saveReader] at hwrite
  obtain ⟨_, hmicros, hdone⟩ := exists_of_bind hwrite
  cases (to_micros_eq now).symm.trans hmicros
  cases hdone
  refine ⟨{ h with readers := holds_put_map h.readers (now, reader) },
    { hsound with antennaRefs := fun row hrow => ?_ }⟩
  obtain ⟨hreader, hcheckpoint⟩ := (Bool.and_eq_true _ _).mp (hsound.antennaRefs row hrow)
  exact (Bool.and_eq_true _ _).mpr ⟨any_put readerSaves _ hreader, hcheckpoint⟩

/-- A mapped antenna. -/
theorem told_map_port (h : Told said tables) (hsound : Sound tables) {reader : ReaderId}
    {antenna : Option UInt16} {checkpoint : CheckpointId}
    (hwrite : mapPort reader antenna checkpoint tables = .ok tables') :
    Told (said.add now (.mapAntenna reader antenna checkpoint)) tables' ∧ Sound tables' := by
  rw [mapPort] at hwrite
  split_ifs at hwrite with hport
  cases hwrite
  refine ⟨{ h with antennas := ?_ }, { hsound with antennaRefs := fun row hrow => ?_ }⟩
  · show antennaSaves.Holds ((said.antennas ++ [(reader, antenna, checkpoint)]).map antennaRow) _
    rw [List.map_append, List.map_singleton]
    refine h.antennas.of_mem (nodup_mapped h.antennas.nodup _) fun row => ?_
    rw [mem_mapped]
    cases antennaSaves.told (said.antennas.map antennaRow)
      (antennaSaves.key (antennaRow (reader, antenna, checkpoint))) <;> exact Iff.rfl
  · rcases mem_mapped.mp hrow with ⟨hrow, _⟩ | rfl
    · exact hsound.antennaRefs row hrow
    · exact hport

/-- A policy or a start mode that was set. -/
theorem told_save_policy (h : Told said tables) (hsound : Sound tables) {change : PolicyChange}
    (hwrite : savePolicy change tables = .ok tables') :
    tables' = { tables with policies := policySaves.put change tables.policies } ∧
      Sound tables' := by
  rw [savePolicy] at hwrite
  split_ifs at hwrite with hknown
  cases hwrite
  refine ⟨rfl, { hsound with policyRaces := fun row hrow => ?_ }⟩
  have hrace : tables.hasRace change.excluded.race = true := by
    rcases (Bool.or_eq_true _ _).mp hknown with hthere | hrace
    · obtain ⟨other, hother, hsame⟩ := List.any_eq_true.mp hthere
      rw [← of_decide_eq_true hsame]
      exact hsound.policyRaces other hother
    · exact hrace
  rcases (Saves.mem_put h.policies.nodup).mp hrow with ⟨hrow, _⟩ | heq
  · exact hsound.policyRaces row hrow
  · have hkey : row.race = change.excluded.race := by
      rw [heq]
      cases hfind : tables.policies.find? fun row => policySaves.keyOf row = policySaves.key change
      with
      | none => rfl
      | some before =>
          have hsame : policySaves.keyOf before = policySaves.key change := by
            simpa using List.find?_some hfind
          exact policySaves.key_amend before change hsame
    show tables.hasRace row.race = true
    rw [hkey]
    exact hrace

/-- A set policy. -/
theorem told_set_policy (h : Told said tables) (hsound : Sound tables) {race : RaceId}
    {policy : TimingPolicy} (hfits : PolicyFits policy)
    (hwrite : setPolicy now race policy tables = .ok tables') :
    Told (said.add now (.setPolicy race policy hfits)) tables' ∧ Sound tables' := by
  rw [setPolicy] at hwrite
  obtain ⟨_, hmicros, hdone⟩ := exists_of_bind hwrite
  cases (to_micros_eq now).symm.trans hmicros
  obtain ⟨rfl, hsound⟩ := told_save_policy h hsound hdone
  refine ⟨{ h with
    policies := holds_put_map h.policies (now, race, .inl policy)
    fits := fun instant other set hset => ?_ }, hsound⟩
  rcases List.mem_append.mp hset with hset | hset
  · exact h.fits instant other set hset
  · obtain ⟨_, hpair⟩ := Prod.mk.inj (List.mem_singleton.mp hset)
    rw [Sum.inl.inj (Prod.mk.inj hpair).2]
    exact hfits

/-- A set start mode. -/
theorem told_set_start_mode (h : Told said tables) (hsound : Sound tables) {race : RaceId}
    {mode : StartMode} (hwrite : setStartMode now race mode tables = .ok tables') :
    Told (said.add now (.setStartMode race mode)) tables' ∧ Sound tables' := by
  rw [setStartMode] at hwrite
  obtain ⟨_, hmicros, hdone⟩ := exists_of_bind hwrite
  cases (to_micros_eq now).symm.trans hmicros
  obtain ⟨rfl, hsound⟩ := told_save_policy h hsound hdone
  refine ⟨{ h with
    policies := holds_put_map h.policies (now, race, .inr mode)
    fits := fun instant other set hset => ?_ }, hsound⟩
  rcases List.mem_append.mp hset with hset | hset
  · exact h.fits instant other set hset
  · obtain ⟨_, hpair⟩ := Prod.mk.inj (List.mem_singleton.mp hset)
    cases (Prod.mk.inj hpair).2

/-- A recorded start or stop. -/
theorem told_record_session (h : Told said tables) (hsound : Sound tables) {race : RaceId}
    {session : RaceSession} {actor : String} {note : Option String}
    (hwrite : recordSession now race session.action session.at actor note tables =
      .ok tables') :
    Told (said.add now (.recordSession race session actor note)) tables' ∧ Sound tables' := by
  rw [recordSession] at hwrite
  obtain ⟨_, hat, hrest⟩ := exists_of_bind hwrite
  obtain ⟨_, hmicros, hdone⟩ := exists_of_bind hrest
  cases (to_micros_eq session.at).symm.trans hat
  cases (to_micros_eq now).symm.trans hmicros
  split_ifs at hdone with hrace
  cases hdone
  refine ⟨{ h with sessions := ?_ }, { hsound with sessionRaces := fun row hrow => ?_ }⟩
  · simp only [Said.add, List.mapIdx_append, List.mapIdx_cons, List.mapIdx_nil, h.sessions,
      sessionRow, Nat.zero_add]
    simp
  · rcases List.mem_append.mp hrow with hrow | hrow
    · exact hsound.sessionRaces row hrow
    · rw [List.mem_singleton.mp hrow]
      exact hrace

/-- A participant that is put in keeps the participants there are to refer to. -/
theorem has_participant_put {participant : Participant}
    (hkeys : (tables.participants.map participantSaves.keyOf).Nodup) {wanted : ParticipantId}
    (h : tables.hasParticipant wanted = true) :
    ((participantSaves.put participant tables.participants).any fun row => row.id = wanted) =
      true := by
  obtain ⟨row, hrow, hid⟩ := List.any_eq_true.mp h
  refine List.any_eq_true.mpr ?_
  by_cases hkey : participantSaves.keyOf row = participantSaves.key participant
  · refine ⟨_, (Saves.mem_put hkeys).mpr (Or.inr rfl), ?_⟩
    rw [← hkey, find_key_eq hkeys hrow]
    exact hid
  · exact ⟨row, (Saves.mem_put hkeys).mpr (Or.inl ⟨hrow, hkey⟩), hid⟩

/-- What one line of a roster does: whoever has the bib is left or renamed, or somebody is added. -/
theorem import_participant_cases {summary summary' : ImportSummary} {participant : Participant}
    (h : importParticipant (summary, tables) participant = .ok (summary', tables')) :
    (∃ existing, (tables.participants.find? fun row =>
        (row.race, row.bib) = (participant.race, participant.bib)) = some existing ∧
      existing.name = participant.name ∧
      summary' = { summary with unchanged := summary.unchanged + 1 } ∧ tables' = tables) ∨
    (∃ existing, (tables.participants.find? fun row =>
        (row.race, row.bib) = (participant.race, participant.bib)) = some existing ∧
      existing.name ≠ participant.name ∧
      summary' = { summary with updated := summary.updated + 1 } ∧
      tables' = { tables with
        participants := participantSaves.put participant tables.participants }) ∨
    ((tables.participants.find? fun row =>
        (row.race, row.bib) = (participant.race, participant.bib)) = none ∧
      tables.hasParticipant participant.id = false ∧ tables.hasRace participant.race = true ∧
      summary' = { summary with inserted := summary.inserted + 1 } ∧
      tables' = { tables with
        participants := participantSaves.put participant tables.participants }) := by
  simp only [importParticipant] at h
  cases hfind : tables.participants.find? fun row =>
      (row.race, row.bib) = (participant.race, participant.bib) with
  | none =>
      simp only [hfind] at h
      split_ifs at h with hthere hrace
      cases h
      exact Or.inr (Or.inr ⟨rfl, by simpa using hthere, hrace, rfl, rfl⟩)
  | some existing =>
      simp only [hfind] at h
      split_ifs at h with hname
      · cases h
        exact Or.inl ⟨existing, rfl, hname, rfl, rfl⟩
      · cases h
        exact Or.inr (Or.inl ⟨existing, rfl, hname, rfl, rfl⟩)

/-- One participant of an import. -/
theorem told_import_participant (h : Told said tables) (hsound : Sound tables)
    {summary summary' : ImportSummary} {participant : Participant}
    (hwrite : importParticipant (summary, tables) participant = .ok (summary', tables')) :
    Told { said with participants := said.participants ++ [participant] } tables' ∧
      Sound tables' := by
  -- the row that is put, and why it may be
  have hput : tables' = { tables with
        participants := participantSaves.put participant tables.participants } ∧
      ((tables.participants.find? fun row => participantSaves.keyOf row =
          participantSaves.key participant) = none →
        tables.hasParticipant participant.id = false ∧
          tables.hasRace participant.race = true) := by
    rcases import_participant_cases hwrite with ⟨existing, hfind, hname, _, rfl⟩ |
      ⟨existing, hfind, _, _, rfl⟩ | ⟨_, hthere, hrace, _, rfl⟩
    · have hsame : participantSaves.amend existing participant = existing := by
        show { existing with name := participant.name } = existing
        rw [← hname]
      exact ⟨by rw [Saves.put_eq_self hfind hsame],
        fun hnone => absurd (hnone.symm.trans hfind) (by simp)⟩
    · exact ⟨rfl, fun hnone => absurd (hnone.symm.trans hfind) (by simp)⟩
    · exact ⟨rfl, fun _ => ⟨hthere, hrace⟩⟩
  obtain ⟨rfl, hnew⟩ := hput
  have hkeys := h.participants.nodup
  refine ⟨{ h with participants := h.participants.put participant }, { hsound with
    participantIds := Saves.nodup_part_put hkeys hsound.participantIds
      fun row hrow hkey hsame => ?_
    participantRaces := fun row hrow => ?_
    assignmentRefs := fun row hrow =>
      ⟨has_participant_put hkeys (hsound.assignmentRefs row hrow).1,
        (hsound.assignmentRefs row hrow).2⟩ }⟩
  · cases hfind : tables.participants.find? fun row =>
        participantSaves.keyOf row = participantSaves.key participant with
    | none =>
        rw [hfind] at hsame
        have hthere : tables.hasParticipant participant.id = true :=
          List.any_eq_true.mpr ⟨row, hrow, decide_eq_true hsame⟩
        rw [(hnew hfind).1] at hthere
        cases hthere
    | some existing =>
        rw [hfind] at hsame
        have hexisting := List.mem_of_find?_eq_some hfind
        have hrow' : row = existing :=
          List.inj_on_of_nodup_map hsound.participantIds hrow hexisting hsame
        exact hkey (hrow' ▸ by simpa using List.find?_some hfind)
  · rcases (Saves.mem_put hkeys).mp hrow with ⟨hrow, _⟩ | rfl
    · exact hsound.participantRaces row hrow
    · cases hfind : tables.participants.find? fun row =>
          participantSaves.keyOf row = participantSaves.key participant with
      | none => exact (hnew hfind).2
      | some existing => exact hsound.participantRaces existing (List.mem_of_find?_eq_some hfind)

/-- Imported participants. -/
theorem told_import_participants (h : Told said tables) (hsound : Sound tables)
    {summary summary' : ImportSummary} {participants : List Participant}
    (hwrite : participants.foldlM importParticipant (summary, tables) = .ok (summary', tables')) :
    Told (said.add now (.importParticipants participants)) tables' ∧ Sound tables' := by
  induction participants generalizing said summary tables with
  | nil =>
      cases hwrite
      refine ⟨{ h with participants := ?_ }, hsound⟩
      show participantSaves.Holds (said.participants ++ []) _
      rw [List.append_nil]
      exact h.participants
  | cons participant participants ih =>
      rw [List.foldlM_cons] at hwrite
      obtain ⟨⟨next, between⟩, hone, hrest⟩ := exists_of_bind hwrite
      obtain ⟨htold, hbetween⟩ := told_import_participant h hsound hone
      obtain ⟨hall, hafter⟩ := ih htold hbetween hrest
      refine ⟨{ hall with participants := ?_ }, hafter⟩
      have hparticipants := hall.participants
      show participantSaves.Holds (said.participants ++ participant :: participants) _
      rwa [Said.add, List.append_assoc] at hparticipants

/-- The rows of assignments are upserted. -/
theorem put_eq_upsert (row : AssignmentRow) (rows : List AssignmentRow) :
    assignmentSaves.put row rows = upsert (·.key) row rows := by
  induction rows with
  | nil => rfl
  | cons other rows ih =>
      rw [Saves.put, upsert, ih]
      rfl

/-- One assignment of an import. -/
theorem told_import_referenced (h : Told said tables) (hsound : Sound tables)
    {summary summary' : ImportSummary} {table' : AssignmentTable} {assignment : ChipAssignment}
    (hwrite : importReferenced tables (summary, tables.assignments) assignment =
      .ok (summary', table')) :
    Told { said with assignments := said.assignments ++ [assignment] }
      { tables with assignments := table' } ∧ Sound { tables with assignments := table' } := by
  rw [importReferenced] at hwrite
  obtain ⟨next, hnext, hdone⟩ := exists_of_bind hwrite
  obtain ⟨counted, himport, hunchanged, _⟩ :=
    import_assignment_eq summary tables.assignments assignment
  cases himport.symm.trans hnext
  split_ifs at hdone with hknown
  cases hdone
  have hrefs : tables.hasParticipant assignment.participant = true ∧
      tables.hasRace assignment.race = true := by
    rcases hknown with hsame | hknown
    · dsimp only at hsame
      by_cases hthere : asRow assignment ∈ tables.assignments.rows
      · exact hsound.assignmentRefs _ hthere
      · rw [hunchanged, if_neg hthere] at hsame
        exact absurd rfl hsame
    · exact hknown
  refine ⟨{ h with assignments := ?_ },
    { hsound with assignmentRefs := fun row hrow => ?_ }⟩
  · have hput := holds_put_map h.assignments assignment
    rwa [put_eq_upsert] at hput
  · rcases (mem_upsert tables.assignments.keyed).mp hrow with rfl | ⟨hrow, _⟩
    · exact hrefs
    · exact hsound.assignmentRefs row hrow

/-- Imported assignments. -/
theorem told_import_assignments (h : Told said tables) (hsound : Sound tables)
    {summary summary' : ImportSummary} {table' : AssignmentTable}
    {assignments : List ChipAssignment}
    (hwrite : assignments.foldlM (importReferenced tables) (summary, tables.assignments) =
      .ok (summary', table')) :
    Told (said.add now (.importAssignments assignments)) { tables with assignments := table' } ∧
      Sound { tables with assignments := table' } := by
  induction assignments generalizing said summary tables with
  | nil =>
      cases hwrite
      refine ⟨{ h with assignments := ?_ }, hsound⟩
      show assignmentSaves.Holds ((said.assignments ++ []).map asRow) _
      rw [List.append_nil]
      exact h.assignments
  | cons assignment assignments ih =>
      rw [List.foldlM_cons] at hwrite
      obtain ⟨⟨next, between⟩, hone, hrest⟩ := exists_of_bind hwrite
      obtain ⟨htold, hbetween⟩ := told_import_referenced h hsound hone
      obtain ⟨hall, hafter⟩ := ih htold hbetween hrest
      refine ⟨{ hall with assignments := ?_ }, hafter⟩
      have hassignments := hall.assignments
      show assignmentSaves.Holds ((said.assignments ++ assignment :: assignments).map asRow) _
      rwa [Said.add, List.append_assoc] at hassignments

/-- What a call that succeeds writes is what it says. -/
theorem told_write (h : Told said tables) (hsound : Sound tables) {op : ConfigOp}
    (hwrite : op.write now tables = .ok tables') :
    Told (said.add now op) tables' ∧ Sound tables' := by
  cases op with
  | saveEvent event => exact told_save_event h hsound hwrite
  | saveRace race => exact told_save_race h hsound hwrite
  | saveCheckpoint checkpoint => exact told_save_checkpoint h hsound hwrite
  | importParticipants participants =>
      rw [ConfigOp.write, Config.importParticipants] at hwrite
      cases himport : participants.foldlM importParticipant (⟨0, 0, 0⟩, tables) with
      | error error =>
          rw [himport] at hwrite
          cases hwrite
      | ok result =>
          rw [himport] at hwrite
          cases hwrite
          exact told_import_participants h hsound himport
  | importAssignments assignments =>
      rw [ConfigOp.write, Config.importChipAssignments] at hwrite
      cases himport :
          assignments.foldlM (importReferenced tables) (⟨0, 0, 0⟩, tables.assignments) with
      | error error =>
          rw [himport] at hwrite
          cases hwrite
      | ok result =>
          rw [himport] at hwrite
          cases hwrite
          exact told_import_assignments h hsound himport
  | saveReader reader => exact told_save_reader h hsound hwrite
  | mapAntenna reader antenna checkpoint => exact told_map_port h hsound hwrite
  | setPolicy race policy fits => exact told_set_policy h hsound fits hwrite
  | setStartMode race mode => exact told_set_start_mode h hsound hwrite
  | recordSession race session actor note => exact told_record_session h hsound hwrite

/-- After any calls the tables hold what those that succeeded said, and the schema is kept. -/
theorem told_configured (calls : List ConfigCall) :
    Told (configured calls).said (configured calls).tables ∧
      Sound (configured calls).tables := by
  refine @run_keeps _ _ configStep (fun store =>
    Told store.said store.tables ∧ Sound store.tables) ?_ _ ?_ calls
  · intro store call h
    rw [configStep]
    split
    · exact h
    · split
      · exact h
      · rename_i tables hwrite
        exact told_write h.1 h.2 hwrite
  · exact ⟨⟨Saves.holds_nil, Saves.holds_nil, Saves.holds_nil, Saves.holds_nil, Saves.holds_nil,
        Saves.holds_nil, Saves.holds_nil, Saves.holds_nil, rfl,
        fun _ _ _ h => absurd h List.not_mem_nil⟩,
      ⟨List.nodup_nil, List.nodup_nil, List.nodup_nil, List.nodup_nil,
        fun _ h => absurd h List.not_mem_nil, fun _ h => absurd h List.not_mem_nil,
        fun _ h => absurd h List.not_mem_nil, fun _ h => absurd h List.not_mem_nil,
        fun _ h => absurd h List.not_mem_nil, fun _ h => absurd h List.not_mem_nil,
        fun _ h => absurd h List.not_mem_nil⟩⟩

end Writes

end Splitforge.Storage.Config
