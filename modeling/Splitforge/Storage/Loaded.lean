import Splitforge.Storage.Configured

/-!
# A race as it is loaded

Whatever calls were made and failed, a race that was saved loads. It is loaded with the event its
first save named, with the checkpoints that were first saved for it, and with everyone under the
identifier their bib was first imported with. Everything else is as it was said last.
-/

namespace Splitforge.Storage.Config

open Splitforge.Domain Splitforge.Library
open Splitforge.Storage.Results (PolicyFits Texts TimingRecord orDecode orExpected timingBlock
  timingRecord policy_timing_record)

/-! ## What a race is told to be -/

/-- A race, by its first save and its last. -/
def raceOf (first last : OffsetDateTime × EventRace) : EventRace :=
  { last.2 with
    event := first.2.event
    scheduledStart := last.2.scheduledStart.map wholeMicros }

/-- The checkpoint a port was mapped to last, if it was first saved for a race. -/
def Said.portOf (said : Said) (race : RaceId) (port : ReaderId × Option UInt16) :
    Option CheckpointId :=
  ((said.antennas.filter fun saved => (saved.1, saved.2.1) = port).getLast?.map (·.2.2)).filter
    fun checkpoint => (said.checkpoints.find? fun saved => saved.id = checkpoint).any fun saved =>
      saved.race = race

/-- The policy a race was given last, or the default one. -/
def Said.policyOf (said : Said) (race : RaceId) : TimingPolicy :=
  (((said.policies.filter fun saved => saved.2.1 = race).filterMap fun saved =>
    saved.2.2.getLeft?).getLast?).getD .default

/-- The start mode a race was given last, or the gun. -/
def Said.startModeOf (said : Said) (race : RaceId) : StartMode :=
  (((said.policies.filter fun saved => saved.2.1 = race).filterMap fun saved =>
    saved.2.2.getRight?).getLast?).getD .gun

/-- A start or a stop as it comes back, under its number. -/
def SessionSaid.row (said : SessionSaid) (seq : Nat) : SessionRow :=
  ⟨seq, ⟨said.session.action, wholeMicros said.session.at⟩, said.actor, said.note,
    wholeMicros said.now⟩

/-- The starts and stops that were recorded, numbered in their order. -/
def Said.numbered (said : Said) : List (SessionSaid × Nat) :=
  said.sessions.mapIdx fun index session => (session, index + 1)

/-- The starts and stops of a race, numbered among those of every race. -/
def Said.sessionsOf (said : Said) (race : RaceId) : List SessionRow :=
  (said.numbered.filter fun entry => entry.1.race = race).map fun entry => entry.1.row entry.2

/-- A configuration is what was said of a race. -/
structure Tells (said : Said) (wanted : RaceId) (config : LoadedConfig) : Prop where
  race : ∃ first last, FirstLast (·.2.id) said.races wanted first last ∧
    config.race = raceOf first last
  event : ∃ last, LastSave (·.2.id) said.events config.race.event last ∧ config.event = last.2
  checkpoints : ∀ checkpoint, checkpoint ∈ config.checkpoints ↔ ∃ first last,
    FirstLast (·.id) said.checkpoints checkpoint.id first last ∧ first.race = wanted ∧
      checkpoint = { last with race := wanted }
  courseOrder : config.checkpoints.Pairwise fun first second =>
    toLex (first.sequence.toNat, first.name) < toLex (second.sequence.toNat, second.name)
  participants : ∀ participant, participant ∈ config.participants ↔ ∃ first last,
    FirstLast (fun saved => (saved.race, saved.bib)) said.participants (wanted, participant.bib)
      first last ∧ participant = { first with name := last.name }
  bibOrder : config.participants.Pairwise fun first second => first.bib.text < second.bib.text
  assignments : ∀ assignment, assignment ∈ config.assignments ↔ ∃ last,
    LastSave (fun saved => (asRow saved).key) said.assignments (asRow assignment).key last ∧
      last.race = wanted ∧ assignment = asHeld last
  readers : ∀ reader, reader ∈ config.readers ↔ ∃ last,
    LastSave (·.2.id) said.readers reader.id last ∧ reader = last.2
  antennas : ∀ reader antenna, config.antennas.resolve reader antenna =
    (antenna.bind fun port => said.portOf wanted (reader, some port)).or
      (said.portOf wanted (reader, none))
  policy : config.policy = said.policyOf wanted
  startMode : config.startMode = said.startModeOf wanted
  sessions : config.sessions = said.sessionsOf wanted

/-! ## Rows and what they say -/

section Rows

variable {said : Said} {tables : ConfigTables} {wanted : RaceId} (texts : Texts)

/-- The rows of one owner have different keys where a key tells the name. -/
theorem nodup_within {Row Owner Name Key : Type} [DecidableEq Owner] {owner : Row → Owner}
    {name : Row → Name} {key : Row → Key} {rows : List Row} (whose : Owner)
    (hnames : (rows.map fun row => (owner row, name row)).Nodup)
    (hkey : ∀ row other, key row = key other → name row = name other) :
    ((rows.filter fun row => owner row = whose).map key).Nodup := by
  rw [List.Nodup, List.pairwise_map] at hnames ⊢
  refine List.Pairwise.imp_of_mem ?_ (hnames.filter _)
  intro row other hrow hother hne heq
  have howner := of_decide_eq_true (List.mem_filter.mp hrow).2
  have hsame := of_decide_eq_true (List.mem_filter.mp hother).2
  exact hne (Prod.ext (howner.trans hsame.symm) (hkey row other heq))

/-- A `u16` column reads back. -/
theorem u16_try_from_of_nat (value : UInt16) :
    u16TryFrom (Int64.ofInt value.toNat) = some value :=
  u16_try_from_antenna_column value

/-- A name of a checkpoint's kind reads back. -/
theorem kind_from_str_kind_to_str (kind : CheckpointKind) :
    kindFromStr texts (kindToStr kind) = .ok kind := by
  cases kind with
  | start => rfl
  | split => rfl
  | finish => rfl
  | lap => rfl

/-- An instant that may be absent reads back. -/
theorem map_m_from_micros (instant : Option OffsetDateTime) :
    (instant.map micros).mapM fromMicros = .ok (instant.map wholeMicros) := by
  cases instant with
  | none => rfl
  | some instant =>
      rw [Option.map_some, Option.mapM_some, from_micros_micros]
      rfl

/-- A race's row is read. -/
theorem race_from_row {first last : OffsetDateTime × EventRace} (hid : first.2.id = last.2.id) :
    raceFromRow (raceSaves.amend (raceRow first) (raceRow last)) = .ok (raceOf first last) := by
  obtain ⟨created, ⟨⟨id, name, scheduledStart, expectedLaps⟩, event⟩⟩ := first
  obtain ⟨updated, ⟨⟨id', name', scheduledStart', expectedLaps'⟩, event'⟩⟩ := last
  cases hid
  show (Option.mapM fromMicros (scheduledStart'.map micros)).bind _ = _
  rw [map_m_from_micros]
  show (orDecode _ (u16TryFrom (Int64.ofInt expectedLaps'.toNat))).bind _ = _
  rw [u16_try_from_of_nat]
  rfl

/-- A checkpoint's row is read. -/
theorem checkpoint_from_row (checkpoint : Checkpoint) :
    checkpointFromRow texts (checkpointRow checkpoint) = .ok checkpoint := by
  obtain ⟨id, race, name, kind, sequence⟩ := checkpoint
  show (kindFromStr texts (kindToStr kind)).bind _ = _
  rw [kind_from_str_kind_to_str]
  show (orDecode _ (u16TryFrom (Int64.ofInt sequence.toNat))).bind _ = _
  rw [u16_try_from_of_nat]
  rfl

/-- A reader's row is read. -/
theorem reader_from_row (saved : OffsetDateTime × Reader) :
    readerFromRow texts (readerRow saved) = .ok saved.2 := by
  obtain ⟨created, ⟨id, label, endpoint, trust⟩⟩ := saved
  simp only [readerFromRow, readerRow, timestamp_trust_parse_as_str]
  rfl

/-- A start or a stop is read. -/
theorem session_from_row (entry : SessionSaid × Nat) :
    sessionFromRow texts (sessionRow entry.1 entry.2) = .ok (entry.1.row entry.2) := by
  obtain ⟨⟨now, race, ⟨action, at'⟩, actor, note⟩, seq⟩ := entry
  simp only [sessionFromRow, sessionRow, session_action_parse_as_str, from_micros_micros]
  rfl

/-- A timing policy is read. -/
theorem timing_from_str_timing_to_string {policy : TimingPolicy} (hfits : PolicyFits policy) :
    timingFromStr (timingToString policy) = some policy := by
  rw [timingFromStr, timingToString, Json.read_text_write_text, Option.bind_some,
    policy_timing_record hfits]

/-! ## Courses, rosters and chips -/

/-- A row of a checkpoint, by its first save and its last. -/
theorem mem_checkpoints (h : Told said tables) {row : CheckpointRow} :
    row ∈ tables.checkpoints ↔ ∃ first last,
      FirstLast (·.id) said.checkpoints row.id first last ∧
        row = checkpointRow { last with race := first.race } := by
  rw [h.checkpoints.mem, Saves.told_map_iff checkpointSaves.amend (fun _ => rfl) fun _ _ _ => rfl]
  refine exists₂_congr fun first last => and_congr_right fun hsaves => ?_
  have hid : first.id = last.id := hsaves.key_first.trans hsaves.last.mem.2.symm
  have hrow : checkpointSaves.amend (checkpointRow first) (checkpointRow last) =
      checkpointRow { last with race := first.race } := by
    show ({ checkpointRow last with id := first.id, race := first.race } : CheckpointRow) = _
    rw [hid]
    rfl
  rw [hrow]

/-- Checkpoints with one row are one checkpoint. -/
theorem checkpoint_row_injective (texts : Texts) : Function.Injective checkpointRow := by
  intro checkpoint other hrow
  have hsame := congrArg (checkpointFromRow texts) hrow
  rw [checkpoint_from_row, checkpoint_from_row] at hsame
  exact Except.ok.inj hsame

/-- The checkpoints in the rows of a race. -/
theorem mem_course (texts : Texts) (h : Told said tables) {checkpoint : Checkpoint} :
    checkpointRow checkpoint ∈ tables.checkpoints ∧ checkpoint.race = wanted ↔
      ∃ first last, FirstLast (·.id) said.checkpoints checkpoint.id first last ∧
        first.race = wanted ∧ checkpoint = { last with race := wanted } := by
  rw [mem_checkpoints h]
  constructor
  · intro hthere
    obtain ⟨⟨first, last, hsaves, hrow⟩, hrace⟩ := hthere
    have hlast := checkpoint_row_injective texts hrow
    have hfirst : first.race = wanted := by
      rw [hlast] at hrace
      exact hrace
    exact ⟨first, last, hsaves, hfirst, hlast.trans (by rw [hfirst])⟩
  · intro hthere
    obtain ⟨first, last, hsaves, hfirst, hlast⟩ := hthere
    refine ⟨⟨first, last, hsaves, ?_⟩, by rw [hlast]⟩
    rw [hfirst, ← hlast]

/-- Rows in the order of a course are read as checkpoints in its order. -/
theorem course_order {first second : Checkpoint}
    (h : toLex ((checkpointRow first).sequence.toInt, (checkpointRow first).name) <
      toLex ((checkpointRow second).sequence.toInt, (checkpointRow second).name)) :
    toLex (first.sequence.toNat, first.name) < toLex (second.sequence.toNat, second.name) := by
  have hsequence : ∀ checkpoint : Checkpoint,
      (checkpointRow checkpoint).sequence.toInt = checkpoint.sequence.toNat :=
    fun checkpoint => to_int_antenna_column checkpoint.sequence
  rw [hsequence, hsequence, Prod.Lex.toLex_lt_toLex] at h
  rw [Prod.Lex.toLex_lt_toLex]
  rcases h with hlt | ⟨hsame, hlt⟩
  · exact Or.inl (Int.ofNat_lt.mp hlt)
  · exact Or.inr ⟨Int.ofNat_inj.mp hsame, hlt⟩

/-- The checkpoints of a race are read. -/
theorem checkpoints_told (h : Told said tables) (hsound : Sound tables) :
    ∃ read, checkpoints texts tables wanted = .ok read ∧
      (∀ checkpoint, checkpoint ∈ read ↔ ∃ first last,
        FirstLast (·.id) said.checkpoints checkpoint.id first last ∧ first.race = wanted ∧
          checkpoint = { last with race := wanted }) ∧
      read.Pairwise fun first second =>
        toLex (first.sequence.toNat, first.name) < toLex (second.sequence.toNat, second.name) := by
  have hstrict := sorted_strictly (@nodup_within _ _ _ _ _ (·.race) (·.name)
    (fun row : CheckpointRow => toLex (row.sequence.toInt, row.name)) _ wanted
    hsound.checkpointNames fun _ _ heq => (Prod.mk.inj (toLex.injective heq)).2)
  have hwritten : ∀ row ∈ sortByKey (fun row => toLex (row.sequence.toInt, row.name))
      (tables.checkpoints.filter fun row => row.race = wanted),
      ∃ checkpoint, row = checkpointRow checkpoint := by
    intro row hrow
    obtain ⟨_, last, _, hlast⟩ :=
      (mem_checkpoints h).mp (List.mem_filter.mp (mem_sort_by_key.mp hrow)).1
    exact ⟨_, hlast⟩
  obtain ⟨read, heq, hread⟩ := map_m_read (checkpoint_from_row texts) hwritten
  rw [List.map_id'] at hread
  refine ⟨read, hread, fun checkpoint => ?_, ?_⟩
  · rw [← mem_course texts h, ← List.mem_map_of_injective (checkpoint_row_injective texts), ← heq,
      mem_sort_by_key, List.mem_filter, decide_eq_true_eq]
    rfl
  · rw [heq, List.pairwise_map] at hstrict
    exact hstrict.imp course_order

/-- The roster of a race is read. -/
theorem mem_participants (h : Told said tables) {participant : Participant} :
    participant ∈ participants tables wanted ↔ ∃ first last,
      FirstLast (fun saved => (saved.race, saved.bib)) said.participants
        (wanted, participant.bib) first last ∧ participant = { first with name := last.name } := by
  have htold := @Saves.told_map_iff _ _ _ _ participantSaves participant
    (participantSaves.keyOf participant) _ id said.participants participantSaves.amend
    (fun _ => rfl) fun _ _ _ => rfl
  rw [List.map_id] at htold
  rw [participants, mem_sort_by_key, List.mem_filter, h.participants.mem, htold,
    decide_eq_true_eq]
  constructor
  · intro hthere
    obtain ⟨⟨first, last, hsaves, heq⟩, hrace⟩ := hthere
    subst hrace
    exact ⟨first, last, hsaves, heq⟩
  · intro hthere
    obtain ⟨first, last, hsaves, heq⟩ := hthere
    have hrace : participant.race = wanted := by
      rw [heq]
      exact (Prod.mk.inj hsaves.key_first).1
    subst hrace
    exact ⟨⟨first, last, hsaves, heq⟩, rfl⟩

/-- A roster is in the order of its bibs. -/
theorem participants_sorted (h : Told said tables) :
    (participants tables wanted).Pairwise fun first second => first.bib.text < second.bib.text :=
  sorted_strictly (nodup_within wanted h.participants.nodup fun _ _ heq => congrArg Name.mk heq)

/-- The chips of a race are read. -/
theorem mem_assignments (h : Told said tables) {assignment : ChipAssignment} :
    assignment ∈ held tables.assignments wanted ↔ ∃ last,
      LastSave (fun saved => (asRow saved).key) said.assignments (asRow assignment).key last ∧
        last.race = wanted ∧ assignment = asHeld last := by
  rw [mem_held]
  constructor
  · intro hthere
    obtain ⟨row, hrow, hrace, rfl⟩ := hthere
    have hkey := as_row_assignment hrow
    rw [h.assignments.mem, Saves.told_map_last (fun _ => rfl) fun _ _ => rfl,
      Option.map_eq_some_iff] at hrow
    obtain ⟨last, hlast, rfl⟩ := hrow
    rw [hkey]
    exact ⟨last, hlast, hrace, assignment_as_row last⟩
  · intro hthere
    obtain ⟨last, hlast, hrace, rfl⟩ := hthere
    refine ⟨asRow last, ?_, hrace, assignment_as_row last⟩
    rw [as_row_as_held] at hlast
    rw [h.assignments.mem, Saves.told_map_last (fun _ => rfl) fun _ _ => rfl,
      Option.map_eq_some_iff]
    exact ⟨last, hlast, rfl⟩

/-! ## Readers and what they cover -/

/-- A row of a reader, by its first save and its last. -/
theorem mem_readers (h : Told said tables) {row : ReaderRow} :
    row ∈ tables.readers ↔ ∃ first last, FirstLast (·.2.id) said.readers row.id first last ∧
      row = readerRow (first.1, last.2) := by
  rw [h.readers.mem, Saves.told_map_iff readerSaves.amend (fun _ => rfl) fun _ _ _ => rfl]
  refine exists₂_congr fun first last => and_congr_right fun hsaves => ?_
  have hid : first.2.id = last.2.id := hsaves.key_first.trans hsaves.last.mem.2.symm
  have hrow : readerSaves.amend (readerRow first) (readerRow last) =
      readerRow (first.1, last.2) := by
    show ({ readerRow (first.1, last.2) with id := first.2.id } : ReaderRow) = _
    rw [hid]
    rfl
  rw [hrow]

/-- The readers are read. -/
theorem readers_told (h : Told said tables) :
    ∃ read, readers texts tables = .ok read ∧ ∀ reader, reader ∈ read ↔ ∃ last,
      LastSave (·.2.id) said.readers reader.id last ∧ reader = last.2 := by
  have hwritten : ∀ row ∈ sortByKey (fun row => toLex (row.createdAtUs.toInt, row.id))
      tables.readers, ∃ saved, row = readerRow saved := by
    intro row hrow
    obtain ⟨first, last, _, hlast⟩ := (mem_readers h).mp (mem_sort_by_key.mp hrow)
    exact ⟨_, hlast⟩
  obtain ⟨saves, heq, hread⟩ := map_m_read (reader_from_row texts) hwritten
  refine ⟨_, hread, fun reader => ?_⟩
  rw [mem_map_shown (reader_from_row texts), ← heq]
  constructor
  · intro hthere
    obtain ⟨saved, hrow, rfl⟩ := hthere
    obtain ⟨first, last, hsaves, hlast⟩ := (mem_readers h).mp (mem_sort_by_key.mp hrow)
    have hsame := congrArg (readerFromRow texts) hlast
    rw [reader_from_row, reader_from_row] at hsame
    exact ⟨last, hsaves.last, Except.ok.inj hsame⟩
  · intro hthere
    obtain ⟨last, hlast, rfl⟩ := hthere
    obtain ⟨first, hsaves⟩ := hlast.exists_first
    exact ⟨(first.1, last.2), mem_sort_by_key.mpr ((mem_readers h).mpr ⟨first, last, hsaves, rfl⟩),
      rfl⟩

/-- What a port covers is what it was mapped to last. -/
theorem covered_told (h : Told said tables) (reader : ReaderId) (antenna : Option UInt16) :
    covered tables.antennas (reader, antenna.map antennaColumn) =
      (said.antennas.filter fun saved => (saved.1, saved.2.1) = (reader, antenna)).getLast?.map
        (·.2.2) := by
  have hfind := h.antennas.find (reader, antenna.map antennaColumn)
  rw [Saves.told_map_last (fun _ => rfl) fun _ _ => rfl] at hfind
  have hport : ∀ saved : ReaderId × Option UInt16 × CheckpointId,
      antennaSaves.key (antennaRow saved) = (reader, antenna.map antennaColumn) ↔
        (saved.1, saved.2.1) = (reader, antenna) := by
    intro saved
    show (saved.1, saved.2.1.map antennaColumn) = _ ↔ _
    rw [Prod.mk.injEq, Prod.mk.injEq, (Option.map_injective antenna_column_injective).eq_iff]
  simp only [hport] at hfind
  show (tables.antennas.find? fun row => antennaSaves.keyOf row = _).map (·.checkpoint) = _
  rw [hfind, Option.map_map]
  rfl

/-- A checkpoint is of a race if it was first saved for it. -/
theorem belongs_told (h : Told said tables) (checkpoint : CheckpointId) :
    (tables.checkpoints.any fun known => known.id = checkpoint && known.race = wanted) =
      (said.checkpoints.find? fun saved => saved.id = checkpoint).any fun saved =>
        saved.race = wanted := by
  rw [Bool.eq_iff_iff, List.any_eq_true, Option.any_eq_true]
  constructor
  · intro hthere
    obtain ⟨row, hrow, hsame⟩ := hthere
    obtain ⟨hid, hrace⟩ := (Bool.and_eq_true _ _).mp hsame
    obtain ⟨first, last, hsaves, rfl⟩ := (mem_checkpoints h).mp hrow
    have hid : last.id = checkpoint := of_decide_eq_true hid
    refine ⟨first, ?_, hrace⟩
    rw [← hid]
    exact hsaves.first
  · intro hthere
    obtain ⟨first, hfirst, hrace⟩ := hthere
    have hid : first.id = checkpoint := by simpa using List.find?_some hfirst
    obtain ⟨last, hlast⟩ :=
      @exists_last_save _ _ _ (·.id) _ first (List.mem_of_find?_eq_some hfirst)
    rw [hid] at hlast
    refine ⟨checkpointRow { last with race := first.race },
      (mem_checkpoints h).mpr ⟨first, last, ⟨?_, ?_⟩, rfl⟩, ?_⟩
    · show said.checkpoints.find? (fun saved => saved.id = last.id) = _
      rw [hlast.mem.2]
      exact hfirst
    · show LastSave _ _ last.id last
      rw [hlast.mem.2]
      exact hlast
    · exact (Bool.and_eq_true _ _).mpr ⟨decide_eq_true hlast.mem.2, hrace⟩

/-- What covers a race is read. -/
theorem antennas_told (h : Told said tables) :
    ∃ map, antennasFor tables wanted = .ok map ∧ ∀ reader antenna,
      map.resolve reader antenna =
        (antenna.bind fun port => said.portOf wanted (reader, some port)).or
          (said.portOf wanted (reader, none)) := by
  have hport : ∀ reader antenna,
      covered (tables.antennas.filter fun row => tables.checkpoints.any fun known =>
        known.id = row.checkpoint && known.race = wanted) (reader, antenna.map antennaColumn) =
      said.portOf wanted (reader, antenna) := by
    intro reader antenna
    rw [covered_filter (fun checkpoint => tables.checkpoints.any fun known =>
      known.id = checkpoint && known.race = wanted) h.antennas.nodup, covered_told h]
    simp only [belongs_told h]
    rfl
  obtain ⟨map, hmap, hresolve⟩ := read_antenna_map_eq
    (h.antennas.nodup.sublist (List.filter_sublist.map _)) fun row hrow stored hstored => by
      have hrow := (h.antennas.mem row).mp (List.mem_filter.mp hrow).1
      rw [Saves.told_map_last (fun _ => rfl) fun _ _ => rfl, Option.map_eq_some_iff] at hrow
      obtain ⟨saved, _, rfl⟩ := hrow
      obtain ⟨antenna, _, rfl⟩ := Option.map_eq_some_iff.mp hstored
      exact ⟨antenna, rfl⟩
  refine ⟨map, hmap, fun reader antenna => ?_⟩
  rw [hresolve, resolved]
  have hwildcard := hport reader none
  rw [Option.map_none] at hwildcard
  rw [hwildcard]
  cases antenna with
  | none => rfl
  | some port =>
      have hexact := hport reader (some port)
      rw [Option.map_some] at hexact
      rw [Option.bind_some, Option.bind_some, hexact]

/-! ## Rules, starts and stops -/

/-- The default policy fits its type. -/
theorem default_fits : PolicyFits .default :=
  ⟨by decide, fun _ hms => (by cases hms), fun _ hentry => (by cases hentry)⟩

/-- The policies that were said fit their type. -/
theorem policy_of_fits (h : Told said tables) : PolicyFits (said.policyOf wanted) := by
  rw [Said.policyOf]
  cases hlast : ((said.policies.filter fun saved => saved.2.1 = wanted).filterMap fun saved =>
      saved.2.2.getLeft?).getLast? with
  | none => exact default_fits
  | some policy =>
      obtain ⟨⟨now, race, rule⟩, hmem, hleft⟩ :=
        List.mem_filterMap.mp (List.mem_of_getLast? hlast)
      have hrule : rule = .inl policy := Sum.getLeft?_eq_some_iff.mp hleft
      subst hrule
      exact h.fits now race policy (List.mem_filter.mp hmem).1

/-- The policy one of the upserts sets. -/
def PolicyChange.json : PolicyChange → Option String
  | .policy excluded => some excluded.policyJson
  | .startMode _ => none

/-- The start mode one of the upserts sets. -/
def PolicyChange.mode : PolicyChange → Option String
  | .policy _ => none
  | .startMode excluded => some excluded.startMode

/-- What one of the columns of `timing_policies` holds for a race. -/
theorem policy_part {Part Value : Type} {part : PolicyRow → Part} {value : Value → Part}
    {said' : PolicyChange → Option Part} {rule : TimingPolicy ⊕ StartMode → Option Value}
    {initial : Value} (h : Told said tables)
    (hsaid : ∀ saved, said' (policyChange saved) = (rule saved.2.2).map value)
    (hfresh : ∀ saved, part (policySaves.fresh (policyChange saved)) =
      (said' (policyChange saved)).getD (value initial))
    (hamend : ∀ saved row, part (policySaves.amend row (policyChange saved)) =
      (said' (policyChange saved)).getD (part row)) :
    ((tables.policies.find? fun row => row.race = wanted).map part).getD (value initial) =
      value ((((said.policies.filter fun saved => saved.2.1 = wanted).filterMap fun saved =>
        rule saved.2.2).getLast?).getD initial) := by
  have hkey : ∀ saved, policySaves.key (policyChange saved) = saved.2.1 := by
    intro saved
    obtain ⟨now, race, rule⟩ := saved
    cases rule with
    | inl policy => rfl
    | inr mode => rfl
  have hpart := @Saves.part_told _ _ _ _ policySaves (said.policies.map policyChange) wanted _ part
    said' (value initial)
    (fun change hchange => by
      obtain ⟨saved, _, rfl⟩ := List.mem_map.mp hchange
      exact hfresh saved)
    (fun change hchange row => by
      obtain ⟨saved, _, rfl⟩ := List.mem_map.mp hchange
      exact hamend saved row)
  have hfind : (tables.policies.find? fun row => row.race = wanted) =
      policySaves.told (said.policies.map policyChange) wanted := h.policies.find wanted
  rw [hfind, hpart, List.filter_map, List.filterMap_map]
  have hcomp : (said' ∘ policyChange) = fun saved => (rule saved.2.2).map value :=
    funext hsaid
  have hfilter : ((fun change => decide (policySaves.key change = wanted)) ∘ policyChange) =
      fun saved => decide (saved.2.1 = wanted) := by
    funext saved
    rw [Function.comp_apply, hkey]
  rw [hcomp, hfilter, ← List.map_filterMap, List.getLast?_map, Option.getD_map]

/-- The rules of a race are read. -/
theorem policy_told (h : Told said tables) :
    policy texts tables wanted = .ok (said.policyOf wanted) := by
  have hpart := @policy_part said tables wanted _ _ (·.policyJson) timingToString
    PolicyChange.json Sum.getLeft? .default h
    (fun saved => by
      obtain ⟨now, race, rule⟩ := saved
      cases rule <;> rfl)
    (fun saved => by
      obtain ⟨now, race, rule⟩ := saved
      cases rule <;> rfl)
    fun saved row => by
      obtain ⟨now, race, rule⟩ := saved
      cases rule <;> rfl
  have hpart : ((tables.policies.find? fun row => row.race = wanted).map (·.policyJson)).getD
      (timingToString .default) = timingToString (said.policyOf wanted) := hpart
  have hread := timing_from_str_timing_to_string (@policy_of_fits said tables wanted h)
  rw [policy]
  cases hfind : tables.policies.find? fun row => row.race = wanted with
  | none =>
      rw [hfind] at hpart
      have hsame := congrArg timingFromStr hpart
      rw [hread] at hsame
      have hdefault := timing_from_str_timing_to_string default_fits
      exact congrArg Except.ok (Option.some.inj (hdefault.symm.trans hsame))
  | some row =>
      rw [hfind] at hpart
      have hjson : row.policyJson = timingToString (said.policyOf wanted) := hpart
      show orDecode _ (timingFromStr row.policyJson) = _
      rw [hjson, hread]
      rfl

/-- The start mode of a race is read. -/
theorem start_mode_told (h : Told said tables) :
    startMode texts tables wanted = .ok (said.startModeOf wanted) := by
  have hpart := @policy_part said tables wanted _ _ (·.startMode) StartMode.asStr
    PolicyChange.mode Sum.getRight? .gun h
    (fun saved => by
      obtain ⟨now, race, rule⟩ := saved
      cases rule <;> rfl)
    (fun saved => by
      obtain ⟨now, race, rule⟩ := saved
      cases rule <;> rfl)
    fun saved row => by
      obtain ⟨now, race, rule⟩ := saved
      cases rule <;> rfl
  have hpart : ((tables.policies.find? fun row => row.race = wanted).map (·.startMode)).getD
      (StartMode.gun.asStr) = (said.startModeOf wanted).asStr := hpart
  rw [startMode]
  cases hfind : tables.policies.find? fun row => row.race = wanted with
  | none =>
      rw [hfind] at hpart
      have hsame := congrArg StartMode.parse hpart
      rw [start_mode_parse_as_str] at hsame
      have hgun := start_mode_parse_as_str .gun
      exact congrArg Except.ok (Except.ok.inj (hgun.symm.trans hsame))
  | some row =>
      rw [hfind] at hpart
      have hmode : row.startMode = (said.startModeOf wanted).asStr := hpart
      show orExpected texts _ row.startMode (StartMode.parse row.startMode) = _
      rw [hmode, start_mode_parse_as_str]
      rfl

/-- The starts and stops without their numbers. -/
theorem numbered_sessions (said : Said) : said.numbered.map (·.1) = said.sessions := by
  rw [Said.numbered, List.mapIdx_eq_zipIdx_map, List.map_map]
  exact List.zipIdx_map_fst _ _

/-- The rows of the starts and stops of a race, in the order of their numbers. -/
theorem session_rows (h : Told said tables) :
    ((tables.sessions.filter fun row => row.race = wanted).Pairwise fun first second =>
      first.seq ≤ second.seq) ∧
      tables.sessions.filter (fun row => row.race = wanted) =
        (said.numbered.filter fun entry => entry.1.race = wanted).map fun entry =>
          sessionRow entry.1 entry.2 := by
  have hrows : tables.sessions = said.numbered.map fun entry => sessionRow entry.1 entry.2 := by
    rw [h.sessions, Said.numbered, List.mapIdx_eq_zipIdx_map, List.mapIdx_eq_zipIdx_map,
      List.map_map]
    rfl
  have hsorted : tables.sessions.Pairwise fun first second => first.seq ≤ second.seq := by
    rw [h.sessions, List.pairwise_iff_getElem]
    intro first second hfirst hsecond hlt
    rw [List.getElem_mapIdx, List.getElem_mapIdx]
    show first + 1 ≤ second + 1
    omega
  refine ⟨hsorted.filter _, ?_⟩
  rw [hrows, List.filter_map]
  rfl

/-- The starts and stops of a race are read. -/
theorem sessions_told (h : Told said tables) :
    sessions texts tables wanted = .ok (said.sessionsOf wanted) := by
  obtain ⟨hsorted, hrows⟩ := @session_rows said tables wanted h
  rw [sessions, sortByKey, hsorted.insertionSort_eq, hrows, Said.sessionsOf]
  induction said.numbered.filter fun entry => entry.1.race = wanted with
  | nil => rfl
  | cons entry entries ih =>
      rw [List.map_cons, List.mapM_cons, session_from_row, ih]
      rfl

/-- A race is running when the last of its starts and stops is a start. -/
theorem race_is_running_told (h : Told said tables) :
    raceIsRunning tables wanted =
      (said.sessionsOf wanted).getLast?.any fun row => row.session.action = .start := by
  obtain ⟨hsorted, hrows⟩ := @session_rows said tables wanted h
  rw [raceIsRunning, max_by_key_of_sorted hsorted, hrows, Said.sessionsOf, List.getLast?_map,
    List.getLast?_map]
  cases (said.numbered.filter fun entry => entry.1.race = wanted).getLast? with
  | none => rfl
  | some entry =>
      obtain ⟨⟨now, race, ⟨action, at'⟩, actor, note⟩, seq⟩ := entry
      cases action with
      | start => rfl
      | stop => rfl

/-! ## Loading -/

/-- The row of a race, by its first save and its last. -/
theorem find_race (h : Told said tables) {row : RaceRow} :
    (tables.races.find? fun row => row.id = wanted) = some row ↔ ∃ first last,
      FirstLast (·.2.id) said.races wanted first last ∧
        row = raceSaves.amend (raceRow first) (raceRow last) := by
  have hfind : (tables.races.find? fun row => row.id = wanted) =
      raceSaves.told (said.races.map raceRow) wanted := h.races.find wanted
  rw [hfind, Saves.told_map_iff raceSaves.amend (fun _ => rfl) fun _ _ _ => rfl]
  rfl

/-- The event of a race that was saved was saved, and is read as it was saved last. -/
theorem find_event (h : Told said tables) (hsound : Sound tables) {row : RaceRow}
    (hrow : row ∈ tables.races) :
    ∃ event, (tables.events.find? fun known => known.id = row.event) = some event ∧
      ∃ last, LastSave (·.2.id) said.events row.event last ∧
        (⟨event.id, event.name⟩ : Event) = last.2 := by
  have hsome : (tables.events.find? fun known => known.id = row.event).isSome :=
    List.find?_isSome.mpr (List.any_eq_true.mp (hsound.raceEvents row hrow))
  obtain ⟨event, hevent⟩ := Option.isSome_iff_exists.mp hsome
  have hfind : (tables.events.find? fun known => known.id = row.event) =
      eventSaves.told (said.events.map eventRow) row.event := h.events.find row.event
  obtain ⟨first, last, hsaves, heq⟩ := (Saves.told_map_iff eventSaves.amend (fun _ => rfl)
    fun _ _ _ => rfl).mp (hfind.symm.trans hevent)
  refine ⟨event, hevent, last, hsaves.last, ?_⟩
  have hid : first.2.id = last.2.id := hsaves.key_first.trans hsaves.last.mem.2.symm
  rw [heq]
  show (⟨first.2.id, last.2.name⟩ : Event) = last.2
  rw [hid]

/-- A race that was saved loads as what was said of it. -/
theorem load_saved (h : Told said tables) (hsound : Sound tables) {row : RaceRow}
    (hfind : (tables.races.find? fun row => row.id = wanted) = some row) :
    ∃ config, load texts tables wanted = .ok config ∧ Tells said wanted config := by
  have hrow := List.mem_of_find?_eq_some hfind
  obtain ⟨first, last, hsaves, heq⟩ := (find_race h).mp hfind
  have hid : first.2.id = last.2.id := hsaves.key_first.trans hsaves.last.mem.2.symm
  have hwanted : last.2.id = wanted := hsaves.last.mem.2
  obtain ⟨event, hevent, lastEvent, hlast, hshown⟩ := find_event h hsound hrow
  have hrace := race_from_row hid
  rw [← heq] at hrace
  have howner : row.event = first.2.event := by
    rw [heq]
    rfl
  rw [howner] at hevent hlast
  have hevent : (tables.events.find? fun known => known.id = (raceOf first last).event) =
      some event := hevent
  obtain ⟨course, hcourse, hmemCourse, hcourseOrder⟩ := @checkpoints_told said tables wanted texts
    h hsound
  obtain ⟨known, hknown, hmemKnown⟩ := readers_told texts h
  obtain ⟨map, hmap, hresolve⟩ := @antennas_told said tables wanted h
  refine ⟨⟨⟨event.id, event.name⟩, raceOf first last, course, participants tables wanted,
    held tables.assignments wanted, known, map, said.policyOf wanted, said.startModeOf wanted,
    said.sessionsOf wanted⟩, ?_, ?_⟩
  · rw [load, hfind]
    show (raceFromRow row).bind _ = _
    rw [hrace]
    simp only [Except.bind]
    rw [hevent]
    show (checkpoints texts tables last.2.id).bind _ = _
    rw [hwanted, hcourse]
    show (Storage.assignments tables.assignments last.2.id).bind _ = _
    rw [hwanted, assignments_eq_held]
    show (readers texts tables).bind _ = _
    rw [hknown]
    show (antennasFor tables last.2.id).bind _ = _
    rw [hwanted, hmap]
    show (policy texts tables last.2.id).bind _ = _
    rw [hwanted, policy_told texts h]
    show (startMode texts tables last.2.id).bind _ = _
    rw [hwanted, start_mode_told texts h]
    show (sessions texts tables last.2.id).bind _ = _
    rw [hwanted, sessions_told texts h]
    show Except.ok (LoadedConfig.mk _ _ _ (participants tables last.2.id) _ _ _ _ _ _) = _
    rw [hwanted]
  · exact {
      race := ⟨first, last, hsaves, rfl⟩
      event := ⟨lastEvent, hlast, hshown⟩
      checkpoints := hmemCourse
      courseOrder := hcourseOrder
      participants := fun _ => mem_participants h
      bibOrder := participants_sorted h
      assignments := fun _ => mem_assignments h
      readers := hmemKnown
      antennas := hresolve
      policy := rfl
      startMode := rfl
      sessions := rfl }

end Rows

/-- After any calls, of which any may have failed, a race that was never saved is not there, and one
that was saved loads as what was said of it. -/
theorem load_tells (texts : Texts) (calls : List ConfigCall) (wanted : RaceId) :
    (load texts (configured calls).tables wanted =
        .error (.decode ("no race with id " ++ wanted.uuid.toText)) ∧
      ∀ saved ∈ (configured calls).said.races, saved.2.id ≠ wanted) ∨
    ∃ config, load texts (configured calls).tables wanted = .ok config ∧
      Tells (configured calls).said wanted config := by
  obtain ⟨h, hsound⟩ := told_configured calls
  cases hfind : (configured calls).tables.races.find? fun row => row.id = wanted with
  | none =>
      refine Or.inl ⟨by rw [load, hfind], fun saved hsaved hid => ?_⟩
      obtain ⟨last, hlast⟩ := @exists_last_save _ _ _ (·.2.id) _ saved hsaved
      rw [hid] at hlast
      obtain ⟨first, hsaves⟩ := hlast.exists_first
      have hrow := (find_race h).mpr ⟨first, last, hsaves, rfl⟩
      rw [hfind] at hrow
      cases hrow
  | some row => exact Or.inr (load_saved texts h hsound hfind)

/-- After any calls the quick look at whether a race is running says what its configuration says,
and that is whether the last start or stop that was recorded for it is a start. -/
theorem race_is_running_agrees (texts : Texts) (calls : List ConfigCall) (wanted : RaceId) :
    (∀ config, load texts (configured calls).tables wanted = .ok config →
      raceIsRunning (configured calls).tables wanted = config.isRunning) ∧
    (raceIsRunning (configured calls).tables wanted = true ↔ ∃ last,
      LastSave (·.race) (configured calls).said.sessions wanted last ∧
        last.session.action = .start) := by
  obtain ⟨h, hsound⟩ := told_configured calls
  have hrunning := @race_is_running_told _ _ wanted h
  refine ⟨fun config hload => ?_, ?_⟩
  · cases hfind : (configured calls).tables.races.find? fun row => row.id = wanted with
    | none =>
        rw [load, hfind] at hload
        cases hload
    | some row =>
        obtain ⟨loaded, hloaded, htells⟩ := load_saved texts h hsound hfind
        cases hload.symm.trans hloaded
        rw [hrunning, LoadedConfig.isRunning, htells.sessions]
  · rw [hrunning, Said.sessionsOf, List.getLast?_map, Option.any_map, Option.any_eq_true]
    constructor
    · intro hlast
      obtain ⟨entry, hentry, hstart⟩ := hlast
      refine ⟨entry.1, ?_, of_decide_eq_true hstart⟩
      rw [LastSave, ← numbered_sessions (configured calls).said, List.filter_map,
        List.getLast?_map]
      exact Option.map_eq_some_iff.mpr ⟨entry, hentry, rfl⟩
    · intro hlast
      obtain ⟨last, hlast, hstart⟩ := hlast
      rw [LastSave, ← numbered_sessions (configured calls).said, List.filter_map,
        List.getLast?_map] at hlast
      obtain ⟨entry, hentry, rfl⟩ := Option.map_eq_some_iff.mp hlast
      exact ⟨entry, hentry, decide_eq_true hstart⟩

end Splitforge.Storage.Config
