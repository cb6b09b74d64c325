import Splitforge.Edge.GapEvidence
import Splitforge.Storage.GapHistory

/-!
# The times of gaps

A disconnection opens a gap as of now, and every closing edge bears the time it is written at. A
tick dates the gap it opens back to a message it has seen, so the gap begins where the last one
ended or later, in every run in which no edge of the reader has been written since that message.
-/

namespace Splitforge.Edge

open Splitforge.Domain Splitforge.Library Splitforge.Storage

/-! ## What a run ought to keep -/

/-- No gap of a reader begins before an earlier one of it ended, and none ends before it began. -/
structure GapsApart (gaps : List ReaderGap) : Prop where
  apart : gaps.Pairwise fun earlier later => earlier.readerId = later.readerId →
    ∀ ended ∈ earlier.endedAt, ended ≤ later.startedAt
  ends : ∀ gap ∈ gaps, ∀ ended ∈ gap.endedAt, gap.startedAt ≤ ended

/-- The wall clock shows as much as the monotonic clock and a fixed number of nanoseconds. -/
def Device.OnTime (base : Int) (device : Device) : DeviceStep → Prop
  | .record now _ => now.nanos = base + device.clock
  | .work heartbeat silence =>
      heartbeat.now.nanos = base + device.clock ∧ silence.now.nanos = base + device.clock
  | .silence env => env.now.nanos = base + device.clock
  | _ => True

/-! ## When a gap is dated back past nothing -/

/-- A row bears a time no later than what the wall clock showed at a reading of the monotonic
clock, in the whole microseconds of its column. -/
def ReaderGapEvent.ShownBy (base : Int) (instant : Nat) (row : ReaderGapEvent) : Prop :=
  row.observedAt.nanos ≤ (base + instant) / 1000 * 1000

/-- No edge of a reader has been written since a message came in, or none with a later time. -/
def Device.QuietSince (base : Int) (device : Device) (readerId : ReaderId) (stamp : Stamp) : Prop :=
  ∀ happening ∈ device.history.drop stamp.place, ∀ row ∈ happening.row,
    row.readerId = readerId → ReaderGapEvent.ShownBy base stamp.instant row

/-- A silence check that opens a gap measures from a message with no edge behind it. -/
def Device.SilenceDated (base : Int) (device : Device) (seen : Snapshot) (env : SilenceEnv) :
    Prop :=
  device.silenceVerdict seen env = some .open →
    openReaderGapFor device.events seen.watching.reader = none →
      device.QuietSince base seen.watching.reader seen.lastMessage

/-- A heartbeat check that opens a gap measures from a message with no edge behind it. -/
def Device.HeartbeatDated (base : Int) (device : Device) (seen : Snapshot) (heartbeatMs : Nat) :
    Prop :=
  device.heartbeatVerdict seen heartbeatMs = .open →
    openReaderGapFor device.events seen.watching.reader = none →
      ∀ heard ∈ seen.lastHeard, device.QuietSince base seen.watching.reader heard

/-- The checks of a tick that open a gap measure from a message with no edge behind it. -/
def Device.Dated (base : Int) (device : Device) : DeviceStep → Prop
  | .work heartbeat silence => ∀ seen, device.tick = .looked seen →
      ∀ heartbeatMs ∈ heartbeat.thresholdMs, device.HeartbeatDated base seen heartbeatMs ∧
        (device.heartbeatVerdict seen heartbeatMs = .idle → seen.heartbeatGap = false →
          device.SilenceDated base seen silence)
  | .silence env => ∀ seen, device.tick = .resumed seen → device.SilenceDated base seen env
  | _ => True

variable {base : Int} {device : Device}

/-! ## Times -/

theorem ReaderGapEvent.ShownBy.mono {row : ReaderGapEvent} {earlier later : Nat}
    (h : ReaderGapEvent.ShownBy base earlier row) (hle : earlier ≤ later) :
    ReaderGapEvent.ShownBy base later row := by
  unfold ReaderGapEvent.ShownBy at h ⊢
  omega

/-- What the column keeps of a time the wall clock has shown is a time it has shown. -/
theorem whole_micros_shown {value : OffsetDateTime} {instant : Nat}
    (h : value.nanos ≤ base + instant) :
    (wholeMicros value).nanos ≤ (base + instant) / 1000 * 1000 := by
  show value.nanos / 1000 * 1000 ≤ _
  omega

/-- A row that was shown by an instant is no later than what is kept of a time from then on. -/
theorem ReaderGapEvent.ShownBy.le_whole_micros {row : ReaderGapEvent} {instant : Nat}
    (h : ReaderGapEvent.ShownBy base instant row) {value : OffsetDateTime}
    (hvalue : base + instant ≤ value.nanos) : row.observedAt ≤ wholeMicros value := by
  show row.observedAt.nanos ≤ value.nanos / 1000 * 1000
  unfold ReaderGapEvent.ShownBy at h
  omega

/-- A gap that is dated back to a message begins no earlier than the message came in, and no later
than now. -/
theorem began_bounds {now : OffsetDateTime} {clock instant : Nat} (hnow : now.nanos = base + clock)
    (hinstant : instant ≤ clock) :
    base + instant ≤ (began now (elapsedMs clock instant)).nanos ∧
      (began now (elapsedMs clock instant)).nanos ≤ base + clock := by
  have hlower := now.lower
  have helapsed : elapsedMs clock instant ≤ (clock - instant) / 1000000 := Nat.min_le_left _ _
  simp only [began]
  split_ifs
  · omega
  · omega

/-- No edge at all has been written since a message came in. -/
theorem quiet_since_of_rows {readerId : ReaderId} {stamp : Stamp}
    (h : (device.history.drop stamp.place).filterMap Happening.row = []) :
    device.QuietSince base readerId stamp := by
  intro happening hmem row hrow _
  have hrows := List.mem_filterMap.mpr ⟨happening, hmem, hrow⟩
  rw [h] at hrows
  cases hrows

/-! ## The invariant -/

/-- What a tick that has seen the status measures from. -/
def Snapshot.stamps (seen : Snapshot) : List Stamp := seen.lastMessage :: seen.lastHeard.toList

/-- What a tick measures from, now or after another look at the status. -/
def Device.stamps (device : Device) : List Stamp :=
  device.status.lastMessage.toList ++ device.status.lastHeard.toList ++
    device.tick.seen.toList.flatMap Snapshot.stamps

/-- A stamp is of the past, and so are its times: the edges that were written before a message
bear no later time. -/
structure Stamp.OfPast (base : Int) (device : Device) (stamp : Stamp) : Prop where
  instant : stamp.instant ≤ device.clock
  place : stamp.place ≤ device.history.length
  before : ∀ row ∈ (device.history.take stamp.place).filterMap Happening.row,
    ReaderGapEvent.ShownBy base stamp.instant row

/-- What every step keeps: the table is the edges that were written, no edge bears a time to come,
the edges of each reader stand in the order of their times, and so do messages among them. -/
structure InTime (base : Int) (device : Device) : Prop where
  table : GapTable device.events
  rows : device.history.filterMap Happening.row = device.events
  shown : ∀ row ∈ device.events, ReaderGapEvent.ShownBy base device.clock row
  order : Timely (·.observedAt) gapView device.events
  stamps : ∀ stamp ∈ device.stamps, stamp.OfPast base device

theorem in_time_initial (base : Int) : InTime base .initial where
  table := gap_table_nil
  rows := rfl
  shown := fun _ h => by cases h
  order := List.Pairwise.nil
  stamps := fun _ h => by cases h

/-- Where there is order in the times, the gaps are apart. -/
theorem InTime.gaps_apart (h : InTime base device) : GapsApart (history device.events) where
  apart := by
    refine List.pairwise_map.mpr (h.order.apart.imp ?_)
    intro earlier later happart hreader ended hended
    obtain ⟨closed, hclosed, rfl⟩ := Option.map_eq_some_iff.mp hended
    exact happart hreader closed hclosed
  ends := by
    intro gap hgap ended hended
    obtain ⟨episode, hepisode, rfl⟩ := List.mem_map.mp hgap
    obtain ⟨closed, hclosed, rfl⟩ := Option.map_eq_some_iff.mp hended
    exact h.order.ends episode hepisode closed hclosed

/-- A stamp of the past is of the past later on. -/
theorem Stamp.OfPast.later {stamp : Stamp} (h : stamp.OfPast base device) {next : Device}
    (hclock : device.clock ≤ next.clock) {more : List Happening}
    (hhistory : next.history = device.history ++ more) : stamp.OfPast base next where
  instant := le_trans h.instant hclock
  place := by
    have hplace := h.place
    rw [hhistory, List.length_append]
    omega
  before := by
    rw [hhistory, List.take_append_of_le_length h.place]
    exact h.before

/-- A reading of the clock now is of the past. -/
theorem InTime.of_past_stamp (h : InTime base device) : device.stamp.OfPast base device where
  instant := le_rfl
  place := le_rfl
  before := by
    show ∀ row ∈ (device.history.take device.history.length).filterMap Happening.row, _
    rw [List.take_length, h.rows]
    exact h.shown

/-- A step that writes no edge and takes at most a stamp of now. -/
theorem InTime.moves (h : InTime base device) {next : Device}
    (hevents : next.events = device.events) (hclock : device.clock ≤ next.clock)
    {more : List Happening} (hhistory : next.history = device.history ++ more)
    (hmore : more.filterMap Happening.row = [])
    (hstamps : ∀ stamp ∈ next.stamps, stamp ∈ device.stamps ∨ stamp = device.stamp) :
    InTime base next where
  table := by
    rw [hevents]
    exact h.table
  rows := by rw [hhistory, List.filterMap_append, h.rows, hmore, List.append_nil, hevents]
  shown := by
    intro row hrow
    rw [hevents] at hrow
    exact (h.shown row hrow).mono hclock
  order := by
    rw [hevents]
    exact h.order
  stamps := by
    intro stamp hstamp
    rcases hstamps stamp hstamp with hold | rfl
    · exact (h.stamps stamp hold).later hclock hhistory
    · exact h.of_past_stamp.later hclock hhistory

/-- One more edge, no earlier than those of its reader and not of the time to come. -/
theorem InTime.write (h : InTime base device) {writer : GapWriter} {row : ReaderGapEvent}
    (htable : GapTable (device.events ++ [row]))
    (hshown : ReaderGapEvent.ShownBy base device.clock row)
    (horder : ∀ other ∈ device.events, other.readerId = row.readerId →
      other.observedAt ≤ row.observedAt) :
    InTime base (device.write writer (device.events ++ [row])) := by
  rw [write_append]
  constructor
  · exact htable
  · show (device.history ++ [Happening.wrote row writer]).filterMap Happening.row = _
    rw [rows_append, h.rows]
    rfl
  · intro other hother
    rcases List.mem_append.mp hother with hold | hnew
    · exact h.shown other hold
    · rw [List.mem_singleton.mp hnew]
      exact hshown
  · exact h.order.snoc horder
  · exact fun stamp hstamp => (h.stamps stamp hstamp).later le_rfl rfl

/-- An opening call whose edge would be no earlier than those of its reader. -/
theorem InTime.opens (h : InTime base device) {writer : GapWriter} {readerId : ReaderId}
    {observed : Observed} (hnow : observed.at.nanos ≤ base + device.clock)
    (horder : openReaderGapFor device.events readerId = none → ∀ other ∈ device.events,
      other.readerId = readerId → other.observedAt ≤ wholeMicros observed.at)
    (failure : Option String) (detection : GapDetection) :
    InTime base (device.write writer
      (openReaderGap device.events failure readerId detection observed).2) := by
  cases hopen : openReaderGapFor device.events readerId with
  | some gap =>
      rw [open_reader_gap_of_open hopen, write_self]
      exact h
  | none =>
      rcases h.table.open_cases failure readerId detection observed with
        hsame | ⟨hwritten, htable⟩
      · rw [hsame, write_self]
        exact h
      · rw [hwritten]
        exact h.write htable (whole_micros_shown hnow) (horder hopen)

/-- A closing call. -/
theorem InTime.closes (h : InTime base device) {writer : GapWriter} {readerId : ReaderId}
    {observed : Observed} (hnow : observed.at.nanos = base + device.clock)
    (failure : Option String) :
    InTime base (device.write writer
      (closeReaderGap device.events failure readerId observed).2) := by
  rcases h.table.close_cases failure readerId observed with
    hsame | ⟨opened, _, _, hwritten, htable⟩
  · rw [hsame, write_self]
    exact h
  · rw [hwritten]
    refine h.write htable (whole_micros_shown (le_of_eq hnow)) ?_
    exact fun other hother _ => (h.shown other hother).le_whole_micros (ge_of_eq hnow)

/-- Edges in front of a message and edges behind it that bear no later time are all no later than
a gap that is dated back to it. -/
theorem InTime.le_began (h : InTime base device) {readerId : ReaderId} {stamp : Stamp}
    (hstamp : stamp.OfPast base device) (hquiet : device.QuietSince base readerId stamp)
    {now : OffsetDateTime} (hnow : now.nanos = base + device.clock) :
    ∀ other ∈ device.events, other.readerId = readerId →
      other.observedAt ≤ wholeMicros (began now (elapsedMs device.clock stamp.instant)) := by
  intro other hother hreader
  have hshown : ReaderGapEvent.ShownBy base stamp.instant other := by
    rw [← h.rows, ← List.take_append_drop stamp.place device.history,
      List.filterMap_append] at hother
    rcases List.mem_append.mp hother with hbefore | hsince
    · exact hstamp.before other hbefore
    · obtain ⟨happening, hmem, hrow⟩ := List.mem_filterMap.mp hsince
      exact hquiet happening hmem other hrow hreader
  exact hshown.le_whole_micros (began_bounds hnow hstamp.instant).1

/-! ## Steps -/

theorem InTime.with_reader (h : InTime base device) (reader : ReaderThread) :
    InTime base { device with reader } :=
  h.moves rfl le_rfl (List.append_nil _).symm rfl fun _ hstamp => Or.inl hstamp

/-- A tick goes on with what it has seen, or is over. -/
theorem InTime.with_tick (h : InTime base device) {tick : Tick}
    (htick : ∀ seen ∈ tick.seen, device.tick.seen = some seen) :
    InTime base { device with tick } := by
  refine h.moves rfl le_rfl (List.append_nil _).symm rfl ?_
  intro stamp hstamp
  rcases List.mem_append.mp hstamp with hstatus | hseen
  · exact Or.inl (List.mem_append_left _ hstatus)
  · obtain ⟨seen, hmem, hstamp⟩ := List.mem_flatMap.mp hseen
    have hold := htick seen (Option.mem_toList.mp hmem)
    exact Or.inl (List.mem_append_right _
      (List.mem_flatMap.mpr ⟨seen, Option.mem_toList.mpr hold, hstamp⟩))

theorem InTime.with_waiting_tick (h : InTime base device) :
    InTime base { device with tick := .waiting } :=
  h.with_tick fun _ hseen => by cases hseen

/-- The second section of `record_connection`. -/
theorem InTime.record_connection (h : InTime base device) {now : OffsetDateTime}
    (hnow : now.nanos = base + device.clock) (failure : Option String)
    (cause : Option Disconnection) (watching : Watching) :
    InTime base (device.recordConnection now failure cause watching) := by
  have hwaiting := h.with_reader .waiting
  cases cause with
  | some cause =>
      refine hwaiting.opens (le_of_eq hnow) ?_ _ _
      exact fun _ other hother _ => (h.shown other hother).le_whole_micros (ge_of_eq hnow)
  | none => exact hwaiting.closes hnow _

/-- What a tick measures from is of the past. -/
theorem InTime.seen (h : InTime base device) {seen : Snapshot}
    (hseen : device.tick.seen = some seen) {stamp : Stamp} (hstamp : stamp ∈ seen.stamps) :
    stamp.OfPast base device := by
  refine h.stamps stamp (List.mem_append_right _ ?_)
  rw [hseen]
  exact List.mem_flatMap.mpr ⟨seen, List.mem_singleton_self _, hstamp⟩

/-- The silence check. -/
theorem InTime.check_silence (h : InTime base device) {seen : Snapshot} {env : SilenceEnv}
    (hmessage : seen.lastMessage.OfPast base device)
    (hnow : env.now.nanos = base + device.clock) (hdated : device.SilenceDated base seen env) :
    InTime base (device.checkSilence seen env) := by
  unfold Device.checkSilence
  cases hverdict : device.silenceVerdict seen env with
  | none => exact h.with_waiting_tick
  | some verdict =>
      cases verdict with
      | idle => exact h.with_waiting_tick
      | close => exact h.with_waiting_tick.closes hnow _
      | «open» =>
          refine h.with_waiting_tick.opens (began_bounds hnow hmessage.instant).2 ?_ _ _
          intro hopen
          exact h.le_began hmessage (hdated hverdict hopen) hnow

/-- The second section of `check_for_silence`. -/
theorem InTime.work (h : InTime base device) {seen : Snapshot} (htick : device.tick = .looked seen)
    {heartbeat : HeartbeatEnv} {silence : SilenceEnv}
    (hnow : device.OnTime base (.work heartbeat silence))
    (hdated : device.Dated base (.work heartbeat silence)) :
    InTime base (device.work seen heartbeat silence) := by
  obtain ⟨hheartbeatNow, hsilenceNow⟩ := hnow
  have hseen : device.tick.seen = some seen := by
    rw [htick]
    rfl
  have hmarking : ∀ opened, InTime base { device with tick := .marking seen opened } := by
    intro opened
    refine h.with_tick ?_
    intro other hother
    cases hother
    exact hseen
  unfold Device.work
  cases hthreshold : heartbeat.thresholdMs with
  | none => exact h.with_waiting_tick
  | some heartbeatMs =>
      obtain ⟨hheartbeat, hsilence⟩ := hdated seen htick heartbeatMs hthreshold
      dsimp only
      cases hverdict : device.heartbeatVerdict seen heartbeatMs with
      | close => exact (hmarking false).closes hheartbeatNow _
      | idle =>
          cases hflag : seen.heartbeatGap with
          | true =>
              rw [if_pos rfl]
              exact h.with_waiting_tick
          | false =>
              rw [if_neg Bool.false_ne_true]
              exact h.check_silence (h.seen hseen List.mem_cons_self) hsilenceNow
                (hsilence hverdict hflag)
      | «open» =>
          cases hheard : seen.lastHeard with
          | none =>
              -- a reader that has not been heard opens nothing
              rw [Device.heartbeatVerdict, hheard, Option.isSome_none, assessHeartbeat,
                if_pos (Or.inr rfl)] at hverdict
              split_ifs at hverdict
          | some heard =>
              have hpast : heard.OfPast base device := by
                refine h.seen hseen (List.mem_cons_of_mem _ ?_)
                rw [hheard]
                exact List.mem_singleton_self _
              have hquiet : device.quietForMs seen = elapsedMs device.clock heard.instant := by
                rw [Device.quietForMs, hheard]
              rw [hquiet]
              refine (hmarking true).opens (began_bounds hheartbeatNow hpast.instant).2 ?_ _ _
              intro hopen
              exact h.le_began hpast (hheartbeat hverdict hopen heard hheard) hheartbeatNow

/-- Something other than an edge happens, and the status tells of messages it told of or of one
that comes in now. -/
theorem InTime.happens (h : InTime base device) {happening : Happening}
    (hrow : happening.row = none) {status : ReaderStatus} {reader : ReaderThread}
    (hmessage : ∀ stamp ∈ status.lastMessage,
      stamp ∈ device.status.lastMessage ∨ stamp = device.stamp)
    (hheard : ∀ stamp ∈ status.lastHeard,
      stamp ∈ device.status.lastHeard ∨ stamp = device.stamp) :
    InTime base { device with status, reader, history := device.history ++ [happening] } := by
  refine h.moves rfl le_rfl rfl (by rw [List.filterMap_cons_none hrow, List.filterMap_nil]) ?_
  intro stamp hstamp
  simp only [Device.stamps, List.mem_append, Option.mem_toList] at hstamp ⊢
  rcases hstamp with (hmem | hmem) | hmem
  · rcases hmessage stamp hmem with hold | hnew
    · exact Or.inl (Or.inl (Or.inl hold))
    · exact Or.inr hnew
  · rcases hheard stamp hmem with hold | hnew
    · exact Or.inl (Or.inl (Or.inr hold))
    · exact Or.inr hnew
  · exact Or.inl (Or.inr hmem)

/-- The first section of `record_connection`, as an event is received. -/
theorem InTime.take_connection (h : InTime base device) (cause : Option Disconnection)
    (event : ReaderEvent) : InTime base
      { device.takeConnection cause with history := device.history ++ [.received event] } := by
  refine h.happens rfl ?_ (fun _ hstamp => by cases hstamp)
  intro stamp hstamp
  cases cause with
  | some cause => exact Or.inl hstamp
  | none =>
      cases hstamp
      exact Or.inr rfl

/-- What the reader thread does when it takes an event. -/
theorem InTime.receive (h : InTime base device) (event : ReaderEvent) :
    InTime base (device.receive event) := by
  have hnow : ∀ stamp ∈ some device.stamp, stamp = device.stamp := by
    intro stamp hstamp
    cases hstamp
    rfl
  cases event with
  | connected => exact h.take_connection none .connected
  | disconnected cause => exact h.take_connection (some cause) (.disconnected cause)
  | read =>
      refine h.happens rfl ?_ ?_
      · exact fun stamp hstamp => Or.inr (hnow stamp hstamp)
      · exact fun stamp hstamp => Or.inr (hnow stamp hstamp)
  | alive =>
      refine h.happens rfl ?_ ?_
      · exact fun stamp hstamp => Or.inl hstamp
      · exact fun stamp hstamp => Or.inr (hnow stamp hstamp)

/-- A process starts on the journal that another left, and has seen nothing. -/
theorem InTime.restart (h : InTime base device) : InTime base (device.step .restart) := by
  refine h.moves rfl le_rfl rfl rfl ?_
  intro stamp hstamp
  cases hstamp

/-- A reader is composed, and silence is measured from then. -/
theorem InTime.compose (h : InTime base device) (watching : Watching) :
    InTime base (device.step (.compose watching)) := by
  unfold Device.step
  cases hreader : device.reader with
  | notStarted =>
      refine h.happens rfl ?_ (fun _ hstamp => Or.inl hstamp)
      intro stamp hstamp
      cases hstamp
      exact Or.inr rfl
  | waiting => exact h
  | storing => exact h
  | recording cause watching place => exact h

/-- What a tick takes of the status is what the status tells. -/
theorem InTime.look (h : InTime base device) (htick : device.tick = .waiting) :
    InTime base device.look := by
  unfold Device.look
  split_ifs
  · exact h
  · split
    · next watching lastMessage _ hmessage =>
        refine h.moves rfl le_rfl (List.append_nil _).symm rfl ?_
        intro stamp hstamp
        left
        simp only [Device.stamps, Tick.seen, htick, hmessage, Snapshot.stamps, List.mem_append,
          Option.toList_some, Option.toList_none, List.flatMap_cons, List.flatMap_nil,
          List.append_nil, List.mem_cons, List.not_mem_nil, or_false] at hstamp ⊢
        rcases hstamp with hstatus | rfl | hheard
        · exact hstatus
        · exact Or.inl rfl
        · exact Or.inr hheard
    · exact h

/-- The status is told of a heartbeat edge. -/
theorem InTime.mark (h : InTime base device) {seen : Snapshot} {opened : Bool}
    (htick : device.tick = .marking seen opened) : InTime base (device.mark seen opened) := by
  have hmarked : ∀ other ∈ (if opened then Tick.waiting else .resumed seen).seen,
      device.tick.seen = some other := by
    intro other hother
    rw [htick]
    cases opened with
    | true => cases hother
    | false => exact hother
  exact (h.with_tick hmarked).moves rfl le_rfl (List.append_nil _).symm rfl
    fun _ hstamp => Or.inl hstamp

/-- Every step on time whose gaps are dated back past no edge keeps the invariant. -/
theorem InTime.step (h : InTime base device) {event : DeviceStep}
    (hnow : device.OnTime base event) (hdated : device.Dated base event) :
    InTime base (device.step event) := by
  cases event with
  | pass nanos =>
      exact h.moves rfl (Nat.le_add_right _ _) (List.append_nil _).symm rfl
        fun _ hstamp => Or.inl hstamp
  | restart => exact h.restart
  | compose watching => exact h.compose watching
  | receive event =>
      unfold Device.step
      cases hreader : device.reader with
      | waiting => exact h.receive event
      | notStarted => exact h
      | storing => exact h
      | recording cause watching place => exact h
  | stored =>
      unfold Device.step
      cases hreader : device.reader with
      | storing => exact h.with_reader _
      | notStarted => exact h
      | waiting => exact h
      | recording cause watching place => exact h
  | record now failure =>
      unfold Device.step
      cases hreader : device.reader with
      | recording cause watching place => exact h.record_connection hnow failure cause watching
      | notStarted => exact h
      | waiting => exact h
      | storing => exact h
  | look =>
      unfold Device.step
      cases htick : device.tick with
      | waiting => exact h.look htick
      | looked seen => exact h
      | marking seen opened => exact h
      | resumed seen => exact h
  | work heartbeat silence =>
      unfold Device.step
      cases htick : device.tick with
      | looked seen => exact h.work htick hnow hdated
      | waiting => exact h
      | marking seen opened => exact h
      | resumed seen => exact h
  | mark =>
      unfold Device.step
      cases htick : device.tick with
      | marking seen opened => exact h.mark htick
      | waiting => exact h
      | looked seen => exact h
      | resumed seen => exact h
  | silence env =>
      unfold Device.step
      cases htick : device.tick with
      | resumed seen =>
          have hseen : device.tick.seen = some seen := by
            rw [htick]
            rfl
          exact h.check_silence (h.seen hseen List.mem_cons_self) hnow (hdated seen htick)
      | waiting => exact h
      | looked seen => exact h
      | marking seen opened => exact h

/-- While the wall clock goes with the monotonic clock, the gaps of a reader are apart in every
run in which no tick opens a gap behind an edge that was written since the message it measures
from. -/
theorem gaps_stay_apart (base : Int) (steps : List DeviceStep)
    (htime : Allowed Device.step (Device.OnTime base) .initial steps)
    (hdated : Allowed Device.step (Device.Dated base) .initial steps) :
    GapsApart ((gapQuery (run Device.step .initial steps).events).map gapFromRow) := by
  have hallowed := htime.and hdated
  have hin := @run_invariant _ _ _ _ (InTime base) (fun _ _ h hstep => h.step hstep.1 hstep.2) _ _
    (in_time_initial base) hallowed
  rw [gapQuery, hin.table.paired.joined_eq]
  exact hin.gaps_apart

/-- A tick's checks as a race is running, some time after the start of 1970: no heartbeat check,
and two minutes of silence. -/
def tickAt (number : UInt8) : DeviceStep :=
  .work ⟨second number, some 0, none⟩ ⟨second number, some 120000, fun _ => some true, none⟩

/-- A reader is quiet for two minutes, and is read from ten seconds before the tick that closes
the gap. -/
def quietThenRead : List DeviceStep :=
  [.compose finishReader, .pass 120000000000, .look, tickAt 120, .receive .read, .stored,
    .pass 10000000000, .look, tickAt 130]

/-- It is read from again, and quiet for two minutes more. -/
def quietAgain : List DeviceStep :=
  quietThenRead ++ [.receive .read, .stored, .pass 120000000000, .look, tickAt 250]

theorem gaps_stay_apart_quiet_again :
    GapsApart ((gapQuery (run Device.step .initial quietAgain).events).map gapFromRow) := by
  have htime : Allowed Device.step (Device.OnTime 0) .initial quietAgain :=
    ⟨trivial, trivial, trivial, ⟨rfl, rfl⟩, trivial, trivial, trivial, trivial, ⟨rfl, rfl⟩, trivial,
      trivial, trivial, trivial, ⟨rfl, rfl⟩, trivial⟩
  have hheartbeat : ∀ device seen, Device.HeartbeatDated 0 device seen 0 := by
    intro device seen hverdict
    rw [Device.heartbeatVerdict, assessHeartbeat, if_pos (Or.inl rfl)] at hverdict
    split_ifs at hverdict
  refine gaps_stay_apart 0 quietAgain htime ⟨trivial, trivial, trivial, ?_, trivial, trivial,
    trivial, trivial, ?_, trivial, trivial, trivial, trivial, ?_, trivial⟩
  · intro seen hseen heartbeatMs hthreshold
    cases hseen
    cases hthreshold
    refine ⟨hheartbeat _ _, ?_⟩
    intro _ _ _ _
    exact quiet_since_of_rows rfl
  · intro seen hseen heartbeatMs hthreshold
    cases hseen
    cases hthreshold
    refine ⟨hheartbeat _ _, ?_⟩
    intro _ _ hverdict
    cases hverdict
  · intro seen hseen heartbeatMs hthreshold
    cases hseen
    cases hthreshold
    refine ⟨hheartbeat _ _, ?_⟩
    intro _ _ _ _
    exact quiet_since_of_rows rfl

/-- A reader that is read from once between two silences has two gaps that overlap, for the ten
seconds from the read to the tick that closed the first. -/
theorem not_gaps_stay_apart : ¬ ∀ (base : Int) (steps : List DeviceStep),
    Allowed Device.step (Device.OnTime base) .initial steps →
      GapsApart ((gapQuery (run Device.step .initial steps).events).map gapFromRow) := by
  intro h
  have hapart := (h 0 (quietThenRead ++ [.pass 110000000000, .look, tickAt 240])
    ⟨trivial, trivial, trivial, ⟨rfl, rfl⟩, trivial, trivial, trivial, trivial, ⟨rfl, rfl⟩, trivial,
      trivial, ⟨rfl, rfl⟩, trivial⟩).apart
  obtain ⟨hfirst, _⟩ := List.pairwise_cons.mp hapart
  have hover := hfirst _ List.mem_cons_self rfl _ rfl
  exact absurd hover (by decide)

end Splitforge.Edge
