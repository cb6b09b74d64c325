import Splitforge.Edge.Watchdog

/-!
# The evidence behind a closed gap

A tick acts on what it saw before it locked the stores, and takes a reader that has not been quiet
for long enough as one that reads again. So a gap is closed on evidence in every run whose closing
ticks go by a message that came in after the gap was opened.
-/

namespace Splitforge.Edge

open Splitforge.Domain Splitforge.Library Splitforge.Storage

/-! ## What a run ought to keep -/

/-- A connection or a read: the reader is back. -/
def ReaderEvent.IsBack (event : ReaderEvent) : Prop := event = .connected ∨ event = .read

/-- An event of a kind came in, and the process has gone on since. -/
def CameIn (kind : ReaderEvent → Prop) (since : List Happening) : Prop :=
  ∃ first event rest, since = first ++ .received event :: rest ∧ kind event ∧
    Happening.started ∉ rest

/-- The last thing the provider of the process said about its connection. -/
def lastLifecycle (history : List Happening) : Option ReaderEvent :=
  history.foldl (fun last happening =>
    match happening with
    | .started => none
    | .received .connected => some .connected
    | .received (.disconnected cause) => some (.disconnected cause)
    | _ => last) none

/-- What a closed edge rests on: behind the edge that opened the gap this process received a
`Connected` or a `Read`; or the heartbeat check opened it, and an `Alive` was received or the check
is off. And a tick closes no confirmed gap behind a `Disconnected`. -/
structure Justified (before : List Happening) (row : ReaderGapEvent) (writer : GapWriter) :
    Prop where
  evidence : ∃ earlier opened opener since, before = earlier ++ .wrote opened opener :: since ∧
    row.closesSeq = some opened.seq ∧
    (CameIn ReaderEvent.IsBack since ∨ (∃ thresholdMs, opener = .heartbeat thresholdMs) ∧
      (CameIn (· = .alive) since ∨ writer = .heartbeat 0))
  connected : writer ≠ .connection → row.detection = .confirmed →
    ∀ cause, lastLifecycle before ≠ some (.disconnected cause)

/-- Every closed edge rests on evidence. -/
def ClosedOnEvidence (history : List Happening) : Prop :=
  ∀ before row writer after, history = before ++ .wrote row writer :: after →
    row.edge = .closed → Justified before row writer

/-! ## When a section goes by what is current -/

/-- A row of the table that has been written. -/
def Happening.row : Happening → Option ReaderGapEvent
  | .wrote row _ => some row
  | _ => none

/-- The message at a place came in, and the edge with a key has not been written since. -/
def Fresh (history : List Happening) (place seq : Nat) : Prop :=
  (∃ event, history[place]? = some (.received event)) ∧
    ∀ happening ∈ history.drop place, ∀ row ∈ happening.row, row.seq ≠ seq

/-- A silence check that finds a reader back goes by a message behind the open gap; and by one
behind a confirmed gap only while the transport is not known to be down. -/
def Device.SilenceCurrent (device : Device) (seen : Snapshot) (env : SilenceEnv) : Prop :=
  device.silenceVerdict seen env = some .close →
    ∀ gap ∈ openReaderGapFor device.events seen.watching.reader,
      Fresh device.history seen.lastMessage.place gap.openedSeq ∧
        (gap.detection = .confirmed → device.status.transportDown = false)

/-- A heartbeat check that closes is about a gap it opened, and is off or goes by something said
behind it. -/
def Device.HeartbeatCurrent (device : Device) (seen : Snapshot) (heartbeatMs : Nat) : Prop :=
  device.heartbeatVerdict seen heartbeatMs = .close →
    ∀ gap ∈ openReaderGapFor device.events seen.watching.reader,
      (∃ opened thresholdMs, .wrote opened (.heartbeat thresholdMs) ∈ device.history ∧
        opened.seq = gap.openedSeq) ∧
      (heartbeatMs = 0 ∨ ∃ heard ∈ seen.lastHeard, Fresh device.history heard.place gap.openedSeq)

/-- A section goes by what is current: a connection is recorded before another gap is opened, and
the checks of a tick close what their look at the status was behind. -/
def Device.Current (device : Device) : DeviceStep → Prop
  | .record _ _ => ∀ watching place, device.reader = .recording none watching place →
      ∀ gap ∈ openReaderGapFor device.events watching.reader,
        Fresh device.history place gap.openedSeq
  | .work heartbeat silence => ∀ seen, device.tick = .looked seen →
      ∀ heartbeatMs ∈ heartbeat.thresholdMs, device.HeartbeatCurrent seen heartbeatMs ∧
        (device.heartbeatVerdict seen heartbeatMs = .idle → seen.heartbeatGap = false →
          device.SilenceCurrent seen silence)
  | .silence env => ∀ seen, device.tick = .resumed seen → device.SilenceCurrent seen env
  | _ => True

variable {history : List Happening} {device : Device}

/-! ## Where a message came in -/

/-- A place of this process, and if an event came in there it is of a kind. -/
structure SaidAt (history : List Happening) (kind : ReaderEvent → Prop) (place : Nat) : Prop where
  lt_length : place < history.length
  running : Happening.started ∉ history.drop place
  said : ∀ event, history[place]? = some (.received event) → kind event

/-- What happens later leaves a place as it is. -/
theorem SaidAt.append {kind : ReaderEvent → Prop} {place : Nat} (h : SaidAt history kind place)
    {happening : Happening} (hrunning : happening ≠ .started) :
    SaidAt (history ++ [happening]) kind place where
  lt_length := by
    have hlt := h.lt_length
    rw [List.length_append]
    omega
  running := by
    rw [List.drop_append_of_le_length (le_of_lt h.lt_length), List.mem_append, not_or]
    exact ⟨h.running, by simpa using hrunning.symm⟩
  said := by
    rw [List.getElem?_append_left h.lt_length]
    exact h.said

/-- The place of what happens last. -/
theorem said_at_last {kind : ReaderEvent → Prop} {happening : Happening}
    (hrunning : happening ≠ .started) (hsaid : ∀ event, happening = .received event → kind event) :
    SaidAt (history ++ [happening]) kind history.length where
  lt_length := by rw [List.length_append, List.length_singleton]; omega
  running := by
    rw [List.drop_left]
    simpa using hrunning.symm
  said := fun event hevent => by
    rw [List.getElem?_concat_length] at hevent
    exact hsaid event (Option.some.inj hevent)

/-- A message at a fresh place came in behind the edge. -/
theorem SaidAt.came_in {kind : ReaderEvent → Prop} {place : Nat} (h : SaidAt history kind place)
    {earlier since : List Happening} {opened : ReaderGapEvent} {opener : GapWriter}
    (hsplit : history = earlier ++ .wrote opened opener :: since)
    (hfresh : Fresh history place opened.seq) : CameIn kind since := by
  obtain ⟨⟨event, hevent⟩, hbehind⟩ := hfresh
  -- the edge stands in front of the place
  have hplace : earlier.length < place := by
    by_contra hle
    have hmem : Happening.wrote opened opener ∈ history.drop place := by
      rw [hsplit, List.drop_append_of_le_length (by omega)]
      exact List.mem_append_right _ List.mem_cons_self
    exact hbehind _ hmem opened rfl rfl
  obtain ⟨front, hfront⟩ := Nat.exists_eq_add_of_lt hplace
  have hdrop : history.drop place = since.drop front := by
    rw [hsplit, hfront, Nat.add_assoc, List.drop_length_add_append, List.drop_succ_cons]
  obtain ⟨hlt, hget⟩ := List.getElem?_eq_some_iff.mp hevent
  have hrest : since.drop front = .received event :: history.drop (place + 1) := by
    rw [← hdrop, List.drop_eq_getElem_cons hlt, hget]
  refine ⟨since.take front, event, history.drop (place + 1), ?_, h.said event hevent, ?_⟩
  · rw [← hrest, List.take_append_drop]
  · intro hstarted
    have hrunning := h.running
    rw [hdrop, hrest] at hrunning
    exact hrunning (List.mem_cons_of_mem _ hstarted)

/-! ## The invariant -/

/-- Something said: the reader is there. -/
def ReaderEvent.IsHeard (event : ReaderEvent) : Prop := event = .alive ∨ event = .read

/-- What a tick goes by, if one is at work. -/
def Tick.seen : Tick → Option Snapshot
  | .waiting => none
  | .looked seen => some seen
  | .marking seen _ => some seen
  | .resumed seen => some seen

/-- The provider's last word about its connection was that it lost it. -/
def LostConnection (history : List Happening) : Prop :=
  ∃ cause, lastLifecycle history = some (.disconnected cause)

/-- What every step keeps: the table is the edges that were written, what the status, a tick and
the reader thread go by came in in this process, the heartbeat check opens suspected gaps only,
and every closed edge rests on evidence. -/
structure Sound (device : Device) : Prop where
  table : GapTable device.events
  rows : device.history.filterMap Happening.row = device.events
  message : ∀ stamp ∈ device.status.lastMessage,
    SaidAt device.history ReaderEvent.IsBack stamp.place
  heard : ∀ stamp ∈ device.status.lastHeard,
    SaidAt device.history ReaderEvent.IsHeard stamp.place
  recording : ∀ watching place, device.reader = .recording none watching place →
    SaidAt device.history (· = .connected) place
  seen : ∀ seen ∈ device.tick.seen,
    SaidAt device.history ReaderEvent.IsBack seen.lastMessage.place ∧
      ∀ heard ∈ seen.lastHeard, SaidAt device.history ReaderEvent.IsHeard heard.place
  suspected : ∀ row thresholdMs, .wrote row (.heartbeat thresholdMs) ∈ device.history →
    row.edge = .opened → row.detection = .suspected
  down : device.status.transportDown = true ↔ LostConnection device.history
  closed : ClosedOnEvidence device.history

theorem sound_initial : Sound .initial where
  table := gap_table_nil
  rows := rfl
  message := fun _ h => by cases h
  heard := fun _ h => by cases h
  recording := fun _ _ h => by cases h
  seen := fun _ h => by cases h
  suspected := fun _ _ h => by simp [Device.initial] at h
  down := by simp [Device.initial, ReaderStatus.none, LostConnection, lastLifecycle]
  closed := by
    intro before row writer after h
    rcases before with - | ⟨happening, before⟩
    · simp [Device.initial] at h
    · simp [Device.initial] at h

/-! ## One more happening -/

theorem rows_append (history : List Happening) (happening : Happening) :
    (history ++ [happening]).filterMap Happening.row =
      history.filterMap Happening.row ++ happening.row.toList := by
  rw [List.filterMap_append]
  cases hrow : happening.row <;> simp [hrow]

/-- Closed edges rest on evidence when they did so far and the last happening does. -/
theorem ClosedOnEvidence.snoc (h : ClosedOnEvidence history) {happening : Happening}
    (hlast : ∀ row writer, happening = .wrote row writer → row.edge = .closed →
      Justified history row writer) : ClosedOnEvidence (history ++ [happening]) := by
  intro before row writer after hsplit hedge
  rcases snoc_eq_append_cons hsplit with ⟨_, rfl, hrow⟩ | ⟨rest, _, hsplit⟩
  · exact hlast row writer hrow.symm hedge
  · exact h before row writer rest hsplit hedge

/-- What the last happening says about the connection, or what was said before. -/
theorem lost_connection_append_wrote (history : List Happening) (row : ReaderGapEvent)
    (writer : GapWriter) :
    LostConnection (history ++ [.wrote row writer]) ↔ LostConnection history := by
  rw [LostConnection, lastLifecycle, List.foldl_append]
  rfl

theorem write_self (device : Device) (writer : GapWriter) :
    device.write writer device.events = device := by
  simp [Device.write]

theorem write_append (device : Device) (writer : GapWriter) (row : ReaderGapEvent) :
    device.write writer (device.events ++ [row]) =
      { device with
        events := device.events ++ [row]
        history := device.history ++ [.wrote row writer] } := by
  simp [Device.write]

/-- One more edge that rests on evidence. -/
theorem Sound.write (h : Sound device) {writer : GapWriter} {row : ReaderGapEvent}
    (htable : GapTable (device.events ++ [row]))
    (hclosed : row.edge = .closed → Justified device.history row writer)
    (hopened : ∀ thresholdMs, writer = .heartbeat thresholdMs → row.edge = .opened →
      row.detection = .suspected) : Sound (device.write writer (device.events ++ [row])) := by
  have hrunning : Happening.wrote row writer ≠ .started := Happening.noConfusion
  rw [write_append]
  constructor
  · exact htable
  · show (device.history ++ [Happening.wrote row writer]).filterMap Happening.row = _
    rw [rows_append, h.rows]
    rfl
  · exact fun stamp hstamp => (h.message stamp hstamp).append hrunning
  · exact fun stamp hstamp => (h.heard stamp hstamp).append hrunning
  · exact fun watching place hplace => (h.recording watching place hplace).append hrunning
  · intro seen hseen
    obtain ⟨hmessage, hheard⟩ := h.seen seen hseen
    exact ⟨hmessage.append hrunning, fun heard hmem => (hheard heard hmem).append hrunning⟩
  · intro other thresholdMs hmem hedge
    rcases List.mem_append.mp hmem with hold | hnew
    · exact h.suspected other thresholdMs hold hedge
    · cases List.mem_singleton.mp hnew
      exact hopened thresholdMs rfl hedge
  · show device.status.transportDown = true ↔
      LostConnection (device.history ++ [Happening.wrote row writer])
    rw [lost_connection_append_wrote]
    exact h.down
  · refine h.closed.snoc ?_
    intro other otherWriter heq hedge
    cases heq
    exact hclosed hedge

/-- An opening call. -/
theorem Sound.opens (h : Sound device) {writer : GapWriter} {detection : GapDetection}
    (hdetection : ∀ thresholdMs, writer = .heartbeat thresholdMs → detection = .suspected)
    (failure : Option String) (readerId : ReaderId) (observed : Observed) :
    Sound (device.write writer
      (openReaderGap device.events failure readerId detection observed).2) := by
  rcases h.table.open_cases failure readerId detection observed with hsame | ⟨hwritten, htable⟩
  · rw [hsame, write_self]
    exact h
  · rw [hwritten]
    exact h.write htable (fun hedge => by cases hedge) fun thresholdMs hwriter _ =>
      hdetection thresholdMs hwriter

/-- A closing call whose edge would rest on evidence. -/
theorem Sound.closes (h : Sound device) {writer : GapWriter} {readerId : ReaderId}
    {observed : Observed}
    (hclosed : ∀ opened,
      openReaderGapFor device.events readerId = some (gapFromRow (opened, none)) →
      opened ∈ device.events →
      Justified device.history (closingEdge device.events opened observed) writer)
    (failure : Option String) :
    Sound (device.write writer (closeReaderGap device.events failure readerId observed).2) := by
  rcases h.table.close_cases failure readerId observed with
    hsame | ⟨opened, hlast, hopened, hwritten, htable⟩
  · rw [hsame, write_self]
    exact h
  · rw [hwritten]
    have hgap := (open_reader_gap_for_eq_some h.table.paired).mpr ⟨opened, hlast, hopened, rfl⟩
    exact h.write htable (fun _ => hclosed opened hgap (mem_of_last_edge hlast).1)
      fun _ _ hedge => by cases hedge

/-- The happening behind a row of the table. -/
theorem Sound.split (h : Sound device) {row : ReaderGapEvent} (hrow : row ∈ device.events) :
    ∃ earlier writer since, device.history = earlier ++ .wrote row writer :: since := by
  rw [← h.rows, List.mem_filterMap] at hrow
  obtain ⟨happening, hmem, hrow⟩ := hrow
  cases happening with
  | wrote other writer =>
      cases hrow
      obtain ⟨earlier, since, hsplit⟩ := List.append_of_mem hmem
      exact ⟨earlier, writer, since, hsplit⟩
  | started => cases hrow
  | composed => cases hrow
  | received event => cases hrow

/-- A row that was written is in the table. -/
theorem Sound.mem_events (h : Sound device) {row : ReaderGapEvent} {writer : GapWriter}
    (hrow : Happening.wrote row writer ∈ device.history) : row ∈ device.events := by
  rw [← h.rows, List.mem_filterMap]
  exact ⟨_, hrow, rfl⟩

/-! ## Closing on evidence -/

/-- A connection or a read at a fresh place is evidence. -/
theorem Sound.justified_of_fresh (h : Sound device) {place : Nat}
    (hsaid : SaidAt device.history ReaderEvent.IsBack place) {opened : ReaderGapEvent}
    (hopened : opened ∈ device.events) (hfresh : Fresh device.history place opened.seq)
    {writer : GapWriter} (observed : Observed)
    (hdown : writer ≠ .connection → opened.detection = .confirmed →
      device.status.transportDown = false) :
    Justified device.history (closingEdge device.events opened observed) writer := by
  obtain ⟨earlier, opener, since, hsplit⟩ := h.split hopened
  constructor
  · exact ⟨earlier, opened, opener, since, hsplit, rfl, Or.inl (hsaid.came_in hsplit hfresh)⟩
  · intro hwriter hconfirmed cause hlost
    have hup := hdown hwriter hconfirmed
    rw [h.down.mpr ⟨cause, hlost⟩] at hup
    cases hup

/-! ## Steps -/

theorem Sound.with_reader (h : Sound device) {reader : ReaderThread}
    (hreader : ∀ watching place, reader = .recording none watching place →
      SaidAt device.history (· = .connected) place) : Sound { device with reader } :=
  { h with recording := hreader }

theorem Sound.with_tick (h : Sound device) {tick : Tick}
    (htick : ∀ seen ∈ tick.seen, device.tick.seen = some seen) : Sound { device with tick } :=
  { h with seen := fun seen hseen => h.seen seen (htick seen hseen) }

theorem Sound.with_waiting_tick (h : Sound device) : Sound { device with tick := .waiting } :=
  h.with_tick fun _ hseen => by cases hseen

/-- The second section of `record_connection`. -/
theorem Sound.record_connection (h : Sound device) {cause : Option Disconnection}
    {watching : Watching} {place : Nat} (hreader : device.reader = .recording cause watching place)
    {now : OffsetDateTime} {failure : Option String}
    (hcurrent : device.Current (.record now failure)) :
    Sound (device.recordConnection now failure cause watching) := by
  have hwaiting : Sound { device with reader := .waiting } :=
    h.with_reader fun _ _ hrecording => by cases hrecording
  cases cause with
  | some cause => exact hwaiting.opens (fun _ hwriter => by cases hwriter) _ _ _
  | none =>
      refine hwaiting.closes ?_ _
      intro opened hgap hopened
      have hsaid : SaidAt device.history ReaderEvent.IsBack place :=
        { h.recording watching place hreader with
          said := fun event hevent =>
            Or.inl ((h.recording watching place hreader).said event hevent) }
      exact h.justified_of_fresh hsaid hopened (hcurrent watching place hreader _ hgap) _
        fun hwriter => absurd rfl hwriter

/-- The silence check. -/
theorem Sound.check_silence (h : Sound device) {seen : Snapshot} {env : SilenceEnv}
    (hseen : SaidAt device.history ReaderEvent.IsBack seen.lastMessage.place)
    (hcurrent : device.SilenceCurrent seen env) : Sound (device.checkSilence seen env) := by
  unfold Device.checkSilence
  cases hverdict : device.silenceVerdict seen env with
  | none => exact h.with_waiting_tick
  | some verdict =>
      cases verdict with
      | idle => exact h.with_waiting_tick
      | «open» => exact h.with_waiting_tick.opens (fun _ hwriter => by cases hwriter) _ _ _
      | close =>
          refine h.with_waiting_tick.closes ?_ _
          intro opened hgap hopened
          obtain ⟨hfresh, hdown⟩ := hcurrent hverdict _ hgap
          exact h.justified_of_fresh hseen hopened hfresh _ fun _ => hdown

/-- The edge a heartbeat check closes by rests on evidence. -/
theorem Sound.heartbeat_justified (h : Sound device) {seen : Snapshot} {heartbeatMs : Nat}
    (hheard : ∀ heard ∈ seen.lastHeard, SaidAt device.history ReaderEvent.IsHeard heard.place)
    (hcurrent : device.HeartbeatCurrent seen heartbeatMs)
    (hverdict : device.heartbeatVerdict seen heartbeatMs = .close) {opened : ReaderGapEvent}
    (hgap : openReaderGapFor device.events seen.watching.reader = some (gapFromRow (opened, none)))
    (hopened : opened ∈ device.events) (observed : Observed) :
    Justified device.history (closingEdge device.events opened observed)
      (.heartbeat heartbeatMs) := by
  obtain ⟨⟨other, thresholdMs, hwrote, hseq⟩, hevidence⟩ := hcurrent hverdict _ hgap
  -- the open gap is the one the heartbeat check opened
  have hsame : other = opened :=
    h.table.paired.eq_of_number (h.mem_events hwrote) hopened hseq
  subst hsame
  have hedge : other.edge = .opened := by
    obtain ⟨last, hlast, hlastEdge, hrow⟩ := (open_reader_gap_for_eq_some h.table.paired).mp hgap
    have hnumber : other.seq = last.seq := congrArg ReaderGap.openedSeq hrow
    rw [h.table.paired.eq_of_number hopened (mem_of_last_edge hlast).1 hnumber]
    exact hlastEdge
  obtain ⟨earlier, since, hsplit⟩ := List.append_of_mem hwrote
  constructor
  · refine ⟨earlier, other, _, since, hsplit, rfl, ?_⟩
    rcases hevidence with rfl | ⟨heard, hmem, hfresh⟩
    · exact Or.inr ⟨⟨thresholdMs, rfl⟩, Or.inr rfl⟩
    · obtain ⟨first, event, rest, hsince, hevent, hrunning⟩ :=
        (hheard heard hmem).came_in hsplit hfresh
      rcases hevent with halive | hread
      · exact Or.inr ⟨⟨thresholdMs, rfl⟩, Or.inl ⟨first, event, rest, hsince, halive, hrunning⟩⟩
      · exact Or.inl ⟨first, event, rest, hsince, Or.inr hread, hrunning⟩
  · intro _ hconfirmed
    have hsuspected := h.suspected other thresholdMs hwrote hedge
    rw [show (closingEdge device.events other observed).detection = other.detection from rfl,
      hsuspected] at hconfirmed
    cases hconfirmed

/-- The second section of `check_for_silence`. -/
theorem Sound.work (h : Sound device) {seen : Snapshot} (htick : device.tick = .looked seen)
    {heartbeat : HeartbeatEnv} {silence : SilenceEnv}
    (hcurrent : device.Current (.work heartbeat silence)) :
    Sound (device.work seen heartbeat silence) := by
  obtain ⟨hmessage, hheard⟩ := h.seen seen (by rw [htick]; rfl)
  have hmarking : ∀ opened, Sound { device with tick := .marking seen opened } := by
    intro opened
    refine h.with_tick ?_
    intro other hother
    cases hother
    rw [htick]
    rfl
  unfold Device.work
  cases hthreshold : heartbeat.thresholdMs with
  | none => exact h.with_waiting_tick
  | some heartbeatMs =>
      obtain ⟨hheartbeat, hsilence⟩ := hcurrent seen htick heartbeatMs hthreshold
      dsimp only
      cases hverdict : device.heartbeatVerdict seen heartbeatMs with
      | «open» => exact (hmarking true).opens (fun _ _ => rfl) _ _ _
      | close =>
          refine (hmarking false).closes ?_ _
          intro opened hgap hopened
          exact h.heartbeat_justified hheard hheartbeat hverdict hgap hopened _
      | idle =>
          cases hflag : seen.heartbeatGap with
          | true =>
              rw [if_pos rfl]
              exact h.with_waiting_tick
          | false =>
              rw [if_neg Bool.false_ne_true]
              exact h.check_silence hmessage (hsilence hverdict hflag)

/-- Something other than an edge happens, and the status and the reader thread go by what came in
up to then. -/
theorem Sound.happens (h : Sound device) {happening : Happening} (hrow : happening.row = none)
    (hrunning : happening ≠ .started) {status : ReaderStatus} {reader : ReaderThread}
    (hmessage : ∀ stamp ∈ status.lastMessage,
      SaidAt (device.history ++ [happening]) ReaderEvent.IsBack stamp.place)
    (hheard : ∀ stamp ∈ status.lastHeard,
      SaidAt (device.history ++ [happening]) ReaderEvent.IsHeard stamp.place)
    (hrecording : ∀ watching place, reader = .recording none watching place →
      SaidAt (device.history ++ [happening]) (· = .connected) place)
    (hdown : status.transportDown = true ↔ LostConnection (device.history ++ [happening])) :
    Sound { device with status, reader, history := device.history ++ [happening] } where
  table := h.table
  rows := by
    show (device.history ++ [happening]).filterMap Happening.row = device.events
    rw [rows_append, h.rows, hrow]
    exact List.append_nil _
  message := hmessage
  heard := hheard
  recording := hrecording
  seen := fun seen hseen => ⟨(h.seen seen hseen).1.append hrunning, fun heard hmem =>
    ((h.seen seen hseen).2 heard hmem).append hrunning⟩
  suspected := fun row thresholdMs hmem => by
    rcases List.mem_append.mp hmem with hold | hnew
    · exact h.suspected row thresholdMs hold
    · rw [← List.mem_singleton.mp hnew] at hrow
      cases hrow
  down := hdown
  closed := h.closed.snoc fun row writer heq => by
    rw [heq] at hrow
    cases hrow

/-- The stamp of a message is the place of the message. -/
theorem said_at_stamp {kind : ReaderEvent → Prop} {event : ReaderEvent} (hevent : kind event) :
    SaidAt (device.history ++ [.received event]) kind device.stamp.place :=
  said_at_last Happening.noConfusion fun other hother => by
    cases hother
    exact hevent

/-- The first section of `record_connection`, as an event is received. -/
theorem Sound.take_connection (h : Sound device) (cause : Option Disconnection)
    {event : ReaderEvent} (hevent : event = match cause with
      | some cause => .disconnected cause
      | none => .connected) :
    Sound { device.takeConnection cause with history := device.history ++ [.received event] } := by
  refine h.happens rfl Happening.noConfusion ?_ (fun _ hstamp => by cases hstamp) ?_ ?_
  · intro stamp hstamp
    cases cause with
    | none =>
        cases hstamp
        exact said_at_stamp (Or.inl hevent)
    | some cause => exact (h.message stamp hstamp).append Happening.noConfusion
  · intro watching place hreader
    simp only [Device.takeConnection] at hreader
    cases hwatching : device.status.watching with
    | none =>
        rw [hwatching] at hreader
        cases hreader
    | some other =>
        rw [hwatching] at hreader
        cases hreader
        exact said_at_stamp hevent
  · subst hevent
    rw [LostConnection, lastLifecycle, List.foldl_append]
    cases cause with
    | none => simp [Device.takeConnection]
    | some cause => simp [Device.takeConnection]

/-- What the reader thread does when it takes an event. -/
theorem Sound.receive (h : Sound device) (event : ReaderEvent) :
    Sound (device.receive event) := by
  have hrunning : ∀ event, Happening.received event ≠ .started := fun _ => Happening.noConfusion
  cases event with
  | connected => exact h.take_connection none rfl
  | disconnected cause => exact h.take_connection (some cause) rfl
  | read =>
      refine h.happens rfl (hrunning _) ?_ ?_ (fun _ _ hreader => by cases hreader) ?_
      · intro stamp hstamp
        cases hstamp
        exact said_at_stamp (Or.inr rfl)
      · intro stamp hstamp
        cases hstamp
        exact said_at_stamp (Or.inr rfl)
      · rw [LostConnection, lastLifecycle, List.foldl_append]
        exact h.down
  | alive =>
      refine h.happens rfl (hrunning _) ?_ ?_ ?_ ?_
      · exact fun stamp hstamp => (h.message stamp hstamp).append (hrunning _)
      · intro stamp hstamp
        cases hstamp
        exact said_at_stamp (Or.inl rfl)
      · exact fun watching place hreader =>
          (h.recording watching place hreader).append (hrunning _)
      · rw [LostConnection, lastLifecycle, List.foldl_append]
        exact h.down

/-- A process starts on the journal that another left. -/
theorem Sound.restart (h : Sound device) : Sound (device.step .restart) where
  table := h.table
  rows := by
    show (device.history ++ [Happening.started]).filterMap Happening.row = device.events
    rw [rows_append, h.rows]
    exact List.append_nil _
  message := fun _ hstamp => by cases hstamp
  heard := fun _ hstamp => by cases hstamp
  recording := fun _ _ hreader => by cases hreader
  seen := fun _ hseen => by cases hseen
  suspected := fun row thresholdMs hmem => by
    rcases List.mem_append.mp hmem with hold | hnew
    · exact h.suspected row thresholdMs hold
    · cases List.mem_singleton.mp hnew
  down := by
    show false = true ↔ LostConnection (device.history ++ [Happening.started])
    rw [LostConnection, lastLifecycle, List.foldl_append]
    simp
  closed := h.closed.snoc fun _ _ heq => by cases heq

/-- A reader is composed, and silence is measured from then. -/
theorem Sound.compose (h : Sound device) (watching : Watching) :
    Sound (device.step (.compose watching)) := by
  unfold Device.step
  cases hreader : device.reader with
  | notStarted =>
      have hrunning : Happening.composed ≠ .started := Happening.noConfusion
      refine h.happens rfl hrunning ?_ ?_ (fun _ _ hwaiting => by cases hwaiting) ?_
      · intro stamp hstamp
        cases hstamp
        exact said_at_last hrunning fun _ heq => by cases heq
      · exact fun stamp hstamp => (h.heard stamp hstamp).append hrunning
      · rw [LostConnection, lastLifecycle, List.foldl_append]
        exact h.down
  | waiting => exact h
  | storing => exact h
  | recording cause watching place => exact h

/-- What a tick takes of the status is of this process, as the status is. -/
theorem Sound.look (h : Sound device) : Sound device.look := by
  unfold Device.look
  split_ifs
  · exact h
  · split
    · next watching lastMessage _ hmessage =>
        refine { h with seen := ?_ }
        intro seen hseen
        cases hseen
        exact ⟨h.message lastMessage hmessage, h.heard⟩
    · exact h

/-- The status is told of a heartbeat edge. -/
theorem Sound.mark (h : Sound device) {seen : Snapshot} {opened : Bool}
    (htick : device.tick = .marking seen opened) : Sound (device.mark seen opened) := by
  have hmarked : ∀ other ∈ (if opened then Tick.waiting else .resumed seen).seen,
      device.tick.seen = some other := by
    intro other hother
    rw [htick]
    cases opened with
    | true => cases hother
    | false => exact hother
  have hticked := h.with_tick hmarked
  exact { hticked with }

/-- Every step that goes by what is current keeps the invariant. -/
theorem Sound.step (h : Sound device) {event : DeviceStep} (hcurrent : device.Current event) :
    Sound (device.step event) := by
  cases event with
  | pass nanos => exact { h with }
  | restart => exact h.restart
  | compose watching => exact h.compose watching
  | receive event =>
      unfold Device.step
      cases hreader : device.reader with
      | waiting => exact h.receive event
      | notStarted => exact h
      | storing => exact h
      | recording cause watching place => exact h
  | stored =>
      unfold Device.step
      cases hreader : device.reader with
      | storing => exact h.with_reader fun _ _ hwaiting => by cases hwaiting
      | notStarted => exact h
      | waiting => exact h
      | recording cause watching place => exact h
  | record now failure =>
      unfold Device.step
      cases hreader : device.reader with
      | recording cause watching place => exact h.record_connection hreader hcurrent
      | notStarted => exact h
      | waiting => exact h
      | storing => exact h
  | look =>
      unfold Device.step
      cases htick : device.tick with
      | waiting => exact h.look
      | looked seen => exact h
      | marking seen opened => exact h
      | resumed seen => exact h
  | work heartbeat silence =>
      unfold Device.step
      cases htick : device.tick with
      | looked seen => exact h.work htick hcurrent
      | waiting => exact h
      | marking seen opened => exact h
      | resumed seen => exact h
  | mark =>
      unfold Device.step
      cases htick : device.tick with
      | marking seen opened => exact h.mark htick
      | waiting => exact h
      | looked seen => exact h
      | resumed seen => exact h
  | silence env =>
      unfold Device.step
      cases htick : device.tick with
      | resumed seen =>
          exact h.check_silence (h.seen seen (by rw [htick]; rfl)).1 (hcurrent seen htick)
      | waiting => exact h
      | looked seen => exact h
      | marking seen opened => exact h

/-- In every run whose sections go by what is current, every closed edge rests on evidence, and no
tick closes a confirmed gap behind a `Disconnected`. -/
theorem closes_on_evidence (steps : List DeviceStep)
    (hcurrent : Allowed Device.step Device.Current .initial steps) :
    ClosedOnEvidence (run Device.step .initial steps).history ∧
      (run Device.step .initial steps).history.filterMap Happening.row =
        (run Device.step .initial steps).events := by
  have hsound := @run_invariant _ _ _ _ Sound (fun _ _ h hstep => h.step hstep) _ _
    sound_initial hcurrent
  exact ⟨hsound.closed, hsound.rows⟩

/-- A reader and the race it reads for. -/
def finishReader : Watching := ⟨⟨"finish"⟩, ⟨.fromU128 1⟩⟩

/-- A tick's checks while a race is running: no heartbeat check, and two minutes of silence. -/
def tickOfRace : DeviceStep :=
  .work ⟨epoch, some 0, none⟩ ⟨epoch, some 120000, fun _ => some true, none⟩

/-- A reader goes quiet for two minutes and is read from again. -/
def quietSpell : List DeviceStep :=
  [.compose finishReader, .pass 120000000000, .look, tickOfRace, .receive .read, .stored, .look,
    tickOfRace]

theorem closes_on_evidence_quiet_spell :
    ClosedOnEvidence (run Device.step .initial quietSpell).history ∧
      (run Device.step .initial quietSpell).history.filterMap Happening.row =
        (run Device.step .initial quietSpell).events := by
  refine closes_on_evidence quietSpell
    ⟨trivial, trivial, trivial, ?_, trivial, trivial, trivial, ?_, trivial⟩
  · intro seen hseen heartbeatMs hthreshold
    cases hseen
    cases hthreshold
    refine ⟨?_, ?_⟩
    · intro hverdict
      cases hverdict
    · intro _ _ hverdict
      cases hverdict
  · intro seen hseen heartbeatMs hthreshold
    cases hseen
    cases hthreshold
    refine ⟨?_, ?_⟩
    · intro hverdict
      cases hverdict
    · intro _ _ _ gap hgap
      cases hgap
      exact ⟨⟨⟨.read, rfl⟩, by decide⟩, fun hconfirmed => by cases hconfirmed⟩

/-- A reader goes away, the service restarts, and a tick looks before the reader is back. -/
def restartInGap : List DeviceStep :=
  [.compose finishReader, .receive (.disconnected .ended), .record epoch none, .restart,
    .compose finishReader, .look]

/-- The edge the tick behind a restart closes the gap with. -/
def readsResumed : ReaderGapEvent :=
  ⟨2, finishReader.reader, .closed, .confirmed, wholeMicros epoch, 0, some 1,
    some "reads resumed"⟩

/-- A tick behind a restart closes a gap with nothing received. -/
theorem not_closed_on_evidence : ¬ ∀ steps : List DeviceStep,
    ClosedOnEvidence (run Device.step .initial steps).history := by
  intro h
  have hhistory : (run Device.step .initial (restartInGap ++ [tickOfRace])).history =
      (run Device.step .initial restartInGap).history ++ [.wrote readsResumed .silence] := by
    decide
  obtain ⟨earlier, opened, opener, since, hsplit, _, hevidence⟩ :=
    (h _ _ _ _ [] hhistory rfl).evidence
  -- of what came in, nothing is a connection, a read or a sign of life
  have hcame : ∀ event, CameIn (· = event) since →
      Happening.received event ∈ (run Device.step .initial restartInGap).history := by
    intro event ⟨first, other, rest, hsince, hother, _⟩
    rw [hsplit, hsince, hother]
    simp
  rcases hevidence with ⟨first, event, rest, hsince, hback, hrunning⟩ | ⟨_, halive | hoff⟩
  · have hmem := hcame event ⟨first, event, rest, hsince, rfl, hrunning⟩
    rcases hback with rfl | rfl <;> exact absurd hmem (by decide)
  · exact absurd (hcame .alive halive) (by decide)
  · cases hoff

end Splitforge.Edge
