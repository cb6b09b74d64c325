import Splitforge.Storage.Gaps

/-!
# The reader thread and the watchdog

Two threads share the reader's status and the journal, each behind its own lock. The reader thread
takes what the provider reports, and the watchdog looks at the status, lets go of it, and then acts
on what it saw under the other lock. A step here is one section under one lock, so a list of steps
is one interleaving, with any thresholds, any race states and any failures of SQLite, and with
restarts that keep the journal and nothing else.

A lock is poisoned only by a panic, and none of these sections panics.
-/

namespace Splitforge.Edge

open Splitforge.Domain Splitforge.Library Splitforge.Storage

/-- What a provider reports that has to do with gaps. -/
inductive ReaderEvent where
  | read
  | connected
  | disconnected (cause : Disconnection)
  | alive
deriving DecidableEq

/-- What the service says about its reader. -/
inductive ReaderState where
  | connected
  | disconnected
  | stopped
deriving DecidableEq

/-- What the silence watchdog needs to know to do its job. -/
structure Watching where
  reader : ReaderId
  race : RaceId
deriving DecidableEq

/-- A reading of the monotonic clock, in nanoseconds, and how much had happened before it. Only
the reading is looked at. -/
structure Stamp where
  instant : Nat
  place : Nat
deriving DecidableEq

/-- The reader half of health, as far as gaps depend on it. -/
structure ReaderStatus where
  state : Option ReaderState
  received : Nat
  watching : Option Watching
  lastMessage : Option Stamp
  transportDown : Bool
  lastHeard : Option Stamp
  heartbeatGap : Bool
deriving DecidableEq

/-- A service composed with no reader. -/
def ReaderStatus.none : ReaderStatus := ⟨.none, 0, .none, .none, false, .none, false⟩

/-- What a tick of the watchdog has seen of the status. -/
structure Snapshot where
  watching : Watching
  lastMessage : Stamp
  lastHeard : Option Stamp
  heartbeatGap : Bool
deriving DecidableEq

/-- Where the reader thread is: not started, waiting for an event, storing a read, or between the
two sections of `record_connection`. -/
inductive ReaderThread where
  | notStarted
  | waiting
  | storing
  | recording (cause : Option Disconnection) (watching : Watching) (place : Nat)
deriving DecidableEq

/-- Where the watchdog is: between ticks, behind its look at the status, behind a heartbeat edge
that the status does not tell of yet, or behind that and about to lock the stores again. -/
inductive Tick where
  | waiting
  | looked (seen : Snapshot)
  | marking (seen : Snapshot) (opened : Bool)
  | resumed (seen : Snapshot)
deriving DecidableEq

/-- Which of the three that write edges wrote one. The heartbeat check writes it under a
threshold. -/
inductive GapWriter where
  | connection
  | heartbeat (thresholdMs : Nat)
  | silence
deriving DecidableEq

/-- What happens on a device: a process starts, composes a reader and receives events, and edges
are written. -/
inductive Happening where
  | started
  | composed
  | received (event : ReaderEvent)
  | wrote (row : ReaderGapEvent) (writer : GapWriter)
deriving DecidableEq

/-- A device: the journal's gap table, the monotonic clock and its reading at the start of the
process, the status and both threads, and what has happened so far, which no step looks at. -/
structure Device where
  events : List ReaderGapEvent
  clock : Nat
  started : Nat
  status : ReaderStatus
  reader : ReaderThread
  tick : Tick
  history : List Happening
deriving DecidableEq

/-- A process that has just started on an empty journal. -/
def Device.initial : Device := ⟨[], 0, 0, .none, .notStarted, .waiting, [.started]⟩

/-- What the silence check of a tick finds: the wall clock, the threshold in force and whether a
race is running, each as far as the configuration can be read, and whether SQLite fails. -/
structure SilenceEnv where
  now : OffsetDateTime
  thresholdMs : Option Nat
  running : RaceId → Option Bool
  failure : Option String

/-- What the heartbeat check of a tick finds. -/
structure HeartbeatEnv where
  now : OffsetDateTime
  thresholdMs : Option Nat
  failure : Option String

/-! ## Clocks -/

/-- Milliseconds of the monotonic clock since a reading of it, as a `u64`. -/
def elapsedMs (clock instant : Nat) : Nat := min ((clock - instant) / 1000000) (2 ^ 64 - 1)

/-- The monotonic reading of an edge. -/
def Device.monotonicMs (device : Device) : Nat := elapsedMs device.clock device.started

/-- A reading of the monotonic clock now. -/
def Device.stamp (device : Device) : Stamp := ⟨device.clock, device.history.length⟩

/-- `now - Duration::milliseconds(..)`, where a span that no `i64` holds counts as none. No earlier
than the earliest instant, where the source panics. -/
def began (now : OffsetDateTime) (milliseconds : Nat) : OffsetDateTime :=
  let span : Nat := if (milliseconds : Int) ≤ i64Max then milliseconds else 0
  ⟨max minNanos (now.nanos - span * 1000000), le_max_left _ _, by
    have hlower := now.lower
    have hupper := now.upper
    omega⟩

/-! ## The reader thread -/

/-- The table after a call on it, and the edges it wrote. -/
def Device.write (device : Device) (writer : GapWriter) (events : List ReaderGapEvent) : Device :=
  { device with
    events
    history := device.history ++ (events.drop device.events.length).map (.wrote · writer) }

/-- The first section of `record_connection`, under the status lock. -/
def Device.takeConnection (device : Device) (cause : Option Disconnection) : Device :=
  { device with
    status := { device.status with
      state := some (if cause.isSome then .disconnected else .connected)
      transportDown := cause.isSome
      lastHeard := none
      heartbeatGap := false
      lastMessage := if cause.isNone then some device.stamp else device.status.lastMessage }
    reader :=
      match device.status.watching with
      | some watching => .recording cause watching device.history.length
      | none => .waiting }

/-- What the reader thread does when it takes an event, up to its first release of a lock. -/
def Device.receive (device : Device) (event : ReaderEvent) : Device :=
  let received :=
    match event with
    | .read =>
        { device with
          status := { device.status with
            received := device.status.received + 1
            lastMessage := some device.stamp
            lastHeard := some device.stamp }
          reader := .storing }
    | .connected => device.takeConnection none
    | .disconnected cause => device.takeConnection (some cause)
    | .alive => { device with status := { device.status with lastHeard := some device.stamp } }
  { received with history := device.history ++ [.received event] }

/-- The second section of `record_connection`, under the stores lock. -/
def Device.recordConnection (device : Device) (now : OffsetDateTime) (failure : Option String)
    (cause : Option Disconnection) (watching : Watching) : Device :=
  let recorded := { device with reader := .waiting }
  match cause with
  | some cause =>
      recorded.write .connection
        (openReaderGap device.events failure watching.reader .confirmed
          ⟨now, device.monotonicMs, some cause.detail⟩).2
  | none =>
      recorded.write .connection
        (closeReaderGap device.events failure watching.reader
          ⟨now, device.monotonicMs, some "the reader connected"⟩).2

/-! ## The watchdog -/

/-- The first section of `check_for_silence`, under the status lock: what the tick goes on with,
unless the transport has said that it is down or no reader is composed. -/
def Device.look (device : Device) : Device :=
  if device.status.transportDown then device
  else
    match device.status.watching, device.status.lastMessage with
    | some watching, some lastMessage =>
        { device with
          tick := .looked
            ⟨watching, lastMessage, device.status.lastHeard, device.status.heartbeatGap⟩ }
    | _, _ => device

/-- What the silence check decides, if the configuration can be read. -/
def Device.silenceVerdict (device : Device) (seen : Snapshot) (env : SilenceEnv) :
    Option SilenceVerdict := do
  let thresholdMs ← env.thresholdMs
  let running ← env.running seen.watching.race
  pure (assessSilence thresholdMs running (elapsedMs device.clock seen.lastMessage.instant))

/-- The silence check, under the stores lock. -/
def Device.checkSilence (device : Device) (seen : Snapshot) (env : SilenceEnv) : Device :=
  let silentForMs := elapsedMs device.clock seen.lastMessage.instant
  let checked := { device with tick := .waiting }
  match device.silenceVerdict seen env with
  | some .open =>
      checked.write .silence
        (openReaderGap device.events env.failure seen.watching.reader .suspected
          ⟨began env.now silentForMs, device.monotonicMs,
            some "no reads for longer than the configured silence threshold"⟩).2
  | some .close =>
      checked.write .silence
        (closeReaderGap device.events env.failure seen.watching.reader
          ⟨env.now, device.monotonicMs, some "reads resumed"⟩).2
  | some .idle => checked
  | none => checked

/-- How long the reader had said nothing. -/
def Device.quietForMs (device : Device) (seen : Snapshot) : Nat :=
  match seen.lastHeard with
  | some heard => elapsedMs device.clock heard.instant
  | none => 0

/-- What the heartbeat check decides under a threshold. -/
def Device.heartbeatVerdict (device : Device) (seen : Snapshot) (heartbeatMs : Nat) :
    HeartbeatVerdict :=
  assessHeartbeat heartbeatMs seen.lastHeard.isSome (device.quietForMs seen) seen.heartbeatGap

/-- The second section of `check_for_silence`, under the stores lock: the heartbeat check, and
behind one that has nothing to do the silence check. -/
def Device.work (device : Device) (seen : Snapshot) (heartbeat : HeartbeatEnv)
    (silence : SilenceEnv) : Device :=
  match heartbeat.thresholdMs with
  | none => { device with tick := .waiting }
  | some heartbeatMs =>
      match device.heartbeatVerdict seen heartbeatMs with
      | .open =>
          { device with tick := .marking seen true }.write (.heartbeat heartbeatMs)
            (openReaderGap device.events heartbeat.failure seen.watching.reader .suspected
              ⟨began heartbeat.now (device.quietForMs seen), device.monotonicMs,
                some ("the reader said nothing at all, not even between reads, for longer" ++
                  "                          than the heartbeat threshold")⟩).2
      | .close =>
          { device with tick := .marking seen false }.write (.heartbeat heartbeatMs)
            (closeReaderGap device.events heartbeat.failure seen.watching.reader
              ⟨heartbeat.now, device.monotonicMs,
                some (if heartbeatMs = 0 then "the heartbeat check was switched off"
                  else "the reader was heard again")⟩).2
      | .idle =>
          if seen.heartbeatGap then { device with tick := .waiting }
          else device.checkSilence seen silence

/-- The status lock again: the status tells of the edge the heartbeat check was about. -/
def Device.mark (device : Device) (seen : Snapshot) (opened : Bool) : Device :=
  { device with
    status := { device.status with heartbeatGap := opened }
    tick := if opened then .waiting else .resumed seen }

/-! ## Steps -/

/-- A step of a device: time passes, the process restarts, a reader is composed, or a thread goes
through one section. -/
inductive DeviceStep where
  | pass (nanos : Nat)
  | restart
  | compose (watching : Watching)
  | receive (event : ReaderEvent)
  | stored
  | record (now : OffsetDateTime) (failure : Option String)
  | look
  | work (heartbeat : HeartbeatEnv) (silence : SilenceEnv)
  | mark
  | silence (env : SilenceEnv)

/-- One step. A section that its thread is not at changes nothing. -/
def Device.step (device : Device) : DeviceStep → Device
  | .pass nanos => { device with clock := device.clock + nanos }
  | .restart =>
      { device with
        started := device.clock
        status := .none
        reader := .notStarted
        tick := .waiting
        history := device.history ++ [.started] }
  | .compose watching =>
      match device.reader with
      | .notStarted =>
          { device with
            status := { device.status with
              state := some .disconnected
              watching := some watching
              lastMessage := some device.stamp }
            reader := .waiting
            history := device.history ++ [.composed] }
      | _ => device
  | .receive event =>
      match device.reader with
      | .waiting => device.receive event
      | _ => device
  | .stored =>
      match device.reader with
      | .storing => { device with reader := .waiting }
      | _ => device
  | .record now failure =>
      match device.reader with
      | .recording cause watching _ => device.recordConnection now failure cause watching
      | _ => device
  | .look =>
      match device.tick with
      | .waiting => device.look
      | _ => device
  | .work heartbeat silence =>
      match device.tick with
      | .looked seen => device.work seen heartbeat silence
      | _ => device
  | .mark =>
      match device.tick with
      | .marking seen opened => device.mark seen opened
      | _ => device
  | .silence env =>
      match device.tick with
      | .resumed seen => device.checkSilence seen env
      | _ => device

end Splitforge.Edge
