import Splitforge.Thingmagic.Pump
import Splitforge.Thingmagic.TagReport

/-!
# The connection lifecycle

The provider opens its port, reads the connection turn by turn to its end, reports how it ended,
waits, and opens the port again, until its consumer goes away. What a turn decoded is reported at
its end, with the totals of what could not be read. Only a connection that proved itself resets
the delay before the next attempt.
-/

namespace Splitforge.Thingmagic

open Splitforge.Domain Splitforge.Library

/-! ## Decoders -/

/-- When a connection began, on both clocks. -/
structure SessionAnchor where
  openedAtUtc : OffsetDateTime
  openedAt : Nat

/-- `TagReportDecoder`: the reads a verified frame carries, which are appended to those decoded so
far, and the totals since the decoder was created. -/
class TagReportDecoder (D : Type) where
  decode : D → Response → SessionAnchor → D × List ReaderMessage
  faults : D → Nat
  heard : D → Nat

/-- A decoder whose totals are totals: no frame lowers them. -/
class Totals (D : Type) [TagReportDecoder D] : Prop where
  faults_le : ∀ (decoder : D) response anchor, TagReportDecoder.faults decoder ≤
    TagReportDecoder.faults (TagReportDecoder.decode decoder response anchor).1
  heard_le : ∀ (decoder : D) response anchor, TagReportDecoder.heard decoder ≤
    TagReportDecoder.heard (TagReportDecoder.decode decoder response anchor).1

instance : TagReportDecoder StreamDecoder where
  decode decoder response _ := decoder.decode response []
  faults decoder := decoder.errors.toNat
  heard decoder := decoder.heard.toNat

/-- `UndecodedReports`: a decoder that reads nothing, and counts what it declined to read. -/
structure UndecodedReports where
  frames : UInt64

instance : TagReportDecoder UndecodedReports where
  decode decoder _ _ := (⟨nextCount decoder.frames⟩, [])
  faults _ := 0
  heard _ := 0

/-- The stream decoder appends to what was decoded so far. -/
theorem stream_decoder_appends (decoder : StreamDecoder) (response : Response)
    (out : List ReaderMessage) :
    decoder.decode response out =
      ((decoder.decode response []).1, out ++ (decoder.decode response []).2) := by
  unfold StreamDecoder.decode
  cases classify response with
  | error error => simp
  | ok kind =>
      cases kind with
      | tag =>
          simp only
          cases readTag decoder.readerId response.data with
          | error error => simp
          | ok message => simp
      | status => simp
      | «end» => simp
      | endOfCycle => simp

theorem le_next_count (count : UInt64) : count.toNat ≤ (nextCount count).toNat := by
  unfold nextCount
  split_ifs with hlt
  · rw [UInt64.toNat_add]
    show count.toNat ≤ (count.toNat + 1) % 2 ^ 64
    rw [Nat.mod_eq_of_lt (by omega)]
    omega
  · exact Nat.le_refl _

instance : Totals StreamDecoder where
  faults_le decoder response anchor := by
    show decoder.errors.toNat ≤ (decoder.decode response []).1.errors.toNat
    unfold StreamDecoder.decode
    cases classify response with
    | error error => exact le_next_count _
    | ok kind =>
        cases kind with
        | tag =>
            simp only
            cases readTag decoder.readerId response.data with
            | error error => exact le_next_count _
            | ok message => exact Nat.le_refl _
        | status => exact Nat.le_refl _
        | «end» => exact Nat.le_refl _
        | endOfCycle => exact Nat.le_refl _
  heard_le decoder response anchor := by
    show decoder.heard.toNat ≤ (decoder.decode response []).1.heard.toNat
    unfold StreamDecoder.decode
    cases classify response with
    | error error => exact Nat.le_refl _
    | ok kind =>
        cases kind with
        | tag =>
            simp only
            cases readTag decoder.readerId response.data with
            | error error => exact Nat.le_refl _
            | ok message => exact Nat.le_refl _
        | status => exact le_next_count _
        | «end» => exact le_next_count _
        | endOfCycle => exact le_next_count _

instance : Totals UndecodedReports where
  faults_le _ _ _ := Nat.le_refl _
  heard_le _ _ _ := Nat.le_refl _

/-! ## What is reported -/

/-- Input that was received and could not be turned into reads, counted since the start. -/
structure ReaderFaults where
  framing : Nat
  decoding : Nat
deriving DecidableEq

/-- The read power a reader says it uses, and the range it says it accepts. -/
structure TransmitPower where
  centiDbm : Int16
  minCentiDbm : Int16
  maxCentiDbm : Int16
deriving DecidableEq

/-- What a provider reports. -/
inductive ReaderEvent where
  | read (message : ReaderMessage)
  | connected
  | disconnected (cause : Disconnection)
  | faults (faults : ReaderFaults)
  | transmitPower (power : TransmitPower)
  | alive
deriving DecidableEq

/-- The power that is reported for an answer of the module. -/
def PowerReport.transmitPower (report : PowerReport) : TransmitPower :=
  ⟨report.centiDbm, report.minCentiDbm, report.maxCentiDbm⟩

/-! ## Reconnect delays -/

/-- The nanoseconds of `Duration::MAX`. -/
def durationMax : Nat := (2 ^ 64 - 1) * 1000000000 + 999999999

/-- Bounded, jittered reconnect delays, in nanoseconds. -/
structure Backoff where
  first : Nat
  max : Nat

/-- `Backoff::default`: a tenth of a second, and at most five seconds. -/
def Backoff.default : Backoff := ⟨100000000, 5000000000⟩

/-- The window of the delay after some failures: doubled for each, and capped. -/
def Backoff.capped (backoff : Backoff) (failures : Nat) : Nat :=
  min (min (backoff.first * 2 ^ min failures 16) durationMax) backoff.max

/-- The counter-seeded xorshift that spreads retries. -/
def jitter (failures : Nat) (seed : UInt64) : UInt64 :=
  let state := seed * 0x9E3779B97F4A7C15 + (UInt64.ofNat failures ||| 1)
  let state := state ^^^ (state <<< 13)
  let state := state ^^^ (state >>> 7)
  state ^^^ (state <<< 17)

/-- `Backoff::delay`: half the window, plus up to half again. -/
def Backoff.delay (backoff : Backoff) (failures : Nat) (seed : UInt64) : Nat :=
  let half := backoff.capped failures / 2
  let spread := (jitter failures seed).toNat % 1000
  half + half * spread / 1000

/-! ## One connection -/

/-- `Stats::errors`: what never formed a frame. -/
def Stats.errors (stats : Stats) : Nat :=
  stats.notSynchronized + stats.badCrc + stats.dataTooLong + stats.abandoned

/-- The port of a connection, the clock beside it, and what each look at both clocks shows. -/
structure Machine extends Surroundings where
  anchors : Nat → SessionAnchor

variable {D : Type} [TagReportDecoder D]

/-- A connection being read: what the start sequence counts by, the decoder, and the reads of the
turn. -/
structure Connection (D : Type) where
  machine : Machine
  pump : Pump
  anchor : SessionAnchor
  decoder : D
  reads : List ReaderMessage

/-- `Starting::is_starting`: whether the answer to the start command is awaited. -/
def Starting.isStarting (starting : Starting) : Bool :=
  starting.awaited.any fun step => step.command = .startStreaming

/-- The frame handler: the answer the sequence is waiting for goes to it, and everything else to
the decoder. What a report counts from moves when the start command is sent. -/
def Connection.hear (connection : Connection D) (response : Response) : Connection D :=
  let pump := connection.pump.hear connection.machine.toSurroundings response
  if connection.pump.starting.claims response then
    let anchor :=
      if connection.pump.starting.isStarting = false ∧ pump.starting.isStarting = true then
        connection.machine.anchors pump.looks
      else connection.anchor
    { connection with pump, anchor }
  else
    let (decoder, reads) :=
      TagReportDecoder.decode connection.decoder response connection.anchor
    { connection with pump, decoder, reads := connection.reads ++ reads }

/-- The frames of one read of the port, heard. -/
def Connection.heard (connection : Connection D) (read : PortRead) : Connection D :=
  run Connection.hear { connection with pump := connection.pump.opened read }
    (read.frames connection.pump.reassembler).2

/-- The deadline of a connection that is being started. -/
def Connection.checked (connection : Connection D) (starts : Bool) (read : PortRead) :
    Connection D :=
  if starts then
    { connection with
      pump := connection.pump.checkDeadline connection.machine.toSurroundings read.ends }
  else connection

/-- The start of a connection. One that only listens has no sequence, and claims no frame. -/
def Connection.begin (start : Option (List Step)) (machine : Machine) (decoder : D) :
    Connection D where
  machine := machine
  pump :=
    match start with
    | some sequence => Pump.begin machine.toSurroundings sequence
    | none => ⟨.new, .new [], .waiting, true, none, false, false, 0, ⟨0, []⟩⟩
  anchor := machine.anchors 0
  decoder := decoder
  reads := []

/-! ## The reader -/

/-- `ThingMagicReader`: its settings, and what it keeps across connections. -/
structure ThingMagicReader (D : Type) where
  decoder : D
  backoff : Backoff
  framingBefore : Nat
  faultsReported : ReaderFaults
  heardReported : Nat
  start : Option (List Step)
  lastRefusal : Option Refusal
  lastOpenFailure : Option String

/-- `ThingMagicReader::new`, with a start sequence or without one. -/
def ThingMagicReader.new (decoder : D) (backoff : Backoff) (start : Option (List Step)) :
    ThingMagicReader D :=
  ⟨decoder, backoff, 0, ⟨0, 0⟩, 0, start, none, none⟩

/-- What is said in the service log. -/
inductive Logged where
  | refused (refusal : Refusal)
  | notOpened (reason : String)
deriving DecidableEq

/-- `established`: whether a connection has shown that there is a module on the other end. With a
start sequence only the module accepting the start command shows it. -/
def ThingMagicReader.established (reader : ThingMagicReader D) (pump : Pump) (elapsed : Nat) :
    Bool :=
  if reader.start.isSome then pump.progress = .started
  else 0 < pump.reassembler.stats.frames || reader.backoff.max ≤ elapsed

/-- What a turn leaves: the reader, the connection, what is sent, what is logged, and why the
connection is over, if it is. -/
structure Turn (D : Type) where
  reader : ThingMagicReader D
  connection : Connection D
  events : List ReaderEvent
  logged : List Logged
  ended : Option Disconnection

/-- `report_faults`: the totals, if either has changed. -/
def ThingMagicReader.reportFaults (reader : ThingMagicReader D) (faults : ReaderFaults) :
    List ReaderEvent :=
  if faults = reader.faultsReported then [] else [.faults faults]

/-- The refusal a turn ends with. -/
def Pump.refusal (pump : Pump) : Option Refusal :=
  match pump.progress with
  | .refused refusal => some refusal
  | _ => none

/-- The end of a turn, behind the frames and the deadline. -/
def ThingMagicReader.report (reader : ThingMagicReader D) (connection : Connection D)
    (read : PortRead) (elapsed : Nat) : Turn D :=
  let pump := connection.pump
  let cause := pump.cause read.ends
  let announces := !pump.announced && reader.established pump elapsed
  let framing := reader.framingBefore + pump.reassembler.stats.errors
  let faults : ReaderFaults := ⟨framing, TagReportDecoder.faults connection.decoder⟩
  let heard := TagReportDecoder.heard connection.decoder
  let alive := reader.heardReported < heard
  -- a start forgets the last refusal before the turn's own is looked at
  let lastRefusal := if pump.progress = .started then none else reader.lastRefusal
  { reader := { reader with
      decoder := connection.decoder
      framingBefore := if cause.isSome then framing else reader.framingBefore
      faultsReported := faults
      heardReported := if alive then heard else reader.heardReported
      lastRefusal := pump.refusal.or lastRefusal }
    connection := { connection with
      reads := []
      pump := { pump with
        announced := pump.announced || announces
        power := none
        finished := cause.isSome
        port := { pump.port with
          log := pump.port.log ++ ((if announces then [.connected] else []) ++
            (pump.power.map PortEvent.transmitPower).toList ++
            (cause.map (PortEvent.ended (pump.announced || announces))).toList) } } }
    events :=
      (if announces then [.connected] else []) ++
        (pump.power.map fun report => .transmitPower report.transmitPower).toList ++
        connection.reads.map .read ++ reader.reportFaults faults ++
        (if alive then [.alive] else [])
    logged :=
      match pump.refusal with
      | some refusal => if lastRefusal = some refusal then [] else [.refused refusal]
      | none => []
    ended := cause }

/-- One turn of the loop of `pump`. -/
def ThingMagicReader.turn (reader : ThingMagicReader D) (connection : Connection D)
    (read : PortRead) (elapsed : Nat) : Turn D :=
  reader.report ((connection.heard read).checked reader.start.isSome read) read elapsed

/-! ## The loop over connections -/

/-- What the thread is at: about to open the port, reading a connection, or over. -/
inductive Standing (D : Type) where
  | waiting
  | reading (connection : Connection D)
  | stopped

/-- The thread of a provider: its reader, the failures since a connection last proved itself, the
attempts, what its consumer has taken, what it has logged, and the delays it has slept. -/
structure Provider (D : Type) where
  reader : ThingMagicReader D
  standing : Standing D
  failures : Nat
  attempt : Nat
  sent : List ReaderEvent
  logged : List Logged
  delays : List Nat

/-- What the consumer does meanwhile: how many more events it takes before it drops the channel, if
it does, and whether the channel is found closed behind them. -/
structure Consumer where
  takes : Option Nat
  closed : Bool

/-- A consumer that listens. -/
def Consumer.listening : Consumer := ⟨none, false⟩

/-- What comes of the port: it does not open, it opens, and a read of it returns, with how long the
connection has been open by then. -/
inductive ProviderEvent where
  | notOpened (reason : String) (consumer : Consumer)
  | opened (machine : Machine) (consumer : Consumer)
  | read (read : PortRead) (elapsed : Nat) (consumer : Consumer)

/-- `Provider` at the start of `run`. -/
def Provider.new (reader : ThingMagicReader D) : Provider D :=
  ⟨reader, .waiting, 0, 0, [], [], []⟩

/-- The events a consumer takes. -/
def Consumer.taken (consumer : Consumer) (events : List ReaderEvent) : List ReaderEvent :=
  consumer.takes.elim events events.take

/-- Whether a consumer takes them all. -/
def Consumer.takesAll (consumer : Consumer) (events : List ReaderEvent) : Bool :=
  consumer.takes.all fun count => events.length ≤ count

/-- `u32::saturating_add(1)`. -/
def nextFailure (failures : Nat) : Nat := min (failures + 1) (2 ^ 32 - 1)

/-- The end of an attempt: its last events and the disconnection are sent, and a provider that
still has its consumer sleeps before the next. -/
def Provider.conclude (provider : Provider D) (established : Bool) (events : List ReaderEvent)
    (cause : Disconnection) (consumer : Consumer) : Provider D :=
  let events := events ++ [.disconnected cause]
  let failures := if established then 0 else nextFailure provider.failures
  let reader :=
    if established then { provider.reader with lastOpenFailure := none } else provider.reader
  let stays := consumer.takesAll events && !consumer.closed
  { provider with
    reader
    failures
    standing := if stays then .waiting else .stopped
    sent := provider.sent ++ consumer.taken events
    delays :=
      if stays then
        provider.delays ++ [reader.backoff.delay failures (UInt64.ofNat provider.attempt)]
      else provider.delays }

/-- An attempt whose port does not open. The reason is logged when it is another. -/
def Provider.notOpened (provider : Provider D) (reason : String) (consumer : Consumer) :
    Provider D :=
  let failed := { provider with
    attempt := provider.attempt + 1
    reader := { provider.reader with lastOpenFailure := some reason }
    logged :=
      if provider.reader.lastOpenFailure = some reason then provider.logged
      else provider.logged ++ [Logged.notOpened reason] }
  failed.conclude false [] .notOpened consumer

/-- An attempt whose port opens. A connection on which the first command cannot be written is
over. -/
def Provider.opened (provider : Provider D) (machine : Machine) (consumer : Consumer) :
    Provider D :=
  let attempted := { provider with attempt := provider.attempt + 1 }
  let connection := Connection.begin provider.reader.start machine provider.reader.decoder
  if connection.pump.finished then attempted.conclude false [] .ended consumer
  else { attempted with standing := .reading connection }

/-- One turn of a connection. -/
def Provider.pump (provider : Provider D) (connection : Connection D) (read : PortRead)
    (elapsed : Nat) (consumer : Consumer) : Provider D :=
  let turn := provider.reader.turn connection read elapsed
  let after := { provider with reader := turn.reader, logged := provider.logged ++ turn.logged }
  match turn.ended with
  | some cause => after.conclude turn.connection.pump.announced turn.events cause consumer
  | none =>
      { after with
        sent := provider.sent ++ consumer.taken turn.events
        standing :=
          if consumer.takesAll turn.events then .reading turn.connection else .stopped }

/-- One step of `run`. -/
def Provider.step (provider : Provider D) (event : ProviderEvent) : Provider D :=
  match provider.standing, event with
  | .waiting, .notOpened reason consumer => provider.notOpened reason consumer
  | .waiting, .opened machine consumer => provider.opened machine consumer
  | .reading connection, .read read elapsed consumer =>
      if read = .interrupted then provider
      else provider.pump connection read elapsed consumer
  | _, _ => provider

end Splitforge.Thingmagic
