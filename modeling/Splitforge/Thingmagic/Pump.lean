import Splitforge.Library.Runs
import Splitforge.Thingmagic.Reassembly
import Splitforge.Thingmagic.Start

/-!
# Reading one connection

The provider reads a connection turn by turn. Every frame that a turn completes goes to the start
sequence when that claims it, and to the decoder otherwise, and at the end of the turn the provider
looks at how far the sequence has come. Reports are taken by a consumer that listens, and what the
decoder makes of its frames is left out.
-/

namespace Splitforge.Thingmagic

open Splitforge.Domain Splitforge.Library

/-- What one read of the port gives. -/
inductive PortRead where
  | bytes (chunk : List UInt8)
  | closed
  | timedOut
  | interrupted
  | failed
deriving DecidableEq

/-- The port and the clock of a connection: which writes go through, and what each look at the
monotonic clock shows. -/
structure Surroundings where
  accepts : Nat → Bool
  clock : Nat → Nat

/-- A connection being read: the start sequence and what its last step produced, whether every
write of the turn went through, the power report of the turn, whether the connection has been
announced, and whether it is over. -/
structure Pump where
  reassembler : Reassembler
  starting : Starting
  progress : Progress
  written : Bool
  power : Option PowerReport
  announced : Bool
  finished : Bool
  looks : Nat
  port : PortLog

variable (surroundings : Surroundings)

/-- What comes of a step of the sequence that writes. -/
def Pump.settle (pump : Pump) (outcome : Option Progress × Starting × PortLog) : Pump :=
  { pump with
    progress := outcome.1.getD pump.progress
    written := pump.written && outcome.1.isSome
    starting := outcome.2.1
    port := outcome.2.2
    looks := pump.looks + 1 }

/-- The frame handler of `pump`: the answer the sequence is waiting for goes to it, and everything
else to the decoder. -/
def Pump.hear (pump : Pump) (response : Response) : Pump :=
  let heard := { pump with port := { pump.port with log := pump.port.log ++ [.heard response] } }
  if pump.starting.claims response then
    let answered := heard.settle
      (pump.starting.answer surroundings.accepts response heard.port
        (surroundings.clock pump.looks))
    let (report, starting) := answered.starting.takePowerReport
    { answered with starting, power := report.or answered.power }
  else heard

/-- The frames a read completes, and the reassembler behind them. Nothing more can arrive on a
connection that has ended, or soon on one that is quiet, so those settle what is held. -/
def PortRead.frames (read : PortRead) (reassembler : Reassembler) : Reassembler × List Response :=
  match read with
  | .bytes chunk => reassembler.feed chunk
  | .closed => reassembler.flush
  | .timedOut => reassembler.flush
  | .interrupted => (reassembler, [])
  | .failed => reassembler.flush

/-- Whether a read ends the connection. -/
def PortRead.ends : PortRead → Bool
  | .closed => true
  | .failed => true
  | _ => false

/-- The state a turn hears its frames in. -/
def Pump.opened (pump : Pump) (read : PortRead) : Pump :=
  { pump with reassembler := (read.frames pump.reassembler).1, written := true }

/-- The deadline for the answer being waited on, checked on every turn. -/
def Pump.checkDeadline (pump : Pump) (ended : Bool) : Pump :=
  if ended = false ∧ pump.written = true ∧ pump.progress = .waiting then
    pump.settle (pump.starting.tick surroundings.accepts pump.port (surroundings.clock pump.looks))
  else pump

/-- Why a connection is over, if it is. -/
def Pump.cause (pump : Pump) (ended : Bool) : Option Disconnection :=
  match pump.progress with
  | .refused _ => some .notStarted
  | _ => if ended ∨ pump.written = false then some .ended else none

/-- What the end of a turn reports. -/
def Pump.report (pump : Pump) (ended : Bool) : Pump :=
  let announces := pump.announced = false ∧ pump.progress = .started
  let announced := pump.announced || decide (pump.progress = .started)
  let events :=
    (if announces then [.connected] else []) ++
      (pump.power.map PortEvent.transmitPower).toList ++
      ((pump.cause ended).map (PortEvent.ended announced)).toList
  { pump with
    announced
    power := none
    finished := (pump.cause ended).isSome
    port := { pump.port with log := pump.port.log ++ events } }

/-- One turn of the loop of `pump`. -/
def Pump.turn (pump : Pump) (read : PortRead) : Pump :=
  if pump.finished = true ∨ read = .interrupted then pump
  else
    let heard := run (Pump.hear surroundings) (pump.opened read)
      (read.frames pump.reassembler).2
    (heard.checkDeadline surroundings read.ends).report read.ends

/-- The start of `pump`: a connection on which the first command has been sent, or could not be. -/
def Pump.begin (sequence : List Step) : Pump :=
  let starting := Starting.new sequence
  let outcome := starting.send surroundings.accepts ⟨0, []⟩ (surroundings.clock 0)
  let begun : Pump :=
    { reassembler := .new, starting := outcome.2.1, progress := outcome.1.getD .waiting
      written := true, power := none, announced := false, finished := outcome.1.isNone, looks := 1
      port := outcome.2.2 }
  if outcome.1.isSome then begun
  else { begun with port := { begun.port with log := begun.port.log ++ [.ended false .ended] } }

end Splitforge.Thingmagic
