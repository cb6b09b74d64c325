import Splitforge.Domain.Gap
import Splitforge.Thingmagic.Frame

/-!
# Telling the module to start reading

The commands a connection sends before it streams, and the sequence that sends each of them when
the one before it has been answered. An answer is known by its opcode, and one to a tag operation
also by the option it echoes.
-/

namespace Splitforge.Thingmagic

/-! ## Commands -/

/-- The opcodes of the commands that are sent. -/
inductive OpCode where
  | version
  | multiProtocolTagOp
  | getReadTxPower
  | setReadTxPower
  | setTagProtocol
  | setRegion
  | setReaderOptionalParams
deriving DecidableEq

/-- The wire byte. -/
def OpCode.toByte : OpCode → UInt8
  | .version => 0x03
  | .multiProtocolTagOp => 0x2F
  | .getReadTxPower => 0x62
  | .setReadTxPower => 0x92
  | .setTagProtocol => 0x93
  | .setRegion => 0x97
  | .setReaderOptionalParams => 0x9A

/-- The most data any command carries. -/
def maxCommandBody : Nat := 16

/-- A command, ready to encode: an opcode and the bytes after it. -/
structure Command where
  opcode : OpCode
  body : List UInt8
  short : body.length ≤ maxCommandBody
deriving DecidableEq

/-- `Command::encode`. A frame holds every command, so encoding one does not fail. -/
def Command.encode (command : Command) : List UInt8 :=
  let covered := UInt8.ofNat command.body.length :: command.opcode.toByte :: command.body
  soh :: (covered ++ [highByte (crc16 covered), lowByte (crc16 covered)])

/-- A regulatory region. -/
inductive Region where
  | na | eu | kr | «in» | jp | prc | eu2 | eu3 | kr2 | prc2 | au | nz | na2 | na3 | is | my | id
  | ph | tw | mo | ru | sg | jp2 | jp3 | vn | th | ar | hk | bd | eu4
deriving DecidableEq

/-- The wire byte of a region, counted from one. -/
def Region.toByte (region : Region) : UInt8 := UInt8.ofNat (region.ctorIdx + 1)

/-- A read transmit power, in hundredths of a dBm. -/
structure ReadPower where
  centiDbm : Int16
  nonneg : 0 ≤ centiDbm
deriving DecidableEq

/-- `START_STREAMING_BODY`. -/
def startStreamingBody : List UInt8 := [
  0x00, 0x00, 0x01, 0x22, 0x00, 0x00, 0x05, 0x07, 0x22, 0x10, 0x00, 0x1B, 0x03, 0xE8, 0x01, 0xFF]

/-- Stop a continuous read, if one is running. -/
def Command.stopStreaming : Command := ⟨.multiProtocolTagOp, [0x00, 0x00, 0x02], by decide⟩

/-- Ask for the firmware version. -/
def Command.version : Command := ⟨.version, [], by decide⟩

/-- Select Gen2 as the tag protocol. -/
def Command.gen2Protocol : Command := ⟨.setTagProtocol, [0x00, 0x05], by decide⟩

/-- Set the regulatory region. -/
def Command.region (region : Region) : Command :=
  ⟨.setRegion, [region.toByte], Nat.le_add_left 1 15⟩

/-- Set the read transmit power. -/
def Command.readPower (power : ReadPower) : Command :=
  ⟨.setReadTxPower, [highByte power.centiDbm.toUInt16, lowByte power.centiDbm.toUInt16],
    Nat.le_add_left 2 14⟩

/-- Ask for the read power in force and the range the module accepts. -/
def Command.readPowerWithLimits : Command := ⟨.getReadTxPower, [0x01], by decide⟩

/-- Turn the module's read filter off. -/
def Command.readFilterOff : Command :=
  ⟨.setReaderOptionalParams, [0x01, 0x0C, 0x00], by decide⟩

/-- Start streaming. -/
def Command.startStreaming : Command := ⟨.multiProtocolTagOp, startStreamingBody, by decide⟩

/-- What the module says about its read power. -/
structure PowerReport where
  centiDbm : Int16
  maxCentiDbm : Int16
  minCentiDbm : Int16
deriving DecidableEq

/-- `PowerReport::from_answer`: the option echoed, then three signed 16-bit numbers. -/
def PowerReport.fromAnswer : List UInt8 → Option PowerReport
  | option :: setHigh :: setLow :: maxHigh :: maxLow :: minHigh :: minLow :: _ =>
      if option = 0x01 then
        some ⟨(beU16 setHigh setLow).toInt16, (beU16 maxHigh maxLow).toInt16,
          (beU16 minHigh minLow).toInt16⟩
      else none
  | _ => none

/-! ## The sequence -/

/-- `Response::is_ok`. -/
def Response.isOk (response : Response) : Bool := response.status = 0

/-- `ANSWER_TIMEOUT`, two seconds, in nanoseconds. -/
def answerTimeout : Nat := 2000000000

/-- One command, and whether its answer has to report success. -/
structure Step where
  command : Command
  mustSucceed : Bool
deriving DecidableEq

/-- `StartSequence::gen2`: the Gen2 streaming start. -/
def StartSequence.gen2 (region : Region) (power : ReadPower) : List Step := [
  ⟨.stopStreaming, false⟩,
  ⟨.version, true⟩,
  ⟨.gen2Protocol, true⟩,
  ⟨.region region, true⟩,
  ⟨.readPower power, true⟩,
  ⟨.readPowerWithLimits, false⟩,
  ⟨.readFilterOff, true⟩,
  ⟨.startStreaming, true⟩]

/-- Why a connection did not start streaming. -/
inductive Refusal where
  | status (command : OpCode) (status : UInt16)
  | noAnswer (command : OpCode)
deriving DecidableEq

/-- What a step of the sequence produced. -/
inductive Progress where
  | waiting
  | started
  | refused (refusal : Refusal)
deriving DecidableEq

/-- A start sequence in progress on one connection. Times of the monotonic clock are in
nanoseconds. -/
structure Starting where
  steps : List Step
  next : Nat
  deadline : Option Nat
  power : Option PowerReport
deriving DecidableEq

/-- `Starting::new`. -/
def Starting.new (sequence : List Step) : Starting := ⟨sequence, 0, none, none⟩

/-- What happens on a connection: a command is written, a verified frame is heard, and the
provider reports. A command is known by its place in the sequence. -/
inductive PortEvent where
  | wrote (place : Nat)
  | heard (response : Response)
  | connected
  | transmitPower (report : PowerReport)
  | ended (established : Bool) (cause : Domain.Disconnection)
deriving DecidableEq

/-- The port, as the sequence writes to it: how many writes have been attempted, and what has
happened on the connection so far. -/
structure PortLog where
  attempts : Nat
  log : List PortEvent
deriving DecidableEq

/-- The command whose answer is awaited. -/
def Starting.awaited (starting : Starting) : Option Step :=
  if starting.deadline.isSome then starting.steps[starting.next]? else none

/-- `Starting::claims`: whether a response is the answer this sequence is waiting for. -/
def Starting.claims (starting : Starting) (response : Response) : Bool :=
  match starting.awaited with
  | none => false
  | some step =>
      if response.opcode ≠ step.command.opcode.toByte then false
      else if step.command.opcode = .multiProtocolTagOp then
        response.data.head? = step.command.body[2]?
      else true

section Writing

-- which writes to the port go through, in the order they are attempted
variable (accepts : Nat → Bool)

/-- `Starting::send`: writes the next command, or says that none is left. The outcome is none when
the write fails. -/
def Starting.send (starting : Starting) (port : PortLog) (now : Nat) :
    Option Progress × Starting × PortLog :=
  if starting.next < starting.steps.length then
    let attempted := { port with attempts := port.attempts + 1 }
    if accepts port.attempts then
      (some .waiting, { starting with deadline := some (now + answerTimeout) },
        { attempted with log := port.log ++ [.wrote starting.next] })
    else (none, starting, attempted)
  else (some .started, { starting with deadline := none }, port)

/-- `Starting::answer`: takes an answer that was claimed, and sends the next command. -/
def Starting.answer (starting : Starting) (response : Response) (port : PortLog) (now : Nat) :
    Option Progress × Starting × PortLog :=
  match starting.awaited with
  | none => (some .waiting, starting, port)
  | some step =>
      if step.mustSucceed ∧ ¬ response.isOk then
        (some (.refused (.status step.command.opcode response.status)), starting, port)
      else
        let power :=
          if step.command = .readPowerWithLimits ∧ response.isOk then
            PowerReport.fromAnswer response.data
          else starting.power
        { starting with power, next := starting.next + 1 }.send accepts port now

/-- `Starting::settled`. -/
def Starting.settled (starting : Starting) : Progress :=
  if starting.steps.length ≤ starting.next then .started else .waiting

/-- `Starting::tick`: checks the time, and passes over a command whose answer is not needed. -/
def Starting.tick (starting : Starting) (port : PortLog) (now : Nat) :
    Option Progress × Starting × PortLog :=
  match starting.awaited, starting.deadline with
  | some step, some deadline =>
      if now < deadline then (some .waiting, starting, port)
      else if step.mustSucceed then
        (some (.refused (.noAnswer step.command.opcode)), starting, port)
      else { starting with next := starting.next + 1 }.send accepts port now
  | _, _ => (some starting.settled, starting, port)

/-- `Starting::take_power_report`: what the module reported, once. -/
def Starting.takePowerReport (starting : Starting) : Option PowerReport × Starting :=
  (starting.power, { starting with power := none })

end Writing

end Splitforge.Thingmagic
