import Splitforge.Domain.Read
import Splitforge.Library.Hex
import Splitforge.Library.Walk
import Splitforge.Thingmagic.Frame

/-!
# Tag reports

A streaming response becomes a read, or nothing, or a counted fault. What sort of response it is
comes first. A tag's metadata is walked field by field in the order of its flags, the EPC record
stands behind it, and nothing may be left over.
-/

namespace Splitforge.Thingmagic

open Splitforge.Domain Splitforge.Library

/-! ## The layout -/

namespace Flag

/-- Number of times the tag was seen. -/
def readcount : UInt16 := 0x0001
/-- Receive signal strength. -/
def rssi : UInt16 := 0x0002
/-- A packed transmit and receive nibble pair. -/
def antennaid : UInt16 := 0x0004
/-- Carrier frequency. -/
def frequency : UInt16 := 0x0008
/-- Milliseconds since the read command was issued. -/
def timestamp : UInt16 := 0x0010
/-- Gen2 phase angle. -/
def phase : UInt16 := 0x0020
/-- Air protocol. -/
def protocol : UInt16 := 0x0040
/-- Embedded read data. -/
def data : UInt16 := 0x0080
/-- One bit for each GPIO pin. -/
def gpioStatus : UInt16 := 0x0100

/-- Everything the decoder can walk. -/
def decodable : UInt16 :=
  readcount ||| rssi ||| antennaid ||| frequency ||| timestamp ||| phase ||| protocol ||| data |||
    gpioStatus

end Flag

namespace Offset

/-- The option byte. -/
def option : Nat := 0
/-- The metadata flags word. -/
def flags : Nat := 3
/-- The response-type byte. -/
def responseType : Nat := 5
/-- Where the flagged metadata begins. -/
def metadata : Nat := 6

end Offset

/-- `OpCode::ReadTagIdMultiple`, as its wire byte. -/
def readTagIdMultiple : UInt8 := 0x22

/-- The status of the frame at the end of every search cycle. -/
def noTagsFound : UInt16 := 0x0400

/-- What a streaming response turned out to be. -/
inductive StreamResponse where
  | tag
  | status
  | «end»
  | endOfCycle
deriving DecidableEq

/-- Why a tag report could not be decoded. -/
inductive ReportError where
  | notAReadResponse (opcode : UInt8)
  | unsuccessfulStatus (status : UInt16)
  | truncated (field : String) (wanted available : Nat)
  | unknownFlags (flags unknown : UInt16)
  | unknownLayout (option : UInt8)
  | unknownResponseType (kind : UInt8)
  | trailingBytes (leftover : Nat)
deriving DecidableEq

/-! ## The cursor -/

namespace Cursor

/-- `take`: the next bytes of the payload. A cursor is what is left of it. -/
def take (wanted : Nat) (field : String) : Walk ReportError UInt8 (List UInt8) := fun left =>
  if wanted ≤ left.length then .ok (left.take wanted, left.drop wanted)
  else .error (.truncated field wanted left.length)

/-- `u8`. -/
def u8 (field : String) : Walk ReportError UInt8 UInt8 := do
  let bytes ← take 1 field
  return byteAt bytes 0

/-- `u16`, big-endian. -/
def u16 (field : String) : Walk ReportError UInt8 UInt16 := do
  let bytes ← take 2 field
  return beU16 (byteAt bytes 0) (byteAt bytes 1)

/-- `u24`, big-endian. -/
def u24 (field : String) : Walk ReportError UInt8 UInt32 := do
  let bytes ← take 3 field
  return ((byteAt bytes 0).toUInt32 <<< 16) ||| ((byteAt bytes 1).toUInt32 <<< 8) |||
    (byteAt bytes 2).toUInt32

/-- A `u32` of four bytes, big-endian. -/
def beU32 (first second third fourth : UInt8) : UInt32 :=
  (first.toUInt32 <<< 24) ||| (second.toUInt32 <<< 16) ||| (third.toUInt32 <<< 8) |||
    fourth.toUInt32

/-- `u32`, big-endian. -/
def u32 (field : String) : Walk ReportError UInt8 UInt32 := do
  let bytes ← take 4 field
  return beU32 (byteAt bytes 0) (byteAt bytes 1) (byteAt bytes 2) (byteAt bytes 3)

/-- How many bytes some bits take. -/
def bytesOfBits (bits : UInt16) : Nat :=
  (bits.toNat + 7) / 8

/-- `bit_counted`: a field whose length arrives as a number of bits. -/
def bitCounted (field : String) : Walk ReportError UInt8 (List UInt8) := do
  let bits ← u16 field
  take (bytesOfBits bits) field

end Cursor

/-! ## The decoder -/

/-- What a reader said about the time. -/
inductive ReaderTimestamp where
  | utc («at» : OffsetDateTime)
  | uptime (micros : UInt64)
  | absent
deriving DecidableEq

/-- What a reader adapter makes of one read. -/
structure ReaderMessage where
  source : ReaderId
  antenna : Option UInt16
  chip : ChipId
  timestamp : ReaderTimestamp
  rssiDbm : Option Int16
  rawPayload : List UInt8
deriving DecidableEq

/-- What the metadata of a report says. -/
structure Metadata where
  rssiDbm : Option Int16
  antenna : Option UInt16
  timestampMs : Option UInt32
  protocol : Option UInt8

/-- `logical_antenna`: the port a packed byte names, when transmit and receive are one port. -/
def logicalAntenna (byte : UInt8) : Option UInt16 :=
  let tx := (byte >>> 4) &&& 0x0F
  let rx := byte &&& 0x0F
  let unwrap := fun (nibble : UInt8) => if nibble = 0 then 16 else nibble.toUInt16
  if tx = rx then some (unwrap rx) else none

/-- `TMR_TAG_PROTOCOL_GEN2`. -/
def gen2 : UInt8 := 5

/-- `chip_id`: the identifier an EPC record carries. -/
def chipId (record : List UInt8) (protocol : Option UInt8) : ChipId :=
  let epc := if protocol = some gen2 ∧ 4 ≤ record.length then slice record 2 (record.length - 2)
    else record
  ⟨String.ofList (Hex.encodeUpper epc)⟩

/-- `reader_timestamp`: milliseconds since the command, as an uptime. -/
def readerTimestamp (sinceCommandMs : Option UInt32) : ReaderTimestamp :=
  sinceCommandMs.elim .absent fun ms => .uptime (ms.toUInt64 * 1000)

/-- `classify`: the sort of a streaming response, before any of its metadata is read. -/
def classify (response : Response) : Except ReportError StreamResponse :=
  if response.opcode ≠ readTagIdMultiple then .error (.notAReadResponse response.opcode)
  else if response.status = noTagsFound ∧ response.data = [] then .ok .endOfCycle
  else if response.status ≠ 0 then .error (.unsuccessfulStatus response.status)
  else match response.data[Offset.option]? with
    | none => .error (.truncated "the option byte" 1 response.data.length)
    | some option =>
        if option &&& 0x10 ≠ 0x10 then .error (.unknownLayout option)
        else match response.data[Offset.responseType]? with
          | none => .error (.truncated "the response-type byte" 1 response.data.length)
          | some kind =>
              if kind = 0x00 then .ok .«end»
              else if kind = 0x01 then .ok .tag
              else if kind = 0x02 then .ok .status
              else .error (.unknownResponseType kind)

/-- Whether a flag is set. -/
def isSet (flags bit : UInt16) : Bool :=
  flags &&& bit ≠ 0

/-- A field that is walked when its flag is set. -/
def flagged {Value : Type} (flags bit : UInt16) (walk : Walk ReportError UInt8 Value) :
    Walk ReportError UInt8 (Option Value) :=
  if isSet flags bit then some <$> walk else pure none

/-- The walk of `read_tag`: the flagged fields in the order of their bits, then the EPC record. -/
def walkFields (flags : UInt16) : Walk ReportError UInt8 (Metadata × List UInt8) := do
  let _ ← flagged flags Flag.readcount (Cursor.u8 "the read count")
  -- signed, and read as an `i8` before it is widened
  let rssiDbm ← flagged flags Flag.rssi (Cursor.u8 "the RSSI")
  let antenna ← flagged flags Flag.antennaid (Cursor.u8 "the antenna byte")
  let _ ← flagged flags Flag.frequency (Cursor.u24 "the frequency")
  let timestampMs ← flagged flags Flag.timestamp (Cursor.u32 "the timestamp")
  let _ ← flagged flags Flag.phase (Cursor.u16 "the phase")
  let protocol ← flagged flags Flag.protocol (Cursor.u8 "the protocol")
  let _ ← flagged flags Flag.data (Cursor.bitCounted "the embedded data")
  let _ ← flagged flags Flag.gpioStatus (Cursor.u8 "the GPIO status")
  let record ← Cursor.bitCounted "the EPC"
  return (⟨rssiDbm.map fun byte => byte.toInt8.toInt16, antenna.bind logicalAntenna, timestampMs,
    protocol⟩, record)

/-- `read_tag`: the read a tag's payload carries. -/
def readTag (readerId : ReaderId) (data : List UInt8) : Except ReportError ReaderMessage := do
  let (flags, _) ← (Cursor.u16 "the metadata flags").run (data.drop Offset.flags)
  let unknown := flags &&& ~~~Flag.decodable
  if unknown ≠ 0 then .error (.unknownFlags flags unknown)
  else
    let ((metadata, record), left) ← (walkFields flags).run (data.drop Offset.metadata)
    -- a field read too narrow leaves bytes over
    if left.length ≠ 0 then .error (.trailingBytes left.length)
    else
      .ok {
        source := readerId
        antenna := metadata.antenna
        chip := chipId record metadata.protocol
        timestamp := readerTimestamp metadata.timestampMs
        rssiDbm := metadata.rssiDbm
        rawPayload := data }

/-- `u64::saturating_add(1)`. -/
def nextCount (count : UInt64) : UInt64 :=
  if count.toNat < 2 ^ 64 - 1 then count + 1 else count

/-- `StreamDecoder`: the reader that reads are stamped with, and what was counted. -/
structure StreamDecoder where
  readerId : ReaderId
  frames : UInt64
  reads : UInt64
  errors : UInt64
  cycles : UInt64
  heard : UInt64
  reported : Bool
deriving DecidableEq

/-- `StreamDecoder::new`. -/
def StreamDecoder.new (readerId : ReaderId) : StreamDecoder :=
  ⟨readerId, 0, 0, 0, 0, 0, false⟩

/-- Counts a fault. The first is reported. -/
def StreamDecoder.refuse (decoder : StreamDecoder) : StreamDecoder :=
  { decoder with errors := nextCount decoder.errors, reported := true }

/-- `decode`: one verified frame, with the reads decoded so far. -/
def StreamDecoder.decode (decoder : StreamDecoder) (response : Response)
    (out : List ReaderMessage) : StreamDecoder × List ReaderMessage :=
  let decoder := { decoder with frames := nextCount decoder.frames }
  match classify response with
  | .error _ => (decoder.refuse, out)
  | .ok .status => ({ decoder with heard := nextCount decoder.heard }, out)
  | .ok .«end» => ({ decoder with heard := nextCount decoder.heard }, out)
  | .ok .endOfCycle =>
      ({ decoder with
          cycles := nextCount decoder.cycles
          heard := nextCount decoder.heard }, out)
  | .ok .tag =>
      match readTag decoder.readerId response.data with
      | .error _ => (decoder.refuse, out)
      | .ok message => ({ decoder with reads := nextCount decoder.reads }, out ++ [message])

/-- The captured frame decodes to the read the module reported. -/
example : (readTag ⟨"mat"⟩ (slice capturedFrame 5 45)).toOption.map
    (fun read => (read.antenna, read.rssiDbm, read.timestamp)) =
      some (some 1, some (-60), .uptime 295000) := by decide +kernel

end Splitforge.Thingmagic
