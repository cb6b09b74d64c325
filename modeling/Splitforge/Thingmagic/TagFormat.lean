import Splitforge.Library.Runs
import Splitforge.Thingmagic.TagReport

/-!
# The format of tag reports

A tag report is a header with a layout and flags, the flagged fields in the order of their bits,
and one EPC record. The decoder makes a read of exactly the responses that are tag reports, and the
read says what the fields say. `decode_exact` is the theorem.
-/

namespace Splitforge.Thingmagic

open Splitforge.Domain Splitforge.Library

/-! ## Fields -/

/-- Some bytes behind a number of bits they take. -/
structure BitCounted where
  high : UInt8
  low : UInt8
  bytes : List UInt8
  counted : bytes.length = Cursor.bytesOfBits (beU16 high low)

/-- The number of bits, then the bytes. -/
def BitCounted.data (field : BitCounted) : List UInt8 :=
  field.high :: field.low :: field.bytes

/-- A field that is there exactly when its flag is set. -/
def Flagged (flags bit : UInt16) (Raw : Type) : Type :=
  { field : Option Raw // field.isSome = isSet flags bit }

/-- The bytes of a flagged field. -/
def Flagged.data {flags bit : UInt16} {Raw : Type} (data : Raw → List UInt8)
    (field : Flagged flags bit Raw) : List UInt8 :=
  field.1.elim [] data

/-- The flagged fields of a report, in the order of their bits, and its EPC record. -/
structure Fields (flags : UInt16) where
  readCount : Flagged flags Flag.readcount UInt8
  rssi : Flagged flags Flag.rssi UInt8
  antenna : Flagged flags Flag.antennaid UInt8
  frequency : Flagged flags Flag.frequency (UInt8 × UInt8 × UInt8)
  timestamp : Flagged flags Flag.timestamp (UInt8 × UInt8 × UInt8 × UInt8)
  phase : Flagged flags Flag.phase (UInt8 × UInt8)
  protocol : Flagged flags Flag.protocol UInt8
  embedded : Flagged flags Flag.data BitCounted
  gpioStatus : Flagged flags Flag.gpioStatus UInt8
  epc : BitCounted

/-- One byte. -/
def oneByte (byte : UInt8) : List UInt8 := [byte]

/-- Two bytes. -/
def twoBytes (bytes : UInt8 × UInt8) : List UInt8 := [bytes.1, bytes.2]

/-- Three bytes. -/
def threeBytes (bytes : UInt8 × UInt8 × UInt8) : List UInt8 := bytes.1 :: twoBytes bytes.2

/-- Four bytes. -/
def fourBytes (bytes : UInt8 × UInt8 × UInt8 × UInt8) : List UInt8 := bytes.1 :: threeBytes bytes.2

/-- The bytes behind the header of a report. -/
def Fields.data {flags : UInt16} (fields : Fields flags) : List UInt8 :=
  fields.readCount.data oneByte ++ (fields.rssi.data oneByte ++ (fields.antenna.data oneByte ++
    (fields.frequency.data threeBytes ++ (fields.timestamp.data fourBytes ++
      (fields.phase.data twoBytes ++ (fields.protocol.data oneByte ++
        (fields.embedded.data BitCounted.data ++ (fields.gpioStatus.data oneByte ++
          fields.epc.data))))))))

/-! ## What the cursor reads -/

open Walk (Reads written)

theorem reads_take (wanted : Nat) (field : String) :
    Reads (Cursor.take wanted field) fun value bytes => value = bytes ∧ bytes.length = wanted := by
  intro input value rest
  show (if wanted ≤ input.length then Except.ok (input.take wanted, input.drop wanted)
    else Except.error (ReportError.truncated field wanted input.length)) = _ ↔ _
  constructor
  · intro hrun
    split_ifs at hrun with hle
    cases hrun
    exact ⟨_, ⟨rfl, List.length_take_of_le hle⟩, (List.take_append_drop wanted input).symm⟩
  · intro hbytes
    obtain ⟨bytes, ⟨rfl, hlength⟩, rfl⟩ := hbytes
    have hle : wanted ≤ (value ++ rest).length := by
      rw [List.length_append]
      omega
    rw [if_pos hle, ← hlength, List.take_left, List.drop_left]

/-- A number of bytes is read from raw bytes of that number. -/
theorem reads_bytes {Raw Value : Type} (wanted : Nat) (field : String) (data : Raw → List UInt8)
    (hdata : ∀ bytes : List UInt8, bytes.length = wanted ↔ ∃ raw, bytes = data raw)
    (value : List UInt8 → Value) :
    Reads (Cursor.take wanted field >>= fun bytes => pure (value bytes))
      (written data fun raw => value (data raw)) := by
  have htake : Reads (Cursor.take wanted field) (written data data) := by
    refine (reads_take wanted field).congr fun read bytes => ?_
    constructor
    · intro hbytes
      obtain ⟨rfl, hlength⟩ := hbytes
      obtain ⟨raw, rfl⟩ := (hdata _).mp hlength
      exact ⟨raw, rfl, rfl⟩
    · intro hbytes
      obtain ⟨raw, rfl, rfl⟩ := hbytes
      exact ⟨rfl, (hdata _).mpr ⟨raw, rfl⟩⟩
  exact htake.finished value

theorem reads_u8 (field : String) : Reads (Cursor.u8 field) (written oneByte id) := by
  refine reads_bytes 1 field oneByte ?_ fun bytes => byteAt bytes 0
  intro bytes
  rw [List.length_eq_one_iff]
  rfl

theorem reads_u16 (field : String) :
    Reads (Cursor.u16 field) (written twoBytes fun bytes => beU16 bytes.1 bytes.2) := by
  refine reads_bytes 2 field twoBytes ?_ fun bytes => beU16 (byteAt bytes 0) (byteAt bytes 1)
  intro bytes
  rw [List.length_eq_two]
  exact ⟨fun ⟨first, second, h⟩ => ⟨(first, second), h⟩, fun ⟨raw, h⟩ => ⟨raw.1, raw.2, h⟩⟩

theorem reads_u24 (field : String) : Reads (Cursor.u24 field) (written threeBytes fun bytes =>
    (bytes.1.toUInt32 <<< 16) ||| (bytes.2.1.toUInt32 <<< 8) ||| bytes.2.2.toUInt32) := by
  refine reads_bytes 3 field threeBytes ?_ fun bytes => ((byteAt bytes 0).toUInt32 <<< 16) |||
    ((byteAt bytes 1).toUInt32 <<< 8) ||| (byteAt bytes 2).toUInt32
  intro bytes
  rw [List.length_eq_three]
  exact ⟨fun ⟨first, second, third, h⟩ => ⟨(first, second, third), h⟩,
    fun ⟨raw, h⟩ => ⟨raw.1, raw.2.1, raw.2.2, h⟩⟩

theorem reads_u32 (field : String) : Reads (Cursor.u32 field) (written fourBytes fun bytes =>
    Cursor.beU32 bytes.1 bytes.2.1 bytes.2.2.1 bytes.2.2.2) := by
  refine reads_bytes 4 field fourBytes ?_ fun bytes =>
    Cursor.beU32 (byteAt bytes 0) (byteAt bytes 1) (byteAt bytes 2) (byteAt bytes 3)
  intro bytes
  constructor
  · intro hlength
    match bytes with
    | [first, second, third, fourth] => exact ⟨(first, second, third, fourth), rfl⟩
  · intro hraw
    obtain ⟨raw, rfl⟩ := hraw
    rfl

/-- The bytes behind a number of bits. -/
theorem reads_bit_counted (field : String) :
    Reads (Cursor.bitCounted field) (written BitCounted.data BitCounted.bytes) := by
  refine ((reads_u16 field).field fun _ => reads_take _ field).congr fun read bytes => ?_
  constructor
  · intro hbytes
    obtain ⟨⟨high, low⟩, _, rfl, rfl, hlength⟩ := hbytes
    exact ⟨⟨high, low, _, hlength⟩, rfl, rfl⟩
  · intro hbytes
    obtain ⟨⟨high, low, _, hcounted⟩, rfl, rfl⟩ := hbytes
    exact ⟨(high, low), _, rfl, rfl, hcounted⟩

/-- A field is walked when its flag is set. -/
theorem reads_flagged {Raw Value : Type} {walk : Walk ReportError UInt8 Value}
    {data : Raw → List UInt8} {value : Raw → Value} (h : Reads walk (written data value))
    (flags bit : UInt16) :
    Reads (flagged flags bit walk)
      (written (Flagged.data data) fun field : Flagged flags bit Raw => field.1.map value) := by
  unfold flagged
  by_cases hset : isSet flags bit = true
  · rw [if_pos hset]
    refine (h.map some).congr fun read bytes => ?_
    constructor
    · intro hbytes
      obtain ⟨raw, rfl, rfl⟩ := hbytes
      exact ⟨⟨some raw, hset.symm⟩, rfl, rfl⟩
    · intro hbytes
      obtain ⟨⟨field, hfield⟩, rfl, rfl⟩ := hbytes
      obtain ⟨raw, rfl⟩ := Option.isSome_iff_exists.mp (hfield.trans hset)
      exact ⟨raw, rfl, rfl⟩
  · rw [if_neg hset]
    refine (Walk.reads_pure none).congr fun read bytes => ?_
    constructor
    · intro hbytes
      obtain ⟨rfl, rfl⟩ := hbytes
      exact ⟨⟨none, (Bool.eq_false_of_not_eq_true hset).symm⟩, rfl, rfl⟩
    · intro hbytes
      obtain ⟨⟨field, hfield⟩, rfl, rfl⟩ := hbytes
      cases field with
      | none => exact ⟨rfl, rfl⟩
      | some raw => exact absurd hfield.symm hset

/-- A single byte is walked when its flag is set. -/
theorem reads_flagged_u8 (field : String) (flags bit : UInt16) :
    Reads (flagged flags bit (Cursor.u8 field))
      (written (Flagged.data oneByte) fun field : Flagged flags bit UInt8 => field.1) := by
  refine (reads_flagged (reads_u8 field) flags bit).congr fun read bytes => ?_
  unfold written
  simp only [Option.map_id_fun, id]

/-- What the walk makes of the fields. -/
def Fields.result {flags : UInt16} (fields : Fields flags) : Metadata × List UInt8 :=
  (⟨fields.rssi.1.map fun byte => byte.toInt8.toInt16, fields.antenna.1.bind logicalAntenna,
    fields.timestamp.1.map fun bytes => Cursor.beU32 bytes.1 bytes.2.1 bytes.2.2.1 bytes.2.2.2,
    fields.protocol.1⟩, fields.epc.bytes)

/-- The walk reads the fields of the flags, one behind the other. -/
theorem reads_fields (flags : UInt16) :
    Reads (walkFields flags) (written Fields.data (Fields.result : Fields flags → _)) := by
  refine Walk.Reads.congr
    ((reads_flagged_u8 _ flags Flag.readcount).field fun _ =>
    (reads_flagged_u8 _ flags Flag.rssi).field fun rssi =>
    (reads_flagged_u8 _ flags Flag.antennaid).field fun antenna =>
    (reads_flagged (reads_u24 _) flags Flag.frequency).field fun _ =>
    (reads_flagged (reads_u32 _) flags Flag.timestamp).field fun timestamp =>
    (reads_flagged (reads_u16 _) flags Flag.phase).field fun _ =>
    (reads_flagged_u8 _ flags Flag.protocol).field fun protocol =>
    (reads_flagged (reads_bit_counted _) flags Flag.data).field fun _ =>
    (reads_flagged_u8 _ flags Flag.gpioStatus).field fun _ =>
    (reads_bit_counted _).finished _) ?_
  intro read bytes
  constructor
  · intro hbytes
    obtain ⟨readCount, _, rfl, rssi, _, rfl, antenna, _, rfl, frequency, _, rfl, timestamp, _, rfl,
      phase, _, rfl, protocol, _, rfl, embedded, _, rfl, gpioStatus, _, rfl, epc, rfl, rfl⟩ :=
        hbytes
    exact ⟨⟨readCount, rssi, antenna, frequency, timestamp, phase, protocol, embedded, gpioStatus,
      epc⟩, rfl, rfl⟩
  · intro hbytes
    obtain ⟨fields, rfl, rfl⟩ := hbytes
    exact ⟨fields.readCount, _, rfl, fields.rssi, _, rfl, fields.antenna, _, rfl, fields.frequency,
      _, rfl, fields.timestamp, _, rfl, fields.phase, _, rfl, fields.protocol, _, rfl,
      fields.embedded, _, rfl, fields.gpioStatus, _, rfl, fields.epc, rfl, rfl⟩

/-! ## Reports -/

/-- A tag report: a layout and flags the decoder knows, two bytes it does not look at, and the
flagged fields. -/
structure TagReport where
  option : UInt8
  second : UInt8
  third : UInt8
  high : UInt8
  low : UInt8
  layout : option &&& 0x10 = 0x10
  decodable : beU16 high low &&& ~~~Flag.decodable = 0
  fields : Fields (beU16 high low)

/-- The payload of a report. Behind the flags stands the response type of a tag. -/
def TagReport.data (report : TagReport) : List UInt8 :=
  [report.option, report.second, report.third, report.high, report.low, 0x01] ++
    report.fields.data

/-- A response whose payload is a tag report. -/
def Carries (response : Response) (report : TagReport) : Prop :=
  response.opcode = readTagIdMultiple ∧ response.status = 0 ∧ response.data = report.data

/-- A byte as a signed number. -/
def signedByte (byte : UInt8) : Int :=
  if byte.toNat < 128 then (byte.toNat : Int) else (byte.toNat : Int) - 256

/-- The port both nibbles of a byte name, 16 for 0. -/
def portOf (byte : UInt8) : Option Nat :=
  if byte.toNat / 16 = byte.toNat % 16 then
    some (if byte.toNat % 16 = 0 then 16 else byte.toNat % 16)
  else none

/-- The number four bytes write, the first the most significant. -/
def numberOf (bytes : UInt8 × UInt8 × UInt8 × UInt8) : Nat :=
  ((bytes.1.toNat * 256 + bytes.2.1.toNat) * 256 + bytes.2.2.1.toNat) * 256 + bytes.2.2.2.toNat

/-- What a read of a report says: the signed strength, the port when both nibbles agree, the
timestamp in microseconds, and the whole payload. -/
structure ReadOf (readerId : ReaderId) (report : TagReport) (message : ReaderMessage) : Prop where
  source : message.source = readerId
  rssi : message.rssiDbm.map Int16.toInt = report.fields.rssi.1.map signedByte
  antenna : message.antenna.map UInt16.toNat = report.fields.antenna.1.bind portOf
  chip : message.chip = chipId report.fields.epc.bytes report.fields.protocol.1
  timestamp : match report.fields.timestamp.1 with
    | some bytes => ∃ micros, message.timestamp = .uptime micros ∧
        micros.toNat = numberOf bytes * 1000
    | none => message.timestamp = .absent
  payload : message.rawPayload = report.data

/-- The read the decoder makes of a report. -/
def TagReport.message (report : TagReport) (readerId : ReaderId) : ReaderMessage where
  source := readerId
  antenna := report.fields.result.1.antenna
  chip := chipId report.fields.epc.bytes report.fields.protocol.1
  timestamp := readerTimestamp report.fields.result.1.timestampMs
  rssiDbm := report.fields.result.1.rssiDbm
  rawPayload := report.data

/-- The strength of a read is the signed byte. -/
theorem signed_byte_eq (byte : UInt8) : byte.toInt8.toInt16.toInt = signedByte byte := by
  rw [Int8.toInt_toInt16]
  show byte.toBitVec.toInt = _
  rw [BitVec.toInt_eq_toNat_cond]
  unfold signedByte
  show (if 2 * byte.toNat < 2 ^ 8 then (byte.toNat : Int) else byte.toNat - (2 ^ 8 : Nat)) = _
  split_ifs <;> omega

/-- The high nibble of a byte. -/
theorem to_nat_high_nibble (byte : UInt8) : ((byte >>> 4) &&& 0x0F).toNat = byte.toNat / 16 := by
  have hlt := byte.toNat_lt
  rw [UInt8.toNat_and, UInt8.toNat_shiftRight]
  show (byte.toNat >>> 4) &&& (2 ^ 4 - 1) = _
  rw [Nat.and_two_pow_sub_one_eq_mod, Nat.shiftRight_eq_div_pow]
  omega

/-- The low nibble of a byte. -/
theorem to_nat_low_nibble (byte : UInt8) : (byte &&& 0x0F).toNat = byte.toNat % 16 := by
  rw [UInt8.toNat_and]
  exact Nat.and_two_pow_sub_one_eq_mod _ 4

/-- The antenna of a read is the port both nibbles name. -/
theorem logical_antenna_eq (byte : UInt8) :
    (logicalAntenna byte).map UInt16.toNat = portOf byte := by
  unfold logicalAntenna portOf
  rw [← to_nat_high_nibble, ← to_nat_low_nibble]
  by_cases hsame : (byte >>> 4) &&& 0x0F = byte &&& 0x0F
  · rw [if_pos hsame, if_pos (congrArg UInt8.toNat hsame), Option.map_some]
    dsimp only
    by_cases hzero : byte &&& 0x0F = 0
    · have hnat : (byte &&& 0x0F).toNat = 0 := congrArg UInt8.toNat hzero
      rw [if_pos hzero, if_pos hnat]
      rfl
    · have hnat : (byte &&& 0x0F).toNat ≠ 0 := fun h => hzero (UInt8.toNat_inj.mp h)
      rw [if_neg hzero, if_neg hnat]
      rfl
  · rw [if_neg hsame, if_neg fun h => hsame (UInt8.toNat_inj.mp h)]
    rfl

/-- A byte shifted into a word. -/
theorem to_nat_shifted (byte : UInt8) {places : UInt32} (h : places.toNat ≤ 24) :
    (byte.toUInt32 <<< places).toNat = byte.toNat * 2 ^ places.toNat := by
  have hlt := byte.toNat_lt
  have hplaces : places.toNat % 32 = places.toNat := Nat.mod_eq_of_lt (by omega)
  have hpow : 2 ^ places.toNat ≤ 2 ^ 24 := Nat.pow_le_pow_right (by omega) h
  rw [UInt32.toNat_shiftLeft, hplaces, Nat.shiftLeft_eq]
  refine Nat.mod_eq_of_lt ?_
  calc byte.toNat * 2 ^ places.toNat ≤ 255 * 2 ^ 24 := Nat.mul_le_mul (by omega) hpow
    _ < 2 ^ 32 := by omega

/-- A number in front of bits it does not reach. -/
theorem lor_eq_add {places high low : Nat} (h : low < 2 ^ places) :
    high * 2 ^ places ||| low = high * 2 ^ places + low := by
  rw [← Nat.shiftLeft_eq, Nat.shiftLeft_add_eq_or_of_lt h]

/-- The timestamp of a read is the number its bytes write. -/
theorem be_u32_eq (bytes : UInt8 × UInt8 × UInt8 × UInt8) :
    (Cursor.beU32 bytes.1 bytes.2.1 bytes.2.2.1 bytes.2.2.2).toNat = numberOf bytes := by
  obtain ⟨first, second, third, fourth⟩ := bytes
  have hsecond := second.toNat_lt
  have hthird := third.toNat_lt
  have hfourth := fourth.toNat_lt
  unfold Cursor.beU32 numberOf
  dsimp only
  rw [UInt32.toNat_or, UInt32.toNat_or, UInt32.toNat_or, to_nat_shifted first (by decide),
    to_nat_shifted second (by decide), to_nat_shifted third (by decide)]
  show first.toNat * 2 ^ 24 ||| second.toNat * 2 ^ 16 ||| third.toNat * 2 ^ 8 ||| fourth.toNat = _
  rw [Nat.or_assoc, Nat.or_assoc, @lor_eq_add 8 third.toNat fourth.toNat (by omega),
    @lor_eq_add 16 second.toNat _ (by omega), @lor_eq_add 24 first.toNat _ (by omega)]
  clear hsecond hthird hfourth
  generalize first.toNat = a, second.toNat = b, third.toNat = c, fourth.toNat = d
  omega

/-- The decoder's read of a report says what the report says. -/
theorem read_of_message (report : TagReport) (readerId : ReaderId) :
    ReadOf readerId report (report.message readerId) where
  source := rfl
  rssi := by
    show (report.fields.rssi.1.map _).map Int16.toInt = _
    rw [Option.map_map]
    exact Option.map_congr fun byte _ => signed_byte_eq byte
  antenna := by
    show (report.fields.antenna.1.bind logicalAntenna).map UInt16.toNat = _
    rw [Option.map_bind]
    exact congrArg _ (funext logical_antenna_eq)
  chip := rfl
  timestamp := by
    show match report.fields.timestamp.1 with
      | some bytes => ∃ micros, readerTimestamp (report.fields.timestamp.1.map _) = .uptime micros ∧
          micros.toNat = numberOf bytes * 1000
      | none => readerTimestamp (report.fields.timestamp.1.map _) = .absent
    cases report.fields.timestamp.1 with
    | none => rfl
    | some bytes =>
        refine ⟨_, rfl, ?_⟩
        dsimp only
        rw [← be_u32_eq bytes, UInt64.toNat_mul, UInt32.toNat_toUInt64]
        have hlt := (Cursor.beU32 bytes.1 bytes.2.1 bytes.2.2.1 bytes.2.2.2).toNat_lt
        show _ * 1000 % 2 ^ 64 = _
        omega
  payload := rfl

/-! ## Decoding -/

/-- A payload with a tag's layout and type starts with a header. -/
theorem header_of_classify {response : Response} (h : classify response = .ok .tag) :
    response.opcode = readTagIdMultiple ∧ response.status = 0 ∧
      ∃ option second third high low rest, option &&& 0x10 = 0x10 ∧
        response.data = [option, second, third, high, low, 0x01] ++ rest := by
  unfold classify at h
  split_ifs at h with hopcode hcycle hstatus
  · cases h
  · refine ⟨not_not.mp hopcode, not_not.mp hstatus, ?_⟩
    match hdata : response.data with
    | [] =>
        rw [hdata] at h
        cases h
    | option :: rest =>
        rw [hdata] at h
        simp only [Offset.option, List.getElem?_cons_zero] at h
        split_ifs at h with hlayout
        match rest with
        | second :: third :: high :: low :: kind :: rest =>
            simp only [Offset.responseType, List.getElem?_cons_succ, List.getElem?_cons_zero] at h
            split_ifs at h with hend htag
            · cases h
            · rw [htag]
              exact ⟨option, second, third, high, low, rest, not_not.mp hlayout, rfl⟩
            · cases h
        | [] => cases h
        | [_] => cases h
        | [_, _] => cases h
        | [_, _, _] => cases h
        | [_, _, _, _] => cases h

/-- A response whose payload starts with such a header is a tag's. -/
theorem classify_of_header {response : Response} {option second third high low : UInt8}
    {rest : List UInt8} (hopcode : response.opcode = readTagIdMultiple)
    (hstatus : response.status = 0) (hlayout : option &&& 0x10 = 0x10)
    (hdata : response.data = [option, second, third, high, low, 0x01] ++ rest) :
    classify response = .ok .tag := by
  have hcycle : ¬ (response.status = noTagsFound ∧ response.data = []) := by
    intro h
    rw [hdata] at h
    cases h.2
  unfold classify
  rw [if_neg (not_not.mpr hopcode), if_neg hcycle, if_neg (not_not.mpr hstatus), hdata]
  simp only [Offset.option, Offset.responseType, List.cons_append, List.getElem?_cons_zero,
    List.getElem?_cons_succ, if_neg (not_not.mpr hlayout)]
  rfl

/-- Behind a header, the payload gives a read exactly when the flags can be walked and the rest is
the fields of the flags. -/
theorem read_tag_iff {readerId : ReaderId} {option second third high low : UInt8}
    {rest : List UInt8} {message : ReaderMessage} :
    readTag readerId ([option, second, third, high, low, 0x01] ++ rest) = .ok message ↔
      beU16 high low &&& ~~~Flag.decodable = 0 ∧
      ∃ fields : Fields (beU16 high low), rest = fields.data ∧
        message = ⟨readerId, fields.result.1.antenna,
          chipId fields.epc.bytes fields.protocol.1, readerTimestamp fields.result.1.timestampMs,
          fields.result.1.rssiDbm, [option, second, third, high, low, 0x01] ++ rest⟩ := by
  have hflags : (Cursor.u16 "the metadata flags").run
      (([option, second, third, high, low, 0x01] ++ rest).drop Offset.flags) =
        .ok (beU16 high low, 0x01 :: rest) :=
    (reads_u16 _ _ _ _).mpr ⟨_, ⟨(high, low), rfl, rfl⟩, rfl⟩
  have hrest : ([option, second, third, high, low, 0x01] ++ rest).drop Offset.metadata = rest := rfl
  unfold readTag
  rw [hflags, hrest]
  show (if _ then _ else _) = _ ↔ _
  by_cases hknown : beU16 high low &&& ~~~Flag.decodable = 0
  · rw [if_neg (not_not.mpr hknown), and_iff_right hknown]
    cases hwalk : (walkFields (beU16 high low)).run rest with
    | error error =>
        refine ⟨fun h => (nomatch h), fun h => ?_⟩
        obtain ⟨fields, hfields, _⟩ := h
        have hrun := (reads_fields _).run_eq_ok_nil.mpr ⟨fields, rfl, hfields⟩
        rw [hwalk] at hrun
        cases hrun
    | ok walked =>
        obtain ⟨⟨metadata, record⟩, left⟩ := walked
        show (if _ then _ else _) = _ ↔ _
        by_cases hleft : left.length = 0
        · rw [if_neg (not_not.mpr hleft)]
          rw [List.length_eq_zero_iff.mp hleft] at hwalk
          obtain ⟨fields, hresult, hfields⟩ := (reads_fields _).run_eq_ok_nil.mp hwalk
          constructor
          · intro h
            cases h
            cases hresult
            exact ⟨fields, hfields, rfl⟩
          · intro h
            obtain ⟨fields', hfields', rfl⟩ := h
            have hrun := (reads_fields _).run_eq_ok_nil.mpr ⟨fields', rfl, hfields'⟩
            rw [hwalk] at hrun
            cases hrun
            rfl
        · rw [if_pos hleft]
          refine ⟨fun h => (nomatch h), fun h => ?_⟩
          obtain ⟨fields, hfields, _⟩ := h
          have hrun := (reads_fields _).run_eq_ok_nil.mpr ⟨fields, rfl, hfields⟩
          rw [hwalk] at hrun
          cases hrun
          exact absurd rfl hleft
  · rw [if_pos hknown]
    exact ⟨fun h => (nomatch h), fun h => absurd h.1 hknown⟩

/-- The decoder takes a payload for a read exactly when the response carries a report, and then the
read is that of the report. -/
theorem read_iff_carries {readerId : ReaderId} {response : Response} {message : ReaderMessage} :
    classify response = .ok .tag ∧ readTag readerId response.data = .ok message ↔
      ∃ report, Carries response report ∧ message = report.message readerId := by
  constructor
  · intro h
    obtain ⟨hclassify, hread⟩ := h
    obtain ⟨hopcode, hstatus, option, second, third, high, low, rest, hlayout, hdata⟩ :=
      header_of_classify hclassify
    rw [hdata] at hread
    obtain ⟨hdecodable, fields, rfl, rfl⟩ := read_tag_iff.mp hread
    exact ⟨⟨option, second, third, high, low, hlayout, hdecodable, fields⟩,
      ⟨hopcode, hstatus, hdata⟩, rfl⟩
  · intro h
    obtain ⟨report, ⟨hopcode, hstatus, hdata⟩, rfl⟩ := h
    refine ⟨classify_of_header hopcode hstatus report.layout hdata, ?_⟩
    rw [hdata]
    exact read_tag_iff.mpr ⟨report.decodable, report.fields, rfl, rfl⟩

/-! ## Counters -/

/-- What a counter that does not saturate comes to. -/
theorem to_nat_next_count {count : UInt64} (h : count.toNat < 2 ^ 64 - 1) :
    (nextCount count).toNat = count.toNat + 1 := by
  rw [nextCount, if_pos h, UInt64.toNat_add]
  show (count.toNat + 1) % 2 ^ 64 = _
  omega

/-- A counter that saturates stays. -/
theorem next_count_of_max {count : UInt64} (h : ¬ count.toNat < 2 ^ 64 - 1) :
    nextCount count = count :=
  if_neg h

/-- Which of the counters of a decoder a frame goes to. -/
inductive Counted (decoder after : StreamDecoder) : Prop where
  | read (reads : after.reads = nextCount decoder.reads) (errors : after.errors = decoder.errors)
      (heard : after.heard = decoder.heard)
  | error (reads : after.reads = decoder.reads) (errors : after.errors = nextCount decoder.errors)
      (heard : after.heard = decoder.heard)
  | heard (reads : after.reads = decoder.reads) (errors : after.errors = decoder.errors)
      (heard : after.heard = nextCount decoder.heard)

/-- What a frame does: it is counted once, and a report appends its read and nothing else does. -/
theorem StreamDecoder.decode_cases (decoder : StreamDecoder) (response : Response)
    (out : List ReaderMessage) :
    (decoder.decode response out).1.frames = nextCount decoder.frames ∧
    Counted decoder (decoder.decode response out).1 ∧
    ((∃ report, Carries response report ∧
        (decoder.decode response out).2 = out ++ [report.message decoder.readerId]) ∨
      (¬ ∃ report, Carries response report) ∧ (decoder.decode response out).2 = out) := by
  -- a report is a tag's response
  have hnone {sort : Except ReportError StreamResponse} (hsort : classify response = sort)
      (htag : sort ≠ .ok .tag) : ¬ ∃ report, Carries response report := by
    intro hreport
    obtain ⟨report, hcarries⟩ := hreport
    have hread := (@read_iff_carries decoder.readerId response _).mpr ⟨report, hcarries, rfl⟩
    exact htag (hsort.symm.trans hread.1)
  unfold StreamDecoder.decode
  cases hclassify : classify response with
  | error error => exact ⟨rfl, .error rfl rfl rfl, Or.inr ⟨hnone hclassify (nomatch ·), rfl⟩⟩
  | ok sort =>
      cases sort with
      | status => exact ⟨rfl, .heard rfl rfl rfl, Or.inr ⟨hnone hclassify (nomatch ·), rfl⟩⟩
      | «end» => exact ⟨rfl, .heard rfl rfl rfl, Or.inr ⟨hnone hclassify (nomatch ·), rfl⟩⟩
      | endOfCycle => exact ⟨rfl, .heard rfl rfl rfl, Or.inr ⟨hnone hclassify (nomatch ·), rfl⟩⟩
      | tag =>
          dsimp only
          cases hread : readTag decoder.readerId response.data with
          | ok message =>
              obtain ⟨report, hcarries, rfl⟩ := read_iff_carries.mp ⟨hclassify, hread⟩
              exact ⟨rfl, .read rfl rfl rfl, Or.inl ⟨report, hcarries, rfl⟩⟩
          | error error =>
              refine ⟨rfl, .error rfl rfl rfl, Or.inr ⟨fun hreport => ?_, rfl⟩⟩
              obtain ⟨report, hcarries⟩ := hreport
              have hok := (@read_iff_carries decoder.readerId response _).mpr
                ⟨report, hcarries, rfl⟩
              rw [hread] at hok
              cases hok.2

/-- One more frame, with the reads decoded so far. -/
def StreamDecoder.hear (state : StreamDecoder × List ReaderMessage) (response : Response) :
    StreamDecoder × List ReaderMessage :=
  state.1.decode response state.2

/-- The counters of a decoder add up. -/
def CountersAgree (decoder : StreamDecoder) : Prop :=
  decoder.frames.toNat = decoder.reads.toNat + decoder.errors.toNat + decoder.heard.toNat

/-- Counters that add up still do after a frame that the count of frames has room for. -/
theorem counters_agree_hear {state : StreamDecoder × List ReaderMessage} {response : Response}
    (h : state.1.frames.toNat < 2 ^ 64 - 1 → CountersAgree state.1)
    (hroom : (StreamDecoder.hear state response).1.frames.toNat < 2 ^ 64 - 1) :
    CountersAgree (StreamDecoder.hear state response).1 := by
  obtain ⟨hframes, hcounted, _⟩ := state.1.decode_cases response state.2
  change (StreamDecoder.hear state response).1.frames = _ at hframes
  change Counted state.1 (StreamDecoder.hear state response).1 at hcounted
  have hbefore : state.1.frames.toNat < 2 ^ 64 - 1 := by
    by_contra hfull
    rw [hframes, next_count_of_max hfull] at hroom
    exact hfull hroom
  have hagree := h hbefore
  unfold CountersAgree at hagree ⊢
  rw [hframes, to_nat_next_count hbefore]
  cases hcounted with
  | read reads errors heard =>
      rw [reads, errors, heard, to_nat_next_count (by omega)]
      omega
  | error reads errors heard =>
      rw [reads, errors, heard, to_nat_next_count (by omega)]
      omega
  | heard reads errors heard =>
      rw [reads, errors, heard, to_nat_next_count (by omega)]
      omega

/-- Decoding is exact on the format: a frame appends one read when it carries a report, and none
otherwise; the read says what the report says; every frame is counted in one counter; and the
counters of a run add up while the count of frames has not saturated. -/
theorem decode_exact (readerId : ReaderId) :
    (∀ (decoder : StreamDecoder) (response : Response) (out : List ReaderMessage),
      (decoder.decode response out).1.frames = nextCount decoder.frames ∧
      Counted decoder (decoder.decode response out).1 ∧
      ((∃ report message, Carries response report ∧ ReadOf decoder.readerId report message ∧
          (decoder.decode response out).2 = out ++ [message]) ∨
        (¬ ∃ report, Carries response report) ∧ (decoder.decode response out).2 = out)) ∧
    ∀ responses : List Response,
      let decoder := (run StreamDecoder.hear (.new readerId, []) responses).1
      decoder.frames.toNat < 2 ^ 64 - 1 → CountersAgree decoder := by
  constructor
  · intro decoder response out
    obtain ⟨hframes, hcounted, hreads⟩ := decoder.decode_cases response out
    refine ⟨hframes, hcounted, hreads.imp_left fun hreport => ?_⟩
    obtain ⟨report, hcarries, hout⟩ := hreport
    exact ⟨report, _, hcarries, read_of_message report _, hout⟩
  · intro responses
    induction responses using List.reverseRecOn with
    | nil => exact fun _ => rfl
    | append_singleton responses response ih =>
        rw [run_append]
        exact counters_agree_hear ih

/-- Frames that cannot be decoded are counted until the counter saturates. -/
theorem run_refused (readerId : ReaderId) {count : Nat} (h : count ≤ 2 ^ 64 - 1) :
    let decoder := (run StreamDecoder.hear (.new readerId, [])
      (List.replicate count ⟨0, 0, []⟩)).1
    decoder.frames.toNat = count ∧ decoder.reads = 0 ∧ decoder.errors.toNat = count ∧
      decoder.heard = 0 := by
  induction count with
  | zero => exact ⟨rfl, rfl, rfl, rfl⟩
  | succ count ih =>
      obtain ⟨hframes, hreads, herrors, hheard⟩ := ih (by omega)
      rw [List.replicate_succ', run_append]
      generalize run StreamDecoder.hear (.new readerId, []) (List.replicate count ⟨0, 0, []⟩) =
        state at hframes hreads herrors hheard ⊢
      show (nextCount state.1.frames).toNat = count + 1 ∧ state.1.reads = 0 ∧
        (nextCount state.1.errors).toNat = count + 1 ∧ state.1.heard = 0
      rw [to_nat_next_count (by omega), to_nat_next_count (by omega), hframes, herrors]
      exact ⟨rfl, hreads, rfl, hheard⟩

/-- Behind as many frames as a counter counts, the counters do not add up: the next frame is
counted as heard, and not as a frame. -/
theorem not_agree_of_full (readerId : ReaderId) {count : Nat} (h : count = 2 ^ 64 - 1) :
    ¬ CountersAgree (run StreamDecoder.hear (.new readerId, [])
      (List.replicate count ⟨0, 0, []⟩ ++ [⟨readTagIdMultiple, noTagsFound, []⟩])).1 := by
  obtain ⟨hframes, hreads, herrors, hheard⟩ := run_refused readerId (Nat.le_of_eq h)
  rw [run_append]
  generalize run StreamDecoder.hear (.new readerId, []) (List.replicate count ⟨0, 0, []⟩) =
    state at hframes hreads herrors hheard ⊢
  intro hagree
  change (nextCount state.1.frames).toNat = state.1.reads.toNat + state.1.errors.toNat +
    (nextCount state.1.heard).toNat at hagree
  rw [next_count_of_max (by omega), hframes, hreads, herrors, hheard] at hagree
  have hone : (nextCount 0).toNat = 1 := rfl
  have hzero : (0 : UInt64).toNat = 0 := rfl
  rw [hone, hzero] at hagree
  omega

/-- The counters of a decoder that has heard as many frames as they count do not add up. -/
theorem not_counters_agree :
    ¬ CountersAgree (run StreamDecoder.hear (.new ⟨"mat"⟩, [])
      (List.replicate (2 ^ 64 - 1) ⟨0, 0, []⟩ ++ [⟨readTagIdMultiple, noTagsFound, []⟩])).1 :=
  not_agree_of_full ⟨"mat"⟩ rfl

end Splitforge.Thingmagic
