import Splitforge.Thingmagic.TagFormat

/-!
# Chip identifiers

A Gen2 record is a two-byte PC word, the EPC and a two-byte checksum. The identifier is the EPC in
uppercase hex when there is one between the two. A record with nothing between them gives an empty
identifier, and a shorter one is taken whole, PC word and all.
-/

namespace Splitforge.Thingmagic

open Splitforge.Domain Splitforge.Library

/-- A record without its two leading and its two trailing bytes. -/
def epcOf (record : List UInt8) : List UInt8 :=
  slice record 2 (record.length - 2)

/-- An identifier is a record's EPC, and that is not empty. -/
def IsEpc (record : List UInt8) (chip : ChipId) : Prop :=
  ∃ pc epc crc, record = pc ++ (epc ++ crc) ∧ pc.length = 2 ∧ crc.length = 2 ∧ epc ≠ [] ∧
    chip = ⟨String.ofList (Hex.encodeUpper epc)⟩

/-- The decoder accepts a Gen2 report, and its read has an identifier. -/
def AcceptsGen2 (decoder : StreamDecoder) (response : Response) (report : TagReport)
    (chip : ChipId) : Prop :=
  Carries response report ∧ report.fields.protocol.1 = some gen2 ∧
    ∃ out message, (decoder.decode response out).2 = out ++ [message] ∧ message.chip = chip

/-- A report is read out of a payload in one way. -/
theorem report_unique {response : Response} {report report' : TagReport}
    (h : Carries response report) (h' : Carries response report') (readerId : ReaderId) :
    report.message readerId = report'.message readerId := by
  have hread := (@read_iff_carries readerId response _).mpr ⟨report, h, rfl⟩
  have hread' := (@read_iff_carries readerId response _).mpr ⟨report', h', rfl⟩
  exact Except.ok.inj (hread.2.symm.trans hread'.2)

/-- The identifier of an accepted Gen2 report comes from its record. -/
theorem chip_of_accepts {decoder : StreamDecoder} {response : Response} {report : TagReport}
    {chip : ChipId} (h : AcceptsGen2 decoder response report chip) :
    chip = chipId report.fields.epc.bytes (some gen2) := by
  obtain ⟨hcarries, hgen2, out, message, hout, rfl⟩ := h
  rcases (decoder.decode_cases response out).2.2 with ⟨report', hcarries', hout'⟩ | ⟨hnone, _⟩
  · have hmessage := List.singleton_inj.mp (List.append_cancel_left (hout.symm.trans hout'))
    rw [hmessage, report_unique hcarries' hcarries decoder.readerId, ← hgen2]
    rfl
  · exact absurd ⟨report, hcarries⟩ hnone

/-- A record with an EPC in it is at least five bytes long, and then the identifier is the EPC. -/
theorem is_epc_iff (record : List UInt8) :
    IsEpc record (chipId record (some gen2)) ↔ 5 ≤ record.length := by
  constructor
  · intro h
    obtain ⟨pc, epc, crc, rfl, hpc, hcrc, hepc, _⟩ := h
    have hpos := List.length_pos_of_ne_nil hepc
    rw [List.length_append, List.length_append]
    omega
  · intro hlength
    refine ⟨record.take 2, epcOf record, record.drop (record.length - 2), ?_, ?_, ?_, ?_, ?_⟩
    · have hback : epcOf record ++ record.drop (record.length - 2) = record.drop 2 := by
        have htake := List.take_append_drop (record.length - 2) record
        have hdrop := congrArg (List.drop 2) htake
        rw [List.drop_append_of_le_length (by rw [List.length_take]; omega)] at hdrop
        exact hdrop
      rw [hback, List.take_append_drop]
    · rw [List.length_take]
      omega
    · rw [List.length_drop]
      omega
    · refine List.ne_nil_of_length_pos ?_
      rw [epcOf, slice, List.length_drop, List.length_take]
      omega
    · unfold chipId
      rw [if_pos ⟨rfl, by omega⟩]
      rfl

/-- Identifiers of records with an EPC in them are equal when their EPCs are. -/
theorem chip_eq_iff {record record' : List UInt8} (h : 5 ≤ record.length)
    (h' : 5 ≤ record'.length) :
    chipId record (some gen2) = chipId record' (some gen2) ↔ epcOf record = epcOf record' := by
  unfold chipId
  rw [if_pos ⟨rfl, by omega⟩, if_pos ⟨rfl, by omega⟩, Name.mk.injEq, String.ofList_inj]
  exact Hex.encode_upper_injective.eq_iff

/-- Of two accepted Gen2 reports, both identifiers are non-empty EPCs, the same for the same EPC and
different for different ones, exactly when both records are at least five bytes long. -/
theorem gen2_chips_iff {decoder decoder' : StreamDecoder} {response response' : Response}
    {report report' : TagReport} {chip chip' : ChipId}
    (h : AcceptsGen2 decoder response report chip)
    (h' : AcceptsGen2 decoder' response' report' chip') :
    (IsEpc report.fields.epc.bytes chip ∧ IsEpc report'.fields.epc.bytes chip' ∧
      (chip = chip' ↔ epcOf report.fields.epc.bytes = epcOf report'.fields.epc.bytes)) ↔
    5 ≤ report.fields.epc.bytes.length ∧ 5 ≤ report'.fields.epc.bytes.length := by
  rw [chip_of_accepts h, chip_of_accepts h', is_epc_iff, is_epc_iff]
  constructor
  · intro hboth
    exact ⟨hboth.1, hboth.2.1⟩
  · intro hlong
    exact ⟨hlong.1, hlong.2, chip_eq_iff hlong.1 hlong.2⟩

/-- A Gen2 report with a record and nothing else. -/
def gen2Report (epc : BitCounted) : TagReport where
  option := 0x10
  second := 0
  third := 0
  high := 0x00
  low := 0x40
  layout := rfl
  decodable := rfl
  fields := {
    readCount := ⟨none, rfl⟩
    rssi := ⟨none, rfl⟩
    antenna := ⟨none, rfl⟩
    frequency := ⟨none, rfl⟩
    timestamp := ⟨none, rfl⟩
    phase := ⟨none, rfl⟩
    protocol := ⟨some gen2, rfl⟩
    embedded := ⟨none, rfl⟩
    gpioStatus := ⟨none, rfl⟩
    epc }

/-- The decoder accepts such a report. -/
theorem accepts_gen2_report (epc : BitCounted) :
    AcceptsGen2 (.new ⟨"mat"⟩) ⟨readTagIdMultiple, 0, (gen2Report epc).data⟩ (gen2Report epc)
      (chipId epc.bytes (some gen2)) := by
  have hcarries : Carries ⟨readTagIdMultiple, 0, (gen2Report epc).data⟩ (gen2Report epc) :=
    ⟨rfl, rfl, rfl⟩
  refine ⟨hcarries, rfl, [], (gen2Report epc).message ⟨"mat"⟩, ?_, rfl⟩
  rcases ((StreamDecoder.new ⟨"mat"⟩).decode_cases _ []).2.2 with
    ⟨report, hreport, hout⟩ | ⟨hnone, _⟩
  · rw [hout, report_unique hreport hcarries]
    rfl
  · exact absurd ⟨_, hcarries⟩ hnone

/-- Records with the one-byte EPCs `E2` and `E3`. -/
def firstEpc : BitCounted := ⟨0, 40, [0x30, 0x00, 0xE2, 0xAB, 0xCD], rfl⟩

@[inherit_doc firstEpc]
def otherEpc : BitCounted := ⟨0, 40, [0x30, 0x00, 0xE3, 0xAB, 0xCD], rfl⟩

/-- The identifiers of the two are the two EPCs. -/
theorem gen2_chips_iff_two :
    IsEpc firstEpc.bytes (chipId firstEpc.bytes (some gen2)) ∧
    IsEpc otherEpc.bytes (chipId otherEpc.bytes (some gen2)) ∧
    (chipId firstEpc.bytes (some gen2) = chipId otherEpc.bytes (some gen2) ↔
      epcOf firstEpc.bytes = epcOf otherEpc.bytes) :=
  (gen2_chips_iff (accepts_gen2_report firstEpc) (accepts_gen2_report otherEpc)).mpr
    ⟨by decide, by decide⟩

/-- A PC word and a checksum, with no EPC between them. -/
def emptyEpc : BitCounted := ⟨0, 32, [0x30, 0x00, 0xAB, 0xCD], rfl⟩

/-- A PC word alone. -/
def pcWord : BitCounted := ⟨0, 16, [0x30, 0x00], rfl⟩

/-- A report with an empty EPC is accepted with an empty identifier, and one with a PC word alone is
accepted with the PC word for its identifier. Neither is an EPC. -/
theorem not_is_epc :
    (AcceptsGen2 (.new ⟨"mat"⟩) ⟨readTagIdMultiple, 0, (gen2Report emptyEpc).data⟩
        (gen2Report emptyEpc) ⟨""⟩ ∧ ¬ IsEpc (gen2Report emptyEpc).fields.epc.bytes ⟨""⟩) ∧
      AcceptsGen2 (.new ⟨"mat"⟩) ⟨readTagIdMultiple, 0, (gen2Report pcWord).data⟩
        (gen2Report pcWord) ⟨"3000"⟩ ∧ ¬ IsEpc (gen2Report pcWord).fields.epc.bytes ⟨"3000"⟩ := by
  have hempty : chipId emptyEpc.bytes (some gen2) = ⟨""⟩ := by decide
  have hword : chipId pcWord.bytes (some gen2) = ⟨"3000"⟩ := by decide
  have haccepted := accepts_gen2_report emptyEpc
  have haccepted' := accepts_gen2_report pcWord
  rw [hempty] at haccepted
  rw [hword] at haccepted'
  refine ⟨⟨haccepted, fun hepc => ?_⟩, haccepted', fun hepc => ?_⟩
  · have hlong := (is_epc_iff emptyEpc.bytes).mp (hempty ▸ hepc)
    exact absurd hlong (by decide)
  · have hlong := (is_epc_iff pcWord.bytes).mp (hword ▸ hepc)
    exact absurd hlong (by decide)

end Splitforge.Thingmagic
