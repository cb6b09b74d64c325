import Mathlib.Data.List.Basic
import Mathlib.Order.Basic
import Mathlib.Data.Nat.Bits

/-!
# Frames

The checksum of the serial protocol, the response a frame carries, and the decoding of one
response from the front of a buffer that may hold part of one. A buffer that is not a frame is
rejected for good, and one that might become a frame is not rejected.
-/

namespace Splitforge.Thingmagic

/-! ## The checksum -/

/-- The generator polynomial, `x^16 + x^12 + x^5 + 1` in its normal form. -/
def polynomial : UInt16 := 0x1021

/-- The initial register value: all ones. -/
def init : UInt16 := 0xFFFF

/-- One entry of the vendor's lookup table: the carry-less product of the index and the
polynomial. -/
def table (index : UInt16) : UInt16 :=
  [0, 1, 2, 3].foldl (fun product (bit : UInt16) =>
    if index &&& (1 <<< bit) ≠ 0 then product ^^^ (polynomial <<< bit) else product) 0

/-- `feed`: folds one four-bit nibble into the register. -/
def feedNibble (crc : UInt16) (nibble : UInt8) : UInt16 :=
  ((crc <<< 4) ||| nibble.toUInt16) ^^^ table (crc >>> 12)

/-- The CRC-16 of the protocol over some bytes, the high nibble of each first. -/
def crc16 (bytes : List UInt8) : UInt16 :=
  bytes.foldl (fun crc (byte : UInt8) =>
    feedNibble (feedNibble crc (byte >>> 4)) (byte &&& 0x0F)) init

/-! ## Decoding -/

/-- Start of header. It occurs inside payloads too. -/
def soh : UInt8 := 0xFF

/-- Bytes before a response's payload. -/
def responseHeaderLen : Nat := 5

/-- The trailing CRC, in bytes. -/
def crcLen : Nat := 2

/-- The most data a response may carry. -/
def maxResponseDataLen : Nat := 248

/-- The largest frame of the protocol, in bytes. -/
def maxFrameLen : Nat := responseHeaderLen + maxResponseDataLen + crcLen

/-- One verified response. -/
structure Response where
  opcode : UInt8
  status : UInt16
  data : List UInt8
deriving DecidableEq

/-- What a buffer holds at its front: a frame and how many bytes it took, or the start of one and
how many bytes it needs at least. -/
inductive Decoded where
  | frame (response : Response) (consumed : Nat)
  | incomplete (needAtLeast : Nat)
deriving DecidableEq

/-- Why a buffer could not be decoded. -/
inductive FrameError where
  | notSynchronized (found : UInt8)
  | badCrc (declared computed : UInt16)
  | dataTooLong (declared : Nat)
deriving DecidableEq

/-- `crc_covered_range`: what a frame's CRC is computed over, given the whole frame's length. -/
def crcCoveredRange (frameLen : Nat) : Nat × Nat :=
  (1, frameLen - crcLen)

/-- `be_u16`: a big-endian `u16`. -/
def beU16 (high low : UInt8) : UInt16 :=
  (high.toUInt16 <<< 8) ||| low.toUInt16

/-- The bytes of a buffer from one index up to another. -/
def slice (input : List UInt8) (start stop : Nat) : List UInt8 :=
  (input.take stop).drop start

/-- The byte at an index that is in bounds. -/
def byteAt (input : List UInt8) (index : Nat) : UInt8 :=
  input.getD index 0

/-- The end of `decode`, for a buffer that holds as many bytes as its frame declares: the frame, if
its checksum is that of its bytes. -/
def verify (input : List UInt8) (dataLen : Nat) : Except FrameError Decoded :=
  let frameLen := responseHeaderLen + dataLen + crcLen
  let (coveredFrom, coveredTo) := crcCoveredRange frameLen
  let computed := crc16 (slice input coveredFrom coveredTo)
  let declared := beU16 (byteAt input (frameLen - 2)) (byteAt input (frameLen - 1))
  if declared ≠ computed then .error (.badCrc declared computed)
  else
    .ok (.frame
      { opcode := byteAt input 2
        status := beU16 (byteAt input 3) (byteAt input 4)
        data := slice input responseHeaderLen (responseHeaderLen + dataLen) }
      frameLen)

/-- `decode`: one response from the front of a buffer. -/
def decode (input : List UInt8) : Except FrameError Decoded :=
  match input with
  | [] => .ok (.incomplete 2)
  | first :: rest =>
      if first ≠ soh then .error (.notSynchronized first)
      else match rest with
        | [] => .ok (.incomplete 2)
        | dataLen :: _ =>
            let dataLen := dataLen.toNat
            -- a length no response may declare is rejected before it is waited for
            if maxResponseDataLen < dataLen then .error (.dataTooLong dataLen)
            else
              let frameLen := responseHeaderLen + dataLen + crcLen
              if input.length < frameLen then .ok (.incomplete frameLen)
              else verify input dataLen

/-- `resynchronize`: where the next frame might start, the first byte having been ruled out. -/
def resynchronize (input : List UInt8) : Option Nat :=
  (input.tail.findIdx? (· = soh)).map (· + 1)

/-- A response captured from a physical module. -/
def capturedFrame : List UInt8 := [
  0xFF, 0x28, 0x22, 0x00, 0x00, 0x10, 0x00, 0x1B, 0x01, 0xFF, 0x01, 0x01, 0xC4, 0x11, 0x0E, 0x16,
  0x40, 0x00, 0x00, 0x01, 0x27, 0x00, 0x00, 0x05, 0x00, 0x00, 0x0F, 0x00, 0x80, 0x30, 0x00, 0x00,
  0x00, 0x00, 0x00, 0x00, 0x00, 0x00, 0x00, 0x00, 0x00, 0x15, 0x45, 0xE9, 0x4A, 0x56, 0x1D]

example : decode capturedFrame =
    .ok (.frame ⟨0x22, 0, slice capturedFrame 5 45⟩ 47) := by decide +kernel

/-! ## What decoding finds -/

theorem decode_of_ne_soh {first : UInt8} (h : first ≠ soh) (rest : List UInt8) :
    decode (first :: rest) = .error (.notSynchronized first) :=
  if_pos h

theorem decode_of_too_long {dataLen : UInt8} (h : maxResponseDataLen < dataLen.toNat)
    (rest : List UInt8) :
    decode (soh :: dataLen :: rest) = .error (.dataTooLong dataLen.toNat) :=
  if_pos h

theorem decode_of_short {dataLen : UInt8} (hmax : dataLen.toNat ≤ maxResponseDataLen)
    {rest : List UInt8}
    (h : (soh :: dataLen :: rest).length < responseHeaderLen + dataLen.toNat + crcLen) :
    decode (soh :: dataLen :: rest) =
      .ok (.incomplete (responseHeaderLen + dataLen.toNat + crcLen)) :=
  (if_neg (Nat.not_lt.mpr hmax)).trans (if_pos h)

theorem decode_of_whole {dataLen : UInt8} (hmax : dataLen.toNat ≤ maxResponseDataLen)
    {rest : List UInt8}
    (h : responseHeaderLen + dataLen.toNat + crcLen ≤ (soh :: dataLen :: rest).length) :
    decode (soh :: dataLen :: rest) = verify (soh :: dataLen :: rest) dataLen.toNat :=
  (if_neg (Nat.not_lt.mpr hmax)).trans (if_neg (Nat.not_lt.mpr h))

/-- A buffer is cut off, out of step, declares too much, or is as long as a frame. -/
theorem decode_cases (input : List UInt8) :
    (∃ needed, decode input = .ok (.incomplete needed)) ∨
    (∃ first rest, input = first :: rest ∧ first ≠ soh) ∨
    (∃ dataLen rest, input = soh :: dataLen :: rest ∧ maxResponseDataLen < dataLen.toNat) ∨
    ∃ dataLen rest, input = soh :: dataLen :: rest ∧ dataLen.toNat ≤ maxResponseDataLen ∧
      responseHeaderLen + dataLen.toNat + crcLen ≤ input.length := by
  match input with
  | [] => exact Or.inl ⟨2, rfl⟩
  | first :: rest =>
      by_cases hsoh : first = soh
      · rw [hsoh]
        match rest with
        | [] => exact Or.inl ⟨2, rfl⟩
        | dataLen :: rest =>
            by_cases hmax : maxResponseDataLen < dataLen.toNat
            · exact Or.inr (Or.inr (Or.inl ⟨dataLen, rest, rfl, hmax⟩))
            · have hle := Nat.not_lt.mp hmax
              by_cases hshort : (soh :: dataLen :: rest).length <
                  responseHeaderLen + dataLen.toNat + crcLen
              · exact Or.inl ⟨_, decode_of_short hle hshort⟩
              · exact Or.inr (Or.inr (Or.inr ⟨dataLen, rest, rfl, hle, Nat.not_lt.mp hshort⟩))
      · exact Or.inr (Or.inl ⟨first, rest, rfl, hsoh⟩)

/-- A frame that passes the check has its declared length. -/
theorem consumed_of_verify {input : List UInt8} {dataLen : Nat} {response : Response}
    {consumed : Nat} (h : verify input dataLen = .ok (.frame response consumed)) :
    consumed = responseHeaderLen + dataLen + crcLen := by
  unfold verify at h
  simp only at h
  split at h
  · cases h
  · cases h
    rfl

/-- A frame takes some of the bytes there are. -/
theorem consumed_of_decode {input : List UInt8} {response : Response} {consumed : Nat}
    (h : decode input = .ok (.frame response consumed)) :
    0 < consumed ∧ consumed ≤ input.length := by
  rcases decode_cases input with ⟨needed, hneeded⟩ | ⟨first, rest, rfl, hsoh⟩ |
    ⟨dataLen, rest, rfl, hmax⟩ | ⟨dataLen, rest, rfl, hmax, hlength⟩
  · rw [hneeded] at h
    cases h
  · rw [decode_of_ne_soh hsoh] at h
    cases h
  · rw [decode_of_too_long hmax] at h
    cases h
  · rw [decode_of_whole hmax hlength] at h
    rw [consumed_of_verify h]
    exact ⟨Nat.succ_pos _, hlength⟩

/-! ## More input -/

theorem slice_append {input : List UInt8} {start stop : Nat} (h : stop ≤ input.length)
    (more : List UInt8) : slice (input ++ more) start stop = slice input start stop := by
  rw [slice, slice, List.take_append_of_le_length h]

theorem byte_at_append {input : List UInt8} {index : Nat} (h : index < input.length)
    (more : List UInt8) : byteAt (input ++ more) index = byteAt input index := by
  rw [byteAt, byteAt, List.getD_eq_getElem?_getD, List.getD_eq_getElem?_getD,
    List.getElem?_append_left h]

/-- Checking a whole frame looks at nothing behind it. -/
theorem verify_append {input : List UInt8} {dataLen : Nat}
    (h : responseHeaderLen + dataLen + crcLen ≤ input.length) (more : List UInt8) :
    verify (input ++ more) dataLen = verify input dataLen := by
  have hheader : responseHeaderLen = 5 := rfl
  have hcrc : crcLen = 2 := rfl
  have hslice {start stop : Nat} (hstop : stop ≤ responseHeaderLen + dataLen + crcLen) :=
    @slice_append input start stop (Nat.le_trans hstop h) more
  have hbyte {index : Nat} (hindex : index < responseHeaderLen + dataLen + crcLen) :=
    @byte_at_append input index (Nat.lt_of_lt_of_le hindex h) more
  unfold verify crcCoveredRange
  simp (disch := omega) only [hslice, hbyte]

/-- What is not waited for does not depend on what comes behind it. -/
theorem decode_append {input : List UInt8} (h : ∀ needed, decode input ≠ .ok (.incomplete needed))
    (more : List UInt8) : decode (input ++ more) = decode input := by
  rcases decode_cases input with ⟨needed, hneeded⟩ | ⟨first, rest, rfl, hsoh⟩ |
    ⟨dataLen, rest, rfl, hmax⟩ | ⟨dataLen, rest, rfl, hmax, hlength⟩
  · exact absurd hneeded (h needed)
  · rw [List.cons_append, decode_of_ne_soh hsoh, decode_of_ne_soh hsoh]
  · rw [List.cons_append, List.cons_append, decode_of_too_long hmax, decode_of_too_long hmax]
  · have hmore : responseHeaderLen + dataLen.toNat + crcLen ≤
        (soh :: dataLen :: (rest ++ more)).length := by
      simp only [List.length_cons, List.length_append] at hlength ⊢
      omega
    rw [decode_of_whole hmax hlength, ← verify_append hlength more]
    exact decode_of_whole hmax hmore

/-! ## Whole frames -/

/-- The high byte of a `u16`. -/
def highByte (word : UInt16) : UInt8 :=
  (word >>> 8).toUInt8

/-- The low byte of a `u16`. -/
def lowByte (word : UInt16) : UInt8 :=
  word.toUInt8

/-- What a reader sends as one frame: a response that is not longer than a response may be. -/
structure ReaderFrame where
  response : Response
  fits : response.data.length ≤ maxResponseDataLen

/-- The bytes of a frame that its checksum covers. -/
def ReaderFrame.covered (frame : ReaderFrame) : List UInt8 :=
  UInt8.ofNat frame.response.data.length :: frame.response.opcode ::
    highByte frame.response.status :: lowByte frame.response.status :: frame.response.data

/-- The bytes of a frame: the start, what the checksum covers, and the checksum. -/
def ReaderFrame.bytes (frame : ReaderFrame) : List UInt8 :=
  soh :: (frame.covered ++ [highByte (crc16 frame.covered), lowByte (crc16 frame.covered)])

/-- A `u16` is read back from its bytes. -/
theorem be_u16_bytes (word : UInt16) : beU16 (highByte word) (lowByte word) = word := by
  have hlt := word.toNat_lt
  have hlow : word.toNat % 2 ^ 8 < 2 ^ 8 := Nat.mod_lt _ (by decide)
  have hhigh : (highByte word).toUInt16.toNat = word.toNat / 2 ^ 8 := by
    have hshift : (highByte word).toUInt16.toNat = word.toNat >>> 8 % 2 ^ 8 := rfl
    rw [hshift, Nat.shiftRight_eq_div_pow]
    omega
  have hshifted : ((highByte word).toUInt16 <<< 8).toNat = (word.toNat / 2 ^ 8) <<< 8 := by
    rw [UInt16.toNat_shiftLeft, hhigh]
    show (word.toNat / 2 ^ 8) <<< 8 % 2 ^ 16 = _
    rw [Nat.shiftLeft_eq]
    omega
  refine UInt16.toNat_inj.mp ?_
  rw [beU16, UInt16.toNat_or, hshifted]
  show (word.toNat / 2 ^ 8) <<< 8 ||| word.toNat % 2 ^ 8 = word.toNat
  rw [← Nat.shiftLeft_add_eq_or_of_lt hlow, Nat.shiftLeft_eq]
  omega

theorem length_covered (frame : ReaderFrame) :
    frame.covered.length = frame.response.data.length + 4 := rfl

theorem length_bytes (frame : ReaderFrame) :
    frame.bytes.length = responseHeaderLen + frame.response.data.length + crcLen := by
  rw [ReaderFrame.bytes, List.length_cons, List.length_append, length_covered]
  simp only [List.length_cons, List.length_nil, responseHeaderLen, crcLen]
  omega

/-- The length byte of a frame declares its data. -/
theorem to_nat_length_byte (frame : ReaderFrame) :
    (UInt8.ofNat frame.response.data.length).toNat = frame.response.data.length := by
  have hfits := frame.fits
  rw [UInt8.toNat_ofNat']
  unfold maxResponseDataLen at hfits
  omega

/-- The two bytes behind what the checksum covers. -/
def ReaderFrame.checksum (frame : ReaderFrame) : List UInt8 :=
  [highByte (crc16 frame.covered), lowByte (crc16 frame.covered)]

/-- What the checksum covers is found between the start and the checksum. -/
theorem slice_covered (frame : ReaderFrame) :
    slice frame.bytes 1 (responseHeaderLen + frame.response.data.length) = frame.covered := by
  have hbytes : frame.bytes = soh :: (frame.covered ++ frame.checksum) := rfl
  have hstop : responseHeaderLen + frame.response.data.length = frame.covered.length + 1 := by
    rw [length_covered, responseHeaderLen]
    omega
  rw [slice, hbytes, hstop, List.take_succ_cons, List.drop_succ_cons, List.drop_zero,
    List.take_left]

/-- The payload is found between the header and the checksum. -/
theorem slice_data (frame : ReaderFrame) :
    slice frame.bytes responseHeaderLen (responseHeaderLen + frame.response.data.length) =
      frame.response.data := by
  have hsplit : frame.bytes = [soh, UInt8.ofNat frame.response.data.length,
      frame.response.opcode, highByte frame.response.status, lowByte frame.response.status] ++
        (frame.response.data ++ frame.checksum) := rfl
  rw [slice, hsplit, List.take_append, List.drop_append]
  simp [responseHeaderLen]

/-- The checksum is found behind the payload. -/
theorem byte_at_checksum (frame : ReaderFrame) (index : Nat) :
    byteAt frame.bytes (responseHeaderLen + frame.response.data.length + index) =
      frame.checksum.getD index 0 := by
  have hbytes : frame.bytes = soh :: (frame.covered ++ frame.checksum) := rfl
  have hindex : responseHeaderLen + frame.response.data.length + index =
      frame.covered.length + index + 1 := by
    rw [length_covered, responseHeaderLen]
    omega
  rw [byteAt, hbytes, hindex, List.getD_eq_getElem?_getD, List.getElem?_cons_succ,
    List.getElem?_append_right (Nat.le_add_right _ _), Nat.add_sub_cancel_left,
    List.getD_eq_getElem?_getD]

/-- The bytes of a frame pass the check, and give back its response. -/
theorem verify_bytes (frame : ReaderFrame) :
    verify frame.bytes frame.response.data.length =
      .ok (.frame frame.response frame.bytes.length) := by
  have hdeclared : beU16
      (byteAt frame.bytes (responseHeaderLen + frame.response.data.length + 0))
      (byteAt frame.bytes (responseHeaderLen + frame.response.data.length + 1)) =
        crc16 frame.covered := by
    rw [byte_at_checksum, byte_at_checksum]
    exact be_u16_bytes (crc16 frame.covered)
  have hstatus : beU16 (byteAt frame.bytes 3) (byteAt frame.bytes 4) = frame.response.status :=
    be_u16_bytes frame.response.status
  show (if beU16 (byteAt frame.bytes (responseHeaderLen + frame.response.data.length + 0))
      (byteAt frame.bytes (responseHeaderLen + frame.response.data.length + 1)) ≠
        crc16 (slice frame.bytes 1 (responseHeaderLen + frame.response.data.length)) then _
    else Except.ok (Decoded.frame
      ⟨frame.response.opcode, beU16 (byteAt frame.bytes 3) (byteAt frame.bytes 4),
        slice frame.bytes responseHeaderLen (responseHeaderLen + frame.response.data.length)⟩
      (responseHeaderLen + frame.response.data.length + crcLen))) = _
  rw [hdeclared, slice_covered, if_neg (not_not_intro rfl), hstatus, slice_data, length_bytes]

/-- A frame decodes to its response, with anything behind it. -/
theorem decode_bytes_append (frame : ReaderFrame) (more : List UInt8) :
    decode (frame.bytes ++ more) = .ok (.frame frame.response frame.bytes.length) := by
  have hwhole : decode frame.bytes = .ok (.frame frame.response frame.bytes.length) := by
    rw [← verify_bytes frame]
    have hfits := frame.fits
    have hlength := Nat.le_of_eq (length_bytes frame).symm
    rw [← to_nat_length_byte frame] at hfits hlength ⊢
    exact decode_of_whole hfits hlength
  rw [decode_append, hwhole]
  intro needed hneeded
  rw [hwhole] at hneeded
  cases hneeded

/-- A part of a frame is waited for. -/
theorem decode_part {frame : ReaderFrame} {front back : List UInt8}
    (h : frame.bytes = front ++ back) (hback : back ≠ []) :
    ∃ needed, decode front = .ok (.incomplete needed) := by
  have hshort : front.length < responseHeaderLen + frame.response.data.length + crcLen := by
    have hlength := congrArg List.length h
    have hpos := List.length_pos_of_ne_nil hback
    rw [length_bytes, List.length_append] at hlength
    omega
  match front with
  | [] => exact ⟨2, rfl⟩
  | [first] =>
      obtain ⟨rfl, _⟩ := List.cons.inj h
      exact ⟨2, rfl⟩
  | first :: dataLen :: rest =>
      obtain ⟨rfl, hcovered⟩ := List.cons.inj h
      obtain ⟨rfl, _⟩ := List.cons.inj hcovered
      have hfits := frame.fits
      rw [← to_nat_length_byte frame] at hfits hshort
      exact ⟨_, decode_of_short hfits hshort⟩

end Splitforge.Thingmagic
