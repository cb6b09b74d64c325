import Mathlib.Algebra.CharP.Two
import Mathlib.Tactic.LinearCombination
import Splitforge.Library.Gf2
import Splitforge.Thingmagic.Frame

/-!
# What the checksum detects

The register holds the remainder of the bytes fed so far, behind the initial value, by the
generator. The remainder is taken without the shift of the textbook CRC. A burst of errors of at
most sixteen bits is still detected: in the bytes that the checksum covers, in the checksum, and
from one into the other.
-/

namespace Splitforge.Thingmagic

open Polynomial
open Splitforge.Library

/-- The generator. -/
noncomputable def generator : (ZMod 2)[X] := X ^ 16 + X ^ 12 + X ^ 5 + 1

/-- The bits of a byte, the highest first. -/
def byteBits (byte : UInt8) : List Bool :=
  [7, 6, 5, 4, 3, 2, 1, 0].map fun i => byte.toNat.testBit i

/-- The bits of some bytes, in the order the checksum takes them. -/
def bitsOf (bytes : List UInt8) : List Bool := bytes.flatMap byteBits

/-- The word a register holds, as a polynomial. -/
noncomputable def wordPoly (word : UInt16) : (ZMod 2)[X] := Gf2.ofNat word.toNat

/-! ## The generator -/

theorem of_nat_polynomial : wordPoly polynomial = X ^ 12 + X ^ 5 + 1 := by
  have hbits : polynomial.toNat = 1 <<< 12 ^^^ 1 <<< 5 ^^^ 1 := rfl
  rw [wordPoly, hbits, Gf2.of_nat_xor, Gf2.of_nat_xor, Gf2.of_nat_shift_left,
    Gf2.of_nat_shift_left, Gf2.of_nat_one, one_mul, one_mul]

theorem generator_eq : generator = X ^ 16 + wordPoly polynomial := by
  rw [of_nat_polynomial, generator]
  ring

theorem degree_word_poly (word : UInt16) : (wordPoly word).degree < 16 :=
  Gf2.degree_of_nat_lt word.toNat_lt

theorem monic_generator : generator.Monic := by
  rw [generator_eq]
  exact monic_X_pow_add (degree_word_poly _)

theorem degree_generator : generator.degree = 16 := by
  rw [generator_eq]
  have hlow : (wordPoly polynomial).degree < (X ^ 16 : (ZMod 2)[X]).degree := by
    rw [degree_X_pow]
    exact degree_word_poly _
  rw [degree_add_eq_left_of_degree_lt hlow, degree_X_pow]
  rfl

theorem constant_generator : generator.coeff 0 ≠ 0 := by
  simp [generator, coeff_one]

/-! ## One nibble -/

/-- One turn of the table's loop adds the shifted generator if the bit is set. -/
theorem table_turn {index product bit : UInt16} (place : Nat)
    (hmask : (1 <<< bit).toNat = 2 ^ place)
    (hshift : (polynomial <<< bit).toNat = polynomial.toNat <<< place) :
    wordPoly (if index &&& (1 <<< bit) ≠ 0 then product ^^^ (polynomial <<< bit) else product) =
      wordPoly product + C (Gf2.ofBit (index.toNat.testBit place)) * X ^ place *
        wordPoly polynomial := by
  have hbit : index &&& (1 <<< bit) ≠ 0 ↔ index.toNat.testBit place = true := by
    rw [Ne, ← UInt16.toNat_inj, UInt16.toNat_and, hmask, Nat.and_two_pow]
    cases index.toNat.testBit place <;> simp
  by_cases hset : index.toNat.testBit place = true
  · rw [if_pos (hbit.mpr hset), hset, wordPoly, UInt16.toNat_xor, Gf2.of_nat_xor, hshift,
      Gf2.of_nat_shift_left, mul_comm (Gf2.ofNat polynomial.toNat)]
    simp [Gf2.ofBit, wordPoly]
  · rw [if_neg (mt hbit.mp hset), Bool.eq_false_iff.mpr hset]
    simp [Gf2.ofBit]

/-- An entry of the table is the product of its index and the low part of the generator. -/
theorem word_poly_table {index : UInt16} (h : index.toNat < 2 ^ 4) :
    wordPoly (table index) = wordPoly index * wordPoly polynomial := by
  have hindex : wordPoly index = _ := Gf2.of_nat_eq_sum h
  rw [hindex, table, List.foldl_cons, List.foldl_cons, List.foldl_cons, List.foldl_cons,
    List.foldl_nil, table_turn 3 rfl rfl, table_turn 2 rfl rfl, table_turn 1 rfl rfl,
    table_turn 0 rfl rfl, Finset.sum_range_succ, Finset.sum_range_succ, Finset.sum_range_succ,
    Finset.sum_range_succ, Finset.sum_range_zero]
  have hzero : wordPoly 0 = 0 := Gf2.of_nat_zero
  rw [hzero]
  ring

/-- A number whose low bits are clear shares no bit with one that has only these. -/
theorem or_eq_xor_of_shifted (number : Nat) {low : Nat} (h : low < 2 ^ 4) :
    (number <<< 4) % 2 ^ 16 ||| low = (number <<< 4) % 2 ^ 16 ^^^ low := by
  refine Nat.eq_of_testBit_eq ?_
  intro i
  rw [Nat.testBit_or, Nat.testBit_xor, Nat.testBit_mod_two_pow, Nat.testBit_shiftLeft]
  by_cases hi : 4 ≤ i
  · rw [Nat.testBit_lt_two_pow (Nat.lt_of_lt_of_le h (Nat.pow_le_pow_right (by omega) hi))]
    simp
  · simp [hi]

/-- Folding in a nibble multiplies by `X^4`, adds the nibble and takes the remainder. -/
theorem word_poly_feed_nibble {nibble : UInt8} (crc : UInt16) (h : nibble.toNat < 2 ^ 4) :
    wordPoly (feedNibble crc nibble) =
      (wordPoly crc * X ^ 4 + Gf2.ofNat nibble.toNat) %ₘ generator := by
  have htop : (crc >>> 12).toNat = (crc.toNat <<< 4) / 2 ^ 16 := by
    rw [UInt16.toNat_shiftRight, Nat.shiftRight_eq_div_pow, Nat.shiftLeft_eq]
    show crc.toNat / 2 ^ 12 = _
    omega
  have hlow : (crc <<< 4 ||| nibble.toUInt16).toNat =
      (crc.toNat <<< 4) % 2 ^ 16 ^^^ nibble.toNat := by
    have hshift : (crc <<< 4).toNat = (crc.toNat <<< 4) % 2 ^ 16 := UInt16.toNat_shiftLeft ..
    have hnibble : nibble.toUInt16.toNat = nibble.toNat := rfl
    rw [UInt16.toNat_or, hshift, hnibble]
    exact or_eq_xor_of_shifted _ h
  have htable : wordPoly (table (crc >>> 12)) = wordPoly (crc >>> 12) * wordPoly polynomial := by
    refine word_poly_table ?_
    have hlt := crc.toNat_lt
    rw [htop, Nat.shiftLeft_eq]
    omega
  have hcrc := Gf2.of_nat_split (crc.toNat <<< 4) 16
  rw [Gf2.of_nat_shift_left, ← htop] at hcrc
  have htwo : (2 : (ZMod 2)[X]) = 0 := CharTwo.two_eq_zero
  have hfeed : wordPoly (feedNibble crc nibble) =
      Gf2.ofNat ((crc.toNat <<< 4) % 2 ^ 16) + Gf2.ofNat nibble.toNat +
        wordPoly (crc >>> 12) * wordPoly polynomial := by
    rw [← htable, feedNibble, wordPoly, UInt16.toNat_xor, hlow, Gf2.of_nat_xor, Gf2.of_nat_xor]
    rfl
  have hdegree : (wordPoly (feedNibble crc nibble)).degree < generator.degree := by
    rw [degree_generator]
    exact degree_word_poly _
  have hvalue : wordPoly crc * X ^ 4 + Gf2.ofNat nibble.toNat =
      wordPoly (feedNibble crc nibble) + generator * wordPoly (crc >>> 12) := by
    rw [hfeed, generator_eq]
    -- the two copies of the table's entry cancel
    have hcrc : wordPoly crc * X ^ 4 = Gf2.ofNat ((crc.toNat <<< 4) % 2 ^ 16) +
        wordPoly (crc >>> 12) * X ^ 16 := hcrc
    linear_combination hcrc - wordPoly (crc >>> 12) * wordPoly polynomial * htwo
  exact (Gf2.mod_eq_of_add_mul monic_generator hvalue hdegree).symm

/-! ## The remainder law -/

theorem bits_of_cons (byte : UInt8) (bytes : List UInt8) :
    bitsOf (byte :: bytes) = byteBits byte ++ bitsOf bytes := rfl

theorem length_bits_of (bytes : List UInt8) : (bitsOf bytes).length = 8 * bytes.length := by
  induction bytes with
  | nil => rfl
  | cons byte bytes ih =>
      rw [bits_of_cons, List.length_append, ih, List.length_cons]
      show 8 + 8 * bytes.length = _
      omega

/-- The bits of a byte are those of its number. -/
theorem of_bits_byte_bits (byte : UInt8) :
    Gf2.ofBits (byteBits byte) = Gf2.ofNat byte.toNat := by
  rw [Gf2.of_nat_eq_sum byte.toNat_lt]
  simp only [byteBits, List.map_cons, List.map_nil, Gf2.ofBits, List.length_cons, List.length_nil,
    Finset.sum_range_succ, Finset.sum_range_zero]
  ring

/-- Folding in a byte multiplies by `X^8`, adds the byte and takes the remainder. -/
theorem word_poly_feed_byte (crc : UInt16) (byte : UInt8) :
    wordPoly (feedNibble (feedNibble crc (byte >>> 4)) (byte &&& 0x0F)) =
      (wordPoly crc * X ^ 8 + Gf2.ofBits (byteBits byte)) %ₘ generator := by
  have hlt := byte.toNat_lt
  have hhigh : (byte >>> 4).toNat = byte.toNat / 2 ^ 4 := by
    rw [UInt8.toNat_shiftRight, Nat.shiftRight_eq_div_pow]
    rfl
  have hlow : (byte &&& 0x0F).toNat = byte.toNat % 2 ^ 4 := by
    rw [UInt8.toNat_and]
    exact Nat.and_two_pow_sub_one_eq_mod _ 4
  rw [word_poly_feed_nibble _ (by omega), word_poly_feed_nibble _ (by omega),
    Gf2.mod_mul_add_mod monic_generator, of_bits_byte_bits, Gf2.of_nat_split byte.toNat 4, hhigh,
    hlow]
  refine congrArg (fun value => value %ₘ generator) ?_
  ring

/-- The register, from any word: the remainder of the word in front of the bytes. -/
theorem word_poly_foldl (bytes : List UInt8) (crc : UInt16) :
    wordPoly (bytes.foldl (fun crc (byte : UInt8) =>
        feedNibble (feedNibble crc (byte >>> 4)) (byte &&& 0x0F)) crc) =
      (wordPoly crc * X ^ (8 * bytes.length) + Gf2.ofBits (bitsOf bytes)) %ₘ generator := by
  induction bytes generalizing crc with
  | nil =>
      have hsmall : (wordPoly crc).degree < generator.degree := by
        rw [degree_generator]
        exact degree_word_poly crc
      rw [List.foldl_nil, List.length_nil, Nat.mul_zero, pow_zero, mul_one]
      show _ = (wordPoly crc + 0) %ₘ generator
      rw [add_zero, (modByMonic_eq_self_iff monic_generator).mpr hsmall]
  | cons byte bytes ih =>
      have hbits : Gf2.ofBits (bitsOf (byte :: bytes)) =
          Gf2.ofBits (byteBits byte) * X ^ (8 * bytes.length) + Gf2.ofBits (bitsOf bytes) := by
        rw [bits_of_cons, Gf2.of_bits_append, length_bits_of]
      rw [List.foldl_cons, ih, word_poly_feed_byte, Gf2.mod_mul_add_mod monic_generator, hbits,
        List.length_cons]
      refine congrArg (fun value => value %ₘ generator) ?_
      ring

/-- The checksum is the remainder of the initial value in front of the bytes. -/
theorem word_poly_crc16 (bytes : List UInt8) :
    wordPoly (crc16 bytes) =
      (wordPoly init * X ^ (8 * bytes.length) + Gf2.ofBits (bitsOf bytes)) %ₘ generator :=
  word_poly_foldl bytes init

/-! ## Errors -/

/-- Bytes with errors: the bits set in the errors are flipped. -/
def corrupt (bytes errors : List UInt8) : List UInt8 := List.zipWith (· ^^^ ·) bytes errors

theorem byte_bits_xor (byte error : UInt8) :
    byteBits (byte ^^^ error) = List.zipWith xor (byteBits byte) (byteBits error) := by
  simp [byteBits, Nat.testBit_xor]

theorem of_bits_corrupt {bytes errors : List UInt8} (h : errors.length = bytes.length) :
    Gf2.ofBits (bitsOf (corrupt bytes errors)) =
      Gf2.ofBits (bitsOf bytes) + Gf2.ofBits (bitsOf errors) := by
  have hbits : bitsOf (corrupt bytes errors) = List.zipWith xor (bitsOf bytes) (bitsOf errors) := by
    induction bytes generalizing errors with
    | nil => rfl
    | cons byte bytes ih =>
        cases errors with
        | nil => cases h
        | cons error errors =>
            have h : errors.length = bytes.length := Nat.succ.inj h
            have htail := ih h
            rw [corrupt, List.zipWith_cons_cons, bits_of_cons, byte_bits_xor, ← corrupt, htail,
              bits_of_cons, bits_of_cons]
            have height : (byteBits byte).length = (byteBits error).length := rfl
            exact (List.zipWith_append height).symm
  rw [hbits, Gf2.of_bits_zip_with_xor (by rw [length_bits_of, length_bits_of, h])]

/-- A word is its two bytes. -/
theorem word_poly_be_u16 (high low : UInt8) :
    wordPoly (beU16 high low) = Gf2.ofBits (bitsOf [high, low]) := by
  have hhigh := high.toNat_lt
  have hlow : low.toNat < 2 ^ 8 := low.toNat_lt
  have hshifted : (high.toUInt16 <<< 8).toNat = high.toNat <<< 8 := by
    rw [UInt16.toNat_shiftLeft]
    show high.toNat <<< 8 % 2 ^ 16 = _
    rw [Nat.shiftLeft_eq]
    omega
  have hword : (beU16 high low).toNat = high.toNat * 2 ^ 8 + low.toNat := by
    rw [beU16, UInt16.toNat_or, hshifted]
    show high.toNat <<< 8 ||| low.toNat = _
    rw [← Nat.shiftLeft_add_eq_or_of_lt hlow, Nat.shiftLeft_eq]
  have hbits : bitsOf [high, low] = byteBits high ++ byteBits low := rfl
  have hmod : (high.toNat * 2 ^ 8 + low.toNat) % 2 ^ 8 = low.toNat := by omega
  have hdiv : (high.toNat * 2 ^ 8 + low.toNat) / 2 ^ 8 = high.toNat := by omega
  rw [wordPoly, hword, Gf2.of_nat_split _ 8, hmod, hdiv, hbits, Gf2.of_bits_append,
    of_bits_byte_bits, of_bits_byte_bits, add_comm]
  rfl

/-- Some errors as a polynomial: a shifted one of a degree below sixteen. -/
def IsShort (errors : List UInt8) : Prop :=
  ∃ (shift : Nat) (burst : (ZMod 2)[X]), Gf2.ofBits (bitsOf errors) = X ^ shift * burst ∧
    burst ≠ 0 ∧ burst.degree < 16

/-- Bytes whose checksum stands behind them, with a burst of errors in both: the checksum of the
bytes is not what stands behind them. -/
theorem crc16_corrupt_ne {covered errors : List UInt8} {high low high' low' : UInt8}
    (hcheck : beU16 high low = crc16 covered) (hlength : errors.length = covered.length)
    (hshort : IsShort (errors ++ [high', low'])) :
    beU16 (high ^^^ high') (low ^^^ low') ≠ crc16 (corrupt covered errors) := by
  obtain ⟨shift, burst, hword, hne, hdegree⟩ := hshort
  have hsplit : bitsOf (errors ++ [high', low']) = bitsOf errors ++ bitsOf [high', low'] :=
    List.flatMap_append
  have hlast : (bitsOf [high', low']).length = 16 := length_bits_of _
  have hback : (Gf2.ofBits (bitsOf [high', low'])).degree < 16 := by
    have hlt := Gf2.degree_of_bits_lt (bitsOf [high', low'])
    rw [hlast] at hlt
    exact hlt
  rw [hsplit, Gf2.of_bits_append, hlast] at hword
  have hnot := Gf2.mod_ne_of_burst monic_generator degree_generator constant_generator hback hne
    hdegree hword
  intro hsame
  refine hnot ?_
  have hflipped : wordPoly (beU16 (high ^^^ high') (low ^^^ low')) =
      wordPoly (crc16 covered) + Gf2.ofBits (bitsOf [high', low']) := by
    rw [← hcheck, word_poly_be_u16, word_poly_be_u16]
    exact @of_bits_corrupt [high, low] [high', low'] rfl
  have hcorrupt : wordPoly (crc16 (corrupt covered errors)) =
      wordPoly (crc16 covered) + Gf2.ofBits (bitsOf errors) %ₘ generator := by
    have hsame : (corrupt covered errors).length = covered.length := by
      rw [corrupt, List.length_zipWith, hlength, Nat.min_self]
    rw [word_poly_crc16, hsame, of_bits_corrupt hlength, ← add_assoc, add_modByMonic,
      ← word_poly_crc16]
  rw [hsame, hcorrupt] at hflipped
  exact add_left_cancel hflipped

/-! ## Frames -/

theorem corrupt_cons (byte error : UInt8) (bytes errors : List UInt8) :
    corrupt (byte :: bytes) (error :: errors) = (byte ^^^ error) :: corrupt bytes errors := rfl

/-- A whole frame whose checksum is not that of what it covers is rejected. -/
theorem decode_of_bad_crc {dataLen high low : UInt8} {rest : List UInt8}
    (hmax : dataLen.toNat ≤ maxResponseDataLen) (hlength : rest.length = dataLen.toNat + 3)
    (hcrc : beU16 high low ≠ crc16 (dataLen :: rest)) (more : List UInt8) :
    decode (soh :: dataLen :: (rest ++ [high, low]) ++ more) =
      .error (.badCrc (beU16 high low) (crc16 (dataLen :: rest))) := by
  have hframe : responseHeaderLen + dataLen.toNat + crcLen = rest.length + 4 := by
    rw [hlength, responseHeaderLen, crcLen]
    omega
  have hwhole : responseHeaderLen + dataLen.toNat + crcLen ≤
      (soh :: dataLen :: (rest ++ [high, low])).length := by
    rw [hframe]
    simp
  have hslice : slice (soh :: dataLen :: (rest ++ [high, low])) 1 (rest.length + 4 - crcLen) =
      dataLen :: rest := by
    have hstop : rest.length + 4 - crcLen = rest.length + 2 := rfl
    rw [hstop, slice, List.take_succ_cons, List.take_succ_cons, List.drop_succ_cons,
      List.drop_zero, List.take_left]
  have hhigh : byteAt (soh :: dataLen :: (rest ++ [high, low])) (rest.length + 4 - 2) = high := by
    simp [byteAt]
  have hlow : byteAt (soh :: dataLen :: (rest ++ [high, low])) (rest.length + 4 - 1) = low := by
    simp [byteAt]
  have hverify : verify (soh :: dataLen :: (rest ++ [high, low])) dataLen.toNat =
      .error (.badCrc (beU16 high low) (crc16 (dataLen :: rest))) := by
    unfold verify crcCoveredRange
    simp only [hframe, hslice, hhigh, hlow]
    exact if_pos hcrc
  rw [decode_append, decode_of_whole hmax hwhole, hverify]
  intro needed hneeded
  rw [decode_of_whole hmax hwhole, hverify] at hneeded
  cases hneeded

/-- Errors with none in the first byte are short without it. -/
theorem IsShort.tail {errors : List UInt8} (h : IsShort (0 :: errors)) : IsShort errors := by
  have hbits : Gf2.ofBits (bitsOf (0 :: errors)) = Gf2.ofBits (bitsOf errors) := by
    rw [bits_of_cons, Gf2.of_bits_append, of_bits_byte_bits]
    simp
  rw [IsShort, hbits] at h
  exact h

theorem exists_append_pair {bytes : List UInt8} {count : Nat} (h : bytes.length = count + 2) :
    ∃ front high low, bytes = front ++ [high, low] ∧ front.length = count := by
  have hback : (bytes.drop count).length = 2 := by
    rw [List.length_drop]
    omega
  obtain ⟨high, low, hpair⟩ := List.length_eq_two.mp hback
  refine ⟨bytes.take count, high, low, ?_, ?_⟩
  · rw [← hpair, List.take_append_drop]
  · rw [List.length_take]
    omega

/-- What a frame's checksum covers behind the length byte. -/
def ReaderFrame.body (frame : ReaderFrame) : List UInt8 :=
  frame.response.opcode :: highByte frame.response.status :: lowByte frame.response.status ::
    frame.response.data

/-- A frame with a burst of errors behind its length byte is rejected for its checksum. -/
theorem decode_corrupt (frame : ReaderFrame) {errors : List UInt8}
    (hlength : errors.length = frame.bytes.length) (hhead : errors.take 2 = [0, 0])
    (hburst : Gf2.IsBurst 16 (bitsOf errors)) (more : List UInt8) :
    ∃ declared computed, decode (corrupt frame.bytes errors ++ more) =
      .error (.badCrc declared computed) := by
  have hbytes : frame.bytes = soh :: UInt8.ofNat frame.response.data.length ::
      (frame.body ++ frame.checksum) := rfl
  have hbody : frame.body.length = frame.response.data.length + 3 := rfl
  obtain ⟨middle, hmiddle⟩ : ∃ middle, errors = 0 :: 0 :: middle := by
    refine ⟨errors.drop 2, ?_⟩
    have hsplit := List.take_append_drop 2 errors
    rw [hhead] at hsplit
    exact hsplit.symm
  have hcount : middle.length = frame.body.length + 2 := by
    rw [hmiddle, hbytes] at hlength
    simpa [ReaderFrame.checksum] using hlength
  -- the errors behind the length byte, and those in the checksum
  obtain ⟨inside, high', low', hinside, hsame⟩ := exists_append_pair hcount
  have hshort : IsShort (0 :: inside ++ [high', low']) := by
    have hshort : IsShort errors := hburst.exists_shift
    rw [hmiddle, hinside] at hshort
    exact hshort.tail
  have hcheck : beU16 (highByte (crc16 frame.covered)) (lowByte (crc16 frame.covered)) =
      crc16 frame.covered := be_u16_bytes _
  have hinner : (0 :: inside).length = frame.covered.length := congrArg Nat.succ hsame
  have hne := crc16_corrupt_ne hcheck hinner hshort
  have hcovered : corrupt frame.covered (0 :: inside) =
      UInt8.ofNat frame.response.data.length :: corrupt frame.body inside := by
    have hxor : UInt8.ofNat frame.response.data.length ^^^ 0 =
        UInt8.ofNat frame.response.data.length := UInt8.xor_zero
    show (_ ^^^ 0) :: corrupt frame.body inside = _
    rw [hxor]
  have hcorrupt : corrupt frame.bytes errors = soh :: UInt8.ofNat frame.response.data.length ::
      (corrupt frame.body inside ++ [highByte (crc16 frame.covered) ^^^ high',
        lowByte (crc16 frame.covered) ^^^ low']) := by
    rw [hmiddle, hinside, hbytes, corrupt_cons, corrupt_cons, UInt8.xor_zero, UInt8.xor_zero,
      corrupt, List.zipWith_append hsame.symm]
    rfl
  rw [hcovered] at hne
  rw [hcorrupt]
  have hfits := frame.fits
  have hmax : (UInt8.ofNat frame.response.data.length).toNat ≤ maxResponseDataLen := by
    rw [to_nat_length_byte]
    exact hfits
  have hrest : (corrupt frame.body inside).length =
      (UInt8.ofNat frame.response.data.length).toNat + 3 := by
    rw [to_nat_length_byte, corrupt, List.length_zipWith, hsame, Nat.min_self, hbody]
  exact ⟨_, _, decode_of_bad_crc hmax hrest hne more⟩

/-- The checksum is the remainder by the generator, of any bytes. So any burst of at most sixteen
bits in bytes and the checksum behind them is noticed, and decoding notices it in a frame. -/
theorem bursts_are_detected :
    (∀ bytes, wordPoly (crc16 bytes) =
      (wordPoly init * X ^ (8 * bytes.length) + Gf2.ofBits (bitsOf bytes)) %ₘ generator) ∧
    (∀ (covered errors : List UInt8) (high low high' low' : UInt8),
      beU16 high low = crc16 covered → errors.length = covered.length →
      Gf2.IsBurst 16 (bitsOf (errors ++ [high', low'])) →
        beU16 (high ^^^ high') (low ^^^ low') ≠ crc16 (corrupt covered errors)) ∧
    ∀ (frame : ReaderFrame) (errors more : List UInt8), errors.length = frame.bytes.length →
      errors.take 2 = [0, 0] → Gf2.IsBurst 16 (bitsOf errors) →
        ∃ declared computed, decode (corrupt frame.bytes errors ++ more) =
          .error (.badCrc declared computed) := by
  refine ⟨word_poly_crc16, ?_, ?_⟩
  · intro covered errors high low high' low' hcheck hlength hburst
    exact crc16_corrupt_ne hcheck hlength hburst.exists_shift
  · intro frame errors more hlength hhead hburst
    exact decode_corrupt frame hlength hhead hburst more

/-- A response without data, and an error of sixteen bits from its status into its checksum. -/
theorem burst_across_the_checksum :
    ∃ declared computed,
      decode (corrupt (ReaderFrame.bytes ⟨⟨0x22, 0, []⟩, by decide⟩) [0, 0, 0, 0, 1, 0xFF, 0x82] ++
        []) = .error (.badCrc declared computed) := by
  refine bursts_are_detected.2.2 _ _ _ (by decide) (by decide) ?_
  exact ⟨39, List.replicate 10 true ++ [false, false, false, false, false, true], 1, by decide,
    by decide, by decide⟩

end Splitforge.Thingmagic
