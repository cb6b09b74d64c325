import Splitforge.Library.Utf8
import Mathlib.Data.Nat.Digits.Defs
import Mathlib.Data.List.Basic

/-!
# Hexadecimal text

Fixed-width numerals and byte strings written in lowercase hexadecimal, and readers that take
digits of either case. Each writer has a round trip with its reader.
-/

namespace Splitforge.Library.Hex

/-- The sixteen digits a writer uses. -/
def alphabet : List Char := "0123456789abcdef".toList

/-- The digit for a value below sixteen. -/
def digit (value : Nat) : Char := alphabet.getD value '0'

/-- The value of a digit of either case. -/
def digitValue (char : Char) : Option Nat :=
  if '0' ≤ char ∧ char ≤ '9' then some (char.toNat - 48)
  else if 'a' ≤ char ∧ char ≤ 'f' then some (char.toNat - 87)
  else if 'A' ≤ char ∧ char ≤ 'F' then some (char.toNat - 55)
  else none

/-- A written digit reads back as its value. -/
theorem digit_value_digit : ∀ value < 16, digitValue (digit value) = some value := by
  decide

/-- Only digits of the alphabet are written. -/
theorem digit_mem_alphabet : ∀ value < 16, digit value ∈ alphabet := by
  decide

/-- The `width` low hexadecimal digits of a number, most significant first. -/
def ofNat : Nat → Nat → List Char
  | 0, _ => []
  | width + 1, number => ofNat width (number / 16) ++ [digit (number % 16)]

/-- Reads digits on from the number read so far. -/
def readFrom (number : Nat) : List Char → Option Nat
  | [] => some number
  | char :: rest => (digitValue char).bind fun value => readFrom (16 * number + value) rest

/-- Reads a text of hexadecimal digits as a number. -/
def toNat (text : List Char) : Option Nat := readFrom 0 text

@[simp]
theorem length_of_nat (width number : Nat) : (ofNat width number).length = width := by
  induction width generalizing number with
  | zero => rfl
  | succ width ih => simp [ofNat, ih]

theorem read_from_append (number : Nat) (first second : List Char) :
    readFrom number (first ++ second) =
      (readFrom number first).bind fun middle => readFrom middle second := by
  induction first generalizing number with
  | nil => rfl
  | cons char rest ih => cases h : digitValue char <;> simp [readFrom, h, ih]

/-- A numeral wide enough for its number reads back as that number. -/
theorem to_nat_of_nat {width number : Nat} (h : number < 16 ^ width) :
    toNat (ofNat width number) = some number := by
  unfold toNat
  induction width generalizing number with
  | zero => simp_all [ofNat, readFrom]
  | succ width ih =>
      have hdiv : number / 16 < 16 ^ width := by
        rw [Nat.div_lt_iff_lt_mul (by decide)]
        simpa [Nat.pow_succ] using h
      rw [ofNat, read_from_append, ih hdiv, Option.bind_some]
      simp [readFrom, digit_value_digit _ (Nat.mod_lt number (by decide)), Nat.div_add_mod]

/-- Two lowercase digits for each byte. -/
def encode : List UInt8 → List Char
  | [] => []
  | byte :: rest => digit (byte.toNat / 16) :: digit (byte.toNat % 16) :: encode rest

/-- Reads pairs of digits as bytes; an odd digit or any other character is refused. -/
def decode : List Char → Option (List UInt8)
  | [] => some []
  | [_] => none
  | high :: low :: rest => do
      let high ← digitValue high
      let low ← digitValue low
      let bytes ← decode rest
      pure (UInt8.ofNat (16 * high + low) :: bytes)

@[simp]
theorem decode_encode (bytes : List UInt8) : decode (encode bytes) = some bytes := by
  induction bytes with
  | nil => rfl
  | cons byte rest ih =>
      have hbyte := byte.toNat_lt
      have hhigh := digit_value_digit (byte.toNat / 16) (by omega)
      have hlow := digit_value_digit (byte.toNat % 16) (by omega)
      have hjoin : UInt8.ofNat (16 * (byte.toNat / 16) + byte.toNat % 16) = byte := by
        rw [Nat.div_add_mod, UInt8.ofNat_toNat]
      simp only [encode, decode, hhigh, hlow, ih, Option.bind_eq_bind, Option.bind_some, hjoin,
        Option.pure_def]

@[simp]
theorem length_encode (bytes : List UInt8) : (encode bytes).length = 2 * bytes.length := by
  induction bytes with
  | nil => rfl
  | cons byte rest ih => simp only [encode, List.length_cons, ih]; omega

/-- Every character written for a byte string is in the alphabet. -/
theorem mem_alphabet_of_mem_encode {bytes : List UInt8} {char : Char}
    (h : char ∈ encode bytes) : char ∈ alphabet := by
  induction bytes with
  | nil => simp [encode] at h
  | cons byte rest ih =>
      have hbyte := byte.toNat_lt
      rcases List.mem_cons.mp h with rfl | h
      · exact digit_mem_alphabet _ (by omega)
      rcases List.mem_cons.mp h with rfl | h
      · exact digit_mem_alphabet _ (by omega)
      · exact ih h

/-- Two uppercase digits for each byte. -/
def encodeUpper (bytes : List UInt8) : List Char :=
  (encode bytes).map Char.toUpper

/-- Pairs of digits are read the same in uppercase. -/
theorem decode_encode_upper (bytes : List UInt8) : decode (encodeUpper bytes) = some bytes := by
  have hupper : ∀ value < 16, digitValue (digit value).toUpper = some value := by decide
  induction bytes with
  | nil => rfl
  | cons byte rest ih =>
      have hbyte := byte.toNat_lt
      have hhigh := hupper (byte.toNat / 16) (by omega)
      have hlow := hupper (byte.toNat % 16) (by omega)
      have hjoin : UInt8.ofNat (16 * (byte.toNat / 16) + byte.toNat % 16) = byte := by
        rw [Nat.div_add_mod, UInt8.ofNat_toNat]
      rw [encodeUpper] at ih ⊢
      simp only [encode, List.map_cons, decode, hhigh, hlow, ih, Option.bind_eq_bind,
        Option.bind_some, hjoin, Option.pure_def]

/-- Different bytes have different uppercase digits. -/
theorem encode_upper_injective : Function.Injective encodeUpper := by
  intro bytes bytes' h
  have hdecode := congrArg decode h
  rw [decode_encode_upper, decode_encode_upper] at hdecode
  exact Option.some.inj hdecode

/-- The bytes of the sixteen digits. -/
def digitBytes : List UInt8 := Utf8.encode "0123456789abcdef"

/-- Written digits are one byte each. -/
theorem length_utf8_encode (bytes : List UInt8) :
    (Utf8.encode (String.ofList (encode bytes))).length = 2 * bytes.length := by
  have hone : ∀ char ∈ alphabet, (String.utf8EncodeChar char).length = 1 :=
    List.all_iff_forall_prop.mp (by decide)
  have hmap : (encode bytes).map (fun char => (String.utf8EncodeChar char).length) =
      (encode bytes).map fun _ => 1 :=
    List.map_congr_left fun char hchar => hone char (mem_alphabet_of_mem_encode hchar)
  rw [Utf8.encode, String.toList_ofList, List.length_flatMap, hmap]
  simp

/-- The bytes of written digits are digits. -/
theorem mem_digit_bytes_of_mem_utf8_encode {bytes : List UInt8} {byte : UInt8}
    (h : byte ∈ Utf8.encode (String.ofList (encode bytes))) : byte ∈ digitBytes := by
  have hall : ∀ char ∈ alphabet, String.utf8EncodeChar char ⊆ digitBytes :=
    List.all_iff_forall_prop.mp (by decide)
  rw [Utf8.encode, String.toList_ofList] at h
  obtain ⟨char, hchar, hbyte⟩ := List.mem_flatMap.mp h
  exact hall char (mem_alphabet_of_mem_encode hchar) hbyte

end Splitforge.Library.Hex
