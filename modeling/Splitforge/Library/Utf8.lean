import Mathlib.Data.Bool.AllAny
import Mathlib.Data.List.Basic

/-!
# UTF-8 over lists of bytes

Byte lists that are valid UTF-8, and the encoding of strings as byte lists. Both rest on the
core library's encoding of characters.
-/

namespace Splitforge.Library.Utf8

/-- The bytes are the UTF-8 encoding of some text. -/
def Valid (bytes : List UInt8) : Prop := bytes.toByteArray.IsValidUTF8

instance (bytes : List UInt8) : Decidable (Valid bytes) :=
  inferInstanceAs (Decidable bytes.toByteArray.IsValidUTF8)

/-- The UTF-8 encoding of a string. -/
def encode (text : String) : List UInt8 := text.toList.flatMap String.utf8EncodeChar

/-- The string some bytes encode, when they are valid. -/
def decode (bytes : List UInt8) : Option String :=
  if h : Valid bytes then some (String.fromUTF8 bytes.toByteArray h) else none

theorem to_byte_array_encode (text : String) : (encode text).toByteArray = text.toByteArray :=
  String.utf8Encode_toList

theorem valid_encode (text : String) : Valid (encode text) := by
  rw [Valid, to_byte_array_encode]
  exact text.isValidUTF8

/-- Every string is what its encoding decodes to. -/
@[simp]
theorem decode_encode (text : String) : decode (encode text) = some text := by
  rw [decode, dif_pos (valid_encode text)]
  congr 1
  exact String.toByteArray_inj.mp (to_byte_array_encode text)

/-- Valid bytes are what the string they decode to encodes to. -/
theorem encode_decode {bytes : List UInt8} (h : Valid bytes) :
    encode ((decode bytes).getD "") = bytes := by
  rw [decode, dif_pos h, Option.getD_some, ← List.toByteArray_inj, to_byte_array_encode]
  rfl

theorem Valid.append {first second : List UInt8} (hfirst : Valid first)
    (hsecond : Valid second) : Valid (first ++ second) := by
  rw [Valid, List.toByteArray_append]
  exact ByteArray.IsValidUTF8.append hfirst hsecond

/-- Bytes below 128 are one-byte characters. -/
theorem valid_of_ascii {bytes : List UInt8} (h : ∀ byte ∈ bytes, byte.toNat < 128) :
    Valid bytes := by
  induction bytes with
  | nil => exact valid_encode ""
  | cons byte rest ih =>
      have hbyte := h byte List.mem_cons_self
      have hone : [byte] = encode (String.singleton (Char.ofNat byte.toNat)) := by
        have hvalid : byte.toNat.isValidChar := Or.inl (by omega)
        have hchar : (Char.ofNat byte.toNat).val.toNat = byte.toNat := by
          rw [Char.ofNat, dif_pos hvalid]
          rfl
        simp [encode, String.utf8EncodeChar, hchar, show byte.toNat ≤ 127 by omega]
      have hrest := ih fun other hother => h other (List.mem_cons_of_mem _ hother)
      exact (hone ▸ valid_encode _ : Valid [byte]).append hrest

end Splitforge.Library.Utf8
