import Splitforge.Library.Utf8
import Splitforge.Library.Hex
import Mathlib.Data.UInt

/-!
# Compact JSON over bytes

`scan` is the token structure every JSON text has: outside strings only white space,
punctuation, and the bytes of numbers and of `true`, `false` and `null` can stand. A `Form` is a
writer of one kind of value with a reader that takes its own output back, and `Members` puts
named values in a fixed order into an object. Readers are strict: they take what the writers
write, without white space and with members in order.
-/

namespace Splitforge.Library.Json

/-- Where a scan of a JSON text stands. -/
inductive Place where
  | outside | text | escape
deriving DecidableEq

/-- The bytes a JSON text can hold outside its strings, quotation marks apart. -/
def outsideBytes : List UInt8 := Utf8.encode " \t\n\r\x7b\x7d[]:,0123456789+-.eEtrufalsn"

/-- The bytes that can follow a backslash. -/
def escapeBytes : List UInt8 := Utf8.encode "\"\\/bfnrtu"

/-- The quotation mark. -/
def quote : UInt8 := 0x22

/-- The backslash. -/
def backslash : UInt8 := 0x5c

/-- One byte of a scan; `none` where no JSON text has that byte. -/
def next : Place → UInt8 → Option Place
  | .outside, byte =>
      if byte = quote then some .text
      else if byte ∈ outsideBytes then some .outside else none
  | .text, byte =>
      if byte = quote then some .outside
      else if byte = backslash then some .escape
      else if byte < 0x20 then none else some .text
  | .escape, byte => if byte ∈ escapeBytes then some .text else none

/-- A scan of a text from a place. -/
def scan : Place → List UInt8 → Option Place
  | place, [] => some place
  | place, byte :: rest => (next place byte).bind fun place' => scan place' rest

theorem scan_append (place : Place) (first second : List UInt8) :
    scan place (first ++ second) =
      (scan place first).bind fun place' => scan place' second := by
  induction first generalizing place with
  | nil => rfl
  | cons byte rest ih => cases h : next place byte <;> simp [scan, h, ih]

/-- The bytes a written value can end before: the next member's comma, or the closing brace. -/
def IsStop (byte : UInt8) : Prop := byte = 0x2c ∨ byte = 0x7d

/-- Written text that keeps a JSON text whole: it scans from outside to outside, is UTF-8, and
has no control byte. -/
structure Clean (bytes : List UInt8) : Prop where
  scans : scan .outside bytes = some .outside
  valid : Utf8.Valid bytes
  noControl : ∀ byte ∈ bytes, 0x20 ≤ byte

theorem Clean.append {first second : List UInt8} (hfirst : Clean first)
    (hsecond : Clean second) : Clean (first ++ second) where
  scans := by rw [scan_append, hfirst.scans]; exact hsecond.scans
  valid := hfirst.valid.append hsecond.valid
  noControl byte h := (List.mem_append.mp h).elim (hfirst.noControl byte) (hsecond.noControl byte)

/-- Digits, minus signs, punctuation and the word `null` are clean. -/
theorem clean_of_outside {bytes : List UInt8}
    (h : bytes.all fun byte => byte ∈ outsideBytes ∧ 0x20 ≤ byte) : Clean bytes := by
  rw [List.all_iff_forall_prop] at h
  refine ⟨?_, Utf8.valid_of_ascii fun byte hbyte => ?_, fun byte hbyte => (h byte hbyte).2⟩
  · induction bytes with
    | nil => rfl
    | cons byte rest ih =>
        have hbyte := (h byte List.mem_cons_self).1
        have hquote : byte ≠ quote := by
          rintro rfl
          exact absurd hbyte (by decide)
        rw [scan, next, if_neg hquote, if_pos hbyte, Option.bind_some]
        exact ih fun other hother => h other (List.mem_cons_of_mem _ hother)
  · have hall : ∀ byte ∈ outsideBytes, byte.toNat < 128 :=
      List.all_iff_forall_prop.mp (by decide)
    exact hall byte (h byte hbyte).1

/-- A kind of value: its writer, and a reader that takes the writer's text back from in front
of whatever follows a value. -/
structure Form (α : Type) where
  write : α → List UInt8
  read : List UInt8 → Option (α × List UInt8)
  read_write : ∀ value stop rest, IsStop stop →
    read (write value ++ stop :: rest) = some (value, stop :: rest)
  clean : ∀ value, Clean (write value)

/-! ## Strings -/

/-- The letter of the short escape of a byte that has one. -/
def shortEscape (byte : UInt8) : Option UInt8 :=
  if byte = 0x22 then some 0x22
  else if byte = 0x5c then some 0x5c
  else if byte = 0x08 then some 0x62
  else if byte = 0x0c then some 0x66
  else if byte = 0x0a then some 0x6e
  else if byte = 0x0d then some 0x72
  else if byte = 0x09 then some 0x74
  else none

/-- The byte a short escape's letter stands for. -/
def shortUnescape (letter : UInt8) : Option UInt8 :=
  if letter = 0x22 then some 0x22
  else if letter = 0x5c then some 0x5c
  else if letter = 0x62 then some 0x08
  else if letter = 0x66 then some 0x0c
  else if letter = 0x6e then some 0x0a
  else if letter = 0x72 then some 0x0d
  else if letter = 0x74 then some 0x09
  else none

/-- A hexadecimal digit as a byte of text. -/
def hexByte (value : Nat) : UInt8 := UInt8.ofNat (Hex.digit value).toNat

/-- One byte of a string as written: itself, a short escape, or `\u00` and two digits. -/
def escapeByte (byte : UInt8) : List UInt8 :=
  match shortEscape byte with
  | some letter => [backslash, letter]
  | none =>
      if byte < 0x20 then
        [backslash, 0x75, 0x30, 0x30, hexByte (byte.toNat / 16), hexByte (byte.toNat % 16)]
      else [byte]

/-- The body of a string as written. -/
def escape (bytes : List UInt8) : List UInt8 := bytes.flatMap escapeByte

/-- Reads a string's body up to its closing quotation mark. -/
def readBody : List UInt8 → Option (List UInt8 × List UInt8)
  | [] => none
  | byte :: rest =>
      if byte = quote then some ([], rest)
      else if byte = backslash then
        match rest with
        | [] => none
        | letter :: rest =>
            if letter = 0x75 then
              match rest with
              -- longer escapes are not written: text outside ASCII stands for itself
              | first :: second :: high :: low :: rest => do
                  guard (first = 0x30 ∧ second = 0x30)
                  let high ← Hex.digitValue (Char.ofNat high.toNat)
                  let low ← Hex.digitValue (Char.ofNat low.toNat)
                  let (body, rest) ← readBody rest
                  pure (UInt8.ofNat (16 * high + low) :: body, rest)
              | _ => none
            else do
              let byte ← shortUnescape letter
              let (body, rest) ← readBody rest
              pure (byte :: body, rest)
      else if byte < 0x20 then none
      else do
        let (body, rest) ← readBody rest
        pure (byte :: body, rest)

/-- A short escape is not the letter `u` and stands for its own byte. -/
theorem short_unescape_of_short_escape {byte letter : UInt8}
    (h : shortEscape byte = some letter) :
    letter ≠ 0x75 ∧ shortUnescape letter = some byte := by
  unfold shortEscape at h
  split_ifs at h with h1 h2 h3 h4 h5 h6 h7 <;> cases h <;> subst_vars <;> decide

theorem digit_value_hex_byte :
    ∀ value < 16, Hex.digitValue (Char.ofNat (hexByte value).toNat) = some value := by
  decide

/-- Reading takes an escaped byte back from in front of any text. -/
theorem read_body_escape_byte (byte : UInt8) (rest : List UInt8) :
    readBody (escapeByte byte ++ rest) =
      (readBody rest).map fun result => (byte :: result.1, result.2) := by
  unfold escapeByte
  cases h : shortEscape byte with
  | some letter =>
      obtain ⟨hletter, hbyte⟩ := short_unescape_of_short_escape h
      rw [readBody.eq_def]
      cases hrest : readBody rest <;> simp [backslash, quote, hletter, hbyte, hrest]
  | none =>
      by_cases hcontrol : byte < 0x20
      · have hlt : byte.toNat < 256 := byte.toNat_lt
        have hhigh := digit_value_hex_byte (byte.toNat / 16) (by omega)
        have hlow := digit_value_hex_byte (byte.toNat % 16) (by omega)
        have hjoin : UInt8.ofNat (16 * (byte.toNat / 16) + byte.toNat % 16) = byte := by
          rw [Nat.div_add_mod, UInt8.ofNat_toNat]
        rw [if_pos hcontrol, readBody.eq_def]
        cases hrest : readBody rest <;>
          simp [backslash, quote, guard, hhigh, hlow, hrest, -UInt8.ofNat_add, hjoin]
      · have hquote : byte ≠ quote := by rintro rfl; exact absurd h (by decide)
        have hbackslash : byte ≠ backslash := by rintro rfl; exact absurd h (by decide)
        rw [if_neg hcontrol, readBody.eq_def]
        cases hrest : readBody rest <;> simp [hquote, hbackslash, hcontrol, hrest]

/-- Reading takes a written body back, up to its closing quotation mark. -/
theorem read_body_escape (bytes rest : List UInt8) :
    readBody (escape bytes ++ quote :: rest) = some (bytes, rest) := by
  induction bytes with
  | nil => rw [readBody.eq_def]; simp [escape]
  | cons byte bytes ih =>
      rw [escape, List.flatMap_cons, List.append_assoc, read_body_escape_byte]
      rw [escape] at ih
      rw [ih, Option.map_some]

/-- A short escape's letter can follow a backslash and is not a control byte. -/
theorem short_escape_mem {byte letter : UInt8} (h : shortEscape byte = some letter) :
    letter ∈ escapeBytes ∧ 0x20 ≤ letter := by
  unfold shortEscape at h
  split_ifs at h <;> cases h <;> decide

/-- A byte of a string that needs no escape keeps a scan inside the string. -/
theorem next_text {byte : UInt8} (hquote : byte ≠ quote) (hbackslash : byte ≠ backslash)
    (hcontrol : 0x20 ≤ byte) : next .text byte = some .text := by
  simp [next, hquote, hbackslash, UInt8.not_lt.mpr hcontrol]

/-- An escaped byte keeps a scan inside its string. -/
theorem scan_escape_byte (byte : UInt8) : scan .text (escapeByte byte) = some .text := by
  unfold escapeByte
  cases h : shortEscape byte with
  | some letter =>
      have hletter : next .escape letter = some .text := if_pos (short_escape_mem h).1
      rw [scan, show next .text backslash = some .escape by decide, Option.bind_some, scan, hletter]
      rfl
  | none =>
      by_cases hcontrol : byte < 0x20
      · have hlt : byte.toNat < 256 := byte.toNat_lt
        have hdigit : ∀ value < 16, next .text (hexByte value) = some .text := by decide
        have hstart : scan .text [backslash, 0x75, 0x30, 0x30] = some .text := by decide
        have happend := scan_append .text [backslash, 0x75, 0x30, 0x30]
          [hexByte (byte.toNat / 16), hexByte (byte.toNat % 16)]
        rw [hstart, Option.bind_some] at happend
        rw [if_pos hcontrol]
        simpa [scan, hdigit (byte.toNat / 16) (by omega), hdigit (byte.toNat % 16) (by omega)]
          using happend
      · have hquote : byte ≠ quote := by rintro rfl; exact absurd h (by decide)
        have hbackslash : byte ≠ backslash := by rintro rfl; exact absurd h (by decide)
        rw [if_neg hcontrol, scan, next_text hquote hbackslash (UInt8.not_lt.mp hcontrol)]
        rfl

/-- No escaped byte is a control byte. -/
theorem le_of_mem_escape_byte {byte written : UInt8} (h : written ∈ escapeByte byte) :
    0x20 ≤ written := by
  unfold escapeByte at h
  cases hshort : shortEscape byte with
  | some letter =>
      simp only [hshort, List.mem_cons, List.not_mem_nil, or_false] at h
      rcases h with rfl | rfl
      · decide
      · exact (short_escape_mem hshort).2
  | none =>
      have hlt : byte.toNat < 256 := byte.toNat_lt
      have hdigit : ∀ value < 16, 0x20 ≤ hexByte value := by decide
      simp only [hshort] at h
      split_ifs at h with hcontrol
      · simp only [List.mem_cons, List.not_mem_nil, or_false] at h
        rcases h with rfl | rfl | rfl | rfl | rfl | rfl
        all_goals first | decide | exact hdigit _ (by omega)
      · rw [List.mem_singleton.mp h]
        exact UInt8.not_lt.mp hcontrol

/-- The bytes of a character outside ASCII are all 128 or more. -/
theorem le_of_mem_utf8_encode_char {char : Char} {byte : UInt8} (hchar : 127 < char.val.toNat)
    (h : byte ∈ String.utf8EncodeChar char) : 128 ≤ byte.toNat := by
  unfold String.utf8EncodeChar at h
  simp only [show ¬ char.val.toNat ≤ 0x7f by omega, if_false] at h
  split_ifs at h <;> simp only [List.mem_cons, List.not_mem_nil, or_false] at h <;>
    rcases h with rfl | rfl | rfl | rfl <;> simp only [UInt8.toNat_ofNat'] <;> omega

/-- Only ASCII bytes are written for an ASCII byte. -/
theorem lt_of_mem_escape_byte {byte written : UInt8} (hbyte : byte.toNat < 128)
    (h : written ∈ escapeByte byte) : written.toNat < 128 := by
  unfold escapeByte at h
  cases hshort : shortEscape byte with
  | some letter =>
      have hletters : ∀ letter ∈ escapeBytes, letter.toNat < 128 :=
        List.all_iff_forall_prop.mp (by decide)
      simp only [hshort, List.mem_cons, List.not_mem_nil, or_false] at h
      rcases h with rfl | rfl
      · decide
      · exact hletters _ (short_escape_mem hshort).1
  | none =>
      have hdigit : ∀ value < 16, (hexByte value).toNat < 128 := by decide
      simp only [hshort] at h
      split_ifs at h
      · simp only [List.mem_cons, List.not_mem_nil, or_false] at h
        rcases h with rfl | rfl | rfl | rfl | rfl | rfl
        all_goals first | decide | exact hdigit _ (by omega)
      · rwa [List.mem_singleton.mp h]

/-- A byte of a character outside ASCII is written as it is. -/
theorem escape_byte_of_le {byte : UInt8} (h : 128 ≤ byte.toNat) : escapeByte byte = [byte] := by
  have hne : ∀ other : UInt8, other.toNat < 128 → byte ≠ other := by
    rintro other hother rfl
    omega
  have hcontrol : ¬ byte < 0x20 := by
    rw [UInt8.lt_iff_toNat_lt]
    exact Nat.not_lt.mpr (le_trans (by decide) h)
  have hshort : shortEscape byte = none := by
    simp only [shortEscape, if_neg (hne 0x22 (by decide)), if_neg (hne 0x5c (by decide)),
      if_neg (hne 0x08 (by decide)), if_neg (hne 0x0c (by decide)), if_neg (hne 0x0a (by decide)),
      if_neg (hne 0x0d (by decide)), if_neg (hne 0x09 (by decide))]
  simp [escapeByte, hshort, hcontrol]

/-- Escaping keeps text valid UTF-8. -/
theorem valid_escape_encode (text : String) : Utf8.Valid (escape (Utf8.encode text)) := by
  rw [Utf8.encode]
  induction text.toList with
  | nil => exact Utf8.valid_encode ""
  | cons char rest ih =>
      rw [List.flatMap_cons, escape, List.flatMap_append]
      refine Utf8.Valid.append ?_ ih
      -- a character in ASCII is escaped within ASCII, and any other is written as it is
      by_cases hchar : char.val.toNat ≤ 127
      · refine Utf8.valid_of_ascii fun written hwritten => ?_
        have hone : String.utf8EncodeChar char = [UInt8.ofNat char.val.toNat] := if_pos hchar
        rw [hone, List.flatMap_cons, List.flatMap_nil, List.append_nil] at hwritten
        refine lt_of_mem_escape_byte ?_ hwritten
        rw [UInt8.toNat_ofNat', Nat.mod_eq_of_lt (by omega)]
        omega
      · have hsame : (String.utf8EncodeChar char).flatMap escapeByte =
            (String.utf8EncodeChar char).flatMap fun byte => [byte] :=
          List.flatMap_congr fun byte hbyte =>
            escape_byte_of_le (le_of_mem_utf8_encode_char (by omega) hbyte)
        rw [hsame, List.flatMap_singleton']
        simpa [Utf8.encode] using Utf8.valid_encode (String.singleton char)

/-- A string of text, in quotation marks. -/
def string : Form String where
  write text := quote :: escape (Utf8.encode text) ++ [quote]
  read
    | [] => none
    | byte :: rest => do
        guard (byte = quote)
        let (bytes, rest) ← readBody rest
        let text ← Utf8.decode bytes
        pure (text, rest)
  read_write text stop rest _ := by
    simp [read_body_escape, guard]
  clean text := by
    have hscan : scan .text (escape (Utf8.encode text)) = some .text := by
      induction Utf8.encode text with
      | nil => rfl
      | cons byte rest ih =>
          rw [escape, List.flatMap_cons, scan_append, scan_escape_byte, Option.bind_some]
          exact ih
    have hquote : ∀ byte ∈ [quote], byte.toNat < 128 := List.forall_mem_singleton.mpr (by decide)
    refine ⟨?_, ?_, fun byte hbyte => ?_⟩
    · rw [List.cons_append, scan, show next .outside quote = some .text by decide,
        Option.bind_some, scan_append, hscan]
      rfl
    · exact ((Utf8.valid_of_ascii hquote).append (valid_escape_encode text)).append
        (Utf8.valid_of_ascii hquote)
    · simp only [List.cons_append, List.mem_cons, List.mem_append, List.not_mem_nil,
        or_false] at hbyte
      rcases hbyte with rfl | hbyte | rfl
      · decide
      · obtain ⟨source, _, hsource⟩ := List.mem_flatMap.mp hbyte
        exact le_of_mem_escape_byte hsource
      · decide

/-! ## Numbers -/

/-- Whether a byte is a decimal digit. -/
def isDigit (byte : UInt8) : Bool := 0x30 ≤ byte && byte ≤ 0x39

/-- A number in decimal, most significant digit first. -/
def decimal (number : Nat) : List UInt8 :=
  if number = 0 then [0x30]
  else ((Nat.digits 10 number).map fun digit => UInt8.ofNat (0x30 + digit)).reverse

/-- The number some decimal digits spell. -/
def ofDecimal (digits : List UInt8) : Nat :=
  Nat.ofDigits 10 (digits.reverse.map fun byte => byte.toNat - 0x30)

theorem is_digit_of_lt : ∀ digit < 10, isDigit (UInt8.ofNat (0x30 + digit)) = true := by decide

theorem of_decimal_decimal (number : Nat) : ofDecimal (decimal number) = number := by
  unfold decimal
  split_ifs with hzero
  · rw [hzero]; rfl
  have hdigit : ∀ digit ∈ Nat.digits 10 number,
      (UInt8.ofNat (0x30 + digit)).toNat - 0x30 = digit := by
    intro digit hdigit
    have hlt : digit < 10 := Nat.digits_lt_base (by decide) hdigit
    rw [UInt8.toNat_ofNat', Nat.mod_eq_of_lt (by omega), Nat.add_sub_cancel_left]
  have hsame : ((Nat.digits 10 number).map fun digit => UInt8.ofNat (0x30 + digit)).map
      (fun byte => byte.toNat - 0x30) = Nat.digits 10 number := by
    rw [List.map_map]
    exact (List.map_congr_left hdigit).trans (List.map_id _)
  rw [ofDecimal, List.reverse_reverse, hsame, Nat.ofDigits_digits]

theorem is_digit_of_mem_decimal {number : Nat} {byte : UInt8} (h : byte ∈ decimal number) :
    isDigit byte = true := by
  unfold decimal at h
  split_ifs at h
  · rw [List.mem_singleton.mp h]; rfl
  · obtain ⟨digit, hdigit, rfl⟩ := List.mem_map.mp (List.mem_reverse.mp h)
    exact is_digit_of_lt digit (Nat.digits_lt_base (by decide) hdigit)

/-- A written number is not empty. -/
theorem decimal_ne_nil (number : Nat) : decimal number ≠ [] := by
  unfold decimal
  split_ifs with hzero
  · exact List.cons_ne_nil _ _
  · simpa [Nat.digits_eq_nil_iff_eq_zero] using hzero

/-- Nothing a value ends before is a digit. -/
theorem is_digit_of_is_stop {byte : UInt8} (h : IsStop byte) : isDigit byte = false := by
  rcases h with rfl | rfl <;> rfl

theorem clean_of_digits {bytes : List UInt8} (h : ∀ byte ∈ bytes, isDigit byte = true) :
    Clean bytes := by
  refine clean_of_outside (List.all_iff_forall_prop.mpr fun byte hbyte => ?_)
  have hall : ∀ digit < 10, UInt8.ofNat (0x30 + digit) ∈ outsideBytes ∧
      0x20 ≤ UInt8.ofNat (0x30 + digit) := by decide
  obtain ⟨hlower, hupper⟩ : 0x30 ≤ byte.toNat ∧ byte.toNat ≤ 0x39 := by
    simpa [isDigit, UInt8.le_iff_toNat_le] using h byte hbyte
  have hbyte := hall (byte.toNat - 0x30) (by omega)
  rwa [Nat.add_sub_cancel' hlower, UInt8.ofNat_toNat] at hbyte

/-- A number that is not negative. -/
def nat : Form Nat where
  write := decimal
  read text :=
    let digits := text.takeWhile isDigit
    if decimal (ofDecimal digits) = digits then some (ofDecimal digits, text.dropWhile isDigit)
    else none
  read_write number stop rest hstop := by
    have hdigits := fun byte => @is_digit_of_mem_decimal number byte
    have htake : (decimal number ++ stop :: rest).takeWhile isDigit = decimal number := by
      rw [List.takeWhile_append_of_pos hdigits,
        List.takeWhile_cons_of_neg (by simp [is_digit_of_is_stop hstop]), List.append_nil]
    have hdrop : (decimal number ++ stop :: rest).dropWhile isDigit = stop :: rest := by
      rw [List.dropWhile_append_of_pos hdigits,
        List.dropWhile_cons_of_neg (by simp [is_digit_of_is_stop hstop])]
    simp only [htake, hdrop, of_decimal_decimal, if_true]
  clean _ := clean_of_digits fun _ => is_digit_of_mem_decimal

/-- The minus sign. -/
def minus : UInt8 := 0x2d

/-- A number with a minus sign when it is negative. -/
def int : Form Int where
  write number := if number < 0 then minus :: nat.write number.natAbs else nat.write number.natAbs
  read
    | [] => none
    | byte :: rest =>
        if byte = minus then do
          let (magnitude, rest) ← nat.read rest
          guard (magnitude ≠ 0)
          pure (-magnitude, rest)
        else (nat.read (byte :: rest)).map fun result => (result.1, result.2)
  read_write number stop rest hstop := by
    have hread := nat.read_write number.natAbs stop rest hstop
    by_cases hnegative : number < 0
    · have hne : number ≠ 0 := by omega
      simp [hnegative, hread, hne, guard, abs_of_neg hnegative]
    · obtain ⟨byte, digits, hdigits⟩ := List.exists_cons_of_ne_nil (decimal_ne_nil number.natAbs)
      have hbyte : byte ≠ minus := by
        rintro rfl
        have hdigit := @is_digit_of_mem_decimal number.natAbs minus (by simp [hdigits])
        exact absurd hdigit (by decide)
      have hwrite : nat.write number.natAbs = byte :: digits := hdigits
      rw [hwrite, List.cons_append] at hread
      rw [if_neg hnegative, hwrite, List.cons_append]
      simp only [if_neg hbyte, hread, Option.map_some]
      rw [Int.natAbs_of_nonneg (by omega)]
  clean number := by
    split_ifs
    · have hminus : Clean [minus] := clean_of_outside (by decide)
      exact hminus.append (nat.clean _)
    · exact nat.clean _

/-! ## Building forms from forms -/

/-- The form of a type whose values are some of another type's. -/
def Form.via {α β : Type} (form : Form β) (into : α → β) (from? : β → Option α)
    (h : ∀ value, from? (into value) = some value) : Form α where
  write value := form.write (into value)
  read text := do
    let (image, rest) ← form.read text
    let value ← from? image
    pure (value, rest)
  read_write value stop rest hstop := by simp [form.read_write _ _ _ hstop, h]
  clean value := form.clean (into value)

/-- The word for an absent value. -/
def null : List UInt8 := Utf8.encode "null"

theorem null_eq : null = [0x6e, 0x75, 0x6c, 0x6c] := by decide

theorem clean_null : Clean null := clean_of_outside (by decide)

/-- A value or `null`. The form's own text must not begin with the letter of `null`. -/
def optional {α : Type} (form : Form α)
    (h : ∀ value, (form.write value).head? ≠ null.head?) : Form (Option α) where
  write
    | none => null
    | some value => form.write value
  read text :=
    if text.head? = null.head? then
      if text.take 4 = null then some (none, text.drop 4) else none
    else (form.read text).map fun result => (some result.1, result.2)
  read_write value stop rest hstop := by
    cases value with
    | none => rfl
    | some value =>
        have hread := form.read_write value stop rest hstop
        have hhead : (form.write value ++ stop :: rest).head? ≠ null.head? := by
          cases hwrite : form.write value with
          | nil =>
              rw [List.nil_append, List.head?_cons]
              rcases hstop with rfl | rfl <;> simp [null_eq]
          | cons byte bytes => simpa [hwrite] using h value
        simp only [if_neg hhead, hread, Option.map_some]
  clean value := by
    cases value with
    | none => exact clean_null
    | some value => exact form.clean value

/-- Takes a fixed text off the front. -/
def strip : List UInt8 → List UInt8 → Option (List UInt8)
  | [], text => some text
  | _ :: _, [] => none
  | expected :: pattern, byte :: text => if byte = expected then strip pattern text else none

@[simp]
theorem strip_append (pattern text : List UInt8) : strip pattern (pattern ++ text) = some text := by
  induction pattern with
  | nil => rfl
  | cons byte pattern ih => simp [strip, ih]

/-- What is left is what stood behind the fixed text. -/
theorem eq_of_strip {pattern text rest : List UInt8} (h : strip pattern text = some rest) :
    text = pattern ++ rest := by
  induction pattern generalizing text with
  | nil => cases h; rfl
  | cons expected pattern ih =>
      cases text with
      | nil => cases h
      | cons byte text =>
          rw [strip] at h
          split_ifs at h with hbyte
          rw [hbyte, ih h, List.cons_append]

/-- The bytes of a member in front of its value. -/
def label (key : String) : List UInt8 := string.write key ++ [0x3a]

/-- A member of an object: a name and its value. -/
def named {α : Type} (key : String) (form : Form α) : Form α where
  write value := label key ++ form.write value
  read text := (strip (label key) text).bind form.read
  read_write value stop rest hstop := by
    rw [List.append_assoc, strip_append, Option.bind_some, form.read_write _ _ _ hstop]
  clean value := by
    have hcolon : Clean [0x3a] := clean_of_outside (by decide)
    exact ((string.clean key).append hcolon).append (form.clean value)

/-- One member after another. -/
def pair {α β : Type} (first : Form α) (second : Form β) : Form (α × β) where
  write value := first.write value.1 ++ 0x2c :: second.write value.2
  read text := do
    let (left, text) ← first.read text
    let text ← strip [0x2c] text
    let (right, text) ← second.read text
    pure ((left, right), text)
  read_write value stop rest hstop := by
    simp [first.read_write _ 0x2c _ (Or.inl rfl), second.read_write _ _ _ hstop, strip]
  clean value := by
    have hcomma : Clean [0x2c] := clean_of_outside (by decide)
    exact (first.clean _).append (hcomma.append (second.clean _))

/-- An object's text from its members' form. -/
def writeObject {α : Type} (members : Form α) (value : α) : List UInt8 :=
  0x7b :: members.write value ++ [0x7d]

/-- Reads a text that is one object and nothing else. -/
def readObject {α : Type} (members : Form α) (text : List UInt8) : Option α := do
  guard (scan .outside text = some .outside)
  let rest ← strip [0x7b] text
  let (value, rest) ← members.read rest
  guard (rest = [0x7d])
  pure value

theorem clean_write_object {α : Type} (members : Form α) (value : α) :
    Clean (writeObject members value) := by
  have hopen : Clean [0x7b] := clean_of_outside (by decide)
  have hclose : Clean [0x7d] := clean_of_outside (by decide)
  exact (hopen.append (members.clean value)).append hclose

/-- An object opens with its first member's name. -/
theorem write_object_opening {α β : Type} (key : String) (form : Form α) (rest : Form β)
    (value : α × β) :
    ∃ tail, writeObject (pair (named key form) rest) value = 0x7b :: label key ++ tail :=
  ⟨form.write value.1 ++ 0x2c :: rest.write value.2 ++ [0x7d], by simp [writeObject, pair, named]⟩

/-- A written object reads back. -/
theorem read_object_write_object {α : Type} (members : Form α) (value : α) :
    readObject members (writeObject members value) = some value := by
  have hread := members.read_write value 0x7d [] (Or.inr rfl)
  have hscan := (clean_write_object members value).scans
  rw [writeObject, List.cons_append] at hscan ⊢
  simp [readObject, hscan, guard, strip, hread]

/-- What reads as an object has the token structure of JSON. -/
theorem scan_of_read_object {α : Type} {members : Form α} {text : List UInt8} {value : α}
    (h : readObject members text = some value) : scan .outside text = some .outside := by
  by_contra hscan
  simp [readObject, hscan, guard] at h

end Splitforge.Library.Json
