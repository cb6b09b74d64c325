import Mathlib.Algebra.GroupWithZero.Nat
import Mathlib.Data.Char
import Mathlib.Data.List.Lex

/-!
# Decimal text

Numbers written in decimal digits, as they stand or padded with zeros to a width, read back and
compared as text. Texts of one length compare as their numbers do. Of texts of different lengths
with the same mark behind them, the longer one is cut to the length of the other first.
-/

namespace Splitforge.Library

/-- Every character is a decimal digit. -/
def AllDigits (text : List Char) : Prop := ∀ c ∈ text, c.isDigit = true

/-- The number that a text of digits writes. -/
def digitsValue (text : List Char) : Nat := Nat.ofDigitChars 10 text 0

/-- A number in decimal, with zeros in front up to a width. -/
def padded (width number : Nat) : List Char :=
  List.replicate (width - (Nat.toDigits 10 number).length) '0' ++ Nat.toDigits 10 number

variable {text text' rest rest' : List Char} {number number' width : Nat}

theorem all_digits_to_digits : AllDigits (Nat.toDigits 10 number) :=
  fun _ hmem => Nat.isDigit_of_mem_toDigits (by omega) (by omega) hmem

theorem all_digits_padded : AllDigits (padded width number) := by
  intro c hmem
  rcases List.mem_append.mp hmem with hzero | hdigit
  · rw [(List.mem_replicate.mp hzero).2]
    rfl
  · exact all_digits_to_digits c hdigit

theorem length_padded (h : (Nat.toDigits 10 number).length ≤ width) :
    (padded width number).length = width := by
  rw [padded, List.length_append, List.length_replicate]
  omega

/-- A number below a power of ten takes that many digits. -/
theorem length_padded_of_lt (hwidth : 0 < width) (h : number < 10 ^ width) :
    (padded width number).length = width :=
  length_padded ((Nat.length_toDigits_le_iff (by omega) hwidth).mpr h)

@[simp] theorem digits_value_to_digits : digitsValue (Nat.toDigits 10 number) = number :=
  Nat.ofDigitChars_ten_toDigits

@[simp] theorem digits_value_padded : digitsValue (padded width number) = number := by
  rw [digitsValue, padded, Nat.ofDigitChars_append, Nat.ofDigitChars_replicate_zero,
    Nat.mul_zero]
  exact Nat.ofDigitChars_ten_toDigits

theorem digits_value_cons (c : Char) :
    digitsValue (c :: text) = 10 ^ text.length * (c.toNat - 48) + digitsValue text := by
  rw [digitsValue, Nat.ofDigitChars_cons, Nat.ofDigitChars_eq_ofDigitChars_zero]
  simp [digitsValue]

theorem digits_value_append :
    digitsValue (text ++ rest) = 10 ^ rest.length * digitsValue text + digitsValue rest := by
  rw [digitsValue, Nat.ofDigitChars_append, Nat.ofDigitChars_eq_ofDigitChars_zero]
  rfl

theorem is_digit_iff {c : Char} : c.isDigit = true ↔ 48 ≤ c.toNat ∧ c.toNat ≤ 57 :=
  Char.isDigit_iff_toNat

theorem digits_value_lt (h : AllDigits text) : digitsValue text < 10 ^ text.length := by
  induction text with
  | nil => exact Nat.one_pos
  | cons c text ih =>
      have hrest := ih fun c hmem => h c (List.mem_cons_of_mem _ hmem)
      obtain ⟨-, hnine⟩ := is_digit_iff.mp (h c (List.mem_cons_self ..))
      rw [digits_value_cons, List.length_cons, Nat.pow_succ]
      have hdigit : 10 ^ text.length * (c.toNat - 48) ≤ 10 ^ text.length * 9 :=
        Nat.mul_le_mul_left _ (by omega)
      omega

/-- Of numbers by a leading digit and a rest below its weight, the digit decides first. -/
theorem leading_lt_iff {weight digit digit' low low' : Nat} (hlow : low < weight)
    (hlow' : low' < weight) :
    weight * digit + low < weight * digit' + low' ↔
      digit < digit' ∨ digit = digit' ∧ low < low' := by
  constructor
  · intro h
    rcases Nat.lt_trichotomy digit digit' with hlt | heq | hgt
    · exact Or.inl hlt
    · subst heq
      exact Or.inr ⟨rfl, by omega⟩
    · have hmul : weight * (digit' + 1) ≤ weight * digit := Nat.mul_le_mul_left _ hgt
      rw [Nat.mul_add] at hmul
      omega
  · intro h
    rcases h with hlt | ⟨heq, hlt⟩
    · have hmul : weight * (digit + 1) ≤ weight * digit' := Nat.mul_le_mul_left _ hlt
      rw [Nat.mul_add] at hmul
      omega
    · subst heq
      omega

/-- The first digits of a text write the number without its last digits. -/
theorem digits_value_take (h : AllDigits text) (count : Nat) :
    digitsValue (text.take count) = digitsValue text / 10 ^ (text.length - count) := by
  have hdrop : digitsValue (text.drop count) < 10 ^ (text.drop count).length :=
    digits_value_lt fun c hmem => h c (List.mem_of_mem_drop hmem)
  have hvalue : digitsValue text =
      10 ^ (text.drop count).length * digitsValue (text.take count) +
        digitsValue (text.drop count) := by
    rw [← digits_value_append, List.take_append_drop]
  rw [List.length_drop] at hvalue hdrop
  rw [hvalue, Nat.mul_add_div (Nat.pow_pos (by omega)), Nat.div_eq_of_lt hdrop, Nat.add_zero]

/-! ## Digits as text -/

/-- Texts with fronts of one length compare by the fronts first. -/
theorem append_lt_append_iff {α : Type} [LT α] {front front' back back' : List α}
    (hlength : front.length = front'.length) :
    front ++ back < front' ++ back' ↔ front < front' ∨ front = front' ∧ back < back' := by
  induction front generalizing front' with
  | nil =>
      rw [List.length_nil] at hlength
      rw [List.eq_nil_of_length_eq_zero hlength.symm]
      simp
  | cons x front ih =>
      cases front' with
      | nil => cases hlength
      | cons x' front' =>
          rw [List.cons_append, List.cons_append, List.cons_lt_cons_iff,
            ih (Nat.succ.inj hlength), List.cons_lt_cons_iff, List.cons.injEq]
          tauto

/-- Digits of one length compare as text as they do as numbers. -/
theorem digits_lt_iff (hdigits : AllDigits text) (hdigits' : AllDigits text')
    (hlength : text.length = text'.length) :
    text < text' ↔ digitsValue text < digitsValue text' := by
  induction text generalizing text' with
  | nil =>
      rw [List.length_nil] at hlength
      rw [List.eq_nil_of_length_eq_zero hlength.symm]
      simp
  | cons c text ih =>
      cases text' with
      | nil => cases hlength
      | cons c' text' =>
          have hlength : text.length = text'.length := Nat.succ.inj hlength
          have htext : AllDigits text := fun c hmem => hdigits c (List.mem_cons_of_mem _ hmem)
          have htext' : AllDigits text' := fun c hmem => hdigits' c (List.mem_cons_of_mem _ hmem)
          obtain ⟨hzero, -⟩ := is_digit_iff.mp (hdigits c (List.mem_cons_self ..))
          obtain ⟨hzero', -⟩ := is_digit_iff.mp (hdigits' c' (List.mem_cons_self ..))
          have hchar : c < c' ↔ c.toNat - 48 < c'.toNat - 48 := by
            show c.toNat < c'.toNat ↔ _
            omega
          have heq : c = c' ↔ c.toNat - 48 = c'.toNat - 48 := by
            rw [← Char.toNat_inj]
            omega
          rw [List.cons_lt_cons_iff, ih htext htext' hlength, digits_value_cons,
            digits_value_cons, ← hlength, hchar, heq,
            leading_lt_iff (digits_value_lt htext) (hlength ▸ digits_value_lt htext')]

/-- Numbers padded to one width compare as text as they do as numbers. -/
theorem padded_lt_iff (hwidth : 0 < width) (h : number < 10 ^ width) (h' : number' < 10 ^ width) :
    padded width number < padded width number' ↔ number < number' := by
  have hlength : (padded width number).length = (padded width number').length := by
    rw [length_padded_of_lt hwidth h, length_padded_of_lt hwidth h']
  rw [digits_lt_iff all_digits_padded all_digits_padded hlength, digits_value_padded,
    digits_value_padded]

theorem padded_inj : padded width number = padded width number' ↔ number = number' := by
  refine ⟨?_, congrArg (padded width)⟩
  intro h
  have hvalue := congrArg digitsValue h
  rwa [digits_value_padded, digits_value_padded] at hvalue

/-- Behind digits, a mark that is above every digit makes the shorter text compare with as many
digits of the longer one, and stand behind it when these are its own. -/
theorem digits_mark_lt_iff {mark : Char} (hmark : '9' < mark) (hdigits' : AllDigits text')
    (hle : text.length ≤ text'.length) (hne : text ≠ text') :
    text ++ mark :: rest < text' ++ mark :: rest' ↔ text < text'.take text.length := by
  have hlength : text.length = (text'.take text.length).length := by
    rw [List.length_take]
    omega
  have hsplit : text' ++ mark :: rest' =
      text'.take text.length ++ (text'.drop text.length ++ mark :: rest') := by
    rw [← List.append_assoc, List.take_append_drop]
  rw [hsplit, append_lt_append_iff hlength]
  refine ⟨?_, Or.inl⟩
  intro h
  rcases h with hlt | ⟨htake, hmarked⟩
  · exact hlt
  · exfalso
    cases hdrop : text'.drop text.length with
    | nil =>
        have hwhole : text'.take text.length ++ text'.drop text.length = text' :=
          List.take_append_drop ..
        rw [hdrop, List.append_nil, ← htake] at hwhole
        exact hne hwhole
    | cons c drop =>
        have hmem : c ∈ text' := List.mem_of_mem_drop (hdrop ▸ List.mem_cons_self ..)
        have hdigit : c ≤ '9' := by
          obtain ⟨-, hnine⟩ := is_digit_iff.mp (hdigits' c hmem)
          exact hnine
        rw [hdrop, List.cons_append, List.cons_lt_cons_iff] at hmarked
        rcases hmarked with hlt | ⟨heq, -⟩
        · exact absurd (lt_of_lt_of_le (lt_trans hmark hlt) hdigit) (lt_irrefl _)
        · rw [heq] at hmark
          exact absurd (lt_of_lt_of_le hmark hdigit) (lt_irrefl _)

/-! ## Reading digits -/

/-- `str::parse` of an unsigned integer below a bound: digits, behind a plus sign or none. -/
def parseUnsigned (bound : Nat) (text : List Char) : Option Nat :=
  let digits := match text with
    | '+' :: digits => digits
    | digits => digits
  if digits ≠ [] ∧ digits.all Char.isDigit ∧ digitsValue digits < bound then
    some (digitsValue digits)
  else none

/-- A number of exactly so many digits, and what follows. -/
def takeDigits (width : Nat) (text : List Char) : Option (Nat × List Char) :=
  if (text.take width).length = width ∧ (text.take width).all Char.isDigit then
    some (digitsValue (text.take width), text.drop width)
  else none

/-- Digits below the bound are read as the number they write. -/
theorem parse_unsigned_digits {bound : Nat} (hdigits : AllDigits text) (hne : text ≠ [])
    (hbound : digitsValue text < bound) : parseUnsigned bound text = some (digitsValue text) := by
  have hall : text.all Char.isDigit = true := List.all_eq_true.mpr hdigits
  cases text with
  | nil => exact absurd rfl hne
  | cons c text =>
      have hplus : c ≠ '+' := by
        intro heq
        have hdigit := hdigits c (List.mem_cons_self ..)
        rw [heq] at hdigit
        cases hdigit
      unfold parseUnsigned
      dsimp only
      split
      · next heq =>
          injection heq with heq _
          exact absurd heq hplus
      · rw [if_pos ⟨hne, hall, hbound⟩]

/-- A padded number of that width is read from in front of anything. -/
theorem take_digits_padded (hwidth : 0 < width) (h : number < 10 ^ width) :
    takeDigits width (padded width number ++ rest) = some (number, rest) := by
  have hlength := length_padded_of_lt hwidth h
  have htake : (padded width number ++ rest).take width = padded width number :=
    List.take_left' hlength
  have hdrop : (padded width number ++ rest).drop width = rest := List.drop_left' hlength
  have hall : (padded width number).all Char.isDigit = true :=
    List.all_eq_true.mpr all_digits_padded
  rw [takeDigits, htake, hdrop, if_pos ⟨hlength, hall⟩, digits_value_padded]

end Splitforge.Library
