import Mathlib.Algebra.Polynomial.FieldDivision
import Mathlib.Algebra.Field.ZMod
import Mathlib.Data.Nat.Bitwise
import Mathlib.Data.Nat.Size
import Mathlib.RingTheory.PrincipalIdealDomain
import Mathlib.Tactic.Ring

/-!
# Bits as polynomials

A number, or a text of bits, is a polynomial over the field of two elements, and an exclusive-or
is a sum. A check that keeps a message's remainder by a polynomial detects every burst of errors
that is not longer than the polynomial's degree: also one that reaches from the message into the
remainder behind it, and also when the message is not shifted before it is divided.
-/

namespace Splitforge.Library.Gf2

open Polynomial

/-! ## Numbers -/

/-- The coefficient that a bit stands for. -/
def ofBit (bit : Bool) : ZMod 2 := if bit then 1 else 0

theorem of_bit_xor (first second : Bool) :
    ofBit (first ^^ second) = ofBit first + ofBit second := by
  cases first <;> cases second <;> rfl

/-- A number as a polynomial: its bits are the coefficients, the lowest first. -/
noncomputable def ofNat (number : Nat) : (ZMod 2)[X] :=
  ∑ i ∈ Finset.range number.size, C (ofBit (number.testBit i)) * X ^ i

variable {number number' count : Nat}

@[simp] theorem coeff_of_nat (number i : Nat) :
    (ofNat number).coeff i = ofBit (number.testBit i) := by
  rw [ofNat, finsetSum_coeff]
  simp only [coeff_C_mul_X_pow]
  rw [Finset.sum_ite_eq]
  split_ifs with hmem
  · rfl
  · have hsize : number.size ≤ i := Nat.not_lt.mp (mt Finset.mem_range.mpr hmem)
    have hlt : number < 2 ^ i := Nat.lt_of_lt_of_le (Nat.lt_size_self number)
      (Nat.pow_le_pow_right (by omega) hsize)
    rw [Nat.testBit_lt_two_pow hlt]
    rfl

@[simp] theorem of_nat_zero : ofNat 0 = 0 := by
  ext i
  simp [ofBit]

@[simp] theorem of_nat_one : ofNat 1 = 1 := by
  ext i
  rw [coeff_of_nat, coeff_one]
  cases i with
  | zero => rfl
  | succ i => simp [ofBit, Nat.testBit_succ]

/-- An exclusive-or is a sum. -/
theorem of_nat_xor (number number' : Nat) :
    ofNat (number ^^^ number') = ofNat number + ofNat number' := by
  ext i
  rw [coeff_add, coeff_of_nat, coeff_of_nat, coeff_of_nat, Nat.testBit_xor]
  exact of_bit_xor _ _

/-- A shift to the left multiplies. -/
theorem of_nat_shift_left (number count : Nat) :
    ofNat (number <<< count) = ofNat number * X ^ count := by
  ext i
  rw [coeff_mul_X_pow', coeff_of_nat, Nat.testBit_shiftLeft]
  split_ifs with hle
  · rw [coeff_of_nat, decide_eq_true hle, Bool.true_and]
  · rw [decide_eq_false hle, Bool.false_and]
    rfl

/-- A number is its low bits, and its high bits shifted. -/
theorem of_nat_split (number count : Nat) :
    ofNat number = ofNat (number % 2 ^ count) + ofNat (number / 2 ^ count) * X ^ count := by
  rw [← of_nat_shift_left, ← of_nat_xor]
  congr 1
  refine Nat.eq_of_testBit_eq ?_
  intro i
  rw [Nat.testBit_xor, Nat.testBit_mod_two_pow, Nat.testBit_shiftLeft, Nat.testBit_div_two_pow]
  by_cases hlt : i < count
  · simp [hlt, Nat.not_le.mpr hlt]
  · have hle : count ≤ i := Nat.not_lt.mp hlt
    simp [hlt, hle, Nat.sub_add_cancel hle]

/-- A number below a power of two is a polynomial below that degree. -/
theorem degree_of_nat_lt (h : number < 2 ^ count) : (ofNat number).degree < count := by
  rw [degree_lt_iff_coeff_zero]
  intro i hle
  rw [coeff_of_nat, Nat.testBit_lt_two_pow
    (Nat.lt_of_lt_of_le h (Nat.pow_le_pow_right (by omega) hle))]
  rfl

/-- A number below a power of two, bit by bit. -/
theorem of_nat_eq_sum (h : number < 2 ^ count) :
    ofNat number = ∑ i ∈ Finset.range count, C (ofBit (number.testBit i)) * X ^ i := by
  ext i
  rw [coeff_of_nat, finsetSum_coeff]
  simp only [coeff_C_mul_X_pow]
  rw [Finset.sum_ite_eq]
  split_ifs with hmem
  · rfl
  · have hle : count ≤ i := Nat.not_lt.mp (mt Finset.mem_range.mpr hmem)
    rw [Nat.testBit_lt_two_pow (Nat.lt_of_lt_of_le h (Nat.pow_le_pow_right (by omega) hle))]
    rfl

/-! ## Texts of bits -/

/-- A text of bits as a polynomial: the last bit is the constant coefficient. -/
noncomputable def ofBits : List Bool → (ZMod 2)[X]
  | [] => 0
  | bit :: bits => C (ofBit bit) * X ^ bits.length + ofBits bits

variable {bits bits' : List Bool}

theorem of_bits_append (bits bits' : List Bool) :
    ofBits (bits ++ bits') = ofBits bits * X ^ bits'.length + ofBits bits' := by
  induction bits with
  | nil => simp [ofBits]
  | cons bit bits ih =>
      rw [List.cons_append, ofBits, ih, ofBits, List.length_append, pow_add]
      ring

theorem of_bits_replicate_false (count : Nat) : ofBits (List.replicate count false) = 0 := by
  induction count with
  | zero => rfl
  | succ count ih =>
      rw [List.replicate_succ, ofBits, ih, add_zero]
      simp [ofBit]

theorem degree_of_bits_lt (bits : List Bool) : (ofBits bits).degree < bits.length := by
  induction bits with
  | nil => simp [ofBits]
  | cons bit bits ih =>
      rw [ofBits, List.length_cons]
      have hlt : (bits.length : WithBot Nat) < (bits.length + 1 : Nat) := by
        exact_mod_cast Nat.lt_succ_self _
      refine lt_of_le_of_lt (degree_add_le _ _) (max_lt ?_ (lt_trans ih hlt))
      exact lt_of_le_of_lt (degree_C_mul_X_pow_le _ _) hlt

/-- The bits that differ are a sum. -/
theorem of_bits_zip_with_xor (h : bits.length = bits'.length) :
    ofBits (List.zipWith xor bits bits') = ofBits bits + ofBits bits' := by
  induction bits generalizing bits' with
  | nil =>
      rw [List.length_nil] at h
      rw [List.eq_nil_of_length_eq_zero h.symm]
      simp [ofBits]
  | cons bit bits ih =>
      cases bits' with
      | nil => cases h
      | cons bit' bits' =>
          have h : bits.length = bits'.length := Nat.succ.inj h
          rw [List.zipWith_cons_cons, ofBits, ih h, ofBits, ofBits, List.length_zipWith, ← h,
            min_self, of_bit_xor, C_add]
          ring

/-- Some bits in a row, of which one is set, and none set before or behind them. -/
def IsBurst (width : Nat) (bits : List Bool) : Prop :=
  ∃ before window behind, bits = List.replicate before false ++ window ++
    List.replicate behind false ∧ window.length ≤ width ∧ true ∈ window

/-- Bits of which one is set are not the zero polynomial. -/
theorem of_bits_ne_zero (h : true ∈ bits) : ofBits bits ≠ 0 := by
  induction bits with
  | nil => cases h
  | cons bit bits ih =>
      intro hzero
      rw [ofBits] at hzero
      have hlead := congrArg (fun p : (ZMod 2)[X] => p.coeff bits.length) hzero
      have hback : (ofBits bits).coeff bits.length = 0 :=
        coeff_eq_zero_of_degree_lt (degree_of_bits_lt bits)
      simp only [coeff_add, coeff_C_mul_X_pow, if_pos, hback, add_zero, coeff_zero] at hlead
      cases bit with
      | true => exact absurd hlead (by decide)
      | false =>
          have hmem : true ∈ bits := by simpa using h
          refine ih hmem ?_
          rw [show ofBit false = 0 from rfl, C_0, zero_mul, zero_add] at hzero
          exact hzero

/-- A burst is a shifted polynomial of a lower degree than it is long. -/
theorem IsBurst.exists_shift {width : Nat} (h : IsBurst width bits) :
    ∃ (shift : Nat) (burst : (ZMod 2)[X]), ofBits bits = X ^ shift * burst ∧ burst ≠ 0 ∧
      burst.degree < width := by
  obtain ⟨before, window, behind, rfl, hlength, hset⟩ := h
  refine ⟨behind, ofBits window, ?_, of_bits_ne_zero hset, ?_⟩
  · rw [of_bits_append, of_bits_append, of_bits_replicate_false, of_bits_replicate_false,
      List.length_replicate]
    ring
  · exact lt_of_lt_of_le (degree_of_bits_lt window) (by exact_mod_cast hlength)

/-! ## Remainders and bursts -/

section Burst

variable {K : Type} [Field K] {generator front back burst : K[X]}

/-- What is smaller than the divisor and differs by a multiple of it is the remainder. -/
theorem mod_eq_of_add_mul {value quotient remainder : K[X]} (hmonic : generator.Monic)
    (h : value = remainder + generator * quotient) (hdegree : remainder.degree < generator.degree) :
    value %ₘ generator = remainder :=
  (div_modByMonic_unique quotient remainder hmonic ⟨h.symm, hdegree⟩).2

/-- A factor and a term can be taken to a remainder before the remainder is taken again. -/
theorem mod_mul_add_mod (hmonic : generator.Monic) (value factor term : K[X]) :
    (value %ₘ generator * factor + term) %ₘ generator =
      (value * factor + term) %ₘ generator := by
  have hsplit : value * factor + term =
      (value %ₘ generator * factor + term) + generator * (value /ₘ generator * factor) := by
    conv_lhs => rw [← modByMonic_add_div value generator]
    ring
  rw [hsplit, add_modByMonic _ (generator * _), self_mul_modByMonic hmonic, add_zero]

/-- A generator with a constant divides no shifted polynomial of a lower degree. -/
theorem not_dvd_shifted (hconstant : generator.coeff 0 ≠ 0) (hburst : burst ≠ 0)
    (hdegree : burst.degree < generator.degree) (shift : Nat) :
    ¬ generator ∣ X ^ shift * burst := by
  intro hdvd
  have hcoprime : IsCoprime generator (X ^ shift) := by
    have hirreducible : Irreducible (X : K[X]) := irreducible_X
    refine IsCoprime.pow_right (hirreducible.coprime_iff_not_dvd.mpr ?_).symm
    rw [X_dvd_iff]
    exact hconstant
  exact not_lt.mpr (degree_le_of_dvd (hcoprime.dvd_of_dvd_mul_left hdvd) hburst) hdegree

/-- A burst in a message with a check behind it, which is shorter than the check is long, leaves
the check's part different from the remainder of the message's part: also when it reaches from one
into the other, and with a remainder that is taken without a shift. -/
theorem mod_ne_of_burst {width shift : Nat} (hmonic : generator.Monic)
    (hgenerator : generator.degree = width) (hconstant : generator.coeff 0 ≠ 0)
    (hback : back.degree < width) (hburst : burst ≠ 0) (hdegree : burst.degree < width)
    (hword : front * X ^ width + back = X ^ shift * burst) : front %ₘ generator ≠ back := by
  have hcoeff : ∀ i, (X ^ shift * burst).coeff i =
      if shift ≤ i then burst.coeff (i - shift) else 0 := by
    intro i
    rw [mul_comm, coeff_mul_X_pow']
  have hlow : ∀ i < width, back.coeff i = (X ^ shift * burst).coeff i := by
    intro i hi
    rw [← hword, coeff_add, coeff_mul_X_pow', if_neg (Nat.not_le.mpr hi), zero_add]
  have hhigh : ∀ i, front.coeff i = (X ^ shift * burst).coeff (i + width) := by
    intro i
    have hzero : back.coeff (i + width) = 0 :=
      coeff_eq_zero_of_degree_lt (lt_of_lt_of_le hback (by exact_mod_cast Nat.le_add_left _ _))
    rw [← hword, coeff_add, coeff_mul_X_pow, hzero, add_zero]
  intro hcheck
  by_cases hshift : width ≤ shift
  · -- the burst lies in the message, and the generator divides none of its multiples
    have hnone : back = 0 := by
      ext i
      by_cases hi : i < width
      · rw [hlow i hi, hcoeff, if_neg (by omega), coeff_zero]
      · exact coeff_eq_zero_of_degree_lt
          (lt_of_lt_of_le hback (by exact_mod_cast Nat.not_lt.mp hi))
    have hfront : front = X ^ (shift - width) * burst := by
      ext i
      rw [hhigh, hcoeff, mul_comm, coeff_mul_X_pow']
      by_cases hi : shift ≤ i + width
      · rw [if_pos hi, if_pos (by omega), show i + width - shift = i - (shift - width) by omega]
      · rw [if_neg hi, if_neg (by omega)]
    rw [hnone, hfront, modByMonic_eq_zero_iff_dvd hmonic] at hcheck
    exact not_dvd_shifted hconstant hburst (hgenerator ▸ hdegree) _ hcheck
  · -- its part in the message is its own remainder, and the two parts share no place
    have hsmall : front.degree < generator.degree := by
      rw [hgenerator, degree_lt_iff_coeff_zero]
      intro i hi
      rw [hhigh, hcoeff, if_pos (by omega)]
      exact coeff_eq_zero_of_degree_lt (lt_of_lt_of_le hdegree (by exact_mod_cast (by omega)))
    rw [(modByMonic_eq_self_iff hmonic).mpr hsmall] at hcheck
    have hnone : front = 0 := by
      ext i
      rw [coeff_zero]
      by_cases hi : i < shift
      · rw [hcheck, hlow i (by omega), hcoeff, if_neg (by omega)]
      · rw [hhigh, hcoeff, if_pos (by omega)]
        exact coeff_eq_zero_of_degree_lt (lt_of_lt_of_le hdegree (by exact_mod_cast (by omega)))
    rw [← hcheck, hnone, zero_mul, zero_add] at hword
    exact hburst ((mul_eq_zero.mp hword.symm).resolve_left (pow_ne_zero _ X_ne_zero))

end Burst

end Splitforge.Library.Gf2
