import Mathlib.Algebra.Field.ZMod
import Mathlib.Algebra.Polynomial.FieldDivision
import Mathlib.RingTheory.PrincipalIdealDomain
import Mathlib.Tactic.LinearCombination

/-!
# Cyclic redundancy checks

A register of `w` bits is a polynomial over the field with two elements, with the top bit
for the highest power.  `feed` shifts one bit of a message into it: the bit that falls out
is added to the bit of the message, and if the sum is one, the generator is subtracted.

`toPoly_feedAll` says what the register holds after a whole message: the remainder of the
message, moved up by `w` places, modulo the generator.  Everything else follows from the
algebra of remainders: `feedAll_xor`, and `feedAll_injective` for a generator with a
constant term.
-/

namespace Crc

open Polynomial

variable {w : Nat}

/-- One bit as a constant. -/
noncomputable def bitPoly (b : Bool) : (ZMod 2)[X] := if b then 1 else 0

/-- The polynomial of the low `n` bits of a register. -/
noncomputable def lowPoly (x : BitVec w) : Nat → (ZMod 2)[X]
  | 0 => 0
  | n + 1 => bitPoly (x.getLsbD n) * X ^ n + lowPoly x n

/-- The polynomial of a register. -/
noncomputable def toPoly (x : BitVec w) : (ZMod 2)[X] := lowPoly x w

/-- The generator: the bits of a word below a leading one. -/
noncomputable def generator (poly : BitVec w) : (ZMod 2)[X] := X ^ w + toPoly poly

/-- Shift one bit of a message into the register. -/
def feed (poly x : BitVec w) (b : Bool) : BitVec w :=
  if (x.msb ^^ b) = true then (x <<< 1) ^^^ poly else x <<< 1

/-- Shift a message into the register, its first bit first. -/
def feedAll (poly : BitVec w) : BitVec w → List Bool → BitVec w
  | x, [] => x
  | x, b :: bits => feedAll poly (feed poly x b) bits

/-- The polynomial of a message, whose first bit is for the highest power. -/
noncomputable def message : List Bool → (ZMod 2)[X]
  | [] => 0
  | b :: bits => bitPoly b * X ^ bits.length + message bits

/-! ## Coefficients -/

theorem two_eq_zero : (1 + 1 : ZMod 2) = 0 := rfl

theorem poly_add_self (p : (ZMod 2)[X]) : p + p = 0 := by
  ext i
  rw [coeff_add, coeff_zero, ← two_mul]
  exact mul_eq_zero_of_left two_eq_zero _

@[simp] theorem bitPoly_xor (a b : Bool) : bitPoly (a ^^ b) = bitPoly a + bitPoly b := by
  cases a <;> cases b <;> simp [bitPoly, poly_add_self]

theorem coeff_bitPoly_mul_X_pow (b : Bool) (n i : Nat) :
    (bitPoly b * X ^ n).coeff i = if b = true ∧ i = n then 1 else 0 := by
  cases b <;> simp [bitPoly, coeff_X_pow]

theorem coeff_lowPoly (x : BitVec w) (n i : Nat) :
    (lowPoly x n).coeff i = if x.getLsbD i = true ∧ i < n then 1 else 0 := by
  induction n with
  | zero => simp [lowPoly]
  | succ n ih =>
      rw [lowPoly, coeff_add, ih, coeff_bitPoly_mul_X_pow]
      rcases Nat.lt_trichotomy i n with hlt | rfl | hgt
      · have hne : i ≠ n := by omega
        have hlt' : i < n + 1 := by omega
        simp [hlt, hne, hlt']
      · simp
      · have hne : i ≠ n := by omega
        have hnot : ¬ i < n := by omega
        have hnot' : ¬ i < n + 1 := by omega
        simp [hnot, hne, hnot']

theorem coeff_toPoly (x : BitVec w) (i : Nat) :
    (toPoly x).coeff i = if x.getLsbD i = true then 1 else 0 := by
  rw [toPoly, coeff_lowPoly]
  by_cases hi : i < w
  · simp [hi]
  · have hout : x.getLsbD i = false := BitVec.getLsbD_of_ge x i (by omega)
    simp [hout]

@[simp] theorem toPoly_zero : toPoly (0#w) = 0 := by
  ext i
  simp [coeff_toPoly]

theorem toPoly_xor (x y : BitVec w) : toPoly (x ^^^ y) = toPoly x + toPoly y := by
  ext i
  rw [coeff_add, coeff_toPoly, coeff_toPoly, coeff_toPoly, BitVec.getLsbD_xor]
  cases x.getLsbD i <;> cases y.getLsbD i <;> simp [two_eq_zero]

theorem toPoly_injective : Function.Injective (toPoly (w := w)) := by
  intro x y h
  apply BitVec.eq_of_getLsbD_eq
  intro i _
  have hcoeff := congrArg (fun p => p.coeff i) h
  simp only [coeff_toPoly] at hcoeff
  revert hcoeff
  cases x.getLsbD i <;> cases y.getLsbD i <;> simp

theorem degree_lowPoly_lt (x : BitVec w) (n : Nat) : (lowPoly x n).degree < n := by
  rw [degree_lt_iff_coeff_zero]
  intro i hi
  have hnot : ¬ i < n := by omega
  simp [coeff_lowPoly, hnot]

theorem degree_toPoly_lt (x : BitVec w) : (toPoly x).degree < w := degree_lowPoly_lt x w

/-- Moving a register up by one place: the top bit falls out. -/
theorem X_mul_toPoly (x : BitVec w) :
    X * toPoly x = toPoly (x <<< 1) + bitPoly x.msb * X ^ w := by
  ext i
  rw [coeff_add, coeff_toPoly, coeff_bitPoly_mul_X_pow, BitVec.getLsbD_shiftLeft]
  cases i with
  | zero =>
      rw [coeff_X_mul_zero]
      by_cases hw : 0 = w
      · subst hw
        simp [BitVec.msb_eq_getLsbD_last]
      · simp [hw]
  | succ i =>
      rw [coeff_X_mul, coeff_toPoly]
      rcases Nat.lt_trichotomy (i + 1) w with hlt | heq | hgt
      · have hne : i + 1 ≠ w := by omega
        simp [hlt, hne]
      · have htop : x.msb = x.getLsbD i := by
          rw [BitVec.msb_eq_getLsbD_last]
          congr 1
          omega
        simp [heq, htop]
      · have hout : x.getLsbD i = false := BitVec.getLsbD_of_ge x i (by omega)
        have hne : i + 1 ≠ w := by omega
        simp [hout, hne]

/-! ## The register is a remainder -/

theorem generator_monic (poly : BitVec w) : (generator poly).Monic :=
  monic_X_pow_add (degree_toPoly_lt poly)

theorem degree_generator (poly : BitVec w) : (generator poly).degree = w := by
  have hlt : (toPoly poly).degree < (X ^ w : (ZMod 2)[X]).degree := by
    rw [degree_X_pow]
    exact degree_toPoly_lt poly
  rw [generator, degree_add_eq_left_of_degree_lt hlt, degree_X_pow]

/-- A bit multiplies the register by `X`, modulo the generator, and adds the bit at the
leading place. -/
theorem toPoly_feed (poly x : BitVec w) (b : Bool) :
    X * toPoly x + bitPoly b * X ^ w =
      toPoly (feed poly x b) + bitPoly (x.msb ^^ b) * generator poly := by
  rw [X_mul_toPoly, add_assoc, ← add_mul, ← bitPoly_xor]
  unfold feed
  split_ifs with hsum
  · rw [hsum, toPoly_xor, generator]
    have hone : bitPoly true = 1 := rfl
    rw [hone, one_mul, one_mul, add_comm (X ^ w), add_assoc, ← add_assoc (toPoly poly),
      poly_add_self, zero_add]
  · have hzero : bitPoly (x.msb ^^ b) = 0 := by
      rw [Bool.eq_false_iff.mpr hsum]
      rfl
    rw [hzero, zero_mul, zero_mul]

/-- What a whole message does to the register, up to multiples of the generator. -/
theorem generator_dvd (poly x : BitVec w) (bits : List Bool) :
    generator poly ∣
      X ^ bits.length * toPoly x + message bits * X ^ w - toPoly (feedAll poly x bits) := by
  induction bits generalizing x with
  | nil => simp [message, feedAll]
  | cons b bits ih =>
      have hstep : X ^ (b :: bits).length * toPoly x + message (b :: bits) * X ^ w -
            toPoly (feedAll poly x (b :: bits)) =
          (X ^ bits.length * toPoly (feed poly x b) + message bits * X ^ w -
            toPoly (feedAll poly (feed poly x b) bits)) +
          X ^ bits.length * bitPoly (x.msb ^^ b) * generator poly := by
        have hfeed := toPoly_feed poly x b
        rw [feedAll, message, List.length_cons, pow_succ]
        linear_combination X ^ bits.length * hfeed
      rw [hstep]
      exact dvd_add (ih (feed poly x b)) (dvd_mul_left _ _)

/-- The register holds the remainder of the message, moved up by the width of the
register. -/
theorem toPoly_feedAll (poly x : BitVec w) (bits : List Bool) :
    toPoly (feedAll poly x bits) =
      (X ^ bits.length * toPoly x + message bits * X ^ w) %ₘ generator poly := by
  have hmonic := generator_monic poly
  have hsmall : toPoly (feedAll poly x bits) %ₘ generator poly =
      toPoly (feedAll poly x bits) := by
    rw [modByMonic_eq_self_iff hmonic, degree_generator]
    exact degree_toPoly_lt _
  rw [← hsmall]
  exact (modByMonic_eq_of_dvd_sub hmonic (generator_dvd poly x bits)).symm

/-! ## Messages -/

/-- The bits of a word, from bit `n - 1` down. -/
def wordBits (x : BitVec w) : Nat → List Bool
  | 0 => []
  | n + 1 => x.getLsbD n :: wordBits x n

@[simp] theorem length_wordBits (x : BitVec w) (n : Nat) : (wordBits x n).length = n := by
  induction n with
  | zero => rfl
  | succ n ih => simp [wordBits, ih]

theorem message_wordBits (x : BitVec w) (n : Nat) : message (wordBits x n) = lowPoly x n := by
  induction n with
  | zero => rfl
  | succ n ih => rw [wordBits, message, length_wordBits, ih, lowPoly]

/-- The register after the low `n` bits of a word. -/
theorem toPoly_feedWord (poly : BitVec w) {v : Nat} (x : BitVec v) (n : Nat) :
    toPoly (feedAll poly 0 (wordBits x n)) = (lowPoly x n * X ^ w) %ₘ generator poly := by
  rw [toPoly_feedAll, message_wordBits]
  simp

theorem lowPoly_xor {v : Nat} (x y : BitVec v) (n : Nat) :
    lowPoly (x ^^^ y) n = lowPoly x n + lowPoly y n := by
  induction n with
  | zero => simp [lowPoly]
  | succ n ih =>
      rw [lowPoly, lowPoly, lowPoly, ih, BitVec.getLsbD_xor, bitPoly_xor]
      ring

/-- The register is additive in the word. -/
theorem feedAll_xor (poly : BitVec w) {v : Nat} (x y : BitVec v) (n : Nat) :
    feedAll poly 0 (wordBits (x ^^^ y) n) =
      feedAll poly 0 (wordBits x n) ^^^ feedAll poly 0 (wordBits y n) := by
  apply toPoly_injective
  rw [toPoly_xor, toPoly_feedWord, toPoly_feedWord, toPoly_feedWord, lowPoly_xor, add_mul,
    add_modByMonic]

/-- A generator with a constant term has no factor in common with a power of `X`. -/
theorem isCoprime_generator {poly : BitVec w} (hodd : poly.getLsbD 0 = true) :
    IsCoprime (X ^ w) (generator poly) := by
  have hpos : w ≠ 0 := by
    rintro rfl
    simp at hodd
  have hX : Irreducible (X : (ZMod 2)[X]) := irreducible_X
  apply IsCoprime.pow_left
  rw [hX.coprime_iff_not_dvd, X_dvd_iff, generator, coeff_add, coeff_toPoly, hodd]
  simp [coeff_X_pow, Ne.symm hpos]

/-- With a constant term in the generator, words of at most the register's width are told
apart by the register. -/
theorem feedAll_injective {poly : BitVec w} (hodd : poly.getLsbD 0 = true) {v n : Nat}
    (hn : n ≤ w) {x y : BitVec v}
    (heq : feedAll poly 0 (wordBits x n) = feedAll poly 0 (wordBits y n)) {i : Nat}
    (hi : i < n) : x.getLsbD i = y.getLsbD i := by
  have hmonic := generator_monic poly
  have hrem : (lowPoly (x ^^^ y) n * X ^ w) %ₘ generator poly = 0 := by
    rw [← toPoly_feedWord, feedAll_xor, heq, BitVec.xor_self, toPoly_zero]
  rw [modByMonic_eq_zero_iff_dvd hmonic] at hrem
  have hdvd : generator poly ∣ lowPoly (x ^^^ y) n :=
    (isCoprime_generator hodd).symm.dvd_of_dvd_mul_right hrem
  have hzero : lowPoly (x ^^^ y) n = 0 := by
    apply eq_zero_of_dvd_of_degree_lt hdvd
    rw [degree_generator]
    exact lt_of_lt_of_le (degree_lowPoly_lt _ n) (by exact_mod_cast hn)
  have hcoeff := congrArg (fun p => p.coeff i) hzero
  simp only [coeff_lowPoly, coeff_zero, BitVec.getLsbD_xor, hi, and_true] at hcoeff
  revert hcoeff
  cases x.getLsbD i <;> cases y.getLsbD i <;> simp

end Crc
