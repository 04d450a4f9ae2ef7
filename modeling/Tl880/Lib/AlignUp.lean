import Mathlib.Algebra.Group.Nat.Defs
import Mathlib.Tactic.Common

/-!
# Rounding an address up to a power of two

The usual C idiom `(mask + addr) & ~mask` with `mask = align - 1`.  What it adds
to the address is at most `mask`, whatever the mask is.  For a power of two the
result is a multiple of it, and it is 0 only for address 0 or where the sum
wraps.
-/

namespace AlignUp

variable {w : Nat}

/-- A number that fits into a word. -/
theorem toNat_word {x : Nat} (h : x < 2 ^ w) : (BitVec.ofNat w x).toNat = x := by
  rw [BitVec.toNat_ofNat]
  exact Nat.mod_eq_of_lt h

/-- `(mask + addr) & ~mask` -/
def alignUp (mask addr : BitVec w) : BitVec w := (mask + addr) &&& ~~~mask

/-- The two parts a mask cuts a number into have no bit in common. -/
theorem and_not_disjoint (x mask : BitVec w) : (x &&& ~~~mask) &&& (x &&& mask) = 0#w := by
  ext i hi
  simp only [BitVec.getElem_and, BitVec.getElem_not, BitVec.getElem_zero]
  cases mask[i] <;> simp

/-- A number is the sum of the two parts. -/
theorem and_not_add_and (x mask : BitVec w) : (x &&& ~~~mask) + (x &&& mask) = x := by
  calc (x &&& ~~~mask) + (x &&& mask)
      = (x &&& ~~~mask) ||| (x &&& mask) :=
        BitVec.add_eq_or_of_and_eq_zero _ _ (and_not_disjoint x mask)
    _ = x := by rw [← BitVec.and_or_distrib_left, BitVec.not_or_self, BitVec.and_allOnes]

/-- The padding in front of the aligned address is at most the mask. -/
theorem alignUp_sub_le (mask addr : BitVec w) :
    (alignUp mask addr - addr).toNat ≤ mask.toNat := by
  have hsplit : alignUp mask addr + ((mask + addr) &&& mask) = mask + addr :=
    and_not_add_and (mask + addr) mask
  have hpad : alignUp mask addr - addr = mask - ((mask + addr) &&& mask) := by
    rw [BitVec.eq_sub_iff_add_eq, BitVec.sub_eq_add_neg, BitVec.add_assoc]
    rw [BitVec.add_comm (-addr), ← BitVec.add_assoc, hsplit, ← BitVec.sub_eq_add_neg]
    exact BitVec.add_sub_cancel mask addr
  have hle : ((mask + addr) &&& mask).toNat ≤ mask.toNat := by
    rw [BitVec.toNat_and]
    exact Nat.and_le_right
  rw [hpad, BitVec.toNat_sub_of_le (by rw [BitVec.le_def]; exact hle)]
  exact Nat.sub_le _ _

/-- The aligned address as a number, for a power of two. -/
theorem alignUp_toNat {mask : BitVec w} {k : Nat} (hmask : mask.toNat + 1 = 2 ^ k)
    (addr : BitVec w) :
    (alignUp mask addr).toNat = (mask + addr).toNat / 2 ^ k * 2 ^ k := by
  have hsum : (alignUp mask addr).toNat + ((mask + addr) &&& mask).toNat =
      (mask + addr).toNat := by
    rw [alignUp, ← BitVec.toNat_add_of_and_eq_zero (and_not_disjoint _ mask)]
    rw [and_not_add_and]
  have hlow : ((mask + addr) &&& mask).toNat = (mask + addr).toNat % 2 ^ k := by
    rw [BitVec.toNat_and, ← Nat.and_two_pow_sub_one_eq_mod, ← hmask, Nat.add_sub_cancel]
  have hdiv := Nat.div_add_mod' (mask + addr).toNat (2 ^ k)
  omega

/-- The aligned address is a multiple of the power of two. -/
theorem alignUp_dvd {mask : BitVec w} {k : Nat} (hmask : mask.toNat + 1 = 2 ^ k)
    (addr : BitVec w) : 2 ^ k ∣ (alignUp mask addr).toNat := by
  rw [alignUp_toNat hmask]
  exact Nat.dvd_mul_left _ _

/-- The aligned address is 0 for address 0 and where the sum wraps, and only
there. -/
theorem alignUp_ne_zero_iff {mask : BitVec w} {k : Nat} (hmask : mask.toNat + 1 = 2 ^ k)
    (addr : BitVec w) :
    alignUp mask addr ≠ 0#w ↔ 0 < addr.toNat ∧ addr.toNat + mask.toNat < 2 ^ w := by
  have hzero : alignUp mask addr = 0#w ↔ (mask + addr).toNat < 2 ^ k := by
    rw [BitVec.toNat_inj.symm, alignUp_toNat hmask, BitVec.toNat_zero, Nat.mul_eq_zero]
    constructor
    · intro h
      rcases h with h | h
      · exact (Nat.div_eq_zero_iff_lt (Nat.two_pow_pos k)).mp h
      · exact absurd h (Nat.ne_of_gt (Nat.two_pow_pos k))
    · intro h
      exact Or.inl (Nat.div_eq_of_lt h)
  have haddr := addr.isLt
  have hm := mask.isLt
  rw [Ne, hzero, BitVec.toNat_add, ← hmask]
  rcases Nat.lt_or_ge (mask.toNat + addr.toNat) (2 ^ w) with hlt | hge
  · rw [Nat.mod_eq_of_lt hlt]
    omega
  · rw [Nat.mod_eq_sub_mod hge, Nat.mod_eq_of_lt (by omega)]
    omega

end AlignUp
