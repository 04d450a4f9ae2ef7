import Mathlib.Data.Int.GCD
import Mathlib.Data.Nat.Find
import Tl880.Lib.ForLoop

/-!
# Loops whose counter wraps

A loop of `ForLoop` ends in the first round in which its condition fails (`forLoop_first`), and
up to there its counter takes no value twice (`counter_ne`).

A counter that wraps comes to every number that leaves the same remainder as its start modulo
the greatest common divisor of the stride and the modulus, and to no other.  So the greatest
number it comes to is known (`exists_counter_gt_iff`), and with it whether a loop that counts up
to a bound ends.
-/

namespace ForLoop

variable {w : Nat} {α : Type*}

section Ends

variable {cond : BitVec w → Prop} [DecidablePred cond] {stride : BitVec w}
  {out : BitVec w → List α}

/-- A loop that ends does so in the first round in which its condition fails. -/
theorem forLoop_first {start : BitVec w} {fuel : Nat} {outs : List α}
    (h : forLoop cond stride (fun i => some (out i)) fuel start = some outs) :
    ∃ n, (∀ k < n, cond (counter start stride k)) ∧ ¬ cond (counter start stride n) ∧
      outs = (List.range n).flatMap fun k => out (counter start stride k) := by
  induction fuel generalizing start outs with
  | zero => cases h
  | succ fuel ih =>
      rw [forLoop] at h
      split_ifs at h with hcond
      · simp only [Option.bind_eq_bind, Option.bind_some, Option.bind_eq_some_iff,
          Option.some.injEq] at h
        obtain ⟨rest, hrest, rfl⟩ := h
        obtain ⟨n, hbefore, hend, rfl⟩ := ih hrest
        refine ⟨n + 1, ?_, ?_, ?_⟩
        · intro k hk
          cases k with
          | zero => rwa [counter_zero]
          | succ k =>
              rw [counter_succ]
              exact hbefore k (by omega)
        · rwa [counter_succ]
        · simp only [List.range_succ_eq_map, List.flatMap_cons, List.flatMap_map, counter_zero,
            counter_succ]
      · cases h
        exact ⟨0, fun k hk => absurd hk (Nat.not_lt_zero k), by rwa [counter_zero], rfl⟩

/-- A loop ends if and only if its condition fails in some round. -/
theorem forLoop_ends_iff (start : BitVec w) :
    (∃ fuel outs, forLoop cond stride (fun i => some (out i)) fuel start = some outs) ↔
      ∃ k, ¬ cond (counter start stride k) := by
  constructor
  · rintro ⟨fuel, outs, h⟩
    obtain ⟨n, -, hend, -⟩ := forLoop_first h
    exact ⟨n, hend⟩
  · intro hexists
    have hbefore : ∀ k < Nat.find hexists, cond (counter start stride k) := fun k hk =>
      not_not.mp (Nat.find_min hexists hk)
    exact ⟨_, _, forLoop_eq hbefore (Nat.find_spec hexists) (fun _ _ => rfl)
      (Nat.lt_succ_self _)⟩

end Ends

/-- Further rounds add their strides. -/
theorem counter_add (start stride : BitVec w) (k d : Nat) :
    counter start stride (k + d) = counter start stride k + BitVec.ofNat w (d * stride.toNat) := by
  rw [counter, counter, ← BitVec.ofNat_add, Nat.add_mul, Nat.add_assoc]

/-- Up to its end a loop takes no value twice. -/
theorem counter_ne (cond : BitVec w → Prop) {start stride : BitVec w} {n : Nat}
    (hcond : ∀ k < n, cond (counter start stride k))
    (hend : ¬ cond (counter start stride n)) {a b : Nat} (hlt : a < b) (hb : b < n) :
    counter start stride a ≠ counter start stride b := by
  intro heq
  -- then the loop would come to its end earlier
  have hearlier : counter start stride (a + (n - b)) = counter start stride (b + (n - b)) := by
    rw [counter_add, counter_add start stride b, heq]
  rw [Nat.add_sub_of_le (Nat.le_of_lt hb)] at hearlier
  exact hend (hearlier ▸ hcond (a + (n - b)) (by omega))

/-! ## The numbers that a counter comes to -/

/-- A counter keeps its remainder. -/
theorem counter_mod_gcd (start stride : BitVec w) (k : Nat) :
    (counter start stride k).toNat % Nat.gcd stride.toNat (2 ^ w) =
      start.toNat % Nat.gcd stride.toNat (2 ^ w) := by
  have hstride : k * stride.toNat % Nat.gcd stride.toNat (2 ^ w) = 0 :=
    Nat.mod_eq_zero_of_dvd ((Nat.gcd_dvd_left _ _).mul_left k)
  rw [counter, BitVec.toNat_ofNat, Nat.mod_mod_of_dvd _ (Nat.gcd_dvd_right _ _), Nat.add_mod,
    hstride, Nat.add_zero, Nat.mod_mod]

/-- Some number of strides is the greatest common divisor. -/
theorem exists_strides (stride : BitVec w) :
    ∃ m, m * stride.toNat % 2 ^ w = Nat.gcd stride.toNat (2 ^ w) % 2 ^ w := by
  have hpos : 0 < 2 ^ w := Nat.two_pow_pos w
  by_cases hgcd : Nat.gcd stride.toNat (2 ^ w) < 2 ^ w
  · obtain ⟨m, -, hm⟩ := Nat.exists_mul_mod_eq_gcd hgcd
    exact ⟨m, by rw [Nat.mul_comm, hm, Nat.mod_eq_of_lt hgcd]⟩
  · -- the stride is 0
    have hall : Nat.gcd stride.toNat (2 ^ w) = 2 ^ w :=
      Nat.le_antisymm (Nat.gcd_le_right _ hpos) (by omega)
    exact ⟨0, by rw [hall, Nat.mod_self, Nat.zero_mul, Nat.zero_mod]⟩

/-- A counter comes to every number with the remainder of its start. -/
theorem exists_counter_eq (start stride : BitVec w) {value : Nat} (hvalue : value < 2 ^ w)
    (hmod : value % Nat.gcd stride.toNat (2 ^ w) = start.toNat % Nat.gcd stride.toNat (2 ^ w)) :
    ∃ k, (counter start stride k).toNat = value := by
  obtain ⟨m, hm⟩ := exists_strides stride
  have hstart := start.isLt
  have hdvd : Nat.gcd stride.toNat (2 ^ w) ∣ value + 2 ^ w - start.toNat := by
    have hsum : (value + 2 ^ w) % Nat.gcd stride.toNat (2 ^ w) =
        start.toNat % Nat.gcd stride.toNat (2 ^ w) := by
      rw [Nat.add_mod, Nat.mod_eq_zero_of_dvd (Nat.gcd_dvd_right _ _), Nat.add_zero, Nat.mod_mod,
        hmod]
    exact Nat.dvd_of_mod_eq_zero (Nat.sub_mod_eq_zero_of_mod_eq hsum)
  obtain ⟨j, hj⟩ := hdvd
  refine ⟨j * m, ?_⟩
  have hstrides : j * m * stride.toNat % 2 ^ w = (value + 2 ^ w - start.toNat) % 2 ^ w := by
    rw [Nat.mul_assoc, Nat.mul_mod, hm, ← Nat.mul_mod, hj, Nat.mul_comm]
  rw [counter, BitVec.toNat_ofNat, Nat.add_mod, hstrides, ← Nat.add_mod,
    Nat.add_sub_of_le (by omega), Nat.add_mod_right, Nat.mod_eq_of_lt hvalue]

/-- The greatest number that a counter comes to. -/
def counterTop (start stride : BitVec w) : Nat :=
  2 ^ w - Nat.gcd stride.toNat (2 ^ w) + start.toNat % Nat.gcd stride.toNat (2 ^ w)

theorem counterTop_lt (start stride : BitVec w) : counterTop start stride < 2 ^ w := by
  have hle : Nat.gcd stride.toNat (2 ^ w) ≤ 2 ^ w := Nat.gcd_le_right _ (Nat.two_pow_pos w)
  have hmod := Nat.mod_lt start.toNat (Nat.gcd_pos_of_pos_right stride.toNat (Nat.two_pow_pos w))
  unfold counterTop
  omega

theorem counter_le_top (start stride : BitVec w) (k : Nat) :
    (counter start stride k).toNat ≤ counterTop start stride := by
  have hmod := counter_mod_gcd start stride k
  have hlt := (counter start stride k).isLt
  obtain ⟨q, hq⟩ := Nat.gcd_dvd_right stride.toNat (2 ^ w)
  unfold counterTop
  generalize (counter start stride k).toNat = value at hmod hlt ⊢
  generalize Nat.gcd stride.toNat (2 ^ w) = g at hmod hq ⊢
  have hdiv := Nat.div_add_mod value g
  rw [hmod] at hdiv
  -- the quotient is less than that of the modulus
  have hquotient : value / g < q := by
    apply Nat.lt_of_mul_lt_mul_left (a := g)
    omega
  have hle : g * (value / g + 1) ≤ g * q := Nat.mul_le_mul_left g hquotient
  rw [Nat.mul_succ] at hle
  omega

/-- A counter goes beyond a bound exactly when its greatest number does. -/
theorem exists_counter_gt_iff (start stride : BitVec w) (bound : Nat) :
    (∃ k, bound < (counter start stride k).toNat) ↔ bound < counterTop start stride := by
  constructor
  · rintro ⟨k, hk⟩
    exact Nat.lt_of_lt_of_le hk (counter_le_top start stride k)
  · intro hbound
    have hmod : counterTop start stride % Nat.gcd stride.toNat (2 ^ w) =
        start.toNat % Nat.gcd stride.toNat (2 ^ w) := by
      have hdvd : Nat.gcd stride.toNat (2 ^ w) ∣ 2 ^ w - Nat.gcd stride.toNat (2 ^ w) :=
        Nat.dvd_sub (Nat.gcd_dvd_right _ _) (Nat.dvd_refl _)
      rw [counterTop, Nat.add_mod, Nat.mod_eq_zero_of_dvd hdvd, Nat.zero_add, Nat.mod_mod,
        Nat.mod_mod]
    obtain ⟨k, hk⟩ := exists_counter_eq start stride (counterTop_lt start stride) hmod
    exact ⟨k, by omega⟩

end ForLoop
