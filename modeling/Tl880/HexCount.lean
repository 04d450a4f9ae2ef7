import Mathlib.Data.List.Nodup
import Tl880.Lib.WrapLoop
import Tl880.Registers

/-!
# Counting in hexadecimal

`tools/hexcount.c` prints the numbers from a start to an end in steps of a width.  The numbers
are an `unsigned long` of 64 bits, and the counter wraps: the loop may miss the end, start again
from below and find it later on, or never.
-/

namespace Tl880

open ForLoop

/-- `main` of `hexcount`: the numbers it prints, if it ends. -/
def hexcount (start skip last : U64) (fuel : Nat) : Option (List U64) :=
  forLoop (fun i => i ≤ last) skip (fun i => some [i]) fuel start

/-- Numbers that are printed: each once, up to the end, with the remainder of the start. -/
structure HexcountOutput (start skip last : U64) (out : List U64) : Prop where
  nodup : out.Nodup
  upTo : ∀ i ∈ out, i.toNat ≤ last.toNat
  remainder : ∀ i ∈ out, i.toNat % Nat.gcd skip.toNat (2 ^ 64) =
    start.toNat % Nat.gcd skip.toNat (2 ^ 64)
  -- a counter that cannot wrap prints what the usage says
  exact : last.toNat + skip.toNat < 2 ^ 64 → out.map BitVec.toNat =
    (List.range ((last.toNat + skip.toNat - start.toNat) / skip.toNat)).map
      fun k => start.toNat + k * skip.toNat

variable {start skip last : U64}

/-- Below the end the counter has not wrapped, if it cannot. -/
theorem hexcount_counter (hroom : last.toNat + skip.toNat < 2 ^ 64) {n : Nat}
    (hbefore : ∀ k < n, counter start skip k ≤ last) {k : Nat} (hk : k ≤ n) :
    (counter start skip k).toNat = start.toNat + k * skip.toNat := by
  induction k with
  | zero => simp
  | succ k ih =>
      have hle := BitVec.le_def.mp (hbefore k (by omega))
      rw [ih (by omega)] at hle
      apply counter_toNat
      rw [Nat.succ_mul]
      omega

/-- The rounds of a loop whose counter cannot wrap. -/
theorem hexcount_rounds (hroom : last.toNat + skip.toNat < 2 ^ 64) {n : Nat}
    (hbefore : ∀ k < n, counter start skip k ≤ last) (hend : ¬ counter start skip n ≤ last) :
    (last.toNat + skip.toNat - start.toNat) / skip.toNat = n := by
  have hlast := hexcount_counter hroom hbefore (Nat.le_refl n)
  rw [BitVec.le_def, hlast] at hend
  cases n with
  | zero =>
      rcases Nat.eq_zero_or_pos skip.toNat with hzero | hpos
      · rw [hzero, Nat.div_zero]
      · exact Nat.div_eq_of_lt (by omega)
  | succ n =>
      have hle := BitVec.le_def.mp (hbefore n (Nat.lt_succ_self n))
      rw [hexcount_counter hroom hbefore (Nat.le_succ n)] at hle
      rw [Nat.succ_mul] at hend
      apply Nat.div_eq_of_lt_le
      · rw [Nat.succ_mul]
        omega
      · rw [Nat.succ_mul, Nat.succ_mul]
        omega

/-- What a loop of `n` rounds has printed. -/
theorem hexcount_output {n : Nat} (hbefore : ∀ k < n, counter start skip k ≤ last)
    (hend : ¬ counter start skip n ≤ last) :
    HexcountOutput start skip last ((List.range n).map (counter start skip)) where
  nodup := by
    refine List.Nodup.map_on ?_ List.nodup_range
    intro a ha b hb heq
    rw [List.mem_range] at ha hb
    rcases Nat.lt_trichotomy a b with hlt | heq' | hlt
    · exact absurd heq (counter_ne (· ≤ last) hbefore hend hlt hb)
    · exact heq'
    · exact absurd heq.symm (counter_ne (· ≤ last) hbefore hend hlt ha)
  upTo i hi := by
    obtain ⟨k, hk, rfl⟩ := List.mem_map.mp hi
    exact BitVec.le_def.mp (hbefore k (List.mem_range.mp hk))
  remainder i hi := by
    obtain ⟨k, -, rfl⟩ := List.mem_map.mp hi
    exact counter_mod_gcd start skip k
  exact hroom := by
    rw [hexcount_rounds hroom hbefore hend, List.map_map]
    apply List.map_congr_left
    intro k hk
    exact hexcount_counter hroom hbefore (Nat.le_of_lt (List.mem_range.mp hk))

/-- The tool ends exactly when the end is less than the greatest number that the counter comes
to; what it prints then is right as far as the counter does not wrap. -/
theorem hexcount_spec (start skip last : U64) :
    ((∃ fuel out, hexcount start skip last fuel = some out) ↔
      last.toNat < 2 ^ 64 - Nat.gcd skip.toNat (2 ^ 64) +
        start.toNat % Nat.gcd skip.toNat (2 ^ 64)) ∧
    ∀ fuel out, hexcount start skip last fuel = some out →
      HexcountOutput start skip last out := by
  constructor
  · have hend (k : Nat) : ¬ counter start skip k ≤ last ↔
        last.toNat < (counter start skip k).toNat := by
      rw [BitVec.le_def, Nat.not_le]
    unfold hexcount
    rw [forLoop_ends_iff start]
    simp only [hend]
    exact exists_counter_gt_iff start skip last.toNat
  · intro fuel out hout
    obtain ⟨n, hbefore, hend, rfl⟩ := forLoop_first hout
    have hprinted := hexcount_output hbefore hend
    rwa [List.map_eq_flatMap] at hprinted

end Tl880
