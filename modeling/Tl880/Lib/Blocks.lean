import Mathlib.Tactic.Common

/-!
# Blocks of memory

A block is stored from a place on, and what is stored piece by piece is stored as a whole.
`mirror n` turns round every group of `n` places, as a copy between two byte orders does; what
is turned round twice is as it was.
-/

namespace Blocks

variable {β : Type*}

/-! ## Stores -/

/-- The memory after the first `length` values of `block` are stored from `start` on. -/
def store (start length : Nat) (block mem : Nat → β) : Nat → β := fun o =>
  if start ≤ o ∧ o < start + length then block (o - start) else mem o

theorem store_inside {start length : Nat} {block mem : Nat → β} {o : Nat}
    (hlow : start ≤ o) (hhigh : o < start + length) :
    store start length block mem o = block (o - start) := if_pos ⟨hlow, hhigh⟩

theorem store_outside {start length : Nat} {block mem : Nat → β} {o : Nat}
    (hout : o < start ∨ start + length ≤ o) : store start length block mem o = mem o := by
  rw [store, if_neg]
  omega

@[simp] theorem store_zero (start : Nat) (block mem : Nat → β) : store start 0 block mem = mem := by
  ext o
  exact store_outside (by omega)

/-- Only what is stored matters of a block. -/
theorem store_congr {start length : Nat} {block block' : Nat → β} (mem : Nat → β)
    (hblock : ∀ i < length, block i = block' i) :
    store start length block mem = store start length block' mem := by
  ext o
  by_cases ho : start ≤ o ∧ o < start + length
  · rw [store_inside ho.1 ho.2, store_inside ho.1 ho.2]
    exact hblock _ (by omega)
  · rw [store_outside (by omega), store_outside (by omega)]

/-- A block is stored in two pieces. -/
theorem store_append (start a b : Nat) (block mem : Nat → β) :
    store (start + a) b (fun i => block (a + i)) (store start a block mem) =
      store start (a + b) block mem := by
  ext o
  by_cases hlow : start ≤ o
  · by_cases hfirst : o < start + a
    · rw [store_outside (by omega), store_inside hlow hfirst, store_inside hlow (by omega)]
    · by_cases hsecond : o < start + a + b
      · rw [store_inside (by omega) hsecond, store_inside hlow (by omega)]
        congr 1
        omega
      · rw [store_outside (by omega), store_outside (by omega), store_outside (by omega)]
  · rw [store_outside (by omega), store_outside (by omega), store_outside (by omega)]

/-- What is read back where a block was stored. -/
theorem store_get {start length : Nat} {block mem : Nat → β} {i : Nat} (hi : i < length) :
    store start length block mem (start + i) = block i := by
  rw [store_inside (by omega) (by omega)]
  congr 1
  omega

/-! ## Groups -/

/-- Place `i` after every group of `n` places was turned round. -/
def mirror (n i : Nat) : Nat := n * (i / n) + (n - 1 - i % n)

variable {n : Nat}

theorem mirror_group (hn : 0 < n) (k : Nat) {i : Nat} (hi : i < n) :
    mirror n (n * k + i) = n * k + (n - 1 - i) := by
  rw [mirror, Nat.mul_add_div hn, Nat.div_eq_of_lt hi, Nat.mul_add_mod, Nat.mod_eq_of_lt hi,
    Nat.add_zero]

theorem mirror_of_lt {i : Nat} (hi : i < n) : mirror n i = n - 1 - i := by
  have hgroup := mirror_group (Nat.zero_lt_of_lt hi) 0 hi
  rwa [Nat.mul_zero, Nat.zero_add, Nat.zero_add] at hgroup

/-- The next group. -/
theorem mirror_add (hn : 0 < n) (i : Nat) : mirror n (n + i) = n + mirror n i := by
  rw [mirror, mirror, Nat.add_div_left i hn, Nat.add_mod_left, Nat.mul_succ]
  omega

/-- A place and its group. -/
theorem exists_group (hn : 0 < n) (i : Nat) : ∃ k j, j < n ∧ i = n * k + j :=
  ⟨i / n, i % n, Nat.mod_lt i hn, (Nat.div_add_mod i n).symm⟩

theorem mirror_mirror (hn : 0 < n) (i : Nat) : mirror n (mirror n i) = i := by
  obtain ⟨k, j, hj, rfl⟩ := exists_group hn i
  rw [mirror_group hn k hj, mirror_group hn k (by omega)]
  omega

/-- A place does not leave its group, and so no range of whole groups. -/
theorem mirror_lt_iff (hn : 0 < n) {m : Nat} (hdvd : n ∣ m) (i : Nat) : mirror n i < m ↔ i < m := by
  obtain ⟨groups, rfl⟩ := hdvd
  obtain ⟨k, j, hj, rfl⟩ := exists_group hn i
  rw [mirror_group hn k hj]
  -- both places lie in the range exactly when their group does
  have hgroup : ∀ j' < n, n * k + j' < n * groups ↔ k < groups := by
    intro j' hj'
    constructor
    · intro hlt
      exact Nat.lt_of_mul_lt_mul_left (Nat.lt_of_le_of_lt (Nat.le_add_right _ _) hlt)
    · intro hk
      have hnext : n * (k + 1) ≤ n * groups := Nat.mul_le_mul_left n hk
      rw [Nat.mul_succ] at hnext
      omega
  rw [hgroup _ (by omega), hgroup _ hj]

/-- A block of whole groups, stored turned round and then read turned round. -/
theorem store_mirror_get (hn : 0 < n) {start length : Nat} (hdvd : n ∣ length)
    {block mem : Nat → β} {i : Nat} (hi : i < length) :
    store start length (fun i => block (mirror n i)) mem (start + mirror n i) = block i := by
  rw [store_get ((mirror_lt_iff hn hdvd i).mpr hi), mirror_mirror hn]

end Blocks
