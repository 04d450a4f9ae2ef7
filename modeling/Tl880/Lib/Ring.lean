import Mathlib.Algebra.Group.Nat.Defs
import Mathlib.Tactic.Common

/-!
# A stream in a ring

A ring of `size` places holds the end of a stream: the item `j` has the place `j % size`.  A
writer puts items behind the last one, and can put blank items ahead of them, which later items
replace.

`Holds size stream lo hi ahead ring` says which items a ring holds when those from `lo` to before
`hi` were written since it was last blank, and the `ahead` places behind them are blank again.
-/

namespace Ring

variable {β : Type*} {size lo hi ahead : Nat} {stream : Nat → β} {blank : β} {ring ring' : Nat → β}

/-- What a ring holds. -/
structure Holds (blank : β) (size : Nat) (stream : Nat → β) (lo hi ahead : Nat)
    (ring : Nat → β) : Prop where
  newest : ∀ j, lo ≤ j → j < hi → hi + ahead ≤ j + size → ring (j % size) = stream j
  silent : ∀ k, hi ≤ k → k < hi + ahead → ring (k % size) = blank
  rest : ∀ o, o < size → (∀ j, lo ≤ j → j < hi → j % size ≠ o) → ring o = blank

/-- A ring after a transfer of `len` items to the places from `start` on. -/
def Transferred (size start len : Nat) (item : Nat → β) (ring ring' : Nat → β) : Prop :=
  ∀ o, o < size → ring' o = if start ≤ o ∧ o < start + len then item (o - start) else ring o

/-- Two numbers less than a turn apart have different places. -/
theorem mod_ne {i j : Nat} (hlt : i < j) (hnear : j < i + size) : i % size ≠ j % size := by
  intro heq
  have hzero : (j - i) % size = 0 := Nat.sub_mod_eq_zero_of_mod_eq heq.symm
  have hsmall : (j - i) % size = j - i := Nat.mod_eq_of_lt (by omega)
  omega

/-- The places of a transfer that does not wrap. -/
theorem add_mod_of_fits (first i : Nat) (hfits : first % size + i < size) :
    (first + i) % size = first % size + i := by
  rw [Nat.add_mod_eq_add_mod_right i (Nat.mod_mod first size).symm]
  exact Nat.mod_eq_of_lt hfits

theorem Transferred.self {first len i : Nat} {item : Nat → β}
    (h : Transferred size (first % size) len item ring ring') (hfits : first % size + len ≤ size)
    (hi : i < len) : ring' ((first + i) % size) = item i := by
  have hplace := add_mod_of_fits first i (by omega : _ < size)
  rw [hplace, h _ (by omega), if_pos (by omega), Nat.add_sub_cancel_left]

/-- An item less than a turn away from the transfer stays. -/
theorem Transferred.of_near {first len k : Nat} {item : Nat → β}
    (h : Transferred size (first % size) len item ring ring') (hfits : first % size + len ≤ size)
    (hsize : 0 < size) (hnear : (k < first ∧ first + len ≤ k + size) ∨
      (first + len ≤ k ∧ k < first + size)) :
    ring' (k % size) = ring (k % size) := by
  rw [h _ (Nat.mod_lt k hsize), if_neg]
  rintro ⟨hge, hlt⟩
  have hplace := add_mod_of_fits first (k % size - first % size) (by omega : _ < size)
  have heq : (first + (k % size - first % size)) % size = k % size := by omega
  rcases hnear with ⟨hbefore, hturn⟩ | ⟨hbehind, hturn⟩
  · exact mod_ne (by omega) (by omega) heq.symm
  · exact mod_ne (by omega) (by omega) heq

namespace Holds

/-- A blank ring. -/
theorem ofBlank (stream : Nat → β) (hi ahead : Nat) (hsize : 0 < size)
    (hblank : ∀ o, o < size → ring o = blank) : Holds blank size stream hi hi ahead ring where
  newest j hlo hlt _ := by omega
  silent k _ _ := hblank _ (Nat.mod_lt k hsize)
  rest o ho _ := hblank o ho

/-- Two streams with the same items so far. -/
theorem congr {stream' : Nat → β} (h : Holds blank size stream lo hi ahead ring)
    (hsame : ∀ j, j < hi → stream' j = stream j) :
    Holds blank size stream' lo hi ahead ring where
  newest j hlo hlt hturn := (h.newest j hlo hlt hturn).trans (hsame j hlt).symm
  silent := h.silent
  rest := h.rest

/-- The next items are written. -/
theorem write {len : Nat} (h : Holds blank size stream lo hi ahead ring) (hlo : lo ≤ hi)
    (hsize : 0 < size) (hahead : ahead ≤ size) (hfits : hi % size + len ≤ size)
    (hring : Transferred size (hi % size) len (fun i => stream (hi + i)) ring ring') :
    Holds blank size stream lo (hi + len) (ahead - len) ring' where
  newest j hj hlt hturn := by
    by_cases hnew : hi ≤ j
    · obtain ⟨i, rfl⟩ := Nat.exists_eq_add_of_le hnew
      exact hring.self hfits (by omega)
    · rw [hring.of_near hfits hsize (Or.inl ⟨by omega, by omega⟩)]
      exact h.newest j hj (by omega) (by omega)
  silent k hge hlt := by
    rw [hring.of_near hfits hsize (Or.inr ⟨hge, by omega⟩)]
    exact h.silent k (by omega) (by omega)
  rest o ho hnone := by
    have hout : ¬ (hi % size ≤ o ∧ o < hi % size + len) := by
      rintro ⟨hge, hlt⟩
      have hplace := add_mod_of_fits hi (o - hi % size) (by omega : _ < size)
      exact hnone (hi + (o - hi % size)) (by omega) (by omega) (by omega)
    rw [hring o ho, if_neg hout]
    exact h.rest o ho fun j hj hlt => hnone j hj (by omega)

/-- Blank items are put ahead of the stream. -/
theorem silence {len : Nat} (h : Holds blank size stream lo hi ahead ring)
    (hsize : 0 < size) (hahead : ahead + len ≤ size) (hfits : (hi + ahead) % size + len ≤ size)
    (hring : Transferred size ((hi + ahead) % size) len (fun _ => blank) ring ring') :
    Holds blank size stream lo hi (ahead + len) ring' where
  newest j hj hlt hturn := by
    rw [hring.of_near hfits hsize (Or.inl ⟨by omega, by omega⟩)]
    exact h.newest j hj hlt (by omega)
  silent k hge hlt := by
    by_cases hnew : hi + ahead ≤ k
    · obtain ⟨i, rfl⟩ := Nat.exists_eq_add_of_le hnew
      exact hring.self hfits (by omega)
    · rw [hring.of_near hfits hsize (Or.inl ⟨by omega, by omega⟩)]
      exact h.silent k hge (by omega)
  rest o ho hnone := by
    rw [hring o ho]
    split_ifs
    · rfl
    · exact h.rest o ho hnone

end Holds

end Ring
