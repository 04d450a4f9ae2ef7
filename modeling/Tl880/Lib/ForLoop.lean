import Mathlib.Algebra.Group.Nat.Defs
import Mathlib.Data.List.Basic
import Mathlib.Tactic.Common

/-!
# Counted loops

The loop `for (i = start; cond(i); i += stride)` with a counter of `w` bits, which wraps.  Each
round gives a list of outputs, or does not end.

`forLoop_eq` and `forLoop_lt` say how a loop ends, and `forLoop_round` that a loop that ends went
through each of its rounds.  Where the outputs touch places and fill some of them, `Covers` says
that they touch no place outside of an interval and fill all of it; `Covers.append` and
`Covers.rounds` put intervals together.
-/

namespace ForLoop

variable {w : Nat} {α : Type*}

/-- The outputs of a loop from the counter on, for at most `fuel` rounds. -/
def forLoop (cond : BitVec w → Prop) [DecidablePred cond] (stride : BitVec w)
    (body : BitVec w → Option (List α)) : Nat → BitVec w → Option (List α)
  | 0, _ => none
  | fuel + 1, i =>
      if cond i then do
        let out ← body i
        let rest ← forLoop cond stride body fuel (i + stride)
        some (out ++ rest)
      else some []

/-- The counter in a round, the first one being round 0. -/
def counter (start stride : BitVec w) (k : Nat) : BitVec w :=
  BitVec.ofNat w (start.toNat + k * stride.toNat)

@[simp] theorem counter_zero (start stride : BitVec w) : counter start stride 0 = start := by
  simp [counter]

theorem counter_succ (start stride : BitVec w) (k : Nat) :
    counter start stride (k + 1) = counter (start + stride) stride k := by
  apply BitVec.eq_of_toNat_eq
  rw [counter, counter, BitVec.toNat_ofNat, BitVec.toNat_ofNat, BitVec.toNat_add,
    Nat.mod_add_mod, Nat.succ_mul]
  congr 1
  omega

theorem counter_toNat {start stride : BitVec w} {k : Nat}
    (hwrap : start.toNat + k * stride.toNat < 2 ^ w) :
    (counter start stride k).toNat = start.toNat + k * stride.toNat := by
  rw [counter, BitVec.toNat_ofNat, Nat.mod_eq_of_lt hwrap]

section Loops

variable {cond : BitVec w → Prop} [DecidablePred cond] {stride : BitVec w}
  {body : BitVec w → Option (List α)}

/-- A loop whose condition first fails in round `n` ends there. -/
theorem forLoop_eq {start : BitVec w} {n : Nat} {out : Nat → List α}
    (hcond : ∀ k < n, cond (counter start stride k)) (hend : ¬ cond (counter start stride n))
    (hbody : ∀ k < n, body (counter start stride k) = some (out k)) {fuel : Nat}
    (hfuel : n < fuel) :
    forLoop cond stride body fuel start = some ((List.range n).flatMap out) := by
  induction n generalizing start fuel out with
  | zero =>
      cases fuel with
      | zero => omega
      | succ fuel =>
          rw [counter_zero] at hend
          exact if_neg hend
  | succ n ih =>
      cases fuel with
      | zero => omega
      | succ fuel =>
          have hrest : forLoop cond stride body fuel (start + stride) =
              some ((List.range n).flatMap fun k => out (k + 1)) := by
            apply ih
            · intro k hk
              rw [← counter_succ]
              exact hcond (k + 1) (by omega)
            · rw [← counter_succ]
              exact hend
            · intro k hk
              rw [← counter_succ]
              exact hbody (k + 1) (by omega)
            · omega
          have hfirst := hcond 0 (by omega)
          have hout := hbody 0 (by omega)
          rw [counter_zero] at hfirst hout
          rw [forLoop, if_pos hfirst, hout, hrest, List.range_succ_eq_map, List.flatMap_cons,
            List.flatMap_map]
          rfl

/-- A loop that ends went through the body of each of its rounds. -/
theorem forLoop_round {start : BitVec w} {fuel m : Nat} {outs : List α}
    (h : forLoop cond stride body fuel start = some outs)
    (hcond : ∀ k ≤ m, cond (counter start stride k)) :
    ∃ out, body (counter start stride m) = some out ∧ out ⊆ outs := by
  induction fuel generalizing start m outs with
  | zero => cases h
  | succ fuel ih =>
      have hfirst := hcond 0 (Nat.zero_le m)
      rw [counter_zero] at hfirst
      rw [forLoop, if_pos hfirst, Option.bind_eq_bind, Option.bind_eq_some_iff] at h
      obtain ⟨out, hout, h⟩ := h
      rw [Option.bind_eq_some_iff] at h
      obtain ⟨rest, hrest, h⟩ := h
      cases h
      cases m with
      | zero => exact ⟨out, by rw [counter_zero, hout], List.subset_append_left out rest⟩
      | succ m =>
          obtain ⟨later, hlater, hsub⟩ := ih (m := m) hrest (by
            intro k hk
            rw [← counter_succ]
            exact hcond (k + 1) (by omega))
          rw [counter_succ]
          exact ⟨later, hlater, List.Subset.trans hsub (List.subset_append_right out rest)⟩

end Loops

/-! ## Counting up to a bound -/

/-- How many strides there are from 0 to a bound. -/
theorem exists_rounds (bound : Nat) {s : Nat} (hs : 0 < s) :
    ∃ n, bound ≤ n * s ∧ n * s < bound + s ∧ ∀ k < n, k * s < bound := by
  have hdiv := Nat.div_add_mod (bound + (s - 1)) s
  have hmod := Nat.mod_lt (bound + (s - 1)) hs
  rw [Nat.mul_comm] at hdiv
  refine ⟨(bound + (s - 1)) / s, by omega, by omega, ?_⟩
  intro k hk
  have hle : (k + 1) * s ≤ (bound + (s - 1)) / s * s := Nat.mul_le_mul_right s hk
  rw [Nat.succ_mul] at hle
  omega

/-- A loop that counts up to a bound, and whose counter does not wrap, ends behind it. -/
theorem forLoop_lt {start stop stride : BitVec w} {body : BitVec w → Option (List α)} {n : Nat}
    {out : Nat → List α} (hrounds : ∀ k < n, start.toNat + k * stride.toNat < stop.toNat)
    (hstop : stop.toNat ≤ start.toNat + n * stride.toNat)
    (hwrap : start.toNat + n * stride.toNat < 2 ^ w)
    (hbody : ∀ k < n, body (counter start stride k) = some (out k)) {fuel : Nat}
    (hfuel : n < fuel) :
    forLoop (fun i => i < stop) stride body fuel start = some ((List.range n).flatMap out) := by
  refine forLoop_eq ?_ ?_ hbody hfuel
  · intro k hk
    have hlt := hrounds k hk
    rw [BitVec.lt_def, counter_toNat (Nat.lt_trans hlt stop.isLt)]
    exact hlt
  · rw [BitVec.lt_def, counter_toNat hwrap]
    omega

/-! ## Outputs that cover an interval -/

section Covers

variable {touches fills : α → Int → Prop}

/-- The outputs touch nothing outside of the interval from `lo` to `hi`, and fill it. -/
structure Covers (touches fills : α → Int → Prop) (outs : List α) (lo hi : Int) : Prop where
  inside : ∀ out ∈ outs, ∀ place, touches out place → lo ≤ place ∧ place < hi
  filled : ∀ place, lo ≤ place → place < hi → ∃ out ∈ outs, fills out place

theorem Covers.nil {lo hi : Int} (hempty : hi ≤ lo) :
    Covers touches fills ([] : List α) lo hi where
  inside _ hout := by cases hout
  filled place hlo hhi := by omega

theorem Covers.singleton {out : α} {lo hi : Int}
    (htouches : ∀ place, touches out place → lo ≤ place ∧ place < hi)
    (hfills : ∀ place, lo ≤ place → place < hi → fills out place) :
    Covers touches fills [out] lo hi where
  inside out' hout' := by
    rw [List.mem_singleton.mp hout']
    exact htouches
  filled place hlo hhi := ⟨out, List.mem_singleton_self out, hfills place hlo hhi⟩

/-- Two intervals that meet or overlap. -/
theorem Covers.append {outs outs' : List α} {lo lo' hi hi' : Int}
    (h : Covers touches fills outs lo hi) (h' : Covers touches fills outs' lo' hi')
    (hlo : lo ≤ lo') (hmeet : lo' ≤ hi) (hhi : hi ≤ hi') :
    Covers touches fills (outs ++ outs') lo hi' where
  inside out hout place htouch := by
    rcases List.mem_append.mp hout with hout | hout
    · obtain ⟨hge, hlt⟩ := h.inside out hout place htouch
      omega
    · obtain ⟨hge, hlt⟩ := h'.inside out hout place htouch
      omega
  filled place hge hlt := by
    by_cases hfirst : place < hi
    · obtain ⟨out, hout, hfill⟩ := h.filled place hge hfirst
      exact ⟨out, List.mem_append_left outs' hout, hfill⟩
    · obtain ⟨out, hout, hfill⟩ := h'.filled place (by omega) hlt
      exact ⟨out, List.mem_append_right outs hout, hfill⟩

/-- Rounds that cover one interval after the other. -/
theorem Covers.rounds (out : Nat → List α) (bound : Nat → Int) (n : Nat)
    (hmono : ∀ k < n, bound k ≤ bound (k + 1))
    (hround : ∀ k < n, Covers touches fills (out k) (bound k) (bound (k + 1))) :
    bound 0 ≤ bound n ∧
      Covers touches fills ((List.range n).flatMap out) (bound 0) (bound n) := by
  induction n with
  | zero => exact ⟨Int.le_refl _, Covers.nil (Int.le_refl _)⟩
  | succ n ih =>
      obtain ⟨hle, hbefore⟩ := ih (fun k hk => hmono k (by omega)) fun k hk => hround k (by omega)
      have hlast := hmono n (Nat.lt_succ_self n)
      rw [List.range_succ, List.flatMap_append, List.flatMap_cons, List.flatMap_nil,
        List.append_nil]
      refine ⟨by omega, ?_⟩
      exact hbefore.append (hround n (Nat.lt_succ_self n)) hle (Int.le_refl _) hlast

end Covers

end ForLoop
