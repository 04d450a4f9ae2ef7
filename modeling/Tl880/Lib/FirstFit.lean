import Mathlib.Tactic.Common

/-!
# First-fit search in a bitmap

A bitmap is a function from positions to bits; a set bit is a unit in use.  A
request for `n` units with start positions below `limit` fits at `s` when the
units from `s` on are all free.  A first-fit search never has to try every
start: it may skip over set bits, and after a run that is too short it may go on
behind the set bit that ended it.  `NoFitBelow` is the invariant of such a
search, and the two skipping rules are what one round of it needs.
-/

namespace FirstFit

variable (bits : Nat → Bool)

/-- Look at `fuel` positions from `pos` on and stop at the first bit equal to
`want`. -/
def scan (want : Bool) : Nat → Nat → Nat
  | 0, pos => pos
  | fuel + 1, pos =>
      if bits pos = want then pos else scan want fuel (pos + 1)

/-- The first position in `[offset, size)` whose bit is `want`, and `size` when
there is none. -/
def nextBit (want : Bool) (size offset : Nat) : Nat :=
  if offset < size then scan bits want (size - offset) offset else size

/-- `r` is where a scan of `[offset, size)` for a bit equal to `want` stops. -/
structure Stops (want : Bool) (size offset r : Nat) : Prop where
  lower : offset ≤ r
  upper : r ≤ size
  passed : ∀ i, offset ≤ i → i < r → bits i ≠ want
  found : r < size → bits r = want

theorem scan_stops (want : Bool) (fuel pos : Nat) :
    Stops bits want (pos + fuel) pos (scan bits want fuel pos) := by
  induction fuel generalizing pos with
  | zero =>
      constructor
      · exact Nat.le_refl pos
      · exact Nat.le_refl pos
      · intro i hlow hhigh
        exact absurd hhigh (Nat.not_lt.mpr hlow)
      · intro hlt
        exact absurd hlt (Nat.lt_irrefl pos)
  | succ fuel ih =>
      by_cases hbit : bits pos = want
      · rw [scan, if_pos hbit]
        constructor
        · exact Nat.le_refl pos
        · omega
        · intro i hlow hhigh
          omega
        · intro _
          exact hbit
      · rw [scan, if_neg hbit]
        have hrest := ih (pos + 1)
        have hsize : pos + 1 + fuel = pos + (fuel + 1) := by omega
        rw [hsize] at hrest
        constructor
        · have := hrest.lower
          omega
        · exact hrest.upper
        · intro i hlow hhigh
          rcases Nat.eq_or_lt_of_le hlow with heq | hlt
          · rw [← heq]
            exact hbit
          · exact hrest.passed i hlt hhigh
        · exact hrest.found

theorem nextBit_stops (want : Bool) {size offset : Nat} (h : offset ≤ size) :
    Stops bits want size offset (nextBit bits want size offset) := by
  rcases Nat.eq_or_lt_of_le h with heq | hlt
  · subst heq
    rw [nextBit, if_neg (Nat.lt_irrefl offset)]
    constructor
    · exact Nat.le_refl offset
    · exact Nat.le_refl offset
    · intro i hlow hhigh
      omega
    · intro hlt
      omega
  · have hscan := scan_stops bits want (size - offset) offset
    rw [Nat.add_sub_cancel' h] at hscan
    rw [nextBit, if_pos hlt]
    exact hscan

/-- A request for `n` units fits at `s`.  A request for no unit at all still
takes a start whose own unit is free. -/
def Fits (n limit s : Nat) : Prop :=
  s < limit ∧ bits s = false ∧ ∀ i, i < n → bits (s + i) = false

/-- No start below `pos` fits. -/
def NoFitBelow (n limit pos : Nat) : Prop := ∀ s, s < pos → ¬ Fits bits n limit s

/-- `s` is the lowest start that fits. -/
def LowestFit (n limit s : Nat) : Prop :=
  Fits bits n limit s ∧ NoFitBelow bits n limit s

variable {bits}

/-- A free unit with no unit in use close behind it is a start that fits. -/
theorem fits_of_passed {n limit s : Nat} (hlimit : s < limit) (hfree : bits s = false)
    (hpassed : ∀ i, s + 1 ≤ i → i < s + n → bits i ≠ true) : Fits bits n limit s := by
  refine ⟨hlimit, hfree, ?_⟩
  intro i hi
  rcases Nat.eq_zero_or_pos i with hzero | hpos
  · rw [hzero]
    exact hfree
  · exact Bool.eq_false_iff.mpr (hpassed (s + i) (by omega) (by omega))

theorem noFitBelow_zero (n limit : Nat) : NoFitBelow bits n limit 0 := by
  intro s hs
  exact absurd hs (Nat.not_lt_zero s)

/-- Skipping rule: starts whose own unit is in use need not be tried. -/
theorem NoFitBelow.skip_used {n limit pos next : Nat}
    (h : NoFitBelow bits n limit pos)
    (hused : ∀ i, pos ≤ i → i < next → bits i ≠ false) :
    NoFitBelow bits n limit next := by
  intro s hs hfit
  rcases Nat.lt_or_ge s pos with hlt | hge
  · exact h s hlt hfit
  · exact hused s hge hs hfit.2.1

/-- Skipping rule: a unit in use within `n` of `start` rules out every start up
to it. -/
theorem NoFitBelow.skip_short {n limit start stop : Nat}
    (h : NoFitBelow bits n limit start) (hstop : bits stop = true)
    (hshort : stop < start + n) : NoFitBelow bits n limit (stop + 1) := by
  intro s hs hfit
  rcases Nat.lt_or_ge s start with hlt | hge
  · exact h s hlt hfit
  · have hfree := hfit.2.2 (stop - s) (by omega)
    rw [Nat.add_sub_cancel' (by omega : s ≤ stop)] at hfree
    rw [hstop] at hfree
    exact Bool.noConfusion hfree

/-- Past the limit nothing fits. -/
theorem NoFitBelow.none {n limit pos : Nat} (h : NoFitBelow bits n limit pos)
    (hpos : limit ≤ pos) (s : Nat) : ¬ Fits bits n limit s := by
  intro hfit
  exact h s (Nat.lt_of_lt_of_le hfit.1 hpos) hfit

/-- There is at most one lowest start. -/
theorem LowestFit.unique {n limit s t : Nat} (hs : LowestFit bits n limit s)
    (ht : LowestFit bits n limit t) : s = t := by
  rcases Nat.lt_trichotomy s t with hlt | heq | hgt
  · exact absurd hs.1 (ht.2 s hlt)
  · exact heq
  · exact absurd ht.1 (hs.2 t hgt)

/-- The lowest start is below every other one. -/
theorem LowestFit.le {n limit s t : Nat} (hs : LowestFit bits n limit s)
    (ht : Fits bits n limit t) : s ≤ t := by
  rcases Nat.lt_or_ge t s with hlt | hge
  · exact absurd ht (hs.2 t hlt)
  · exact hge

/-- Where there is a start there is a lowest one. -/
theorem Fits.exists_lowest {n limit s : Nat} (h : Fits bits n limit s) :
    ∃ t, LowestFit bits n limit t := by
  induction s using Nat.strongRecOn with
  | ind s ih =>
  by_cases hbelow : NoFitBelow bits n limit s
  · exact ⟨s, h, hbelow⟩
  · simp only [NoFitBelow, not_forall, not_not] at hbelow
    obtain ⟨t, hlt, hfits⟩ := hbelow
    exact ih t hlt hfits

/-- The lowest start has a property exactly when each start without it has a lower start
with it. -/
theorem forall_lowestFit_iff {n limit : Nat} {P : Nat → Prop} :
    (∀ s, LowestFit bits n limit s → P s) ↔
      ∀ s, Fits bits n limit s → ¬ P s → ∃ t, t < s ∧ Fits bits n limit t ∧ P t := by
  constructor
  · intro h s hfits hs
    obtain ⟨t, hlowest⟩ := hfits.exists_lowest
    have ht := h t hlowest
    refine ⟨t, ?_, hlowest.1, ht⟩
    apply Nat.lt_of_le_of_ne (hlowest.le hfits)
    intro heq
    exact hs (heq ▸ ht)
  · intro h s hlowest
    by_contra hs
    obtain ⟨t, hlt, hfits, -⟩ := h s hlowest.1 hs
    exact hlowest.2 t hlt hfits

variable (bits) in
/-- The answer of a search: the lowest start that fits, or nothing when nothing
fits. -/
structure Answer (n limit : Nat) (answer : Option Nat) : Prop where
  lowest : ∀ s, answer = some s → LowestFit bits n limit s
  complete : answer = none → ∀ s, ¬ Fits bits n limit s

theorem LowestFit.answer {n limit s : Nat} (h : LowestFit bits n limit s) :
    Answer bits n limit (some s) := by
  constructor
  · intro t ht
    cases ht
    exact h
  · intro hnone
    cases hnone

theorem Answer.of_none {n limit : Nat} (h : ∀ s, ¬ Fits bits n limit s) :
    Answer bits n limit none := by
  constructor
  · intro t ht
    cases ht
  · intro _
    exact h

/-- Mark `count` units from `start` on. -/
def mark (bits : Nat → Bool) (value : Bool) (start count : Nat) : Nat → Bool :=
  fun i => if start ≤ i ∧ i < start + count then value else bits i

theorem mark_inside (value : Bool) {start count i : Nat} (hlow : start ≤ i)
    (hhigh : i < start + count) : mark bits value start count i = value := by
  simp [mark, hlow, hhigh]

theorem mark_outside (value : Bool) {start count i : Nat}
    (h : i < start ∨ start + count ≤ i) : mark bits value start count i = bits i := by
  have hnot : ¬ (start ≤ i ∧ i < start + count) := by omega
  simp only [mark, if_neg hnot]

end FirstFit
