import Tl880.SwapCopy

/-!
# Clearing card memory

What `tl880_clear_sdram` of `driver/tl880mem.c` leaves in the memory, for a device that is not
NULL.  The loop ends at `end_addr` or at the end of the memory, whichever comes first, and each
round writes the dword at `start_addr`.  Its counter has 32 bits; it does not wrap, since the
last dword of the address space is not below a `memlen` of at most `2 ^ 32 - 4`.

`clearLoop` is the loop of `tl880ClearSdram` with an end that can be seen.
-/

namespace Tl880

/-- The loop with `start_addr` at `i`; `none` is a loop still running after `fuel` rounds. -/
def clearLoop (endAddr value : U32) : Nat → U32 → CardMem → Option CardMem
  | 0, _, _ => none
  | fuel + 1, i, m =>
      if i < endAddr ∧ (i.setWidth 64 : U64) < m.memlen then
        clearLoop endAddr value fuel (i + 4) (tl880WriteMemory m i value)
      else some m

/-- `tl880_clear_sdram`, for at most `fuel` rounds of its loop. -/
def clearSdram (fuel : Nat) (m : CardMem) (startAddr endAddr value : U32) : Option CardMem :=
  clearLoop endAddr value fuel startAddr m

/-- Where the loop ends, the memory is that of the model without an end. -/
theorem clearSdram_mem {fuel : Nat} {m t : CardMem} {startAddr endAddr value : U32}
    (h : clearSdram fuel m startAddr endAddr value = some t) :
    tl880ClearSdram fuel m startAddr endAddr value = t := by
  rw [clearSdram] at h
  rw [tl880ClearSdram]
  -- the bound of the model's loop is that of the memory it began with, which no round changes
  generalize hmemlen : m.memlen = memlen
  induction fuel generalizing startAddr m with
  | zero => cases h
  | succ fuel ih =>
      rw [clearLoop, hmemlen] at h
      rw [dwordLoop]
      by_cases hround : startAddr < endAddr ∧ (startAddr.setWidth 64 : U64) < memlen
      · rw [if_pos hround] at h
        rw [if_pos (decide_eq_true hround)]
        exact ih h ((tl880WriteMemory_memlen m startAddr value).trans hmemlen)
      · rw [if_neg hround] at h
        rw [if_neg (by simpa using hround), Option.some.inj h]

/-! ## The loop -/

/-- The condition of the loop. -/
theorem clearRound_iff (m : CardMem) (i endAddr : U32) :
    i < endAddr ∧ (i.setWidth 64 : U64) < m.memlen ↔
      i.toNat < min endAddr.toNat m.memlen.toNat := by
  rw [BitVec.lt_def, BitVec.lt_def, wideAddr_toNat, Nat.lt_min]

/-- What the loop does from `start` on: the dwords that begin below `limit` get the value. -/
structure Cleared (m : CardMem) (start limit : Nat) (value : U32) (t : CardMem) : Prop where
  mapped : t.mapped = m.mapped
  memlen : t.memlen = m.memlen
  bytes : m.mapped = true → ∀ o, t.byte o =
    if start ≤ o ∧ o / 4 * 4 < limit then byteOf value (o % 4) else m.byte o
  idle : m.mapped = false → t = m

/-- Where no dword begins below the limit, nothing is done. -/
theorem Cleared.refl {m : CardMem} {start limit : Nat} (hstart : start % 4 = 0)
    (hlimit : limit ≤ start) (value : U32) : Cleared m start limit value m where
  mapped := rfl
  memlen := rfl
  bytes _ o := by rw [if_neg (by omega)]
  idle _ := rfl

/-- A round and then the rest. -/
theorem Cleared.round {m t : CardMem} {i value : U32} {limit : Nat} (hstart : i.toNat % 4 = 0)
    (hround : i.toNat < limit) (hle : i.toNat ≤ m.memlen.toNat)
    (h : Cleared (tl880WriteMemory m i value) (i.toNat + 4) limit value t) :
    Cleared m i.toNat limit value t where
  mapped := h.mapped.trans (tl880WriteMemory_mapped m i value)
  memlen := h.memlen.trans (tl880WriteMemory_memlen m i value)
  bytes hmapped o := by
    rw [h.bytes ((tl880WriteMemory_mapped m i value).trans hmapped),
      tl880WriteMemory_byte hmapped hle]
    by_cases hthis : i.toNat ≤ o ∧ o < i.toNat + 4
    · have hplace : o - i.toNat = o % 4 := by omega
      rw [if_neg (by omega), if_pos hthis, if_pos (by omega), hplace]
    · by_cases hlater : i.toNat + 4 ≤ o ∧ o / 4 * 4 < limit
      · rw [if_pos hlater, if_pos (by omega)]
      · rw [if_neg hlater, if_neg hthis, if_neg (by omega)]
  idle hmapped := by
    have hsame : tl880WriteMemory m i value = m := if_pos (Or.inl hmapped)
    rw [hsame] at h
    exact h.idle hmapped

theorem clearLoop_round {m : CardMem} {i endAddr : U32} (value : U32)
    (hround : i.toNat < min endAddr.toNat m.memlen.toNat) (fuel : Nat) :
    clearLoop endAddr value (fuel + 1) i m =
      clearLoop endAddr value fuel (i + 4) (tl880WriteMemory m i value) := by
  rw [clearLoop, if_pos ((clearRound_iff m i endAddr).mpr hround)]

theorem clearLoop_stops {m : CardMem} {i endAddr : U32} (value : U32)
    (hstop : ¬ i.toNat < min endAddr.toNat m.memlen.toNat) {fuel : Nat} (hfuel : 0 < fuel) :
    clearLoop endAddr value fuel i m = some m := by
  cases fuel with
  | zero => omega
  | succ fuel => rw [clearLoop, if_neg (mt (clearRound_iff m i endAddr).mp hstop)]

/-- The loop ends, after the rounds that the limit leaves for it. -/
theorem clearLoop_ends (endAddr value : U32) (n : Nat) {i : U32} {m : CardMem}
    (hi : i.toNat % 4 = 0) (hn : min endAddr.toNat m.memlen.toNat ≤ i.toNat + 4 * n)
    (hwrap : m.memlen.toNat ≤ 2 ^ 32 - 4) :
    ∃ t, (∀ fuel, n < fuel → clearLoop endAddr value fuel i m = some t) ∧
      Cleared m i.toNat (min endAddr.toNat m.memlen.toNat) value t := by
  induction n generalizing i m with
  | zero =>
      refine ⟨m, ?_, Cleared.refl hi (by omega) value⟩
      intro fuel hfuel
      exact clearLoop_stops value (by omega) hfuel
  | succ n ih =>
      by_cases hround : i.toNat < min endAddr.toNat m.memlen.toNat
      · have hnext : (i + 4).toNat = i.toNat + 4 := nextDword_toNat (by omega)
        have hmemlen : (tl880WriteMemory m i value).memlen = m.memlen :=
          tl880WriteMemory_memlen m i value
        have hrest := ih (i := i + 4) (m := tl880WriteMemory m i value) (by omega)
          (by rw [hmemlen, hnext]; omega) (by rw [hmemlen]; exact hwrap)
        rw [hmemlen, hnext] at hrest
        obtain ⟨t, hends, hcleared⟩ := hrest
        refine ⟨t, ?_, Cleared.round hi hround (by omega) hcleared⟩
        intro fuel hfuel
        obtain ⟨fuel, rfl⟩ : ∃ k, fuel = k + 1 := ⟨fuel - 1, by omega⟩
        rw [clearLoop_round value hround]
        exact hends fuel (by omega)
      · refine ⟨m, ?_, Cleared.refl hi (by omega) value⟩
        intro fuel hfuel
        exact clearLoop_stops value hround (by omega)

/-- More rounds do not change how the loop ends. -/
theorem clearLoop_mono {endAddr value : U32} {fuel fuel' : Nat} {i : U32} {m t : CardMem}
    (h : clearLoop endAddr value fuel i m = some t) (hle : fuel ≤ fuel') :
    clearLoop endAddr value fuel' i m = some t := by
  induction fuel generalizing fuel' i m with
  | zero => cases h
  | succ fuel ih =>
      obtain ⟨fuel', rfl⟩ : ∃ k, fuel' = k + 1 := ⟨fuel' - 1, by omega⟩
      rw [clearLoop] at h ⊢
      split_ifs at h ⊢
      · exact ih h (by omega)
      · exact h

/-- Clearing up to an aligned address and then from there on is one loop. -/
theorem clearLoop_append {mid endAddr value : U32} (hmid : mid.toNat % 4 = 0)
    (hend : mid.toNat ≤ endAddr.toNat) {fuel fuel' : Nat} {i : U32} {m t₁ t : CardMem}
    (hi : i.toNat % 4 = 0) (hle : i.toNat ≤ mid.toNat)
    (h₁ : clearLoop mid value fuel i m = some t₁)
    (h₂ : clearLoop endAddr value fuel' mid t₁ = some t) :
    clearLoop endAddr value (fuel + fuel') i m = some t := by
  induction fuel generalizing i m with
  | zero => cases h₁
  | succ fuel ih =>
      have hmidlt := mid.isLt
      by_cases hround : i.toNat < min mid.toNat m.memlen.toNat
      · have hnext : (i + 4).toNat = i.toNat + 4 := nextDword_toNat (by omega)
        rw [clearLoop_round value hround] at h₁
        rw [Nat.add_right_comm, clearLoop_round value (by omega)]
        exact ih (by omega) (by omega) h₁
      · rw [clearLoop_stops value hround (Nat.succ_pos fuel)] at h₁
        cases h₁
        by_cases hmet : i.toNat = mid.toNat
        · rw [BitVec.eq_of_toNat_eq hmet]
          exact clearLoop_mono h₂ (by omega)
        · -- the memory ended first, and the second loop has nothing to do
          have hfuel' : 0 < fuel' := by
            cases fuel' with
            | zero => cases h₂
            | succ fuel' => exact Nat.succ_pos fuel'
          rw [clearLoop_stops value (by omega) hfuel'] at h₂
          rw [clearLoop_stops value (by omega) (by omega)]
          exact h₂

/-! ## The dwords -/

/-- A dword depends on its four bytes. -/
theorem dwordAt_congr {byte byte' : Nat → U8} {a : Nat}
    (h : ∀ j < 4, byte' (a + j) = byte (a + j)) : dwordAt byte' a = dwordAt byte a := by
  have h0 : byte' a = byte a := h 0 (by decide)
  rw [dwordAt, h 3 (by decide), h 2 (by decide), h 1 (by decide), h0, dwordAt]

/-- The dwords after the loop. -/
theorem Cleared.dword {m t : CardMem} {start limit : Nat} {value : U32}
    (h : Cleared m start limit value t) (hmapped : m.mapped = true) (hstart : start % 4 = 0)
    {a : Nat} (ha : a % 4 = 0) :
    dwordAt t.byte a = if start ≤ a ∧ a < limit then value else dwordAt m.byte a := by
  split_ifs with hin
  · refine dwordAt_bytes ?_
    intro j hj
    have hplace : (a + j) % 4 = j := by omega
    rw [h.bytes hmapped, if_pos (by omega), hplace]
  · refine dwordAt_congr ?_
    intro j hj
    rw [h.bytes hmapped, if_neg (by omega)]

/-- Clearing is exact: the call ends, the dwords from the start on that begin below the end and
in the memory hold the value, and every other dword is what it was.  Clearing in two parts that
meet at an aligned address is clearing the whole. -/
theorem tl880ClearSdram_exact (m : CardMem) (startAddr endAddr value : U32)
    (hstart : startAddr.toNat % 4 = 0) (hmemlen : m.memlen.toNat ≤ 2 ^ 32 - 4) :
    ∃ t, (∀ fuel, 2 ^ 30 ≤ fuel → clearSdram fuel m startAddr endAddr value = some t ∧
        tl880ClearSdram fuel m startAddr endAddr value = t) ∧
      (m.mapped = true → ∀ a, a % 4 = 0 → dwordAt t.byte a =
        if startAddr.toNat ≤ a ∧ a < min endAddr.toNat m.memlen.toNat then value
        else dwordAt m.byte a) ∧
      (m.mapped = false → t = m) ∧
      ∀ mid : U32, mid.toNat % 4 = 0 → startAddr.toNat ≤ mid.toNat →
        mid.toNat ≤ endAddr.toNat →
        ∃ t₁, ∀ fuel, 2 ^ 30 ≤ fuel → clearSdram fuel m startAddr mid value = some t₁ ∧
          clearSdram fuel t₁ mid endAddr value = some t := by
  have hends : ∀ (m : CardMem) (i stop : U32), i.toNat % 4 = 0 → m.memlen.toNat ≤ 2 ^ 32 - 4 →
      ∃ t, (∀ fuel, 2 ^ 30 ≤ fuel → clearSdram fuel m i stop value = some t) ∧
        Cleared m i.toNat (min stop.toNat m.memlen.toNat) value t := by
    intro m i stop hi hle
    obtain ⟨t, hrun, hcleared⟩ := clearLoop_ends stop value (2 ^ 30 - 1) hi (by omega) hle
    exact ⟨t, fun fuel hfuel => hrun fuel (by omega), hcleared⟩
  obtain ⟨t, hrun, hcleared⟩ := hends m startAddr endAddr hstart hmemlen
  refine ⟨t, ?_, ?_, hcleared.idle, ?_⟩
  · intro fuel hfuel
    exact ⟨hrun fuel hfuel, clearSdram_mem (hrun fuel hfuel)⟩
  · intro hmapped a ha
    exact hcleared.dword hmapped hstart ha
  · intro mid hmid hle hend
    obtain ⟨t₁, hrun₁, hcleared₁⟩ := hends m startAddr mid hstart hmemlen
    obtain ⟨t₂, hrun₂, -⟩ := hends t₁ mid endAddr hmid (by rw [hcleared₁.memlen]; exact hmemlen)
    refine ⟨t₁, ?_⟩
    intro fuel hfuel
    have hwhole : clearSdram (fuel + fuel) m startAddr endAddr value = some t₂ :=
      clearLoop_append hmid hend hstart hle (hrun₁ fuel hfuel) (hrun₂ fuel hfuel)
    rw [hrun (fuel + fuel) (by omega)] at hwhole
    rw [Option.some.inj hwhole]
    exact ⟨hrun₁ fuel hfuel, hrun₂ fuel hfuel⟩

/-- Four dwords of memory, all but the first one cleared, up to an end that is not aligned. -/
theorem tl880ClearSdram_exact_small :
    ∃ t, clearSdram (2 ^ 30) ⟨true, 0x10, fun _ => 0, []⟩ 4 0xe 0x01020304 = some t ∧
      dwordAt t.byte 0 = 0 ∧ dwordAt t.byte 4 = 0x01020304 ∧ dwordAt t.byte 12 = 0x01020304 ∧
      dwordAt t.byte 16 = 0 := by
  obtain ⟨t, hrun, hdwords, -⟩ :=
    tl880ClearSdram_exact ⟨true, 0x10, fun _ => 0, []⟩ 4 0xe 0x01020304 (by decide) (by decide)
  refine ⟨t, (hrun (2 ^ 30) (Nat.le_refl _)).1, ?_, ?_, ?_, ?_⟩
  · rw [hdwords rfl 0 (by decide), if_neg (by decide)]
    rfl
  · rw [hdwords rfl 4 (by decide), if_pos (by decide)]
  · rw [hdwords rfl 12 (by decide), if_pos (by decide)]
  · rw [hdwords rfl 16 (by decide), if_neg (by decide)]
    rfl

end Tl880
