import Tl880.CardAccess

/-!
# Swapping copies

What `tl880_memcpy_swab32` and `tl880_memcpy_swahw32` of `driver/tl880mem.c` copy.  Their
loop counts in card addresses and uses the count for the source too, so the dword at card
address `a` is source word `a / 4`, where the `k`-th dword of the copy should be source
word `k`.  The length is not truncated to a multiple of four either.

`swapCopy` is the function that `memcpySwapped` is, with the source words it reads.
-/

namespace Tl880

/-! ## The copy and what it reads -/

/-- The card's memory and the source words that were read, the last one first. -/
structure SwapCopy where
  mem : CardMem
  reads : List Nat

/-- The source as words. -/
def sourceWord (src : Nat → U8) (k : Nat) : U32 := dwordAt src (4 * k)

/-- The loop with its counter at `i`; `none` when it is still running after `fuel`
rounds. -/
def swapLoop (swap : U32 → U32) (src : Nat → U8) (stop : U64) :
    Nat → U32 → SwapCopy → Option SwapCopy
  | 0, _, _ => none
  | fuel + 1, i, c =>
      if (i.setWidth 64 : U64) < stop then
        swapLoop swap src stop fuel (i + 4)
          ⟨tl880WriteMemory c.mem i (swap (sourceWord src (i / 4).toNat)),
            (i / 4).toNat :: c.reads⟩
      else some c

/-- The body of both functions for a source that is not NULL. -/
def swapCopy (swap : U32 → U32) (fuel : Nat) (m : CardMem) (src : Nat → U8) (addr : U32)
    (length : U64) : Option SwapCopy :=
  if m.memlen < addr.setWidth 64 then some ⟨m, []⟩
  else swapLoop swap src (addr.setWidth 64 + clampLength m addr length) fuel addr ⟨m, []⟩

/-- Where the loop ends, the memory is that of the model without the reads. -/
theorem swapLoop_mem {swap : U32 → U32} {src : Nat → U8} {stop : U64} {fuel : Nat} {i : U32}
    {c t : SwapCopy} (h : swapLoop swap src stop fuel i c = some t) :
    dwordLoop (fun i => (i.setWidth 64 : U64) < stop)
      (fun i m => tl880WriteMemory m i (swap (dwordAt src (4 * (i / 4).toNat)))) fuel i c.mem =
        t.mem := by
  induction fuel generalizing i c with
  | zero => cases h
  | succ fuel ih =>
      rw [swapLoop] at h
      rw [dwordLoop]
      by_cases hround : (i.setWidth 64 : U64) < stop
      · rw [if_pos hround] at h
        rw [if_pos (decide_eq_true hround)]
        exact ih h
      · rw [if_neg hround] at h
        rw [if_neg (by simpa using hround), Option.some.inj h]

theorem swapCopy_mem {swap : U32 → U32} {fuel : Nat} {m : CardMem} {src : Nat → U8}
    {addr : U32} {length : U64} {t : SwapCopy}
    (h : swapCopy swap fuel m src addr length = some t) :
    memcpySwapped swap fuel m (some src) addr length = t.mem := by
  unfold swapCopy at h
  unfold memcpySwapped
  split_ifs at h with hpast
  · rw [← Option.some.inj h]
    exact if_pos hpast
  · exact (if_neg hpast).trans (swapLoop_mem h)

/-- The loop ends in one way only. -/
theorem swapLoop_unique {swap : U32 → U32} {src : Nat → U8} {stop : U64} {fuel fuel' : Nat}
    {i : U32} {c t t' : SwapCopy} (h : swapLoop swap src stop fuel i c = some t)
    (h' : swapLoop swap src stop fuel' i c = some t') : t = t' := by
  induction fuel generalizing fuel' i c with
  | zero => cases h
  | succ fuel ih =>
      cases fuel' with
      | zero => cases h'
      | succ fuel' =>
          rw [swapLoop] at h h'
          split_ifs at h h'
          · exact ih h h'
          · exact Option.some.inj (h.symm.trans h')

/-! ## Bytes of a dword -/

/-- Byte `j` of a dword in memory. -/
def byteOf (value : U32) (j : Nat) : U8 := (value >>> (8 * j)).setWidth 8

/-- A dword is its four bytes. -/
theorem dwordAt_bytes {byte : Nat → U8} {offset : Nat} {value : U32}
    (h : ∀ j < 4, byte (offset + j) = byteOf value j) : dwordAt byte offset = value := by
  have h0 : byte offset = byteOf value 0 := h 0 (by decide)
  rw [dwordAt, h 3 (by decide), h 2 (by decide), h 1 (by decide), h0]
  apply BitVec.eq_of_getLsbD_eq
  intro i hi
  simp only [byteOf, BitVec.getLsbD_append, BitVec.getLsbD_setWidth, BitVec.getLsbD_ushiftRight]
  by_cases h8 : i < 8
  · simp [h8]
  by_cases h16 : i < 16
  · have hlow : i - 8 < 8 := by omega
    have hplace : 8 + (i - 8) = i := by omega
    simp [h8, hlow, hplace]
  by_cases h24 : i < 24
  · have hhigh : ¬ i - 8 < 8 := by omega
    have hlow : i - 8 - 8 < 8 := by omega
    have hplace : 16 + (i - 8 - 8) = i := by omega
    simp [h8, hhigh, hlow, hplace]
  · have hmid : ¬ i - 8 < 8 := by omega
    have hhigh : ¬ i - 8 - 8 < 8 := by omega
    have hlow : i - 8 - 8 - 8 < 8 := by omega
    have hplace : 24 + (i - 8 - 8 - 8) = i := by omega
    simp [h8, hmid, hhigh, hlow, hplace]

/-- A dword that is written takes its four bytes, and leaves the others. -/
theorem tl880WriteMemory_byte {m : CardMem} (hmapped : m.mapped = true) {mem : U32}
    (hle : mem.toNat ≤ m.memlen.toNat) (value : U32) (o : Nat) :
    (tl880WriteMemory m mem value).byte o =
      if mem.toNat ≤ o ∧ o < mem.toNat + 4 then byteOf value (o - mem.toNat) else m.byte o := by
  rw [tl880WriteMemory, if_neg]
  · rfl
  · rw [refused_iff]
    exact not_not.mpr ⟨hmapped, hle⟩

/-! ## Swapping twice -/

/-- `swab32` reverses the bytes and keeps the bits within each. -/
theorem getLsbD_swab32 (x : U32) {i : Nat} (hi : i < 32) :
    (swab32 x).getLsbD i = x.getLsbD ((3 - i / 8) * 8 + i % 8) := by
  have hmask : ∀ j < 32, (0xff00#32).getLsbD j = decide (8 ≤ j ∧ j < 16) := by decide
  have hswab : swab32 x = (x <<< 24) ||| ((x &&& 0xff00#32) <<< 8) |||
    ((x >>> 8) &&& 0xff00#32) ||| (x >>> 24) := rfl
  simp only [hswab, BitVec.getLsbD_or, BitVec.getLsbD_and, BitVec.getLsbD_shiftLeft,
    BitVec.getLsbD_ushiftRight, hmask i hi]
  have hzero : ∀ j, 32 ≤ j → x.getLsbD j = false := fun j hj => BitVec.getLsbD_of_ge x j hj
  obtain h0 | h1 | h2 | h3 : i / 8 = 0 ∨ i / 8 = 1 ∨ i / 8 = 2 ∨ i / 8 = 3 := by omega
  · have hplace : (3 - i / 8) * 8 + i % 8 = 24 + i := by omega
    have hlow : i < 8 ∧ i < 24 ∧ ¬ 8 ≤ i := by omega
    simp [hplace, hlow]
  · have hplace : (3 - i / 8) * 8 + i % 8 = 8 + i := by omega
    have hbyte : 8 ≤ i ∧ i < 16 ∧ i < 24 := by omega
    have hleft : (0xff00#32).getLsbD (i - 8) = false := by
      rw [hmask (i - 8) (by omega), decide_eq_false_iff_not]
      omega
    simp [hplace, hbyte, hleft, hzero (24 + i) (by omega)]
  · have hplace : (3 - i / 8) * 8 + i % 8 = i - 8 := by omega
    have hbyte : ¬ i < 16 ∧ i < 24 ∧ ¬ i < 8 := by omega
    have hleft : (0xff00#32).getLsbD (i - 8) = true := by
      rw [hmask (i - 8) (by omega), decide_eq_true_iff]
      omega
    simp [hplace, hbyte, hi, hleft, hzero (24 + i) (by omega)]
  · have hplace : (3 - i / 8) * 8 + i % 8 = i - 24 := by omega
    have hbyte : ¬ i < 16 ∧ ¬ i < 24 := by omega
    have hleft : (0xff00#32).getLsbD (i - 8) = false := by
      rw [hmask (i - 8) (by omega), decide_eq_false_iff_not]
      omega
    simp [hplace, hbyte, hi, hleft, hzero (24 + i) (by omega)]

theorem swab32_swab32 (x : U32) : swab32 (swab32 x) = x := by
  apply BitVec.eq_of_getLsbD_eq
  intro i hi
  rw [getLsbD_swab32 _ hi, getLsbD_swab32 _ (by omega)]
  congr 1
  omega

/-- `swahw32` exchanges the halfwords. -/
theorem getLsbD_swahw32 (x : U32) {i : Nat} (hi : i < 32) :
    (swahw32 x).getLsbD i = x.getLsbD ((i + 16) % 32) := by
  simp only [swahw32, BitVec.getLsbD_or, BitVec.getLsbD_shiftLeft, BitVec.getLsbD_ushiftRight]
  by_cases hlow : i < 16
  · have hplace : (i + 16) % 32 = 16 + i := by omega
    simp [hplace, hlow]
  · have hplace : (i + 16) % 32 = i - 16 := by omega
    have hout : x.getLsbD (16 + i) = false := BitVec.getLsbD_of_ge x _ (by omega)
    simp [hplace, hlow, hi, hout]

theorem swahw32_swahw32 (x : U32) : swahw32 (swahw32 x) = x := by
  apply BitVec.eq_of_getLsbD_eq
  intro i hi
  rw [getLsbD_swahw32 _ hi, getLsbD_swahw32 _ (by omega)]
  congr 1
  omega

/-! ## What the loop does -/

/-- The index of the source word for an aligned card address. -/
theorem sourceIndex_toNat (i : U32) : (i / 4).toNat = i.toNat / 4 := BitVec.toNat_udiv

/-- One round. -/
theorem swapLoop_round {swap : U32 → U32} {src : Nat → U8} {stop : U64} {i : U32}
    (hround : i.toNat < stop.toNat) (fuel : Nat) (c : SwapCopy) :
    swapLoop swap src stop (fuel + 1) i c =
      swapLoop swap src stop fuel (i + 4)
        ⟨tl880WriteMemory c.mem i (swap (sourceWord src (i.toNat / 4))),
          i.toNat / 4 :: c.reads⟩ := by
  rw [swapLoop, sourceIndex_toNat, if_pos]
  rw [BitVec.lt_def, wideAddr_toNat]
  exact hround

/-- What the loop does from card address `i` on over `n` dwords: they get the swapped source
words of their own addresses, and these are the words that are read. -/
structure SwapsRange (swap : U32 → U32) (src : Nat → U8) (i n : Nat) (c t : SwapCopy) : Prop where
  bytes : ∀ o, t.mem.byte o =
    if i ≤ o ∧ o < i + 4 * n then byteOf (swap (sourceWord src (o / 4))) (o % 4)
    else c.mem.byte o
  reads : ∀ j, j ∈ t.reads ↔ j ∈ c.reads ∨ i / 4 ≤ j ∧ j < i / 4 + n

theorem SwapsRange.zero (swap : U32 → U32) (src : Nat → U8) (i : Nat) (c : SwapCopy) :
    SwapsRange swap src i 0 c c := by
  constructor
  · intro o
    rw [if_neg (by omega)]
  · intro j
    constructor
    · exact Or.inl
    · rintro (hread | hrange)
      · exact hread
      · omega

/-- A round and then the rest. -/
theorem SwapsRange.succ {swap : U32 → U32} {src : Nat → U8} {i : U32} {n : Nat} {c t : SwapCopy}
    (hmapped : c.mem.mapped = true) (hle : i.toNat ≤ c.mem.memlen.toNat)
    (haligned : i.toNat % 4 = 0)
    (h : SwapsRange swap src (i.toNat + 4) n
      ⟨tl880WriteMemory c.mem i (swap (sourceWord src (i.toNat / 4))), i.toNat / 4 :: c.reads⟩ t) :
    SwapsRange swap src i.toNat (n + 1) c t := by
  constructor
  · intro o
    rw [h.bytes, tl880WriteMemory_byte hmapped hle]
    by_cases hthis : i.toNat ≤ o ∧ o < i.toNat + 4
    · have hword : i.toNat / 4 = o / 4 := by omega
      have hplace : o - i.toNat = o % 4 := by omega
      rw [if_neg (by omega), if_pos hthis, if_pos (by omega), hword, hplace]
    · by_cases hlater : i.toNat + 4 ≤ o ∧ o < i.toNat + 4 + 4 * n
      · rw [if_pos hlater, if_pos (by omega)]
      · rw [if_neg hlater, if_neg hthis, if_neg (by omega)]
  · intro j
    have hindex : (i.toNat + 4) / 4 = i.toNat / 4 + 1 := by omega
    rw [h.reads, List.mem_cons, hindex]
    constructor
    · rintro ((heq | hread) | hrange)
      · right
        omega
      · exact Or.inl hread
      · right
        omega
    · rintro (hread | hrange)
      · exact Or.inl (Or.inr hread)
      · by_cases heq : j = i.toNat / 4
        · exact Or.inl (Or.inl heq)
        · right
          omega

/-- The loop over `n` dwords ends. -/
theorem swapLoop_ends (swap : U32 → U32) (src : Nat → U8) {stop : U64} (n : Nat) {i : U32}
    {c : SwapCopy} (hmapped : c.mem.mapped = true) (hstop : stop.toNat ≤ c.mem.memlen.toNat)
    (haligned : i.toNat % 4 = 0) (hbefore : ∀ k < n, i.toNat + 4 * k < stop.toNat)
    (hends : stop.toNat ≤ i.toNat + 4 * n) (hnowrap : i.toNat + 4 * n < 2 ^ 32) :
    ∃ t, swapLoop swap src stop (n + 1) i c = some t ∧ SwapsRange swap src i.toNat n c t := by
  induction n generalizing i c with
  | zero =>
      refine ⟨c, ?_, SwapsRange.zero swap src i.toNat c⟩
      rw [swapLoop, if_neg]
      rw [BitVec.lt_def, wideAddr_toNat]
      omega
  | succ n ih =>
      have hround : i.toNat < stop.toNat := hbefore 0 (Nat.succ_pos n)
      have hnext : (i + 4).toNat = i.toNat + 4 := nextDword_toNat (by omega)
      obtain ⟨t, hends, hrange⟩ := ih
        (i := i + 4)
        (c := ⟨tl880WriteMemory c.mem i (swap (sourceWord src (i.toNat / 4))),
          i.toNat / 4 :: c.reads⟩)
        ((tl880WriteMemory_mapped _ _ _).trans hmapped)
        (by rw [tl880WriteMemory_memlen]; exact hstop)
        (by omega)
        (fun k hk => by
          have hlater := hbefore (k + 1) (by omega)
          omega)
        (by omega) (by omega)
      rw [hnext] at hrange
      refine ⟨t, ?_, SwapsRange.succ hmapped (by omega) haligned hrange⟩
      rw [swapLoop_round hround]
      exact hends

/-- If the last dword of the address space begins before the stop, the counter wraps and
the loop does not end. -/
theorem swapLoop_forever (swap : U32 → U32) (src : Nat → U8) {stop : U64}
    (hstop : 2 ^ 32 - 4 < stop.toNat) (fuel : Nat) {i : U32} (haligned : i.toNat % 4 = 0)
    (c : SwapCopy) : swapLoop swap src stop fuel i c = none := by
  induction fuel generalizing i c with
  | zero => rfl
  | succ fuel ih =>
      have hi := i.isLt
      rw [swapLoop_round (by omega)]
      apply ih
      have hfour : (4 : U32).toNat = 4 := rfl
      rw [BitVec.toNat_add, hfour]
      omega

/-! ## The copy as a whole -/

/-- The number of bytes that are to be copied: the length, clipped at the end of card
memory. -/
def copyLength (m : CardMem) (addr : U32) (length : U64) : Nat :=
  min length.toNat (m.memlen.toNat - addr.toNat)

/-- The copy ends; then the dword at `addr + 4 * k` is the swapped source word `k` for
every whole dword, no other byte of the card has changed, and only source words of the
length were read. -/
def CopiesWords (swap : U32 → U32) (m : CardMem) (src : Nat → U8) (addr : U32) (length : U64) :
    Prop :=
  ∃ fuel t, swapCopy swap fuel m src addr length = some t ∧
    (∀ k < copyLength m addr length / 4,
      dwordAt t.mem.byte (addr.toNat + 4 * k) = swap (sourceWord src k)) ∧
    (∀ o < m.memlen.toNat,
      ¬ (addr.toNat ≤ o ∧ o < addr.toNat + 4 * (copyLength m addr length / 4)) →
        t.mem.byte o = m.byte o) ∧
    ∀ j ∈ t.reads, j < length.toNat / 4

/-- The condition on the arguments: nothing is to be copied; or the counter does not wrap,
the words from `addr / 4` on are in the source and begin with the words from 0 on, and a
dword that is begun at the end of the copy changes nothing. -/
def CopyInOrder (swap : U32 → U32) (m : CardMem) (src : Nat → U8) (addr : U32) (length : U64) :
    Prop :=
  let rounds := (copyLength m addr length + 3) / 4
  copyLength m addr length = 0 ∨
    addr.toNat + 4 * rounds < 2 ^ 32 ∧ addr.toNat / 4 + rounds ≤ length.toNat / 4 ∧
      (∀ k < copyLength m addr length / 4,
        sourceWord src (addr.toNat / 4 + k) = sourceWord src k) ∧
      ∀ o < m.memlen.toNat, addr.toNat + 4 * (copyLength m addr length / 4) ≤ o →
        o < addr.toNat + 4 * rounds → byteOf (swap (sourceWord src (o / 4))) (o % 4) = m.byte o

/-- Below the end of card memory the copy is the loop over its dwords. -/
theorem swapCopy_eq (swap : U32 → U32) (m : CardMem) (src : Nat → U8) {addr : U32} {length : U64}
    (hle : addr.toNat ≤ m.memlen.toNat) (hnowrap : addr.toNat + length.toNat < 2 ^ 64) :
    ∃ stop : U64, stop.toNat = addr.toNat + copyLength m addr length ∧
      ∀ fuel, swapCopy swap fuel m src addr length = swapLoop swap src stop fuel addr ⟨m, []⟩ := by
  have hpast : ¬ m.memlen < addr.setWidth 64 := by
    rw [BitVec.lt_def, wideAddr_toNat]
    omega
  refine ⟨addr.setWidth 64 + clampLength m addr length, ?_, fun fuel => if_neg hpast⟩
  have hlength : (clampLength m addr length).toNat = copyLength m addr length := by
    unfold copyLength
    have hend : wrappedEnd addr length = addr.toNat + length.toNat := Nat.mod_eq_of_lt hnowrap
    rcases clampLength_cases m hle length with ⟨hclamp, hclamped⟩ | ⟨hfits, hclamped⟩
    · rw [hclamped]
      omega
    · rw [hclamped]
      omega
  have hmemlen := m.memlen.isLt
  rw [BitVec.toNat_add, wideAddr_toNat, hlength]
  apply Nat.mod_eq_of_lt
  unfold copyLength
  omega

/-- A dword of the range is the swapped source word of its own address. -/
theorem SwapsRange.dword {swap : U32 → U32} {src : Nat → U8} {addr n : Nat} {c t : SwapCopy}
    (h : SwapsRange swap src addr n c t) (haligned : addr % 4 = 0) {k : Nat} (hk : k < n) :
    dwordAt t.mem.byte (addr + 4 * k) = swap (sourceWord src (addr / 4 + k)) := by
  apply dwordAt_bytes
  intro j hj
  have hword : (addr + 4 * k + j) / 4 = addr / 4 + k := by omega
  have hplace : (addr + 4 * k + j) % 4 = j := by omega
  rw [h.bytes, if_pos (by omega), hword, hplace]

/-- A copy that ends does what it is to do under the condition on its arguments. -/
theorem copiesWords_iff {swap : U32 → U32} (hswap : Function.Injective swap) {m : CardMem}
    (hmapped : m.mapped = true) (src : Nat → U8) {addr : U32} {length : U64}
    (haligned : addr.toNat % 4 = 0) (hle : addr.toNat ≤ m.memlen.toNat)
    (hnowrap : addr.toNat + length.toNat < 2 ^ 64) :
    CopiesWords swap m src addr length ↔ CopyInOrder swap m src addr length := by
  obtain ⟨stop, hstop, heq⟩ := swapCopy_eq swap m src hle hnowrap
  have haddr := addr.isLt
  have hclipped : copyLength m addr length ≤ m.memlen.toNat - addr.toNat := Nat.min_le_right _ _
  unfold CopiesWords CopyInOrder
  generalize copyLength m addr length = copied at hstop hclipped ⊢
  dsimp only
  by_cases hwraps : addr.toNat + 4 * ((copied + 3) / 4) < 2 ^ 32
  swap
  · -- the loop does not end
    apply iff_of_false
    · rintro ⟨fuel, t, hcopy, -⟩
      rw [heq, swapLoop_forever swap src (by omega) fuel haligned] at hcopy
      cases hcopy
    · rintro (hnone | ⟨hsmall, -⟩)
      · rw [hnone] at hwraps
        omega
      · exact hwraps hsmall
  have hwithin : stop.toNat ≤ m.memlen.toNat := by
    rw [hstop]
    omega
  obtain ⟨t, hends, hrange⟩ := swapLoop_ends swap src ((copied + 3) / 4) (c := ⟨m, []⟩)
    hmapped hwithin haligned (fun k hk => by omega) (by omega) hwraps
  constructor
  · rintro ⟨fuel, t', hcopy, hcopied, hframe, hread⟩
    rw [heq] at hcopy
    rw [swapLoop_unique hcopy hends] at hcopied hframe hread
    by_cases hnone : copied = 0
    · exact Or.inl hnone
    right
    refine ⟨hwraps, ?_, ?_, ?_⟩
    · have hlast := hread (addr.toNat / 4 + (copied + 3) / 4 - 1)
        ((hrange.reads _).mpr (Or.inr (by omega)))
      omega
    · intro k hk
      exact hswap ((hrange.dword haligned (by omega)).symm.trans (hcopied k hk))
    · intro o ho hlow hhigh
      have hkept := hframe o ho (by omega)
      rw [hrange.bytes, if_pos (by omega)] at hkept
      exact hkept
  · intro horder
    refine ⟨_, t, (heq _).trans hends, ?_, ?_, ?_⟩
    · intro k hk
      rcases horder with hnone | ⟨-, -, hwords, -⟩
      · omega
      · rw [hrange.dword haligned (by omega), hwords k hk]
    · intro o ho hout
      rw [hrange.bytes]
      split_ifs with hin
      · -- a byte of the dword that is begun at the end
        rcases horder with hnone | ⟨-, -, -, hstale⟩
        · omega
        · exact hstale o ho (by omega) hin.2
      · rfl
    · intro j hj
      rcases (hrange.reads j).mp hj with hnever | hin
      · cases hnever
      · rcases horder with hnone | ⟨-, hsource, -⟩
        · omega
        · omega

theorem swab32_injective : Function.Injective swab32 :=
  Function.LeftInverse.injective swab32_swab32

theorem swahw32_injective : Function.Injective swahw32 :=
  Function.LeftInverse.injective swahw32_swahw32

/-- Both swapping copies copy the source to the card exactly when their arguments are in
order. -/
theorem swapCopy_iff {m : CardMem} (hmapped : m.mapped = true) (src : Nat → U8) {addr : U32}
    {length : U64} (haligned : addr.toNat % 4 = 0) (hle : addr.toNat ≤ m.memlen.toNat)
    (hnowrap : addr.toNat + length.toNat < 2 ^ 64) :
    (CopiesWords swab32 m src addr length ↔ CopyInOrder swab32 m src addr length) ∧
      (CopiesWords swahw32 m src addr length ↔ CopyInOrder swahw32 m src addr length) := by
  constructor
  · exact copiesWords_iff swab32_injective hmapped src haligned hle hnowrap
  · exact copiesWords_iff swahw32_injective hmapped src haligned hle hnowrap

/-- A window of 32 MB, all bytes 0. -/
def blankMemory : CardMem := ⟨true, 0x2000000, fun _ => 0, []⟩

/-- Two words to the start of card memory. -/
theorem swapCopy_iff_start :
    (CopiesWords swab32 blankMemory (fun k => BitVec.ofNat 8 k) 0 8 ↔
        CopyInOrder swab32 blankMemory (fun k => BitVec.ofNat 8 k) 0 8) ∧
      (CopiesWords swahw32 blankMemory (fun k => BitVec.ofNat 8 k) 0 8 ↔
        CopyInOrder swahw32 blankMemory (fun k => BitVec.ofNat 8 k) 0 8) :=
  swapCopy_iff rfl _ (by decide) (by decide) (by decide)

/-- One word to address 4: what is copied is the word behind the source. -/
theorem swapCopy_misplaced : ¬ ∀ (m : CardMem) (src : Nat → U8) (addr : U32) (length : U64),
    m.mapped = true → addr.toNat % 4 = 0 → addr.toNat ≤ m.memlen.toNat →
      addr.toNat + length.toNat < 2 ^ 64 → CopiesWords swab32 m src addr length := by
  intro h
  have hcopies := h blankMemory (fun k => BitVec.ofNat 8 k) 4 4 rfl (by decide) (by decide)
    (by decide)
  rw [copiesWords_iff swab32_injective rfl _ (by decide) (by decide) (by decide)] at hcopies
  rcases hcopies with hnone | ⟨-, hsource, -⟩
  · exact absurd hnone (by decide)
  · exact absurd hsource (by decide)

end Tl880
