import Tl880.Lib.Crc
import Tl880.Registers

/-!
# The checksum table of the demultiplexer

`tl880_demux_init` in `driver/tl880demux.c` fills `crc_table` with one entry for each byte,
in a loop over the bits of the byte.  The loop works on an `unsigned long`, of `w` bits here,
and tests the top bit of the checksum with `crcval >> 0x1f`.

With 32 bits the table is that of CRC-32: remainders modulo its generator
(`crcTable_isCrcTable`).  With 64 bits the shift keeps what has left the low half, and for the
upper half of the bytes the last round always adds the generator (`crcEntry_wide`).
-/

namespace Tl880

open Polynomial

/-! ## The loop -/

/-- One round of the loop, at one bit of the index. -/
def crcRound {w : Nat} (i : BitVec w) (crcval : BitVec w) (bit : Nat) : BitVec w :=
  if ((i >>> bit) &&& 1#w) ^^^ (crcval >>> 0x1f) ≠ 0#w then (crcval + crcval) ^^^ 0x4c11db7#w
  else crcval <<< 1

/-- The loop over the given bits of the index. -/
def crcLoop {w : Nat} (i : BitVec w) (crcval : BitVec w) : List Nat → BitVec w
  | [] => crcval
  | bit :: bits => crcLoop i (crcRound i crcval bit) bits

/-- The entry of `crc_table` for a byte, cut down to an `unsigned int`. -/
def crcEntry (w : Nat) (byte : U8) : U32 :=
  (crcLoop (byte.setWidth w) 0#w [7, 6, 5, 4, 3, 2, 1, 0]).setWidth 32

/-- The generator of the table, without its leading bit. -/
def crcPoly : U32 := 0x4c11db7

/-- The table of a cyclic redundancy check with the given generator. -/
structure IsCrcTable (poly : U32) (table : U8 → U32) : Prop where
  remainder : ∀ byte,
    Crc.toPoly (table byte) = (Crc.toPoly byte * X ^ 32) %ₘ Crc.generator poly
  additive : ∀ a b, table (a ^^^ b) = table a ^^^ table b
  injective : Function.Injective table

/-- What becomes of the table with an `unsigned long` of 64 bits: it is right where the last
round had to add the generator or the byte is small, two neighbours among the other bytes
have one entry, and for every generator some entry is not the remainder. -/
structure CrcTableWide : Prop where
  right_iff : ∀ byte, crcEntry 64 byte = crcEntry 32 byte ↔
    byte.msb = false ∨ (crcEntry 32 byte).getLsbD 0 = true
  collides : ∀ byte, byte.msb = true → crcEntry 64 (byte ^^^ 1) = crcEntry 64 byte
  not_remainder : ∀ poly : U32, ¬ ∀ byte : U8,
    Crc.toPoly (crcEntry 64 byte) = (Crc.toPoly byte * X ^ 32) %ₘ Crc.generator poly

/-! ## One round -/

variable {w : Nat}

/-- The test of a round compares the bit of the index with what is left of the checksum. -/
theorem crcRound_test (i crcval : BitVec w) (bit : Nat) (hw : 0 < w) :
    ((i >>> bit) &&& 1#w) ^^^ (crcval >>> 0x1f) ≠ 0#w ↔
      (i.getLsbD bit).toNat ≠ crcval.toNat / 2 ^ 31 := by
  have hbit : ((i >>> bit) &&& 1#w).toNat = (i.getLsbD bit).toNat := by
    have hone : 2 ^ 1 ≤ 2 ^ w := Nat.pow_le_pow_right (by omega) hw
    have hlt := Bool.toNat_lt (i.getLsbD bit)
    rw [BitVec.and_one_eq_setWidth_ofBool_getLsbD, BitVec.toNat_setWidth, BitVec.toNat_ofBool,
      BitVec.getLsbD_ushiftRight, Nat.add_zero]
    exact Nat.mod_eq_of_lt (by omega)
  rw [Ne, BitVec.xor_eq_zero_iff, ← BitVec.toNat_inj, hbit, BitVec.toNat_ushiftRight,
    Nat.shiftRight_eq_div_pow]

/-- `crcval += crcval` is the shift of the other branch. -/
theorem add_self_eq_shiftLeft (x : BitVec w) : x + x = x <<< 1 := by
  apply BitVec.eq_of_toNat_eq
  rw [BitVec.toNat_add, BitVec.toNat_shiftLeft, Nat.shiftLeft_eq, Nat.pow_one, Nat.mul_two]

/-- A round, by the arithmetic of its test. -/
theorem crcRound_eq (i crcval : BitVec w) (bit : Nat) (hw : 0 < w) :
    crcRound i crcval bit =
      if (i.getLsbD bit).toNat ≠ crcval.toNat / 2 ^ 31 then (crcval <<< 1) ^^^ 0x4c11db7#w
      else crcval <<< 1 := by
  unfold crcRound
  rw [add_self_eq_shiftLeft]
  exact if_congr (crcRound_test i crcval bit hw) rfl rfl

/-! ## An `unsigned long` of 32 bits -/

/-- With 32 bits, what is left of the checksum is its top bit. -/
theorem crcRound_feed (i crcval : U32) (bit : Nat) :
    crcRound i crcval bit = Crc.feed crcPoly crcval (i.getLsbD bit) := by
  have htop : crcval.toNat / 2 ^ 31 = crcval.msb.toNat := by
    have hlt := crcval.isLt
    rw [BitVec.msb_eq_decide]
    by_cases hmsb : 2 ^ 31 ≤ crcval.toNat
    · simp only [Nat.add_one_sub_one, hmsb, decide_true, Bool.toNat_true]
      omega
    · simp only [Nat.add_one_sub_one, hmsb, decide_false, Bool.toNat_false]
      omega
  rw [crcRound_eq i crcval bit (by omega), htop, Crc.feed]
  cases i.getLsbD bit <;> cases crcval.msb <;> simp [crcPoly]

theorem crcLoop_feedAll (i crcval : U32) (bits : List Nat) :
    crcLoop i crcval bits = Crc.feedAll crcPoly crcval (bits.map i.getLsbD) := by
  induction bits generalizing crcval with
  | nil => rfl
  | cons bit bits ih => rw [crcLoop, ih, crcRound_feed, List.map_cons, Crc.feedAll]

/-- The entries that 32 bits give are what the check leaves of the bytes. -/
theorem crcEntry_feedAll (byte : U8) :
    crcEntry 32 byte = Crc.feedAll crcPoly 0 (Crc.wordBits byte 8) := by
  have hbits : [7, 6, 5, 4, 3, 2, 1, 0].map (byte.setWidth 32 : U32).getLsbD =
      Crc.wordBits byte 8 := by
    simp [Crc.wordBits]
  rw [crcEntry, BitVec.setWidth_eq, crcLoop_feedAll, hbits]
  rfl

/-- The table is linear in its index. -/
theorem crcEntry_xor (a b : U8) : crcEntry 32 (a ^^^ b) = crcEntry 32 a ^^^ crcEntry 32 b := by
  rw [crcEntry_feedAll, crcEntry_feedAll, crcEntry_feedAll]
  exact Crc.feedAll_xor crcPoly a b 8

/-- With an `unsigned long` of 32 bits the table is that of CRC-32. -/
theorem crcTable_isCrcTable : IsCrcTable crcPoly (crcEntry 32) where
  remainder byte := by
    rw [crcEntry_feedAll]
    exact Crc.toPoly_feedWord crcPoly byte 8
  additive := crcEntry_xor
  injective a b heq := by
    rw [crcEntry_feedAll, crcEntry_feedAll] at heq
    apply BitVec.eq_of_getLsbD_eq
    intro i hi
    exact Crc.feedAll_injective rfl (by omega) heq hi

/-! ## An `unsigned long` of 64 bits -/

/-- A round makes the checksum at most one bit longer. -/
theorem crcRound_lt {k : Nat} (hk : 26 ≤ k) {crcval : U64} (hlt : crcval.toNat < 2 ^ k)
    (i : U64) (bit : Nat) : (crcRound i crcval bit).toNat < 2 ^ (k + 1) := by
  have hshift : (crcval <<< 1).toNat < 2 ^ (k + 1) := by
    rw [BitVec.toNat_shiftLeft, Nat.shiftLeft_eq, Nat.pow_succ]
    exact Nat.lt_of_le_of_lt (Nat.mod_le _ _) (by omega)
  have hpoly : (0x4c11db7#64).toNat < 2 ^ (k + 1) :=
    Nat.lt_of_lt_of_le (by decide : _ < 2 ^ 27) (Nat.pow_le_pow_right (by omega) (by omega))
  rw [crcRound_eq i crcval bit (by omega)]
  split_ifs
  · rw [BitVec.toNat_xor]
    exact Nat.xor_lt_two_pow hshift hpoly
  · exact hshift

/-- A round moves a bit above the generator up by one place. -/
theorem crcRound_top {k : Nat} (hk : 26 ≤ k) (hlt : k < 63) {crcval : U64}
    (htop : crcval.getLsbD k = true) (i : U64) (bit : Nat) :
    (crcRound i crcval bit).getLsbD (k + 1) = true := by
  have hshift : (crcval <<< 1).getLsbD (k + 1) = true := by
    have hin : k + 1 < 64 := by omega
    simp [hin, htop]
  have hpoly : (0x4c11db7#64).getLsbD (k + 1) = false := by
    apply Nat.testBit_lt_two_pow
    exact Nat.lt_of_lt_of_le (by decide : _ < 2 ^ 27) (Nat.pow_le_pow_right (by omega) (by omega))
  rw [crcRound_eq i crcval bit (by omega)]
  split_ifs
  · rw [BitVec.getLsbD_xor, hshift, hpoly, Bool.xor_false]
  · exact hshift

/-- As long as the checksum fits into 32 bits, a round does what it does there. -/
theorem crcRound_setWidth {crcval : U64} (hlt : crcval.toNat < 2 ^ 32) (byte : U8) {bit : Nat}
    (hbit : bit < 8) :
    (crcRound (byte.setWidth 64) crcval bit).setWidth 32 =
      crcRound (byte.setWidth 32) (crcval.setWidth 32 : U32) bit := by
  have hval : (crcval.setWidth 32 : U32).toNat = crcval.toNat := by
    rw [BitVec.toNat_setWidth]
    exact Nat.mod_eq_of_lt hlt
  have hindex : (byte.setWidth 64 : U64).getLsbD bit = (byte.setWidth 32 : U32).getLsbD bit := by
    have h64 : bit < 64 := by omega
    have h32 : bit < 32 := by omega
    simp [h64, h32]
  have hshift : (crcval <<< 1).setWidth 32 = (crcval.setWidth 32 : U32) <<< 1 :=
    BitVec.setWidth_shiftLeft_of_le (by omega)
  rw [crcRound_eq _ crcval bit (by omega), crcRound_eq _ (crcval.setWidth 32) bit (by omega),
    hval, hindex]
  split_ifs
  · rw [BitVec.setWidth_xor, hshift]
    rfl
  · exact hshift

/-- Rounds that start with a short checksum do what they do with 32 bits. -/
theorem crcLoop_setWidth (byte : U8) (bits : List Nat) (hbits : ∀ bit ∈ bits, bit < 8) {k : Nat}
    (hk : 26 ≤ k) (hlen : k + bits.length ≤ 33) (crcval : U64) (hlt : crcval.toNat < 2 ^ k) :
    (crcLoop (byte.setWidth 64) crcval bits).setWidth 32 =
      crcLoop (byte.setWidth 32) (crcval.setWidth 32 : U32) bits := by
  induction bits generalizing k crcval with
  | nil => rfl
  | cons bit bits ih =>
      rw [List.length_cons] at hlen
      have hword : crcval.toNat < 2 ^ 32 :=
        Nat.lt_of_lt_of_le hlt (Nat.pow_le_pow_right (by omega) (by omega))
      rw [crcLoop, crcLoop, ← crcRound_setWidth hword byte (hbits bit List.mem_cons_self)]
      apply ih
      · intro b hb
        exact hbits b (List.mem_cons_of_mem bit hb)
      · exact Nat.le_succ_of_le hk
      · omega
      · exact crcRound_lt hk hlt _ bit

/-- Each round moves the top bit up by one place. -/
theorem crcLoop_top (i : U64) (bits : List Nat) {k : Nat} (hk : 26 ≤ k)
    (hlen : k + bits.length < 64) (crcval : U64) (htop : crcval.getLsbD k = true) :
    (crcLoop i crcval bits).getLsbD (k + bits.length) = true := by
  induction bits generalizing k crcval with
  | nil => exact htop
  | cons bit bits ih =>
      rw [List.length_cons] at hlen ⊢
      have hplace : k + (bits.length + 1) = k + 1 + bits.length := by omega
      rw [hplace]
      exact ih (by omega) (by omega) _ (crcRound_top hk (by omega) htop i bit)

theorem crcLoop_append (i crcval : BitVec w) (bits bits' : List Nat) :
    crcLoop i crcval (bits ++ bits') = crcLoop i (crcLoop i crcval bits) bits' := by
  induction bits generalizing crcval with
  | nil => rfl
  | cons bit bits ih => exact ih (crcRound i crcval bit)

/-- The first round, on a checksum of zero. -/
theorem crcRound_zero (hw : 0 < w) (i : BitVec w) (bit : Nat) :
    crcRound i 0#w bit = if i.getLsbD bit = true then 0x4c11db7#w else 0#w := by
  rw [crcRound_eq i 0#w bit hw]
  cases i.getLsbD bit <;> simp

/-- With 64 bits an entry for a byte from `0x80` on comes from a last round that adds the
generator, whether the bits agree or not. -/
theorem crcEntry_wide (byte : U8) :
    crcEntry 64 byte =
      if byte.msb = true ∧ (crcEntry 32 byte).getLsbD 0 = false then
        crcEntry 32 byte ^^^ crcPoly
      else crcEntry 32 byte := by
  have hrounds (v : Nat) : crcEntry v byte = (crcLoop (byte.setWidth v)
      (crcRound (byte.setWidth v) 0#v 7) [6, 5, 4, 3, 2, 1, 0]).setWidth 32 := rfl
  have hfirst {v : Nat} (hv : 7 < v) : (byte.setWidth v).getLsbD 7 = byte.msb := by
    rw [BitVec.getLsbD_setWidth, BitVec.msb_eq_getLsbD_last]
    simp [hv]
  rw [hrounds 64, hrounds 32, crcRound_zero (by omega), crcRound_zero (by omega),
    hfirst (by omega), hfirst (by omega), BitVec.setWidth_eq]
  cases byte.msb with
  | false =>
      have hsame := crcLoop_setWidth byte [6, 5, 4, 3, 2, 1, 0] (by decide) (Nat.le_refl 26)
        (by decide) 0#64 (by decide)
      rw [if_neg Bool.false_ne_true, if_neg Bool.false_ne_true, if_neg (by simp)]
      exact hsame
  | true =>
      rw [if_pos rfl, if_pos rfl]
      -- before the last round the checksum has 33 bits
      have hsame := crcLoop_setWidth byte [6, 5, 4, 3, 2, 1] (by decide) (by decide : 26 ≤ 27)
        (by decide) 0x4c11db7#64 (by decide)
      have htop := crcLoop_top (byte.setWidth 64) [6, 5, 4, 3, 2, 1] (Nat.le_refl 26)
        (by decide) 0x4c11db7#64 (by decide)
      have hsplit : [6, 5, 4, 3, 2, 1, 0] = [6, 5, 4, 3, 2, 1] ++ [0] := rfl
      rw [hsplit, crcLoop_append, crcLoop_append]
      change _ = crcLoop (byte.setWidth 32) 0x4c11db7#32 [6, 5, 4, 3, 2, 1] at hsame
      rw [← hsame]
      generalize crcLoop (byte.setWidth 64) 0x4c11db7#64 [6, 5, 4, 3, 2, 1] = crcval at htop ⊢
      show (crcRound (byte.setWidth 64) crcval 0).setWidth 32 =
        if true = true ∧ (crcRound (byte.setWidth 32) (crcval.setWidth 32) 0).getLsbD 0 = false then
          crcRound (byte.setWidth 32) (crcval.setWidth 32) 0 ^^^ crcPoly
        else crcRound (byte.setWidth 32) (crcval.setWidth 32) 0
      have hlong : 2 ^ 32 ≤ crcval.toNat := Nat.ge_two_pow_of_testBit htop
      have htest : ((byte.setWidth 64 : U64).getLsbD 0).toNat ≠ crcval.toNat / 2 ^ 31 := by
        have hbit := Bool.toNat_lt ((byte.setWidth 64 : U64).getLsbD 0)
        omega
      have hshift : (crcval <<< 1).setWidth 32 = (crcval.setWidth 32 : U32) <<< 1 :=
        BitVec.setWidth_shiftLeft_of_le (by omega)
      have hadded : (crcRound (byte.setWidth 64) crcval 0).setWidth 32 =
          ((crcval.setWidth 32 : U32) <<< 1) ^^^ crcPoly := by
        rw [crcRound_eq _ crcval 0 (by omega), if_pos htest, BitVec.setWidth_xor, hshift]
        rfl
      rw [hadded, crcRound_eq _ (crcval.setWidth 32) 0 (by omega)]
      split_ifs with hfed hlow hlow
      · simp at hlow
      · rfl
      · rfl
      · simp at hlow

/-- The entry of a byte is that of its neighbour, with the generator added. -/
theorem crcEntry_neighbour (byte : U8) :
    crcEntry 32 (byte ^^^ 1) = crcEntry 32 byte ^^^ crcPoly :=
  crcEntry_xor byte 1

/-- A table of remainders is additive. -/
theorem additive_of_remainder {poly : U32} {table : U8 → U32}
    (h : ∀ byte, Crc.toPoly (table byte) = (Crc.toPoly byte * X ^ 32) %ₘ Crc.generator poly)
    (a b : U8) : table (a ^^^ b) = table a ^^^ table b := by
  apply Crc.toPoly_injective
  rw [Crc.toPoly_xor, h, h, h, Crc.toPoly_xor, add_mul, add_modByMonic]

/-- With an `unsigned long` of 64 bits the table is wrong for a quarter of the bytes. -/
theorem crcTable_wide : CrcTableWide := by
  have hcollides : ∀ byte : U8, byte.msb = true →
      crcEntry 64 (byte ^^^ 1) = crcEntry 64 byte := by
    intro byte hmsb
    have hmsb' : (byte ^^^ 1).msb = true := by
      rw [BitVec.msb_xor, hmsb]
      rfl
    have hodd : crcPoly.getLsbD 0 = true := rfl
    rw [crcEntry_wide, crcEntry_wide byte, crcEntry_neighbour, hmsb, hmsb', BitVec.getLsbD_xor,
      hodd, BitVec.xor_assoc, BitVec.xor_self, BitVec.xor_zero]
    cases (crcEntry 32 byte).getLsbD 0 <;> simp
  refine ⟨?_, hcollides, ?_⟩
  · intro byte
    rw [crcEntry_wide]
    have hne : crcEntry 32 byte ^^^ crcPoly ≠ crcEntry 32 byte := by
      intro heq
      have hbit := congrArg (fun value : U32 => value.getLsbD 0) heq
      have hodd : crcPoly.getLsbD 0 = true := rfl
      simp only [BitVec.getLsbD_xor, hodd] at hbit
      cases (crcEntry 32 byte).getLsbD 0 <;> simp at hbit
    split_ifs with hlast
    · refine iff_of_false hne ?_
      rw [hlast.1, hlast.2]
      simp
    · refine iff_of_true rfl ?_
      cases hmsb : byte.msb with
      | false => exact Or.inl rfl
      | true =>
          right
          simpa [hmsb] using hlast
  · intro poly h
    -- the entries of two neighbours would differ by the entry of 1
    have hsum : crcEntry 64 (0x80 ^^^ 1) = crcEntry 64 0x80 ^^^ crcEntry 64 1 :=
      additive_of_remainder h 0x80 1
    rw [hcollides 0x80 rfl] at hsum
    exact absurd hsum (by decide)

end Tl880
