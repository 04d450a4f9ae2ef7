import Tl880.SwapCopy
import Tl880.Lib.Lens

/-!
# Bit fields of registers and of card memory

The laws of `tl880_read_regbits` and `tl880_write_regbits` of `driver/tl880reg.c`, and of
`tl880_read_membits` and `tl880_write_membits` of `driver/tl880mem.c`.  Both pairs are the
same field of a word, `bitField`, behind a different cell, so one theorem about a lawful
cell covers them.

The laws fail for the field that is the whole word: its mask is a shift by 32, which the
CPU takes for a shift by 0, so the mask is empty, the field reads as 0 and a write to it
does nothing.
-/

namespace Tl880

/-! ## The laws -/

/-- The bits of a word from `highBit` down to `lowBit`, as the accessors read and set
them. -/
def bitField (highBit lowBit : Nat) : StateField U32 U32 where
  get x := (x >>> lowBit) &&& fieldMask highBit lowBit
  put x v := setBits x highBit lowBit v

/-- What a field has room for: the value modulo `2 ^ (highBit - lowBit + 1)`. -/
def truncated (highBit lowBit : Nat) (v : U32) : U32 :=
  BitVec.ofNat 32 (v.toNat % 2 ^ (highBit - lowBit + 1))

/-- The lens laws of a pair of accessors, for one state, one field and one value: `view` is
what the state holds, `word` the word that the fields are part of, and `outside` the rest. -/
structure LensLaws {σ τ ρ : Type} (view : σ → τ) (word : σ → U32) (outside : σ → ρ)
    (read : σ → Nat → Nat → U32) (write : σ → Nat → Nat → U32 → σ)
    (s : σ) (highBit lowBit : Nat) (v : U32) : Prop where
  read_write : read (write s highBit lowBit v) highBit lowBit = truncated highBit lowBit v
  write_read : view (write s highBit lowBit (read s highBit lowBit)) = view s
  write_write : ∀ w, view (write (write s highBit lowBit w) highBit lowBit v) =
    view (write s highBit lowBit v)
  other_bits : ∀ i, ¬ (lowBit ≤ i ∧ i ≤ highBit) →
    (word (write s highBit lowBit v)).getLsbD i = (word s).getLsbD i
  elsewhere : outside (write s highBit lowBit v) = outside s
  disjoint : ∀ high low w, low ≤ high → high ≤ 31 → high < lowBit ∨ highBit < low →
    view (write (write s highBit lowBit v) high low w) =
      view (write (write s high low w) highBit lowBit v)

/-- The laws of the fields of one register; the rest is every other register. -/
def RegbitsLaws (r : RegSpace) (reg : U32) (highBit lowBit : Nat) (v : U32) : Prop :=
  LensLaws (fun r => r) (fun r => tl880ReadRegister r reg)
    (fun r (other : { o : U32 // o ≠ reg }) => tl880ReadRegister r other.1)
    (fun r => tl880ReadRegbits r reg) (fun r => tl880WriteRegbits r reg) r highBit lowBit v

/-- The laws of the fields of one dword of card memory; the rest is every other byte. -/
def MembitsLaws (m : CardMem) (mem : U32) (highBit lowBit : Nat) (v : U32) : Prop :=
  LensLaws CardMem.byte (fun m => (tl880ReadMemory m mem).2)
    (fun m (other : { o : Nat // ¬ (mem.toNat ≤ o ∧ o < mem.toNat + 4) }) => m.byte other.1)
    (fun m highBit lowBit => (tl880ReadMembits m mem highBit lowBit).2)
    (fun m => tl880WriteMembits m mem) m highBit lowBit v

/-! ## Fields of a word -/

theorem getLsbD_truncated (highBit lowBit : Nat) (v : U32) {i : Nat} (hi : i < 32) :
    (truncated highBit lowBit v).getLsbD i = (decide (i ≤ highBit - lowBit) && v.getLsbD i) := by
  have hroom : i < highBit - lowBit + 1 ↔ i ≤ highBit - lowBit := by omega
  simp only [truncated, BitVec.getLsbD_ofNat, Nat.testBit_mod_two_pow, hi, decide_true,
    Bool.true_and, hroom]
  rfl

section Word

variable {highBit lowBit : Nat}

/-- A field's bits come down to the bottom of what is read. -/
theorem getLsbD_bitField_get (hwidth : highBit - lowBit < 31) (x : U32) (i : Nat) :
    ((bitField highBit lowBit).get x).getLsbD i =
      (decide (i ≤ highBit - lowBit) && x.getLsbD (lowBit + i)) := by
  show ((x >>> lowBit) &&& fieldMask highBit lowBit).getLsbD i = _
  rw [BitVec.getLsbD_and, getLsbD_fieldMask hwidth, BitVec.getLsbD_ushiftRight, Bool.and_comm]

/-- A field that is not the whole word is lawful. -/
theorem bitField_lawful (hle : lowBit ≤ highBit) (hhigh : highBit < 32)
    (hwidth : highBit - lowBit < 31) :
    (bitField highBit lowBit).Lawful (fun _ => True) id (truncated highBit lowBit) where
  valid_put _ _ _ := trivial
  get_put x v _ := by
    apply BitVec.eq_of_getLsbD_eq
    intro i hi
    rw [getLsbD_bitField_get hwidth, getLsbD_truncated highBit lowBit v hi]
    by_cases hroom : i ≤ highBit - lowBit
    · have hin : lowBit ≤ lowBit + i ∧ lowBit + i ≤ highBit := by omega
      have hback : lowBit + i - lowBit = i := by omega
      show (_ && (setBits x highBit lowBit v).getLsbD (lowBit + i)) = _
      rw [getLsbD_setBits hle hhigh hwidth, if_pos hin, hback]
    · simp [hroom]
  put_get x _ := by
    apply BitVec.eq_of_getLsbD_eq
    intro i _
    show (setBits x highBit lowBit ((bitField highBit lowBit).get x)).getLsbD i = x.getLsbD i
    rw [getLsbD_setBits hle hhigh hwidth, getLsbD_bitField_get hwidth]
    split_ifs with hin
    · have hroom : i - lowBit ≤ highBit - lowBit := by omega
      have hback : lowBit + (i - lowBit) = i := by omega
      simp [hroom, hback]
    · rfl
  put_put x v w _ := by
    apply BitVec.eq_of_getLsbD_eq
    intro i _
    show (setBits (setBits x highBit lowBit v) highBit lowBit w).getLsbD i =
      (setBits x highBit lowBit w).getLsbD i
    simp only [getLsbD_setBits hle hhigh hwidth]
    split_ifs <;> rfl

/-- Fields without a common bit commute. -/
theorem bitField_commute {high low : Nat} (hle : lowBit ≤ highBit) (hhigh : highBit < 32)
    (hle' : low ≤ high) (hhigh' : high < 32) (hdisjoint : high < lowBit ∨ highBit < low) :
    (bitField highBit lowBit).Commute (bitField high low) (fun _ => True) id := by
  intro x v w _
  apply BitVec.eq_of_getLsbD_eq
  intro i _
  show (setBits (setBits x highBit lowBit v) high low w).getLsbD i =
    (setBits (setBits x high low w) highBit lowBit v).getLsbD i
  rw [getLsbD_setBits hle' hhigh' (by omega), getLsbD_setBits hle hhigh (by omega),
    getLsbD_setBits hle hhigh (by omega), getLsbD_setBits hle' hhigh' (by omega)]
  by_cases hin : low ≤ i ∧ i ≤ high
  · have hout : ¬ (lowBit ≤ i ∧ i ≤ highBit) := by omega
    rw [if_pos hin, if_neg hout, if_pos hin]
  · rw [if_neg hin, if_neg hin]

end Word

/-- The mask of the field that is the whole word is empty. -/
theorem fieldMask_whole : fieldMask 31 0 = 0 := by decide

theorem setBits_whole (x v : U32) : setBits x 31 0 v = x := by
  have hmask : shiftLeft32 (fieldMask 31 0) 0 = 0#32 := by decide
  rw [setBits, hmask]
  show (_ &&& 0#32) ||| (~~~0#32 &&& x) = x
  rw [BitVec.and_zero, BitVec.zero_or, BitVec.not_zero, BitVec.allOnes_and]

/-! ## Fields of a cell -/

section Cell

variable {σ τ ρ : Type} {f : StateField σ U32} {valid : σ → Prop} {view : σ → τ} {outside : σ → ρ}

/-- The laws of the accessors through a cell. -/
def CellLaws (f : StateField σ U32) (view : σ → τ) (outside : σ → ρ) :
    σ → Nat → Nat → U32 → Prop :=
  LensLaws view f.get outside (fun s highBit lowBit => (f.comp (bitField highBit lowBit)).get s)
    (fun s highBit lowBit => (f.comp (bitField highBit lowBit)).put s)

/-- Through a lawful cell every field that is not the whole word obeys the laws. -/
theorem cellLaws_of_narrow (hf : f.Lawful valid view id)
    (hout : ∀ s w, valid s → outside (f.put s w) = outside s) {s : σ} (hs : valid s)
    {highBit lowBit : Nat} (hle : lowBit ≤ highBit) (hhigh : highBit ≤ 31)
    (hwidth : highBit - lowBit < 31) (v : U32) :
    CellLaws f view outside s highBit lowBit v := by
  have hlt : highBit < 32 := by omega
  have hlawful := hf.comp (bitField_lawful hle hlt hwidth)
  refine ⟨hlawful.get_put s v hs, hlawful.put_get s hs, fun w => hlawful.put_put s w v hs,
    ?_, hout s _ hs, ?_⟩
  · intro i hi
    show (f.get (f.put s (setBits (f.get s) highBit lowBit v))).getLsbD i = _
    rw [hf.get_put s _ hs]
    show (setBits (f.get s) highBit lowBit v).getLsbD i = _
    rw [getLsbD_setBits hle hlt hwidth, if_neg hi]
  · intro high low w hle' hhigh' hdisjoint
    exact hf.comp_commute (bitField_commute hle hlt hle' (by omega) hdisjoint) s v w hs

/-- A write to the whole word puts back what was there. -/
theorem comp_whole_put (f : StateField σ U32) (s : σ) (v : U32) :
    (f.comp (bitField 31 0)).put s v = f.put s (f.get s) := by
  show f.put s (setBits (f.get s) 31 0 v) = _
  rw [setBits_whole]

/-- A read of the whole word gives 0. -/
theorem comp_whole_get (f : StateField σ U32) (s : σ) : (f.comp (bitField 31 0)).get s = 0 := by
  show (f.get s >>> 0) &&& fieldMask 31 0 = 0
  rw [fieldMask_whole]
  exact BitVec.and_zero

/-- The whole word obeys the laws for the value 0 only. -/
theorem cellLaws_whole_iff (hf : f.Lawful valid view id)
    (hout : ∀ s w, valid s → outside (f.put s w) = outside s) {s : σ} (hs : valid s)
    (v : U32) : CellLaws f view outside s 31 0 v ↔ v = 0 := by
  have hroom : truncated 31 0 v = v := by
    apply BitVec.eq_of_toNat_eq
    have hv : v.toNat < 2 ^ 32 := v.isLt
    show v.toNat % 2 ^ 32 % 2 ^ 32 = v.toNat
    rw [Nat.mod_eq_of_lt hv, Nat.mod_eq_of_lt hv]
  have hback : f.get (f.put s (f.get s)) = f.get s := hf.get_put s _ hs
  constructor
  · intro hlaws
    have hread : (f.comp (bitField 31 0)).get ((f.comp (bitField 31 0)).put s v) =
        truncated 31 0 v := hlaws.read_write
    rw [comp_whole_get, hroom] at hread
    exact hread.symm
  · intro hv
    refine ⟨?_, ?_, ?_, ?_, hout s _ hs, ?_⟩
    · rw [hroom, hv]
      exact comp_whole_get f _
    · show view ((f.comp (bitField 31 0)).put s _) = view s
      rw [comp_whole_put, hf.put_get s hs]
    · intro w
      show view ((f.comp (bitField 31 0)).put ((f.comp (bitField 31 0)).put s w) v) =
        view ((f.comp (bitField 31 0)).put s v)
      rw [comp_whole_put, comp_whole_put, comp_whole_put, hback, hf.put_put s _ _ hs]
    · intro i _
      show (f.get ((f.comp (bitField 31 0)).put s v)).getLsbD i = _
      rw [comp_whole_put, hback]
    · intro high low w hle' hhigh' hdisjoint
      -- no field is disjoint from the whole word
      omega

/-- The laws of the accessors hold exactly off the whole word, and for the value 0. -/
theorem cellLaws_iff (hf : f.Lawful valid view id)
    (hout : ∀ s w, valid s → outside (f.put s w) = outside s) {s : σ} (hs : valid s)
    {highBit lowBit : Nat} (hle : lowBit ≤ highBit) (hhigh : highBit ≤ 31) (v : U32) :
    CellLaws f view outside s highBit lowBit v ↔ highBit - lowBit < 31 ∨ v = 0 := by
  by_cases hwidth : highBit - lowBit < 31
  · constructor
    · intro _
      exact Or.inl hwidth
    · intro _
      exact cellLaws_of_narrow hf hout hs hle hhigh hwidth v
  · have hwhole : highBit = 31 ∧ lowBit = 0 := by omega
    obtain ⟨rfl, rfl⟩ := hwhole
    rw [cellLaws_whole_iff hf hout hs]
    simp

end Cell

/-! ## The two cells -/

/-- A register as a field of the register space. -/
def registerCell (reg : U32) : StateField RegSpace U32 where
  get r := tl880ReadRegister r reg
  put r v := tl880WriteRegister r reg v

theorem registerCell_lawful {reg : U32} (hreg : reg < 0x100000#32) :
    (registerCell reg).Lawful (fun r => r.mapped = true) (fun r => r) id where
  valid_put r v hr := by
    show (tl880WriteRegister r reg v).mapped = true
    rw [tl880WriteRegister_mapped, hr]
  get_put r v hr := tl880ReadRegister_write_self hr hreg v
  put_get r hr := by
    have hnot : ¬ (0x100000#32 ≤ reg) := BitVec.not_le.mpr hreg
    have hmapped : ¬ r.mapped = false := by simp [hr]
    show tl880WriteRegister r reg (tl880ReadRegister r reg) = r
    rw [tl880WriteRegister, tl880ReadRegister, if_neg hmapped, if_neg hmapped, if_neg hnot,
      if_neg hnot, Function.update_eq_self]
  put_put r v w hr := by
    have hnot : ¬ (0x100000#32 ≤ reg) := BitVec.not_le.mpr hreg
    simp [registerCell, tl880WriteRegister, hr, hnot]

/-- A dword of card memory that the accessors do not refuse, as a field of the memory.
The dword is read before it is written. -/
def memoryCell (mem : U32) : StateField CardMem U32 where
  get m := (tl880ReadMemory m mem).2
  put m v := tl880WriteMemory (tl880ReadMemory m mem).1 mem v

/-- The accessors do not refuse the address. -/
def CardMem.Accepts (m : CardMem) (mem : U32) : Prop :=
  m.mapped = true ∧ mem.toNat ≤ m.memlen.toNat

theorem memoryCell_get {m : CardMem} {mem : U32} (hm : m.Accepts mem) :
    (memoryCell mem).get m = dwordAt m.byte mem.toNat := by
  show (tl880ReadMemory m mem).2 = _
  rw [tl880ReadMemory, if_neg]
  rw [refused_iff]
  exact not_not.mpr hm

/-- A read leaves the bytes, and the window. -/
theorem tl880ReadMemory_frame (m : CardMem) (mem : U32) :
    (tl880ReadMemory m mem).1.byte = m.byte ∧
      (tl880ReadMemory m mem).1.mapped = m.mapped ∧
      (tl880ReadMemory m mem).1.memlen = m.memlen := by
  unfold tl880ReadMemory
  split_ifs <;> exact ⟨rfl, rfl, rfl⟩

theorem memoryCell_accepts {m : CardMem} {mem : U32} (hm : m.Accepts mem) (v : U32) :
    ((memoryCell mem).put m v).Accepts mem := by
  obtain ⟨-, hmapped, hmemlen⟩ := tl880ReadMemory_frame m mem
  show (tl880WriteMemory _ mem v).mapped = true ∧ _ ≤ (tl880WriteMemory _ mem v).memlen.toNat
  rw [tl880WriteMemory_mapped, tl880WriteMemory_memlen, hmapped, hmemlen]
  exact hm

/-- The bytes after a dword is put. -/
theorem memoryCell_byte {m : CardMem} {mem : U32} (hm : m.Accepts mem) (v : U32) (o : Nat) :
    ((memoryCell mem).put m v).byte o =
      if mem.toNat ≤ o ∧ o < mem.toNat + 4 then byteOf v (o - mem.toNat) else m.byte o := by
  obtain ⟨hbyte, hmapped, hmemlen⟩ := tl880ReadMemory_frame m mem
  show (tl880WriteMemory _ mem v).byte o = _
  rw [tl880WriteMemory_byte (hmapped.trans hm.1) (by rw [hmemlen]; exact hm.2), hbyte]

/-- A byte of a dword in memory. -/
theorem byteOf_dwordAt (byte : Nat → U8) (offset : Nat) {j : Nat} (hj : j < 4) :
    byteOf (dwordAt byte offset) j = byte (offset + j) := by
  apply BitVec.eq_of_getLsbD_eq
  intro i hi
  simp only [byteOf, dwordAt, BitVec.getLsbD_setWidth, BitVec.getLsbD_ushiftRight,
    BitVec.getLsbD_append, hi, decide_true, Bool.true_and]
  have hj' : j = 0 ∨ j = 1 ∨ j = 2 ∨ j = 3 := by omega
  rcases hj' with rfl | rfl | rfl | rfl
  · simp [hi]
  · have h8 : ¬ 8 + i < 8 := by omega
    simp [h8, hi]
  · have h8 : ¬ 16 + i < 8 := by omega
    have h16 : ¬ 16 + i - 8 < 8 := by omega
    have hplace : 16 + i - 8 - 8 = i := by omega
    simp [h8, h16, hplace, hi]
  · have h8 : ¬ 24 + i < 8 := by omega
    have h16 : ¬ 24 + i - 8 < 8 := by omega
    have h24 : ¬ 24 + i - 8 - 8 < 8 := by omega
    have hplace : 24 + i - 8 - 8 - 8 = i := by omega
    simp [h8, h16, h24, hplace]

theorem memoryCell_lawful (mem : U32) :
    (memoryCell mem).Lawful (fun m => m.Accepts mem) CardMem.byte id where
  valid_put m v hm := memoryCell_accepts hm v
  get_put m v hm := by
    rw [memoryCell_get (memoryCell_accepts hm v)]
    apply dwordAt_bytes
    intro j hj
    have hin : mem.toNat ≤ mem.toNat + j ∧ mem.toNat + j < mem.toNat + 4 := by omega
    rw [memoryCell_byte hm, if_pos hin, Nat.add_sub_cancel_left]
    rfl
  put_get m hm := by
    funext o
    rw [memoryCell_byte hm, memoryCell_get hm]
    split_ifs with hin
    · rw [byteOf_dwordAt m.byte mem.toNat (by omega)]
      congr 1
      omega
    · rfl
  put_put m v w hm := by
    funext o
    rw [memoryCell_byte (memoryCell_accepts hm v), memoryCell_byte hm, memoryCell_byte hm]
    split_ifs <;> rfl

/-! ## Registers and memory -/

theorem regbitsLaws_iff {r : RegSpace} (hr : r.mapped = true) {reg : U32}
    (hreg : reg < 0x100000#32) {highBit lowBit : Nat} (hle : lowBit ≤ highBit)
    (hhigh : highBit ≤ 31) (v : U32) :
    RegbitsLaws r reg highBit lowBit v ↔ highBit - lowBit < 31 ∨ v = 0 := by
  refine cellLaws_iff (registerCell_lawful hreg) ?_ hr hle hhigh v
  intro r w _
  funext other
  exact tl880ReadRegister_write_ne r other.2 w

theorem membitsLaws_iff {m : CardMem} {mem : U32} (hm : m.Accepts mem) {highBit lowBit : Nat}
    (hle : lowBit ≤ highBit) (hhigh : highBit ≤ 31) (v : U32) :
    MembitsLaws m mem highBit lowBit v ↔ highBit - lowBit < 31 ∨ v = 0 := by
  have hout : ∀ (m : CardMem) (w : U32), m.Accepts mem →
      (fun other : { o : Nat // ¬ (mem.toNat ≤ o ∧ o < mem.toNat + 4) } =>
        ((memoryCell mem).put m w).byte other.1) = fun other => m.byte other.1 := by
    intro m w hm
    funext other
    rw [memoryCell_byte hm, if_neg other.2]
  exact cellLaws_iff (memoryCell_lawful mem) hout hm hle hhigh v

/-- The accessors of registers and of card memory obey the lens laws exactly for the fields
that are not the whole word, and for the value 0. -/
theorem bitAccess_lens_iff {r : RegSpace} (hr : r.mapped = true) {reg : U32}
    (hreg : reg < 0x100000#32) {m : CardMem} (hmapped : m.mapped = true) {mem : U32}
    (hmem : mem.toNat ≤ m.memlen.toNat) {highBit lowBit : Nat} (hle : lowBit ≤ highBit)
    (hhigh : highBit ≤ 31) (v : U32) :
    (RegbitsLaws r reg highBit lowBit v ↔ highBit - lowBit < 31 ∨ v = 0) ∧
      (MembitsLaws m mem highBit lowBit v ↔ highBit - lowBit < 31 ∨ v = 0) :=
  ⟨regbitsLaws_iff hr hreg hle hhigh v, membitsLaws_iff ⟨hmapped, hmem⟩ hle hhigh v⟩

/-- Registers and card memory that are all zero. -/
def blankRegs : RegSpace := { mapped := true, cell := fun _ => 0 }

def blankMem : CardMem := { mapped := true, memlen := 0x1000000, byte := fun _ => 0, touched := [] }

theorem bitAccess_lens_iff_low_bits :
    (RegbitsLaws blankRegs 0x10000 7 4 9 ↔ 7 - 4 < 31 ∨ (9 : U32) = 0) ∧
      (MembitsLaws blankMem 0x40 7 4 9 ↔ 7 - 4 < 31 ∨ (9 : U32) = 0) :=
  bitAccess_lens_iff rfl (by decide) rfl (by decide) (by decide) (by decide) 9

/-- A 1 that is written to all 32 bits of a register reads back as 0. -/
theorem bitAccess_whole_fails :
    ¬ ∀ (r : RegSpace) (reg : U32) (highBit lowBit : Nat) (v : U32), r.mapped = true →
      reg < 0x100000#32 → lowBit ≤ highBit → highBit ≤ 31 →
        RegbitsLaws r reg highBit lowBit v := by
  intro hall
  have hread := (hall blankRegs 0x5800 31 0 1 rfl (by decide) (by decide) (by decide)).read_write
  revert hread
  decide

end Tl880
