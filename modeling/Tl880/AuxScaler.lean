import Tl880.Lib.AccessProgram
import Tl880.Registers
import Mathlib.Algebra.Group.Nat.Defs

/-!
# The aux scaler

The model of `set_aux_horizontal_scaler`, `set_aux_vertical_scaler`,
`set_aux_picture_origin` and `set_aux_1024x768p`, which `tl880fb/tl880fb.c` and
`tools/dpc/dpcsync.c` both have.  The two copies differ in how they reach the registers
only, so they are programs over the registers of the card.

A step register has three fields.  They say exactly how many source pixels go to an
output pixel as long as the source is smaller than the output (`scalerStep_iff`).
`set_aux_vertical_scaler` reads 0x100c0 until it is stable, and then writes it without
what it read, so nothing of the earlier configuration is left (`auxConfig_lost`).
-/

namespace Tl880

open AccessProgram AccessProgram.Program

/-! ## The functions -/

/-- A program over the registers; it returns whether its loop has ended. -/
abbrev RegProgram := Program U32 U32 U32 Unit Bool

/-- Write a register and go on. -/
def writeReg (reg value : U32) (next : RegProgram) : RegProgram := .write reg value fun _ => next

/-- The value of a step register.  `int` and `u32` give the same bits but for the
quotient, which is the first argument. -/
def scalerValue (quotient size a : U32) : U32 :=
  ((((quotient &&& 0xff#32) * size + a * 0xf00#32) <<< 20) &&& 0xfff00000#32) |||
    (((((quotient &&& 0xff#32) + 1#32) * size - (a <<< 8)) <<< 8) &&& 0x000fff00#32) |||
    (quotient &&& 0x000000ff#32)

/-- `set_aux_horizontal_scaler`, whose arguments are `int`s. -/
def setAuxHorizontalScaler (width a : U32) (next : RegProgram) : RegProgram :=
  writeReg 0x100c8 (scalerValue ((a <<< 8).sdiv width) width a) <|
  writeReg 0x100d0 ((0x6b3#32 - a * 2#32) ||| 0x75a000#32) next

/-- The loop of `set_aux_vertical_scaler`, for at most `fuel` rounds. -/
def stableRead (reg : U32) (next : RegProgram) : Nat → U32 → RegProgram
  | 0, _ => .done false
  | fuel + 1, value =>
      .read reg fun value' => if value ≠ value' then stableRead reg next fuel value' else next

/-- The end of `set_aux_vertical_scaler`, which does not use what was read. -/
def writeVertical (height a interlace : U32) (next : RegProgram) : RegProgram :=
  let value : U32 := if interlace ≠ 0 then 2 else 0
  writeReg 0x100c0 ((((a <<< 8) / height) <<< 8) ||| value ||| height) <|
  writeReg 0x100d4 (0x1050020d#32 ||| (0x41000#32 - (a <<< 0xa))) <|
  writeReg 0x100d8 (0x20b00107#32 ||| (0x82c00#32 - (a <<< 0xa))) next

/-- `set_aux_vertical_scaler`, whose arguments are `u32`s. -/
def setAuxVerticalScaler (fuel : Nat) (height a interlace : U32) (next : RegProgram) :
    RegProgram :=
  writeReg 0x100cc (scalerValue ((a <<< 8) / height) height a) <|
  .read 0x100c0 fun value =>
  stableRead 0x100c0 (writeVertical height a interlace next) fuel value

/-- `set_aux_picture_origin` -/
def setAuxPictureOrigin (x y : U32) (next : RegProgram) : RegProgram :=
  writeReg 0x100c4 (x ||| (y <<< 0xc)) next

/-- What `set_aux_1024x768p` writes to 0x100c0 first. -/
def auxConfig1024x768p (componentVideo : U32) : U32 :=
  let value := setBits 0 0 0 0
  let value := setBits value 1 1 0
  let value := setBits value 2 2 (if componentVideo ≠ 0 then 0 else 1)
  let value := setBits value 3 3 0
  let value := setBits value 4 4 1
  let value := setBits value 0xf 8 0
  setBits value 0x1b 0x10 0x2d1

/-- `set_aux_1024x768p`; its argument `full` is not used. -/
def setAux1024x768p (fuel : Nat) (srcw srch componentVideo : U32) : RegProgram :=
  writeReg 0x100c0 (auxConfig1024x768p componentVideo) <|
  setAuxPictureOrigin 0 2 <|
  setAuxHorizontalScaler 0x400 srcw <|
  setAuxVerticalScaler fuel 0x300 srch 0 (.done true)

/-! ## The fields of a step -/

/-- Bits 7 to 0 of a step register. -/
def stepQuotient (value : U32) : Nat := (value.extractLsb' 0 8).toNat

/-- Bits 19 to 8. -/
def stepIncrement (value : U32) : Nat := (value.extractLsb' 8 12).toNat

/-- The negation of bits 31 to 20. -/
def stepNegated (value : U32) : Nat := (-(value.extractLsb' 20 12)).toNat

/-- The fields are a division of `256 * a` by the size with its remainder, and what the
remainder lacks to the size. -/
def ExactStep (size a value : U32) : Prop :=
  stepQuotient value * size.toNat + stepNegated value = 256 * a.toNat ∧
    stepIncrement value + stepNegated value = size.toNat

/-- The values that a run writes to a register, the first one first. -/
def valuesWritten (o : Outcomes U32 Unit) (p : RegProgram) (reg : U32) : List U32 :=
  ((p.run o).writes.filter fun w => w.1 = reg).map Prod.snd

theorem stepQuotient_scalerValue (quotient size a : U32) :
    stepQuotient (scalerValue quotient size a) = quotient.toNat % 256 := by
  have hbits : (scalerValue quotient size a).extractLsb' 0 8 = quotient.setWidth 8 := by
    apply BitVec.eq_of_getLsbD_eq
    intro i hi
    have hquotient : ∀ i < 8, (0x000000ff#32).getLsbD i = true := by decide
    have hincrement : ∀ i < 8, (0x000fff00#32).getLsbD i = false := by decide
    have hnegated : ∀ i < 8, (0xfff00000#32).getLsbD i = false := by decide
    simp only [scalerValue, BitVec.getLsbD_extractLsb', BitVec.getLsbD_or, BitVec.getLsbD_and,
      Nat.zero_add, hquotient i hi, hincrement i hi, hnegated i hi, BitVec.getLsbD_setWidth,
      Bool.and_false, Bool.and_true, Bool.false_or]
  rw [stepQuotient, hbits, BitVec.toNat_setWidth]

theorem stepIncrement_scalerValue (quotient size a : U32) :
    stepIncrement (scalerValue quotient size a) =
      ((((quotient &&& 0xff#32) + 1#32) * size - (a <<< 8)).setWidth 12).toNat := by
  have hbits : (scalerValue quotient size a).extractLsb' 8 12 =
      (((quotient &&& 0xff#32) + 1#32) * size - (a <<< 8)).setWidth 12 := by
    apply BitVec.eq_of_getLsbD_eq
    intro i hi
    have hquotient : ∀ i < 12, (0x000000ff#32).getLsbD (8 + i) = false := by decide
    have hincrement : ∀ i < 12, (0x000fff00#32).getLsbD (8 + i) = true := by decide
    have hnegated : ∀ i < 12, (0xfff00000#32).getLsbD (8 + i) = false := by decide
    have hplace : 8 + i < 32 ∧ ¬ 8 + i < 8 := by omega
    simp only [scalerValue, BitVec.getLsbD_extractLsb', BitVec.getLsbD_or, BitVec.getLsbD_and,
      BitVec.getLsbD_shiftLeft _ 8, hquotient i hi, hincrement i hi, hnegated i hi,
      BitVec.getLsbD_setWidth, Bool.and_false, Bool.and_true, Bool.false_or, Bool.or_false]
    simp [hplace]
  rw [stepIncrement, hbits]

theorem stepNegated_scalerValue (quotient size a : U32) :
    stepNegated (scalerValue quotient size a) =
      (-(((quotient &&& 0xff#32) * size + a * 0xf00#32).setWidth 12)).toNat := by
  have hbits : (scalerValue quotient size a).extractLsb' 20 12 =
      ((quotient &&& 0xff#32) * size + a * 0xf00#32).setWidth 12 := by
    apply BitVec.eq_of_getLsbD_eq
    intro i hi
    have hquotient : ∀ i < 12, (0x000000ff#32).getLsbD (20 + i) = false := by decide
    have hincrement : ∀ i < 12, (0x000fff00#32).getLsbD (20 + i) = false := by decide
    have hnegated : ∀ i < 12, (0xfff00000#32).getLsbD (20 + i) = true := by decide
    have hplace : 20 + i < 32 ∧ ¬ 20 + i < 20 := by omega
    simp only [scalerValue, BitVec.getLsbD_extractLsb', BitVec.getLsbD_or, BitVec.getLsbD_and,
      BitVec.getLsbD_shiftLeft _ 20, hquotient i hi, hincrement i hi, hnegated i hi,
      BitVec.getLsbD_setWidth, Bool.and_false, Bool.and_true, Bool.or_false]
    simp [hplace]
  rw [stepNegated, hbits]

theorem and_0xff_toNat (quotient : U32) : (quotient &&& 0xff#32).toNat = quotient.toNat % 256 := by
  rw [BitVec.toNat_and]
  exact Nat.and_two_pow_sub_one_eq_mod quotient.toNat 8

/-- Modulo 4096, the negated field and the multiple of the size add up to `256 * a`. -/
theorem stepNegated_mod (quotient size a : U32) :
    (quotient.toNat % 256 * size.toNat + stepNegated (scalerValue quotient size a)) % 4096 =
      256 * a.toNat % 4096 := by
  rw [stepNegated_scalerValue, BitVec.toNat_neg, BitVec.toNat_setWidth, BitVec.toNat_add,
    BitVec.toNat_mul, BitVec.toNat_mul, and_0xff_toNat]
  have hconst : (0xf00#32).toNat = 0xf00 := rfl
  rw [hconst]
  generalize quotient.toNat % 256 * size.toNat = multiple
  omega

/-- Modulo 4096, the increment and the negated field add up to the size. -/
theorem stepIncrement_mod (quotient size a : U32) :
    (stepIncrement (scalerValue quotient size a) +
      stepNegated (scalerValue quotient size a)) % 4096 = size.toNat % 4096 := by
  have hnegated := stepNegated_mod quotient size a
  have hmultiple : ((quotient &&& 0xff#32) + 1#32).toNat * size.toNat =
      quotient.toNat % 256 * size.toNat + size.toNat := by
    have hsucc : ((quotient &&& 0xff#32) + 1#32).toNat = quotient.toNat % 256 + 1 := by
      have hone : (1#32).toNat = 1 := rfl
      rw [BitVec.toNat_add, and_0xff_toNat, hone]
      exact Nat.mod_eq_of_lt (by omega)
    rw [hsucc, Nat.add_mul, Nat.one_mul]
  rw [stepIncrement_scalerValue, BitVec.toNat_setWidth, BitVec.toNat_sub, BitVec.toNat_mul,
    hmultiple, BitVec.toNat_shiftLeft, Nat.shiftLeft_eq]
  generalize quotient.toNat % 256 * size.toNat = multiple at hnegated ⊢
  omega

/-- With the low byte of the quotient the step is exact if and only if the source is
smaller than the size. -/
theorem exactStep_iff {quotient size a : U32} (hpos : 1 ≤ size.toNat) (hsize : size.toNat ≤ 4095)
    (hquotient : quotient.toNat = 256 * a.toNat / size.toNat) :
    ExactStep size a (scalerValue quotient size a) ↔ a < size := by
  have hdivision := Nat.div_add_mod (256 * a.toNat) size.toNat
  have hremainder : 256 * a.toNat % size.toNat < size.toNat := Nat.mod_lt _ hpos
  have hnegated := stepNegated_mod quotient size a
  have hincrement := stepIncrement_mod quotient size a
  have hlow : stepNegated (scalerValue quotient size a) < 4096 := BitVec.isLt _
  have hhigh : stepIncrement (scalerValue quotient size a) < 4096 := BitVec.isLt _
  unfold ExactStep
  rw [stepQuotient_scalerValue, BitVec.lt_def]
  constructor
  · intro hexact
    obtain ⟨hsum, hsize⟩ := hexact
    have hbyte : quotient.toNat % 256 ≤ 255 := by omega
    have hmultiple := Nat.mul_le_mul_right size.toNat hbyte
    by_contra hge
    -- at `a = size` the low byte of the quotient is 0
    have heq : a.toNat = size.toNat := by omega
    rw [heq, Nat.mul_div_cancel _ hpos] at hquotient
    rw [hquotient, heq] at hsum
    omega
  · intro hlt
    have hbyte : quotient.toNat < 256 := by
      rw [hquotient]
      exact Nat.div_lt_of_lt_mul (by omega)
    rw [← hquotient, Nat.mul_comm] at hdivision
    rw [Nat.mod_eq_of_lt hbyte] at hnegated ⊢
    generalize quotient.toNat * size.toNat = multiple at hdivision hnegated ⊢
    omega

/-! ## What the scaler functions write -/

/-- The loop writes nothing itself. -/
theorem stableRead_writes (o : Outcomes U32 Unit) (reg : U32) (next : RegProgram)
    (fuel m n : Nat) (value : U32) :
    (runFrom o m n (stableRead reg next fuel value)).writes = [] ∨
      ∃ m', (runFrom o m n (stableRead reg next fuel value)).writes =
        (runFrom o m' n next).writes := by
  induction fuel generalizing m value with
  | zero => exact Or.inl rfl
  | succ fuel ih =>
      rw [stableRead, runFrom_read]
      by_cases hstable : value = o.replies m
      · right
        refine ⟨m + 1, ?_⟩
        rw [if_neg (not_not.mpr hstable)]
        rfl
      · rw [if_pos hstable]
        exact ih (m + 1) (o.replies m)

/-- For every size and every source the two scalers write one step each, and it is exact
if and only if the source is smaller than the size. -/
theorem scalerStep_iff (o : Outcomes U32 Unit) (size a : U32) (hpos : 1 ≤ size.toNat)
    (hsize : size.toNat ≤ 4095) (ha : a.toNat * 256 < 2 ^ 31) :
    (∃ value, valuesWritten o (setAuxHorizontalScaler size a (.done true)) 0x100c8 = [value] ∧
      (ExactStep size a value ↔ a < size)) ∧
    ∀ fuel interlace, ∃ value,
      valuesWritten o (setAuxVerticalScaler fuel size a interlace (.done true)) 0x100cc =
        [value] ∧ (ExactStep size a value ↔ a < size) := by
  have hshift : (a <<< 8).toNat = 256 * a.toNat := by
    rw [BitVec.toNat_shiftLeft, Nat.shiftLeft_eq]
    omega
  have hquotient : ((a <<< 8) / size).toNat = 256 * a.toNat / size.toNat := by
    rw [BitVec.toNat_udiv, hshift]
  constructor
  · have hsigned : (a <<< 8).sdiv size = (a <<< 8) / size := by
      have hleft : (a <<< 8).msb = false := by
        rw [BitVec.msb_eq_false_iff_two_mul_lt, hshift]
        omega
      have hright : size.msb = false := by
        rw [BitVec.msb_eq_false_iff_two_mul_lt]
        omega
      rw [BitVec.sdiv_eq, hleft, hright]
      rfl
    refine ⟨_, rfl, ?_⟩
    rw [hsigned]
    exact exactStep_iff hpos hsize hquotient
  · intro fuel interlace
    refine ⟨scalerValue ((a <<< 8) / size) size a, ?_, exactStep_iff hpos hsize hquotient⟩
    have hloop := stableRead_writes o 0x100c0 (writeVertical size a interlace (.done true))
      fuel 1 1 (o.replies 0)
    have hrest : (((runFrom o 1 1 (stableRead 0x100c0 (writeVertical size a interlace
        (.done true)) fuel (o.replies 0))).writes).filter fun w => w.1 = 0x100cc) = [] := by
      rcases hloop with hnone | ⟨m, hwrites⟩
      · rw [hnone]
        rfl
      · rw [hwrites]
        rfl
    show (((0x100cc, _) :: (runFrom o 1 1 (stableRead 0x100c0 _ fuel (o.replies 0))).writes).filter
      fun w => w.1 = 0x100cc).map Prod.snd = _
    rw [List.filter_cons, hrest]
    rfl

/-- The picture of 640 pixels on 1024. -/
theorem scalerStep_iff_640 :
    ∃ value, valuesWritten ⟨fun _ => 0, fun _ => ()⟩
      (setAuxHorizontalScaler 0x400 640 (.done true)) 0x100c8 = [value] ∧
        (ExactStep 0x400 640 value ↔ (640#32 < 0x400)) :=
  (scalerStep_iff ⟨fun _ => 0, fun _ => ()⟩ 0x400 640 (by decide) (by decide) (by decide)).1

/-! ## The configuration of the aux video -/

/-- A read of a register by a program. -/
def RegSpace.reply (reg : U32) (r : RegSpace) : U32 × RegSpace := (tl880ReadRegister r reg, r)

/-- A write of a register by a program. -/
def RegSpace.ack (reg value : U32) (r : RegSpace) : Unit × RegSpace :=
  ((), tl880WriteRegister r reg value)

/-- Run a program on the registers of a card. -/
def RegProgram.onRegs (p : RegProgram) (r : RegSpace) : Bool × RegSpace :=
  let (trace, r) := p.exec RegSpace.reply RegSpace.ack r
  (trace.result, r)

/-- The fields of 0x100c0 that `set_aux_1024x768p` configures, and the two numbers that
`set_aux_vertical_scaler` adds, each in bits of its own. -/
structure KeepsAuxConfig (srch componentVideo value : U32) : Prop where
  interlace : value.getLsbD 1 = false
  component : value.getLsbD 2 = decide (componentVideo = 0)
  enable : value.getLsbD 4 = true
  size : value.extractLsb' 16 12 = 0x2d1#12
  apart : (((srch <<< 8) / 0x300#32) <<< 8) &&& 0x300#32 = 0

theorem onRegs_writeReg (reg value : U32) (next : RegProgram) (r : RegSpace) :
    (writeReg reg value next).onRegs r = next.onRegs (tl880WriteRegister r reg value) := rfl

theorem onRegs_read (reg : U32) (next : U32 → RegProgram) (r : RegSpace) :
    RegProgram.onRegs (.read reg next) r = (next (tl880ReadRegister r reg)).onRegs r := rfl

theorem onRegs_done (ended : Bool) (r : RegSpace) :
    RegProgram.onRegs (.done ended) r = (ended, r) := rfl

/-- A register that is plain storage is stable at once. -/
theorem onRegs_stableRead (reg : U32) (next : RegProgram) (fuel : Nat) (r : RegSpace) :
    (stableRead reg next (fuel + 1) (tl880ReadRegister r reg)).onRegs r = next.onRegs r := by
  rw [stableRead, onRegs_read, if_neg (not_not.mpr rfl)]

/-- The vertical scaler returns, and leaves the step and the height in 0x100c0. -/
theorem onRegs_setAuxVerticalScaler (fuel : Nat) (height a interlace : U32) (r : RegSpace)
    (hmapped : r.mapped = true) :
    let result := (setAuxVerticalScaler (fuel + 1) height a interlace (.done true)).onRegs r
    result.1 = true ∧ tl880ReadRegister result.2 0x100c0 =
      ((((a <<< 8) / height) <<< 8) ||| (if interlace ≠ 0 then 2 else 0) ||| height) := by
  intro result
  have hresult : result = (writeVertical height a interlace (.done true)).onRegs
      (tl880WriteRegister r 0x100cc (scalerValue ((a <<< 8) / height) height a)) := by
    show RegProgram.onRegs (setAuxVerticalScaler _ _ _ _ _) r = _
    rw [setAuxVerticalScaler, onRegs_writeReg, onRegs_read, onRegs_stableRead]
  rw [hresult, writeVertical]
  simp only [onRegs_writeReg, onRegs_done]
  constructor
  · trivial
  · rw [tl880ReadRegister_write_ne _ (by decide), tl880ReadRegister_write_ne _ (by decide),
      tl880ReadRegister_write_self _ (by decide)]
    rw [tl880WriteRegister_mapped]
    exact hmapped

/-- `set_aux_1024x768p` returns, and leaves the step and the height in 0x100c0. -/
theorem onRegs_setAux1024x768p (fuel : Nat) (srcw srch componentVideo : U32) (r : RegSpace)
    (hmapped : r.mapped = true) :
    let result := (setAux1024x768p (fuel + 1) srcw srch componentVideo).onRegs r
    result.1 = true ∧ tl880ReadRegister result.2 0x100c0 =
      ((((srch <<< 8) / 0x300) <<< 8) ||| 0 ||| 0x300) := by
  unfold setAux1024x768p setAuxPictureOrigin setAuxHorizontalScaler
  simp only [onRegs_writeReg]
  apply onRegs_setAuxVerticalScaler
  simp only [tl880WriteRegister_mapped]
  exact hmapped

/-- The enable bit is in neither number. -/
theorem not_keepsAuxConfig (srch componentVideo : U32) :
    ¬ KeepsAuxConfig srch componentVideo ((((srch <<< 8) / 0x300) <<< 8) ||| 0 ||| 0x300) := by
  intro hkeeps
  have henable := hkeeps.enable
  rw [BitVec.getLsbD_or, BitVec.getLsbD_or, BitVec.getLsbD_shiftLeft] at henable
  simp at henable

/-- Whatever the source and the video input are, `set_aux_1024x768p` returns with the
configuration that it began with lost. -/
theorem auxConfig_lost (fuel : Nat) (srcw srch componentVideo : U32) (r : RegSpace)
    (hmapped : r.mapped = true) :
    let result := (setAux1024x768p (fuel + 1) srcw srch componentVideo).onRegs r
    result.1 = true ∧
      ¬ KeepsAuxConfig srch componentVideo (tl880ReadRegister result.2 0x100c0) := by
  intro result
  obtain ⟨hended, hvalue⟩ := onRegs_setAux1024x768p fuel srcw srch componentVideo r hmapped
  constructor
  · exact hended
  · rw [hvalue]
    exact not_keepsAuxConfig srch componentVideo

/-- All registers 0, a component source of 640 by 480. -/
theorem auxConfig_lost_480 :
    let result := (setAux1024x768p 1 640 480 1).onRegs ⟨true, fun _ => 0⟩
    result.1 = true ∧ ¬ KeepsAuxConfig 480 1 (tl880ReadRegister result.2 0x100c0) :=
  auxConfig_lost 0 640 480 1 ⟨true, fun _ => 0⟩ rfl

/-- With that source the register is left at 0xa300. -/
theorem auxConfig_overwritten :
    ¬ ∀ (fuel : Nat) (srcw srch componentVideo : U32) (r : RegSpace), r.mapped = true →
      (1 ≤ srcw.toNat ∧ srcw.toNat ≤ 2047) → (1 ≤ srch.toNat ∧ srch.toNat ≤ 2047) →
      ((setAux1024x768p fuel srcw srch componentVideo).onRegs r).1 = true →
      KeepsAuxConfig srch componentVideo
        (tl880ReadRegister ((setAux1024x768p fuel srcw srch componentVideo).onRegs r).2
          0x100c0) := by
  intro h
  obtain ⟨hended, hvalue⟩ := onRegs_setAux1024x768p 0 640 480 1 ⟨true, fun _ => 0⟩ rfl
  have hkeeps := h 1 640 480 1 ⟨true, fun _ => 0⟩ rfl (by decide) (by decide) hended
  rw [hvalue] at hkeeps
  exact not_keepsAuxConfig 480 1 hkeeps

end Tl880
