import Tl880.Lib.Patch
import Tl880.VpxSettings

/-!
# The bit fields of the VPX settings

Several settings share a register of the VPX.  Where transfers succeed the registers are
a table of 12-bit words, and a call is a list of field writes: it puts its bits into the
fields of its settings, and for two registers it clears bit 11, which makes the chip take
the new values.  The masks of the driver keep everything else, so calls for different
settings are independent.
-/

namespace Tl880

open AccessProgram AccessProgram.Program Patch

/-! ## Registers that answer -/

/-- The FP registers, which are 12 bits long. -/
abbrev FpFile := U16 → BitVec 12

/-- A read that succeeds. -/
def FpFile.reply (reg : U16) (f : FpFile) : U16 × FpFile := ((f reg).setWidth 16, f)

/-- A write that succeeds. -/
def FpFile.ack (reg : U16) (data : U16) (f : FpFile) : U32 × FpFile :=
  (0, Function.update f reg (data.setWidth 12))

/-- The registers after a program. -/
def FpProgram.onFile (p : FpProgram) (f : FpFile) : FpFile :=
  (p.exec FpFile.reply FpFile.ack f).2

/-- The driver's state after a call. -/
def VpxState.after (s : VpxState) : VpxCall → VpxState
  | .setVideoStandard standard => (tl880VpxSetVideoStandard s standard).1
  | _ => s

/-- A call, on the driver's state and the registers. -/
def vpxCall (t : VpxState × FpFile) (call : VpxCall) : VpxState × FpFile :=
  (t.1.after call, (vpxProgram t.1 call).onFile t.2)

/-! ## Fields -/

/-- Adjacent bits of a register. -/
structure FpField where
  reg : U16
  low : Nat
  width : Nat
deriving DecidableEq

/-- A bit of a register that is in the field. -/
def FpField.Covers (field : FpField) (p : U16 × Nat) : Prop :=
  p.1 = field.reg ∧ field.low ≤ p.2 ∧ p.2 < field.low + field.width

instance (field : FpField) (p : U16 × Nat) : Decidable (field.Covers p) :=
  inferInstanceAs (Decidable (_ ∧ _ ∧ _))

def FpField.standard : FpField := ⟨vpxFpSdt, 0, 4⟩
def FpField.sVideo : FpField := ⟨vpxFpSdt, 6, 1⟩
def FpField.source : FpField := ⟨vpxFpInsel, 0, 3⟩
def FpField.lumaFilter : FpField := ⟨vpxFpInsel, 5, 2⟩
def FpField.hue : FpField := ⟨vpxFpTint, 0, 12⟩
def FpField.brightness (reg : U16) : FpField := ⟨reg, 0, 12⟩
def FpField.contrast (reg : U16) : FpField := ⟨reg, 0, 6⟩
def FpField.contrastMode (reg : U16) : FpField := ⟨reg, 6, 2⟩
def FpField.coring (reg : U16) : FpField := ⟨reg, 0, 2⟩
def FpField.sharpness (reg : U16) : FpField := ⟨reg, 2, 3⟩

/-- The fields of all settings. -/
def fpFields : List FpField :=
  [.standard, .sVideo, .source, .lumaFilter, .hue, .brightness vpxFpBrightness1,
    .brightness vpxFpBrightness2, .contrast vpxFpContrast1, .contrast vpxFpContrast2,
    .contrastMode vpxFpContrast1, .contrastMode vpxFpContrast2, .coring vpxFpPeaking1,
    .coring vpxFpPeaking2, .sharpness vpxFpPeaking1, .sharpness vpxFpPeaking2]

/-- What is put into a field, with the bits where they are in the register, and whether
bit 11 of the register is cleared. -/
structure FieldWrite where
  field : FpField
  bits : U32
  clears : Bool

/-- What a field write sets. -/
def FieldWrite.patch (write : FieldWrite) : Patch (U16 × Nat) Bool := fun p =>
  if write.field.Covers p then some (write.bits.getLsbD p.2)
  else if write.clears = true ∧ p = (write.field.reg, 11) then some false
  else none

/-- The register of an input. -/
def inputRegister (input : U64) (fpreg1 fpreg2 : U16) : Option U16 :=
  if input = 1 then some fpreg1 else if input = 2 then some fpreg2 else none

/-- The field write of an attribute, the saturation apart. -/
def attributeWrite (input attr : U64) (value : U8) : Option FieldWrite :=
  let wide : U32 := value.setWidth 32
  match (attr - 1).toNat with
  | 0 =>
      (inputRegister input vpxFpBrightness1 vpxFpBrightness2).map fun reg =>
        ⟨.brightness reg, wide - 0x80, false⟩
  | 1 =>
      (inputRegister input vpxFpContrast1 vpxFpContrast2).map fun reg =>
        ⟨.contrast reg, wide >>> 2, false⟩
  | 3 => some ⟨.hue, (wide <<< 2) - 512, false⟩
  | 4 | 9 =>
      (inputRegister input vpxFpPeaking1 vpxFpPeaking2).map fun reg =>
        ⟨.sharpness reg, (wide >>> 5) <<< 2, false⟩
  | 5 =>
      (inputRegister input vpxFpPeaking1 vpxFpPeaking2).map fun reg =>
        ⟨.coring reg, wide >>> 6, false⟩
  | 7 => some ⟨.lumaFilter, (wide >>> 6) <<< 5, true⟩
  | 8 =>
      (inputRegister input vpxFpContrast1 vpxFpContrast2).map fun reg =>
        ⟨.contrastMode reg, swapLow (wide >>> 6) <<< 6, false⟩
  | _ => none

/-- The field write of the source. -/
def sourceWrite (tmp2 : U32) (chromaSource : U8) : FieldWrite :=
  ⟨.source, tmp2 ||| (chromaSource &&& 4).setWidth 32, true⟩

/-- The field write of the kind of source. -/
def sVideoWrite (chromaSource : U8) : FieldWrite :=
  ⟨.sVideo, if chromaSource &&& 1 ≠ 0 then 0x40 else 0, true⟩

/-- The field writes of a call. -/
def VpxCall.writes : VpxCall → List FieldWrite
  | .setVideoStandard standard =>
      match standardBits standard with
      | none => []
      | some bits => [⟨.standard, bits.setWidth 32, true⟩]
  | .setVideoSource lumaSource chromaSource =>
      match lumaInput lumaSource with
      | none => []
      | some tmp2 =>
          if ChromaValid chromaSource then
            [sourceWrite tmp2 chromaSource, sVideoWrite chromaSource]
          else []
  | .setVideoAttribute input attr value => (attributeWrite input attr value).toList

/-- What a call puts into a field. -/
def VpxCall.bitsFor (call : VpxCall) (field : FpField) : Option U32 :=
  (call.writes.reverse.find? fun write => write.field = field).map FieldWrite.bits

/-- What a call sets. -/
def VpxCall.patch (call : VpxCall) : Patch (U16 × Nat) Bool :=
  last (call.writes.map FieldWrite.patch)

/-- The call does not set the saturation, which has no field of its own. -/
def VpxCall.HasField : VpxCall → Prop
  | .setVideoAttribute _ attr _ => attr ≠ 3
  | _ => True

/-- The bits of the registers. -/
def FpFile.bits (f : FpFile) (p : U16 × Nat) : Bool := (f p.1).getLsbD p.2

/-! ## Masks -/

/-- A mask keeps what is outside of a field, bit 11 apart if that is cleared. -/
def MaskKeeps (mask : U32) (low width : Nat) (clears : Bool) : Prop :=
  ∀ i < 12, mask.getLsbD i =
    (!decide (low ≤ i ∧ i < low + width) && !(clears && decide (i = 11)))

instance (mask : U32) (low width : Nat) (clears : Bool) :
    Decidable (MaskKeeps mask low width clears) :=
  inferInstanceAs (Decidable (∀ i < 12, _))

/-- The bits do not reach out of the field. -/
def BitsInside (bits : U32) (low width : Nat) : Prop :=
  ∀ i < 12, ¬ (low ≤ i ∧ i < low + width) → bits.getLsbD i = false

/-- Writing back what was read, with the field replaced, is the field write. -/
theorem fieldWrite_shows (write : FieldWrite) {mask : U32} (f : FpFile) {data : U16}
    (hfits : write.field.low + write.field.width ≤ 12)
    (hmask : MaskKeeps mask write.field.low write.field.width write.clears)
    (hbits : BitsInside write.bits write.field.low write.field.width)
    (hdata : ∀ i < 12, data.getLsbD i =
      (write.bits.getLsbD i || ((f write.field.reg).getLsbD i && mask.getLsbD i))) :
    FpFile.bits (Function.update f write.field.reg (data.setWidth 12)) =
      write.patch.apply f.bits := by
  funext p
  obtain ⟨reg, i⟩ := p
  by_cases hreg : reg = write.field.reg
  swap
  · have hnone : write.patch (reg, i) = none := by
      rw [FieldWrite.patch, if_neg fun hcovers => hreg hcovers.1,
        if_neg fun hclears => hreg (congrArg Prod.fst hclears.2)]
    rw [apply_of_none hnone]
    simp only [FpFile.bits, Function.update_of_ne hreg]
  rw [hreg]
  simp only [FpFile.bits, Function.update_self, apply, FieldWrite.patch, FpField.Covers, true_and,
    Prod.mk.injEq]
  by_cases hi : i < 12
  swap
  · have hout : ¬ (write.field.low ≤ i ∧ i < write.field.low + write.field.width) := by omega
    have h11 : ¬ i = 11 := by omega
    rw [if_neg hout, if_neg fun hclears => h11 hclears.2, Option.getD_none,
      BitVec.getLsbD_of_ge _ i (by omega), BitVec.getLsbD_of_ge _ i (by omega)]
  have hdata12 : (data.setWidth 12).getLsbD i = data.getLsbD i := by
    rw [BitVec.getLsbD_setWidth, decide_eq_true hi, Bool.true_and]
  rw [hdata12, hdata i hi, hmask i hi]
  by_cases hin : write.field.low ≤ i ∧ i < write.field.low + write.field.width
  · rw [if_pos hin, decide_eq_true hin]
    simp
  · rw [if_neg hin, decide_eq_false hin, hbits i hi hin]
    by_cases hclears : write.clears = true ∧ i = 11
    · rw [if_pos hclears]
      simp [hclears.1, hclears.2]
    · rw [if_neg hclears]
      cases hclear : write.clears with
      | false => simp
      | true =>
          have h11 : ¬ i = 11 := fun h11 => hclears ⟨hclear, h11⟩
          simp [h11]

/-- The bits of a value that was moved down and up again. -/
theorem shifted_getLsbD (value : U8) (down up i : Nat) :
    (((value.setWidth 32 : U32) >>> down) <<< up).getLsbD i =
      (decide (i < 32) && !decide (i < up) && value.getLsbD (down + (i - up))) := by
  rw [BitVec.getLsbD_shiftLeft, BitVec.getLsbD_ushiftRight, BitVec.getLsbD_setWidth]
  by_cases hvalue : down + (i - up) < 32
  · simp [hvalue]
  · rw [BitVec.getLsbD_of_ge value _ (by omega)]
    simp

/-- They lie in the field from `up` on. -/
theorem shifted_inside (value : U8) (down up width : Nat) (hwidth : 8 ≤ down + width) :
    BitsInside (((value.setWidth 32 : U32) >>> down) <<< up) up width := by
  intro i _ hout
  rw [shifted_getLsbD]
  by_cases hlow : i < up
  · simp [hlow]
  · rw [BitVec.getLsbD_of_ge value _ (by omega), Bool.and_false]

/-- A value that was moved down only lies in the lowest bits. -/
theorem lowered_inside (value : U8) (down width : Nat) (hwidth : 8 ≤ down + width) :
    BitsInside ((value.setWidth 32 : U32) >>> down) 0 width := by
  have hshifted := shifted_inside value down 0 width hwidth
  rw [BitVec.shiftLeft_zero] at hshifted
  exact hshifted

/-- Swapping 0 and 1 stays within two bits. -/
theorem swapLow_inside (value : U8) :
    BitsInside (swapLow ((value.setWidth 32 : U32) >>> 6) <<< 6) 6 2 := by
  unfold swapLow
  split_ifs
  · unfold BitsInside
    decide
  · unfold BitsInside
    decide
  · exact shifted_inside value 6 6 2 (by decide)

/-! ## Calls as field writes -/

/-- A program that updates a register is its field write. -/
theorem updateFp_shows (write : FieldWrite) {mask : U32} {update : U32 → U32} {reg : U16}
    (hreg : write.field.reg = reg) (f : FpFile)
    (hfits : write.field.low + write.field.width ≤ 12)
    (hmask : MaskKeeps mask write.field.low write.field.width write.clears)
    (hbits : BitsInside write.bits write.field.low write.field.width)
    (hupdate : ∀ tmp, update tmp = write.bits ||| (tmp &&& mask)) :
    ((updateFp reg update).onFile f).bits = write.patch.apply f.bits := by
  rw [← hreg]
  apply fieldWrite_shows write f hfits hmask hbits
  intro i hi
  have h16 : i < 16 := by omega
  have h32 : i < 32 := by omega
  rw [hupdate]
  simp [h16, h32]

/-- A program that writes a whole register is its field write. -/
theorem writeFp_shows (write : FieldWrite) {reg : U16} (hreg : write.field.reg = reg)
    (f : FpFile) (hlow : write.field.low = 0) (hwidth : write.field.width = 12)
    (hclears : write.clears = false) :
    (FpProgram.onFile (.write reg (write.bits.setWidth 16) .done) f).bits =
      write.patch.apply f.bits := by
  have hmask : MaskKeeps 0 write.field.low write.field.width write.clears := by
    rw [hlow, hwidth, hclears]
    decide
  rw [← hreg]
  apply fieldWrite_shows write f (by omega) hmask
  · intro i hi hout
    omega
  · intro i hi
    have h16 : i < 16 := by omega
    simp [h16]

/-- One field write is the patch of a call that consists of it. -/
theorem last_single (write : FieldWrite) : last ([write].map FieldWrite.patch) = write.patch := by
  funext p
  rw [List.map_cons, last_cons, List.map_nil, last_nil, Option.none_or]

theorem single_shows {f g : FpFile} {write : FieldWrite}
    (hshows : g.bits = write.patch.apply f.bits) :
    g.bits = apply (last ([write].map FieldWrite.patch)) f.bits := by
  rw [last_single]
  exact hshows

/-- What is read is not the value that reports a failure. -/
theorem fpRead_ne (f : FpFile) (reg : U16) : ¬ ((f reg).setWidth 16 : U16) = 0xffff := by
  intro heq
  have hbit := congrArg (fun x : U16 => x.getLsbD 15) heq
  simp at hbit

/-- The select bits are the four lowest ones. -/
theorem standardBits_inside {standard : U32} {bits : U16}
    (hbits : standardBits standard = some bits) : BitsInside (bits.setWidth 32) 0 4 := by
  have hsmall : bits.toNat < 16 := by
    unfold standardBits at hbits
    split_ifs at hbits with h15 hnamed
    · cases hbits
      rw [BitVec.toNat_setWidth]
      simp only [BitVec.le_def] at hnamed
      rcases hnamed with ⟨-, hle⟩ | heq
      · have h7 : (7#32).toNat = 7 := rfl
        omega
      · rw [heq]
        decide
    · cases hbits
      decide
  intro i _ hout
  have hbit : bits.getLsbD i = false := by
    rw [BitVec.getLsbD, Nat.testBit_lt_two_pow]
    have hpow : 2 ^ 4 ≤ 2 ^ i := Nat.pow_le_pow_right (by decide) (by omega)
    omega
  rw [BitVec.getLsbD_setWidth, hbit, Bool.and_false]

/-- Setting the standard is its field write. -/
theorem selectStandard_shows (standard : U32) (f : FpFile) :
    ((selectStandard standard).onFile f).bits =
      (VpxCall.setVideoStandard standard).patch.apply f.bits := by
  show FpFile.bits (exec FpFile.reply FpFile.ack
    (if ((f vpxFpSdt).setWidth 16 : U16) = 0xffff then _ else _) f).2 = _
  rw [if_neg (fpRead_ne f vpxFpSdt), VpxCall.patch, VpxCall.writes]
  cases hbits : standardBits standard with
  | none => rfl
  | some bits =>
      apply single_shows
      show FpFile.bits (Function.update f FpField.standard.reg
        ((((f vpxFpSdt).setWidth 16 &&& (0x7f0 : U16)) ||| bits).setWidth 12)) = _
      have hfits : 0 + 4 ≤ 12 := by decide
      have hmask : MaskKeeps 0x7f0 0 4 true := by decide
      apply fieldWrite_shows ⟨.standard, bits.setWidth 32, true⟩ f hfits hmask
        (standardBits_inside hbits)
      intro i hi
      have h16 : i < 16 := by omega
      have h32 : i < 32 := by omega
      have hsame : (0x7f0 : U16).getLsbD i = (0x7f0 : U32).getLsbD i := by
        revert i
        decide
      simp only [BitVec.getLsbD_or, BitVec.getLsbD_and, BitVec.getLsbD_setWidth, h16, h32, hsame,
        decide_true, Bool.true_and]
      rw [Bool.or_comm]
      rfl

/-- The luma and chroma bits are the three lowest ones. -/
theorem sourceInput_inside {lumaSource tmp2 : U32} (hluma : lumaInput lumaSource = some tmp2)
    (chromaSource : U8) :
    BitsInside (tmp2 ||| (chromaSource &&& 4).setWidth 32) 0 3 := by
  have hlow : BitsInside tmp2 0 3 := by
    unfold lumaInput at hluma
    split_ifs at hluma <;> cases hluma <;> unfold BitsInside <;> decide
  intro i hi hout
  have hfour : ∀ i < 12, ¬ (0 ≤ i ∧ i < 0 + 3) → (4 : U8).getLsbD i = false := by decide
  rw [BitVec.getLsbD_or, hlow i hi hout, BitVec.getLsbD_setWidth, BitVec.getLsbD_and,
    hfour i hi hout]
  simp

/-- Setting or clearing the S-video bit. -/
theorem sourceBits_getLsbD (chromaSource : U8) (tmp1 : U32) {i : Nat} (hi : i < 12) :
    (sourceBits chromaSource tmp1).getLsbD i =
      ((if chromaSource &&& 1 ≠ 0 then 0x40 else 0 : U32).getLsbD i ||
        (tmp1.getLsbD i && (0x7bf : U32).getLsbD i)) := by
  have hset : ∀ i < 12, (0x7ff : U32).getLsbD i =
      ((0x40 : U32).getLsbD i || (0x7bf : U32).getLsbD i) := by decide
  have hclear : ∀ i < 12, ((0x7ff : U32).getLsbD i && (~~~0x40 : U32).getLsbD i) =
      (0x7bf : U32).getLsbD i := by decide
  unfold sourceBits
  split_ifs
  · simp only [BitVec.getLsbD_or, BitVec.getLsbD_and, hset i hi]
    cases (0x40 : U32).getLsbD i <;> simp
  · simp only [BitVec.getLsbD_and, Bool.and_assoc, hclear i hi]
    simp

/-- Setting the source is two field writes. -/
theorem selectSource_shows {lumaSource tmp2 : U32} (hluma : lumaInput lumaSource = some tmp2)
    (chromaSource : U8) (f : FpFile) :
    ((selectSource tmp2 chromaSource).onFile f).bits =
      apply (last ([sourceWrite tmp2 chromaSource, sVideoWrite chromaSource].map
        FieldWrite.patch)) f.bits := by
  rw [← foldl_apply]
  let data : U16 := ((((f vpxFpInsel).setWidth 16 : U16).setWidth 32 &&& (0x7f8 : U32)) |||
    (tmp2 ||| (chromaSource &&& 4).setWidth 32)).setWidth 16
  let g : FpFile := Function.update f vpxFpInsel (data.setWidth 12)
  have hsource : g.bits = (sourceWrite tmp2 chromaSource).patch.apply f.bits := by
    have hfits : 0 + 3 ≤ 12 := by decide
    have hmask : MaskKeeps 0x7f8 0 3 true := by decide
    apply fieldWrite_shows (sourceWrite tmp2 chromaSource) f hfits hmask
      (sourceInput_inside hluma chromaSource)
    intro i hi
    have h16 : i < 16 := by omega
    have h32 : i < 32 := by omega
    have hbit : data.getLsbD i = ((f vpxFpInsel).getLsbD i && (0x7f8 : U32).getLsbD i ||
        (tmp2 ||| (chromaSource &&& 4).setWidth 32).getLsbD i) := by
      unfold data
      rw [BitVec.getLsbD_setWidth, BitVec.getLsbD_or, BitVec.getLsbD_and, BitVec.getLsbD_setWidth,
        BitVec.getLsbD_setWidth]
      simp only [h16, h32, decide_true, Bool.true_and]
    rw [hbit, Bool.or_comm]
    rfl
  have hsVideo : ∀ g : FpFile, FpFile.bits (Function.update g vpxFpSdt
      (((sourceBits chromaSource (((g vpxFpSdt).setWidth 16 : U16).setWidth 32)).setWidth 16 :
        U16).setWidth 12)) = (sVideoWrite chromaSource).patch.apply g.bits := by
    intro g
    have hfits : 6 + 1 ≤ 12 := by decide
    have hmask : MaskKeeps 0x7bf 6 1 true := by decide
    have hinside : BitsInside (sVideoWrite chromaSource).bits 6 1 := by
      unfold sVideoWrite BitsInside
      split_ifs <;> decide
    apply fieldWrite_shows (sVideoWrite chromaSource) g hfits hmask hinside
    intro i hi
    have h16 : i < 16 := by omega
    have h32 : i < 32 := by omega
    rw [BitVec.getLsbD_setWidth, sourceBits_getLsbD chromaSource _ hi, BitVec.getLsbD_setWidth,
      BitVec.getLsbD_setWidth]
    simp only [h16, h32, decide_true, Bool.true_and]
    rfl
  show FpFile.bits (Function.update g vpxFpSdt _) =
    (sVideoWrite chromaSource).patch.apply ((sourceWrite tmp2 chromaSource).patch.apply f.bits)
  rw [← hsource]
  exact hsVideo g

/-- A program on the register of an input. -/
theorem withInput_shows {input : U64} {fpreg1 fpreg2 : U16} {program : U16 → FpProgram}
    {write : U16 → FieldWrite} {f : FpFile}
    (hprogram : ∀ reg, ((program reg).onFile f).bits = (write reg).patch.apply f.bits) :
    ((withInput input fpreg1 fpreg2 program).onFile f).bits =
      apply (last (((inputRegister input fpreg1 fpreg2).map write).toList.map FieldWrite.patch))
        f.bits := by
  unfold withInput inputRegister
  split_ifs
  · exact single_shows (hprogram fpreg1)
  · exact single_shows (hprogram fpreg2)
  · rfl

/-- The sharpness, which two attributes set. -/
theorem sharpness_shows (input : U64) (value : U8) (f : FpFile) :
    ((withInput input vpxFpPeaking1 vpxFpPeaking2 fun fpreg =>
      updateFp fpreg fun tmp =>
        ((value.setWidth 32 >>> 5) <<< 2) ||| (tmp &&& 0xfe3)).onFile f).bits =
      apply (last (((inputRegister input vpxFpPeaking1 vpxFpPeaking2).map fun reg =>
        (⟨.sharpness reg, (value.setWidth 32 >>> 5) <<< 2, false⟩ : FieldWrite)).toList.map
          FieldWrite.patch)) f.bits := by
  have hfits : 2 + 3 ≤ 12 := by decide
  have hmask : MaskKeeps 0xfe3 2 3 false := by decide
  exact withInput_shows fun reg =>
    updateFp_shows ⟨.sharpness reg, (value.setWidth 32 >>> 5) <<< 2, false⟩ rfl f hfits hmask
      (shifted_inside value 5 2 3 (by decide)) fun _ => rfl

/-- Setting an attribute other than the saturation is its field write. -/
theorem setVideoAttribute_shows (vpxVideoStandard : U32) (input attr : U64) (value : U8)
    (hattr : attr ≠ 3) (f : FpFile) :
    ((tl880VpxSetVideoAttribute vpxVideoStandard input attr value).onFile f).bits =
      (VpxCall.setVideoAttribute input attr value).patch.apply f.bits := by
  have hk : (attr - 1).toNat ≠ 2 := by
    intro h2
    apply hattr
    have heq : attr - 1 = 2 := BitVec.eq_of_toNat_eq h2
    rw [BitVec.sub_eq_iff_eq_add] at heq
    exact heq
  simp only [tl880VpxSetVideoAttribute, VpxCall.patch, VpxCall.writes, attributeWrite]
  generalize (attr - 1).toNat = k at hk
  rcases k with _ | _ | _ | _ | _ | _ | _ | _ | _ | _ | k
  -- brightness
  · exact withInput_shows fun reg =>
      writeFp_shows ⟨.brightness reg, value.setWidth 32 - 0x80, false⟩ rfl f rfl rfl rfl
  -- contrast
  · have hfits : 0 + 6 ≤ 12 := by decide
    have hmask : MaskKeeps 0xfc0 0 6 false := by decide
    exact withInput_shows fun reg =>
      updateFp_shows ⟨.contrast reg, value.setWidth 32 >>> 2, false⟩ rfl f hfits hmask
        (lowered_inside value 2 6 (by decide)) fun _ => rfl
  -- saturation
  · exact absurd rfl hk
  -- hue
  · exact single_shows
      (writeFp_shows ⟨.hue, (value.setWidth 32 <<< 2) - 512, false⟩ rfl f rfl rfl rfl)
  -- sharpness
  · exact sharpness_shows input value f
  -- coring
  · have hfits : 0 + 2 ≤ 12 := by decide
    have hmask : MaskKeeps 0xffc 0 2 false := by decide
    exact withInput_shows fun reg =>
      updateFp_shows ⟨.coring reg, value.setWidth 32 >>> 6, false⟩ rfl f hfits hmask
        (lowered_inside value 6 2 (by decide)) fun _ => BitVec.or_comm _ _
  · rfl
  -- luma filter
  · have hfits : 5 + 2 ≤ 12 := by decide
    have hmask : MaskKeeps 0x79f 5 2 true := by decide
    exact single_shows
      (updateFp_shows ⟨.lumaFilter, (value.setWidth 32 >>> 6) <<< 5, true⟩ rfl f hfits hmask
        (shifted_inside value 6 5 2 (by decide)) fun _ => rfl)
  -- contrast mode
  · have hfits : 6 + 2 ≤ 12 := by decide
    have hmask : MaskKeeps 0xf3f 6 2 false := by decide
    exact withInput_shows fun reg =>
      updateFp_shows ⟨.contrastMode reg, swapLow (value.setWidth 32 >>> 6) <<< 6, false⟩ rfl f
        hfits hmask (swapLow_inside value) fun _ => rfl
  -- sharpness once more
  · exact sharpness_shows input value f
  · rfl

/-- Every call is the patch of its field writes. -/
theorem vpxCall_shows (t : VpxState × FpFile) {call : VpxCall} (hfield : call.HasField) :
    (vpxCall t call).2.bits = call.patch.apply t.2.bits := by
  cases call with
  | setVideoStandard standard => exact selectStandard_shows standard t.2
  | setVideoSource lumaSource chromaSource =>
      simp only [vpxCall, vpxProgram, tl880VpxSetVideoSource, VpxCall.patch, VpxCall.writes]
      cases hluma : lumaInput lumaSource with
      | none => rfl
      | some tmp2 =>
          by_cases hchroma : ChromaValid chromaSource
          · simp only [if_pos hchroma]
            exact selectSource_shows hluma chromaSource t.2
          · simp only [if_neg hchroma]
            rfl
  | setVideoAttribute input attr value =>
      exact setVideoAttribute_shows t.1.vpxVideoStandard input attr value hfield t.2

/-- Through the bits of the registers the calls are patches. -/
theorem vpx_patched :
    Patched vpxCall (fun t => t.2.bits) VpxCall.patch (fun _ => True) VpxCall.HasField where
  keep := fun _ _ _ _ => trivial
  shows := fun t _ _ hfield => vpxCall_shows t hfield

/-! ## Fields do not meet -/

/-- Different fields have no bit in common. -/
theorem fpFields_apart {a b : FpField} (ha : a ∈ fpFields) (hb : b ∈ fpFields) (hne : a ≠ b)
    {p : U16 × Nat} (hcovers : a.Covers p) : ¬ b.Covers p := by
  have htable : ∀ a ∈ fpFields, ∀ b ∈ fpFields, a ≠ b →
      a.reg ≠ b.reg ∨ a.low + a.width ≤ b.low ∨ b.low + b.width ≤ a.low := by decide
  obtain ⟨hreg, hlow, hhigh⟩ := hcovers
  intro hother
  obtain ⟨hreg', hlow', hhigh'⟩ := hother
  rcases htable a ha b hb hne with h | h | h
  · exact h (hreg.symm.trans hreg')
  · omega
  · omega

/-- No field has bit 11 of a register in which it is cleared. -/
theorem bit11_free {reg : U16} (hreg : reg = vpxFpSdt ∨ reg = vpxFpInsel) {field : FpField}
    (hfield : field ∈ fpFields) : ¬ field.Covers (reg, 11) := by
  have htable : ∀ field ∈ fpFields,
      ¬ field.Covers (vpxFpSdt, 11) ∧ ¬ field.Covers (vpxFpInsel, 11) := by decide
  rcases hreg with heq | heq
  · rw [heq]
    exact (htable field hfield).1
  · rw [heq]
    exact (htable field hfield).2

/-- A field write of the driver is to a field of a setting, and where it clears bit 11 the
bit is in no field. -/
def FieldWrite.Known (write : FieldWrite) : Prop :=
  write.field ∈ fpFields ∧
    (write.clears = true → write.field.reg = vpxFpSdt ∨ write.field.reg = vpxFpInsel)

/-- The register of an input is one of two. -/
theorem inputRegister_known {input : U64} {fpreg1 fpreg2 : U16} {write : U16 → FieldWrite}
    (h1 : (write fpreg1).Known) (h2 : (write fpreg2).Known) :
    ∀ w ∈ (inputRegister input fpreg1 fpreg2).map write, w.Known := by
  unfold inputRegister
  intro w hw
  split_ifs at hw <;> cases hw
  · exact h1
  · exact h2

theorem attributeWrite_known (input attr : U64) (value : U8) :
    ∀ w ∈ attributeWrite input attr value, w.Known := by
  have hknown : ∀ (field : FpField) (bits : U32), field ∈ fpFields →
      FieldWrite.Known ⟨field, bits, false⟩ :=
    fun field bits hfield => ⟨hfield, fun hclears => Bool.noConfusion hclears⟩
  unfold attributeWrite
  generalize (attr - 1).toNat = k
  match k with
  | 0 => exact inputRegister_known (hknown _ _ (by decide)) (hknown _ _ (by decide))
  | 1 => exact inputRegister_known (hknown _ _ (by decide)) (hknown _ _ (by decide))
  | 3 =>
      intro w hw
      cases hw
      exact hknown _ _ (by decide)
  | 4 | 9 => exact inputRegister_known (hknown _ _ (by decide)) (hknown _ _ (by decide))
  | 5 => exact inputRegister_known (hknown _ _ (by decide)) (hknown _ _ (by decide))
  | 7 =>
      intro w hw
      cases hw
      exact ⟨(by decide : FpField.lumaFilter ∈ fpFields), fun _ => Or.inr rfl⟩
  | 8 => exact inputRegister_known (hknown _ _ (by decide)) (hknown _ _ (by decide))
  | 2 | 6 | n + 10 =>
      intro w hw
      cases hw

/-- All field writes of a call are known. -/
theorem VpxCall.writes_known (call : VpxCall) : ∀ w ∈ call.writes, w.Known := by
  cases call with
  | setVideoStandard standard =>
      intro w hw
      unfold VpxCall.writes at hw
      cases hbits : standardBits standard with
      | none =>
          simp only [hbits] at hw
          cases hw
      | some bits =>
          simp only [hbits, List.mem_singleton] at hw
          rw [hw]
          exact ⟨(by decide : FpField.standard ∈ fpFields), fun _ => Or.inl rfl⟩
  | setVideoSource lumaSource chromaSource =>
      intro w hw
      unfold VpxCall.writes at hw
      cases hluma : lumaInput lumaSource with
      | none =>
          simp only [hluma] at hw
          cases hw
      | some tmp2 =>
          simp only [hluma] at hw
          split_ifs at hw
          · rw [List.mem_cons, List.mem_singleton] at hw
            rcases hw with heq | heq
            · rw [heq]
              exact ⟨(by decide : FpField.source ∈ fpFields), fun _ => Or.inr rfl⟩
            · rw [heq]
              exact ⟨(by decide : FpField.sVideo ∈ fpFields), fun _ => Or.inl rfl⟩
          · cases hw
  | setVideoAttribute input attr value =>
      intro w hw
      exact attributeWrite_known input attr value w (Option.mem_toList.mp hw)

/-- Where a field has a bit, a known write sets it only if it is to that field. -/
theorem FieldWrite.Known.patch_covered {write : FieldWrite} (h : write.Known) {field : FpField}
    (hfield : field ∈ fpFields) {p : U16 × Nat} (hcovers : field.Covers p) :
    write.patch p = if write.field = field then some (write.bits.getLsbD p.2) else none := by
  by_cases hsame : write.field = field
  · rw [if_pos hsame, FieldWrite.patch, if_pos (by rw [hsame]; exact hcovers)]
  · have hother : ¬ write.field.Covers p := fpFields_apart hfield h.1 (Ne.symm hsame) hcovers
    rw [if_neg hsame, FieldWrite.patch, if_neg hother, if_neg]
    intro hclears
    apply bit11_free (h.2 hclears.1) hfield
    rw [← hclears.2]
    exact hcovers

/-- Where a field has a bit, a call sets it to what it puts into the field. -/
theorem VpxCall.patch_covered (call : VpxCall) {field : FpField} (hfield : field ∈ fpFields)
    {p : U16 × Nat} (hcovers : field.Covers p) :
    call.patch p = (call.bitsFor field).map fun bits => bits.getLsbD p.2 := by
  have hlist : ∀ ws : List FieldWrite, (∀ w ∈ ws, w.Known) →
      (ws.findSome? fun w => w.patch p) =
        ((ws.find? fun w => w.field = field).map FieldWrite.bits).map fun bits =>
          bits.getLsbD p.2 := by
    intro ws hws
    induction ws with
    | nil => rfl
    | cons w ws ih =>
        rw [List.findSome?_cons, List.find?_cons,
          (hws w List.mem_cons_self).patch_covered hfield hcovers,
          ih fun w' hw' => hws w' (List.mem_cons_of_mem w hw')]
        by_cases hsame : w.field = field <;> simp [hsame]
  rw [VpxCall.patch, last_map, VpxCall.bitsFor]
  apply hlist
  intro w hw
  exact call.writes_known w (List.mem_reverse.mp hw)

/-- Where no write of a call has a bit, the call leaves it or clears it as bit 11. -/
theorem VpxCall.patch_uncovered {call : VpxCall} {p : U16 × Nat}
    (houtside : ∀ w ∈ call.writes, ¬ w.field.Covers p) :
    call.patch p = none ∨ (p.2 = 11 ∧ call.patch p = some false) := by
  have hwrite : ∀ w ∈ call.writes, w.patch p = none ∨ (p.2 = 11 ∧ w.patch p = some false) := by
    intro w hw
    rw [FieldWrite.patch, if_neg (houtside w hw)]
    by_cases hclears : w.clears = true ∧ p = (w.field.reg, 11)
    · right
      rw [if_pos hclears]
      exact ⟨congrArg Prod.snd hclears.2, rfl⟩
    · exact Or.inl (if_neg hclears)
  cases hpatch : call.patch p with
  | none => exact Or.inl rfl
  | some level =>
      right
      rw [VpxCall.patch, last_map] at hpatch
      obtain ⟨w, hw, hset⟩ := List.exists_of_findSome?_eq_some hpatch
      rcases hwrite w (List.mem_reverse.mp hw) with hnone | ⟨h11, hfalse⟩
      · rw [hnone] at hset
        cases hset
      · rw [hfalse] at hset
        exact ⟨h11, hset.symm⟩

/-- Calls that have no field in common agree wherever both set a bit. -/
theorem VpxCall.compatible {call call' : VpxCall}
    (hapart : ∀ w ∈ call.writes, ∀ w' ∈ call'.writes, w.field ≠ w'.field) :
    Compatible call.patch call'.patch := by
  -- a bit of a field that one call writes is left alone by the other
  have hnone : ∀ {c c' : VpxCall}, (∀ w ∈ c.writes, ∀ w' ∈ c'.writes, w.field ≠ w'.field) →
      ∀ {p : U16 × Nat}, ∀ w ∈ c.writes, w.field.Covers p → c'.patch p = none := by
    intro c c' hc p w hw hcovers
    rw [c'.patch_covered (c.writes_known w hw).1 hcovers, VpxCall.bitsFor,
      List.find?_eq_none.mpr]
    · rfl
    · intro w' hw'
      have hne := hc w hw w' (List.mem_reverse.mp hw')
      simpa using hne.symm
  intro p
  by_cases hleft : ∃ w ∈ call.writes, w.field.Covers p
  · obtain ⟨w, hw, hcovers⟩ := hleft
    exact Or.inr (Or.inl (hnone hapart w hw hcovers))
  by_cases hright : ∃ w ∈ call'.writes, w.field.Covers p
  · obtain ⟨w, hw, hcovers⟩ := hright
    exact Or.inl (hnone (fun v hv v' hv' => (hapart v' hv' v hv).symm) w hw hcovers)
  have hleft' : ∀ w ∈ call.writes, ¬ w.field.Covers p := fun w hw hcovers =>
    hleft ⟨w, hw, hcovers⟩
  have hright' : ∀ w ∈ call'.writes, ¬ w.field.Covers p := fun w hw hcovers =>
    hright ⟨w, hw, hcovers⟩
  rcases VpxCall.patch_uncovered hleft' with h | ⟨-, h⟩
  · exact Or.inl h
  · rcases VpxCall.patch_uncovered hright' with h' | ⟨-, h'⟩
    · exact Or.inr (Or.inl h')
    · exact Or.inr (Or.inr (h.trans h'.symm))

/-! ## Runs -/

/-- Registers with the same bits are the same. -/
theorem FpFile.ext_bits {f g : FpFile} (hbits : f.bits = g.bits) : f = g := by
  funext reg
  apply BitVec.eq_of_getLsbD_eq
  intro i _
  exact congrFun hbits (reg, i)

/-- The settings are independent: after any calls a field holds what the last call for it
says, bits 0 to 10 outside of the fields that were set are as before, and calls without a
common field commute. -/
theorem vpxSettings_independent (t : VpxState × FpFile) (calls : List VpxCall)
    (hfields : ∀ call ∈ calls, call.HasField) :
    (∀ field ∈ fpFields, ∀ p, field.Covers p →
      (calls.foldl vpxCall t).2.bits p =
        ((calls.reverse.findSome? fun call => call.bitsFor field).map fun bits =>
          bits.getLsbD p.2).getD (t.2.bits p)) ∧
      (∀ p : U16 × Nat, p.2 ≤ 10 →
        (∀ call ∈ calls, ∀ w ∈ call.writes, ¬ w.field.Covers p) →
        (calls.foldl vpxCall t).2.bits p = t.2.bits p) ∧
      ∀ call call' : VpxCall, call.HasField → call'.HasField →
        (∀ w ∈ call.writes, ∀ w' ∈ call'.writes, w.field ≠ w'.field) →
        (vpxCall (vpxCall t call) call').2 = (vpxCall (vpxCall t call') call).2 := by
  constructor
  · intro field hfield p hcovers
    have hrun := vpx_patched.view_foldl (s := t) trivial hfields p
    have hsaid : (fun call : VpxCall => call.patch p) =
        fun call => (call.bitsFor field).map fun bits => bits.getLsbD p.2 :=
      funext fun call => call.patch_covered hfield hcovers
    rw [last_map, hsaid] at hrun
    rw [List.map_findSome?]
    exact hrun
  constructor
  · intro p hlow houtside
    apply vpx_patched.view_foldl_unset trivial hfields
    intro call hcall
    rcases VpxCall.patch_uncovered (houtside call hcall) with hnone | ⟨h11, -⟩
    · exact hnone
    · omega
  · intro call call' hcall hcall' hapart
    apply FpFile.ext_bits
    exact vpx_patched.view_comm trivial hcall hcall' (VpxCall.compatible hapart)

/-- The contrast of the second input is set to 0x80, which is 0x20 in its field, and then the
mode of that contrast. -/
theorem vpxSettings_independent_ntsc :
    ([VpxCall.setVideoStandard 1, .setVideoAttribute 2 2 0x80, .setVideoAttribute 2 9 0].foldl
      vpxCall (⟨true, 1⟩, fun _ => 0)).2.bits (vpxFpContrast2, 5) = true :=
  ((vpxSettings_independent (⟨true, 1⟩, fun _ => 0)
    [.setVideoStandard 1, .setVideoAttribute 2 2 0x80, .setVideoAttribute 2 9 0] (by
      intro call hcall
      simp only [List.mem_cons, List.not_mem_nil, or_false] at hcall
      rcases hcall with heq | heq | heq
      · rw [heq]
        trivial
      · rw [heq]
        exact (by decide : (2 : U64) ≠ 3)
      · rw [heq]
        exact (by decide : (9 : U64) ≠ 3))).1
    (.contrast vpxFpContrast2) (by decide) (vpxFpContrast2, 5) (by decide)).trans rfl

end Tl880
