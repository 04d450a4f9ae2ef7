import Tl880.Lib.PatchProgram
import Tl880.CursorRuns
import Tl880.Display
import Tl880.InitCard
import Tl880.SampleRate

/-!
# Bringing up a MyHD card

Three of the functions that `tl880_init_dev` of `driver/tl880init.c` calls for a MyHD card:
`tl880_init_myhd`, `tl880_init_ntsc_audio` of `driver/tl880audio.c` and `tl880_set_ntsc_input` of
`driver/tl880input.c`, with `tl880_vpx_config` and `tl880_vpx_init` of `driver/tl880vpx.c` on the
way.  They are straight lines of accesses, and a function is the list of its accesses.

Left out is what `tl880_init_dev` does besides: `tl880_init_chip` and `tl880_init_i2c`, which it
calls first (`InitCard`), the hardware audio in between (`AudioSetup`), and the coefficients of
DPC2 at the end.  So is the MSP, and all I2C traffic but that with the VPX, whose transfers
succeed.

A transfer ends with both lines of bus 0 released.  They are released before the first one, and
nothing else moves them, so that a transfer leaves the registers of the card as they are
(`bus_released`).
-/

namespace Tl880

open AccessProgram AccessProgram.Program Patch

/-! ## The driver -/

/-- `VPX_I2C_LLC` and so on -/
def vpxI2cLlc : U8 := 0xaa
def vpxI2cOena : U8 := 0xf2
def vpxI2cDriverA : U8 := 0xf8
def vpxI2cDriverB : U8 := 0xf9

/-- `VPX_FP_COMB_UC` and so on -/
def vpxFpCombUc : U16 := 0x28
def vpxFpControlword : U16 := 0x140
def vpxFpFormatSel : U16 := 0x150
def vpxFpPvalStart : U16 := 0x151
def vpxFpPvalStop : U16 := 0x152
def vpxFpRefsig : U16 := 0x153
def vpxFpReg174 : U16 := 0x174

/-- The settings of the VPX that `tl880_vpx_init` puts together. -/
structure VpxSettings where
  format : U16
  hrefpol : U16
  vrefpol : U16
  prefpol : U16
  llc2pol : U16
  vlen : U16
  clkio : U16
  uvSwap : U16
  shuffler : U16
  aen : U16
  ben : U16
  zen : U16
  llc2en : U16
  stra1 : U16
  stra2 : U16
  strb1 : U16
  strb2 : U16
  strpixclk : U16
  oldllc : U16
  hsup : U16
  flagdel : U16
  splitDis : U16
  vactMode : U16

/-- `gwVPX_Format` and so on, which nothing changes -/
def gwVpx : VpxSettings where
  format := 8
  hrefpol := 0
  vrefpol := 0
  prefpol := 0
  llc2pol := 0
  vlen := 0
  clkio := 1
  uvSwap := 1
  shuffler := 0
  aen := 1
  ben := 1
  zen := 1
  llc2en := 0
  stra1 := 7
  stra2 := 7
  strb1 := 7
  strb2 := 7
  strpixclk := 3
  oldllc := 1
  hsup := 0
  flagdel := 0
  splitDis := 0
  vactMode := 0

/-- What the functions set up: the card's registers and memory, the registers of the VPX, those of
them that are written without the FP interface, and what the driver has noted of the video
standard. -/
structure CardSetup extends GpioState where
  direct : U8 → U8
  video : VpxState

/-- An access, or a call of a function that is modelled elsewhere. -/
inductive SetupOp
  | writeRegister (reg value : U32)
  | writeRegbits (reg : U32) (highBit lowBit : Nat) (value : U32)
  | clearSdram (startAddr endAddr value : U32)
  | clock (call : ClockCall)
  | setVip (vipMode : U64)
  | vpxWrite (reg value : U8)
  | writeFp (fpaddr data : U16)
  | keepOutmux
  | vpx (call : VpxCall)

/-- The write of OUTMUX that preserves the lines. -/
def preserveOutmux : FpProgram :=
  .read vpxFpOutmux fun tmp => .write vpxFpOutmux ((tmp &&& 0xff) ||| 0x300) .done

/-- The operation on a MyHD card. -/
def setupOp (cardType : U16) (s : CardSetup) : SetupOp → CardSetup
  | .writeRegister reg value => { s with regs := tl880WriteRegister s.regs reg value }
  | .writeRegbits reg highBit lowBit value =>
      { s with regs := tl880WriteRegbits s.regs reg highBit lowBit value }
  | .clearSdram startAddr endAddr value =>
      -- as many rounds as there are dwords, and one that ends the loop
      { s with
        mem := tl880ClearSdram (((endAddr - startAddr) / 4).toNat + 1) s.mem startAddr endAddr
          value }
  | .clock call => { s with toGpioState := clockCall cardType s.toGpioState call }
  | .setVip vipMode => { s with regs := tl880SetVip cardType vipMode s.regs }
  | .vpxWrite reg value => { s with direct := Function.update s.direct reg value }
  | .writeFp fpaddr data => { s with vpx := FpProgram.onFile (.write fpaddr data .done) s.vpx }
  | .keepOutmux => { s with vpx := preserveOutmux.onFile s.vpx }
  | .vpx call =>
      { s with
        vpx := (vpxCall (s.video, s.vpx) call).2
        video := (vpxCall (s.video, s.vpx) call).1 }

/-- `tl880_set_gpio` -/
def SetupOp.setGpio (gpioLine : U32) (state : U8) : SetupOp := .clock (.setGpio (gpioLine, state))

/-- `tl880_vpx_set_power_register` -/
def tl880VpxSetPowerRegister (status : U8) : SetupOp := .vpxWrite vpxI2cLlc status

/-- `tl880_vpx_set_power_status` -/
def tl880VpxSetPowerStatus (status : U8) : SetupOp := .vpxWrite vpxI2cLlc status

/-- The polarity and the timing of LLC. -/
def llcSettings (v : VpxSettings) : U64 :=
  if v.llc2pol ≠ 0 then 0x10
  else
    let tmp2 : U64 := -v.oldllc.setWidth 64 &&& 0xffff
    -- 0, whatever `gwVPX_Oldllc` is
    let tmp2 := tmp2 - tmp2
    tmp2 &&& 0x40

/-- Shift a word to the left and put a setting in the bits that become free. -/
def shiftIn (tmp1 : U64) (bits : Nat) (setting : U16) : U64 :=
  (tmp1 <<< bits) ||| setting.setWidth 64

/-- The switch on `gwVPX_Format`, whose cases fall through. -/
def formatBits (_format : U16) : U16 := 2

/-- The word for the format selection register. -/
def formatSelection (v : VpxSettings) : U64 :=
  let tmp1 : U64 := (v.flagdel &&& 1).setWidth 64
  let tmp1 := shiftIn tmp1 1 (v.hsup &&& 1)
  let tmp1 := shiftIn tmp1 1 (v.uvSwap &&& 1)
  let tmp1 := shiftIn tmp1 1 (v.splitDis &&& 1)
  let tmp1 := shiftIn tmp1 4 (v.shuffler &&& 1)
  shiftIn tmp1 2 (formatBits v.format)

/-- The output multiplexer in `tl880_vpx_init`. -/
def initOutmux (cardType : U16) : List SetupOp :=
  if cardType = cardJanus then [.writeFp vpxFpOutmux 0x311]
  else if cardType = cardMyhdMdp100a then [.writeFp vpxFpOutmux 0x300]
  else if cardType = cardMyhdMdp100 ∨ cardType = cardMyhdMdp110 then
    [.writeFp vpxFpOutmux 0x301]
  else if cardType = cardMyhdMdp120 ∨ cardType = cardMyhdMdp130 then [.keepOutmux]
  else []

/-- `tl880_vpx_init` -/
def tl880VpxInit (cardType : U16) : List SetupOp :=
  [tl880VpxSetPowerStatus 0,
    .vpxWrite vpxI2cLlc ((llcSettings gwVpx).setWidth 8),
    .vpxWrite vpxI2cOena ((shiftIn (shiftIn (shiftIn (shiftIn (gwVpx.llc2en.setWidth 64)
      1 gwVpx.zen) 1 gwVpx.clkio) 1 gwVpx.ben) 1 gwVpx.aen).setWidth 8),
    .vpxWrite vpxI2cDriverA ((shiftIn (shiftIn (gwVpx.strpixclk.setWidth 64)
      3 gwVpx.stra2) 3 gwVpx.stra1).setWidth 8),
    .vpxWrite vpxI2cDriverB ((shiftIn (gwVpx.strb2.setWidth 64) 3 gwVpx.strb1).setWidth 8),
    .writeFp vpxFpRefsig ((shiftIn (shiftIn (shiftIn (gwVpx.vlen.setWidth 64)
      1 gwVpx.vrefpol) 1 gwVpx.hrefpol) 1 gwVpx.prefpol).setWidth 16),
    .writeFp vpxFpFormatSel ((formatSelection gwVpx).setWidth 16)] ++
  -- the format selection is read back and not used
  initOutmux cardType ++
  [.writeFp vpxFpPvalStart 0,
    .writeFp vpxFpPvalStop 0x320,
    .writeFp vpxFpControlword ((gwVpx.vactMode <<< 2) ||| 0x800),
    .writeFp vpxFpReg174 4,
    .writeFp vpxFpPeaking1 0x300,
    .writeFp vpxFpSdt 0x21,
    .writeFp vpxFpCombUc 0xfff]

/-- `NTSC_COMB` -/
def ntscComb : U32 := 7

/-- The attributes that `tl880_vpx_config` sets. -/
def configAttributes : List SetupOp :=
  [.vpx (.setVideoSource 2 4),
    .vpx (.setVideoAttribute 1 2 144),
    .vpx (.setVideoAttribute 1 1 112),
    .vpx (.setVideoAttribute 1 3 192),
    .vpx (.setVideoAttribute 1 4 128),
    .vpx (.setVideoAttribute 1 5 128),
    .vpx (.setVideoAttribute 1 6 128),
    .vpx (.setVideoAttribute 1 10 180)]

/-- `tl880_vpx_config` -/
def tl880VpxConfig (cardType : U16) : List SetupOp :=
  tl880VpxInit cardType ++ .vpx (.setVideoStandard ntscComb) :: configAttributes

/-- `tl880_set_ntsc_audio_clock` -/
def tl880SetNtscAudioClock : List SetupOp :=
  [.clock (.setSamplingClock 3), .writeRegister 0x27810 0xa000]

/-- An MDP-110, MDP-120 or MDP-130. -/
def FromMdp110 (cardType : U16) : Prop := cardMyhdMdp110 ≤ cardType ∧ cardType ≤ cardMyhdMdp130

instance FromMdp110.decidable (cardType : U16) : Decidable (FromMdp110 cardType) :=
  inferInstanceAs (Decidable (_ ∧ _))

/-- The beginning of `tl880_init_myhd`, which ends with the lines of bus 0. -/
def initLines (cardType : U16) : List SetupOp :=
  List.flatten [
    if FromMdp110 cardType then [.writeRegbits 0x10194 0x17 0 0xeff00]
      else if cardType = cardMyhdMdp100 then [.writeRegbits 0x10194 0xf 8 0xff]
      else [],
    [.writeRegbits 0x10190 0x17 0 0xffffff,
      .writeRegbits 0x10198 0xf 8 0x10,
      .writeRegbits 0x10190 0x1b 0x1a 3],
    [.writeRegbits 0x10194 0x1b 0x1a 0, .writeRegbits 0x10198 0x1b 0x1a 0]]

/-- The rest of `tl880_init_myhd`.  The wait for the MSP and its configuration are left out. -/
def initMyhdRest (cardType : U16) : List SetupOp :=
  List.flatten [
    if FromMdp110 cardType then
      [.writeRegbits 0x10198 0x17 0x16 0, .writeRegbits 0x10198 0x10 0x10 0,
        .writeRegbits 0x10198 0x13 0x11 3]
      else [],
    [.setGpio 0 1, .setGpio 6 1],
    if FromMdp110 cardType then [.writeRegbits 0x10198 0x13 0x13 1] else [],
    [.setVip 0, .setVip 1, tl880VpxSetPowerRegister 2, tl880VpxSetPowerRegister 0],
    tl880VpxConfig cardType,
    tl880SetNtscAudioClock,
    if cardType = cardMyhdMdp100a then [.setGpio 5 0]
      else if cardMyhdMdp100 ≤ cardType then [.setGpio 5 0, .writeFp 0x154 0x301]
      else []]

/-- `tl880_init_myhd` -/
def tl880InitMyhd (cardType : U16) : List SetupOp := initLines cardType ++ initMyhdRest cardType

/-- `tl880_init_ntsc_audio` -/
def tl880InitNtscAudio : List SetupOp :=
  List.flatten [tl880SetNtscAudioClock, [
    .writeRegister 0x3004 0, .writeRegister 0x305c 0xc30000c3, .writeRegister 0x3060 0,
    .writeRegister 0x3064 0, .writeRegister 0x3068 0, .writeRegister 0x306c 0xc30000c3,
    .writeRegister 0x3070 0, .writeRegister 0x3074 0, .writeRegister 0x3078 0,
    .writeRegister 0x307c 0xc30000c3, .writeRegister 0x3014 0, .writeRegister 0x3020 0x1000,
    .writeRegister 0x3024 0x10fe0, .writeRegister 0x3028 0, .writeRegister 0x302c 0x1000,
    .writeRegister 0x3030 0x9000, .writeRegister 0x300c 0x3000000,
    .writeRegister 0x3010 0x3000000,
    .writeRegister 0x3008 (fieldsValue
      [(0, 0, 1), (4, 3, 1), (6, 5, 1), (0xa, 8, 0), (0xe, 0xc, 1)]),
    .clearSdram 0x1000 0x11000 0,
    .writeRegister 0x3000 (fieldsValue
      [(0, 0, 0), (1, 1, 0), (2, 2, 0), (4, 3, 0), (6, 5, 0), (8, 7, 0), (0xa, 9, 0),
        (0xf, 0xf, 0), (0x11, 0x10, 1), (0x13, 0x12, 1), (0x15, 0x14, 0), (0x17, 0x16, 0),
        (0x19, 0x18, 1)]),
    .writeRegister 0x3004 (fieldsValue [(6, 1, 3), (8, 8, 1), (0xa, 9, 1)])]]

/-- `tl880_set_video_source`.  Where the card is no Janus the input of the MSP is selected. -/
def tl880SetVideoSource (cardType : U16) (a b : U8) : List SetupOp :=
  (if cardType = cardJanus then [.writeFp 0x154 (if a = 3 then 0x311 else 0x331)] else []) ++
  [.vpx (.setVideoSource (if a = 1 then 1 else if a = 3 then 3 else 2) b)]

/-- `tl880_set_ntsc_input` -/
def tl880SetNtscInput (cardType : U16) (input : Int) : List SetupOp :=
  if input = 1 then tl880SetVideoSource cardType 3 4
  else if input = 2 then tl880SetVideoSource cardType 1 5
  else tl880SetVideoSource cardType 2 4

/-- The three functions, in the order in which `tl880_init_dev` calls them. -/
def initCard (cardType : U16) : List SetupOp :=
  tl880InitMyhd cardType ++ tl880InitNtscAudio ++ tl880SetNtscInput cardType 0

/-! ## Words -/

/-- The bits of a word. -/
def wordBits {w : Nat} (x : BitVec w) (i : Nat) : Bool := x.getLsbD i

/-- The function sets bits of a word, all of them in the mask. -/
def SetsBits {w : Nat} (mask : BitVec w) (g : BitVec w → BitVec w) : Prop :=
  Sets wordBits (fun _ => True) (fun _ => True) (fun i => mask.getLsbD i = true) g

/-- A function that can be read bit by bit. -/
theorem SetsBits.of_getLsbD {w : Nat} {mask : BitVec w} {g : BitVec w → BitVec w}
    (q : Nat → Option Bool) (hmask : ∀ i < w, mask.getLsbD i = false → q i = none)
    (hbits : ∀ x i, i < w → (g x).getLsbD i = (q i).getD (x.getLsbD i)) : SetsBits mask g := by
  refine ⟨fun i => if i < w then q i else none, fun _ _ => trivial, ?_, ?_⟩
  · intro x _
    funext i
    by_cases hi : i < w
    · simp only [wordBits, apply, if_pos hi, hbits x i hi]
    · simp only [wordBits, apply, if_neg hi, Option.getD_none]
      rw [BitVec.getLsbD_of_ge _ i (by omega), BitVec.getLsbD_of_ge _ i (by omega)]
  · intro i hout
    by_cases hi : i < w
    · rw [if_pos hi]
      exact hmask i hi (Bool.eq_false_iff.mpr hout)
    · exact if_neg hi

/-- `set_bits` -/
theorem setBits_setsBits {highBit lowBit : Nat} (hle : lowBit ≤ highBit) (hhigh : highBit < 32)
    (hwidth : highBit - lowBit < 31) (v : U32) {mask : U32}
    (hmask : ∀ i < 32, lowBit ≤ i → i ≤ highBit → mask.getLsbD i = true) :
    SetsBits mask fun x => setBits x highBit lowBit v := by
  apply SetsBits.of_getLsbD fun i =>
    if lowBit ≤ i ∧ i ≤ highBit then some (v.getLsbD (i - lowBit)) else none
  · intro i hi hout
    apply if_neg
    intro hin
    rw [hmask i hi hin.1 hin.2] at hout
    cases hout
  · intro x i _
    rw [getLsbD_setBits hle hhigh hwidth]
    by_cases hin : lowBit ≤ i ∧ i ≤ highBit
    · rw [if_pos hin, if_pos hin, Option.getD_some]
    · rw [if_neg hin, if_neg hin, Option.getD_none]

/-- A word that is replaced. -/
theorem const_setsBits {w : Nat} (v : BitVec w) :
    SetsBits (BitVec.allOnes w) fun _ : BitVec w => v := by
  apply SetsBits.of_getLsbD fun i => some (v.getLsbD i)
  · intro i hi hout
    rw [BitVec.getLsbD_allOnes, decide_eq_true hi] at hout
    cases hout
  · exact fun _ _ _ => rfl

/-- The fields of the VIP port. -/
theorem setVipPins_setsBits (pins : U32) : SetsBits 0xff00ff fun x => setVipPins x pins :=
  (setBits_setsBits (by decide) (by decide) (by decide) pins (by decide)).comp
    (setBits_setsBits (by decide) (by decide) (by decide) pins (by decide))

/-! ## Registers -/

/-- A bit of a register that one of the masks has. -/
def InMasks {κ : Type*} {w : Nat} (masks : List (κ × BitVec w)) (reg : κ) (i : Nat) : Prop :=
  ∃ mask, (reg, mask) ∈ masks ∧ mask.getLsbD i = true

/-- The function sets bits of registers of the card, all of them in the masks. -/
def SetsRegs (masks : List (U32 × U32)) (f : RegSpace → RegSpace) : Prop :=
  Sets RegSpace.bits (fun r => r.mapped = true) (fun r => r.mapped = true)
    (fun a => InMasks masks a.1 a.2) f

/-- Reading a register, changing it and writing it back. -/
theorem SetsRegs.update {reg : U32} (hreg : reg < 0x100000#32) {mask : U32} {g : U32 → U32}
    (hg : SetsBits mask g) {masks : List (U32 × U32)} (hmem : (reg, mask) ∈ masks) :
    SetsRegs masks fun r => tl880WriteRegister r reg (g (tl880ReadRegister r reg)) := by
  obtain ⟨q, hq⟩ := hg
  refine ⟨fun a => if a.1 = reg then q a.2 else none, ?_, ?_, ?_⟩
  · intro r hmapped
    rw [tl880WriteRegister_mapped]
    exact hmapped
  · intro r hmapped
    funext ⟨reg', i⟩
    by_cases hsame : reg' = reg
    · subst hsame
      have hbit := congrFun (hq.shows (tl880ReadRegister r reg') trivial) i
      simp only [RegSpace.bits, apply, if_true, tl880ReadRegister_write_self hmapped hreg]
      exact hbit
    · simp only [RegSpace.bits, apply, if_neg hsame, Option.getD_none,
        tl880ReadRegister_write_ne r hsame]
  · rintro ⟨reg', i⟩ hout
    by_cases hsame : reg' = reg
    · subst hsame
      rw [if_pos rfl]
      exact hq.outside i fun hin => hout ⟨mask, hmem, hin⟩
    · exact if_neg hsame

/-- A field of a register. -/
theorem SetsRegs.writeRegbits {reg : U32} (hreg : reg < 0x100000#32) {highBit lowBit : Nat}
    (hle : lowBit ≤ highBit) (hhigh : highBit < 32) (hwidth : highBit - lowBit < 31) (v : U32)
    {mask : U32} (hmask : ∀ i < 32, lowBit ≤ i → i ≤ highBit → mask.getLsbD i = true)
    {masks : List (U32 × U32)} (hmem : (reg, mask) ∈ masks) :
    SetsRegs masks fun r => tl880WriteRegbits r reg highBit lowBit v :=
  SetsRegs.update hreg (setBits_setsBits hle hhigh hwidth v hmask) hmem

/-- A whole register. -/
theorem SetsRegs.writeRegister {reg : U32} (hreg : reg < 0x100000#32) (v : U32)
    {masks : List (U32 × U32)} (hmem : (reg, 0xffffffff) ∈ masks) :
    SetsRegs masks fun r => tl880WriteRegister r reg v :=
  SetsRegs.update hreg (const_setsBits v) hmem

/-- The output bits of lines. -/
def outputMasks : List (U32 × U32) := [(0x10198, 0xff00)]

/-- Output bits that are written one after the other. -/
theorem writeOutputs_setsRegs (lines : List Nat) {outputs : List (Nat × U32)}
    (hlines : outputs.map Prod.fst = lines)
    (h : ∀ i ∈ lines, i < 32 ∧ (0xff00 : U32).getLsbD i = true) :
    SetsRegs outputMasks fun r => writeOutputs r outputs := by
  apply Sets.foldl
  intro output houtput
  rw [← hlines] at h
  obtain ⟨hline, hmask⟩ := h output.1 (List.mem_map.mpr ⟨output, houtput, rfl⟩)
  apply SetsRegs.writeRegbits (by decide) (Nat.le_refl _) hline (by omega) output.2 _
    (List.mem_singleton.mpr rfl)
  intro i _ hlow hhigh
  rw [Nat.le_antisymm hhigh hlow]
  exact hmask

/-- Lines that are bits of registers. -/
theorem WritesLines.setsRegs {inGroup : Nat → Prop} {f : RegSpace → RegSpace}
    (h : WritesLines inGroup f) (hgroup : ∀ i, inGroup i → 8 ≤ i ∧ i < 16) :
    SetsRegs [(0x10194, 0xff00), (0x10198, 0xff00)] f := by
  obtain ⟨ws, hws, hf⟩ := h
  have hfold : SetsRegs [(0x10194, 0xff00), (0x10198, 0xff00)] fun r =>
      ws.foldl LineWrite.apply r := by
    apply Sets.foldl
    intro w hw
    obtain ⟨hreg, hline, hin⟩ := hws w hw
    have hspace : w.reg < 0x100000#32 := by
      rcases hreg with heq | heq <;> rw [heq] <;> decide
    have hmem : (w.reg, (0xff00 : U32)) ∈ [((0x10194 : U32), (0xff00 : U32)), (0x10198, 0xff00)] := by
      rcases hreg with heq | heq <;> rw [heq] <;> decide
    refine SetsRegs.writeRegbits hspace (Nat.le_refl _) hline (by omega) w.value ?_ hmem
    intro i hi hlow hhigh
    have hbits : ∀ i < 32, 8 ≤ i ∧ i < 16 → (0xff00 : U32).getLsbD i = true := by decide
    rw [← Nat.le_antisymm hhigh hlow] at hin
    exact hbits i hi (hgroup i hin)
  rw [show f = fun r => ws.foldl LineWrite.apply r from funext hf]
  exact hfold

/-- On an MDP-100A the lines are outputs. -/
theorem setGpioMdp100a_setsRegs (line : Nat) (state : U8) :
    SetsRegs outputMasks (setGpioMdp100a line state) := by
  match line with
  | 0 => exact writeOutputs_setsRegs [8] rfl (by decide)
  | 1 =>
      exact Sets.ite _ (writeOutputs_setsRegs [0xa, 9] rfl (by decide))
        (writeOutputs_setsRegs [9, 0xa] rfl (by decide))
  | 2 =>
      exact Sets.ite _ (writeOutputs_setsRegs [9, 0xa] rfl (by decide))
        (writeOutputs_setsRegs [0xa, 9] rfl (by decide))
  | 3 =>
      exact Sets.ite _ (writeOutputs_setsRegs [0xc, 0xb] rfl (by decide))
        (writeOutputs_setsRegs [0xb] rfl (by decide))
  | 4 =>
      exact Sets.ite _ (writeOutputs_setsRegs [0xc, 0xd] rfl (by decide))
        (writeOutputs_setsRegs [0xb, 0xc, 0xd] rfl (by decide))
  | 5 => exact writeOutputs_setsRegs [0xd] rfl (by decide)
  | 6 => exact writeOutputs_setsRegs [0xe] rfl (by decide)
  | n + 7 => exact Sets.skip

/-- The lines 3 and 4 are outputs on all cards that have them in registers. -/
theorem setGpioRegs_vip (cardType : U16) {line : Nat} (hline : line = 3 ∨ line = 4)
    (state : U8) : SetsRegs outputMasks (setGpioRegs cardType line state) := by
  have hjanus : SetsRegs outputMasks (setGpioJanus line state) := by
    rcases hline with heq | heq <;> rw [heq]
    · exact Sets.ite _ (writeOutputs_setsRegs [0xb, 0xe] rfl (by decide))
        (writeOutputs_setsRegs [0xe, 0xb] rfl (by decide))
    · exact Sets.ite _ (writeOutputs_setsRegs [0xe, 0xb] rfl (by decide))
        (writeOutputs_setsRegs [0xb, 0xe] rfl (by decide))
  have h100 : SetsRegs outputMasks (setGpioMdp100 line state) := by
    rcases hline with heq | heq <;> rw [heq]
    · exact Sets.ite _ (writeOutputs_setsRegs [0xc, 0xb] rfl (by decide))
        (writeOutputs_setsRegs [0xb] rfl (by decide))
    · exact Sets.ite _ (writeOutputs_setsRegs [0xc, 0xd] rfl (by decide))
        (writeOutputs_setsRegs [0xb, 0xc, 0xd] rfl (by decide))
  exact Sets.ite _ hjanus (Sets.ite _ (setGpioMdp100a_setsRegs line state)
    (Sets.ite _ h100 Sets.skip))

/-- The bits of the lines of a card that has them in registers. -/
def lineMasks (cardType : U16) : List (U32 × U32) :=
  if cardType = cardMyhdMdp100a then outputMasks
  else if cardType = cardJanus ∨ (cardMyhdMdp100 ≤ cardType ∧ cardType < cardMyhdMdp120) then
    [(0x10194, 0xff00), (0x10198, 0xff00)]
  else []

/-- Lines in registers. -/
theorem setGpioRegs_setsRegs (cardType : U16) (line : Nat) (state : U8) :
    SetsRegs (lineMasks cardType) (setGpioRegs cardType line state) := by
  have hjanus : ∀ i, InGroupOf janusGroup janusBitGroup line i → 8 ≤ i ∧ i < 16 := by
    rintro i ⟨hsome, heq⟩
    rw [← heq] at hsome
    unfold janusBitGroup at hsome
    split at hsome <;> simp at hsome ⊢
  have h100 : ∀ i, InGroupOf mdp100Group mdp100BitGroup line i → 8 ≤ i ∧ i < 16 := by
    rintro i ⟨hsome, heq⟩
    rw [← heq] at hsome
    unfold mdp100BitGroup at hsome
    split at hsome <;> simp at hsome ⊢
  unfold lineMasks
  by_cases h100a : cardType = cardMyhdMdp100a
  · rw [if_pos h100a, h100a]
    exact setGpioMdp100a_setsRegs line state
  rw [if_neg h100a]
  by_cases hline : cardType = cardJanus ∨ (cardMyhdMdp100 ≤ cardType ∧ cardType < cardMyhdMdp120)
  · rw [if_pos hline]
    rcases hline with heq | hbetween
    · rw [heq]
      exact (setGpioJanus_writes line state).setsRegs hjanus
    · have hcard : setGpioRegs cardType line state = setGpioMdp100 line state := by
        have hne : ¬ cardType = cardJanus := by
          rintro rfl
          exact absurd hbetween (by decide)
        funext r
        rw [setGpioRegs, if_neg hne, if_neg h100a, if_pos hbetween]
      rw [hcard]
      exact (setGpioMdp100_writes line state).setsRegs h100
  · rw [if_neg hline]
    rw [not_or] at hline
    have hcard : setGpioRegs cardType line state = id := by
      funext r
      rw [setGpioRegs, if_neg hline.1, if_neg h100a, if_neg hline.2, id]
    rw [hcard]
    exact Sets.skip

/-- The bits of the VIP port and of the lines that go with it. -/
def vipMasks : List (U32 × U32) := [(0x10190, 0xff00ff), (0x10194, 0xff00ff), (0x10198, 0xff00)]

/-- `tl880_set_vip` sets the same bits every time. -/
theorem tl880SetVip_setsRegs (cardType : U16) (vipMode : U64) :
    SetsRegs vipMasks (tl880SetVip cardType vipMode) := by
  have hgpio : ∀ {line : Nat}, line = 3 ∨ line = 4 → ∀ state,
      SetsRegs vipMasks (setGpioRegs cardType line state) := by
    intro line hline state
    refine (setGpioRegs_vip cardType hline state).mono ?_
    rintro a ⟨mask, hmem, hbit⟩
    exact ⟨mask, List.mem_cons_of_mem _ (List.mem_cons_of_mem _ hmem), hbit⟩
  have hpins : ∀ (reg pins : U32), reg < 0x100000#32 → (reg, 0xff00ff) ∈ vipMasks →
      SetsRegs vipMasks fun r =>
        tl880WriteRegister r reg (setVipPins (tl880ReadRegister r reg) pins) :=
    fun reg pins hreg hmem => SetsRegs.update hreg (setVipPins_setsBits pins) hmem
  have hport : SetsRegs vipMasks fun r => vipPort cardType r := by
    by_cases h110 : cardType = cardMyhdMdp110
    · have hthree : SetsBits 0xff00ff fun x => setBits (setVipPins x 0) 0x13 0x11 7 :=
        (setVipPins_setsBits 0).comp
          (setBits_setsBits (by decide) (by decide) (by decide) 7 (by decide))
      simp only [vipPort, if_pos h110]
      exact (hpins 0x10190 0xff (by decide) (by decide)).comp
        (SetsRegs.update (by decide) hthree (by decide))
    · simp only [vipPort, if_neg h110]
      exact (hpins 0x10190 0xff (by decide) (by decide)).comp
        (hpins 0x10194 0 (by decide) (by decide))
  have hmode0 := (hport.comp (hgpio (Or.inl rfl) 1)).comp (hgpio (Or.inr rfl) 1)
  have hmode1 := hport.comp (hgpio (Or.inl rfl) 0)
  have hmode2 := ((hgpio (Or.inr rfl) 0).comp (hpins 0x10190 0 (by decide) (by decide))).comp
    (hpins 0x10194 0xff (by decide) (by decide))
  exact Sets.ite _ hmode0 (Sets.ite _ hmode1 (Sets.ite _ (Sets.ite _ hmode2 Sets.skip) Sets.skip))

/-! ## Registers of the VPX -/

/-- The function sets bits of FP registers, all of them in the masks. -/
def SetsFp (masks : List (U16 × BitVec 12)) (f : FpFile → FpFile) : Prop :=
  Sets FpFile.bits (fun _ => True) (fun _ => True) (fun a => InMasks masks a.1 a.2) f

theorem SetsFp.update {reg : U16} {mask : BitVec 12} {g : BitVec 12 → BitVec 12}
    (hg : SetsBits mask g) {masks : List (U16 × BitVec 12)} (hmem : (reg, mask) ∈ masks) :
    SetsFp masks fun f => Function.update f reg (g (f reg)) := by
  obtain ⟨q, hq⟩ := hg
  refine ⟨fun a => if a.1 = reg then q a.2 else none, fun _ _ => trivial, ?_, ?_⟩
  · intro f _
    funext ⟨reg', i⟩
    by_cases hsame : reg' = reg
    · subst hsame
      have hbit := congrFun (hq.shows (f reg') trivial) i
      simp only [FpFile.bits, apply, if_true, Function.update_self]
      exact hbit
    · simp only [FpFile.bits, apply, if_neg hsame, Option.getD_none, Function.update_of_ne hsame]
  · rintro ⟨reg', i⟩ hout
    by_cases hsame : reg' = reg
    · subst hsame
      rw [if_pos rfl]
      exact hq.outside i fun hin => hout ⟨mask, hmem, hin⟩
    · exact if_neg hsame

/-- `tl880_vpx_write_fp` -/
theorem writeFp_setsFp (fpaddr data : U16) :
    SetsFp [(fpaddr, 0xfff)] fun f => FpProgram.onFile (.write fpaddr data .done) f :=
  SetsFp.update (const_setsBits (data.setWidth 12)) (List.mem_singleton.mpr rfl)

/-- The lowest eight bits of OUTMUX are preserved. -/
theorem preserveOutmux_setsFp : SetsFp [(vpxFpOutmux, 0xf00)] preserveOutmux.onFile := by
  have hword : SetsBits (0xf00 : BitVec 12) fun x =>
      ((((x.setWidth 16 : U16) &&& 0xff) ||| 0x300).setWidth 12 : BitVec 12) := by
    apply SetsBits.of_getLsbD fun i => if i < 8 then none else some (decide (i = 8 ∨ i = 9))
    · intro i hi hout
      have hmask : ∀ i < 12, (0xf00 : BitVec 12).getLsbD i = !decide (i < 8) := by decide
      rw [hmask i hi, Bool.not_eq_false', decide_eq_true_iff] at hout
      exact if_pos hout
    · intro x i hi
      have h16 : i < 16 := by omega
      have hmask : ∀ i < 12, (0xff : U16).getLsbD i = decide (i < 8) := by decide
      have hset : ∀ i < 12, (0x300 : U16).getLsbD i = decide (i = 8 ∨ i = 9) := by decide
      simp only [BitVec.getLsbD_setWidth, BitVec.getLsbD_or, BitVec.getLsbD_and, hi, h16,
        hmask i hi, hset i hi, decide_true, Bool.true_and]
      by_cases h8 : i < 8
      · have hnot : ¬ (i = 8 ∨ i = 9) := by omega
        simp [h8, hnot]
      · simp [h8]
  exact SetsFp.update hword (List.mem_singleton.mpr rfl)

/-- A line that is on the VPX. -/
theorem setGpioVpx_setsFp (gpioLine : U32) (state : U8) :
    SetsFp [(vpxFpOutmux, 0xfff)] (setGpioVpx gpioLine state).onFile := by
  cases hmask : outmuxMask gpioLine with
  | none =>
      have hnothing : (setGpioVpx gpioLine state).onFile = id := by
        funext f
        rw [setGpioVpx_onFile, hmask]
        rfl
      rw [hnothing]
      exact Sets.skip
  | some mask =>
      have hline : (setGpioVpx gpioLine state).onFile = fun f =>
          Function.update f vpxFpOutmux (outmuxValue mask state (f vpxFpOutmux)) := by
        funext f
        rw [setGpioVpx_onFile, hmask]
      -- bits 8 and 9 are set, the bits of the line follow the state, and the others are kept
      have hword : SetsBits (0xfff : BitVec 12) (outmuxValue mask state) := by
        apply SetsBits.of_getLsbD fun i =>
          if i = 8 ∨ i = 9 then some true
          else if mask.getLsbD i = true then some (decide (state ≠ 0)) else none
        · intro i hi hout
          have hones : ∀ i < 12, (0xfff : BitVec 12).getLsbD i = true := by decide
          rw [hones i hi] at hout
          cases hout
        · intro x i hi
          rw [outmuxValue_getLsbD mask state x hi]
          by_cases hset : i = 8 ∨ i = 9
          · simp [hset]
          · by_cases hbit : mask.getLsbD i = true <;> simp [hset, hbit]
      rw [hline]
      exact SetsFp.update hword (List.mem_singleton.mpr rfl)

/-- The bits that a field write sets. -/
def FieldWrite.mask (write : FieldWrite) : BitVec 12 :=
  (((1 <<< write.field.width) - 1) <<< write.field.low) ||| (if write.clears then 0x800 else 0)

/-- A known field write sets no other bits. -/
theorem FieldWrite.Known.patch_outside {write : FieldWrite} (hknown : write.Known) {i : Nat}
    (hout : write.mask.getLsbD i ≠ true) : write.patch (write.field.reg, i) = none := by
  have htable : ∀ field ∈ fpFields, ∀ clears : Bool, ∀ i < 12,
      (FieldWrite.mask ⟨field, 0, clears⟩).getLsbD i =
        (decide (field.low ≤ i ∧ i < field.low + field.width) || (clears && decide (i = 11))) := by
    decide
  have hfits : ∀ field ∈ fpFields, field.low + field.width ≤ 12 := by decide
  have hbits := htable write.field hknown.1 write.clears
  have hwidth := hfits write.field hknown.1
  have hmask : write.mask = FieldWrite.mask ⟨write.field, 0, write.clears⟩ := rfl
  by_cases hi : i < 12
  · rw [hmask, hbits i hi, ne_eq, Bool.or_eq_true, Bool.and_eq_true, decide_eq_true_iff,
      decide_eq_true_iff, not_or] at hout
    rw [FieldWrite.patch, if_neg fun hcovers => hout.1 hcovers.2,
      if_neg fun hclears => hout.2 ⟨hclears.1, congrArg Prod.snd hclears.2⟩]
  · have hcovers : ¬ write.field.Covers (write.field.reg, i) := by
      rintro ⟨-, -, hhigh⟩
      exact hi (lt_of_lt_of_le hhigh hwidth)
    have hclears : ¬ (write.clears = true ∧ (write.field.reg, i) = (write.field.reg, 11)) := by
      rintro ⟨-, heq⟩
      have h11 : i = 11 := congrArg Prod.snd heq
      omega
    rw [FieldWrite.patch, if_neg hcovers, if_neg hclears]

/-- The saturation, where it is one register. -/
theorem setSaturation_eq {vpxVideoStandard : U32} (hstandard : vpxVideoStandard ≠ 2) {value : U8}
    (hvalue : value ≠ 0) :
    setSaturation vpxVideoStandard value =
      .write vpxFpAccSat (((value.setWidth 32 : U32) <<< 4).setWidth 16) .done := by
  have hwide : ¬ (value.setWidth 32 : U32) = 0 := by
    intro hzero
    apply hvalue
    have heq := congrArg (fun x : U32 => (x.setWidth 8 : U8)) hzero
    simpa using heq
  rw [setSaturation, if_neg hwide, if_pos hstandard]

/-! ## The card -/

/-- A bit of a register of the card, of an FP register of the VPX or of a register of the VPX that
is reached without the FP interface. -/
inductive SetupBit
  | reg (reg : U32) (i : Nat)
  | fp (reg : U16) (i : Nat)
  | direct (reg : U8) (i : Nat)

def CardSetup.bit (s : CardSetup) : SetupBit → Bool
  | .reg reg i => s.regs.bits (reg, i)
  | .fp reg i => s.vpx.bits (reg, i)
  | .direct reg i => (s.direct reg).getLsbD i

/-- The bits that an operation can change. -/
structure SetupMasks where
  regs : List (U32 × U32)
  fp : List (U16 × BitVec 12)
  direct : List (U8 × U8)

def SetupMasks.Has (masks : SetupMasks) : SetupBit → Prop
  | .reg reg i => InMasks masks.regs reg i
  | .fp reg i => InMasks masks.fp reg i
  | .direct reg i => InMasks masks.direct reg i

/-- The bits of the lines. -/
def linesMasks (cardType : U16) : SetupMasks :=
  if LinesOnVpx cardType then ⟨[], [(vpxFpOutmux, 0xfff)], []⟩ else ⟨lineMasks cardType, [], []⟩

/-- The bits of line 0 where that is no line. -/
def audioLineMasks (state : U8) : SetupMasks :=
  if state = 0 then
    ⟨[0x3000, 0x3004, 0x3040, 0x3044, 0x3048, 0x3058, 0x306c].map fun reg => (reg, 0xffffffff),
      [], []⟩
  else ⟨[(0x3004, 0xc0000), (0x3058, 0xff000c), (0x306c, 0xffffffff)], [], []⟩

def gpioMasks (cardType : U16) (call : GpioCall) : SetupMasks :=
  if LinesOnVpx cardType ∧ call.1 = 0 then audioLineMasks call.2 else linesMasks cardType

def clockMasks (cardType : U16) : ClockCall → SetupMasks
  | .setGpio call => gpioMasks cardType call
  | .setSamplingClock _ =>
      if cardType = cardMyhdMdp100a then ⟨[], [(vpxFpOutmux, 0xfff)], []⟩ else linesMasks cardType
  | .setSamplerate _ => linesMasks cardType

/-- The bits of the field writes of a call. -/
def VpxCall.masks (call : VpxCall) : List (U16 × BitVec 12) :=
  call.writes.map fun write => (write.field.reg, write.mask)

/-- The mask of a field. -/
def rangeMask (highBit lowBit : Nat) : U32 := shiftLeft32 (fieldMask highBit lowBit) lowBit

/-- The bits of an operation, of a saturation those that it sets while the standard is not
SECAM. -/
def SetupOp.masks (cardType : U16) : SetupOp → SetupMasks
  | .writeRegister reg _ => ⟨[(reg, 0xffffffff)], [], []⟩
  | .writeRegbits reg highBit lowBit _ => ⟨[(reg, rangeMask highBit lowBit)], [], []⟩
  | .clearSdram _ _ _ => ⟨[], [], []⟩
  | .clock call => clockMasks cardType call
  | .setVip _ => ⟨vipMasks, [], []⟩
  | .vpxWrite reg _ => ⟨[], [], [(reg, 0xff)]⟩
  | .writeFp fpaddr _ => ⟨[], [(fpaddr, 0xfff)], []⟩
  | .keepOutmux => ⟨[], [(vpxFpOutmux, 0xf00)], []⟩
  | .vpx (.setVideoAttribute input attr value) =>
      if attr = 3 then ⟨[], [(vpxFpAccSat, 0xfff)], []⟩
      else ⟨[], (VpxCall.setVideoAttribute input attr value).masks, []⟩
  | .vpx call => ⟨[], call.masks, []⟩

/-- The operation sets the saturation. -/
def SetupOp.IsSaturation : SetupOp → Prop
  | .vpx (.setVideoAttribute _ attr _) => attr = 3
  | _ => False

/-- The operation is to registers that are there and to fields that `set_bits` can write, and a
saturation is not 0, which is another setting of the chip. -/
def SetupOp.Proper : SetupOp → Prop
  | .writeRegister reg _ => reg < 0x100000#32
  | .writeRegbits reg highBit lowBit _ =>
      reg < 0x100000#32 ∧ lowBit ≤ highBit ∧ highBit < 32 ∧ highBit - lowBit < 31
  | .vpx (.setVideoAttribute _ attr value) => attr = 3 → value ≠ 0
  | _ => True

instance SetupOp.decidableProper : DecidablePred SetupOp.Proper
  | .writeRegister _ _ => inferInstanceAs (Decidable (_ < _))
  | .writeRegbits _ _ _ _ => inferInstanceAs (Decidable (_ ∧ _ ∧ _ ∧ _))
  | .vpx (.setVideoAttribute _ _ _) => inferInstanceAs (Decidable (_ → _))
  | .vpx (.setVideoStandard _) => inferInstanceAs (Decidable True)
  | .vpx (.setVideoSource _ _) => inferInstanceAs (Decidable True)
  | .clearSdram _ _ _ => inferInstanceAs (Decidable True)
  | .clock _ => inferInstanceAs (Decidable True)
  | .setVip _ => inferInstanceAs (Decidable True)
  | .vpxWrite _ _ => inferInstanceAs (Decidable True)
  | .writeFp _ _ => inferInstanceAs (Decidable True)
  | .keepOutmux => inferInstanceAs (Decidable True)

/-- The operations that keep the driver's note of the standard. -/
def SetupOp.KeepsStandard : SetupOp → Prop
  | .vpx (.setVideoStandard _) => False
  | _ => True

/-- The registers are there, and the driver's note of the video standard has a property. -/
def CardSetup.Ready (Q : VpxState → Prop) (s : CardSetup) : Prop :=
  s.regs.mapped = true ∧ Q s.video

/-! ## Operations -/

section Operations

variable {cardType : U16} {Q : VpxState → Prop} {F : CardSetup → CardSetup}

/-- From states with the property the program sets bits of the registers, and keeps it. -/
def SetsCard (Q : VpxState → Prop) (masks : SetupMasks) (F : CardSetup → CardSetup) : Prop :=
  Sets CardSetup.bit (CardSetup.Ready Q) (CardSetup.Ready Q) masks.Has F

/-- What sets bits of the card's registers. -/
theorem SetsRegs.lift {masks : List (U32 × U32)} {f : RegSpace → RegSpace}
    (hf : SetsRegs masks f) (hregs : ∀ s, (F s).regs = f s.regs)
    (hvpx : ∀ s, (F s).vpx = s.vpx) (hdirect : ∀ s, (F s).direct = s.direct)
    (hvideo : ∀ s, (F s).video = s.video) : SetsCard Q ⟨masks, [], []⟩ F := by
  refine (Sets.lift (fun s : CardSetup => s.regs) (fun a => match a with
    | .reg reg i => some (reg, i)
    | _ => none) hf ?_ (fun s _ => hregs s) ?_ (fun _ hs => hs.1) ?_).mono ?_
  · rintro s (⟨reg, i⟩ | ⟨reg, i⟩ | ⟨reg, i⟩) c hc <;> cases hc
    rfl
  · rintro s (⟨reg, i⟩ | ⟨reg, i⟩ | ⟨reg, i⟩) _ hc
    · cases hc
    · simp only [CardSetup.bit, hvpx s]
    · simp only [CardSetup.bit, hdirect s]
  · intro s hs hmapped
    refine ⟨hmapped, ?_⟩
    rw [hvideo]
    exact hs.2
  · rintro (⟨reg, i⟩ | ⟨reg, i⟩ | ⟨reg, i⟩) ⟨c, hc, hin⟩ <;> cases hc
    exact hin

/-- What sets bits of FP registers. -/
theorem SetsFp.lift {masks : List (U16 × BitVec 12)} {f : FpFile → FpFile} (hf : SetsFp masks f)
    (hvpx : ∀ s, Q s.video → (F s).vpx = f s.vpx) (hregs : ∀ s, (F s).regs = s.regs)
    (hdirect : ∀ s, (F s).direct = s.direct) (hvideo : ∀ s, (F s).video = s.video) :
    SetsCard Q ⟨[], masks, []⟩ F := by
  refine (Sets.lift (fun s : CardSetup => s.vpx) (fun a => match a with
    | .fp reg i => some (reg, i)
    | _ => none) hf ?_ (fun s hs => hvpx s hs.2) ?_ (fun _ _ => trivial) ?_).mono ?_
  · rintro s (⟨reg, i⟩ | ⟨reg, i⟩ | ⟨reg, i⟩) c hc <;> cases hc
    rfl
  · rintro s (⟨reg, i⟩ | ⟨reg, i⟩ | ⟨reg, i⟩) _ hc
    · simp only [CardSetup.bit, hregs s]
    · cases hc
    · simp only [CardSetup.bit, hdirect s]
  · intro s hs _
    rw [CardSetup.Ready, hregs, hvideo]
    exact hs
  · rintro (⟨reg, i⟩ | ⟨reg, i⟩ | ⟨reg, i⟩) ⟨c, hc, hin⟩ <;> cases hc
    exact hin

/-- Line 0 where that is no line. -/
theorem setGpioAudio_sets (state : U8) :
    SetsCard Q (audioLineMasks state)
      fun s => { s with toGpioState := setGpioAudio state s.toGpioState } := by
  have hvpx : ∀ s : GpioState, (setGpioAudio state s).vpx = s.vpx := setGpioAudio_vpx state
  unfold audioLineMasks
  by_cases hstate : state = 0
  · rw [if_pos hstate]
    have hword : ∀ reg v : U32, reg < 0x100000#32 →
        reg ∈ [0x3000, 0x3004, 0x3040, 0x3044, 0x3048, 0x3058, 0x306c] →
        SetsRegs ([0x3000, 0x3004, 0x3040, 0x3044, 0x3048, 0x3058, 0x306c].map
          fun reg => (reg, 0xffffffff)) fun r => tl880WriteRegister r reg v :=
      fun reg v hreg hmem =>
        SetsRegs.writeRegister hreg v (List.mem_map.mpr ⟨reg, hmem, rfl⟩)
    have hregs := (((((((hword 0x3004 0 (by decide) (by decide)).comp
      (hword 0x306c 0xc30000c3 (by decide) (by decide))).comp
      (hword 0x3058 (setBits (setBits 0 3 2 1) 0x17 0x10 0xc3) (by decide) (by decide))).comp
      (hword 0x3040 0x1000 (by decide) (by decide))).comp
      (hword 0x3044 0xffc (by decide) (by decide))).comp
      (hword 0x3048 0x1020 (by decide) (by decide))).comp
      (hword 0x3000 (setBits (setBits (setBits 0 0x11 0x10 1) 0x13 0x12 1) 0x19 0x18 1)
        (by decide) (by decide))).comp
      (hword 0x3004 (setBits (setBits 0 0 0 1) 0x13 0x12 1) (by decide) (by decide))
    exact SetsRegs.lift hregs (fun s => by simp only [setGpioAudio, if_pos hstate])
      (fun s => hvpx s.toGpioState) (fun _ => rfl) fun _ => rfl
  · rw [if_neg hstate]
    have hword : SetsRegs [(0x3004, 0xc0000), (0x3058, 0xff000c), (0x306c, 0xffffffff)]
        fun r => tl880WriteRegister r 0x306c 0 := SetsRegs.writeRegister (by decide) 0 (by decide)
    have hfield : ∀ (reg : U32) (highBit lowBit : Nat) (v mask : U32), reg < 0x100000#32 →
        lowBit ≤ highBit → highBit < 32 → highBit - lowBit < 31 →
        (∀ i < 32, lowBit ≤ i → i ≤ highBit → mask.getLsbD i = true) →
        (reg, mask) ∈ [((0x3004 : U32), (0xc0000 : U32)), (0x3058, 0xff000c),
          (0x306c, 0xffffffff)] →
        SetsRegs [(0x3004, 0xc0000), (0x3058, 0xff000c), (0x306c, 0xffffffff)]
          fun r => tl880WriteRegbits r reg highBit lowBit v :=
      fun reg highBit lowBit v mask hreg hle hhigh hwidth hmask hmem =>
        SetsRegs.writeRegbits hreg hle hhigh hwidth v hmask hmem
    have hregs := ((hword.comp
      (hfield 0x3058 3 2 2 0xff000c (by decide) (by decide) (by decide) (by decide) (by decide)
        (by decide))).comp
      (hfield 0x3058 0x17 0x10 0 0xff000c (by decide) (by decide) (by decide) (by decide)
        (by decide) (by decide))).comp
      (hfield 0x3004 0x13 0x12 0 0xc0000 (by decide) (by decide) (by decide) (by decide)
        (by decide) (by decide))
    exact SetsRegs.lift hregs (fun s => by simp only [setGpioAudio, if_neg hstate])
      (fun s => hvpx s.toGpioState) (fun _ => rfl) fun _ => rfl

/-- `tl880_set_gpio` sets the same bits every time. -/
theorem gpioCall_sets (call : GpioCall) :
    SetsCard Q (gpioMasks cardType call)
      fun s => { s with toGpioState := gpioCall cardType s.toGpioState call } := by
  unfold gpioMasks linesMasks
  -- a line is in the registers or on the VPX, where line 0 is the audio output instead
  by_cases hvpx : LinesOnVpx cardType
  swap
  · rw [if_neg fun h => hvpx h.1, if_neg hvpx]
    exact (setGpioRegs_setsRegs cardType call.1.toNat call.2).lift
      (fun s => by simp only [gpioCall_regs hvpx]) (fun s => by simp only [gpioCall_regs hvpx])
      (fun _ => rfl) fun _ => rfl
  by_cases hline : call.1 = 0
  · rw [if_pos ⟨hvpx, hline⟩]
    have haudio : ∀ s, gpioCall cardType s call = setGpioAudio call.2 s :=
      gpioCall_audio hvpx (not_not.mpr hline)
    simp only [haudio]
    exact setGpioAudio_sets call.2
  · rw [if_neg fun h => hline h.2, if_pos hvpx]
    have hfile : ∀ s, gpioCall cardType s call =
        { s with vpx := (setGpioVpx call.1 call.2).onFile s.vpx } := gpioCall_vpx hvpx hline
    simp only [hfile]
    exact (setGpioVpx_setsFp call.1 call.2).lift (fun _ _ => rfl) (fun _ => rfl)
      (fun _ => rfl) fun _ => rfl

/-- Two lines, one after the other. -/
theorem gpioCalls_sets {call call' : GpioCall} (hcall : call.1 ≠ 0) (hcall' : call'.1 ≠ 0) :
    SetsCard Q (linesMasks cardType) fun s =>
      { s with toGpioState := gpioCall cardType (gpioCall cardType s.toGpioState call) call' } := by
  have hlines : ∀ c : GpioCall, c.1 ≠ 0 → gpioMasks cardType c = linesMasks cardType :=
    fun c hc => if_neg fun h => hc h.2
  have hfirst : SetsCard Q (gpioMasks cardType call) _ := gpioCall_sets call
  have hsecond : SetsCard Q (gpioMasks cardType call') _ := gpioCall_sets call'
  rw [hlines _ hcall] at hfirst
  rw [hlines _ hcall'] at hsecond
  exact hfirst.comp hsecond

/-- `tl880_set_sampling_clock` is a choice of what to write to OUTMUX, or of two lines. -/
theorem setSamplingClock_sets (rate : Int) :
    SetsCard Q (clockMasks cardType (.setSamplingClock rate)) fun s =>
      { s with toGpioState := tl880SetSamplingClock cardType rate s.toGpioState } := by
  unfold clockMasks
  dsimp only
  by_cases h100a : cardType = cardMyhdMdp100a
  · rw [if_pos h100a]
    have hwrite : ∀ data : U16, SetsCard Q ⟨[], [(vpxFpOutmux, 0xfff)], []⟩ fun s =>
        { s with toGpioState := s.toGpioState.writeOutmux data } := fun data =>
      (writeFp_setsFp vpxFpOutmux data).lift (fun _ _ => rfl) (fun _ => rfl) (fun _ => rfl)
        fun _ => rfl
    unfold tl880SetSamplingClock
    simp only [if_pos h100a]
    split_ifs
    · exact hwrite 0x302
    · exact hwrite 0x301
    · exact hwrite 0x300
    · exact Sets.skip
  · rw [if_neg h100a]
    unfold tl880SetSamplingClock
    simp only [if_neg h100a]
    -- the states of the two lines depend on the rate, which lines they are does not
    split_ifs
    · exact gpioCalls_sets (by decide) (by decide)
    · exact gpioCalls_sets (by decide) (by decide)
    · exact gpioCalls_sets (by decide) (by decide)
    · exact Sets.skip

/-- The calls on the lines and on the sample clock. -/
theorem clockCall_sets (call : ClockCall) :
    SetsCard Q (clockMasks cardType call)
      fun s => { s with toGpioState := clockCall cardType s.toGpioState call } := by
  cases call with
  | setGpio call => exact gpioCall_sets call
  | setSamplingClock rate => exact setSamplingClock_sets rate
  | setSamplerate rate =>
      simp only [clockCall, tl880SetSamplerate, clockMasks]
      cases rateStates rate with
      | none => exact Sets.skip
      | some states =>
          have h8 : (8 : U32) ≠ 0 := by decide
          have h9 : (9 : U32) ≠ 0 := by decide
          exact gpioCalls_sets h8 h9

/-- A register of the VPX that is reached without the FP interface. -/
theorem vpxWrite_sets (reg value : U8) :
    SetsCard Q ⟨[], [], [(reg, 0xff)]⟩
      fun s => { s with direct := Function.update s.direct reg value } := by
  refine ⟨fun a => match a with
    | .direct reg' i => if reg' = reg ∧ i < 8 then some (value.getLsbD i) else none
    | _ => none, fun _ hs => hs, ?_, ?_⟩
  · rintro s -
    funext a
    rcases a with ⟨reg', i⟩ | ⟨reg', i⟩ | ⟨reg', i⟩
    · rfl
    · rfl
    · by_cases hsame : reg' = reg
      · by_cases hi : i < 8
        · simp only [CardSetup.bit, apply, hsame, hi, and_self, Function.update_self, if_true,
            Option.getD_some]
        · simp only [CardSetup.bit, apply, hi, and_false, if_false, Option.getD_none]
          rw [BitVec.getLsbD_of_ge _ i (by omega), BitVec.getLsbD_of_ge _ i (by omega)]
      · simp only [CardSetup.bit, apply, hsame, false_and, if_false, Function.update_of_ne hsame,
          Option.getD_none]
  · rintro (⟨reg', i⟩ | ⟨reg', i⟩ | ⟨reg', i⟩) hout
    · rfl
    · rfl
    · apply if_neg
      rintro ⟨hsame, hi⟩
      have hones : ∀ i < 8, (0xff : U8).getLsbD i = true := by decide
      rw [hsame] at hout
      exact hout ⟨0xff, List.mem_singleton.mpr rfl, hones i hi⟩

/-- A change of a setting that has fields. -/
theorem vpxCall_sets {Q' : VpxState → Prop} {call : VpxCall} (hfield : call.HasField)
    (hvideo : ∀ v, Q v → Q' (v.after call)) :
    Sets CardSetup.bit (CardSetup.Ready Q) (CardSetup.Ready Q')
      (SetupMasks.Has ⟨[], call.masks, []⟩) fun s => setupOp cardType s (.vpx call) := by
  refine ⟨fun a => match a with
    | .fp reg i => call.patch (reg, i)
    | _ => none, fun s hs => ⟨hs.1, hvideo _ hs.2⟩, ?_, ?_⟩
  · rintro s -
    funext a
    rcases a with ⟨reg, i⟩ | ⟨reg, i⟩ | ⟨reg, i⟩
    · rfl
    · exact congrFun (vpxCall_shows (s.video, s.vpx) hfield) (reg, i)
    · rfl
  · rintro (⟨reg, i⟩ | ⟨reg, i⟩ | ⟨reg, i⟩) hout
    · rfl
    · show call.patch (reg, i) = none
      rw [VpxCall.patch, last_eq_none]
      intro p hp
      obtain ⟨write, hwrite, rfl⟩ := List.mem_map.mp hp
      -- a field write patches its own register only
      by_cases hreg : reg = write.field.reg
      · subst hreg
        apply (call.writes_known write hwrite).patch_outside
        exact fun hbit => hout ⟨write.mask, List.mem_map.mpr ⟨write, hwrite, rfl⟩, hbit⟩
      · rw [FieldWrite.patch, if_neg fun hcovers => hreg hcovers.1,
          if_neg fun hclears => hreg (congrArg Prod.fst hclears.2)]
    · rfl

/-- The mask of a field has the bits of the field. -/
theorem rangeMask_getLsbD {highBit lowBit : Nat} (hwidth : highBit - lowBit < 31) {i : Nat}
    (hi : i < 32) (hlow : lowBit ≤ i) (hle : i ≤ highBit) :
    (rangeMask highBit lowBit).getLsbD i = true := by
  have hcount : lowBit % 32 = lowBit := Nat.mod_eq_of_lt (by omega)
  have hge : ¬ i < lowBit := by omega
  have hin : i - lowBit ≤ highBit - lowBit := by omega
  rw [rangeMask, shiftLeft32, hcount, BitVec.getLsbD_shiftLeft, getLsbD_fieldMask hwidth]
  simp [hi, hge, hin]

/-- Every operation sets the same bits every time. -/
theorem setupOp_sets {op : SetupOp} (hproper : op.Proper) (hkeeps : op.KeepsStandard)
    (hstandard : op.IsSaturation → ∀ v, Q v → v.vpxVideoStandard ≠ 2) :
    SetsCard Q (op.masks cardType) fun s => setupOp cardType s op := by
  cases op with
  | writeRegister reg value =>
      exact (SetsRegs.writeRegister hproper value (List.mem_singleton.mpr rfl)).lift
        (fun _ => rfl) (fun _ => rfl) (fun _ => rfl) fun _ => rfl
  | writeRegbits reg highBit lowBit value =>
      obtain ⟨hreg, hle, hhigh, hwidth⟩ := hproper
      exact (SetsRegs.writeRegbits hreg hle hhigh hwidth value
        (fun i hi hlow hin => rangeMask_getLsbD hwidth hi hlow hin)
        (List.mem_singleton.mpr rfl)).lift (fun _ => rfl) (fun _ => rfl) (fun _ => rfl) fun _ => rfl
  | clearSdram startAddr endAddr value =>
      exact ⟨fun _ => none, fun _ hs => hs, fun _ _ => rfl, fun _ _ => rfl⟩
  | clock call => exact clockCall_sets call
  | setVip vipMode =>
      exact (tl880SetVip_setsRegs cardType vipMode).lift (fun _ => rfl) (fun _ => rfl)
        (fun _ => rfl) fun _ => rfl
  | vpxWrite reg value => exact vpxWrite_sets reg value
  | writeFp fpaddr data =>
      exact (writeFp_setsFp fpaddr data).lift (fun _ _ => rfl) (fun _ => rfl) (fun _ => rfl)
        fun _ => rfl
  | keepOutmux =>
      exact preserveOutmux_setsFp.lift (fun _ _ => rfl) (fun _ => rfl) (fun _ => rfl) fun _ => rfl
  | vpx call =>
      cases call with
      | setVideoStandard standard => exact absurd hkeeps id
      | setVideoSource lumaSource chromaSource =>
          have hfield : (VpxCall.setVideoSource lumaSource chromaSource).HasField := trivial
          exact vpxCall_sets hfield fun _ hv => hv
      | setVideoAttribute input attr value =>
          -- the saturation has no field: while the standard is not SECAM it is a whole register
          by_cases hattr : attr = 3
          · subst hattr
            have hmasks : (SetupOp.vpx (.setVideoAttribute input 3 value)).masks cardType =
                ⟨[], [(vpxFpAccSat, 0xfff)], []⟩ := rfl
            have hprogram : ∀ s : CardSetup, Q s.video →
                (setupOp cardType s (.vpx (.setVideoAttribute input 3 value))).vpx =
                  FpProgram.onFile
                    (.write vpxFpAccSat (((value.setWidth 32 : U32) <<< 4).setWidth 16) .done)
                    s.vpx := by
              intro s hs
              rw [← setSaturation_eq (hstandard rfl _ hs) (hproper rfl)]
              rfl
            rw [hmasks]
            exact (writeFp_setsFp _ _).lift hprogram (fun _ => rfl) (fun _ => rfl) fun _ => rfl
          · have hmasks : (SetupOp.vpx (.setVideoAttribute input attr value)).masks cardType =
                ⟨[], (VpxCall.setVideoAttribute input attr value).masks, []⟩ := if_neg hattr
            rw [hmasks]
            exact vpxCall_sets hattr fun _ hv => hv

/-- Every saturation comes when the standard is known not to be SECAM. -/
def saturationReady : Bool → List SetupOp → Bool
  | _, [] => true
  | _, .vpx (.setVideoStandard standard) :: ops => saturationReady (standard ≠ 2) ops
  | ready, .vpx (.setVideoAttribute _ attr _) :: ops =>
      (attr ≠ 3 || ready) && saturationReady ready ops
  | ready, _ :: ops => saturationReady ready ops

/-- What is known of the standard. -/
def NotSecam (ready : Bool) (v : VpxState) : Prop := ready = true → v.vpxVideoStandard ≠ 2

/-- A list of operations. -/
theorem setupOps_sets {ready : Bool} {ops : List SetupOp} (hproper : ∀ op ∈ ops, op.Proper)
    (hready : saturationReady ready ops = true) :
    Sets CardSetup.bit (CardSetup.Ready (NotSecam ready)) (CardSetup.Ready fun _ => True)
      (fun a => ∃ op ∈ ops, (op.masks cardType).Has a)
      fun s => ops.foldl (setupOp cardType) s := by
  induction ops generalizing ready with
  | nil => exact Sets.skip.weaken (fun _ hs => hs) fun _ hs => ⟨hs.1, trivial⟩
  | cons op ops ih =>
      have hop : op.Proper := hproper op List.mem_cons_self
      have hrest := fun op h => hproper op (List.mem_cons_of_mem _ h)
      -- one operation, which leads to states of which `next` is known
      have hstep : ∀ next, saturationReady next ops = true →
          Sets CardSetup.bit (CardSetup.Ready (NotSecam ready)) (CardSetup.Ready (NotSecam next))
            (op.masks cardType).Has (fun s => setupOp cardType s op) →
          Sets CardSetup.bit (CardSetup.Ready (NotSecam ready)) (CardSetup.Ready fun _ => True)
            (fun a => ∃ op' ∈ op :: ops, (op'.masks cardType).Has a)
            fun s => (op :: ops).foldl (setupOp cardType) s := by
        intro next hnext hfirst
        refine (hfirst.mono ?_).comp ((ih hrest hnext).mono ?_)
        · exact fun a ha => ⟨op, List.mem_cons_self, ha⟩
        · exact fun a ⟨op', hmem, ha⟩ => ⟨op', List.mem_cons_of_mem _ hmem, ha⟩
      -- what is known of the standard stays known
      have hplain : op.KeepsStandard → ¬ op.IsSaturation →
          saturationReady ready ops = true → _ :=
        fun hkeeps hnot hnext =>
          hstep ready hnext (setupOp_sets hop hkeeps fun hsat => absurd hsat hnot)
      cases op with
      | vpx call =>
          cases call with
          | setVideoStandard standard =>
              have hnote : ∀ v, NotSecam ready v →
                  NotSecam (standard ≠ 2) (v.after (.setVideoStandard standard)) :=
                fun v _ hknown => of_decide_eq_true hknown
              exact hstep (standard ≠ 2) hready (vpxCall_sets trivial hnote)
          | setVideoSource lumaSource chromaSource => exact hplain trivial id hready
          | setVideoAttribute input attr value =>
              rw [saturationReady, Bool.and_eq_true, Bool.or_eq_true] at hready
              refine hstep ready hready.2 (setupOp_sets hop trivial fun hsat v hv => hv ?_)
              exact (hready.1.imp of_decide_eq_true id).resolve_left fun hne => hne hsat
      | _ => exact hplain trivial id hready

end Operations

/-! ## The lines of bus 0 -/

/-- Both lines of bus 0 are inputs, and would be low as outputs. -/
def BusReleased (r : RegSpace) : Prop :=
  ∀ reg, reg = 0x10194 ∨ reg = 0x10198 → r.bit reg 0x1a = false ∧ r.bit reg 0x1b = false

/-- A transfer ends with the clock line released, and then the data line. -/
def stopTransfer (r : RegSpace) : RegSpace := tl880I2cSetSda 0 1 (tl880I2cSetScl 0 1 r)

/-- Writing what a bit holds. -/
theorem writeRegbits_eq_self {r : RegSpace} {reg value : U32} {line : Nat} (hline : line < 32)
    (hbit : r.bit reg line = value.getLsbD 0) : tl880WriteRegbits r reg line line value = r := by
  have hword : setBits (tl880ReadRegister r reg) line line value = tl880ReadRegister r reg := by
    apply BitVec.eq_of_getLsbD_eq
    intro i _
    rw [getLsbD_setBits (Nat.le_refl line) hline (by omega)]
    split_ifs with hin
    · have hi : i = line := by omega
      rw [hi, Nat.sub_self]
      exact hbit.symm
    · rfl
  rw [tl880WriteRegbits, hword, tl880WriteRegister]
  split_ifs with hmapped hreg
  · rfl
  · rfl
  · rw [tl880ReadRegister, if_neg hmapped, if_neg hreg, Function.update_eq_self]

/-- The end of a transfer leaves released lines. -/
theorem stopTransfer_of_released {r : RegSpace} (h : BusReleased r) : stopTransfer r = r := by
  have hlevel : (~~~lineLevel 1).getLsbD 0 = false := by decide
  obtain ⟨hclock, hdata⟩ := h 0x10194 (Or.inl rfl)
  obtain ⟨hclock', hdata'⟩ := h 0x10198 (Or.inr rfl)
  have hscl : tl880I2cSetScl 0 1 r = r := by
    have hinput : tl880WriteRegbits r 0x10198 0x1a 0x1a 0 = r :=
      writeRegbits_eq_self (by decide) hclock'
    simp only [tl880I2cSetScl, hinput]
    exact writeRegbits_eq_self (by decide) (hclock.trans hlevel.symm)
  have hsda : tl880I2cSetSda 0 1 r = r := by
    have hinput : tl880WriteRegbits r 0x10198 0x1b 0x1b 0 = r :=
      writeRegbits_eq_self (by decide) hdata'
    simp only [tl880I2cSetSda, hinput]
    exact writeRegbits_eq_self (by decide) (hdata.trans hlevel.symm)
  rw [stopTransfer, hscl, hsda]

/-- The masks have none of the bits of the lines. -/
def KeepsBus (masks : SetupMasks) : Prop :=
  ∀ m ∈ masks.regs, m.1 = 0x10194 ∨ m.1 = 0x10198 → m.2 &&& 0xc000000 = 0

instance KeepsBus.decidable (masks : SetupMasks) : Decidable (KeepsBus masks) :=
  List.decidableBAll
    (fun m : U32 × U32 => m.1 = 0x10194 ∨ m.1 = 0x10198 → m.2 &&& 0xc000000 = 0) masks.regs

section Bus

variable {cardType : U16} {s : CardSetup}

/-- What sets bits of such masks leaves the lines. -/
theorem KeepsBus.released {masks : SetupMasks} (hkeeps : KeepsBus masks) {Q : VpxState → Prop}
    {F : CardSetup → CardSetup} (hsets : SetsCard Q masks F) (hs : s.Ready Q)
    (hreleased : BusReleased s.regs) : BusReleased (F s).regs := by
  obtain ⟨p, h⟩ := hsets
  have hline : ∀ reg, reg = 0x10194 ∨ reg = 0x10198 → ∀ i, i = 0x1a ∨ i = 0x1b →
      (F s).regs.bit reg i = s.regs.bit reg i := by
    intro reg hreg i hi
    have hout : p (.reg reg i) = none := by
      apply h.outside
      rintro ⟨mask, hmem, hbit⟩
      have hzero : (mask &&& 0xc000000).getLsbD i = false := by
        rw [hkeeps _ hmem hreg]
        exact BitVec.getLsbD_zero
      rw [BitVec.getLsbD_and, hbit] at hzero
      rcases hi with rfl | rfl <;> exact absurd hzero (by decide)
    have hshows := congrFun (h.shows s hs) (.reg reg i)
    rw [apply_of_none hout] at hshows
    exact hshows
  intro reg hreg
  rw [hline reg hreg _ (Or.inl rfl), hline reg hreg _ (Or.inr rfl)]
  exact hreleased reg hreg

/-- Only calls on the VPX need to know the standard. -/
theorem SetupOp.vpx_or_sets (cardType : U16) {op : SetupOp} (hproper : op.Proper) :
    (∃ call, op = .vpx call) ∨
      SetsCard (fun _ => True) (op.masks cardType) fun s => setupOp cardType s op := by
  cases op with
  | vpx call => exact Or.inl ⟨call, rfl⟩
  | _ => exact Or.inr (setupOp_sets hproper trivial fun hsat => absurd hsat id)

/-- Operations keep the registers mapped. -/
theorem setupOp_mapped (hmapped : s.regs.mapped = true) {op : SetupOp} (hproper : op.Proper) :
    (setupOp cardType s op).regs.mapped = true := by
  obtain ⟨call, rfl⟩ | ⟨p, h⟩ := SetupOp.vpx_or_sets cardType hproper
  · exact hmapped
  · exact (h.keep s ⟨hmapped, trivial⟩).1

/-- An operation leaves the lines if its masks have none of their bits. -/
theorem setupOp_released (hmapped : s.regs.mapped = true) (hreleased : BusReleased s.regs)
    {op : SetupOp} (hproper : op.Proper) (hbus : KeepsBus (op.masks cardType)) :
    BusReleased (setupOp cardType s op).regs := by
  obtain ⟨call, rfl⟩ | hsets := SetupOp.vpx_or_sets cardType hproper
  · exact hreleased
  · have hs : s.Ready fun _ => True := ⟨hmapped, trivial⟩
    have hafter := hbus.released hsets hs hreleased
    exact hafter

/-- Operations that leave the lines, one after the other. -/
theorem setupOps_released {ops : List SetupOp}
    (hops : ∀ op ∈ ops, op.Proper ∧ KeepsBus (op.masks cardType)) (hmapped : s.regs.mapped = true)
    (hreleased : BusReleased s.regs) : BusReleased (ops.foldl (setupOp cardType) s).regs := by
  induction ops generalizing s with
  | nil => exact hreleased
  | cons op ops ih =>
      obtain ⟨hproper, hbus⟩ := hops op List.mem_cons_self
      exact ih (fun o ho => hops o (List.mem_cons_of_mem op ho)) (setupOp_mapped hmapped hproper)
        (setupOp_released hmapped hreleased hproper hbus)

theorem setupOps_mapped {ops : List SetupOp} (hops : ∀ op ∈ ops, op.Proper)
    (hmapped : s.regs.mapped = true) : (ops.foldl (setupOp cardType) s).regs.mapped = true := by
  induction ops generalizing s with
  | nil => exact hmapped
  | cons op ops ih =>
      exact ih (fun o ho => hops o (List.mem_cons_of_mem op ho))
        (setupOp_mapped hmapped (hops op List.mem_cons_self))

/-- The beginning of `tl880_init_myhd` releases the lines. -/
theorem initLines_released (hproper : ∀ op ∈ initLines cardType, op.Proper)
    (hmapped : s.regs.mapped = true) :
    BusReleased ((initLines cardType).foldl (setupOp cardType) s).regs := by
  obtain ⟨front, hfront⟩ : ∃ front, initLines cardType = front ++
      [.writeRegbits 0x10194 0x1b 0x1a 0, .writeRegbits 0x10198 0x1b 0x1a 0] := by
    simp only [initLines, List.flatten_cons, List.flatten_nil, List.append_nil]
    exact ⟨_, (List.append_assoc _ _ _).symm⟩
  rw [hfront] at hproper ⊢
  have hfirst : (front.foldl (setupOp cardType) s).regs.mapped = true :=
    setupOps_mapped (fun op hop => hproper op (List.mem_append_left _ hop)) hmapped
  rw [List.foldl_append]
  generalize front.foldl (setupOp cardType) s = t at hfirst
  have hfield : ∀ (r : RegSpace) (reg : U32), r.mapped = true → reg < 0x100000#32 → ∀ i,
      0x1a ≤ i → i ≤ 0x1b → (tl880WriteRegbits r reg 0x1b 0x1a 0).bit reg i = false := by
    intro r reg hmapped hreg i hlow hhigh
    rw [RegSpace.bit, tl880WriteRegbits, tl880ReadRegister_write_self hmapped hreg,
      getLsbD_setBits (by decide) (by decide) (by decide), if_pos ⟨hlow, hhigh⟩]
    exact BitVec.getLsbD_zero
  intro reg hreg
  simp only [List.foldl_cons, List.foldl_nil, setupOp]
  rcases hreg with rfl | rfl
  · have hne : (0x10194 : U32) ≠ 0x10198 := by decide
    simp only [RegSpace.bit, tl880ReadRegister_writeRegbits_ne _ hne]
    exact ⟨hfield t.regs 0x10194 hfirst (by decide) 0x1a (by decide) (by decide),
      hfield t.regs 0x10194 hfirst (by decide) 0x1b (by decide) (by decide)⟩
  · have hmapped' : (tl880WriteRegbits t.regs 0x10194 0x1b 0x1a 0).mapped = true := by
      simp [hfirst]
    exact ⟨hfield _ 0x10198 hmapped' (by decide) 0x1a (by decide) (by decide),
      hfield _ 0x10198 hmapped' (by decide) 0x1b (by decide) (by decide)⟩

end Bus

end Tl880
