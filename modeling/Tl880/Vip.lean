import Tl880.Lib.LabelledRun
import Tl880.I2cClients
import Tl880.I2cLines

/-!
# The VIP port and the I2C lines

The model of `tl880_set_vip` of `driver/tl880vip.c`, and of `tl880_set_gpio` of
`driver/tl880gpio.c` for the cards whose GPIO lines are register bits.  An MDP-120
or MDP-130 has its lines on the VPX: `tl880_set_vip` makes `tl880_set_gpio` read
them and change none, and the calls on the lines of bus 0 with which that read is
done stand in a run as calls of their own, before the registers are written in mode
2 and after it in the other modes.

A run takes line calls on any bus and `tl880_set_vip` calls in any order.
-/

namespace Tl880

open LabelledRun

/-! ## `tl880_set_gpio` -/

/-- `TL880_CARD_JANUS` -/
def cardJanus : U16 := 1

/-- Write output bits one after the other. -/
def writeOutputs (r : RegSpace) (outputs : List (Nat × U32)) : RegSpace :=
  outputs.foldl (fun r output => tl880WriteRegbits r 0x10198 output.1 output.1 output.2) r

/-- The switch on the state of a line that can be left undriven. -/
def setThreeState (line : Nat) (state : U8) (r : RegSpace) : RegSpace :=
  if state = 0 then
    tl880WriteRegbits (tl880WriteRegbits r 0x10194 line line 1) 0x10198 line line 0
  else if state = 1 then
    tl880WriteRegbits (tl880WriteRegbits r 0x10194 line line 1) 0x10198 line line 1
  else tl880WriteRegbits r 0x10194 line line 0

/-- `tl880_set_gpio` on a Janus. -/
def setGpioJanus (gpioLine : Nat) (state : U8) (r : RegSpace) : RegSpace :=
  let value : U32 := state.setWidth 32
  match gpioLine with
  | 0 => writeOutputs r [(8, value)]
  | 1 =>
      if state = 1 then writeOutputs r [(0xa, ~~~value), (9, value)]
      else writeOutputs r [(9, value), (0xa, ~~~value)]
  | 2 =>
      if state = 1 then writeOutputs r [(9, ~~~value), (0xa, value)]
      else writeOutputs r [(0xa, value), (9, ~~~value)]
  | 3 =>
      if state = 1 then writeOutputs r [(0xb, value), (0xe, ~~~value)]
      else writeOutputs r [(0xe, ~~~value), (0xb, value)]
  | 4 =>
      if state = 1 then writeOutputs r [(0xe, value), (0xb, ~~~value)]
      else writeOutputs r [(0xb, ~~~value), (0xe, value)]
  | 8 => setThreeState 0xc state r
  | 9 => setThreeState 0xd state r
  | _ => r

/-- `tl880_set_gpio` on an MDP-100A. -/
def setGpioMdp100a (gpioLine : Nat) (state : U8) (r : RegSpace) : RegSpace :=
  let value : U32 := state.setWidth 32
  match gpioLine with
  | 0 => writeOutputs r [(8, value)]
  | 1 =>
      if state = 1 then writeOutputs r [(0xa, ~~~value), (9, value)]
      else writeOutputs r [(9, value), (0xa, ~~~value)]
  | 2 =>
      if state = 1 then writeOutputs r [(9, ~~~value), (0xa, value)]
      else writeOutputs r [(0xa, value), (9, ~~~value)]
  | 3 =>
      if state ≠ 1 then writeOutputs r [(0xc, ~~~value), (0xb, value)]
      else writeOutputs r [(0xb, value)]
  | 4 =>
      if state = 1 then writeOutputs r [(0xc, value), (0xd, value)]
      else writeOutputs r [(0xb, ~~~value), (0xc, value), (0xd, value)]
  | 5 => writeOutputs r [(0xd, value)]
  | 6 => writeOutputs r [(0xe, value)]
  | _ => r

/-- `tl880_set_gpio` on an MDP-100 or MDP-110. -/
def setGpioMdp100 (gpioLine : Nat) (state : U8) (r : RegSpace) : RegSpace :=
  let value : U32 := state.setWidth 32
  match gpioLine with
  | 0 => writeOutputs r [(8, value)]
  | 2 => writeOutputs r [(0xa, value)]
  | 3 =>
      if state = 0 then writeOutputs r [(0xc, ~~~value), (0xb, value)]
      else writeOutputs r [(0xb, value)]
  | 4 =>
      if state = 1 then writeOutputs r [(0xc, value), (0xd, value)]
      else writeOutputs r [(0xb, ~~~value), (0xc, value), (0xd, value)]
  | 5 => writeOutputs r [(0xd, value)]
  | 6 => writeOutputs (tl880WriteRegbits r 0x10194 0xe 0xe 1) [(0xe, value)]
  | 8 => setThreeState 9 state r
  | 9 => setThreeState 0xf state r
  | _ => r

/-- `tl880_set_gpio` where the lines are register bits.  It returns 1 there. -/
def setGpioRegs (cardType : U16) (gpioLine : Nat) (state : U8) (r : RegSpace) : RegSpace :=
  if cardType = cardJanus then setGpioJanus gpioLine state r
  else if cardType = cardMyhdMdp100a then setGpioMdp100a gpioLine state r
  else if cardMyhdMdp100 ≤ cardType ∧ cardType < cardMyhdMdp120 then
    setGpioMdp100 gpioLine state r
  else r

@[simp] theorem writeOutputs_mapped (r : RegSpace) (outputs : List (Nat × U32)) :
    (writeOutputs r outputs).mapped = r.mapped := by
  unfold writeOutputs
  induction outputs generalizing r with
  | nil => rfl
  | cons output outputs ih =>
      rw [List.foldl_cons, ih]
      exact tl880WriteRegbits_mapped r _ _ _ _

@[simp] theorem setThreeState_mapped (line : Nat) (state : U8) (r : RegSpace) :
    (setThreeState line state r).mapped = r.mapped := by
  unfold setThreeState
  split_ifs <;> simp

@[simp] theorem setGpioJanus_mapped (gpioLine : Nat) (state : U8) (r : RegSpace) :
    (setGpioJanus gpioLine state r).mapped = r.mapped := by
  unfold setGpioJanus
  split <;> simp [apply_ite RegSpace.mapped]

@[simp] theorem setGpioMdp100a_mapped (gpioLine : Nat) (state : U8) (r : RegSpace) :
    (setGpioMdp100a gpioLine state r).mapped = r.mapped := by
  unfold setGpioMdp100a
  split <;> simp [apply_ite RegSpace.mapped]

@[simp] theorem setGpioMdp100_mapped (gpioLine : Nat) (state : U8) (r : RegSpace) :
    (setGpioMdp100 gpioLine state r).mapped = r.mapped := by
  unfold setGpioMdp100
  split <;> simp [apply_ite RegSpace.mapped]

@[simp] theorem setGpioRegs_mapped (cardType : U16) (gpioLine : Nat) (state : U8)
    (r : RegSpace) : (setGpioRegs cardType gpioLine state r).mapped = r.mapped := by
  unfold setGpioRegs
  split_ifs <;> simp

/-! ## `tl880_set_vip` -/

/-- The two fields of the VIP port in a register. -/
def setVipPins (value pins : U32) : U32 :=
  setBits (setBits value 7 0 pins) 0x17 0x10 pins

/-- What modes 0 and 1 write before they set GPIO lines. -/
def vipPort (cardType : U16) (r : RegSpace) : RegSpace :=
  let r := tl880WriteRegister r 0x10190 (setVipPins (tl880ReadRegister r 0x10190) 0xff)
  let value := setVipPins (tl880ReadRegister r 0x10194) 0
  let value := if cardType = cardMyhdMdp110 then setBits value 0x13 0x11 7 else value
  tl880WriteRegister r 0x10194 value

/-- `tl880_set_vip` -/
def tl880SetVip (cardType : U16) (vipMode : U64) (r : RegSpace) : RegSpace :=
  if vipMode = 0 then
    let r := vipPort cardType r
    let r := setGpioRegs cardType 3 1 r
    setGpioRegs cardType 4 1 r
  else if vipMode = 1 then
    let r := vipPort cardType r
    setGpioRegs cardType 3 0 r
  else if vipMode = 2 then
    if cardType ≠ cardMyhdMdp110 then
      let r := setGpioRegs cardType 4 0 r
      let r := tl880WriteRegister r 0x10190 (setVipPins (tl880ReadRegister r 0x10190) 0)
      tl880WriteRegister r 0x10194 (setVipPins (tl880ReadRegister r 0x10194) 0xff)
    else r
  else r

@[simp] theorem vipPort_mapped (cardType : U16) (r : RegSpace) :
    (vipPort cardType r).mapped = r.mapped := by
  unfold vipPort
  simp

@[simp] theorem tl880SetVip_mapped (cardType : U16) (vipMode : U64) (r : RegSpace) :
    (tl880SetVip cardType vipMode r).mapped = r.mapped := by
  unfold tl880SetVip
  split_ifs <;> simp

@[simp] theorem lineCall_mapped (busid : Nat) (r : RegSpace) (c : LineCall) :
    (lineCall busid r c).1.mapped = r.mapped := by
  cases c with
  | setScl state =>
      simp only [lineCall, tl880I2cSetScl]
      split <;> simp
  | setSda state =>
      simp only [lineCall, tl880I2cSetSda]
      split <;> simp
  | getScl =>
      simp only [lineCall, tl880I2cGetScl]
      split <;> simp
  | getSda =>
      simp only [lineCall, tl880I2cGetSda]
      split <;> simp

/-! ## Runs -/

/-- A call on the lines of a bus, or a change of the VIP port of a card. -/
inductive GpioEvent
  | line (busid : Nat) (c : LineCall)
  | setVip (cardType : U16) (vipMode : U64)

def gpioStep (r : RegSpace) : GpioEvent → Option RegSpace
  | .line busid c => some (lineCall busid r c).1
  | .setVip cardType vipMode => some (tl880SetVip cardType vipMode r)

/-- After a set call the documented line is driven low if that was asked for, and is
not driven low otherwise. -/
def DrivenAsAsked (r : RegSpace) : GpioEvent → Prop
  | .line busid (.setScl state) =>
      ∀ lines, i2cBusLines busid = some lines →
        (DrivenLow (lineCall busid r (.setScl state)).1 lines.sclWrite ↔ state = 0)
  | .line busid (.setSda state) =>
      ∀ lines, i2cBusLines busid = some lines →
        (DrivenLow (lineCall busid r (.setSda state)).1 lines.sdaWrite ↔ state = 0)
  | _ => True

/-- The data line of bus 1 is an output when it is to be low. -/
def FindsDirection (r : RegSpace) : GpioEvent → Prop
  | .line busid (.setSda state) => busid = 1 → state = 0 → r.bit 0x10194 0x11 = true
  | _ => True

theorem gpioStep_mapped {r r' : RegSpace} {e : GpioEvent} (hmapped : r.mapped = true)
    (hstep : gpioStep r e = some r') : r'.mapped = true := by
  cases e with
  | line busid c =>
      cases hstep
      simpa using hmapped
  | setVip cardType vipMode =>
      cases hstep
      simpa using hmapped

/-- One event drives its line as asked exactly when it finds the direction it needs. -/
theorem drivenAsAsked_iff {r : RegSpace} (hmapped : r.mapped = true) (e : GpioEvent) :
    DrivenAsAsked r e ↔ FindsDirection r e := by
  cases e with
  | setVip cardType vipMode => exact Iff.rfl
  | line busid c =>
      cases c with
      | getScl => exact Iff.rfl
      | getSda => exact Iff.rfl
      | setScl state =>
          apply iff_of_true
          · intro lines hlines
            exact drivenLow_setScl hlines hmapped state
          · trivial
      | setSda state =>
          constructor
          · intro hdriven hbus hzero
            have hlow := (hdriven ⟨0x12, 0x11, 0x12, 0x10⟩ (by rw [hbus]; rfl)).mpr hzero
            have hlines : i2cBusLines busid = some ⟨0x12, 0x11, 0x12, 0x10⟩ := by
              rw [hbus]
              rfl
            exact ((drivenLow_setSda hlines hmapped state).mp hlow).2 hbus
          · intro hfinds lines hlines
            change DrivenLow (tl880I2cSetSda busid state r) lines.sdaWrite ↔ state = 0
            rw [drivenLow_setSda hlines hmapped]
            constructor
            · exact And.left
            · intro hzero
              exact ⟨hzero, fun hbus => hfinds hbus hzero⟩

/-- In a run of line calls and VIP changes the lines are driven as asked exactly when
no data call of bus 1 is to pull down a line that is not an output. -/
theorem i2cLines_drivenAsAsked_iff (r : RegSpace) (hmapped : r.mapped = true)
    (events : List GpioEvent) :
    AllSteps gpioStep DrivenAsAsked r events ↔ AllSteps gpioStep FindsDirection r events := by
  have hpres : ∀ (r : RegSpace) (e : GpioEvent) (r' : RegSpace), r.mapped = true →
      gpioStep r e = some r' → r'.mapped = true :=
    fun _ _ _ hinv hstep => gpioStep_mapped hinv hstep
  exact allSteps_congr (fun r e r' hinv _ hstep => hpres r e r' hinv hstep)
    (fun _ e hinv => drivenAsAsked_iff hinv e) hmapped events

/-- On an MDP-110 the VIP port makes the line an output. -/
theorem i2cLines_drivenAsAsked_mdp110 :
    AllSteps gpioStep DrivenAsAsked ⟨true, fun _ => 0⟩
      [.setVip cardMyhdMdp110 1, .line 1 (.setSda 0), .line 1 (.setScl 0),
        .line 1 (.setSda 1)] := by
  apply (i2cLines_drivenAsAsked_iff ⟨true, fun _ => 0⟩ rfl _).mpr
  intro _ hvip
  cases hvip
  refine ⟨trivial, ?_⟩
  intro _ hlow
  cases hlow
  refine ⟨fun _ _ => by decide, ?_⟩
  intro _ hscl
  cases hscl
  refine ⟨trivial, ?_⟩
  intro _ hhigh
  cases hhigh
  exact ⟨fun _ hzero => absurd hzero (by decide), trivial⟩

/-- On an MDP-100 it does not, and the data line of bus 1 is not pulled down. -/
theorem i2cLines_sda_undriven :
    ¬ AllSteps gpioStep DrivenAsAsked ⟨true, fun _ => 0⟩
      [.setVip cardMyhdMdp100 1, .line 1 (.setSda 0)] := by
  intro hdriven
  have hsda := ((hdriven _ rfl).2 _ rfl).1 ⟨0x12, 0x11, 0x12, 0x10⟩ rfl
  have hlow := hsda.mpr rfl
  revert hlow
  decide

end Tl880
