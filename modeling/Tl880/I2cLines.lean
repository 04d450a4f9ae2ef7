import Tl880.Registers

/-!
# The lines of the I2C buses

The model of `tl880_i2c_set_scl`, `tl880_i2c_set_sda`, `tl880_i2c_get_scl` and
`tl880_i2c_get_sda` of `driver/tl880i2c.c`, for a bus that is not NULL.

A GPIO line is one bit of three registers: 0x10194 makes it an output, 0x10198 is
the level an output has, and 0x1019c is the level on the pin.  Which lines a bus has
is the table of `doc/i2c.txt`; how its clock and its data line are driven differs
from bus to bus.  The delays are left out.
-/

namespace Tl880

/-! ## Bits of registers -/

/-- Bit `i` of a register. -/
def RegSpace.bit (r : RegSpace) (reg : U32) (i : Nat) : Bool :=
  (tl880ReadRegister r reg).getLsbD i

/-- Writing one bit changes no other bit of the register space. -/
theorem RegSpace.bit_writeRegbits_ne (r : RegSpace) {reg reg' : U32} {line i : Nat}
    (hline : line < 32) (hne : reg' = reg → i ≠ line) (value : U32) :
    (tl880WriteRegbits r reg line line value).bit reg' i = r.bit reg' i := by
  unfold RegSpace.bit
  by_cases hsame : reg' = reg
  swap
  · rw [tl880ReadRegister_writeRegbits_ne r hsame]
  rw [hsame]
  cases hmapped : r.mapped with
  | false => rw [tl880WriteRegbits, tl880WriteRegister, if_pos hmapped]
  | true =>
      by_cases hreg : reg < 0x100000#32
      · rw [tl880WriteRegbits, tl880ReadRegister_write_self hmapped hreg,
          getLsbD_setBits (Nat.le_refl line) hline (by omega)]
        have hout : ¬ (line ≤ i ∧ i ≤ line) := by
          have hi := hne hsame
          omega
        rw [if_neg hout]
      · have hpast : 0x100000#32 ≤ reg := BitVec.not_lt.mp hreg
        have hnull : ¬ r.mapped = false := by simp [hmapped]
        rw [tl880WriteRegbits, tl880WriteRegister, if_neg hnull, if_pos hpast]

/-- The bit that is written gets the lowest bit of the value. -/
theorem RegSpace.bit_writeRegbits_self {r : RegSpace} (hmapped : r.mapped = true) {reg : U32}
    (hreg : reg < 0x100000#32) {line : Nat} (hline : line < 32) (value : U32) :
    (tl880WriteRegbits r reg line line value).bit reg line = value.getLsbD 0 := by
  unfold RegSpace.bit
  rw [tl880WriteRegbits, tl880ReadRegister_write_self hmapped hreg,
    getLsbD_setBits (Nat.le_refl line) hline (by omega), if_pos ⟨Nat.le_refl _, Nat.le_refl _⟩,
    Nat.sub_self]

/-! ## The driver -/

/-- `state = state ? 1 : 0` -/
def lineLevel (state : U32) : U32 := if state = 0 then 0 else 1

/-- `tl880_i2c_set_scl` on the bus with id `busid` -/
def tl880I2cSetScl (busid : Nat) (state : U32) (r : RegSpace) : RegSpace :=
  let state := lineLevel state
  match busid with
  | 1 =>
      let r := tl880WriteRegbits r 0x10194 0x12 0x12 1
      tl880WriteRegbits r 0x10198 0x12 0x12 state
  | 2 =>
      let r := tl880WriteRegbits r 0x10198 0x17 0x17 0
      tl880WriteRegbits r 0x10194 0x17 0x17 (~~~state)
  | 3 =>
      let r := tl880WriteRegbits r 0x10194 3 3 1
      tl880WriteRegbits r 0x10198 3 3 state
  | 4 =>
      let r := tl880WriteRegbits r 0x10194 0x1b 0x1b 1
      tl880WriteRegbits r 0x10198 0x1b 0x1b state
  | 5 =>
      let r := tl880WriteRegbits r 0x10194 0x1a 0x1a 1
      tl880WriteRegbits r 0x10198 0x1a 0x1a state
  | _ =>
      let r := tl880WriteRegbits r 0x10198 0x1a 0x1a 0
      tl880WriteRegbits r 0x10194 0x1a 0x1a (~~~state)

/-- `tl880_i2c_set_sda` on the bus with id `busid` -/
def tl880I2cSetSda (busid : Nat) (state : U32) (r : RegSpace) : RegSpace :=
  let state := lineLevel state
  match busid with
  | 1 =>
      -- unlike the clock's, this line's direction is not set
      tl880WriteRegbits r 0x10198 0x11 0x11 state
  | 2 =>
      let r := tl880WriteRegbits r 0x10198 0x16 0x16 0
      tl880WriteRegbits r 0x10194 0x16 0x16 (~~~state)
  | 3 =>
      let r := tl880WriteRegbits r 0x10194 1 1 1
      tl880WriteRegbits r 0x10198 1 1 state
  | 4 =>
      let r := tl880WriteRegbits r 0x10194 0x1a 0x1a 1
      tl880WriteRegbits r 0x10198 0x1a 0x1a state
  | 5 =>
      let r := tl880WriteRegbits r 0x10194 0x1b 0x1b 1
      tl880WriteRegbits r 0x10198 0x1b 0x1b state
  | _ =>
      let r := tl880WriteRegbits r 0x10198 0x1b 0x1b 0
      tl880WriteRegbits r 0x10194 0x1b 0x1b (~~~state)

/-- `value ? 1 : 0` -/
def lineValue (value : U32) : Int := if value = 0 then 0 else 1

/-- `tl880_i2c_get_scl` on the bus with id `busid` -/
def tl880I2cGetScl (busid : Nat) (r : RegSpace) : RegSpace × Int :=
  match busid with
  | 1 => (r, lineValue (tl880ReadRegbits r 0x1019c 0x12 0x12))
  | 2 =>
      let r := tl880WriteRegbits r 0x10194 0x17 0x17 0
      (r, lineValue (tl880ReadRegbits r 0x1019c 0x17 0x17))
  | 3 =>
      let r := tl880WriteRegbits r 0x10194 3 3 0
      (r, lineValue (tl880ReadRegbits r 0x1019c 3 3))
  | 4 =>
      let r := tl880WriteRegbits r 0x10194 0x1b 0x1b 0
      (r, lineValue (tl880ReadRegbits r 0x1019c 0x1b 0x1b))
  | 5 =>
      let r := tl880WriteRegbits r 0x10194 0x1a 0x1a 0
      (r, lineValue (tl880ReadRegbits r 0x1019c 0x1a 0x1a))
  | _ =>
      let r := tl880WriteRegbits r 0x10194 0x1a 0x1a 0
      (r, lineValue (tl880ReadRegbits r 0x1019c 0x1a 0x1a))

/-- `tl880_i2c_get_sda` on the bus with id `busid` -/
def tl880I2cGetSda (busid : Nat) (r : RegSpace) : RegSpace × Int :=
  match busid with
  | 1 => (r, lineValue (tl880ReadRegbits r 0x1019c 0x10 0x10))
  | 2 =>
      let r := tl880WriteRegbits r 0x10194 0x16 0x16 0
      (r, lineValue (tl880ReadRegbits r 0x1019c 0x16 0x16))
  | 3 => (r, lineValue (tl880ReadRegbits r 0x1019c 0 0))
  | 4 =>
      let r := tl880WriteRegbits r 0x10194 0x1a 0x1a 0
      (r, lineValue (tl880ReadRegbits r 0x1019c 0x1a 0x1a))
  | 5 =>
      let r := tl880WriteRegbits r 0x10194 0x1b 0x1b 0
      (r, lineValue (tl880ReadRegbits r 0x1019c 0x1b 0x1b))
  | _ =>
      let r := tl880WriteRegbits r 0x10194 0x1b 0x1b 0
      (r, lineValue (tl880ReadRegbits r 0x1019c 0x1b 0x1b))

/-- The calls the I2C core makes on a bus. -/
inductive LineCall
  | setScl (state : U32)
  | setSda (state : U32)
  | getScl
  | getSda

/-- A call, and what it returns if it returns a value. -/
def lineCall (busid : Nat) (r : RegSpace) : LineCall → RegSpace × Option Int
  | .setScl state => (tl880I2cSetScl busid state r, none)
  | .setSda state => (tl880I2cSetSda busid state r, none)
  | .getScl =>
      let (r, value) := tl880I2cGetScl busid r
      (r, some value)
  | .getSda =>
      let (r, value) := tl880I2cGetSda busid r
      (r, some value)

/-! ## The documented lines -/

/-- A row of the tables of `doc/i2c.txt`. -/
structure I2cBusLines where
  sclWrite : Nat
  sdaWrite : Nat
  sclRead : Nat
  sdaRead : Nat

/-- The lines of a bus, for the buses that are documented. -/
def i2cBusLines : Nat → Option I2cBusLines
  | 0 => some ⟨0x1a, 0x1b, 0x1a, 0x1b⟩
  | 1 => some ⟨0x12, 0x11, 0x12, 0x10⟩
  | 2 => some ⟨0x17, 0x16, 0x17, 0x16⟩
  | 3 => some ⟨3, 1, 3, 0⟩
  | 4 => some ⟨0x1b, 0x1a, 0x1b, 0x1a⟩
  | 5 => some ⟨0x1a, 0x1b, 0x1a, 0x1b⟩
  | _ => none

/-! ## What a call does to its line -/

/-- The line is an output and its level is low. -/
def DrivenLow (r : RegSpace) (line : Nat) : Prop :=
  r.bit 0x10194 line = true ∧ r.bit 0x10198 line = false

instance (r : RegSpace) (line : Nat) : Decidable (DrivenLow r line) :=
  inferInstanceAs (Decidable (_ ∧ _))

@[simp] theorem lineLevel_getElem (state : U32) :
    (lineLevel state)[0] = !decide (state = 0) := by
  unfold lineLevel
  by_cases hzero : state = 0
  · rw [if_pos hzero, decide_eq_true hzero]
    rfl
  · rw [if_neg hzero, decide_eq_false hzero]
    rfl

section Styles

variable {r : RegSpace} (hmapped : r.mapped = true) {line : Nat} (hline : line < 32)
include hmapped hline

/-- An open drain line has a low level and is an output when it is to be low. -/
theorem drivenLow_openDrain (state : U32) :
    DrivenLow (tl880WriteRegbits (tl880WriteRegbits r 0x10198 line line 0) 0x10194 line line
      (~~~(lineLevel state))) line ↔ state = 0 := by
  have houtput : (tl880WriteRegbits (tl880WriteRegbits r 0x10198 line line 0) 0x10194 line line
      (~~~(lineLevel state))).bit 0x10198 line = false := by
    rw [RegSpace.bit_writeRegbits_ne _ hline (fun heq => absurd heq (by decide)),
      RegSpace.bit_writeRegbits_self hmapped (by decide) hline]
    rfl
  unfold DrivenLow
  rw [houtput, RegSpace.bit_writeRegbits_self (by simpa using hmapped) (by decide) hline]
  simp

/-- A push-pull line is made an output and gets the level. -/
theorem drivenLow_pushPull (state : U32) :
    DrivenLow (tl880WriteRegbits (tl880WriteRegbits r 0x10194 line line 1) 0x10198 line line
      (lineLevel state)) line ↔ state = 0 := by
  have hdirection : (tl880WriteRegbits (tl880WriteRegbits r 0x10194 line line 1) 0x10198 line
      line (lineLevel state)).bit 0x10194 line = true := by
    rw [RegSpace.bit_writeRegbits_ne _ hline (fun heq => absurd heq (by decide)),
      RegSpace.bit_writeRegbits_self hmapped (by decide) hline]
    rfl
  unfold DrivenLow
  rw [hdirection, RegSpace.bit_writeRegbits_self (by simpa using hmapped) (by decide) hline]
  simp

/-- A line that only gets the level is driven low if it was an output before. -/
theorem drivenLow_levelOnly (state : U32) :
    DrivenLow (tl880WriteRegbits r 0x10198 line line (lineLevel state)) line ↔
      state = 0 ∧ r.bit 0x10194 line = true := by
  unfold DrivenLow
  rw [RegSpace.bit_writeRegbits_ne _ hline (fun heq => absurd heq (by decide)),
    RegSpace.bit_writeRegbits_self hmapped (by decide) hline]
  simp [and_comm]

end Styles

section Lines

variable {busid : Nat} {lines : I2cBusLines} (hlines : i2cBusLines busid = some lines)
  {r : RegSpace} (hmapped : r.mapped = true)
include hlines hmapped

/-- The clock line is driven low exactly when it is to be low. -/
theorem drivenLow_setScl (state : U32) :
    DrivenLow (tl880I2cSetScl busid state r) lines.sclWrite ↔ state = 0 := by
  unfold i2cBusLines at hlines
  split at hlines <;> cases hlines
  · exact drivenLow_openDrain hmapped (by decide) state
  · exact drivenLow_pushPull hmapped (by decide) state
  · exact drivenLow_openDrain hmapped (by decide) state
  · exact drivenLow_pushPull hmapped (by decide) state
  · exact drivenLow_pushPull hmapped (by decide) state
  · exact drivenLow_pushPull hmapped (by decide) state

/-- So is the data line, except that bus 1 relies on the direction it finds. -/
theorem drivenLow_setSda (state : U32) :
    DrivenLow (tl880I2cSetSda busid state r) lines.sdaWrite ↔
      state = 0 ∧ (busid = 1 → r.bit 0x10194 0x11 = true) := by
  unfold i2cBusLines at hlines
  split at hlines <;> cases hlines
  · exact (drivenLow_openDrain hmapped (by decide) state).trans (by simp)
  · exact (drivenLow_levelOnly hmapped (by decide) state).trans (by simp)
  · exact (drivenLow_openDrain hmapped (by decide) state).trans (by simp)
  · exact (drivenLow_pushPull hmapped (by decide) state).trans (by simp)
  · exact (drivenLow_pushPull hmapped (by decide) state).trans (by simp)
  · exact (drivenLow_pushPull hmapped (by decide) state).trans (by simp)

end Lines

end Tl880
