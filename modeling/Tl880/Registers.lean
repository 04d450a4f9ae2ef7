import Mathlib.Algebra.Group.Nat.Defs
import Mathlib.Logic.Function.Basic
import Mathlib.Tactic.Common

/-!
# Register access

The model of `driver/tl880reg.c` and of `set_bits` in `driver/tl880util.c`.
A card's register space is a table of 32-bit cells behind the pointer
`regspace`; `mapped = false` is the null pointer.  Registers are plain storage:
what the hardware does to a cell between two accesses is a separate event of
the systems built on top of this module.
-/

namespace Tl880

/-- The kernel's `u8`, `u16`, `u32` and (on a 64-bit CPU) `unsigned long`. -/
abbrev U8 := BitVec 8
abbrev U16 := BitVec 16
abbrev U32 := BitVec 32
abbrev U64 := BitVec 64

/-- The next dword, while the counter does not wrap. -/
theorem nextDword_toNat {i : U32} (hi : i.toNat + 4 < 2 ^ 32) : (i + 4).toNat = i.toNat + 4 := by
  have hfour : (4 : U32).toNat = 4 := rfl
  rw [BitVec.toNat_add, hfour]
  exact Nat.mod_eq_of_lt hi

/-- A 32-bit left shift as the x86 executes it: the count is taken modulo 32. -/
def shiftLeft32 (x : U32) (count : Nat) : U32 := x <<< (count % 32)

/-- The mask `~(0xFFFFFFFF << (high_bit - low_bit + 1))` of a field's width. -/
def fieldMask (highBit lowBit : Nat) : U32 :=
  ~~~(shiftLeft32 0xFFFFFFFF (highBit - lowBit + 1))

/-- `set_bits`: replace the field from `highBit` to `lowBit` of `value`. -/
def setBits (value : U32) (highBit lowBit : Nat) (setvalue : U32) : U32 :=
  let mask := shiftLeft32 (fieldMask highBit lowBit) lowBit
  (shiftLeft32 setvalue lowBit &&& mask) ||| (~~~mask &&& value)

/-- The register space of one card. -/
structure RegSpace where
  /-- `regspace` is not NULL -/
  mapped : Bool
  cell : U32 → U32

/-- `tl880_write_register` -/
def tl880WriteRegister (r : RegSpace) (reg value : U32) : RegSpace :=
  if r.mapped = false then r
  else if 0x100000#32 ≤ reg then r
  else { r with cell := Function.update r.cell reg value }

/-- `tl880_read_register` -/
def tl880ReadRegister (r : RegSpace) (reg : U32) : U32 :=
  if r.mapped = false then 0
  else if 0x100000#32 ≤ reg then 0xFFFFFFFF
  else r.cell reg

/-- `tl880_read_regbits` -/
def tl880ReadRegbits (r : RegSpace) (reg : U32) (highBit lowBit : Nat) : U32 :=
  (tl880ReadRegister r reg >>> lowBit) &&& fieldMask highBit lowBit

/-- `tl880_write_regbits` -/
def tl880WriteRegbits (r : RegSpace) (reg : U32) (highBit lowBit : Nat)
    (value : U32) : RegSpace :=
  tl880WriteRegister r reg (setBits (tl880ReadRegister r reg) highBit lowBit value)

/-- The bits of a field's mask, for a field that is not the whole register. -/
theorem getLsbD_fieldMask {highBit lowBit : Nat} (hwidth : highBit - lowBit < 31) (i : Nat) :
    (fieldMask highBit lowBit).getLsbD i = decide (i ≤ highBit - lowBit) := by
  have hones : (0xFFFFFFFF : U32) = BitVec.allOnes 32 := rfl
  have hcount : (highBit - lowBit + 1) % 32 = highBit - lowBit + 1 := Nat.mod_eq_of_lt (by omega)
  rw [fieldMask, shiftLeft32, hcount, hones]
  simp only [BitVec.getLsbD_not, BitVec.getLsbD_shiftLeft, BitVec.getLsbD_allOnes]
  by_cases hi : i ≤ highBit - lowBit
  · have hlt : i < highBit - lowBit + 1 := by omega
    have h32 : i < 32 := by omega
    simp [hi, hlt, h32]
  · have hlt : ¬ i < highBit - lowBit + 1 := by omega
    by_cases h32 : i < 32
    · have hrest : i - (highBit - lowBit + 1) < 32 := by omega
      simp [hi, hlt, h32, hrest]
    · simp [hi, h32]

/-- What `set_bits` does to each bit: the field gets the value, and the rest of the
register stays. -/
theorem getLsbD_setBits {highBit lowBit : Nat} (hle : lowBit ≤ highBit) (hhigh : highBit < 32)
    (hwidth : highBit - lowBit < 31) (value setvalue : U32) (i : Nat) :
    (setBits value highBit lowBit setvalue).getLsbD i =
      if lowBit ≤ i ∧ i ≤ highBit then setvalue.getLsbD (i - lowBit) else value.getLsbD i := by
  have hcount : lowBit % 32 = lowBit := Nat.mod_eq_of_lt (by omega)
  simp only [setBits, shiftLeft32, hcount, BitVec.getLsbD_or, BitVec.getLsbD_and,
    BitVec.getLsbD_not, BitVec.getLsbD_shiftLeft, getLsbD_fieldMask hwidth]
  by_cases hin : lowBit ≤ i ∧ i ≤ highBit
  · have h32 : i < 32 := by omega
    have hge : ¬ i < lowBit := by omega
    have hrest : i - lowBit ≤ highBit - lowBit := by omega
    simp [hin, h32, hge, hrest]
  · rw [if_neg hin]
    by_cases h32 : i < 32
    · by_cases hlow : i < lowBit
      · simp [h32, hlow]
      · have hrest : ¬ i - lowBit ≤ highBit - lowBit := by omega
        simp [h32, hlow, hrest]
    · have hout : value.getLsbD i = false := BitVec.getLsbD_of_ge value i (by omega)
      simp [h32, hout]

@[simp] theorem tl880WriteRegister_mapped (r : RegSpace) (reg value : U32) :
    (tl880WriteRegister r reg value).mapped = r.mapped := by
  unfold tl880WriteRegister
  split_ifs <;> rfl

@[simp] theorem tl880WriteRegbits_mapped (r : RegSpace) (reg : U32)
    (highBit lowBit : Nat) (value : U32) :
    (tl880WriteRegbits r reg highBit lowBit value).mapped = r.mapped :=
  tl880WriteRegister_mapped r reg _

/-- A register that is written reads back what was written. -/
theorem tl880ReadRegister_write_self {r : RegSpace} (hmapped : r.mapped = true)
    {reg : U32} (hreg : reg < 0x100000#32) (value : U32) :
    tl880ReadRegister (tl880WriteRegister r reg value) reg = value := by
  have hnot : ¬ (0x100000#32 ≤ reg) := BitVec.not_le.mpr hreg
  simp [tl880ReadRegister, tl880WriteRegister, hmapped, hnot]

/-- A write leaves every other register alone. -/
theorem tl880ReadRegister_write_ne (r : RegSpace) {reg other : U32}
    (hne : other ≠ reg) (value : U32) :
    tl880ReadRegister (tl880WriteRegister r reg value) other =
      tl880ReadRegister r other := by
  unfold tl880WriteRegister
  split_ifs
  · rfl
  · rfl
  · simp [tl880ReadRegister, Function.update_of_ne hne]

/-- A field write leaves every other register alone. -/
theorem tl880ReadRegister_writeRegbits_ne (r : RegSpace) {reg other : U32}
    (hne : other ≠ reg) (highBit lowBit : Nat) (value : U32) :
    tl880ReadRegister (tl880WriteRegbits r reg highBit lowBit value) other =
      tl880ReadRegister r other :=
  tl880ReadRegister_write_ne r hne _

/-- What the hardware can do to the register space on its own: every cell but
the one at `kept` takes any value. -/
def RegSpace.hardware (r : RegSpace) (kept : U32) (cell : U32 → U32) : RegSpace :=
  { r with cell := Function.update cell kept (r.cell kept) }

/-- The kept register reads as before. -/
@[simp] theorem RegSpace.read_hardware_kept (r : RegSpace) (kept : U32)
    (cell : U32 → U32) :
    tl880ReadRegister (r.hardware kept cell) kept = tl880ReadRegister r kept := by
  simp [tl880ReadRegister, RegSpace.hardware]

end Tl880
