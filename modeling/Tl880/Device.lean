import Tl880.Registers

/-!
# The device structure

The model of `struct tl880_dev` and of `tl880_create_dev` of `driver/tl880kern.c`.  The
memory of the structure comes from `kmalloc`, so its previous contents are a structure
like any other, and a field that `tl880_create_dev` does not assign keeps what was there.
Pointers are numbers, and NULL is 0.  The card's name, which is only printed, and the
tasklet are left out.

`DevRegs` is a device with its registers, and remembers what was written to them.
-/

namespace Tl880

/-! ## The structure -/

/-- The interrupt mask, type and count of a part of the chip. -/
structure PartInts where
  mask : U32
  type : U32
  count : U32
deriving DecidableEq, Inhabited

/-- `enum audio_mode_e` -/
inductive AudioMode
  | zero
  | one
  | two
deriving DecidableEq, Inhabited

/-- `struct tl880_dev` -/
structure Tl880Dev where
  next : U64
  pcidev : U64
  id : U32
  subsysVendorId : U16
  subsysDeviceId : U16
  cardType : U16
  sem : U64
  charDevice : U64
  major : U32
  minor : U32
  memspace : U64
  memphys : U64
  memlen : U64
  regspace : U64
  regphys : U64
  reglen : U64
  unkspace : U64
  unkphys : U64
  unklen : U64
  pool : U64
  dmavirt : U64
  dmaphys : U64
  minbus : Int
  maxbus : Int
  i2cbuses : U64
  irq : U32
  elseint : Int
  oldMask : U32
  int : PartInts
  vsc : PartInts
  apu : PartInts
  apuThFuncs : U64
  apuBhFuncs : U64
  blt : PartInts
  mce : PartInts
  mcu : PartInts
  vpip : PartInts
  hpip : PartInts
  dpc : PartInts
  tsd : PartInts
  audioMode : AudioMode
  iecBuf : U64
  iauBase : U32
  iauIbaReg : U32
  iauIeaReg : U32
  iauIraReg : U32
  mspAddr : Int
  mspI2cbus : Int
  mspI2cclient : Int
  vpxAddr : Int
  vpxI2cbus : Int
  vpxI2cclient : Int
  vpxVideoStandard : Int
deriving Inhabited

/-- `tl880_create_dev`, in memory with the given contents.  `card_type`, `sem` and
`old_mask` are not assigned. -/
def tl880CreateDev (tlMajor : U32) (memory : Tl880Dev) : Tl880Dev :=
  { memory with
    next := 0
    pcidev := 0
    id := 0
    subsysVendorId := 0
    subsysDeviceId := 0
    memspace := 0
    memphys := 0
    memlen := 0
    regspace := 0
    regphys := 0
    reglen := 0
    unkspace := 0
    unkphys := 0
    unklen := 0
    pool := 0
    dmavirt := 0
    dmaphys := 0
    minbus := 0
    maxbus := 0
    i2cbuses := 0
    irq := 0
    elseint := 0
    int := ⟨0, 0, 0⟩
    vsc := ⟨0, 0, 0⟩
    apu := ⟨0, 0, 0⟩
    apuThFuncs := 0
    apuBhFuncs := 0
    blt := ⟨0, 0, 0⟩
    mce := ⟨0, 0, 0⟩
    mcu := ⟨0, 0, 0⟩
    vpip := ⟨0, 0, 0⟩
    hpip := ⟨0, 0, 0⟩
    dpc := ⟨0, 0, 0⟩
    tsd := ⟨0, 0, 0⟩
    charDevice := 0
    major := tlMajor
    minor := 0
    audioMode := .zero
    iecBuf := 0
    iauBase := 0
    iauIbaReg := 0
    iauIeaReg := 0
    iauIraReg := 0
    mspAddr := 0
    mspI2cbus := 0
    mspI2cclient := -1
    vpxAddr := 0
    vpxI2cbus := 0
    vpxI2cclient := -1
    vpxVideoStandard := 0 }

/-! ## Register writes -/

/-- A device, its registers and the writes they were asked for, the oldest first. -/
structure DevRegs where
  dev : Tl880Dev
  regs : RegSpace
  writes : List (U32 × U32)

namespace DevRegs

/-- `tl880_write_register` -/
def write (d : DevRegs) (reg value : U32) : DevRegs :=
  { d with regs := tl880WriteRegister d.regs reg value, writes := d.writes ++ [(reg, value)] }

/-- `tl880_write_regbits` -/
def writeRegbits (d : DevRegs) (reg : U32) (highBit lowBit : Nat) (value : U32) : DevRegs :=
  d.write reg (setBits (tl880ReadRegister d.regs reg) highBit lowBit value)

/-- Writes one after the other. -/
def writeAll (d : DevRegs) (ws : List (U32 × U32)) : DevRegs :=
  ws.foldl (fun d w => d.write w.1 w.2) d

/-- Assignments to fields of the device. -/
def setDev (d : DevRegs) (f : Tl880Dev → Tl880Dev) : DevRegs := { d with dev := f d.dev }

@[simp] theorem write_dev (d : DevRegs) (reg value : U32) : (d.write reg value).dev = d.dev := rfl

@[simp] theorem writeAll_dev (d : DevRegs) (ws : List (U32 × U32)) :
    (d.writeAll ws).dev = d.dev := by
  induction ws generalizing d with
  | nil => rfl
  | cons w ws ih => exact ih (d.write w.1 w.2)

theorem write_writes (d : DevRegs) (reg value : U32) :
    (d.write reg value).writes = d.writes ++ [(reg, value)] := rfl

theorem writeAll_writes (d : DevRegs) (ws : List (U32 × U32)) :
    (d.writeAll ws).writes = d.writes ++ ws := by
  induction ws generalizing d with
  | nil => exact (List.append_nil _).symm
  | cons w ws ih =>
      show ((d.write w.1 w.2).writeAll ws).writes = _
      rw [ih, write_writes, List.append_assoc]
      rfl

end DevRegs

end Tl880
