import Tl880.Registers

/-!
# The interrupt handlers

The model of `tl880_irq`, `tl880_bh` and the chip-part handlers of
`driver/tl880int.c`, with the parts of `tl880dpc.c` and `tl880audio.c` they
call.  `tl880_irq` runs with its interrupt line masked, so it is one function
on the state of the card.  `tl880_bh` is a tasklet and can be interrupted
between any two of its accesses, so it is given as a program counter and a
one-access step, `bhStep`.

`printk` is not modelled.  `bhStep` begins behind the lookup of the card by its number
at the head of `tl880_bh`; the lookup, with the early return when it fails, is in
`Tl880.InterruptLookup`.
-/

namespace Tl880

/-! ## Callback lists -/

/-- `tl880_run_callbacks`: every entry is called with its own data, in order. -/
def tl880RunCallbacks {F D S : Type*} (call : F → D → S → S) :
    List (F × D) → S → S
  | [], s => s
  | (func, privateData) :: rest, s =>
      tl880RunCallbacks call rest (call func privateData s)

/-- The functions the sources register as interrupt callbacks. -/
inductive IntFunc
  /-- `test_int` of the ALSA driver, which only logs -/
  | testInt
  deriving DecidableEq

/-- The interrupt counters of `struct tl880_dev`. -/
structure IntCounts where
  int : U32
  vsc : U32
  apu : U32
  blt : U32
  mce : U32
  mcu : U32
  vpip : U32
  hpip : U32
  dpc : U32
  tsd : U32

/-- The type fields of the chip parts. -/
structure PartTypes where
  vpip : U32
  dpc : U32
  tsd : U32

/-- The part of `struct tl880_dev` the handlers work on. -/
structure IntDev where
  regs : RegSpace
  /-- the tasklet is scheduled and has not started -/
  tasklet : Bool
  elseint : Bool
  oldMask : U32
  intMask : U32
  intType : U32
  counts : IntCounts
  types : PartTypes
  apuThFuncs : List (IntFunc × Nat)
  /-- the static counters of `tl880_vpip_handler` -/
  rowCnt : U32
  fieldCnt : U32

/-- What calling a registered function does to the card. -/
def IntFunc.call : IntFunc → Nat → IntDev → IntDev
  | .testInt, _, d => d

namespace IntDev

/-- `tl880_read_register` on the card's register space. -/
def read (d : IntDev) (reg : U32) : U32 := tl880ReadRegister d.regs reg

/-- `tl880_write_register` on the card's register space. -/
def write (d : IntDev) (reg value : U32) : IntDev :=
  { d with regs := tl880WriteRegister d.regs reg value }

/-- `tl880_write_regbits` on the card's register space. -/
def writeRegbits (d : IntDev) (reg : U32) (highBit lowBit : Nat) (value : U32) :
    IntDev :=
  { d with regs := tl880WriteRegbits d.regs reg highBit lowBit value }

end IntDev

/-! ## The handlers of the chip parts

Each returns whether the part needs the bottom half. -/

/-- `tl880_vpip_handler` -/
def tl880VpipHandler (d : IntDev) : IntDev :=
  if d.rowCnt < 0x10 then
    let d := d.writeRegbits 0x7000 0x15 0x10 0x3d
    let d := d.write 0x701c 0x92
    { d with rowCnt := d.rowCnt + 1 }
  else if d.fieldCnt < 1 then
    let d := { d with rowCnt := 1 }
    let bitsval := setBits 0 0x16 0xc 0
    -- The two branches of the source write the opposite of the bit just read.
    let toggled := if tl880ReadRegbits d.regs 0x7000 0x16 0x16 ≠ 0 then 0 else 1
    let d := d.writeRegbits 0x7000 0x16 0x16 toggled
    let d := d.write 0x702c (bitsval ||| 0x80000000)
    let d := d.write 0x702c bitsval
    let d := d.writeRegbits 0x7000 0x15 0x10 0x3d
    let d := d.write 0x701c 0x92
    { d with fieldCnt := d.fieldCnt + 1 }
  else
    { d with rowCnt := 1, fieldCnt := 1 }

/-- `tl880_vpip_int` -/
def tl880VpipInt (d : IntDev) : IntDev × Bool :=
  let vpipType := d.read 0x7008 &&& d.read 0x7004
  let d := { d with types := { d.types with vpip := vpipType } }
  let d := if vpipType &&& 1 ≠ 0 then tl880VpipHandler d else d
  ({ d with types := { d.types with vpip := 0 } }, false)

/-- `tl880_dpc_int`.  The sync and field handlers it calls only log: the video
sync handler because `playing_dvd` is 0, the field handlers because what they
would do is not implemented. -/
def tl880DpcInt (d : IntDev) : IntDev × Bool :=
  let dpcType := d.read 0x1000c &&& d.read 0x10008
  let d := { d with types := { d.types with dpc := dpcType } }
  ({ d with types := { d.types with dpc := 0 } }, false)

/-- `tl880_apu_int` -/
def tl880ApuInt (d : IntDev) : IntDev × Bool :=
  let d := tl880RunCallbacks IntFunc.call d.apuThFuncs d
  (d, d.read 0x3018 &&& d.read 0x3014 &&& 1 ≠ 0)

/-- `tl880_blt_int` -/
def tl880BltInt (d : IntDev) : IntDev × Bool :=
  (d, d.read 0x4014 &&& d.read 0x4010 &&& 0x10 ≠ 0)

/-! ## `tl880_irq` -/

/-- One part of the dispatch: when its type bit is set the part is handled, and
the bit is cleared again unless the part needs the bottom half. -/
def irqPart (bit : U32) (handler : IntDev → IntDev × Bool) (d : IntDev) : IntDev :=
  if d.intType &&& bit = 0 then d
  else if (handler d).2 then (handler d).1
  else { (handler d).1 with intType := (handler d).1.intType &&& ~~~bit }

/-- Count an interrupt. -/
def IntDev.count (d : IntDev) (update : IntCounts → IntCounts) : IntDev :=
  { d with counts := update d.counts }

def irqVpip : IntDev → IntDev :=
  irqPart 0x80 fun d => tl880VpipInt (d.count fun c => { c with vpip := c.vpip + 1 })

def irqTsd (debug : Int) : IntDev → IntDev :=
  irqPart 0x400 fun d =>
    let d := d.count fun c => { c with tsd := c.tsd + 1 }
    -- The status read stands inside the arguments of a conditional `printk`.
    (if debug > 0 ∨ d.counts.tsd = 1 then
        { d with types := { d.types with tsd := d.read 0x27814 } }
      else d, true)

def irqMce : IntDev → IntDev :=
  irqPart 0x40 fun d => (d.count fun c => { c with mce := c.mce + 1 }, true)

def irqDpc : IntDev → IntDev :=
  irqPart 0x8 fun d => tl880DpcInt (d.count fun c => { c with dpc := c.dpc + 1 })

def irqVsc : IntDev → IntDev :=
  irqPart 0x10 fun d => (d.count fun c => { c with vsc := c.vsc + 1 }, true)

def irqApu : IntDev → IntDev :=
  irqPart 0x1 fun d => tl880ApuInt (d.count fun c => { c with apu := c.apu + 1 })

def irqBlt : IntDev → IntDev :=
  irqPart 0x2 fun d => tl880BltInt (d.count fun c => { c with blt := c.blt + 1 })

def irqHpip : IntDev → IntDev :=
  irqPart 0x100 fun d => (d.count fun c => { c with hpip := c.hpip + 1 }, true)

def irqMcu : IntDev → IntDev :=
  irqPart 0x200 fun d => (d.count fun c => { c with mcu := c.mcu + 1 }, true)

/-- The type bits no handler exists for. -/
def unknownTypes : U32 := 0x824

/-- Unknown interrupts are taken out of the saved mask. -/
def irqUnknown (d : IntDev) : IntDev :=
  if d.intType &&& unknownTypes = 0 then d
  else { d with intMask := d.intMask &&& ~~~unknownTypes }

/-- The chip parts in the order `tl880_irq` tests them. -/
def irqParts (debug : Int) (d : IntDev) : IntDev :=
  irqMcu (irqHpip (irqBlt (irqApu (irqVsc (irqDpc (irqMce (irqTsd debug (irqVpip d))))))))

/-- `tl880_disable_interrupts` -/
def tl880DisableInterrupts (d : IntDev) : IntDev :=
  let d := { d with oldMask := d.read 4, intMask := 0 }
  let d := d.write 0x4 0
  let d := d.write 0xc 0
  let d := d.write 0x6008 0
  let d := d.write 0x10008 0
  let d := d.write 0x4010 0
  let d := d.write 0x1008 0
  d.write 0x3014 0

/-- `irqreturn_t` -/
inductive IrqReturn
  | none
  | handled
  deriving DecidableEq

/-- The head of `tl880_irq`: the mask is saved and interrupts are disabled. -/
def irqEnter (d : IntDev) : IntDev :=
  ({ d with intMask := d.read 4 } : IntDev).write 4 0

/-- The middle of `tl880_irq`: the parts of the enabled types are handled. -/
def irqDispatch (debug : Int) (intType intMask : U32) (d : IntDev) : IntDev :=
  let d := { d with intMask := intMask, intType := intType &&& intMask }
  irqUnknown (irqParts debug (d.count fun c => { c with int := c.int + 1 }))

/-- The end of `tl880_irq`: what is left goes to the bottom half; when nothing
is left, interrupts are enabled again. -/
def irqFinish (d : IntDev) : IntDev :=
  if d.intType ≠ 0 then { d with tasklet := true } else d.write 4 d.intMask

/-- `tl880_irq` -/
def tl880Irq (debug : Int) (d : IntDev) : IntDev × IrqReturn :=
  let intType := d.read 0
  let intMask := d.read 4
  let entered := irqEnter d
  if intType &&& intMask = 0 then
    -- Another device's interrupt.  The write that would restore register 4 is
    -- commented out in the source.
    ({ entered with elseint := true }, .none)
  else if entered.intType ≠ 0 then
    -- The card is already processing an interrupt.
    (tl880DisableInterrupts entered, .handled)
  else
    (irqFinish (irqDispatch debug intType intMask entered), .handled)

/-! ## `tl880_bh` -/

/-- `tl880_ntsc_audio_dpc` -/
def tl880NtscAudioDpc (d : IntDev) : IntDev :=
  let trigger := d.read 0x3030
  let bufStart := d.read 0x3020
  let bufEnd := d.read 0x3024
  if trigger = bufStart then d.write 0x3030 ((bufStart + bufEnd) / 2)
  else d.write 0x3030 bufStart

/-- The type bits in the order `tl880_bh` tests them. -/
def bhParts : List U32 := [0x80, 0x400, 0x40, 0x8, 0x10, 0x1, 0x2, 0x100, 0x200]

/-- What `tl880_bh` does for a part before it clears the part's type bit. -/
def bhBody (part : U32) (d : IntDev) : IntDev :=
  if part = 0x400 then { d with types := { d.types with tsd := 0 } }
  else if part = 0x1 then tl880NtscAudioDpc d
  else d

/-- Where the bottom half stands. -/
inductive BhPc
  /-- it is not running -/
  | idle
  /-- before the test of the first of these parts, or before `int_type = 0` -/
  | test (parts : List U32)
  /-- in the branch of `part` -/
  | body (part : U32) (rest : List U32)
  /-- before the load of `int_type &= ~part` -/
  | load (part : U32) (rest : List U32)
  /-- before its store -/
  | store (value : U32) (rest : List U32)
  /-- before `if(!int_type) goto done` -/
  | check (rest : List U32)
  /-- at the label `done`, before `int_mask` is loaded -/
  | done
  /-- before the write of the loaded mask to register 4 -/
  | write (mask : U32)
  /-- before the return -/
  | leave
  deriving DecidableEq

/-- The next access of the bottom half. -/
def bhStep : BhPc → IntDev → BhPc × IntDev
  | .idle, d => (.idle, d)
  | .test [], d => (.done, { d with intType := 0 })
  | .test (part :: rest), d =>
      if d.intType &&& part = 0 then (.test rest, d) else (.body part rest, d)
  | .body part rest, d => (.load part rest, bhBody part d)
  | .load part rest, d => (.store (d.intType &&& ~~~part) rest, d)
  | .store value rest, d => (.check rest, { d with intType := value })
  | .check rest, d => if d.intType = 0 then (.done, d) else (.test rest, d)
  | .done, d => (.write d.intMask, d)
  | .write mask, d => (.leave, d.write 4 mask)
  | .leave, d => (.idle, d)

end Tl880
