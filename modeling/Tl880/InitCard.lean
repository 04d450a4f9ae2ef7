import Tl880.Device
import Tl880.Gpio
import Tl880.Interrupt

/-!
# Configuring a card

The model of the path of `tl880_configure` through `tl880_create_dev`,
`tl880_detect_card`, `tl880_init_chip`, the choice of the buses in `tl880_init_i2c` and
the choice of the card in `tl880_init_dev`.  What the PCI device and the kernel provide is
a `ConfigureEnv`, in which nothing fails that ends the path early.

`tl880_detect_card` assigns no card type if it does not know the vendor.  The card type is
then what was in the memory of the structure, and all that follows looks at it.
-/

namespace Tl880

/-- `TL880_CARD_ZERO` -/
def cardZero : U16 := 0

/-- `PCI_SUBSYSTEM_VENDOR_ID_MIT` and so on -/
def vendorMit : U16 := 0x17a1
def vendorHauppauge : U16 := 0x70
def vendorTelemann : U16 := 0x1378
def vendorZero : U16 := 0

/-- `PCI_SUBSYSTEM_DEVICE_ID_MYHD` and so on -/
def deviceMyhd : U16 := 1
def deviceMyhdMdp120 : U16 := 0x120
def deviceMyhdMdp130 : U16 := 0x130

/-! ## `tl880_detect_card` -/

namespace DevRegs

def setCardType (d : DevRegs) (cardType : U16) : DevRegs :=
  d.setDev fun dev => { dev with cardType := cardType }

/-- The GPIO registers of a card that is not looked at further. -/
def writeGpio (d : DevRegs) : DevRegs :=
  d.writeAll [(0x10190, 0x0cfffbff), (0x10194, 0xefb00), (0x10198, 0xe5900)]

/-- The cards with `PCI_SUBSYSTEM_DEVICE_ID_MYHD`: lines that are tied tell them apart. -/
def detectMyhd (d : DevRegs) : DevRegs :=
  let d := d.writeRegbits 0x10198 0xf 8 0x10
  let d := d.writeRegbits 0x10190 0x17 8 0xffff
  let d := d.writeRegbits 0x10194 0x17 8 0
  let value := tl880ReadRegbits d.regs 0x1019c 0x17 8
  if value &&& 0xc982 = 0xc182 then d.setCardType cardMyhdMdp110
  else if value &&& 0x82 = 0x82 then d.setCardType cardMyhdMdp100
  else d.setCardType cardZero

/-- `tl880_detect_card` -/
def tl880DetectCard (d : DevRegs) : DevRegs :=
  if d.dev.subsysVendorId = vendorMit then
    if d.dev.subsysDeviceId = deviceMyhdMdp130 then d.setCardType cardMyhdMdp130
    else if d.dev.subsysDeviceId = deviceMyhdMdp120 then d.setCardType cardMyhdMdp120
    else if d.dev.subsysDeviceId = deviceMyhd then d.detectMyhd
    else d.writeGpio.setCardType cardMyhdMdp120
  else if d.dev.subsysVendorId = vendorHauppauge then
    (d.setCardType cardWintvHd).writeGpio
  else if d.dev.subsysVendorId = vendorTelemann ∨ d.dev.subsysVendorId = vendorZero then
    (d.setCardType cardHipix).writeGpio
  else d.writeGpio

/-! ## `tl880_init_chip` -/

/-- `tl880_init_sdram` -/
def tl880InitSdram (d : DevRegs) : DevRegs :=
  if d.dev.cardType = cardHipix then d.write 0x28000 0x34303140
  else if d.dev.cardType = cardWintvHd then d.write 0x28000 0x34302130
  else if d.dev.cardType = cardJanus then d.write 0x28000 0x34302024
  else if d.dev.cardType = cardZero then d.write 0x28000 0x34303140
  else d.write 0x28000 0x34302130

end DevRegs

/-- `((reference & 0x3ff) << 0x11) - 0x1e6e0` -/
def pllEq (reference : U16) : U32 := ((reference &&& 0x3ff).setWidth 32 <<< 0x11) - 0x1e6e0

/-- The writes of `tl880_init_dll`. -/
def dllWrites : List (U32 × U32) :=
  [(0x5d10, 0x0), (0x5d14, 0xc), (0x5d0c, 0xe), (0x5d18, 0x14), (0x5c00, 0x3), (0x5c04, 0x303),
    (0x5c08, 0x2c), (0x5c0c, 0x303), (0x5c10, 0x90), (0x5c14, 0x306), (0x5c18, 0x10f),
    (0x5c1c, 0x20d), (0x5c20, 0x301), (0x5c24, 0x284), (0x5c28, 0x301), (0x5c2c, 0x2c),
    (0x5c30, 0x303), (0x5c34, 0x81), (0x5c38, 0x306), (0x5c3c, 0x18c), (0x5c40, 0x214),
    (0x5c44, 0x301), (0x5c48, 0x28d), (0x5c4c, 0x301), (0x5c50, 0x100), (0x5c54, 0x21e),
    (0x5c58, 0x301), (0x5c5c, 0x10f), (0x5c60, 0x20b), (0x5c64, 0x301), (0x5c68, 0x294),
    (0x5c6c, 0x301), (0x5c70, 0x10), (0x5c74, 0x303), (0x5c78, 0xff), (0x5c7c, 0x306),
    (0x5c80, 0x294), (0x5c84, 0x301), (0x5d10, 0x1)]

/-- The writes of `tl880_default_dpc_reg`. -/
def defaultDpcWrites : List (U32 × U32) :=
  [(0x10000, 0x80), (0x10008, 0), (0x10010, 0), (0x10014, 0), (0x10018, 0), (0x1001c, 0),
    (0x10020, 0), (0x10024, 0), (0x10028, 0), (0x10034, 0x184014), (0x10040, 0x1200),
    (0x10044, 0x108080), (0x10048, 0), (0x1004c, 0), (0x10050, 0), (0x10054, 0), (0x10058, 0),
    (0x1005c, 0), (0x10060, 0x80), (0x10064, 0x80), (0x10068, 0x80), (0x1006c, 0x80),
    (0x10070, 0), (0x10034, 0x184014), (0x10080, 0), (0x10084, 0), (0x10088, 0), (0x1008c, 0),
    (0x10090, 0), (0x10094, 0), (0x10098, 0), (0x1009c, 0), (0x100a0, 0), (0x100a4, 0),
    (0x100a8, 0), (0x100c0, 0), (0x100c4, 0), (0x100c8, 0), (0x100cc, 0), (0x100d0, 0),
    (0x100d4, 0), (0x100d8, 0), (0x10100, 0), (0x10104, 0), (0x10108, 0), (0x10140, 0),
    (0x10144, 0), (0x10148, 0), (0x1014c, 0), (0x10150, 0), (0x10154, 0), (0x10158, 0),
    (0x1015c, 0), (0x10160, 0)]

namespace DevRegs

/-- `tl880_init_sys_pll_eq` -/
def tl880InitSysPllEq (d : DevRegs) (reference : U16) : DevRegs :=
  d.write 0x5000 (pllEq reference)

/-- `tl880_init_mif_pll_eq` -/
def tl880InitMifPllEq (d : DevRegs) (reference : U16) : DevRegs :=
  d.write 0x5400 (pllEq reference)

/-- `tl880_disable_interrupts` -/
def disableInterrupts (d : DevRegs) : DevRegs :=
  let d := d.setDev fun dev =>
    { dev with oldMask := tl880ReadRegister d.regs 4, int := { dev.int with mask := 0 } }
  d.writeAll [(0x4, 0), (0xc, 0), (0x6008, 0), (0x10008, 0), (0x4010, 0), (0x1008, 0),
    (0x3014, 0)]

/-- `tl880_set_gpio` on line 6.  An MDP-120 or MDP-130 has the line on the VPX; there are
no I2C buses yet, and the transfers end before they come to a register. -/
def setGpioLine6 (d : DevRegs) (state : U8) : DevRegs :=
  let value : U32 := state.setWidth 32
  if d.dev.cardType = cardMyhdMdp100a then d.writeRegbits 0x10198 0xe 0xe value
  else if cardMyhdMdp100 ≤ d.dev.cardType ∧ d.dev.cardType < cardMyhdMdp120 then
    (d.writeRegbits 0x10194 0xe 0xe 1).writeRegbits 0x10198 0xe 0xe value
  else d

/-- `tl880_set_dpc_clock` -/
def tl880SetDpcClock (d : DevRegs) (xres : U64) (interlace : Int) : DevRegs :=
  let (val, gpioVal) : U32 × U8 :=
    if xres = 1024 then (0x01151bb0, 1)
    else if xres = 1440 then (0x00e619b0, 1)
    else if xres = 1280 ∨ xres = 1920 then (0x98280, 0)
    else if interlace ≠ 0 then (0x60070, 1)
    else (0x60050, 1)
  (d.writeAll [(0x5800, val), (0x5d14, 0)]).setGpioLine6 gpioVal

/-- `tl880_init_dpc_pll` -/
def tl880InitDpcPll (d : DevRegs) : DevRegs :=
  ((d.write 0x10014 0x80000000).tl880SetDpcClock 1024 0).write 0x10014 0

/-- `tl880_init_chip` -/
def tl880InitChip (d : DevRegs) : DevRegs :=
  let d := (d.write 4 0).tl880InitSdram
  let d := (d.tl880InitSysPllEq 0x64).tl880InitMifPllEq 0x64
  let d := (d.writeAll dllWrites).disableInterrupts
  (d.writeAll defaultDpcWrites).tl880InitDpcPll

/-! ## Buses and cards -/

/-- The choice of the buses in `tl880_init_i2c`. -/
def selectBuses (d : DevRegs) : DevRegs :=
  let (minbus, maxbus) := busRange d.dev.cardType
  d.setDev fun dev => { dev with minbus := minbus, maxbus := maxbus }

end DevRegs

/-- The branches of `tl880_init_dev`. -/
inductive CardInit
  | myhd
  | wintvHd
  | hipix
  | unsupported

/-- The choice of the card in `tl880_init_dev`. -/
def cardInit (cardType : U16) : CardInit :=
  if IsMyhd cardType then .myhd
  else if cardType = cardWintvHd then .wintvHd
  else if cardType = cardHipix then .hipix
  else .unsupported

/-! ## `tl880_configure` -/

/-- What the PCI device and the kernel provide, and what the registers contain. -/
structure ConfigureEnv where
  tlMajor : U32
  nTl880s : U32
  pcidev : U64
  subsystemVendor : U16
  subsystemDevice : U16
  irq : U32
  memspace : U64
  memphys : U64
  memlen : U64
  regspace : U64
  regphys : U64
  reglen : U64
  unkspace : U64
  unkphys : U64
  unklen : U64
  dmavirt : U64
  dmaphys : U64
  charDevice : U64
  pool : U64
  cell : U32 → U32
deriving Inhabited

/-- The structure before the card is detected. -/
def configureDev (env : ConfigureEnv) (memory : Tl880Dev) : Tl880Dev :=
  { tl880CreateDev env.tlMajor memory with
    pcidev := env.pcidev
    id := env.nTl880s
    subsysVendorId := env.subsystemVendor
    subsysDeviceId := env.subsystemDevice
    memspace := env.memspace
    memphys := env.memphys
    memlen := env.memlen
    regspace := env.regspace
    regphys := env.regphys
    reglen := env.reglen
    unkspace := env.unkspace
    unkphys := env.unkphys
    unklen := env.unklen
    dmavirt := env.dmavirt
    dmaphys := env.dmaphys
    minor := env.nTl880s * 4
    charDevice := env.charDevice }

/-- `tl880_configure` until it detects the card. -/
def undetectedCard (env : ConfigureEnv) (memory : Tl880Dev) : DevRegs :=
  let d : DevRegs := ⟨configureDev env memory, ⟨decide (env.regspace ≠ 0), env.cell⟩, []⟩
  let d := d.writeAll [(0x25718, (env.dmaphys >>> 16).setWidth 32),
    (0x2571c, (env.dmaphys &&& 0xffff).setWidth 32)]
  d.disableInterrupts

/-- `tl880_configure` until `tl880_init_dev` chooses the card. -/
def configureCard (env : ConfigureEnv) (memory : Tl880Dev) : DevRegs :=
  let d := (undetectedCard env memory).tl880DetectCard
  let d := d.setDev fun dev => { dev with irq := env.irq, pool := env.pool }
  d.tl880InitChip.selectBuses

/-- What there is to see of a card's initialisation. -/
structure InitOutcome where
  cardType : U16
  writes : List (U32 × U32)
  minbus : Int
  maxbus : Int
  init : CardInit

/-- What there is to see when `tl880_init_dev` chooses the card. -/
def DevRegs.outcome (d : DevRegs) : InitOutcome where
  cardType := d.dev.cardType
  writes := d.writes
  minbus := d.dev.minbus
  maxbus := d.dev.maxbus
  init := cardInit d.dev.cardType

def initOutcome (env : ConfigureEnv) (memory : Tl880Dev) : InitOutcome :=
  (configureCard env memory).outcome

/-- A vendor that `tl880_detect_card` knows. -/
def KnownVendor (vendor : U16) : Prop :=
  vendor = vendorMit ∨ vendor = vendorHauppauge ∨ vendor = vendorTelemann ∨
    vendor = vendorZero

/-! ## The functions by themselves -/

/-- `disableInterrupts` is `tl880DisableInterrupts`. -/
theorem DevRegs.disableInterrupts_eq (d : DevRegs) {i : IntDev} (hregs : i.regs = d.regs) :
    (tl880DisableInterrupts i).regs = d.disableInterrupts.regs ∧
      (tl880DisableInterrupts i).oldMask = d.disableInterrupts.dev.oldMask ∧
      (tl880DisableInterrupts i).intMask = d.disableInterrupts.dev.int.mask := by
  obtain ⟨regs⟩ := i
  cases hregs
  exact ⟨rfl, rfl, rfl⟩

/-- Where the lines are in registers `setGpioLine6` is `tl880_set_gpio`. -/
theorem DevRegs.setGpioLine6_regs (d : DevRegs) (state : U8) :
    (d.setGpioLine6 state).regs = setGpioRegs d.dev.cardType 6 state d.regs := by
  unfold DevRegs.setGpioLine6 setGpioRegs
  by_cases hjanus : d.dev.cardType = cardJanus
  · rw [if_pos hjanus, hjanus]
    rfl
  rw [if_neg hjanus]
  split_ifs <;> rfl

/-! ## The card type -/

namespace DevRegs

variable (d : DevRegs)

@[simp] theorem disableInterrupts_cardType : d.disableInterrupts.dev.cardType = d.dev.cardType := by
  unfold disableInterrupts
  rw [writeAll_dev]
  rfl

@[simp] theorem tl880InitSdram_dev : d.tl880InitSdram.dev = d.dev := by
  unfold tl880InitSdram
  split_ifs <;> rfl

@[simp] theorem setGpioLine6_dev (state : U8) : (d.setGpioLine6 state).dev = d.dev := by
  unfold setGpioLine6
  split_ifs <;> rfl

theorem tl880InitDpcPll_dev : d.tl880InitDpcPll.dev = d.dev := by
  unfold tl880InitDpcPll tl880SetDpcClock
  dsimp only
  rw [write_dev, setGpioLine6_dev, writeAll_dev, write_dev]

/-- `tl880_init_chip` leaves the card type. -/
theorem tl880InitChip_cardType : d.tl880InitChip.dev.cardType = d.dev.cardType := by
  unfold tl880InitChip tl880InitSysPllEq tl880InitMifPllEq
  dsimp only
  rw [tl880InitDpcPll_dev, writeAll_dev, disableInterrupts_cardType, writeAll_dev, write_dev,
    write_dev, tl880InitSdram_dev, write_dev]

end DevRegs

/-! ## Two runs -/

/-- The registers and the writes so far are the same. -/
structure SameWrites (d d' : DevRegs) : Prop where
  regs : d.regs = d'.regs
  writes : d.writes = d'.writes

namespace SameWrites

variable {d d' : DevRegs}

theorem write (h : SameWrites d d') (reg value : U32) :
    SameWrites (d.write reg value) (d'.write reg value) where
  regs := congrArg (fun r => tl880WriteRegister r reg value) h.regs
  writes := congrArg (· ++ [(reg, value)]) h.writes

theorem writeRegbits (h : SameWrites d d') (reg : U32) (highBit lowBit : Nat) (value : U32) :
    SameWrites (d.writeRegbits reg highBit lowBit value)
      (d'.writeRegbits reg highBit lowBit value) := by
  unfold DevRegs.writeRegbits
  rw [h.regs]
  exact h.write reg _

theorem writeAll (h : SameWrites d d') (ws : List (U32 × U32)) :
    SameWrites (d.writeAll ws) (d'.writeAll ws) := by
  induction ws generalizing d d' with
  | nil => exact h
  | cons w ws ih => exact ih (h.write w.1 w.2)

end SameWrites

/-- The cards are of the same type, too; the rest of the structure need not be the same. -/
structure Alike (d d' : DevRegs) : Prop extends SameWrites d d' where
  cardType : d.dev.cardType = d'.dev.cardType

/-- A card type that is assigned makes cards alike. -/
theorem SameWrites.setCardType {d d' : DevRegs} (h : SameWrites d d') (cardType : U16) :
    Alike (d.setCardType cardType) (d'.setCardType cardType) := ⟨⟨h.regs, h.writes⟩, rfl⟩

namespace Alike

variable {d d' : DevRegs}

theorem write (h : Alike d d') (reg value : U32) :
    Alike (d.write reg value) (d'.write reg value) :=
  ⟨h.toSameWrites.write reg value, h.cardType⟩

theorem writeRegbits (h : Alike d d') (reg : U32) (highBit lowBit : Nat) (value : U32) :
    Alike (d.writeRegbits reg highBit lowBit value)
      (d'.writeRegbits reg highBit lowBit value) :=
  ⟨h.toSameWrites.writeRegbits reg highBit lowBit value, h.cardType⟩

theorem writeAll (h : Alike d d') (ws : List (U32 × U32)) :
    Alike (d.writeAll ws) (d'.writeAll ws) :=
  ⟨h.toSameWrites.writeAll ws, by
    rw [DevRegs.writeAll_dev, DevRegs.writeAll_dev]
    exact h.cardType⟩

/-- Other fields can be assigned. -/
theorem setDev (h : Alike d d') {f g : Tl880Dev → Tl880Dev}
    (hf : (f d.dev).cardType = d.dev.cardType) (hg : (g d'.dev).cardType = d'.dev.cardType) :
    Alike (d.setDev f) (d'.setDev g) :=
  ⟨⟨h.regs, h.writes⟩, hf.trans (h.cardType.trans hg.symm)⟩

theorem disableInterrupts (h : Alike d d') :
    Alike d.disableInterrupts d'.disableInterrupts :=
  (h.setDev rfl rfl).writeAll _

theorem setGpioLine6 (h : Alike d d') (state : U8) :
    Alike (d.setGpioLine6 state) (d'.setGpioLine6 state) := by
  unfold DevRegs.setGpioLine6
  rw [h.cardType]
  split_ifs
  · exact h.writeRegbits _ _ _ _
  · exact (h.writeRegbits _ _ _ _).writeRegbits _ _ _ _
  · exact h

theorem tl880InitSdram (h : Alike d d') : Alike d.tl880InitSdram d'.tl880InitSdram := by
  unfold DevRegs.tl880InitSdram
  rw [h.cardType]
  split_ifs <;> exact h.write _ _

/-- `tl880_init_chip` looks at nothing but the card type. -/
theorem tl880InitChip (h : Alike d d') : Alike d.tl880InitChip d'.tl880InitChip := by
  have hsdram := (h.write 4 0).tl880InitSdram
  have hpll := (hsdram.write 0x5000 (pllEq 0x64)).write 0x5400 (pllEq 0x64)
  have hdll := (hpll.writeAll dllWrites).disableInterrupts
  have hdpc := (hdll.writeAll defaultDpcWrites).write 0x10014 0x80000000
  exact ((hdpc.writeAll [(0x5800, 0x01151bb0), (0x5d14, 0)]).setGpioLine6 1).write 0x10014 0

/-- Of cards that are alike there is the same to see. -/
theorem outcome_eq (h : Alike d d') : d.selectBuses.outcome = d'.selectBuses.outcome := by
  have hseen : ∀ d : DevRegs, d.selectBuses.outcome =
      ⟨d.dev.cardType, d.writes, (busRange d.dev.cardType).1, (busRange d.dev.cardType).2,
        cardInit d.dev.cardType⟩ := fun _ => rfl
  rw [hseen, hseen, h.cardType, h.writes]

end Alike

/-! ## Detection -/

/-- Before the cards are detected their types can differ. -/
structure AlikeUndetected (d d' : DevRegs) : Prop extends SameWrites d d' where
  vendor : d.dev.subsysVendorId = d'.dev.subsysVendorId
  device : d.dev.subsysDeviceId = d'.dev.subsysDeviceId

/-- A MyHD gets its card type from registers. -/
theorem SameWrites.detectMyhd {d d' : DevRegs} (h : SameWrites d d') :
    Alike d.detectMyhd d'.detectMyhd := by
  have htied := ((h.writeRegbits 0x10198 0xf 8 0x10).writeRegbits 0x10190 0x17 8
    0xffff).writeRegbits 0x10194 0x17 8 0
  unfold DevRegs.detectMyhd
  dsimp only
  rw [htied.regs]
  split_ifs <;> exact htied.setCardType _

/-- A card of a known vendor has a card type that does not come from the memory. -/
theorem AlikeUndetected.detectCard_known {d d' : DevRegs} (h : AlikeUndetected d d')
    (hknown : KnownVendor d.dev.subsysVendorId) :
    Alike d.tl880DetectCard d'.tl880DetectCard := by
  have hsame := h.toSameWrites
  unfold DevRegs.tl880DetectCard
  rw [← h.vendor, ← h.device]
  split_ifs with hmit h130 h120 hmyhd hhauppauge htelemann
  · exact hsame.setCardType _
  · exact hsame.setCardType _
  · exact hsame.detectMyhd
  · exact (hsame.writeAll _).setCardType _
  · exact (hsame.setCardType _).writeAll _
  · exact (hsame.setCardType _).writeAll _
  · rcases hknown with heq | heq | heq
    · exact absurd heq hmit
    · exact absurd heq hhauppauge
    · exact absurd heq htelemann

/-- A card of another vendor keeps the card type that was in the memory. -/
theorem detectCard_unknown {d : DevRegs} (hunknown : ¬ KnownVendor d.dev.subsysVendorId) :
    d.tl880DetectCard = d.writeGpio := by
  unfold KnownVendor at hunknown
  rw [not_or, not_or] at hunknown
  unfold DevRegs.tl880DetectCard
  rw [if_neg hunknown.1, if_neg hunknown.2.1, if_neg hunknown.2.2]

/-! ## Stale memory -/

/-- Registers and writes do not depend on the memory. -/
theorem undetectedCard_alike (env : ConfigureEnv) (memory memory' : Tl880Dev) :
    AlikeUndetected (undetectedCard env memory) (undetectedCard env memory') :=
  ⟨⟨rfl, rfl⟩, rfl, rfl⟩

/-- What is detected decides what there is to see. -/
theorem initOutcome_eq {env : ConfigureEnv} {memory memory' : Tl880Dev}
    (h : Alike (undetectedCard env memory).tl880DetectCard
      (undetectedCard env memory').tl880DetectCard) :
    initOutcome env memory = initOutcome env memory' :=
  (h.setDev rfl rfl).tl880InitChip.outcome_eq

/-- After detection the card type stays. -/
theorem initOutcome_cardType (env : ConfigureEnv) (memory : Tl880Dev) :
    (initOutcome env memory).cardType =
      (undetectedCard env memory).tl880DetectCard.dev.cardType := by
  have hselected : ∀ d : DevRegs, d.selectBuses.outcome.cardType = d.dev.cardType := fun _ => rfl
  have hset : ∀ d : DevRegs, (d.setDev fun dev =>
      { dev with irq := env.irq, pool := env.pool }).dev.cardType = d.dev.cardType := fun _ => rfl
  unfold initOutcome configureCard
  dsimp only
  rw [hselected, DevRegs.tl880InitChip_cardType, hset]

/-- Initialisation does not depend on the previous contents of the memory exactly when the
vendor is known or they agree on the card type. -/
theorem initOutcome_eq_iff (env : ConfigureEnv) (memory memory' : Tl880Dev) :
    initOutcome env memory = initOutcome env memory' ↔
      KnownVendor env.subsystemVendor ∨ memory.cardType = memory'.cardType := by
  have halike := undetectedCard_alike env memory memory'
  by_cases hknown : KnownVendor env.subsystemVendor
  · simp only [hknown, true_or, iff_true]
    exact initOutcome_eq (halike.detectCard_known hknown)
  · simp only [hknown, false_or]
    have hdetect : ∀ memory, (undetectedCard env memory).tl880DetectCard =
        (undetectedCard env memory).writeGpio := fun memory => detectCard_unknown hknown
    constructor
    · intro heq
      have hcard := congrArg InitOutcome.cardType heq
      rw [initOutcome_cardType, initOutcome_cardType, hdetect, hdetect] at hcard
      exact hcard
    · intro hcard
      apply initOutcome_eq
      rw [hdetect, hdetect]
      have hsame : Alike (undetectedCard env memory) (undetectedCard env memory') :=
        ⟨halike.toSameWrites, hcard⟩
      exact hsame.writeAll _

/-- With a subsystem vendor of 0x1234 a card is an MDP-130 or a HiPix, as the memory has it. -/
theorem initOutcome_stale : ¬ ∀ (env : ConfigureEnv) (memory memory' : Tl880Dev),
    initOutcome env memory = initOutcome env memory' := by
  intro h
  have heq := h { (default : ConfigureEnv) with subsystemVendor := 0x1234, regspace := 0x1000 }
    { (default : Tl880Dev) with cardType := cardMyhdMdp130 }
    { (default : Tl880Dev) with cardType := cardHipix }
  have hcard := congrArg InitOutcome.cardType heq
  rw [initOutcome_cardType, initOutcome_cardType] at hcard
  exact absurd hcard (by decide)

end Tl880
