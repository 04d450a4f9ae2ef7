import Tl880.CardList
import Tl880.GpioBus

/-!
# Ioctls

The model of `tl880_ioctl` of `driver/tl880kern.c` on a 64-bit CPU.  The commands that take
an argument copy it from user memory into a buffer on the stack.  A copy that fails is only
printed: the command is carried out with what the buffer then holds.  `TL880IOCREADREG` reads user
memory directly, and a page that is missing there is an oops.

`copyFromUser` is the kernel's `copy_from_user` as it is documented: what it cannot copy it
fills up with zeros.  So a command whose argument is not there is carried out with zeros in
its place.  What the I2C clients do with a command is the subject of `Tl880.I2cClients`;
their chips are not part of the state here.
-/

namespace Tl880

variable {World : Type*}

/-! ## Command numbers -/

def devMask : U32 := 0xfffc

/-- `_IOC` -/
def ioc (dir type nr size : Nat) : U32 :=
  BitVec.ofNat 32 (dir * 2 ^ 30 + size * 2 ^ 16 + type * 2 ^ 8 + nr)

/-- `_IOC_DIR(cmd) & _IOC_WRITE`: the user's memory is read. -/
def iocWrite (cmd : U32) : Bool := cmd.getLsbD 30

/-- `_IOC_DIR(cmd) & _IOC_READ`: the user's memory is written. -/
def iocRead (cmd : U32) : Bool := cmd.getLsbD 31

/-- `_IOC_SIZE` -/
def iocSize (cmd : U32) : Nat := ((cmd >>> 16) &&& 0x3fff#32).toNat

-- the size is that of a pointer
def tl880IocReadReg : U32 := ioc 3 0xdd 0 8
def tl880IocWriteReg : U32 := ioc 1 0xdd 1 8
def tl880IocSetVip : U32 := ioc 1 0xdd 2 8
def tl880IocSetCursorPos : U32 := ioc 1 0xdd 3 8
def tl880IocSetGpio : U32 := ioc 1 0xdd 4 8
def vidiocLogStatus : U32 := ioc 0 0x56 70 0

/-! ## User memory -/

/-- The memory of the calling process. -/
structure UserMemory where
  /-- `access_ok(VERIFY_WRITE, ..)` -/
  writeOk : U64 → Nat → Bool
  /-- `access_ok(VERIFY_READ, ..)` -/
  readOk : U64 → Nat → Bool
  /-- how many of the bytes at an address can be copied before a page is missing -/
  copyable : U64 → Nat
  byte : U64 → Nat → U8

/-- `copy_from_user` into the first `n` bytes of a buffer: the number of bytes not copied,
and the buffer, where they are zero. -/
def copyFromUser (user : UserMemory) (stack : Nat → U8) (src : U64) (n : Nat) :
    Nat × (Nat → U8) :=
  (n - user.copyable src, fun i =>
    if n ≤ i then stack i else if i < user.copyable src then user.byte src i else 0)

/-- The test of the pointer by the direction and size of the command. -/
def accessOk (user : UserMemory) (cmd : U32) (arg : U64) : Bool :=
  (!iocRead cmd || user.writeOk arg (iocSize cmd)) &&
    (!iocWrite cmd || user.readOk arg (iocSize cmd))

/-! ## `tl880_ioctl` -/

/-- The part of a card that commands work on. -/
structure IoctlDev (World : Type*) where
  cardType : U16
  vpx : Vpx World
  /-- `i2cbuses` is not NULL -/
  hasBuses : Bool
  state : GpioBus World

/-- How a call ends: it returns a number, or the kernel faults in it. -/
inductive IoctlResult
  | returned (result : Int)
  | oops
  deriving DecidableEq

/-- What a command did: how it ended, the word it put at the argument, and the card. -/
structure IoctlOutcome (World : Type*) where
  result : IoctlResult
  put : Option U32
  dev : IoctlDev World

/-- A write of a register by a command. -/
def IoctlDev.writeRegister (dev : IoctlDev World) (reg value : U32) : IoctlDev World :=
  { dev with state := { dev.state with regs := tl880WriteRegister dev.state.regs reg value } }

/-- A call of `tl880_set_gpio`. -/
def IoctlDev.setGpio (dev : IoctlDev World) (gpioLine : U32) (state : U8) : IoctlDev World :=
  { dev with state := (tl880SetGpioOnBus dev.vpx dev.cardType gpioLine state dev.state).2 }

/-- What is done with the registers alone. -/
def IoctlDev.onRegs (dev : IoctlDev World) (f : RegSpace → RegSpace) : IoctlDev World :=
  { dev with state := { dev.state with regs := f dev.state.regs } }

/-- `tl880_set_vip` with its GPIO lines on the bus of the card. -/
def IoctlDev.setVip (dev : IoctlDev World) (vipMode : U64) : IoctlDev World :=
  if vipMode = 0 then ((dev.onRegs (vipPort dev.cardType)).setGpio 3 1).setGpio 4 1
  else if vipMode = 1 then (dev.onRegs (vipPort dev.cardType)).setGpio 3 0
  else if vipMode = 2 then
    if dev.cardType ≠ cardMyhdMdp110 then
      (dev.setGpio 4 0).onRegs fun r =>
        let r := tl880WriteRegister r 0x10190 (setVipPins (tl880ReadRegister r 0x10190) 0)
        tl880WriteRegister r 0x10194 (setVipPins (tl880ReadRegister r 0x10194) 0xff)
    else dev
  else dev

/-- What `tl880_call_i2c_clients` returns. -/
def callClientsResult (user : UserMemory) (dev : IoctlDev World) (arg : U64) : IoctlResult :=
  if dev.hasBuses = false then .returned (-2)
  -- the first word of the argument is read directly
  else if arg ≠ 0 ∧ user.copyable arg < 8 then .oops
  else .returned 0

/-- The switch on the command. -/
def ioctlCommand (user : UserMemory) (stack : Nat → U8) (cmd : U32) (arg : U64)
    (dev : IoctlDev World) : IoctlOutcome World :=
  if cmd = tl880IocReadReg then
    if user.copyable arg < 4 then ⟨.oops, none, dev⟩
    else
      let reg := dwordAt (user.byte arg) 0
      ⟨.returned 0, some (tl880ReadRegister dev.state.regs reg), dev⟩
  else if cmd = tl880IocWriteReg then
    -- that bytes were not copied is printed, here and below
    let (_, wrprm) := copyFromUser user stack arg 8
    ⟨.returned 0, none, dev.writeRegister (dwordAt wrprm 0) (dwordAt wrprm 4)⟩
  else if cmd = tl880IocSetVip then
    let (_, vipstate) := copyFromUser user stack arg 4
    ⟨.returned 0, none, dev.setVip ((dwordAt vipstate 0).setWidth 64)⟩
  else if cmd = tl880IocSetCursorPos then
    let (_, cursorpos) := copyFromUser user stack arg 4
    ⟨.returned 0, none, dev.writeRegister 0x10104 (dwordAt cursorpos 0)⟩
  else if cmd = tl880IocSetGpio then
    let (_, wrprm) := copyFromUser user stack arg 8
    ⟨.returned 0, none, dev.setGpio (dwordAt wrprm 0) ((dwordAt wrprm 4).setWidth 8)⟩
  else if cmd = vidiocLogStatus then
    match callClientsResult user dev arg with
    | .oops => ⟨.oops, none, dev⟩
    | .returned _ => ⟨.returned 0, none, dev⟩
  else ⟨callClientsResult user dev arg, none, dev⟩

/-- `tl880_ioctl`: the list of cards, and at each address the card there. -/
def tl880Ioctl (list : List Tl880Card) (user : UserMemory) (stack : Nat → U8) (minor cmd : U32)
    (arg : U64) (devs : U64 → IoctlDev World) : IoctlResult × Option U32 × (U64 → IoctlDev World) :=
  match findTl880 list (((minor &&& devMask) >>> 2).setWidth 64) with
  | none => (.returned (-enodev), none, devs)
  | some card =>
      if accessOk user cmd arg = false then (.returned (-22), none, devs)
      else
        let outcome := ioctlCommand user stack cmd arg (devs card.ptr)
        (outcome.result, outcome.put, Function.update devs card.ptr outcome.dev)

/-! ## `tl880_set_vip` on the bus -/

/-- A line that is not line 0 changes the registers as on a card without a bus. -/
theorem tl880SetGpioOnBus_regs (vpx : Vpx World) (cardType : U16) {gpioLine : U32}
    (hline : gpioLine ≠ 0) (state : U8) (s : GpioBus World) :
    (tl880SetGpioOnBus vpx cardType gpioLine state s).2.regs =
      setGpioRegs cardType gpioLine.toNat state s.regs := by
  unfold tl880SetGpioOnBus
  by_cases hvpx : LinesOnVpx cardType
  · have hregs : setGpioRegs cardType gpioLine.toNat state s.regs = s.regs := by
      unfold setGpioRegs
      rcases hvpx with hcard | hcard <;> rw [hcard] <;> rfl
    rw [if_pos hvpx, if_pos hline, hregs]
  · rw [if_neg hvpx]

theorem onRegs_regs (dev : IoctlDev World) (f : RegSpace → RegSpace) :
    (dev.onRegs f).state.regs = f dev.state.regs := rfl

/-- What the bus does leaves the registers of `tl880SetVip`. -/
theorem setVip_regs (dev : IoctlDev World) (vipMode : U64) :
    (dev.setVip vipMode).state.regs = tl880SetVip dev.cardType vipMode dev.state.regs := by
  have hthree (dev : IoctlDev World) (state : U8) :
      (dev.setGpio 3 state).state.regs = setGpioRegs dev.cardType 3 state dev.state.regs :=
    tl880SetGpioOnBus_regs dev.vpx dev.cardType (by decide) state dev.state
  have hfour (dev : IoctlDev World) (state : U8) :
      (dev.setGpio 4 state).state.regs = setGpioRegs dev.cardType 4 state dev.state.regs :=
    tl880SetGpioOnBus_regs dev.vpx dev.cardType (by decide) state dev.state
  unfold IoctlDev.setVip tl880SetVip
  split_ifs
  · rw [hfour, hthree]
    rfl
  · rw [hthree]
    rfl
  · rw [onRegs_regs, hfour]
  · rfl
  · rfl

/-! ## Failed copies -/

/-- The commands with an argument. -/
inductive ArgCommand
  | readReg
  | writeReg
  | setVip
  | setCursorPos
  | setGpio
  deriving DecidableEq

/-- The number of a command. -/
def ArgCommand.cmd : ArgCommand → U32
  | .readReg => tl880IocReadReg
  | .writeReg => tl880IocWriteReg
  | .setVip => tl880IocSetVip
  | .setCursorPos => tl880IocSetCursorPos
  | .setGpio => tl880IocSetGpio

/-- The size of its argument. -/
def ArgCommand.argSize : ArgCommand → Nat
  | .writeReg | .setGpio => 8
  | .readReg | .setVip | .setCursorPos => 4

/-- The argument cannot be copied, or not all of it. -/
def CopyFails (user : UserMemory) (command : ArgCommand) (arg : U64) : Prop :=
  user.copyable arg < command.argSize

/-- A command that copies its argument does not look at what the copy returned: with the
same buffer it does the same. -/
theorem ioctlCommand_ignores_failure {user user' : UserMemory} {stack stack' : Nat → U8}
    {arg : U64} {command : ArgCommand} (hcopies : command ≠ .readReg)
    (hbuffer : (copyFromUser user stack arg command.argSize).2 =
      (copyFromUser user' stack' arg command.argSize).2) (dev : IoctlDev World) :
    ioctlCommand user stack command.cmd arg dev =
      ioctlCommand user' stack' command.cmd arg dev := by
  cases command with
  | readReg => exact absurd rfl hcopies
  | writeReg =>
      show (⟨_, _, dev.writeRegister (dwordAt (copyFromUser user stack arg 8).2 0)
        (dwordAt (copyFromUser user stack arg 8).2 4)⟩ : IoctlOutcome World) = _
      rw [ArgCommand.argSize] at hbuffer
      rw [hbuffer]
      rfl
  | setVip =>
      show (⟨_, _, dev.setVip ((dwordAt (copyFromUser user stack arg 4).2 0).setWidth 64)⟩ :
        IoctlOutcome World) = _
      rw [ArgCommand.argSize] at hbuffer
      rw [hbuffer]
      rfl
  | setCursorPos =>
      show (⟨_, _, dev.writeRegister 0x10104 (dwordAt (copyFromUser user stack arg 4).2 0)⟩ :
        IoctlOutcome World) = _
      rw [ArgCommand.argSize] at hbuffer
      rw [hbuffer]
      rfl
  | setGpio =>
      show (⟨_, _, dev.setGpio (dwordAt (copyFromUser user stack arg 8).2 0)
        ((dwordAt (copyFromUser user stack arg 8).2 4).setWidth 8)⟩ : IoctlOutcome World) = _
      rw [ArgCommand.argSize] at hbuffer
      rw [hbuffer]
      rfl

/-- A command whose argument cannot be copied returns 0, or does not return. -/
theorem ioctlCommand_result {user : UserMemory} {arg : U64} {command : ArgCommand}
    (hfails : CopyFails user command arg) (stack : Nat → U8) (dev : IoctlDev World) :
    (ioctlCommand user stack command.cmd arg dev).result =
      if command = .readReg then .oops else .returned 0 := by
  cases command with
  | readReg =>
      have hfails : user.copyable arg < 4 := hfails
      rw [ioctlCommand, ArgCommand.cmd, if_pos rfl, if_pos hfails, if_pos rfl]
  | writeReg => rfl
  | setVip => rfl
  | setCursorPos => rfl
  | setGpio => rfl

/-- If the argument cannot be copied, no card changes and the call returns a negative
number. -/
def FailedCopyHarmless (list : List Tl880Card) (user : UserMemory) (stack : Nat → U8)
    (minor : U32) (command : ArgCommand) (arg : U64) (devs : U64 → IoctlDev World) : Prop :=
  CopyFails user command arg →
    (tl880Ioctl list user stack minor command.cmd arg devs).2.2 = devs ∧
      ∃ result < 0, (tl880Ioctl list user stack minor command.cmd arg devs).1 = .returned result

/-- A failed copy has no effect exactly when it is not made: there is no such card, or the
pointer does not pass the test before. -/
theorem failedCopyHarmless_iff (list : List Tl880Card) (user : UserMemory) (stack : Nat → U8)
    (minor : U32) (command : ArgCommand) (arg : U64) (devs : U64 → IoctlDev World) :
    FailedCopyHarmless list user stack minor command arg devs ↔
      (CopyFails user command arg →
        findTl880 list (((minor &&& devMask) >>> 2).setWidth 64) = none ∨
          accessOk user command.cmd arg = false) := by
  unfold FailedCopyHarmless tl880Ioctl
  apply imp_congr_right
  intro hfails
  cases findTl880 list (((minor &&& devMask) >>> 2).setWidth 64) with
  | none =>
      apply iff_of_true
      · exact ⟨rfl, -enodev, by decide, rfl⟩
      · exact Or.inl rfl
  | some card =>
      by_cases haccess : accessOk user command.cmd arg = false
      · apply iff_of_true
        · simp only [if_pos haccess]
          exact ⟨trivial, -22, by decide, rfl⟩
        · exact Or.inr haccess
      · apply iff_of_false
        · rintro ⟨-, result, hnegative, hreturned⟩
          dsimp only at hreturned
          rw [if_neg haccess, ioctlCommand_result hfails stack] at hreturned
          by_cases hread : command = .readReg
          · rw [if_pos hread] at hreturned
            cases hreturned
          · rw [if_neg hread] at hreturned
            cases hreturned
            exact absurd hnegative (by decide)
        · rintro (hnone | hrefused)
          · cases hnone
          · exact haccess hrefused

/-- A card with I2C buses, and 1 in each of its registers. -/
def ioctlCard : IoctlDev Nat :=
  ⟨cardMyhdMdp110, ⟨⟨false, fun count _ => (.done 0, count + 1)⟩, 0x43⟩, true,
    ⟨⟨true, fun _ => 1⟩, ⟨true, 0, fun _ => 0, []⟩, 0⟩⟩

/-- A process that passes a pointer to a page that is missing. -/
def missingPage : UserMemory := ⟨fun _ _ => true, fun _ _ => true, fun _ => 0, fun _ _ => 0⟩

/-- The write of a register from a page that is missing: register 0 is written with 0. -/
theorem failedCopy_written :
    ¬ ∀ (list : List Tl880Card) (user : UserMemory) (stack : Nat → U8) (minor : U32)
      (command : ArgCommand) (arg : U64) (devs : U64 → IoctlDev Nat),
      FailedCopyHarmless list user stack minor command arg devs := by
  intro h
  have hfails : CopyFails missingPage .writeReg 0x1000 := by
    show (0 : Nat) < 8
    decide
  obtain ⟨hunchanged, -⟩ := h [newCard 1 (slotDevice 0x1000) 0] missingPage (fun _ => 0xcc) 0
    .writeReg 0x1000 (fun _ => ioctlCard) hfails
  have hwritten : (((tl880Ioctl [newCard 1 (slotDevice 0x1000) 0] missingPage (fun _ => 0xcc) 0
      ArgCommand.writeReg.cmd 0x1000 (fun _ => ioctlCard)).2.2 1).state.regs.cell 0) = 0 := by
    decide
  rw [hunchanged] at hwritten
  exact absurd hwritten (by decide)

end Tl880
