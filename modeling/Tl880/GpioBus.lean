import Tl880.Gpio

/-!
# GPIO lines over the bus of the VPX

`tl880_set_gpio` of `driver/tl880gpio.c` where the lines are bits of OUTMUX and the bus may
fail.  `tl880VpxReadFp` returns a `u16`, which is compared with -1 of 32 bits, so a failed
read is not noticed; `tl880VpxWriteFp` returns 0 when it has succeeded, and
`tl880_set_gpio` then returns 0 as well, as it does for a failure.

On a bus that never fails the call is the `tl880SetGpio` of a card with a file of FP
registers (`setGpioOnBus_fileVpx`).
-/

namespace Tl880

open AccessProgram AccessProgram.Program

variable {World : Type*}

/-! ## Calls on a bus -/

/-- The card as a call on a line sees it: its registers, its memory, and the world that
answers on the bus. -/
structure GpioBus (World : Type*) where
  regs : RegSpace
  mem : CardMem
  world : World

/-- What a call returned, and the writes of FP registers it attempted. -/
structure GpioOutcome where
  result : U8
  writes : List (U16 × U16)

/-- `tl880_set_gpio` on the bus of a card. -/
def tl880SetGpioOnBus (vpx : Vpx World) (cardType : U16) (gpioLine : U32) (state : U8)
    (s : GpioBus World) : GpioOutcome × GpioBus World :=
  if LinesOnVpx cardType then
    if gpioLine ≠ 0 then
      let (trace, w) := fpOnBus vpx (setGpioVpx gpioLine state) s.world
      (⟨trace.result.setWidth 8, trace.writes⟩, { s with world := w })
    else
      -- this line uses no FP register
      let t := setGpioAudio state ⟨s.regs, s.mem, fun _ => 0⟩
      (⟨0, []⟩, ⟨t.regs, t.mem, s.world⟩)
  else (⟨1, []⟩, { s with regs := setGpioRegs cardType gpioLine.toNat state s.regs })

/-! ## A bus that does not fail -/

/-- An FP file behind its selection registers: what was selected last is read and
written. -/
def fileXfer (s : FpFile × U16) : SmbusRequest → SmbusReply × (FpFile × U16)
  | .writeWordData _ reg value =>
      if reg = vpxI2cFpdat then
        (.done 0, Function.update s.1 s.2 ((swab16 value).setWidth 12), s.2)
      else (.done 0, s.1, swab16 value)
  | .readWordData _ _ => (.done (swab16 ((s.1 s.2).setWidth 16)), s)
  -- the status: not busy
  | _ => (.done 0, s)

/-- A VPX on a bus that does not fail. -/
def fileVpx : Vpx (FpFile × U16) := ⟨⟨false, fileXfer⟩, 0x43⟩

theorem swab16_swab16 (x : U16) : swab16 (swab16 x) = x := by
  apply BitVec.eq_of_getLsbD_eq
  intro i hi
  have hplace : ((i + 8) % 16 + 8) % 16 = i := by omega
  have htwice := getLsbD_swab16 (swab16 x) (Nat.mod_lt (i + 8) (by decide : 0 < 16))
  rw [hplace, getLsbD_swab16 x hi] at htwice
  exact htwice

/-- It is never busy. -/
theorem fpStatus_fileVpx (s : FpFile × U16) : tl880VpxFpStatus fileVpx s = (0, s) := by
  have hready : fpPoll fileVpx vpxTimeoutCount s = .ready s := by
    have hreply : fileVpx.port.reply s (.readByteData fileVpx.addr vpxI2cFpsta) = (.done 0, s) := rfl
    rw [vpxTimeoutCount, fpPoll, hreply]
    exact if_pos (by decide)
  rw [tl880VpxFpStatus, fpStatusLoop_eq, hready]

/-- A read on it reads the file. -/
theorem readFp_fileVpx (fpaddr : U16) (s : FpFile × U16) :
    tl880VpxReadFp fileVpx fpaddr s = ((s.1 fpaddr).setWidth 16, s.1, fpaddr) := by
  have hword : (BitVec.ofInt 16 ((swab16 ((s.1 fpaddr).setWidth 16)).toNat : Int) : U16) =
      swab16 ((s.1 fpaddr).setWidth 16) := by
    rw [BitVec.ofInt_natCast, BitVec.ofNat_toNat, BitVec.setWidth_eq]
  have hselect : tl880I2cWriteWordData fileVpx.port fileVpx.addr vpxI2cFprd (swab16 fpaddr) s =
      (0, s.1, fpaddr) := by
    show ((0 : Int), s.1, swab16 (swab16 fpaddr)) = _
    rw [swab16_swab16]
  have hdata : tl880I2cReadWordData fileVpx.port fileVpx.addr vpxI2cFpdat (s.1, fpaddr) =
      (((swab16 ((s.1 fpaddr).setWidth 16)).toNat : Int), s.1, fpaddr) := rfl
  have hones : ¬ swab16 ((s.1 fpaddr).setWidth 16) = 0xffff := by
    rw [swab16_eq_ones_iff]
    exact fpRead_ne s.1 fpaddr
  rw [tl880VpxReadFp, hselect]
  dsimp only
  rw [fpStatus_fileVpx]
  dsimp only
  rw [hdata, if_neg (by decide), if_neg (by decide)]
  dsimp only
  rw [hword, if_neg hones, swab16_swab16]

/-- A write on it writes the file. -/
theorem writeFp_fileVpx (fpaddr data : U16) (s : FpFile × U16) :
    tl880VpxWriteFp fileVpx fpaddr data s =
      (0, Function.update s.1 fpaddr (data.setWidth 12), fpaddr) := by
  have hselect : tl880I2cWriteWordData fileVpx.port fileVpx.addr vpxI2cFpwr (swab16 fpaddr) s =
      (0, s.1, fpaddr) := by
    show ((0 : Int), s.1, swab16 (swab16 fpaddr)) = _
    rw [swab16_swab16]
  have hdata : tl880I2cWriteWordData fileVpx.port fileVpx.addr vpxI2cFpdat (swab16 data)
      (s.1, fpaddr) = (0, Function.update s.1 fpaddr (data.setWidth 12), fpaddr) := by
    show ((0 : Int), Function.update s.1 fpaddr ((swab16 (swab16 data)).setWidth 12), fpaddr) = _
    rw [swab16_swab16]
  rw [tl880VpxWriteFp, hselect]
  dsimp only
  rw [fpStatus_fileVpx]
  dsimp only
  rw [hdata, if_neg (by decide), if_neg (by decide)]
  dsimp only
  rw [if_neg (by decide)]

/-- On such a bus a program does what it does on the file. -/
theorem fpOnBus_fileVpx (p : FpProgram) (s : FpFile × U16) :
    p.exec FpFile.reply FpFile.ack s.1 =
      ((fpOnBus fileVpx p s).1, (fpOnBus fileVpx p s).2.1) := by
  have hreply (reg : U16) (s : FpFile × U16) : FpFile.reply reg s.1 =
      ((tl880VpxReadFp fileVpx reg s).1, (tl880VpxReadFp fileVpx reg s).2.1) := by
    rw [readFp_fileVpx]
    rfl
  have hack (reg data : U16) (s : FpFile × U16) : FpFile.ack reg data s.1 =
      (BitVec.ofInt 32 (tl880VpxWriteFp fileVpx reg data s).1,
        (tl880VpxWriteFp fileVpx reg data s).2.1) := by
    rw [writeFp_fileVpx]
    rfl
  exact exec_simulates Prod.fst hreply hack p s

/-- The call on a bus that does not fail is the call on the file. -/
theorem setGpioOnBus_fileVpx (cardType : U16) (gpioLine : U32) (state : U8)
    (s : GpioBus (FpFile × U16)) :
    let t := tl880SetGpioOnBus fileVpx cardType gpioLine state s
    tl880SetGpio cardType gpioLine state ⟨s.regs, s.mem, s.world.1⟩ =
      (t.1.result, ⟨t.2.regs, t.2.mem, t.2.world.1⟩) := by
  unfold tl880SetGpio tl880SetGpioOnBus
  by_cases hvpx : LinesOnVpx cardType
  · simp only [if_pos hvpx]
    by_cases hline : gpioLine ≠ 0
    · simp only [if_pos hline]
      rw [fpOnBus_fileVpx]
    · simp only [if_neg hline]
      have hset := setGpioAudio_setVpx state ⟨s.regs, s.mem, fun _ => 0⟩ s.world.1
      rw [hset]
  · simp only [if_neg hvpx]

/-! ## A bus that may fail -/

/-- The word is the value with the line's bit as the state says, plus 0x300. -/
def LineSetIn (gpioLine : U32) (state : U8) (value data : U16) : Prop :=
  ∀ i < 16, data.getLsbD i =
    (decide (i = 8 ∨ i = 9) ||
      if outmuxLine i = some gpioLine.toNat then decide (state ≠ 0) else value.getLsbD i)

/-- The call writes nothing and returns 0 when the read failed; otherwise it attempts one
write, and returns 1 if and only if that write succeeded. -/
structure ReportsWrite (vpx : Vpx World) (cardType : U16) (gpioLine : U32) (state : U8)
    (s : GpioBus World) (succeeded : U16 → World → Prop) : Prop where
  failed : (tl880VpxReadFp vpx vpxFpOutmux s.world).1 = 0xffff →
    (tl880SetGpioOnBus vpx cardType gpioLine state s).1 = ⟨0, []⟩
  written : (tl880VpxReadFp vpx vpxFpOutmux s.world).1 ≠ 0xffff →
    ∃ data, LineSetIn gpioLine state (tl880VpxReadFp vpx vpxFpOutmux s.world).1 data ∧
      (tl880SetGpioOnBus vpx cardType gpioLine state s).1.writes = [(vpxFpOutmux, data)] ∧
      ((tl880SetGpioOnBus vpx cardType gpioLine state s).1.result = 1 ↔
        succeeded data (tl880VpxReadFp vpx vpxFpOutmux s.world).2)

/-- The driver says that the write succeeded. -/
def WriteReported (vpx : Vpx World) (data : U16) (w : World) : Prop :=
  (tl880VpxWriteFp vpx vpxFpOutmux data w).1 = 0

/-- The lines that are bits of OUTMUX. -/
def outmuxLines : List Nat := [2, 6, 8, 9, 10, 11, 12, 13]

/-- The word that is written. -/
def outmuxWord (mask : U32) (state : U8) (value : U16) : U16 :=
  let gpioValue : U32 := value.setWidth 32
  (0x300 ||| if state = 0 then gpioValue &&& ~~~mask else gpioValue ||| mask).setWidth 16

theorem outmuxMask_of_mem {gpioLine : U32} (hline : gpioLine.toNat ∈ outmuxLines) :
    gpioLine ≠ 0 ∧ ∃ mask, outmuxMask gpioLine = some mask := by
  unfold outmuxMask
  constructor
  · rintro rfl
    exact absurd hline (by decide)
  · revert hline
    generalize gpioLine.toNat = line
    intro hline
    unfold outmuxLines at hline
    simp only [List.mem_cons, List.not_mem_nil, or_false] at hline
    rcases hline with rfl | rfl | rfl | rfl | rfl | rfl | rfl | rfl <;> exact ⟨_, rfl⟩

/-- It is the value with the line's bit changed. -/
theorem lineSetIn_outmuxWord {gpioLine mask : U32} (hmask : outmuxMask gpioLine = some mask)
    (state : U8) (value : U16) : LineSetIn gpioLine state value (outmuxWord mask state value) := by
  have hset : ∀ i < 16, (0x300 : U32).getLsbD i = decide (i = 8 ∨ i = 9) := by decide
  intro i hi
  have h32 : i < 32 := by omega
  have hbit := outmuxMask_getLsbD hmask hi
  unfold outmuxWord
  by_cases hstate : state = 0
  · have hclear : decide (state ≠ 0) = false := decide_eq_false (not_not.mpr hstate)
    simp only [if_pos hstate, BitVec.getLsbD_setWidth, BitVec.getLsbD_or, BitVec.getLsbD_and,
      BitVec.getLsbD_not, hi, h32, hset i hi, hbit, hclear, decide_true, Bool.true_and]
    by_cases hown : outmuxLine i = some gpioLine.toNat <;> simp [hown]
  · simp only [if_neg hstate, BitVec.getLsbD_setWidth, BitVec.getLsbD_or, hi, h32, hset i hi, hbit,
      decide_true, Bool.true_and]
    rw [decide_eq_true hstate]
    by_cases hown : outmuxLine i = some gpioLine.toNat <;> simp [hown]

/-- There is one such word. -/
theorem LineSetIn.unique {gpioLine : U32} {state : U8} {value data data' : U16}
    (h : LineSetIn gpioLine state value data) (h' : LineSetIn gpioLine state value data') :
    data = data' := by
  apply BitVec.eq_of_getLsbD_eq
  intro i hi
  rw [h i hi, h' i hi]

/-- A write returns 0 or -1. -/
theorem tl880VpxWriteFp_result (vpx : Vpx World) (fpaddr data : U16) (w : World) :
    (tl880VpxWriteFp vpx fpaddr data w).1 = 0 ∨ (tl880VpxWriteFp vpx fpaddr data w).1 = -1 := by
  unfold tl880VpxWriteFp
  dsimp only
  split_ifs <;> simp

/-- The value that was read passes the test, whatever it is. -/
theorem setGpioVpx_eq {gpioLine mask : U32} (hmask : outmuxMask gpioLine = some mask) (state : U8) :
    setGpioVpx gpioLine state =
      .read vpxFpOutmux fun tmp =>
      .write vpxFpOutmux (outmuxWord mask state tmp) fun result =>
      .done (if result ≠ 0 then 1 else 0) := by
  rw [setGpioVpx, hmask]
  congr
  funext tmp
  rw [if_neg (wide_ne_ones tmp)]
  rfl

/-- Whatever was read, the call writes, and what it returns is the other way round. -/
theorem setGpioOnBus_eq (vpx : Vpx World) {cardType : U16} (hvpx : LinesOnVpx cardType)
    {gpioLine mask : U32} (hline : gpioLine ≠ 0) (hmask : outmuxMask gpioLine = some mask)
    (state : U8) (s : GpioBus World) :
    let read := tl880VpxReadFp vpx vpxFpOutmux s.world
    let data := outmuxWord mask state read.1
    (tl880SetGpioOnBus vpx cardType gpioLine state s).1.writes = [(vpxFpOutmux, data)] ∧
      ((tl880SetGpioOnBus vpx cardType gpioLine state s).1.result = 1 ↔
        ¬ WriteReported vpx data read.2) := by
  intro read data
  unfold tl880SetGpioOnBus WriteReported
  rw [if_pos hvpx, if_pos hline, setGpioVpx_eq hmask]
  constructor
  · rfl
  · show (if (BitVec.ofInt 32 (tl880VpxWriteFp vpx vpxFpOutmux data read.2).1 : U32) ≠ 0
      then 1#32 else 0#32).setWidth 8 = 1#8 ↔ _
    rcases tl880VpxWriteFp_result vpx vpxFpOutmux data read.2 with hresult | hresult
    · rw [hresult]
      simp
    · rw [hresult]
      simp

/-- A write is reported as a success when it is one, or when it goes on after a failed
poll. -/
theorem writeReported_iff (vpx : Vpx World) (data : U16) (w : World) :
    (WriteReported vpx data w ↔
      fpWritten vpx vpxFpOutmux data w ∨ ¬ FpWriteSafe vpx vpxFpOutmux data w) ∧
      (fpWritten vpx vpxFpOutmux data w → FpWriteSafe vpx vpxFpOutmux data w) := by
  unfold WriteReported
  rw [tl880VpxWriteFp_eq_zero_iff]
  unfold fpWritten FpWriteSafe
  cases fpHandshake vpx vpxI2cFpwr vpxFpOutmux w with
  | none => simp
  | some poll =>
      cases poll with
      | busy w' => simp
      | ready w' =>
          dsimp only
          cases vpx.port.reply w' (.writeWordData vpx.addr vpxI2cFpdat (swab16 data)) with
          | mk reply w'' => cases reply <;> simp
      | failed w' =>
          dsimp only
          cases vpx.port.reply w' (.writeWordData vpx.addr vpxI2cFpdat (swab16 data)) with
          | mk reply w'' => cases reply <;> simp

/-- What is reported as success is never returned as success.  What is one is returned as one
exactly when the read returned a value and the write goes wrong in another way, by
reporting a success that is none. -/
theorem reportsWrite_iff (vpx : Vpx World) {cardType : U16} (hvpx : LinesOnVpx cardType)
    {gpioLine : U32} (hline : gpioLine.toNat ∈ outmuxLines) (state : U8) (s : GpioBus World) :
    ¬ ReportsWrite vpx cardType gpioLine state s (WriteReported vpx) ∧
      (ReportsWrite vpx cardType gpioLine state s (fpWritten vpx vpxFpOutmux) ↔
        (tl880VpxReadFp vpx vpxFpOutmux s.world).1 ≠ 0xffff ∧
          ∃ data, LineSetIn gpioLine state (tl880VpxReadFp vpx vpxFpOutmux s.world).1 data ∧
            ¬ FpWriteSafe vpx vpxFpOutmux data (tl880VpxReadFp vpx vpxFpOutmux s.world).2) := by
  obtain ⟨hnonzero, mask, hmask⟩ := outmuxMask_of_mem hline
  obtain ⟨hwrites, hresult⟩ := setGpioOnBus_eq vpx hvpx hnonzero hmask state s
  have hword := lineSetIn_outmuxWord hmask state (tl880VpxReadFp vpx vpxFpOutmux s.world).1
  generalize outmuxWord mask state (tl880VpxReadFp vpx vpxFpOutmux s.world).1 = word
    at hwrites hresult hword
  -- a failed read does not keep the call from writing
  have hvalue {succeeded : U16 → World → Prop}
      (h : ReportsWrite vpx cardType gpioLine state s succeeded) :
      (tl880VpxReadFp vpx vpxFpOutmux s.world).1 ≠ 0xffff := by
    intro hfailed
    rw [h.failed hfailed] at hwrites
    cases hwrites
  have hreturned {succeeded : U16 → World → Prop}
      (h : ReportsWrite vpx cardType gpioLine state s succeeded) :
      ¬ WriteReported vpx word (tl880VpxReadFp vpx vpxFpOutmux s.world).2 ↔
        succeeded word (tl880VpxReadFp vpx vpxFpOutmux s.world).2 := by
    obtain ⟨data, hdata, -, hreturned⟩ := h.written (hvalue h)
    rw [hdata.unique hword] at hreturned
    exact hresult.symm.trans hreturned
  obtain ⟨hreported, hsafe⟩ := writeReported_iff vpx word
    (tl880VpxReadFp vpx vpxFpOutmux s.world).2
  constructor
  · intro h
    exact iff_not_self (hreturned h).symm
  constructor
  · intro h
    refine ⟨hvalue h, word, hword, ?_⟩
    intro hsafe'
    have hwrong := hreturned h
    rw [hreported] at hwrong
    tauto
  · rintro ⟨hread, data, hdata, hunsafe⟩
    rw [hdata.unique hword] at hunsafe
    constructor
    · intro hfailed
      exact absurd hfailed hread
    · intro _
      refine ⟨word, hword, hwrites, ?_⟩
      rw [hresult, hreported]
      tauto

/-- A VPX that is busy for long: every poll fails. -/
def pollFails : Vpx Nat :=
  ⟨⟨false, fun count request =>
    match request with
    | .readByteData _ _ => (if count < 2 then .done 0 else .failed Errno.eio, count + 1)
    | _ => (.done 0, count + 1)⟩, 0x43⟩

/-- Line 2 of an MDP-120, when the poll of the write fails. -/
theorem reportsWrite_iff_mdp120 :
    let s : GpioBus Nat := ⟨⟨true, fun _ => 0⟩, ⟨true, 0, fun _ => 0, []⟩, 0⟩
    ¬ ReportsWrite pollFails cardMyhdMdp120 2 1 s (WriteReported pollFails) ∧
      (ReportsWrite pollFails cardMyhdMdp120 2 1 s (fpWritten pollFails vpxFpOutmux) ↔
        (tl880VpxReadFp pollFails vpxFpOutmux s.world).1 ≠ 0xffff ∧
          ∃ data, LineSetIn 2 1 (tl880VpxReadFp pollFails vpxFpOutmux s.world).1 data ∧
            ¬ FpWriteSafe pollFails vpxFpOutmux data
              (tl880VpxReadFp pollFails vpxFpOutmux s.world).2) :=
  reportsWrite_iff pollFails (Or.inl rfl) (by decide) 1 _

/-- On a bus where every transaction fails the call writes all the same and returns 1. -/
theorem reportsWrite_failedRead :
    ¬ (∀ (vpx : Vpx Nat) (cardType : U16) (gpioLine : U32) (state : U8) (s : GpioBus Nat),
      LinesOnVpx cardType → gpioLine.toNat ∈ outmuxLines →
        ReportsWrite vpx cardType gpioLine state s (WriteReported vpx)) ∧
      ¬ ∀ (vpx : Vpx Nat) (cardType : U16) (gpioLine : U32) (state : U8) (s : GpioBus Nat),
        LinesOnVpx cardType → gpioLine.toNat ∈ outmuxLines →
          ReportsWrite vpx cardType gpioLine state s (fpWritten vpx vpxFpOutmux) := by
  have hfailed : (tl880VpxReadFp (⟨failingFrom 0, 0x43⟩ : Vpx Nat) vpxFpOutmux 0).1 = 0xffff := by
    decide
  have hresult : (tl880SetGpioOnBus (⟨failingFrom 0, 0x43⟩ : Vpx Nat) cardMyhdMdp120 2 1
      ⟨⟨true, fun _ => 0⟩, ⟨true, 0, fun _ => 0, []⟩, 0⟩).1.result = 1 := by
    decide
  constructor
  · intro h
    have hreports := h ⟨failingFrom 0, 0x43⟩ cardMyhdMdp120 2 1
      ⟨⟨true, fun _ => 0⟩, ⟨true, 0, fun _ => 0, []⟩, 0⟩ (Or.inl rfl) (by decide)
    rw [hreports.failed hfailed] at hresult
    exact absurd hresult (by decide)
  · intro h
    have hreports := h ⟨failingFrom 0, 0x43⟩ cardMyhdMdp120 2 1
      ⟨⟨true, fun _ => 0⟩, ⟨true, 0, fun _ => 0, []⟩, 0⟩ (Or.inl rfl) (by decide)
    rw [hreports.failed hfailed] at hresult
    exact absurd hresult (by decide)

end Tl880
