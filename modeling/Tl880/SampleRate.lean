import Tl880.Gpio

/-!
# The sample clock

The model of `tl880_set_sampling_clock` and `tl880_set_samplerate` of
`driver/tl880audio.c`.  The clock is selected by the GPIO lines 8 and 9, each of which is
driven low, driven high or released; `doc/tl880doc.txt` has the table for the MDP-110.

On an MDP-100 or MDP-110 the lines have these three states.  An MDP-120 or MDP-130 knows
two of them, so that rates collapse, and on an MDP-100A `tl880_set_samplerate` sets no
line at all: there `tl880_set_sampling_clock` writes OUTMUX instead, and
`tl880_set_samplerate` does not.
-/

namespace Tl880

/-! ## The driver -/

/-- `tl880_vpx_write_fp` to OUTMUX, which succeeds. -/
def GpioState.writeOutmux (s : GpioState) (data : U16) : GpioState :=
  { s with vpx := (FpFile.ack vpxFpOutmux data s.vpx).2 }

/-- `tl880_set_sampling_clock` -/
def tl880SetSamplingClock (cardType : U16) (rate : Int) (s : GpioState) : GpioState :=
  if rate = 0 ∨ rate = 1 then
    if cardType = cardMyhdMdp100a then s.writeOutmux 0x302
    else gpioCall cardType (gpioCall cardType s (9, 2)) (8, 0)
  else if rate = 2 then
    if cardType = cardMyhdMdp100a then s.writeOutmux 0x301
    else gpioCall cardType (gpioCall cardType s (9, 0)) (8, 2)
  else if rate = 3 then
    if cardType = cardMyhdMdp100a then s.writeOutmux 0x300
    else gpioCall cardType (gpioCall cardType s (9, 0)) (8, 0)
  else s

/-- The switch of `tl880_set_samplerate`: the states of lines 8 and 9. -/
def rateStates (rate : Int) : Option (U8 × U8) :=
  if rate = 22050 then some (2, 2)
  else if rate = 32000 then some (0, 0)
  else if rate = 44100 then some (2, 0)
  else if rate = 48000 then some (0, 2)
  else if rate = 64000 then some (1, 0)
  else if rate = 72000 then some (2, 1)
  else if rate = 88200 then some (1, 1)
  else if rate = 96000 then some (1, 2)
  else none

/-- `tl880_set_samplerate` -/
def tl880SetSamplerate (cardType : U16) (rate : Int) (s : GpioState) : Int × GpioState :=
  match rateStates rate with
  | none => (-22, s)
  | some (state8, state9) =>
      (0, gpioCall cardType (gpioCall cardType s (8, state8)) (9, state9))

/-- The calls that a history consists of. -/
inductive ClockCall
  | setGpio (call : GpioCall)
  | setSamplingClock (rate : Int)
  | setSamplerate (rate : Int)

def clockCall (cardType : U16) (s : GpioState) : ClockCall → GpioState
  | .setGpio call => gpioCall cardType s call
  | .setSamplingClock rate => tl880SetSamplingClock cardType rate s
  | .setSamplerate rate => (tl880SetSamplerate cardType rate s).2

/-! ## The selection of the clock -/

/-- How a line is driven. -/
inductive LineDrive
  | low
  | high
  | released
deriving DecidableEq

/-- How the line at bit `i` of the registers is driven.  A line that is no output is
released, whatever its output bit is. -/
def lineDrive (r : RegSpace) (i : Nat) : LineDrive :=
  if r.bit 0x10194 i = false then .released
  else if r.bit 0x10198 i = true then .high
  else .low

/-- What selects the clock: the drive of lines 8 and 9, or their bits of OUTMUX. -/
inductive ClockSelect
  | lines (line8 line9 : LineDrive)
  | outmux (line8 line9 : Bool)
deriving DecidableEq

/-- The selection.  The bits of OUTMUX on an MDP-100A are those that
`tl880_set_sampling_clock` writes, on an MDP-120 or MDP-130 those of the lines. -/
def clockSelect (cardType : U16) (s : GpioState) : ClockSelect :=
  if cardType = cardMyhdMdp100a then
    .outmux ((s.vpx vpxFpOutmux).getLsbD 0) ((s.vpx vpxFpOutmux).getLsbD 1)
  else if LinesOnVpx cardType then
    .outmux ((s.vpx vpxFpOutmux).getLsbD 1) ((s.vpx vpxFpOutmux).getLsbD 7)
  else .lines (lineDrive s.regs 9) (lineDrive s.regs 0xf)

/-- A state that calls lead to from registers that are there. -/
def ClockReachable (cardType : U16) (s : GpioState) : Prop :=
  ∃ (start : GpioState) (history : List ClockCall), start.regs.mapped = true ∧
    s = history.foldl (clockCall cardType) start

/-- The rate selects the clock. -/
structure RateSelectsClock (cardType : U16) : Prop where
  byRate : ∀ rate s t, ClockReachable cardType s → ClockReachable cardType t →
    (tl880SetSamplerate cardType rate s).1 = 0 →
    clockSelect cardType (tl880SetSamplerate cardType rate s).2 =
      clockSelect cardType (tl880SetSamplerate cardType rate t).2
  distinct : ∀ rate rate' s t, ClockReachable cardType s → ClockReachable cardType t →
    rate ≠ rate' → (tl880SetSamplerate cardType rate s).1 = 0 →
    (tl880SetSamplerate cardType rate' t).1 = 0 →
    clockSelect cardType (tl880SetSamplerate cardType rate s).2 ≠
      clockSelect cardType (tl880SetSamplerate cardType rate' t).2
  unsupported : ∀ rate s, ClockReachable cardType s → rateStates rate = none →
    tl880SetSamplerate cardType rate s = (-22, s)

/-- The types of the MyHD cards that the driver detects. -/
def myhdCardTypes : List U16 :=
  [cardMyhdMdp100a, cardMyhdMdp100, cardMyhdMdp110, cardMyhdMdp120, cardMyhdMdp130]

/-! ## Lines that can be released -/

/-- What `setThreeState` makes of a line. -/
def stateDrive (state : U8) : LineDrive :=
  if state = 0 then .low else if state = 1 then .high else .released

/-- The line is driven as its state says, however it was driven before. -/
theorem lineDrive_setThreeState_self {r : RegSpace} (hmapped : r.mapped = true) {line : Nat}
    (hline : line < 32) (state : U8) :
    lineDrive (setThreeState line state r) line = stateDrive state := by
  have hdirection : ∀ value output : U32,
      (tl880WriteRegbits (tl880WriteRegbits r 0x10194 line line value) 0x10198 line line
        output).bit 0x10194 line = value.getLsbD 0 := by
    intro value output
    rw [RegSpace.bit_writeRegbits_ne _ hline (fun heq => absurd heq (by decide)),
      RegSpace.bit_writeRegbits_self hmapped (by decide) hline]
  have houtput : ∀ value output : U32,
      (tl880WriteRegbits (tl880WriteRegbits r 0x10194 line line value) 0x10198 line line
        output).bit 0x10198 line = output.getLsbD 0 := by
    intro value output
    exact RegSpace.bit_writeRegbits_self (by simpa using hmapped) (by decide) hline output
  unfold setThreeState stateDrive lineDrive
  by_cases h0 : state = 0
  · simp only [if_pos h0, hdirection, houtput]
    rfl
  by_cases h1 : state = 1
  · simp only [if_neg h0, if_pos h1, hdirection, houtput]
    rfl
  · have hreleased : (tl880WriteRegbits r 0x10194 line line 0).bit 0x10194 line = false :=
      RegSpace.bit_writeRegbits_self hmapped (by decide) hline 0
    simp only [if_neg h0, if_neg h1, if_pos hreleased]

/-- Other lines are driven as before. -/
theorem lineDrive_setThreeState_ne (r : RegSpace) {line i : Nat} (hline : line < 32)
    (hne : i ≠ line) (state : U8) :
    lineDrive (setThreeState line state r) i = lineDrive r i := by
  have hkept : ∀ reg, (setThreeState line state r).bit reg i = r.bit reg i := by
    intro reg
    unfold setThreeState
    split_ifs <;> simp only [RegSpace.bit_writeRegbits_ne _ hline fun _ => hne]
  rw [lineDrive, lineDrive, hkept, hkept]

/-! ## An MDP-100 or MDP-110 -/

/-- Calls leave the registers mapped. -/
theorem gpioCall_mapped (cardType : U16) (s : GpioState) (call : GpioCall) :
    (gpioCall cardType s call).regs.mapped = s.regs.mapped := by
  by_cases hvpx : LinesOnVpx cardType
  · by_cases hline : call.1 ≠ 0
    · rw [gpioCall_vpx hvpx hline]
    · rw [gpioCall_audio hvpx hline]
      unfold setGpioAudio
      split_ifs <;> simp
  · rw [gpioCall_regs hvpx]
    simp

theorem clockCall_mapped (cardType : U16) (s : GpioState) (call : ClockCall) :
    (clockCall cardType s call).regs.mapped = s.regs.mapped := by
  cases call with
  | setGpio call => exact gpioCall_mapped cardType s call
  | setSamplingClock rate =>
      simp only [clockCall]
      unfold tl880SetSamplingClock
      split_ifs <;> simp [gpioCall_mapped, GpioState.writeOutmux]
  | setSamplerate rate =>
      simp only [clockCall]
      unfold tl880SetSamplerate
      split <;> simp [gpioCall_mapped]

theorem ClockReachable.mapped {cardType : U16} {s : GpioState} (h : ClockReachable cardType s) :
    s.regs.mapped = true := by
  obtain ⟨start, history, hstart, heq⟩ := h
  rw [heq]
  clear heq
  induction history generalizing start with
  | nil => exact hstart
  | cons call history ih => exact ih _ (by rw [clockCall_mapped, hstart])

/-- Each supported rate with the states of its lines. -/
def rateTable : List (Int × U8 × U8) :=
  [(22050, 2, 2), (32000, 0, 0), (44100, 2, 0), (48000, 0, 2), (64000, 1, 0), (72000, 2, 1),
    (88200, 1, 1), (96000, 1, 2)]

theorem rateStates_mem {rate : Int} {states : U8 × U8} (h : rateStates rate = some states) :
    (rate, states) ∈ rateTable := by
  unfold rateStates at h
  unfold rateTable
  split_ifs at h with hrate hrate hrate hrate hrate hrate hrate hrate <;>
    rw [← Option.some.inj h, hrate] <;> decide

/-- No two rates drive the lines alike. -/
theorem rateTable_drives : ∀ a ∈ rateTable, ∀ b ∈ rateTable, a.1 ≠ b.1 →
    ClockSelect.lines (stateDrive a.2.1) (stateDrive a.2.2) ≠
      .lines (stateDrive b.2.1) (stateDrive b.2.2) := by
  decide

/-- A call that succeeds has a rate of the table. -/
theorem setSamplerate_ok {cardType : U16} {rate : Int} {s : GpioState}
    (hok : (tl880SetSamplerate cardType rate s).1 = 0) :
    ∃ states, rateStates rate = some states := by
  unfold tl880SetSamplerate at hok
  cases hrate : rateStates rate with
  | none =>
      simp only [hrate] at hok
      exact absurd hok (by decide)
  | some states => exact ⟨states, rfl⟩

/-- The lines are driven as the table says, whatever the state was. -/
theorem clockSelect_setSamplerate {cardType : U16}
    (hcard : cardType = cardMyhdMdp100 ∨ cardType = cardMyhdMdp110) {s : GpioState}
    (hmapped : s.regs.mapped = true) {rate : Int} {states : U8 × U8}
    (hrate : rateStates rate = some states) :
    clockSelect cardType (tl880SetSamplerate cardType rate s).2 =
      .lines (stateDrive states.1) (stateDrive states.2) := by
  have hregs : ∀ line state r, setGpioRegs cardType line state r = setGpioMdp100 line state r := by
    intro line state r
    rcases hcard with heq | heq <;> rw [heq] <;> rfl
  have hvpx : ¬ LinesOnVpx cardType := by
    rcases hcard with heq | heq <;> rw [heq] <;> decide
  have h100a : ¬ cardType = cardMyhdMdp100a := by
    rcases hcard with heq | heq <;> rw [heq] <;> decide
  have hafter : (tl880SetSamplerate cardType rate s).2.regs =
      setThreeState 0xf states.2 (setThreeState 9 states.1 s.regs) := by
    rw [tl880SetSamplerate, hrate]
    show (gpioCall _ (gpioCall _ s (8, states.1)) (9, states.2)).regs = _
    rw [gpioCall_regs hvpx, gpioCall_regs hvpx]
    simp only [hregs]
    rfl
  rw [clockSelect, if_neg h100a, if_neg hvpx, hafter,
    lineDrive_setThreeState_self (by simpa using hmapped) (by decide),
    lineDrive_setThreeState_ne _ (by decide) (by decide),
    lineDrive_setThreeState_self hmapped (by decide)]

/-- On such a card the rate selects the clock. -/
theorem rateSelectsClock_mdp100 {cardType : U16}
    (hcard : cardType = cardMyhdMdp100 ∨ cardType = cardMyhdMdp110) :
    RateSelectsClock cardType where
  byRate := by
    intro rate s t hs ht hok
    obtain ⟨states, hrate⟩ := setSamplerate_ok hok
    rw [clockSelect_setSamplerate hcard hs.mapped hrate,
      clockSelect_setSamplerate hcard ht.mapped hrate]
  distinct := by
    intro rate rate' s t hs ht hne hok hok'
    obtain ⟨states, hrate⟩ := setSamplerate_ok hok
    obtain ⟨states', hrate'⟩ := setSamplerate_ok hok'
    rw [clockSelect_setSamplerate hcard hs.mapped hrate,
      clockSelect_setSamplerate hcard ht.mapped hrate']
    exact rateTable_drives _ (rateStates_mem hrate) _ (rateStates_mem hrate') hne
  unsupported := by
    intro rate s _ hrate
    rw [tl880SetSamplerate, hrate]

/-! ## The other cards -/

/-- Registers that are there, with all bits clear and a value of OUTMUX. -/
def outmuxState (value : BitVec 12) : GpioState :=
  ⟨⟨true, fun _ => 0⟩, ⟨true, 0, fun _ => 0, []⟩, fun _ => value⟩

theorem clockReachable_outmuxState (cardType : U16) (value : BitVec 12) :
    ClockReachable cardType (outmuxState value) :=
  ⟨outmuxState value, [], rfl, rfl⟩

/-- On an MDP-100A lines 8 and 9 are nothing, so the call does nothing. -/
theorem setSamplerate_mdp100a (rate : Int) (s : GpioState) :
    (tl880SetSamplerate cardMyhdMdp100a rate s).2 = s := by
  unfold tl880SetSamplerate
  cases rateStates rate with
  | none => rfl
  | some states =>
      show gpioCall _ (gpioCall _ s (8, states.1)) (9, states.2) = s
      rw [gpioCall_outside (by decide : gpioGroup cardMyhdMdp100a (8 : U32).toNat = none),
        gpioCall_outside (by decide : gpioGroup cardMyhdMdp100a (9 : U32).toNat = none)]

/-- There the clock stays what it was. -/
theorem not_rateSelectsClock_mdp100a : ¬ RateSelectsClock cardMyhdMdp100a := by
  intro h
  have hsame := h.byRate 48000 _ _ (clockReachable_outmuxState _ 0)
    (clockReachable_outmuxState _ 1) rfl
  rw [setSamplerate_mdp100a, setSamplerate_mdp100a] at hsame
  exact absurd hsame (by decide)

/-- A line that is a bit of OUTMUX cannot be released: 22050 and 88200 are one rate. -/
theorem not_rateSelectsClock_vpx {cardType : U16} (hvpx : LinesOnVpx cardType) :
    ¬ RateSelectsClock cardType := by
  intro h
  refine h.distinct 22050 88200 _ _ (clockReachable_outmuxState _ 0)
    (clockReachable_outmuxState _ 0) (by decide) rfl rfl ?_
  rcases hvpx with heq | heq <;> rw [heq] <;> decide

/-! ## The cards whose rate selects the clock -/

/-- Among the MyHD cards these are the MDP-100 and the MDP-110. -/
theorem rateSelectsClock_iff (cardType : U16) (hmyhd : cardType ∈ myhdCardTypes) :
    RateSelectsClock cardType ↔ cardType = cardMyhdMdp100 ∨ cardType = cardMyhdMdp110 := by
  constructor
  · intro h
    simp only [myhdCardTypes, List.mem_cons, List.not_mem_nil, or_false] at hmyhd
    rcases hmyhd with heq | heq | heq | heq | heq
    · rw [heq] at h
      exact absurd h not_rateSelectsClock_mdp100a
    · exact Or.inl heq
    · exact Or.inr heq
    · exact absurd h (not_rateSelectsClock_vpx (Or.inl heq))
    · exact absurd h (not_rateSelectsClock_vpx (Or.inr heq))
  · exact rateSelectsClock_mdp100

/-- For an MDP-110. -/
theorem rateSelectsClock_iff_mdp110 :
    RateSelectsClock cardMyhdMdp110 ↔
      cardMyhdMdp110 = cardMyhdMdp100 ∨ cardMyhdMdp110 = cardMyhdMdp110 :=
  rateSelectsClock_iff cardMyhdMdp110 (by decide)

/-- On an MDP-120 the samples of 22050 Hz are played at 88200 Hz. -/
theorem rateSelectsClock_mdp120 :
    ¬ ∀ cardType ∈ myhdCardTypes, RateSelectsClock cardType := by
  intro h
  have h120 := h cardMyhdMdp120 (by decide)
  exact h120.distinct 22050 88200 _ _ (clockReachable_outmuxState _ 0)
    (clockReachable_outmuxState _ 0) (by decide) rfl rfl (by decide)

end Tl880
