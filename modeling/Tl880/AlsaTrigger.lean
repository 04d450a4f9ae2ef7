import Tl880.AlsaPeriods
import Tl880.Interrupt

/-!
# The trigger position

Register 0x3030 is moved by two handlers: the polling timer function of the ALSA driver,
which goes to the next period, and `tl880_ntsc_audio_dpc`, which the bottom half calls for
an APU interrupt and which changes between the start and the middle of the buffer.
Nothing keeps one from running during the other, so a step of the system is one register
access of one of them.  Each of the two has one call at a time: the timer function holds
the stream's lock, and a tasklet does not run beside itself.  What the timer function does
after its last access is part of that access.

The middle is computed from the end register, which `snd_card_tl880_pcm_prepare` sets 0x20
below the end of the buffer, so it is 0x10 below the boundary of the two periods.
-/

namespace Tl880

open LabelledRun

/-! ## The accesses -/

/-- Where the timer function stands, and what it has read. -/
inductive TimerPc
  | idle
  | started (reg3020 : U32)
  | sampled (reg3020 reg302c : U32)
  | loaded (reg3020 reg302c reg3030 : U32)

/-- Where `tl880_ntsc_audio_dpc` stands, and what it has read. -/
inductive DpcPc
  | idle
  | trigger (trigger : U32)
  | started (trigger bufStart : U32)
  | loaded (trigger bufStart bufEnd : U32)

/-- The stream and the two handlers. -/
structure TriggerSystem where
  dev : AlsaDev
  timer : TimerPc
  dpc : DpcPc

/-- The hardware is at a position. -/
def AlsaDev.movePosition (d : AlsaDev) (position : U32) : AlsaDev :=
  { d with regs := { d.regs with cell := Function.update d.regs.cell 0x302c position } }

/-- The timer function after its reads.  The end of the buffer, which it reads as well, is
only printed. -/
def timerLoaded (reg3020 reg302c reg3030 : U32) (d : AlsaDev) : AlsaDev :=
  if d.pcm.bufferPos + d.pcm.periodSize < reg302c ∨ reg302c < d.lastreg302c then
    let reg3030 := reg3030 + d.pcm.periodSize
    let reg3030 :=
      if reg3020 + d.pcm.periodSize * d.pcm.periodCount ≤ reg3030 then reg3020 else reg3030
    let bufferPos := d.pcm.bufferPos + d.pcm.periodSize
    let bufferPos :=
      if reg3020 + d.pcm.periodSize * (d.pcm.periodCount - 1) ≤ bufferPos then reg3020
      else bufferPos
    { d.write 0x3030 reg3030 with
      pcm := { d.pcm with bufferPos := bufferPos }
      periodElapsed := d.periodElapsed + 1
      lastreg302c := reg302c }
  else { d with lastreg302c := reg302c }

/-- The write of `tl880_ntsc_audio_dpc`. -/
def dpcLoaded (trigger bufStart bufEnd : U32) (d : AlsaDev) : AlsaDev :=
  if trigger = bufStart then d.write 0x3030 ((bufStart + bufEnd) / 2)
  else d.write 0x3030 bufStart

/-- The next access of the timer function, which finds the hardware at a position when it
samples it. -/
def timerAccess (position : U32) (s : TriggerSystem) : TriggerSystem :=
  match s.timer with
  | .idle => { s with timer := .started (s.dev.read 0x3020) }
  | .started reg3020 =>
      let d := s.dev.movePosition position
      { s with dev := d, timer := .sampled reg3020 (d.read 0x302c) }
  | .sampled reg3020 reg302c =>
      { s with timer := .loaded reg3020 reg302c (s.dev.read 0x3030) }
  | .loaded reg3020 reg302c reg3030 =>
      { s with dev := timerLoaded reg3020 reg302c reg3030 s.dev, timer := .idle }

/-- The next access of `tl880_ntsc_audio_dpc`. -/
def dpcAccess (s : TriggerSystem) : TriggerSystem :=
  match s.dpc with
  | .idle => { s with dpc := .trigger (s.dev.read 0x3030) }
  | .trigger trigger => { s with dpc := .started trigger (s.dev.read 0x3020) }
  | .started trigger bufStart => { s with dpc := .loaded trigger bufStart (s.dev.read 0x3024) }
  | .loaded trigger bufStart bufEnd =>
      { s with dev := dpcLoaded trigger bufStart bufEnd s.dev, dpc := .idle }

/-- Whose access is next. -/
inductive TriggerEvent
  | timer (position : U32)
  | dpc

def triggerStep (s : TriggerSystem) : TriggerEvent → Option TriggerSystem
  | .timer position => some (timerAccess position s)
  | .dpc => some (dpcAccess s)

/-- A stream that has been prepared, on a card with any register contents. -/
def TriggerSystem.prepared (params : HwParams) (pcm : SndTl880Pcm) (cell : U32 → U32)
    (lastreg302c : U32) : TriggerSystem where
  dev := sndCardTl880PcmPrepare params ⟨pcm, ⟨true, cell⟩, lastreg302c, 0⟩
  timer := .idle
  dpc := .idle

/-- A boundary of a period of the ring. -/
def OnGrid (params : HwParams) (reg : U32) : Prop :=
  ∃ k < params.periods.toNat, reg.toNat = 0x1000 + k * params.periodBytes.toNat

/-- The trigger position is on a boundary. -/
def TriggerSystem.OnGrid (params : HwParams) (s : TriggerSystem) : Prop :=
  Tl880.OnGrid params (s.dev.read 0x3030)

/-- An access after which the trigger position stays on the boundaries: any but the write
of a `tl880_ntsc_audio_dpc` that has found it at the start of the buffer. -/
def KeepsGrid (s : TriggerSystem) : TriggerEvent → Prop
  | .timer _ => True
  | .dpc =>
      match s.dpc with
      | .loaded trigger bufStart _ => trigger ≠ bufStart
      | _ => True

/-! ## Handlers that are not interrupted -/

/-- Other registers do not move. -/
theorem AlsaDev.read_movePosition (d : AlsaDev) (position : U32) {reg : U32}
    (hne : reg ≠ 0x302c) : (d.movePosition position).read reg = d.read reg := by
  unfold AlsaDev.read AlsaDev.movePosition tl880ReadRegister
  simp only [Function.update_of_ne hne]

/-- The timer function is its reads and what follows. -/
theorem timerFunction_eq (d : AlsaDev) :
    sndCardTl880PcmTimerFunction d =
      timerLoaded (d.read 0x3020) (d.read 0x302c) (d.read 0x3030) d := rfl

/-- Four accesses of the timer function in a row are a call of it. -/
theorem run_timer {s : TriggerSystem} (hidle : s.timer = .idle) (position : U32) :
    run triggerStep s (List.replicate 4 (.timer position)) =
      some { s with
        dev := sndCardTl880PcmTimerFunction (s.dev.movePosition position)
        timer := .idle } := by
  rw [timerFunction_eq, s.dev.read_movePosition position (by decide)]
  obtain ⟨dev, timer, dpc⟩ := s
  cases hidle
  rfl

/-- `tl880_ntsc_audio_dpc` is its reads and what follows. -/
theorem ntscAudioDpc_eq {d : AlsaDev} {i : IntDev} (hregs : i.regs = d.regs) :
    { d with regs := (tl880NtscAudioDpc i).regs } =
      dpcLoaded (d.read 0x3030) (d.read 0x3020) (d.read 0x3024) d := by
  unfold tl880NtscAudioDpc dpcLoaded IntDev.read IntDev.write AlsaDev.read AlsaDev.write
  rw [hregs]
  dsimp only
  split_ifs <;> rfl

/-- Four accesses of `tl880_ntsc_audio_dpc` in a row are a call of it. -/
theorem run_dpc {s : TriggerSystem} (hidle : s.dpc = .idle) {i : IntDev}
    (hregs : i.regs = s.dev.regs) :
    run triggerStep s (List.replicate 4 .dpc) =
      some { s with
        dev := { s.dev with regs := (tl880NtscAudioDpc i).regs }, dpc := .idle } := by
  rw [ntscAudioDpc_eq hregs]
  obtain ⟨dev, timer, dpc⟩ := s
  cases hidle
  rfl

/-! ## Boundaries -/

section Boundaries

variable {params : HwParams}

/-- There are two boundaries. -/
theorem onGrid_iff (reg : U32) :
    OnGrid params reg ↔
      reg.toNat = 0x1000 ∨ reg.toNat = 0x1000 + params.periodBytes.toNat := by
  have hperiods : params.periods.toNat = 2 := congrArg BitVec.toNat params.periods_eq
  unfold OnGrid
  rw [hperiods]
  constructor
  · rintro ⟨k, hk, heq⟩
    have hcases : k = 0 ∨ k = 1 := by omega
    rcases hcases with hk | hk <;> rw [hk] at heq <;> omega
  · rintro (heq | heq)
    · exact ⟨0, by omega, by omega⟩
    · exact ⟨1, by omega, by omega⟩

theorem onGrid_start : OnGrid params 0x1000 := (onGrid_iff _).mpr (Or.inl rfl)

/-- The bytes of the buffer, as the code computes them. -/
theorem toNat_bufferBytes :
    (params.periodBytes * params.periods).toNat = 2 * params.periodBytes.toNat := by
  have hmax : params.periodBytes.toNat ≤ 0x40000 := params.periodBytes_max
  rw [params.periods_eq, BitVec.toNat_mul]
  show params.periodBytes.toNat * 2 % 2 ^ 32 = _
  omega

/-- The end of the buffer, in which nothing wraps. -/
theorem toNat_bufferEnd :
    (0x1000 + params.periodBytes * params.periods : U32).toNat =
      0x1000 + 2 * params.periodBytes.toNat := by
  have hmax : params.periodBytes.toNat ≤ 0x40000 := params.periodBytes_max
  have hbytes : (params.periodBytes * params.periods).toNat = 2 * params.periodBytes.toNat :=
    toNat_bufferBytes
  rw [BitVec.toNat_add, hbytes]
  show (0x1000 + 2 * params.periodBytes.toNat) % 2 ^ 32 = _
  omega

/-- The timer function goes from boundary to boundary. -/
theorem OnGrid.next {reg : U32} (h : OnGrid params reg) :
    OnGrid params (if 0x1000 + params.periodBytes * params.periods ≤ reg + params.periodBytes
      then 0x1000 else reg + params.periodBytes) := by
  have hmin : 0x4000 ≤ params.periodBytes.toNat := params.periodBytes_min
  have hmax : params.periodBytes.toNat ≤ 0x40000 := params.periodBytes_max
  have hbound : reg.toNat < 0x1000 + 2 * params.periodBytes.toNat := by
    rcases (onGrid_iff reg).mp h with heq | heq <;> omega
  have hsum : (reg + params.periodBytes).toNat = reg.toNat + params.periodBytes.toNat := by
    rw [BitVec.toNat_add]
    omega
  split_ifs with hend
  · exact onGrid_start
  · rw [BitVec.le_def, toNat_bufferEnd, hsum] at hend
    rw [onGrid_iff, hsum]
    rcases (onGrid_iff reg).mp h with heq | heq <;> omega

/-- The middle of the registers is no boundary. -/
theorem not_onGrid_middle :
    ¬ OnGrid params
      ((0x1000 + (0x1000 + params.periodBytes * params.periods - 0x20)) / 2) := by
  have hmin : 0x4000 ≤ params.periodBytes.toNat := params.periodBytes_min
  have hmax : params.periodBytes.toNat ≤ 0x40000 := params.periodBytes_max
  have hend : (0x1000 + params.periodBytes * params.periods - 0x20 : U32).toNat =
      0xfe0 + 2 * params.periodBytes.toNat := by
    rw [BitVec.toNat_sub, toNat_bufferEnd]
    show (2 ^ 32 - 0x20 + (0x1000 + 2 * params.periodBytes.toNat)) % 2 ^ 32 = _
    omega
  have hmiddle : ((0x1000 + (0x1000 + params.periodBytes * params.periods - 0x20)) / 2 :
      U32).toNat = 0xff0 + params.periodBytes.toNat := by
    rw [BitVec.toNat_udiv, BitVec.toNat_add, hend]
    show (0x1000 + (0xfe0 + 2 * params.periodBytes.toNat)) % 2 ^ 32 / 2 = _
    omega
  rw [onGrid_iff, hmiddle]
  omega

end Boundaries

/-! ## The invariant -/

/-- The registers hold the buffer, and the trigger position is on a boundary. -/
structure GridDev (params : HwParams) (d : AlsaDev) : Prop where
  periodSize : d.pcm.periodSize = params.periodBytes
  periodCount : d.pcm.periodCount = params.periods
  mapped : d.regs.mapped = true
  bufStart : d.read 0x3020 = 0x1000
  bufEnd : d.read 0x3024 = 0x1000 + params.periodBytes * params.periods - 0x20
  onGrid : OnGrid params (d.read 0x3030)

namespace GridDev

variable {params : HwParams} {d : AlsaDev}

/-- The trigger position can go to any boundary. -/
theorem write (h : GridDev params d) {value : U32} (hvalue : OnGrid params value) :
    GridDev params (d.write 0x3030 value) where
  periodSize := h.periodSize
  periodCount := h.periodCount
  mapped := (tl880WriteRegister_mapped _ _ _).trans h.mapped
  bufStart := (tl880ReadRegister_write_ne _ (by decide) _).trans h.bufStart
  bufEnd := (tl880ReadRegister_write_ne _ (by decide) _).trans h.bufEnd
  onGrid := by
    rw [AlsaDev.read, AlsaDev.write, tl880ReadRegister_write_self h.mapped (by decide)]
    exact hvalue

theorem movePosition (h : GridDev params d) (position : U32) :
    GridDev params (d.movePosition position) where
  periodSize := h.periodSize
  periodCount := h.periodCount
  mapped := h.mapped
  bufStart := (d.read_movePosition position (by decide)).trans h.bufStart
  bufEnd := (d.read_movePosition position (by decide)).trans h.bufEnd
  onGrid := by
    rw [d.read_movePosition position (by decide)]
    exact h.onGrid

/-- The timer function takes a boundary it has read to a boundary. -/
theorem timerLoaded (h : GridDev params d) (reg302c : U32) {reg3030 : U32}
    (hloaded : OnGrid params reg3030) :
    GridDev params (timerLoaded 0x1000 reg302c reg3030 d) := by
  have hnext : OnGrid params
      (if 0x1000 + d.pcm.periodSize * d.pcm.periodCount ≤ reg3030 + d.pcm.periodSize
        then 0x1000 else reg3030 + d.pcm.periodSize) := by
    rw [h.periodSize, h.periodCount]
    exact hloaded.next
  have hwritten := h.write hnext
  unfold Tl880.timerLoaded
  split_ifs
  · exact ⟨h.periodSize, h.periodCount, hwritten.mapped, hwritten.bufStart, hwritten.bufEnd,
      hwritten.onGrid⟩
  · exact ⟨h.periodSize, h.periodCount, h.mapped, h.bufStart, h.bufEnd, h.onGrid⟩

end GridDev

/-- The handlers have read such values, too. -/
structure Gridded (params : HwParams) (s : TriggerSystem) : Prop where
  dev : GridDev params s.dev
  timer : match s.timer with
    | .idle => True
    | .started reg3020 => reg3020 = 0x1000
    | .sampled reg3020 _ => reg3020 = 0x1000
    | .loaded reg3020 _ reg3030 => reg3020 = 0x1000 ∧ OnGrid params reg3030
  dpc : match s.dpc with
    | .idle => True
    | .trigger _ => True
    | .started _ bufStart => bufStart = 0x1000
    | .loaded _ bufStart bufEnd => bufStart = 0x1000 ∧
        bufEnd = 0x1000 + params.periodBytes * params.periods - 0x20

namespace Gridded

variable {params : HwParams} {s : TriggerSystem}

/-- An access of the timer function keeps the grid. -/
theorem timerAccess (h : Gridded params s) (position : U32) :
    Gridded params (timerAccess position s) := by
  obtain ⟨dev, timer, dpc⟩ := s
  obtain ⟨hdev, htimer, hdpc⟩ := h
  cases timer with
  | idle => exact ⟨hdev, hdev.bufStart, hdpc⟩
  | started reg3020 => exact ⟨hdev.movePosition position, htimer, hdpc⟩
  | sampled reg3020 reg302c => exact ⟨hdev, ⟨htimer, hdev.onGrid⟩, hdpc⟩
  | loaded reg3020 reg302c reg3030 =>
      obtain ⟨hstart, hloaded⟩ := htimer
      refine ⟨?_, trivial, hdpc⟩
      show GridDev params (timerLoaded reg3020 reg302c reg3030 dev)
      rw [hstart]
      exact hdev.timerLoaded reg302c hloaded

/-- An access of `tl880_ntsc_audio_dpc` keeps the grid exactly when it is allowed. -/
theorem dpcAccess_iff (h : Gridded params s) :
    (dpcAccess s).OnGrid params ↔ KeepsGrid s .dpc := by
  obtain ⟨dev, timer, dpc⟩ := s
  obtain ⟨hdev, htimer, hdpc⟩ := h
  cases dpc with
  | idle => exact iff_of_true hdev.onGrid trivial
  | trigger trigger => exact iff_of_true hdev.onGrid trivial
  | started trigger bufStart => exact iff_of_true hdev.onGrid trivial
  | loaded trigger bufStart bufEnd =>
      obtain ⟨hstart, hend⟩ := hdpc
      have hread : ∀ value, (dev.write 0x3030 value).read 0x3030 = value := fun value =>
        tl880ReadRegister_write_self hdev.mapped (by decide) value
      show OnGrid params ((dpcLoaded trigger bufStart bufEnd dev).read 0x3030) ↔
        trigger ≠ bufStart
      unfold dpcLoaded
      split_ifs with hsame
      · rw [hread, hstart, hend]
        exact iff_of_false not_onGrid_middle (not_not.mpr (hsame.trans hstart))
      · rw [hread, hstart]
        exact iff_of_true onGrid_start (hstart ▸ hsame)

/-- An allowed access of `tl880_ntsc_audio_dpc` keeps the rest as well. -/
theorem dpcAccess (h : Gridded params s) (hok : KeepsGrid s .dpc) :
    Gridded params (dpcAccess s) := by
  obtain ⟨dev, timer, dpc⟩ := s
  obtain ⟨hdev, htimer, hdpc⟩ := h
  cases dpc with
  | idle => exact ⟨hdev, htimer, trivial⟩
  | trigger trigger => exact ⟨hdev, htimer, hdev.bufStart⟩
  | started trigger bufStart => exact ⟨hdev, htimer, hdpc, hdev.bufEnd⟩
  | loaded trigger bufStart bufEnd =>
      refine ⟨?_, htimer, trivial⟩
      show GridDev params (dpcLoaded trigger bufStart bufEnd dev)
      rw [dpcLoaded, if_neg hok, hdpc.1]
      exact hdev.write onGrid_start

theorem step (h : Gridded params s) {s' : TriggerSystem} {event : TriggerEvent}
    (hok : KeepsGrid s event) (hstep : triggerStep s event = some s') : Gridded params s' := by
  cases event with
  | timer position =>
      rw [← Option.some.inj hstep]
      exact h.timerAccess position
  | dpc =>
      rw [← Option.some.inj hstep]
      exact h.dpcAccess hok

end Gridded

/-- `snd_card_tl880_pcm_prepare` puts the trigger position on a boundary. -/
theorem gridDev_prepare (params : HwParams) {d : AlsaDev} (hmapped : d.regs.mapped = true) :
    GridDev params (sndCardTl880PcmPrepare params d) := by
  have hmax : params.periodBytes.toNat ≤ 0x40000 := params.periodBytes_max
  have htrigger : (sndCardTl880PcmPrepare params d).read 0x3030 = 0x1000 + params.periodBytes :=
    tl880ReadRegister_write_self (by simp [AlsaDev.write, hmapped]) (by decide) _
  refine ⟨rfl, rfl, ?_, ?_, ?_, ?_⟩
  · simp [sndCardTl880PcmPrepare, AlsaDev.write, hmapped]
  · simp [sndCardTl880PcmPrepare, AlsaDev.write, AlsaDev.read, hmapped,
      tl880ReadRegister_write_ne, tl880ReadRegister_write_self]
  · simp [sndCardTl880PcmPrepare, AlsaDev.write, AlsaDev.read, hmapped,
      tl880ReadRegister_write_ne, tl880ReadRegister_write_self]
  · rw [htrigger, onGrid_iff, BitVec.toNat_add]
    right
    show (0x1000 + params.periodBytes.toNat) % 2 ^ 32 = _
    omega

theorem gridded_prepared (params : HwParams) (pcm : SndTl880Pcm) (cell : U32 → U32)
    (lastreg302c : U32) :
    Gridded params (TriggerSystem.prepared params pcm cell lastreg302c) :=
  ⟨gridDev_prepare params rfl, trivial, trivial⟩

/-! ## The exact condition -/

/-- After `snd_card_tl880_pcm_prepare` the trigger position is on the boundaries of the ring in
every state of a run exactly when no `tl880_ntsc_audio_dpc` writes that has found it at
the start of the buffer. -/
theorem triggerOnGrid_iff (params : HwParams) (pcm : SndTl880Pcm) (cell : U32 → U32)
    (lastreg302c : U32) (events : List TriggerEvent) :
    AllStates triggerStep (TriggerSystem.OnGrid params)
        (TriggerSystem.prepared params pcm cell lastreg302c) events ↔
      AllSteps triggerStep KeepsGrid (TriggerSystem.prepared params pcm cell lastreg302c)
        events := by
  apply allStates_iff_allSteps (fun s event s' h hok hstep => Gridded.step h hok hstep)
    (fun s h => h.dev.onGrid) _ (gridded_prepared params pcm cell lastreg302c)
  intro s event s' h hstep hgood
  cases event with
  | timer position => trivial
  | dpc =>
      rw [← Option.some.inj hstep] at hgood
      exact h.dpcAccess_iff.mp hgood

/-- After two APU interrupts the trigger position is 0x4ff0, which is 0x10 below the boundary
of two periods of 0x4000 bytes. -/
theorem triggerOnGrid_middle : ¬ ∀ (params : HwParams) (pcm : SndTl880Pcm) (cell : U32 → U32)
    (lastreg302c : U32) (events : List TriggerEvent),
    AllStates triggerStep (TriggerSystem.OnGrid params)
      (TriggerSystem.prepared params pcm cell lastreg302c) events := by
  intro h
  have hstates := h smallestPeriod ⟨0, 0, 0, 0⟩ (fun _ => 0) 0 (List.replicate 8 .dpc)
  have hlast := (onGrid_iff _).mp (hstates.last rfl)
  exact absurd hlast (by decide)

end Tl880
