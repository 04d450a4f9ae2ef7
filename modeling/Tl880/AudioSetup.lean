import Tl880.Lib.LabelledRun
import Tl880.Device
import Tl880.SampleRate

/-!
# Setting up the audio unit

The model of `tl880_init_hardware_audio`, `tl880_deinit_hardware_audio` and the
`tl880_apu_` functions of `driver/tl880audio.c`.  What the memory pool and `kmalloc` answer
stands in the call, and the pool itself is left out.

Three registers are written whose numbers are fields of the device.
`tl880_apu_init_iau_reg` sets the fields, and `tl880_create_dev` leaves them 0.
`tl880_init_hardware_audio` calls `tl880_apu_init_ioc`, which writes the three registers,
before it calls `tl880_apu_init_iau_reg`; before the first call of that kind the writes
go to the interrupt register 0.
-/

namespace Tl880

open LabelledRun

/-! ## Cross fading -/

/-- The three registers that `tl880_audio_set_crossfade` writes for its argument `a`. -/
def crossfadeRegs (a : Int) : Option (U32 × U32 × U32) :=
  if a = 0 then some (0x305c, 0x3060, 0x3064)
  else if a = 1 then some (0x3068, 0x306c, 0x3070)
  else if a = 2 then some (0x3074, 0x3078, 0x307c)
  else none

/-- A register with one of its halves replaced: the lower one if `b` is 0. -/
def crossfadeWord (value : U32) (b : Int) (high low : U8) : U32 :=
  let high : U32 := high.setWidth 32
  let low : U32 := low.setWidth 32
  if b = 0 then (value &&& 0xffff0000) ||| (high <<< 8) ||| low
  else (high <<< 24) ||| (low <<< 16) ||| (value &&& 0xffff)

namespace DevRegs

/-- `tl880_audio_set_crossfade` -/
def tl880AudioSetCrossfade (card : DevRegs) (a b : Int) (c d e f g h : U8) : DevRegs :=
  match crossfadeRegs a with
  | none => card
  | some (r0, r1, r2) =>
      if b = 0 ∨ b = 1 then
        card.writeAll [(r0, crossfadeWord (tl880ReadRegister card.regs r0) b d c),
          (r1, crossfadeWord (tl880ReadRegister card.regs r1) b f e),
          (r2, crossfadeWord (tl880ReadRegister card.regs r2) b h g)]
      else card

/-! ## The audio unit -/

/-- `tl880_apu_init_ioc` -/
def tl880ApuInitIoc (d : DevRegs) : DevRegs :=
  d.writeAll [(0x3058, 0), (0x3008, 0), (0x3004, 0), (0x3000, 0), (d.dev.iauIbaReg, 0),
    (d.dev.iauIeaReg, 0), (d.dev.iauIraReg, 0)]

/-- `tl880_apu_start_ioc` -/
def tl880ApuStartIoc (d : DevRegs) : DevRegs :=
  let d := match d.dev.audioMode with
    | .zero => d.writeAll [(0x3058, 0xc301), (0x3004, 0x10001)]
    | .one => d.writeAll [(0x3058, 0xc3000010), (0x3004, 0x100001)]
    | .two => d
  let d := d.write 0x3000 0x01240000
  let d := d.tl880AudioSetCrossfade 0 0 0xc3 0 0 0 0 0
  let d := d.tl880AudioSetCrossfade 0 1 0 0xc3 0 0 0 0
  let d := d.tl880AudioSetCrossfade 1 0 0 0 0xc3 0 0 0
  let d := d.tl880AudioSetCrossfade 1 1 0 0 0 0xc3 0 0
  let d := d.tl880AudioSetCrossfade 2 0 0 0 0 0 0xc3 0
  let d := d.tl880AudioSetCrossfade 2 1 0 0 0 0 0 0xc3
  if d.dev.audioMode = .one then
    d.writeAll [(0x300c, 0x2000002), (0x3010, 0x2000002), (0x3008, 0x5479)]
  else d

/-- `tl880_apu_stop_ioc` -/
def tl880ApuStopIoc (d : DevRegs) : DevRegs := d.tl880ApuInitIoc

/-- The three registers get a value each. -/
def writeIau (d : DevRegs) (iba iea ira : U32) : DevRegs :=
  d.writeAll [(d.dev.iauIbaReg, iba), (d.dev.iauIeaReg, iea), (d.dev.iauIraReg, ira)]

def setIauRegs (d : DevRegs) (iba iea ira : U32) : DevRegs :=
  d.setDev fun dev => { dev with iauIbaReg := iba, iauIeaReg := iea, iauIraReg := ira }

def setAudioMode (d : DevRegs) (audioMode : AudioMode) : DevRegs :=
  d.setDev fun dev => { dev with audioMode := audioMode }

def setIauBase (d : DevRegs) (iauBase : U32) : DevRegs :=
  d.setDev fun dev => { dev with iauBase := iauBase }

def setIecBuf (d : DevRegs) (iecBuf : U64) : DevRegs :=
  d.setDev fun dev => { dev with iecBuf := iecBuf }

/-- The buffer is allocated if there is none. -/
def allocIecBuf (d : DevRegs) (iecBuf : U64) : DevRegs :=
  if d.dev.iecBuf = 0 then d.setIecBuf iecBuf else d

end DevRegs

/-- A card with its memory and its VPX. -/
structure AudioCard where
  card : DevRegs
  mem : CardMem
  vpx : FpFile

namespace AudioCard

/-- The writes of `tl880_apu_init_iau_reg`. -/
def writeIauRegs (s : AudioCard) : AudioCard :=
  let base := s.card.dev.iauBase
  { s with
    card := s.card.writeIau base (base + 0x77fc) base
    -- 0x1e00 rounds
    mem := tl880ClearSdram 0x1e01 s.mem base (base + 0x7800) 0 }

/-- `tl880_apu_init_iau_reg` -/
def tl880ApuInitIauReg (s : AudioCard) : AudioCard :=
  match s.card.dev.audioMode with
  | .zero => writeIauRegs { s with card := s.card.setIauRegs 0x3034 0x303c 0x3038 }
  | .one => writeIauRegs { s with card := s.card.setIauRegs 0x304c 0x3054 0x3050 }
  | .two => s

/-- `tl880_set_sampling_clock`, whose writes are not counted among those of the card. -/
def setSamplingClock (s : AudioCard) (rate : Int) : AudioCard :=
  let lines := tl880SetSamplingClock s.card.dev.cardType rate ⟨s.card.regs, s.mem, s.vpx⟩
  ⟨{ s.card with regs := lines.regs }, lines.mem, lines.vpx⟩

/-- `tl880_init_hardware_audio` where there is a buffer. -/
def initAudioBuffer (s : AudioCard) (iecBuf : U64) : AudioCard :=
  let d := (s.card.allocIecBuf iecBuf).tl880ApuInitIoc
  (tl880ApuInitIauReg { s with card := d }).setSamplingClock 1

/-- `tl880_init_hardware_audio`; `allocated` is what `tl880_alloc_memory` returns, and
`iecBuf` what `kmalloc` does. -/
def tl880InitHardwareAudio (s : AudioCard) (audioMode : AudioMode) (allocated iecBuf : U64) :
    AudioCard :=
  let d := s.card.setAudioMode audioMode
  if s.card.dev.iauBase = 0 then
    let iauBase : U32 := allocated.setWidth 32
    if iauBase = 0 then { s with card := d.setIauBase iauBase }
    else initAudioBuffer { s with card := d.setIauBase iauBase } iecBuf
  else initAudioBuffer { s with card := d } iecBuf

/-- `tl880_deinit_hardware_audio` -/
def tl880DeinitHardwareAudio (s : AudioCard) : AudioCard :=
  { s with card := ((s.card.tl880ApuStopIoc.writeIau 0 0 0).setIauBase 0).setIecBuf 0 }

end AudioCard

/-- The calls of a history. -/
inductive AudioCall
  | initHardwareAudio (audioMode : AudioMode) (allocated iecBuf : U64)
  | apuStartIoc
  | apuStopIoc
  | deinitHardwareAudio

def audioCall (s : AudioCard) : AudioCall → Option AudioCard
  | .initHardwareAudio audioMode allocated iecBuf =>
      some (s.tl880InitHardwareAudio audioMode allocated iecBuf)
  | .apuStartIoc => some { s with card := s.card.tl880ApuStartIoc }
  | .apuStopIoc => some { s with card := s.card.tl880ApuStopIoc }
  | .deinitHardwareAudio => some s.tl880DeinitHardwareAudio

/-- The card that `tl880_create_dev` leaves, with nothing written. -/
def createdCard (tlMajor : U32) (memory : Tl880Dev) (regs : RegSpace) (mem : CardMem)
    (vpx : FpFile) : AudioCard :=
  ⟨⟨tl880CreateDev tlMajor memory, regs, []⟩, mem, vpx⟩

/-- A register of the audio unit. -/
def AudioRegister (reg : U32) : Prop := 0x3000 ≤ reg ∧ reg ≤ 0x307c

instance (reg : U32) : Decidable (AudioRegister reg) := inferInstanceAs (Decidable (_ ∧ _))

/-- All writes were to registers of the audio unit. -/
def DevRegs.Confined (d : DevRegs) : Prop := ∀ w ∈ d.writes, AudioRegister w.1

/-- The three fields are registers of the audio unit. -/
def Tl880Dev.IauAudio (dev : Tl880Dev) : Prop :=
  AudioRegister dev.iauIbaReg ∧ AudioRegister dev.iauIeaReg ∧ AudioRegister dev.iauIraReg

/-- The three fields have been set. -/
def Tl880Dev.IauSet (dev : Tl880Dev) : Prop :=
  dev.iauIbaReg ≠ 0 ∧ dev.iauIeaReg ≠ 0 ∧ dev.iauIraReg ≠ 0

/-- The calls that write no register of another unit: one that starts the unit, one whose
allocation fails, and any call once the three fields have been set.  In a run from creation all of
whose calls are like that the fields are never set, as the set-up that sets them would write
before it does. -/
def AudioCallOk (s : AudioCard) : AudioCall → Prop
  | .initHardwareAudio _ allocated _ =>
      s.card.dev.iauBase = 0 ∧ allocated.setWidth 32 = (0 : U32) ∨ s.card.dev.IauSet
  | .apuStartIoc => True
  | .apuStopIoc => s.card.dev.IauSet
  | .deinitHardwareAudio => s.card.dev.IauSet

/-! ## Where the writes are -/

namespace DevRegs

theorem confined_write (d : DevRegs) (reg value : U32) :
    (d.write reg value).Confined ↔ d.Confined ∧ AudioRegister reg := by
  unfold Confined
  rw [write_writes, List.forall_mem_append, List.forall_mem_singleton]

theorem confined_setIauBase (d : DevRegs) (iauBase : U32) :
    (d.setIauBase iauBase).Confined ↔ d.Confined := Iff.rfl

theorem confined_setIecBuf (d : DevRegs) (iecBuf : U64) :
    (d.setIecBuf iecBuf).Confined ↔ d.Confined := Iff.rfl

/-- Writes to registers of the audio unit. -/
theorem confined_writeAll (d : DevRegs) {ws : List (U32 × U32)}
    (h : ws.all (fun w => decide (AudioRegister w.1)) = true) :
    (d.writeAll ws).Confined ↔ d.Confined := by
  unfold Confined
  rw [writeAll_writes, List.forall_mem_append, and_iff_left]
  intro w hw
  exact of_decide_eq_true (List.all_eq_true.mp h w hw)

theorem crossfadeRegs_audio {a : Int} {regs : U32 × U32 × U32}
    (h : crossfadeRegs a = some regs) :
    AudioRegister regs.1 ∧ AudioRegister regs.2.1 ∧ AudioRegister regs.2.2 := by
  unfold crossfadeRegs at h
  split_ifs at h <;> rw [← Option.some.inj h] <;> decide

/-- Cross fading writes registers of the audio unit. -/
theorem confined_setCrossfade (card : DevRegs) (a b : Int) (c d e f g h : U8) :
    (card.tl880AudioSetCrossfade a b c d e f g h).Confined ↔ card.Confined := by
  unfold tl880AudioSetCrossfade
  cases hregs : crossfadeRegs a with
  | none => exact Iff.rfl
  | some regs =>
      obtain ⟨h0, h1, h2⟩ := crossfadeRegs_audio hregs
      dsimp only
      split_ifs
      · apply confined_writeAll
        simp [h0, h1, h2]
      · exact Iff.rfl

@[simp] theorem setCrossfade_dev (card : DevRegs) (a b : Int) (c d e f g h : U8) :
    (card.tl880AudioSetCrossfade a b c d e f g h).dev = card.dev := by
  unfold tl880AudioSetCrossfade
  cases crossfadeRegs a with
  | none => rfl
  | some regs =>
      dsimp only
      split_ifs <;> simp

/-- Starting the unit writes registers of the unit. -/
theorem confined_apuStartIoc (d : DevRegs) : d.tl880ApuStartIoc.Confined ↔ d.Confined := by
  have hwrite : ∀ d : DevRegs, (d.write 0x3000 0x01240000).Confined ↔ d.Confined := by
    intro d
    rw [confined_write, and_iff_left (by decide)]
  have hmode : ∀ m : AudioMode, (match m with
      | .zero => d.writeAll [(0x3058, 0xc301), (0x3004, 0x10001)]
      | .one => d.writeAll [(0x3058, 0xc3000010), (0x3004, 0x100001)]
      | .two => d).Confined ↔ d.Confined := by
    intro m
    cases m with
    | zero => exact d.confined_writeAll (by decide)
    | one => exact d.confined_writeAll (by decide)
    | two => exact Iff.rfl
  unfold tl880ApuStartIoc
  dsimp only
  split_ifs
  · rw [confined_writeAll _ (by decide)]
    simp only [confined_setCrossfade, hwrite, hmode]
  · simp only [confined_setCrossfade, hwrite, hmode]

theorem apuStartIoc_dev (d : DevRegs) : d.tl880ApuStartIoc.dev = d.dev := by
  unfold tl880ApuStartIoc
  dsimp only
  cases d.dev.audioMode <;> split_ifs <;> simp

theorem confined_writeIau (d : DevRegs) (iba iea ira : U32) :
    (d.writeIau iba iea ira).Confined ↔ d.Confined ∧ d.dev.IauAudio := by
  show (((d.write _ iba).write _ iea).write _ ira).Confined ↔ _
  simp only [confined_write, Tl880Dev.IauAudio, and_assoc]

theorem writeIau_dev (d : DevRegs) (iba iea ira : U32) :
    (d.writeIau iba iea ira).dev = d.dev := d.writeAll_dev _

/-- Stopping the unit also writes the three registers. -/
theorem confined_apuInitIoc (d : DevRegs) :
    d.tl880ApuInitIoc.Confined ↔ d.Confined ∧ d.dev.IauAudio := by
  have hfixed : (d.writeAll [(0x3058, 0), (0x3008, 0), (0x3004, 0), (0x3000, 0)]).Confined ↔
      d.Confined := d.confined_writeAll (by decide)
  rw [← hfixed]
  exact confined_writeIau _ 0 0 0

theorem apuInitIoc_dev (d : DevRegs) : d.tl880ApuInitIoc.dev = d.dev := d.writeAll_dev _

end DevRegs

/-! ## The three fields -/

/-- The fields are as they were created, or they are registers of the unit. -/
def Tl880Dev.IauTracked (dev : Tl880Dev) : Prop :=
  (dev.iauIbaReg = 0 ∧ dev.iauIeaReg = 0 ∧ dev.iauIraReg = 0) ∨ dev.IauAudio

theorem DevRegs.setIauBase_tracked (d : DevRegs) (iauBase : U32) :
    (d.setIauBase iauBase).dev.IauTracked ↔ d.dev.IauTracked := Iff.rfl

theorem DevRegs.setIecBuf_tracked (d : DevRegs) (iecBuf : U64) :
    (d.setIecBuf iecBuf).dev.IauTracked ↔ d.dev.IauTracked := Iff.rfl

theorem audioRegister_ne_zero {reg : U32} (h : AudioRegister reg) : reg ≠ 0 := by
  intro hzero
  rw [hzero] at h
  exact absurd h (by decide)

/-- Then they are set exactly when they are registers of the unit. -/
theorem Tl880Dev.IauTracked.iauSet_iff {dev : Tl880Dev} (h : dev.IauTracked) :
    dev.IauSet ↔ dev.IauAudio := by
  constructor
  · intro hset
    rcases h with hzero | haudio
    · exact absurd hzero.1 hset.1
    · exact haudio
  · intro haudio
    exact ⟨audioRegister_ne_zero haudio.1, audioRegister_ne_zero haudio.2.1,
      audioRegister_ne_zero haudio.2.2⟩

namespace AudioCard

variable (s : AudioCard)

/-- The registers are set before they are written. -/
theorem confined_apuInitIauReg :
    s.tl880ApuInitIauReg.card.Confined ↔ s.card.Confined := by
  have hset : ∀ {iba iea ira : U32},
      AudioRegister iba ∧ AudioRegister iea ∧ AudioRegister ira →
      ((writeIauRegs { s with card := s.card.setIauRegs iba iea ira }).card.Confined ↔
        s.card.Confined) := by
    intro iba iea ira haudio
    exact (DevRegs.confined_writeIau _ _ _ _).trans (and_iff_left haudio)
  unfold tl880ApuInitIauReg
  cases s.card.dev.audioMode with
  | zero => exact hset (by decide)
  | one => exact hset (by decide)
  | two => exact Iff.rfl

/-- `tl880_apu_init_iau_reg` sets the fields to registers of the unit or leaves them. -/
theorem apuInitIauReg_tracked (h : s.card.dev.IauTracked) :
    s.tl880ApuInitIauReg.card.dev.IauTracked := by
  have hset : ∀ {iba iea ira : U32},
      AudioRegister iba ∧ AudioRegister iea ∧ AudioRegister ira →
      (writeIauRegs { s with card := s.card.setIauRegs iba iea ira }).card.dev.IauTracked := by
    intro iba iea ira haudio
    rw [writeIauRegs, DevRegs.writeIau_dev]
    exact Or.inr haudio
  unfold tl880ApuInitIauReg
  cases s.card.dev.audioMode with
  | zero => exact hset (by decide)
  | one => exact hset (by decide)
  | two => exact h

/-- The setup writes the three registers before they are set. -/
theorem confined_initAudioBuffer (iecBuf : U64) :
    (s.initAudioBuffer iecBuf).card.Confined ↔ s.card.Confined ∧ s.card.dev.IauAudio := by
  have hclock : (s.initAudioBuffer iecBuf).card.Confined ↔
      (tl880ApuInitIauReg
        { s with card := (s.card.allocIecBuf iecBuf).tl880ApuInitIoc }).card.Confined := Iff.rfl
  rw [hclock, confined_apuInitIauReg, DevRegs.confined_apuInitIoc]
  unfold DevRegs.allocIecBuf
  split_ifs <;> exact Iff.rfl

theorem initAudioBuffer_tracked (h : s.card.dev.IauTracked) (iecBuf : U64) :
    (s.initAudioBuffer iecBuf).card.dev.IauTracked := by
  apply apuInitIauReg_tracked
  rw [DevRegs.apuInitIoc_dev]
  unfold DevRegs.allocIecBuf
  split_ifs <;> exact h

/-- The setup gets by without them if there is no memory. -/
theorem confined_initHardwareAudio (audioMode : AudioMode) (allocated iecBuf : U64) :
    (s.tl880InitHardwareAudio audioMode allocated iecBuf).card.Confined ↔
      s.card.Confined ∧
        (s.card.dev.iauBase = 0 ∧ allocated.setWidth 32 = (0 : U32) ∨
          s.card.dev.IauAudio) := by
  unfold tl880InitHardwareAudio
  dsimp only
  by_cases hbase : s.card.dev.iauBase = 0
  · rw [if_pos hbase]
    by_cases halloc : allocated.setWidth 32 = (0 : U32)
    · rw [if_pos halloc]
      exact (and_iff_left (Or.inl ⟨hbase, halloc⟩)).symm
    · rw [if_neg halloc, confined_initAudioBuffer]
      simp only [halloc, and_false, false_or]
      exact Iff.rfl
  · rw [if_neg hbase, confined_initAudioBuffer]
    simp only [hbase, false_and, false_or]
    exact Iff.rfl

theorem initHardwareAudio_tracked (h : s.card.dev.IauTracked) (audioMode : AudioMode)
    (allocated iecBuf : U64) :
    (s.tl880InitHardwareAudio audioMode allocated iecBuf).card.dev.IauTracked := by
  have hmode : (s.card.setAudioMode audioMode).dev.IauTracked := h
  have hset : ∀ base, ((s.card.setAudioMode audioMode).setIauBase base).dev.IauTracked :=
    fun _ => h
  unfold tl880InitHardwareAudio
  dsimp only
  split_ifs
  · exact hset (allocated.setWidth 32)
  · apply initAudioBuffer_tracked
    exact hset (allocated.setWidth 32)
  · apply initAudioBuffer_tracked
    exact hmode

theorem confined_deinitHardwareAudio :
    s.tl880DeinitHardwareAudio.card.Confined ↔ s.card.Confined ∧ s.card.dev.IauAudio := by
  unfold tl880DeinitHardwareAudio DevRegs.tl880ApuStopIoc
  dsimp only
  rw [DevRegs.confined_setIecBuf, DevRegs.confined_setIauBase, DevRegs.confined_writeIau,
    DevRegs.confined_apuInitIoc, DevRegs.apuInitIoc_dev, and_assoc, and_self]

theorem deinitHardwareAudio_tracked (h : s.card.dev.IauTracked) :
    s.tl880DeinitHardwareAudio.card.dev.IauTracked := by
  unfold tl880DeinitHardwareAudio DevRegs.tl880ApuStopIoc
  dsimp only
  rw [DevRegs.setIecBuf_tracked, DevRegs.setIauBase_tracked, DevRegs.writeIau_dev,
    DevRegs.apuInitIoc_dev]
  exact h

end AudioCard

/-! ## Histories -/

/-- Calls keep the fields tracked. -/
theorem audioCall_tracked {s s' : AudioCard} {call : AudioCall} (h : s.card.dev.IauTracked)
    (hstep : audioCall s call = some s') : s'.card.dev.IauTracked := by
  cases call with
  | initHardwareAudio audioMode allocated iecBuf =>
      rw [← Option.some.inj hstep]
      exact s.initHardwareAudio_tracked h audioMode allocated iecBuf
  | apuStartIoc =>
      rw [← Option.some.inj hstep]
      dsimp only
      rw [DevRegs.apuStartIoc_dev]
      exact h
  | apuStopIoc =>
      rw [← Option.some.inj hstep]
      dsimp only
      rw [DevRegs.tl880ApuStopIoc, DevRegs.apuInitIoc_dev]
      exact h
  | deinitHardwareAudio =>
      rw [← Option.some.inj hstep]
      exact s.deinitHardwareAudio_tracked h

/-- A call stays with the registers of the unit exactly when it is allowed. -/
theorem audioCall_confined_iff {s s' : AudioCard} {call : AudioCall}
    (h : s.card.dev.IauTracked) (hstep : audioCall s call = some s') :
    s'.card.Confined ↔ s.card.Confined ∧ AudioCallOk s call := by
  cases call with
  | initHardwareAudio audioMode allocated iecBuf =>
      rw [← Option.some.inj hstep, AudioCallOk, h.iauSet_iff]
      exact s.confined_initHardwareAudio audioMode allocated iecBuf
  | apuStartIoc =>
      rw [← Option.some.inj hstep]
      exact s.card.confined_apuStartIoc.trans (and_iff_left trivial).symm
  | apuStopIoc =>
      rw [← Option.some.inj hstep, AudioCallOk, h.iauSet_iff]
      exact s.card.confined_apuInitIoc
  | deinitHardwareAudio =>
      rw [← Option.some.inj hstep, AudioCallOk, h.iauSet_iff]
      exact s.confined_deinitHardwareAudio

/-- All writes so far are to registers of the unit, and the fields are tracked. -/
structure AudioInv (s : AudioCard) : Prop where
  confined : s.card.Confined
  tracked : s.card.dev.IauTracked

/-- Allowed calls keep it. -/
theorem AudioInv.step {s s' : AudioCard} {call : AudioCall} (h : AudioInv s)
    (hok : AudioCallOk s call) (hstep : audioCall s call = some s') : AudioInv s' where
  confined := (audioCall_confined_iff h.tracked hstep).mpr ⟨h.confined, hok⟩
  tracked := audioCall_tracked h.tracked hstep

theorem audioInv_createdCard (tlMajor : U32) (memory : Tl880Dev) (regs : RegSpace)
    (mem : CardMem) (vpx : FpFile) : AudioInv (createdCard tlMajor memory regs mem vpx) where
  confined := by
    intro w hw
    cases hw
  tracked := Or.inl ⟨rfl, rfl, rfl⟩

/-- From creation on the writes stay with the registers of the audio unit exactly when
every call starts the unit, or is a setup whose allocation fails, or finds the three
fields set. -/
theorem audioSetup_iff (tlMajor : U32) (memory : Tl880Dev) (regs : RegSpace) (mem : CardMem)
    (vpx : FpFile) (calls : List AudioCall) :
    AllStates audioCall (fun s => s.card.Confined) (createdCard tlMajor memory regs mem vpx)
        calls ↔
      AllSteps audioCall AudioCallOk (createdCard tlMajor memory regs mem vpx) calls := by
  apply allStates_iff_allSteps (fun s call s' hinv hok hstep => AudioInv.step hinv hok hstep)
    (fun _ hinv => hinv.confined) _ (audioInv_createdCard tlMajor memory regs mem vpx)
  intro s call s' hinv hstep hconfined
  exact ((audioCall_confined_iff hinv.tracked hstep).mp hconfined).2

/-- Stopping the unit of a new card writes the interrupt register 0. -/
theorem audioSetup_stop : ¬ ∀ (tlMajor : U32) (memory : Tl880Dev) (regs : RegSpace)
    (mem : CardMem) (vpx : FpFile) (calls : List AudioCall),
    AllStates audioCall (fun s => s.card.Confined) (createdCard tlMajor memory regs mem vpx)
      calls := by
  intro h
  have hstop := (h 240 default ⟨true, fun _ => 0⟩ ⟨true, 0, fun _ => 0, []⟩ (fun _ => 0)
    [.apuStopIoc]).2 _ rfl
  have hzero : AudioRegister 0 := hstop (0, 0) (by decide)
  exact absurd hzero (by decide)

end Tl880
