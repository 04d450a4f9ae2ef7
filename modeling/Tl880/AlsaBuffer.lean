import Tl880.Lib.LabelledRun
import Tl880.AlsaPeriods
import Tl880.SampleRate

/-!
# The buffer that ALSA maps

The model of `snd_card_tl880_playback_open`, `snd_card_tl880_hw_params` and
`snd_card_tl880_playback_close`, which with prepare and trigger are the life of a playback
substream.  The PCM core opens a substream that is closed, and makes the other calls on
one that is open; each open gets a `runtime` of its own.  The lock and the timer are left
out.

`snd_card_tl880_hw_params` computes the buffer's addresses from `buffer_base` and assigns
`buffer_base` after that.  At open `kzalloc` has made it 0, so the addresses of the first
call since are those of the start of the card's memory, 0x1000 below the buffer.
-/

namespace Tl880

open LabelledRun

/-! ## The substream -/

/-- The buffer in `struct snd_pcm_runtime`. -/
structure PcmRuntime where
  dmaArea : U64
  dmaAddr : U64
  dmaBytes : U64

/-- A substream and its card.  `configured` says that `snd_card_tl880_hw_params` has
succeeded since the substream was opened (not stored by the driver). -/
structure Substream where
  opened : Bool
  configured : Bool
  runtime : PcmRuntime
  dev : AlsaDev
  cardType : U16
  memspace : U64
  memphys : U64
  mem : CardMem
  vpx : FpFile

/-- The registers of the buffer, which `snd_card_tl880_hw_params` and
`snd_card_tl880_pcm_prepare` write alike. -/
def programBuffer (d : AlsaDev) : AlsaDev :=
  -- buffer start, and buffer end - 0x20
  let d := d.write 0x3020 d.pcm.bufferBase
  let d := d.write 0x3024 (d.pcm.bufferBase + d.pcm.periodSize * d.pcm.periodCount - 0x20)
  -- capture offset, buffer position and interrupt position
  let d := d.write 0x3028 0
  let d := d.write 0x302c d.pcm.bufferBase
  d.write 0x3030 (d.pcm.bufferBase + d.pcm.periodSize)

/-- `snd_card_tl880_playback_open`, if `kzalloc` and `add_playback_constraints` succeed. -/
def sndCardTl880PlaybackOpen (s : Substream) : Substream :=
  { s with
    opened := true
    configured := false
    runtime := ⟨0, 0, 0⟩
    dev := { s.dev with pcm := ⟨0, 0, 0, 0⟩ } }

/-- `tl880_set_samplerate` on the substream's card. -/
def Substream.setSamplerate (s : Substream) (rate : Int) : Int × Substream :=
  let (err, lines) := tl880SetSamplerate s.cardType rate ⟨s.dev.regs, s.mem, s.vpx⟩
  (err, { s with dev := { s.dev with regs := lines.regs }, mem := lines.mem, vpx := lines.vpx })

/-- `snd_card_tl880_hw_params` -/
def sndCardTl880HwParams (params : HwParams) (rate : Int) (s : Substream) : Int × Substream :=
  let base : U64 := s.dev.pcm.bufferBase.setWidth 64
  let s := { s with
    runtime := ⟨s.memspace + base, s.memphys + base, 0x80000⟩
    dev := { s.dev with pcm := ⟨params.periodBytes, params.periods, 0, 0x1000⟩ } }
  let (err, s) := s.setSamplerate rate
  if err ≠ 0 then (err, s)
  else (0, { s with dev := programBuffer s.dev, configured := true })

/-- `snd_card_tl880_playback_close` -/
def sndCardTl880PlaybackClose (s : Substream) : Substream :=
  { s with
    opened := false
    configured := false
    dev := { s.dev with pcm := { s.dev.pcm with bufferBase := 0x1000 } } }

/-- The calls on a substream. -/
inductive PcmCall
  | open (succeeds : Bool)
  | hwParams (params : HwParams) (rate : Int)
  | prepare (params : HwParams)
  | trigger (cmd : TriggerCmd)
  | close

/-- One call.  A substream is opened when it is closed, and used when it is open. -/
def pcmCall (s : Substream) : PcmCall → Option Substream
  | .open succeeds =>
      if s.opened = true then none
      else some (if succeeds = true then sndCardTl880PlaybackOpen s else s)
  | .hwParams params rate =>
      if s.opened = true then some (sndCardTl880HwParams params rate s).2 else none
  | .prepare params =>
      if s.opened = true then some { s with dev := sndCardTl880PcmPrepare params s.dev }
      else none
  | .trigger cmd =>
      if s.opened = true then some { s with dev := triggerRegs cmd s.dev } else none
  | .close => if s.opened = true then some (sndCardTl880PlaybackClose s) else none

/-- A closed substream on a card whose registers are mapped. -/
def Substream.Closed (s : Substream) : Prop :=
  s.opened = false ∧ s.configured = false ∧ s.dev.regs.mapped = true

/-- The buffer that ALSA maps is the one that the card plays, and the periods fit in it. -/
structure BufferAgrees (s : Substream) : Prop where
  area : s.runtime.dmaArea - s.memspace = s.dev.pcm.bufferBase.setWidth 64
  addr : s.runtime.dmaAddr - s.memphys = s.dev.pcm.bufferBase.setWidth 64
  register : s.dev.read 0x3020 = s.dev.pcm.bufferBase
  fits : s.dev.pcm.periodSize.toNat * s.dev.pcm.periodCount.toNat ≤ s.runtime.dmaBytes.toNat

/-- From a successful `snd_card_tl880_hw_params` until the close the buffers agree. -/
def BufferKept (s : Substream) : Prop := s.configured = true → BufferAgrees s

/-- The calls that keep it: any but a `snd_card_tl880_hw_params` that succeeds, the rate
being supported, and finds another `buffer_base` than the one it assigns. -/
def PcmCallOk (s : Substream) : PcmCall → Prop
  | .hwParams _ rate => rateStates rate ≠ none → s.dev.pcm.bufferBase = 0x1000
  | _ => True

instance (s : Substream) : ∀ call, Decidable (PcmCallOk s call)
  | .hwParams _ rate =>
      inferInstanceAs (Decidable (rateStates rate ≠ none → s.dev.pcm.bufferBase = 0x1000))
  | .open _ | .prepare _ | .trigger _ | .close => isTrue trivial

/-! ## What the calls do -/

/-- `snd_card_tl880_pcm_prepare` writes the same registers. -/
theorem prepare_eq (params : HwParams) (d : AlsaDev) :
    sndCardTl880PcmPrepare params d =
      programBuffer
        { d with pcm := ⟨params.periodBytes, params.periods, 0x1000, 0x1000⟩ } := rfl

@[simp] theorem programBuffer_mapped (d : AlsaDev) :
    (programBuffer d).regs.mapped = d.regs.mapped := by
  simp [programBuffer, AlsaDev.write]

/-- The buffer start register gets the base. -/
theorem programBuffer_read {d : AlsaDev} (hmapped : d.regs.mapped = true) :
    (programBuffer d).read 0x3020 = d.pcm.bufferBase := by
  simp [programBuffer, AlsaDev.write, AlsaDev.read, hmapped, tl880ReadRegister_write_ne,
    tl880ReadRegister_write_self]

/-- A command leaves the buffer where it is. -/
theorem triggerRegs_frame (cmd : TriggerCmd) (d : AlsaDev) :
    (triggerRegs cmd d).pcm = d.pcm ∧ (triggerRegs cmd d).regs.mapped = d.regs.mapped ∧
      (triggerRegs cmd d).read 0x3020 = d.read 0x3020 := by
  cases cmd <;>
    simp [triggerRegs, AlsaDev.write, AlsaDev.writeRegbits, AlsaDev.read,
      tl880ReadRegister_writeRegbits_ne, tl880ReadRegister_write_ne]

/-- A rate that is not supported changes nothing. -/
theorem setSamplerate_none {rate : Int} (hrate : rateStates rate = none) (s : Substream) :
    s.setSamplerate rate = (-22, s) := by
  unfold Substream.setSamplerate tl880SetSamplerate
  rw [hrate]

/-- A rate that is supported is set, and the registers stay mapped. -/
theorem setSamplerate_some {rate : Int} {states : U8 × U8}
    (hrate : rateStates rate = some states) (s : Substream) :
    ∃ regs mem vpx, regs.mapped = s.dev.regs.mapped ∧ s.setSamplerate rate =
      (0, { s with dev := { s.dev with regs := regs }, mem := mem, vpx := vpx }) := by
  unfold Substream.setSamplerate tl880SetSamplerate
  rw [hrate]
  exact ⟨_, _, _, by rw [gpioCall_mapped, gpioCall_mapped], rfl⟩

/-- The substream after the assignments of `snd_card_tl880_hw_params`. -/
def Substream.assigned (s : Substream) (params : HwParams) : Substream :=
  let base : U64 := s.dev.pcm.bufferBase.setWidth 64
  { s with
    runtime := ⟨s.memspace + base, s.memphys + base, 0x80000⟩
    dev := { s.dev with pcm := ⟨params.periodBytes, params.periods, 0, 0x1000⟩ } }

/-- With a rate that is not supported the assignments are all. -/
theorem hwParams_none (params : HwParams) {rate : Int} (hrate : rateStates rate = none)
    (s : Substream) : (sndCardTl880HwParams params rate s).2 = s.assigned params := by
  unfold sndCardTl880HwParams
  dsimp only
  rw [setSamplerate_none hrate]
  rfl

/-- With a rate that is supported the buffer is programmed. -/
theorem hwParams_some (params : HwParams) {rate : Int} {states : U8 × U8}
    (hrate : rateStates rate = some states) (s : Substream) :
    ∃ regs mem vpx, regs.mapped = s.dev.regs.mapped ∧
      (sndCardTl880HwParams params rate s).2 =
        { s.assigned params with
          dev := programBuffer { (s.assigned params).dev with regs := regs }
          configured := true
          mem := mem
          vpx := vpx } := by
  obtain ⟨regs, mem, vpx, hmapped, hset⟩ := setSamplerate_some hrate (s.assigned params)
  refine ⟨regs, mem, vpx, hmapped, ?_⟩
  unfold sndCardTl880HwParams
  show (let (err, s) := (s.assigned params).setSamplerate rate; if err ≠ 0 then (err, s)
    else (0, { s with dev := programBuffer s.dev, configured := true })).2 = _
  rw [hset]
  rfl

/-! ## The invariant -/

/-- The buffer is at 0x1000 wherever its address is kept. -/
structure BufferAt0x1000 (s : Substream) : Prop where
  area : s.runtime.dmaArea = s.memspace + 0x1000
  addr : s.runtime.dmaAddr = s.memphys + 0x1000
  base : s.dev.pcm.bufferBase = 0x1000
  register : s.dev.read 0x3020 = 0x1000
  bytes : s.runtime.dmaBytes = 0x80000
  fits : s.dev.pcm.periodSize.toNat * s.dev.pcm.periodCount.toNat ≤ maxBufferSize

theorem BufferAt0x1000.agrees {s : Substream} (h : BufferAt0x1000 s) : BufferAgrees s where
  area := by
    rw [h.area, h.base, BitVec.add_comm, BitVec.add_sub_cancel]
    rfl
  addr := by
    rw [h.addr, h.base, BitVec.add_comm, BitVec.add_sub_cancel]
    rfl
  register := by rw [h.register, h.base]
  fits := by
    rw [h.bytes]
    exact h.fits

/-- What holds of a substream as long as its calls are allowed. -/
structure SubstreamInv (s : Substream) : Prop where
  mapped : s.dev.regs.mapped = true
  closed : s.opened = false → s.configured = false
  buffer : s.configured = true → BufferAt0x1000 s

theorem SubstreamInv.kept {s : Substream} (h : SubstreamInv s) : BufferKept s :=
  fun hconfigured => (h.buffer hconfigured).agrees

/-- The parameters fit in the buffer. -/
theorem HwParams.fits (params : HwParams) :
    params.periodBytes.toNat * params.periods.toNat ≤ maxBufferSize := params.buffer_max

/-- An allowed `snd_card_tl880_hw_params` keeps the invariant. -/
theorem SubstreamInv.hwParams {s : Substream} (h : SubstreamInv s) (hopen : s.opened = true)
    (params : HwParams) {rate : Int}
    (hok : rateStates rate ≠ none → s.dev.pcm.bufferBase = 0x1000) :
    SubstreamInv (sndCardTl880HwParams params rate s).2 := by
  cases hrate : rateStates rate with
  | none =>
      rw [hwParams_none params hrate]
      refine ⟨h.mapped, h.closed, ?_⟩
      intro hconfigured
      have hbuffer := h.buffer hconfigured
      have hbase : (s.dev.pcm.bufferBase.setWidth 64 : U64) = 0x1000 := by
        rw [hbuffer.base]
        rfl
      exact ⟨congrArg (s.memspace + ·) hbase, congrArg (s.memphys + ·) hbase, rfl,
        hbuffer.register, rfl, params.fits⟩
  | some states =>
      obtain ⟨regs, mem, vpx, hmapped, heq⟩ := hwParams_some params hrate s
      have hbase : (s.dev.pcm.bufferBase.setWidth 64 : U64) = 0x1000 := by
        rw [hok (by rw [hrate]; exact Option.some_ne_none states)]
        rfl
      rw [heq]
      refine ⟨?_, fun hclosed => absurd (hclosed.symm.trans hopen) Bool.false_ne_true,
        fun _ => ?_⟩
      · rw [programBuffer_mapped]
        exact hmapped.trans h.mapped
      · exact ⟨congrArg (s.memspace + ·) hbase, congrArg (s.memphys + ·) hbase, rfl,
          programBuffer_read (hmapped.trans h.mapped), rfl, params.fits⟩

/-- Allowed calls keep the invariant. -/
theorem SubstreamInv.step {s s' : Substream} {call : PcmCall} (h : SubstreamInv s)
    (hok : PcmCallOk s call) (hstep : pcmCall s call = some s') : SubstreamInv s' := by
  cases call with
  | «open» succeeds =>
      simp only [pcmCall] at hstep
      split_ifs at hstep with hopen hsucceeds <;> rw [← Option.some.inj hstep]
      · exact ⟨h.mapped, fun hclosed => absurd hclosed.symm Bool.false_ne_true,
          fun hconfigured => absurd hconfigured Bool.false_ne_true⟩
      · exact h
  | hwParams params rate =>
      simp only [pcmCall] at hstep
      split_ifs at hstep with hopen
      rw [← Option.some.inj hstep]
      exact h.hwParams hopen params hok
  | prepare params =>
      simp only [pcmCall] at hstep
      split_ifs at hstep with hopen
      rw [← Option.some.inj hstep]
      rw [prepare_eq]
      refine ⟨(programBuffer_mapped _).trans h.mapped, h.closed, ?_⟩
      intro hconfigured
      have hbuffer := h.buffer hconfigured
      exact ⟨hbuffer.area, hbuffer.addr, rfl, programBuffer_read h.mapped, hbuffer.bytes,
        params.fits⟩
  | trigger cmd =>
      simp only [pcmCall] at hstep
      split_ifs at hstep with hopen
      rw [← Option.some.inj hstep]
      obtain ⟨hpcm, hmapped, hread⟩ := triggerRegs_frame cmd s.dev
      refine ⟨hmapped.trans h.mapped, h.closed, ?_⟩
      intro hconfigured
      have hbuffer := h.buffer hconfigured
      refine ⟨hbuffer.area, hbuffer.addr, ?_, hread.trans hbuffer.register, hbuffer.bytes, ?_⟩
      · exact (congrArg SndTl880Pcm.bufferBase hpcm).trans hbuffer.base
      · dsimp only
        rw [hpcm]
        exact hbuffer.fits
  | close =>
      simp only [pcmCall] at hstep
      split_ifs at hstep with hopen
      rw [← Option.some.inj hstep]
      exact ⟨h.mapped, fun _ => rfl, fun hconfigured => absurd hconfigured Bool.false_ne_true⟩

/-- A call after which the buffers agree was allowed. -/
theorem pcmCallOk_of_kept {s s' : Substream} {call : PcmCall} (hstep : pcmCall s call = some s')
    (hkept : BufferKept s') : PcmCallOk s call := by
  cases call with
  | hwParams params rate =>
      intro hsupported
      obtain ⟨states, hrate⟩ := Option.ne_none_iff_exists'.mp hsupported
      obtain ⟨regs, mem, vpx, -, heq⟩ := hwParams_some params hrate s
      simp only [pcmCall] at hstep
      split_ifs at hstep with hopen
      rw [← Option.some.inj hstep, heq] at hkept
      have harea : s.memspace + s.dev.pcm.bufferBase.setWidth 64 - s.memspace = 0x1000 :=
        (hkept rfl).area
      rw [BitVec.add_comm, BitVec.add_sub_cancel] at harea
      apply BitVec.eq_of_toNat_eq
      have hnat := congrArg BitVec.toNat harea
      rw [BitVec.toNat_setWidth] at hnat
      have hlt := s.dev.pcm.bufferBase.isLt
      change _ % 2 ^ 64 = 0x1000 at hnat
      show _ = 0x1000
      omega
  | «open» succeeds => trivial
  | prepare params => trivial
  | trigger cmd => trivial
  | close => trivial

/-! ## The exact condition -/

/-- From a closed substream on, the buffers agree whenever they should exactly when every
`snd_card_tl880_hw_params` that succeeds finds the `buffer_base` that it assigns. -/
theorem bufferKept_iff {s : Substream} (hclosed : s.Closed) (calls : List PcmCall) :
    AllStates pcmCall BufferKept s calls ↔ AllSteps pcmCall PcmCallOk s calls := by
  obtain ⟨hopened, hconfigured, hmapped⟩ := hclosed
  have hstart : SubstreamInv s := ⟨hmapped, fun _ => hconfigured,
    fun htrue => absurd (hconfigured.symm.trans htrue) Bool.false_ne_true⟩
  exact allStates_iff_allSteps (fun s call s' h hok hstep => SubstreamInv.step h hok hstep)
    (fun s h => h.kept) (fun s call s' _ hstep hkept => pcmCallOk_of_kept hstep hkept) hstart
    calls

/-- A closed substream of an MDP-110 with its memory at 0xc0000000. -/
def closedSubstream : Substream where
  opened := false
  configured := false
  runtime := ⟨0, 0, 0⟩
  dev := ⟨⟨0, 0, 0, 0⟩, ⟨true, fun _ => 0⟩, 0, 0⟩
  cardType := cardMyhdMdp110
  memspace := 0xc0000000
  memphys := 0xc0000000
  mem := ⟨true, 0, fun _ => 0, []⟩
  vpx := fun _ => 0

/-- The buffers agree if `snd_card_tl880_pcm_prepare` has assigned `buffer_base` before. -/
theorem bufferKept_prepared :
    AllStates pcmCall BufferKept closedSubstream
      [.open true, .prepare smallestPeriod, .hwParams smallestPeriod 48000, .close] :=
  (bufferKept_iff ⟨rfl, rfl, rfl⟩ _).mpr (by decide)

/-- Otherwise ALSA maps 0x1000 bytes below the buffer that the card plays. -/
theorem bufferKept_first : ¬ ∀ s : Substream, s.Closed → ∀ calls : List PcmCall,
    AllStates pcmCall BufferKept s calls := by
  intro h
  have hstates := h closedSubstream ⟨rfl, rfl, rfl⟩ [.open true, .hwParams smallestPeriod 48000]
  have hagrees := hstates.last rfl rfl
  exact absurd hagrees.area (by decide)

end Tl880
