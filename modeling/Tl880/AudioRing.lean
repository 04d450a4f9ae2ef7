import Tl880.AlsaPcm
import Tl880.ClearSdram
import Tl880.Lib.LabelledRun
import Tl880.Lib.Ring

/-!
# The playback buffer in card memory

The callbacks of `driver/alsa/tl880alsa.c` that move samples: `snd_card_tl880_playback_copy`,
`snd_card_tl880_playback_silence`, and the clears of the buffer in `snd_card_tl880_pcm_prepare`
and in `snd_card_tl880_pcm_trigger`.

A run is what ALSA does with a prepared substream.  It copies frames to its application pointer
and blanks frames ahead of it, in transfers that do not wrap, and calls the triggers and the
timer at any time.  The buffer is a ring with the newest frames of the stream, but `START` clears
all that was copied before it (`lost`).
-/

namespace Tl880

open LabelledRun

/-! ## The callbacks -/

/-- `frames_to_bytes`, with the 32 bits of two channels of `SNDRV_PCM_FMTBIT_S16_LE`. -/
def framesToBytes (frames : U64) : U64 := frames * 32 / 8

/-- `bytes_to_frames` -/
def bytesToFrames (bytes : U64) : U64 := bytes * 8 / 32

/-- `snd_card_tl880_playback_pointer` -/
def sndCardTl880PlaybackPointer (d : AlsaDev) : U64 :=
  bytesToFrames ((d.read 0x302c - d.pcm.bufferBase).setWidth 64)

/-- Where a transfer to a position of the buffer begins. -/
def transferAddr (d : AlsaDev) (pos : U64) : U32 :=
  (d.pcm.bufferBase.setWidth 64 + framesToBytes pos).setWidth 32

/-- `snd_card_tl880_playback_copy` -/
def sndCardTl880PlaybackCopy (d : AlsaDev) (m : CardMem) (channel : Int) (pos : U64)
    (src : Option (Nat → U8)) (count : U64) : Int × CardMem :=
  if ¬ channel < 0 then (-22, m)
  else (0, tl880Memcpy m src (transferAddr d pos) (framesToBytes count))

/-- `snd_card_tl880_playback_silence`; `none` is a loop still running after `fuel` rounds. -/
def sndCardTl880PlaybackSilence (fuel : Nat) (d : AlsaDev) (m : CardMem) (channel : Int)
    (pos count : U64) : Option (Int × CardMem) :=
  if ¬ channel < 0 then some (-22, m)
  else do
    let endAddr : U64 := d.pcm.bufferBase.setWidth 64 + framesToBytes pos + framesToBytes count
    let m ← clearSdram fuel m (transferAddr d pos) (endAddr.setWidth 32) 0
    some (0, m)

/-- The clear of the whole buffer. -/
def clearBuffer (fuel : Nat) (pcm : SndTl880Pcm) (m : CardMem) : Option CardMem :=
  clearSdram fuel m pcm.bufferBase (pcm.bufferBase + pcm.periodSize * pcm.periodCount) 0

/-- `snd_card_tl880_pcm_prepare` with the memory that it clears. -/
def prepareBuffer (fuel : Nat) (params : HwParams) (d : AlsaDev) (m : CardMem) :
    Option (AlsaDev × CardMem) := do
  let d := sndCardTl880PcmPrepare params d
  let m ← clearBuffer fuel d.pcm m
  some (d, m)

/-- `snd_card_tl880_pcm_trigger` with the memory that it clears. -/
def triggerBuffer (fuel : Nat) (cmd : TriggerCmd) (d : AlsaDev) (m : CardMem) :
    Option (AlsaDev × CardMem) := do
  let m ← if cmd = .start then clearBuffer fuel d.pcm m else some m
  some (triggerRegs cmd d, m)

/-! ## The runs -/

/-- Hardware parameters whose periods are whole frames, as those of ALSA are. -/
structure FrameParams extends HwParams where
  whole : periodBytes.toNat % 4 = 0

/-- A prepared substream: the driver's part, the memory of the card, and what ALSA knows, in
frames.  `stream` has the bytes copied since the prepare, `appl` is the application pointer,
`filled` how much is blank ahead of it, and `lost` where it was at the last `START`. -/
structure PlaybackRing where
  dev : AlsaDev
  mem : CardMem
  stream : Nat → U8
  lost : Nat
  appl : Nat
  filled : Nat

/-- The size of the buffer in frames. -/
def PlaybackRing.bufferFrames (s : PlaybackRing) : Nat :=
  s.dev.pcm.periodSize.toNat * s.dev.pcm.periodCount.toNat / 4

/-- What ALSA calls. -/
inductive RingCall
  | prepare (params : FrameParams)
  | trigger (cmd : TriggerCmd)
  | timer
  | copy (frames : Nat) (data : Nat → U8)
  | silence (frames : Nat)

/-- A substream that has just been prepared. -/
def PlaybackRing.prepared (dev : AlsaDev) (mem : CardMem) : PlaybackRing :=
  { dev := dev, mem := mem, stream := fun _ => 0, lost := 0, appl := 0, filled := 0 }

/-- One call.  A transfer ends before the end of the buffer, and there is never more than a
buffer of blank frames ahead. -/
def ringStep (fuel : Nat) (s : PlaybackRing) : RingCall → Option PlaybackRing
  | .prepare params => do
      let (dev, mem) ← prepareBuffer fuel params.toHwParams s.dev s.mem
      some (.prepared dev mem)
  | .trigger cmd => do
      let (dev, mem) ← triggerBuffer fuel cmd s.dev s.mem
      some { s with dev := dev, mem := mem, lost := if cmd = .start then s.appl else s.lost }
  | .timer => some { s with dev := sndCardTl880PcmTimerFunction s.dev }
  | .copy frames data =>
      let pos := s.appl % s.bufferFrames
      if pos + frames ≤ s.bufferFrames then
        let (_, mem) := sndCardTl880PlaybackCopy s.dev s.mem (-1) (BitVec.ofNat 64 pos)
          (some data) (BitVec.ofNat 64 frames)
        some
          { s with
            mem := mem
            stream := fun j => if 4 * s.appl ≤ j then data (j - 4 * s.appl) else s.stream j
            appl := s.appl + frames
            filled := s.filled - frames }
      else none
  | .silence frames =>
      let pos := (s.appl + s.filled) % s.bufferFrames
      if pos + frames ≤ s.bufferFrames ∧ s.filled + frames ≤ s.bufferFrames then do
        let (_, mem) ← sndCardTl880PlaybackSilence fuel s.dev s.mem (-1) (BitVec.ofNat 64 pos)
          (BitVec.ofNat 64 frames)
        some { s with mem := mem, filled := s.filled + frames }
      else none

/-- The buffer is the ring of the stream since the last `START`, the rest of the memory is as it
was, a playback position in the buffer is reported as the frame it is in, and a prepare or a
trigger does not hang. -/
structure RingGood (fuel : Nat) (before : CardMem) (s : PlaybackRing) : Prop where
  ring : Ring.Holds 0 (4 * s.bufferFrames) s.stream (4 * s.lost) (4 * s.appl) (4 * s.filled)
    fun o => s.mem.byte (0x1000 + o)
  outside : ∀ o, o < 0x1000 ∨ 0x81000 ≤ o → s.mem.byte o = before.byte o
  pointer : ∀ o, o < 4 * s.bufferFrames → (s.dev.read 0x302c).toNat = 0x1000 + o →
    (sndCardTl880PlaybackPointer s.dev).toNat = o / 4
  prepares : ∀ params, ringStep fuel s (.prepare params) ≠ none
  triggers : ∀ cmd, ringStep fuel s (.trigger cmd) ≠ none

/-- A card with room for the largest buffer. -/
structure PlaybackCard (m : CardMem) : Prop where
  mapped : m.mapped = true
  room : 0x81000 ≤ m.memlen.toNat
  short : m.memlen.toNat ≤ 2 ^ 32 - 4

/-! ## The memory functions -/

section Memory

variable {m : CardMem}

/-- The bytes from `start` on are replaced, and the rest of the memory is as it was. -/
structure Replaced (m : CardMem) (start len : Nat) (item : Nat → U8) (t : CardMem) : Prop where
  mapped : t.mapped = m.mapped
  memlen : t.memlen = m.memlen
  bytes : ∀ o, t.byte o = if start ≤ o ∧ o < start + len then item (o - start) else m.byte o

/-- A clear of whole dwords inside the memory. -/
theorem clearSdram_replaced {start len : Nat} (fuel : Nat) (hmapped : m.mapped = true)
    (hstart : start % 4 = 0) (hlen : len % 4 = 0) (hroom : start + len ≤ m.memlen.toNat)
    (hshort : m.memlen.toNat ≤ 2 ^ 32 - 4) (hfuel : len / 4 < fuel) {startAddr endAddr : U32}
    (hstartAddr : startAddr.toNat = start) (hendAddr : endAddr.toNat = start + len) :
    ∃ t, clearSdram fuel m startAddr endAddr 0 = some t ∧ Replaced m start len (fun _ => 0) t := by
  have hmin : min endAddr.toNat m.memlen.toNat = start + len := by omega
  obtain ⟨t, hloop, hcleared⟩ := clearLoop_ends endAddr 0 (len / 4) (i := startAddr) (m := m)
    (by omega) (by omega) hshort
  refine ⟨t, hloop fuel hfuel, hcleared.mapped, hcleared.memlen, ?_⟩
  intro o
  rw [hcleared.bytes hmapped o, hmin, hstartAddr]
  have hzero : byteOf 0 (o % 4) = 0 := by simp [byteOf]
  by_cases hin : start ≤ o ∧ o < start + len
  · rw [if_pos hin, if_pos (by omega), hzero]
  · rw [if_neg hin, if_neg (by omega)]

/-- A copy inside the memory. -/
theorem tl880Memcpy_replaced {start len : Nat} (src : Nat → U8)
    (hroom : start + len ≤ m.memlen.toNat) {addr : U32} {length : U64}
    (haddr : addr.toNat = start) (hlength : length.toNat = len) :
    Replaced m start len src (tl880Memcpy m (some src) addr length) := by
  have hwide : (addr.setWidth 64 : U64).toNat = start := (wideAddr_toNat addr).trans haddr
  have hinside : ¬ m.memlen < addr.setWidth 64 := by
    rw [BitVec.lt_def, hwide]
    omega
  have hclamp : clampLength m addr length = length := by
    rw [clampLength, if_neg]
    rw [BitVec.lt_def, BitVec.toNat_add, hwide, hlength]
    have hmem := m.memlen.isLt
    rw [Nat.mod_eq_of_lt (by omega)]
    omega
  simp only [tl880Memcpy, if_neg hinside, hclamp, haddr, hlength]
  exact ⟨rfl, rfl, fun o => rfl⟩

theorem Replaced.card {start len : Nat} {item : Nat → U8} {t : CardMem}
    (h : Replaced m start len item t) (hcard : PlaybackCard m) : PlaybackCard t where
  mapped := h.mapped.trans hcard.mapped
  room := h.memlen ▸ hcard.room
  short := h.memlen ▸ hcard.short

/-- Bytes of the buffer are places of the ring. -/
theorem Replaced.transferred {start len : Nat} {item : Nat → U8} {t : CardMem}
    (h : Replaced m (0x1000 + start) len item t) (size : Nat) :
    Ring.Transferred size start len item (fun o => m.byte (0x1000 + o))
      fun o => t.byte (0x1000 + o) := by
  intro o _
  dsimp only
  rw [h.bytes]
  by_cases hin : start ≤ o ∧ o < start + len
  · have hplace : 0x1000 + o - (0x1000 + start) = o - start := by omega
    rw [if_pos (by omega), if_pos hin, hplace]
  · rw [if_neg (by omega), if_neg hin]

/-- A byte that is not replaced stays. -/
theorem Replaced.outside {start len : Nat} {item : Nat → U8} {t : CardMem}
    (h : Replaced m start len item t) {o : Nat} (ho : o < start ∨ start + len ≤ o) :
    t.byte o = m.byte o := by
  rw [h.bytes, if_neg (by omega)]

end Memory

/-! ## Frames and bytes -/

theorem framesToBytes_toNat {frames : Nat} (hframes : frames < 2 ^ 32) :
    (framesToBytes (BitVec.ofNat 64 frames)).toNat = 4 * frames := by
  have hbits : (32 : U64).toNat = 32 := rfl
  have height : (8 : U64).toNat = 8 := rfl
  rw [framesToBytes, BitVec.toNat_udiv, BitVec.toNat_mul, BitVec.toNat_ofNat, hbits, height]
  omega

/-- A transfer begins inside the buffer. -/
theorem transferAddr_toNat {d : AlsaDev} (hbase : d.pcm.bufferBase = 0x1000) {pos : Nat}
    (hpos : pos ≤ 0x20000) : (transferAddr d (BitVec.ofNat 64 pos)).toNat = 0x1000 + 4 * pos := by
  have hwide : ((0x1000 : U32).setWidth 64 : U64).toNat = 0x1000 := rfl
  rw [transferAddr, hbase, BitVec.toNat_setWidth, BitVec.toNat_add, hwide,
    framesToBytes_toNat (by omega)]
  omega

/-- The frame of a playback position. -/
theorem playbackPointer_toNat {d : AlsaDev} (hbase : d.pcm.bufferBase = 0x1000) {o : Nat}
    (ho : o < 0x80000) (hposition : (d.read 0x302c).toNat = 0x1000 + o) :
    (sndCardTl880PlaybackPointer d).toNat = o / 4 := by
  have hoffset : (d.read 0x302c - d.pcm.bufferBase).toNat = o := by
    have hbase' : (0x1000 : U32).toNat = 0x1000 := rfl
    rw [hbase, BitVec.toNat_sub, hposition, hbase']
    omega
  have hbits : (32 : U64).toNat = 32 := rfl
  have height : (8 : U64).toNat = 8 := rfl
  rw [sndCardTl880PlaybackPointer, bytesToFrames, BitVec.toNat_udiv, BitVec.toNat_mul,
    BitVec.toNat_setWidth, hoffset, hbits, height]
  omega

/-! ## The invariant -/

/-- What every call keeps. -/
structure RingInv (before : CardMem) (s : PlaybackRing) : Prop where
  params : ∃ p : FrameParams, s.dev.pcm.periodSize = p.periodBytes ∧
    s.dev.pcm.periodCount = p.periods
  base : s.dev.pcm.bufferBase = 0x1000
  card : PlaybackCard s.mem
  lost : s.lost ≤ s.appl
  filled : s.filled ≤ s.bufferFrames
  ring : Ring.Holds 0 (4 * s.bufferFrames) s.stream (4 * s.lost) (4 * s.appl) (4 * s.filled)
    fun o => s.mem.byte (0x1000 + o)
  outside : ∀ o, o < 0x1000 ∨ 0x81000 ≤ o → s.mem.byte o = before.byte o

/-- The size of a buffer of whole frames. -/
theorem FrameParams.size (p : FrameParams) :
    4 * (p.periodBytes.toNat * p.periods.toNat / 4) = p.periodBytes.toNat * p.periods.toNat ∧
      0 < p.periodBytes.toNat * p.periods.toNat ∧
      p.periodBytes.toNat * p.periods.toNat ≤ 0x80000 := by
  have hmin := p.periodBytes_min
  have hcount := p.periods_min
  have hmax := p.buffer_max
  unfold minPeriodSize at hmin
  unfold usePeriodsMin at hcount
  unfold maxBufferSize at hmax
  have hpos : 0 < p.periodBytes.toNat * p.periods.toNat := Nat.mul_pos (by omega) (by omega)
  have hwhole : p.periodBytes.toNat * p.periods.toNat % 4 = 0 := by
    rw [Nat.mul_mod, p.whole, Nat.zero_mul, Nat.zero_mod]
  omega

variable {before : CardMem} {s t : PlaybackRing} {fuel : Nat}

theorem RingInv.size (h : RingInv before s) :
    4 * s.bufferFrames = s.dev.pcm.periodSize.toNat * s.dev.pcm.periodCount.toNat ∧
      0 < s.bufferFrames ∧ s.bufferFrames ≤ 0x20000 := by
  obtain ⟨p, hsize, hcount⟩ := h.params
  have hp := p.size
  rw [PlaybackRing.bufferFrames, hsize, hcount]
  omega

/-- A clear of the buffer. -/
theorem clearBuffer_replaced (pcm : SndTl880Pcm) {m : CardMem} (p : FrameParams)
    (hsize : pcm.periodSize = p.periodBytes) (hcount : pcm.periodCount = p.periods)
    (hbase : pcm.bufferBase = 0x1000) (hcard : PlaybackCard m) (hfuel : 0x20000 < fuel) :
    ∃ t, clearBuffer fuel pcm m = some t ∧
      Replaced m 0x1000 (p.periodBytes.toNat * p.periods.toNat) (fun _ => 0) t := by
  have hp := p.size
  have hroom := hcard.room
  have hstart : (0x1000 : U32).toNat = 0x1000 := rfl
  rw [clearBuffer, hsize, hcount, hbase]
  refine clearSdram_replaced fuel hcard.mapped rfl (by omega) (by omega) hcard.short (by omega)
    hstart ?_
  rw [BitVec.toNat_add, BitVec.toNat_mul, hstart]
  omega

/-- A blank buffer is that of a stream that begins now. -/
theorem ring_blank {m t : CardMem} {size : Nat} (h : Replaced m 0x1000 size (fun _ => 0) t)
    (hsize : 0 < size) (stream : Nat → U8) (hi ahead : Nat) :
    Ring.Holds 0 size stream hi hi ahead fun o => t.byte (0x1000 + o) := by
  refine Ring.Holds.ofBlank stream hi ahead hsize ?_
  intro o ho
  rw [h.bytes, if_pos (by omega)]

/-! ## One call -/

/-- A prepare begins with a blank buffer. -/
theorem prepare_inv (params : FrameParams) (d : AlsaDev) {m : CardMem} (hcard : PlaybackCard m)
    (hfuel : 0x20000 < fuel) :
    ∃ t, prepareBuffer fuel params.toHwParams d m =
        some (sndCardTl880PcmPrepare params.toHwParams d, t) ∧
      RingInv m (.prepared (sndCardTl880PcmPrepare params.toHwParams d) t) := by
  obtain ⟨t, hclear, hreplaced⟩ := clearBuffer_replaced
    (sndCardTl880PcmPrepare params.toHwParams d).pcm params rfl rfl rfl hcard hfuel
  obtain ⟨hframes, hpos, hmax⟩ := params.size
  refine ⟨t, ?_, ⟨params, rfl, rfl⟩, rfl, hreplaced.card hcard, Nat.le_refl 0,
    Nat.zero_le _, ?_, ?_⟩
  · rw [prepareBuffer]
    show (clearBuffer fuel _ m).bind _ = _
    rw [hclear]
    rfl
  · show Ring.Holds 0 (4 * (params.periodBytes.toNat * params.periods.toNat / 4)) _ 0 0 0 _
    rw [hframes]
    exact ring_blank hreplaced hpos _ 0 0
  · intro o ho
    exact hreplaced.outside (by omega)

theorem RingInv.prepare (h : RingInv before s) (params : FrameParams) (hfuel : 0x20000 < fuel) :
    ∃ t, ringStep fuel s (.prepare params) = some t ∧ RingInv before t := by
  obtain ⟨t, hprepare, hinv⟩ := prepare_inv params s.dev h.card hfuel
  refine ⟨_, ?_, { hinv with outside := ?_ }⟩
  · show (prepareBuffer fuel params.toHwParams s.dev s.mem).bind _ = _
    rw [hprepare]
    rfl
  · intro o ho
    exact (hinv.outside o ho).trans (h.outside o ho)

/-- The invariant is about three fields of the stream's description only. -/
theorem RingInv.withDev (h : RingInv before s) {d : AlsaDev}
    (hsize : d.pcm.periodSize = s.dev.pcm.periodSize)
    (hcount : d.pcm.periodCount = s.dev.pcm.periodCount)
    (hbase : d.pcm.bufferBase = s.dev.pcm.bufferBase) : RingInv before { s with dev := d } := by
  have hframes : PlaybackRing.bufferFrames { s with dev := d } = s.bufferFrames := by
    rw [PlaybackRing.bufferFrames, PlaybackRing.bufferFrames, hsize, hcount]
  obtain ⟨p, hp⟩ := h.params
  refine ⟨⟨p, ?_⟩, hbase.trans h.base, h.card, h.lost, ?_, ?_, h.outside⟩
  · rw [hsize, hcount]
    exact hp
  · rw [hframes]
    exact h.filled
  · rw [hframes]
    exact h.ring

/-- `START` clears the buffer, and the other commands leave the memory alone. -/
theorem RingInv.trigger (h : RingInv before s) (cmd : TriggerCmd) (hfuel : 0x20000 < fuel) :
    ∃ t, ringStep fuel s (.trigger cmd) = some t ∧ RingInv before t := by
  have hpcm : (triggerRegs cmd s.dev).pcm = s.dev.pcm := by cases cmd <;> rfl
  by_cases hcmd : cmd = .start
  · obtain ⟨p, hsize, hcount⟩ := h.params
    obtain ⟨hframes, hpos, hmax⟩ := h.size
    obtain ⟨mem, hclear, hreplaced⟩ :=
      clearBuffer_replaced s.dev.pcm p hsize hcount h.base h.card hfuel
    rw [← hsize, ← hcount, ← hframes] at hreplaced
    refine ⟨{ s with dev := triggerRegs cmd s.dev, mem := mem, lost := s.appl }, ?_, ?_⟩
    · simp only [ringStep, triggerBuffer, if_pos hcmd, hclear]
      rfl
    have hcleared : RingInv before { s with mem := mem, lost := s.appl } := by
      refine ⟨h.params, h.base, hreplaced.card h.card, Nat.le_refl _, h.filled, ?_, ?_⟩
      · exact ring_blank hreplaced (by omega) s.stream _ _
      · intro o ho
        rw [hreplaced.outside (by omega)]
        exact h.outside o ho
    exact hcleared.withDev (congrArg _ hpcm) (congrArg _ hpcm) (congrArg _ hpcm)
  · refine ⟨{ s with dev := triggerRegs cmd s.dev }, ?_, ?_⟩
    · simp only [ringStep, triggerBuffer, if_neg hcmd]
      rfl
    · exact h.withDev (congrArg _ hpcm) (congrArg _ hpcm) (congrArg _ hpcm)

/-- The timer function moves positions only. -/
theorem RingInv.timer (h : RingInv before s) :
    RingInv before { s with dev := sndCardTl880PcmTimerFunction s.dev } := by
  apply h.withDev
  all_goals
    unfold sndCardTl880PcmTimerFunction
    dsimp only
    split_ifs <;> rfl

/-- A transfer stays in the buffer. -/
theorem RingInv.transfer_outside (h : RingInv before s) {pos frames : Nat}
    (hfits : pos + frames ≤ s.bufferFrames) {item : Nat → U8} {mem : CardMem}
    (hmem : Replaced s.mem (0x1000 + 4 * pos) (4 * frames) item mem) {o : Nat}
    (ho : o < 0x1000 ∨ 0x81000 ≤ o) : mem.byte o = before.byte o := by
  have hsize := h.size
  rw [hmem.outside (by omega)]
  exact h.outside o ho

/-- A copy puts the next frames of the stream into the ring. -/
theorem RingInv.copy (h : RingInv before s) {frames : Nat} {data : Nat → U8}
    (hstep : ringStep fuel s (.copy frames data) = some t) : RingInv before t := by
  obtain ⟨hframes, hpos, hmax⟩ := h.size
  have hroom := h.card.room
  simp only [ringStep] at hstep
  split_ifs at hstep with hfits
  cases hstep
  have hmem : Replaced s.mem (0x1000 + 4 * (s.appl % s.bufferFrames)) (4 * frames) data
      (sndCardTl880PlaybackCopy s.dev s.mem (-1) (BitVec.ofNat 64 (s.appl % s.bufferFrames))
        (some data) (BitVec.ofNat 64 frames)).2 :=
    tl880Memcpy_replaced data (by omega) (transferAddr_toNat h.base (by omega))
      (framesToBytes_toNat (by omega))
  generalize (sndCardTl880PlaybackCopy s.dev s.mem (-1) _ (some data) _).2 = mem at hmem ⊢
  refine ⟨h.params, h.base, hmem.card h.card, ?_, ?_, ?_, ?_⟩
  · exact Nat.le_trans h.lost (Nat.le_add_right _ _)
  · exact Nat.le_trans (Nat.sub_le _ _) h.filled
  · have hlost := h.lost
    have hfilled := h.filled
    have hplace : 4 * s.appl % (4 * s.bufferFrames) = 4 * (s.appl % s.bufferFrames) :=
      Nat.mul_mod_mul_left _ _ _
    have hstream : Ring.Holds 0 (4 * s.bufferFrames)
        (fun j => if 4 * s.appl ≤ j then data (j - 4 * s.appl) else s.stream j) (4 * s.lost)
        (4 * s.appl) (4 * s.filled) fun o => s.mem.byte (0x1000 + o) := by
      refine h.ring.congr ?_
      intro j hj
      rw [if_neg (by omega)]
    have hdata : (fun i => if 4 * s.appl ≤ 4 * s.appl + i then data (4 * s.appl + i - 4 * s.appl)
        else s.stream (4 * s.appl + i)) = data := by
      ext1 i
      rw [if_pos (by omega), Nat.add_sub_cancel_left]
    have hring := hmem.transferred (4 * s.bufferFrames)
    rw [← hplace, ← hdata] at hring
    have hnext := hstream.write (by omega) (by omega) (by omega) (by omega) hring
    rw [← Nat.mul_add, ← Nat.mul_sub] at hnext
    exact hnext
  · intro o ho
    exact h.transfer_outside hfits hmem ho

/-- Blank frames go ahead of the stream. -/
theorem RingInv.silence (h : RingInv before s) (hfuel : 0x20000 < fuel) {frames : Nat}
    (hstep : ringStep fuel s (.silence frames) = some t) : RingInv before t := by
  obtain ⟨hframes, hpos, hmax⟩ := h.size
  have hroom := h.card.room
  simp only [ringStep] at hstep
  split_ifs at hstep with hfits
  obtain ⟨hpart, hahead⟩ := hfits
  have haddr := transferAddr_toNat h.base
    (by omega : (s.appl + s.filled) % s.bufferFrames ≤ 0x20000)
  have hendAddr : ((s.dev.pcm.bufferBase.setWidth 64 +
      framesToBytes (BitVec.ofNat 64 ((s.appl + s.filled) % s.bufferFrames)) +
      framesToBytes (BitVec.ofNat 64 frames) : U64).setWidth 32 : U32).toNat =
      0x1000 + 4 * ((s.appl + s.filled) % s.bufferFrames) + 4 * frames := by
    have hwide : ((0x1000 : U32).setWidth 64 : U64).toNat = 0x1000 := rfl
    rw [h.base, BitVec.toNat_setWidth, BitVec.toNat_add, BitVec.toNat_add, hwide,
      framesToBytes_toNat (by omega), framesToBytes_toNat (by omega)]
    omega
  obtain ⟨mem, hclear, hmem⟩ := clearSdram_replaced fuel h.card.mapped (by omega)
    (by omega) (by omega) h.card.short (by omega) haddr hendAddr
  have hcall : sndCardTl880PlaybackSilence fuel s.dev s.mem (-1)
      (BitVec.ofNat 64 ((s.appl + s.filled) % s.bufferFrames)) (BitVec.ofNat 64 frames) =
      some (0, mem) := by
    simp only [sndCardTl880PlaybackSilence, hclear]
    rfl
  rw [hcall] at hstep
  cases hstep
  refine ⟨h.params, h.base, hmem.card h.card, h.lost, hahead, ?_, ?_⟩
  · have hplace : (4 * s.appl + 4 * s.filled) % (4 * s.bufferFrames) =
        4 * ((s.appl + s.filled) % s.bufferFrames) := by
      rw [← Nat.mul_add]
      exact Nat.mul_mod_mul_left _ _ _
    have hring := hmem.transferred (4 * s.bufferFrames)
    rw [← hplace] at hring
    have hnext := h.ring.silence (by omega) (by omega) (by omega) hring
    rw [← Nat.mul_add] at hnext
    exact hnext
  · intro o ho
    exact h.transfer_outside hpart hmem ho

/-- Every call keeps the invariant. -/
theorem RingInv.step (h : RingInv before s) (hfuel : 0x20000 < fuel) {call : RingCall}
    (hstep : ringStep fuel s call = some t) : RingInv before t := by
  cases call with
  | prepare params =>
      obtain ⟨t', hsome, hinv⟩ := h.prepare params hfuel
      rw [hsome] at hstep
      cases hstep
      exact hinv
  | trigger cmd =>
      obtain ⟨t', hsome, hinv⟩ := h.trigger cmd hfuel
      rw [hsome] at hstep
      cases hstep
      exact hinv
  | timer =>
      cases hstep
      exact h.timer
  | copy frames data => exact h.copy hstep
  | silence frames => exact h.silence hfuel hstep

theorem RingInv.good (h : RingInv before s) (hfuel : 0x20000 < fuel) :
    RingGood fuel before s where
  ring := h.ring
  outside := h.outside
  pointer o ho hposition := by
    have hsize := h.size
    exact playbackPointer_toNat h.base (by omega) hposition
  prepares params := by
    obtain ⟨t, hsome, -⟩ := h.prepare params hfuel
    simp [hsome]
  triggers cmd := by
    obtain ⟨t, hsome, -⟩ := h.trigger cmd hfuel
    simp [hsome]

/-- In every run on a prepared substream the buffer is the ring of the stream since the last
`START`. -/
theorem playback_ring (params : FrameParams) (d : AlsaDev) {m : CardMem} (hcard : PlaybackCard m)
    {fuel : Nat} (hfuel : 0x20000 < fuel) (calls : List RingCall) :
    ∃ d' m', prepareBuffer fuel params.toHwParams d m = some (d', m') ∧
      AllStates (ringStep fuel) (RingGood fuel m) (.prepared d' m') calls := by
  obtain ⟨m', hprepare, hinv⟩ := prepare_inv params d hcard hfuel
  refine ⟨_, m', hprepare, ?_⟩
  have hrun : AllStates (ringStep fuel) (RingInv m) _ calls :=
    allStates_of_preserves (fun s call t h hstep => h.step hfuel hstep) hinv calls
  exact hrun.imp fun s h => h.good hfuel

/-- The smallest buffer. -/
def smallestBuffer : FrameParams where
  periodBytes := 0x4000
  periods := 2
  periodBytes_min := Nat.le_of_ble_eq_true rfl
  periodBytes_max := Nat.le_of_ble_eq_true rfl
  periods_min := Nat.le_of_ble_eq_true rfl
  periods_max := Nat.le_of_ble_eq_true rfl
  buffer_max := Nat.le_of_ble_eq_true rfl
  whole := rfl

/-- Frames are copied, the stream is started, and more frames are copied. -/
theorem playback_ring_started :
    ∃ d' m', prepareBuffer 0x20001 smallestBuffer.toHwParams
        ⟨⟨0, 0, 0, 0⟩, ⟨true, fun _ => 0⟩, 0, 0⟩ ⟨true, 0x100000, fun _ => 7, []⟩ = some (d', m') ∧
      AllStates (ringStep 0x20001) (RingGood 0x20001 ⟨true, 0x100000, fun _ => 7, []⟩)
        (.prepared d' m') [.copy 8 fun _ => 1, .trigger .start, .copy 8 fun _ => 2] :=
  playback_ring smallestBuffer ⟨⟨0, 0, 0, 0⟩, ⟨true, fun _ => 0⟩, 0, 0⟩
    ⟨rfl, by decide, by decide⟩ (by decide) _

end Tl880
