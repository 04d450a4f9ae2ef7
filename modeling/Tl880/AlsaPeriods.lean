import Tl880.Lib.LabelledRun
import Tl880.AlsaPcm

/-!
# Period accounting

A `Playback` is a stream that has been prepared and started, together with how far
its position has travelled.  A run is a sequence of timer ticks, each of which finds
a position in the buffer, less than a period behind the one before.

With the two periods the hardware admits, `buffer_pos` never leaves the start of the
buffer: its modulus is one period shorter than the buffer.  Every tick that finds
the position inside the second period therefore reports an elapsed period.
`periodAccounting_iff` says which runs still count right.
-/

namespace Tl880

open LabelledRun

/-- The length of the buffer. -/
def HwParams.bufferBytes (params : HwParams) : Nat :=
  params.periodBytes.toNat * params.periods.toNat

/-- A playing stream: its last position and what `lastreg302c` was before it was
found, how far the position has travelled since the start, and how many period
boundaries it had crossed one tick before. -/
structure Playback where
  dev : AlsaDev
  ticked : Bool
  position : U32
  remembered : U32
  travelled : Nat
  crossedBefore : Nat

/-- A position is in the buffer. -/
def InBuffer (params : HwParams) (position : U32) : Prop :=
  0x1000 ≤ position.toNat ∧ position.toNat < 0x1000 + params.bufferBytes

instance (params : HwParams) (position : U32) : Decidable (InBuffer params position) :=
  inferInstanceAs (Decidable (_ ∧ _))

/-- How far the position moved, modulo the buffer. -/
def advance (params : HwParams) (last next : U32) : Nat :=
  (next.toNat + params.bufferBytes - last.toNat) % params.bufferBytes

/-- One tick, which finds the position in register 0x302c. -/
def tickStep (params : HwParams) (s : Playback) (position : U32) : Option Playback :=
  if InBuffer params position ∧
      (s.ticked = true → 0 < advance params s.position position ∧
        advance params s.position position < params.periodBytes.toNat) then
    -- the hardware moves the position, and the timer function finds it
    some {
      dev := sndCardTl880PcmTimerFunction { s.dev with
        regs := { s.dev.regs with cell := Function.update s.dev.regs.cell 0x302c position } }
      ticked := true
      position := position
      remembered := s.dev.lastreg302c
      travelled := s.travelled + advance params s.position position
      crossedBefore := s.travelled / params.periodBytes.toNat }
  else none

/-- A stream after `prepare` and START, on a card with any register contents, and
with any position remembered from before. -/
def Playback.started (params : HwParams) (pcm : SndTl880Pcm) (cell : U32 → U32)
    (lastreg302c : U32) : Playback where
  dev := triggerRegs .start (sndCardTl880PcmPrepare params ⟨pcm, ⟨true, cell⟩, lastreg302c, 0⟩)
  ticked := false
  position := 0x1000
  remembered := lastreg302c
  travelled := 0
  crossedBefore := 0

/-- The number of elapsed periods is the number of period boundaries crossed so far,
or was one tick before. -/
def Playback.InStep (params : HwParams) (s : Playback) : Prop :=
  s.crossedBefore ≤ s.dev.periodElapsed ∧
    s.dev.periodElapsed ≤ s.travelled / params.periodBytes.toNat

/-- What a tick needs for the count to stay in step.  The first one must not find a
position in the first period that is smaller than the one remembered from before.  A
later one must not find the position further on in the second period than the last
one did; nor behind the boundary, if the last one found it on the boundary and has
reported it already. -/
def Playback.KeepsCount (params : HwParams) (s : Playback) (position : U32) : Prop :=
  if s.ticked = false then
    s.dev.lastreg302c.toNat ≤ position.toNat ∨
      0x1000 + params.periodBytes.toNat ≤ position.toNat
  else
    s.position.toNat < position.toNat →
      ¬ (0x1000 + params.periodBytes.toNat < s.position.toNat ∨
        (s.position.toNat = 0x1000 + params.periodBytes.toNat ∧
          s.position.toNat < s.remembered.toNat))

/-! ## What a tick does -/

/-- The stream as it is prepared. -/
def HwParams.prepared (params : HwParams) : SndTl880Pcm :=
  ⟨params.periodBytes, params.periods, 0x1000, 0x1000⟩

theorem HwParams.periods_eq (params : HwParams) : params.periods = 2 := by
  apply BitVec.eq_of_toNat_eq
  exact Nat.le_antisymm params.periods_max params.periods_min

theorem HwParams.bufferBytes_eq (params : HwParams) :
    params.bufferBytes = 2 * params.periodBytes.toNat := by
  unfold HwParams.bufferBytes
  rw [params.periods_eq, Nat.mul_comm]
  rfl

/-- The buffer position wraps to where it was. -/
theorem nextPeriod_spec (params : HwParams) {d : AlsaDev} (hpcm : d.pcm = params.prepared)
    (hbase : d.read 0x3020 = 0x1000) :
    (nextPeriod d).pcm = params.prepared ∧ (nextPeriod d).regs.mapped = d.regs.mapped ∧
      (nextPeriod d).read 0x3020 = 0x1000 ∧
      (nextPeriod d).periodElapsed = d.periodElapsed := by
  have hone : params.periodBytes * (params.periods - 1) = params.periodBytes := by
    have hlast : params.periods - 1 = 1#32 := by
      rw [params.periods_eq]
      decide
    rw [hlast]
    exact BitVec.mul_one _
  have hwrap : params.prepared.bufferPos + params.prepared.periodSize ≥
      0x1000 + params.prepared.periodSize * (params.prepared.periodCount - 1) := by
    show (0x1000 : U32) + params.periodBytes * (params.periods - 1) ≤
      0x1000 + params.periodBytes
    rw [hone]
    exact BitVec.le_refl _
  unfold nextPeriod
  dsimp only
  rw [hbase, hpcm]
  refine ⟨?_, tl880WriteRegister_mapped _ _ _, ?_, rfl⟩
  · rw [if_pos hwrap]
    rfl
  · exact (tl880ReadRegister_write_ne _ (by decide) _).trans hbase

/-- A tick in a stream that is as it was prepared leaves it so, remembers the position
and reports an elapsed period when the position is inside the second period or smaller
than the one remembered. -/
theorem timerFunction_spec (params : HwParams) {d : AlsaDev} (hpcm : d.pcm = params.prepared)
    (hmapped : d.regs.mapped = true) (hbase : d.read 0x3020 = 0x1000) (position : U32) :
    let d' := sndCardTl880PcmTimerFunction { d with
      regs := { d.regs with cell := Function.update d.regs.cell 0x302c position } }
    d'.pcm = params.prepared ∧ d'.regs.mapped = true ∧ d'.read 0x3020 = 0x1000 ∧
      d'.lastreg302c = position ∧
      (((0x1000 + params.periodBytes.toNat < position.toNat ∨
          position.toNat < d.lastreg302c.toNat) ∧
          d'.periodElapsed = d.periodElapsed + 1) ∨
        (¬ (0x1000 + params.periodBytes.toNat < position.toNat ∨
          position.toNat < d.lastreg302c.toNat) ∧ d'.periodElapsed = d.periodElapsed)) := by
  intro d'
  have hread : ({ d with regs := { d.regs with
      cell := Function.update d.regs.cell 0x302c position } } : AlsaDev).read 0x302c =
        position := by
    simp [AlsaDev.read, tl880ReadRegister, hmapped]
  have hbase' : ({ d with regs := { d.regs with
      cell := Function.update d.regs.cell 0x302c position } } : AlsaDev).read 0x3020 =
        0x1000 := by
    rw [← hbase]
    simp [AlsaDev.read, tl880ReadRegister, hmapped]
  have hend : (0x1000 + params.periodBytes : U32).toNat = 0x1000 + params.periodBytes.toNat := by
    have hmax : params.periodBytes.toNat ≤ 0x40000 := params.periodBytes_max
    rw [BitVec.toNat_add]
    exact Nat.mod_eq_of_lt (by simp; omega)
  have hcond : (d.pcm.bufferPos + d.pcm.periodSize < position ∨ position < d.lastreg302c) ↔
      (0x1000 + params.periodBytes.toNat < position.toNat ∨
        position.toNat < d.lastreg302c.toNat) := by
    rw [hpcm, ← hend]
    rfl
  obtain ⟨hpcm', hmapped', hbase'', helapsed⟩ := nextPeriod_spec params
    (d := { d with regs := { d.regs with
      cell := Function.update d.regs.cell 0x302c position } }) hpcm hbase'
  show (sndCardTl880PcmTimerFunction _).pcm = _ ∧ _
  simp only [d', sndCardTl880PcmTimerFunction, hread]
  split_ifs with hsignal
  · exact ⟨hpcm', hmapped'.trans hmapped, hbase'', rfl,
      Or.inl ⟨hcond.mp hsignal, congrArg (· + 1) helapsed⟩⟩
  · exact ⟨hpcm, hmapped, hbase', rfl, Or.inr ⟨fun h => hsignal (hcond.mpr h), rfl⟩⟩

/-! ## Laps -/

/-- The boundaries crossed after some laps of two periods. -/
theorem crossed_lap {period : Nat} (hperiod : 0 < period) (laps : Nat) {offset : Nat}
    (hoffset : offset < 2 * period) :
    (period ≤ offset ∧ (laps * (2 * period) + offset) / period = 2 * laps + 1) ∨
      (offset < period ∧ (laps * (2 * period) + offset) / period = 2 * laps) := by
  have hsplit : (laps * (2 * period) + offset) / period = 2 * laps + offset / period := by
    have hlaps : laps * (2 * period) = 2 * laps * period := by
      rw [← Nat.mul_assoc, Nat.mul_comm laps 2]
    rw [hlaps, Nat.add_comm, Nat.add_mul_div_right _ _ hperiod, Nat.add_comm]
  rw [hsplit]
  by_cases hfirst : offset < period
  · right
    exact ⟨hfirst, by rw [Nat.div_eq_of_lt hfirst]; rfl⟩
  · left
    have hone : offset / period = 1 := by
      rw [Nat.div_eq_iff hperiod]
      omega
    exact ⟨Nat.not_lt.mp hfirst, by rw [hone]⟩

/-- How far the position moves: forward within the buffer, or over its end. -/
theorem advance_cases {params : HwParams} {last next : U32} (hlast : InBuffer params last)
    (hnext : InBuffer params next) :
    (last.toNat ≤ next.toNat ∧ advance params last next = next.toNat - last.toNat) ∨
      (next.toNat < last.toNat ∧
        advance params last next = next.toNat + params.bufferBytes - last.toNat) := by
  obtain ⟨hlast₁, hlast₂⟩ := hlast
  obtain ⟨hnext₁, hnext₂⟩ := hnext
  unfold advance
  rcases Nat.lt_or_ge next.toNat last.toNat with hwrap | hforward
  · right
    exact ⟨hwrap, Nat.mod_eq_of_lt (by omega)⟩
  · left
    have hsplit : next.toNat + params.bufferBytes - last.toNat =
        next.toNat - last.toNat + params.bufferBytes := by omega
    rw [hsplit, Nat.add_mod_right]
    exact ⟨hforward, Nat.mod_eq_of_lt (by omega)⟩

/-! ## The invariant -/

/-- A stream as long as its ticks keep the count. -/
structure Paced (params : HwParams) (s : Playback) : Prop where
  pcm : s.dev.pcm = params.prepared
  mapped : s.dev.regs.mapped = true
  base : s.dev.read 0x3020 = 0x1000
  inBuffer : InBuffer params s.position
  /-- The position is where the distance travelled puts it. -/
  laps : ∃ laps, s.travelled =
    laps * (2 * params.periodBytes.toNat) + (s.position.toNat - 0x1000)
  fresh : s.ticked = false → s.position = 0x1000 ∧ s.travelled = 0 ∧
    s.dev.periodElapsed = 0 ∧ s.crossedBefore = 0
  lastreg : s.ticked = true → s.dev.lastreg302c = s.position
  /-- Only a boundary that was met exactly, coming from below, is still to be reported. -/
  counted : s.ticked = true →
    (s.position.toNat = 0x1000 + params.periodBytes.toNat ∧
        s.remembered.toNat ≤ s.position.toNat ∧
        s.dev.periodElapsed + 1 = s.travelled / params.periodBytes.toNat) ∨
      (¬ (s.position.toNat = 0x1000 + params.periodBytes.toNat ∧
        s.remembered.toNat ≤ s.position.toNat) ∧
        s.dev.periodElapsed = s.travelled / params.periodBytes.toNat)
  lag : s.crossedBefore ≤ s.dev.periodElapsed

/-- Everything a tick does. -/
structure Tick (params : HwParams) (s : Playback) (position : U32) (s' : Playback) :
    Prop where
  pcm : s'.dev.pcm = params.prepared
  mapped : s'.dev.regs.mapped = true
  base : s'.dev.read 0x3020 = 0x1000
  inBuffer : InBuffer params position
  ticked : s'.ticked = true
  position_eq : s'.position = position
  remembered_eq : s'.remembered = s.dev.lastreg302c
  lastreg_eq : s'.dev.lastreg302c = position
  crossedBefore_eq : s'.crossedBefore = s.travelled / params.periodBytes.toNat
  elapsed : ((0x1000 + params.periodBytes.toNat < position.toNat ∨
        position.toNat < s.dev.lastreg302c.toNat) ∧
      s'.dev.periodElapsed = s.dev.periodElapsed + 1) ∨
    (¬ (0x1000 + params.periodBytes.toNat < position.toNat ∨
        position.toNat < s.dev.lastreg302c.toNat) ∧
      s'.dev.periodElapsed = s.dev.periodElapsed)
  moved : s.ticked = true → s.position.toNat ≠ position.toNat
  /-- Before and after, a boundary more is crossed in the second period of a lap. -/
  laps : ∃ laps laps',
    s'.travelled = laps' * (2 * params.periodBytes.toNat) + (position.toNat - 0x1000) ∧
    ((0x1000 + params.periodBytes.toNat ≤ s.position.toNat ∧
        s.travelled / params.periodBytes.toNat = 2 * laps + 1) ∨
      (s.position.toNat < 0x1000 + params.periodBytes.toNat ∧
        s.travelled / params.periodBytes.toNat = 2 * laps)) ∧
    ((0x1000 + params.periodBytes.toNat ≤ position.toNat ∧
        s'.travelled / params.periodBytes.toNat = 2 * laps' + 1) ∨
      (position.toNat < 0x1000 + params.periodBytes.toNat ∧
        s'.travelled / params.periodBytes.toNat = 2 * laps')) ∧
    ((s.position.toNat ≤ position.toNat ∧ laps' = laps) ∨
      (position.toNat + params.periodBytes.toNat < s.position.toNat ∧ laps' = laps + 1))

/-- The boundaries crossed, from a position in the buffer. -/
theorem crossed_position {params : HwParams} {position : U32} (hin : InBuffer params position)
    {laps travelled : Nat} (htravelled : travelled =
      laps * (2 * params.periodBytes.toNat) + (position.toNat - 0x1000)) :
    (0x1000 + params.periodBytes.toNat ≤ position.toNat ∧
        travelled / params.periodBytes.toNat = 2 * laps + 1) ∨
      (position.toNat < 0x1000 + params.periodBytes.toNat ∧
        travelled / params.periodBytes.toNat = 2 * laps) := by
  obtain ⟨hin₁, hin₂⟩ := hin
  rw [params.bufferBytes_eq] at hin₂
  have hmin : 0x4000 ≤ params.periodBytes.toNat := params.periodBytes_min
  have hperiod : 0 < params.periodBytes.toNat := by omega
  have hoffset : position.toNat - 0x1000 < 2 * params.periodBytes.toNat := by omega
  rw [htravelled]
  rcases crossed_lap hperiod laps hoffset with ⟨hsecond, hdiv⟩ | ⟨hfirst, hdiv⟩
  · left
    exact ⟨by omega, hdiv⟩
  · right
    exact ⟨by omega, hdiv⟩

/-- A tick of a stream whose count is kept. -/
theorem Paced.tick {params : HwParams} {s s' : Playback} {position : U32}
    (h : Paced params s) (hstep : tickStep params s position = some s') :
    Tick params s position s' := by
  unfold tickStep at hstep
  split_ifs at hstep with henabled
  obtain ⟨hin, hmove⟩ := henabled
  cases hstep
  obtain ⟨hpcm, hmapped, hbase, hlast, helapsed⟩ :=
    timerFunction_spec params h.pcm h.mapped h.base position
  obtain ⟨laps, hlaps⟩ := h.laps
  have hadvance := advance_cases h.inBuffer hin
  have hbuffer := params.bufferBytes_eq
  have hfresh : s.ticked = false → s.position.toNat = 0x1000 := by
    intro hticked
    rw [(h.fresh hticked).1]
    rfl
  obtain ⟨hin₁, hin₂⟩ := hin
  have hsin := h.inBuffer
  obtain ⟨hsin₁, hsin₂⟩ := hsin
  refine ⟨hpcm, hmapped, hbase, ⟨hin₁, hin₂⟩, rfl, rfl, rfl, hlast, rfl, helapsed, ?_, ?_⟩
  · intro hticked heq
    obtain ⟨hpos, -⟩ := hmove hticked
    omega
  · have hdirection : (s.position.toNat ≤ position.toNat ∧
          advance params s.position position = position.toNat - s.position.toNat) ∨
        (position.toNat + params.periodBytes.toNat < s.position.toNat ∧
          advance params s.position position =
            position.toNat + 2 * params.periodBytes.toNat - s.position.toNat) := by
      -- The first tick counts from the start of the buffer and cannot wrap.
      cases hticked : s.ticked with
      | false =>
          have hstart := hfresh hticked
          omega
      | true =>
          have hsmall := (hmove hticked).2
          omega
    rcases hdirection with ⟨hforward, hadv⟩ | ⟨hwrap, hadv⟩
    · have htravelled : s.travelled + advance params s.position position =
          laps * (2 * params.periodBytes.toNat) + (position.toNat - 0x1000) := by omega
      exact ⟨laps, laps, htravelled, crossed_position h.inBuffer hlaps,
        crossed_position ⟨hin₁, hin₂⟩ htravelled, Or.inl ⟨hforward, rfl⟩⟩
    · have htravelled : s.travelled + advance params s.position position =
          (laps + 1) * (2 * params.periodBytes.toNat) + (position.toNat - 0x1000) := by
        rw [Nat.add_mul, Nat.one_mul]
        omega
      exact ⟨laps, laps + 1, htravelled, crossed_position h.inBuffer hlaps,
        crossed_position ⟨hin₁, hin₂⟩ htravelled, Or.inr ⟨hwrap, rfl⟩⟩

/-- A prepared and started stream is paced. -/
theorem paced_started (params : HwParams) (pcm : SndTl880Pcm) (cell : U32 → U32)
    (lastreg302c : U32) : Paced params (Playback.started params pcm cell lastreg302c) := by
  have hmin : 0x4000 ≤ params.periodBytes.toNat := params.periodBytes_min
  have hbuffer := params.bufferBytes_eq
  refine ⟨rfl, ?_, ?_, ⟨Nat.le_refl _, ?_⟩, ⟨0, ?_⟩, fun _ => ⟨rfl, rfl, rfl, rfl⟩,
    fun hticked => absurd hticked Bool.false_ne_true,
    fun hticked => absurd hticked Bool.false_ne_true, Nat.le_refl _⟩
  · simp [Playback.started, triggerRegs, sndCardTl880PcmPrepare, AlsaDev.write,
      AlsaDev.writeRegbits]
  · simp [Playback.started, triggerRegs, sndCardTl880PcmPrepare, AlsaDev.write,
      AlsaDev.writeRegbits, AlsaDev.read, tl880ReadRegister_writeRegbits_ne,
      tl880ReadRegister_write_ne, tl880ReadRegister_write_self]
  · show (0x1000 : Nat) < 0x1000 + params.bufferBytes
    omega
  · show 0 = 0 * _ + (0x1000 - 0x1000)
    omega

/-- A paced stream is in step. -/
theorem Paced.inStep {params : HwParams} {s : Playback} (h : Paced params s) :
    s.InStep params := by
  constructor
  · exact h.lag
  cases hticked : s.ticked with
  | false =>
      rw [(h.fresh hticked).2.2.1]
      exact Nat.zero_le _
  | true =>
      have hcounted := h.counted hticked
      omega

/-- In a paced stream the count is behind only on an exact boundary. -/
theorem Paced.elapsed_cases {params : HwParams} {s : Playback} (h : Paced params s) :
    (s.ticked = false ∧ s.position.toNat = 0x1000 ∧ s.dev.periodElapsed = 0 ∧
        s.travelled / params.periodBytes.toNat = 0) ∨
      (s.ticked = true ∧ s.dev.lastreg302c.toNat = s.position.toNat ∧
        ((s.position.toNat = 0x1000 + params.periodBytes.toNat ∧
            s.remembered.toNat ≤ s.position.toNat ∧
            s.dev.periodElapsed + 1 = s.travelled / params.periodBytes.toNat) ∨
          (¬ (s.position.toNat = 0x1000 + params.periodBytes.toNat ∧
            s.remembered.toNat ≤ s.position.toNat) ∧
            s.dev.periodElapsed = s.travelled / params.periodBytes.toNat))) := by
  cases hticked : s.ticked with
  | false =>
      left
      obtain ⟨hposition, htravelled, helapsed, -⟩ := h.fresh hticked
      rw [hposition, htravelled, Nat.zero_div]
      exact ⟨rfl, rfl, helapsed, rfl⟩
  | true =>
      right
      exact ⟨rfl, congrArg BitVec.toNat (h.lastreg hticked), h.counted hticked⟩

/-- A tick that keeps the count leaves the stream paced. -/
theorem Paced.step {params : HwParams} {s s' : Playback} {position : U32}
    (h : Paced params s) (hok : s.KeepsCount params position)
    (hstep : tickStep params s position = some s') : Paced params s' := by
  have t := h.tick hstep
  obtain ⟨laps, laps', htravelled', hcrossed, hcrossed', hdirection⟩ := t.laps
  have hcount := t.elapsed
  have hbefore := h.elapsed_cases
  have hmoved := t.moved
  unfold Playback.KeepsCount at hok
  refine {
    pcm := t.pcm
    mapped := t.mapped
    base := t.base
    inBuffer := by rw [t.position_eq]; exact t.inBuffer
    laps := ⟨laps', by rw [t.position_eq]; exact htravelled'⟩
    fresh := fun hticked => absurd (hticked.symm.trans t.ticked) Bool.false_ne_true
    lastreg := fun _ => t.lastreg_eq.trans t.position_eq.symm
    counted := fun _ => ?_
    lag := ?_ }
  · -- Ahead of the middle of the buffer a tick that stays there reports nothing; past
    -- it, only the tick that first gets there does.
    rw [t.position_eq, t.remembered_eq]
    obtain ⟨hin, -⟩ := t.inBuffer
    have hlimit := h.inBuffer.2
    rw [params.bufferBytes_eq] at hlimit
    rcases hbefore with ⟨hticked, hstart, hzero, hnone⟩ | ⟨hticked, hlast, hsame⟩
    · rw [if_pos hticked] at hok
      omega
    · rw [if_neg (by simp [hticked])] at hok
      have hne := hmoved hticked
      omega
  · rw [t.crossedBefore_eq]
    rcases hbefore with ⟨-, -, -, hnone⟩ | ⟨hticked, hlast, hsame⟩
    · rw [hnone]
      exact Nat.zero_le _
    · have hne := hmoved hticked
      omega

/-- A tick after which a paced stream is in step has kept the count. -/
theorem Paced.keepsCount {params : HwParams} {s s' : Playback} {position : U32}
    (h : Paced params s) (hstep : tickStep params s position = some s')
    (hgood : s'.InStep params) : s.KeepsCount params position := by
  have t := h.tick hstep
  obtain ⟨laps, laps', -, hcrossed, hcrossed', hdirection⟩ := t.laps
  have hcount := t.elapsed
  obtain ⟨-, hgood⟩ := hgood
  unfold Playback.KeepsCount
  rcases h.elapsed_cases with ⟨hticked, hstart, hzero, hnone⟩ | ⟨hticked, hlast, hsame⟩
  · rw [if_pos hticked]
    have hin := t.inBuffer.1
    omega
  · rw [if_neg (by simp [hticked])]
    intro hforward
    omega

/-! ## The exact condition -/

/-- A run of ticks stays in step exactly when every tick keeps the count. -/
theorem periodAccounting_iff (params : HwParams) (pcm : SndTl880Pcm) (cell : U32 → U32)
    (lastreg302c : U32) (ticks : List U32) :
    AllStates (tickStep params) (Playback.InStep params)
        (Playback.started params pcm cell lastreg302c) ticks ↔
      AllSteps (tickStep params) (Playback.KeepsCount params)
        (Playback.started params pcm cell lastreg302c) ticks := by
  refine allStates_iff_allSteps (fun s position s' h hok hstep => h.step hok hstep)
    (fun s h => h.inStep) (fun s position s' h hstep hgood => h.keepsCount hstep hgood)
    (paced_started params pcm cell lastreg302c) ticks

instance (params : HwParams) (s : Playback) : Decidable (s.InStep params) :=
  inferInstanceAs (Decidable (_ ∧ _))

/-- The smallest period. -/
def smallestPeriod : HwParams where
  periodBytes := 0x4000
  periods := 2
  periodBytes_min := by decide
  periodBytes_max := by decide
  periods_min := by decide
  periods_max := by decide
  buffer_max := by decide

/-- Two ticks inside the second period report the one boundary before it twice. -/
theorem periodAccounting_counts_twice :
    ¬ AllStates (tickStep smallestPeriod) (Playback.InStep smallestPeriod)
      (Playback.started smallestPeriod ⟨0, 0, 0, 0⟩ (fun _ => 0) 0)
      [0x4000, 0x6000, 0x7000] := by
  decide

end Tl880
