import Tl880.Registers

/-!
# The ALSA playback stream

The model of the playback substream of `driver/alsa/tl880alsa.c`:
`snd_card_tl880_pcm_prepare`, `snd_card_tl880_pcm_trigger` and the body of
`snd_card_tl880_pcm_timer_function`.  Calls of `snd_pcm_period_elapsed` are
counted.  The card memory that is cleared and `printk` are left out.

The lock and the polling timer, which are what the trigger and the timer function
race for, are the subject of `Tl880.AlsaTimer`; here `triggerTimer` says which timer
operation a command makes.
-/

namespace Tl880

/-! ## Hardware parameters -/

def maxBufferSize : Nat := 0x80000
def maxPeriodSize : Nat := 0x40000
def minPeriodSize : Nat := 0x4000
def usePeriodsMin : Nat := 2
def usePeriodsMax : Nat := 2

/-- A period size and count that `snd_card_tl880_playback` admits. -/
structure HwParams where
  periodBytes : U32
  periods : U32
  periodBytes_min : minPeriodSize ≤ periodBytes.toNat
  periodBytes_max : periodBytes.toNat ≤ maxPeriodSize
  periods_min : usePeriodsMin ≤ periods.toNat
  periods_max : periods.toNat ≤ usePeriodsMax
  buffer_max : periodBytes.toNat * periods.toNat ≤ maxBufferSize

/-! ## The stream -/

/-- The part of `struct snd_tl880_pcm` that is about the buffer. -/
structure SndTl880Pcm where
  periodSize : U32
  periodCount : U32
  bufferPos : U32
  bufferBase : U32

/-- A stream, the card's registers, the static variable of the timer function, and
the number of `snd_pcm_period_elapsed` calls. -/
structure AlsaDev where
  pcm : SndTl880Pcm
  regs : RegSpace
  lastreg302c : U32
  periodElapsed : Nat

namespace AlsaDev

/-- `tl880_read_register` on the stream's card. -/
def read (d : AlsaDev) (reg : U32) : U32 := tl880ReadRegister d.regs reg

/-- `tl880_write_register` on the stream's card. -/
def write (d : AlsaDev) (reg value : U32) : AlsaDev :=
  { d with regs := tl880WriteRegister d.regs reg value }

/-- `tl880_write_regbits` on the stream's card. -/
def writeRegbits (d : AlsaDev) (reg : U32) (highBit lowBit : Nat) (value : U32) : AlsaDev :=
  { d with regs := tl880WriteRegbits d.regs reg highBit lowBit value }

end AlsaDev

/-- `snd_card_tl880_pcm_prepare` -/
def sndCardTl880PcmPrepare (params : HwParams) (d : AlsaDev) : AlsaDev :=
  let pcm : SndTl880Pcm := ⟨params.periodBytes, params.periods, 0x1000, 0x1000⟩
  let d := { d with pcm := pcm }
  -- buffer start, and buffer end - 0x20
  let d := d.write 0x3020 pcm.bufferBase
  let d := d.write 0x3024 (pcm.bufferBase + pcm.periodSize * pcm.periodCount - 0x20)
  -- capture offset, buffer position and interrupt position
  let d := d.write 0x3028 0
  let d := d.write 0x302c pcm.bufferBase
  d.write 0x3030 (pcm.bufferBase + pcm.periodSize)

/-! ## `snd_card_tl880_pcm_trigger` -/

/-- The commands of a trigger callback. -/
inductive TriggerCmd
  | start
  | resume
  | stop
  | suspend
  | pausePush
  | pauseRelease
  | other
  deriving DecidableEq

/-- The operations on the polling timer. -/
inductive TimerOp
  | addTimer
  | delTimer
  deriving DecidableEq

/-- The timer operation of a command, if any. -/
def triggerTimer : TriggerCmd → Option TimerOp
  | .start | .resume => some .addTimer
  | .stop | .suspend => some .delTimer
  | .pausePush | .pauseRelease | .other => none

/-- The register writes of a command. -/
def triggerRegs (cmd : TriggerCmd) (d : AlsaDev) : AlsaDev :=
  match cmd with
  -- START falls through into RESUME
  | .start => (d.write 0x302c d.pcm.bufferBase).writeRegbits 0x3004 0 0 1
  | .resume | .pauseRelease => d.writeRegbits 0x3004 0 0 1
  | .stop | .suspend | .pausePush => d.writeRegbits 0x3004 0 0 0
  | .other => d

/-! ## `snd_card_tl880_pcm_timer_function` -/

/-- Advance the interrupt position and the buffer position by one period, each
wrapping in its own way. -/
def nextPeriod (d : AlsaDev) : AlsaDev :=
  let reg3020 := d.read 0x3020
  let reg3030 := d.read 0x3030 + d.pcm.periodSize
  let reg3030 :=
    if reg3020 + d.pcm.periodSize * d.pcm.periodCount ≤ reg3030 then reg3020 else reg3030
  -- this modulus is one period shorter than the buffer
  let bufferPos := d.pcm.bufferPos + d.pcm.periodSize
  let bufferPos :=
    if reg3020 + d.pcm.periodSize * (d.pcm.periodCount - 1) ≤ bufferPos then reg3020
    else bufferPos
  { d.write 0x3030 reg3030 with pcm := { d.pcm with bufferPos := bufferPos } }

/-- The timer function after the timer has been armed again. -/
def sndCardTl880PcmTimerFunction (d : AlsaDev) : AlsaDev :=
  let reg302c := d.read 0x302c
  if d.pcm.bufferPos + d.pcm.periodSize < reg302c ∨ reg302c < d.lastreg302c then
    let d := nextPeriod d
    { d with periodElapsed := d.periodElapsed + 1, lastreg302c := reg302c }
  else { d with lastreg302c := reg302c }

end Tl880
