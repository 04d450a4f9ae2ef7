import Tl880.CardAccess
import Tl880.I2cBuses
import Tl880.Vip
import Tl880.VpxFields

/-!
# GPIO lines

The model of all of `tl880_set_gpio` of `driver/tl880gpio.c`.  On three families of cards
the lines are bits of the registers 0x10194 and 0x10198, and `setGpioRegs` is the whole
function.  On an MDP-120 or MDP-130 they are bits of the register OUTMUX of the VPX,
which is reached over I2C; a transfer there is one access that succeeds.  Line 0 of
these cards has to do with audio and is in no such register.

The lines of a card fall into groups, and a bit belongs to one group at most.  A call
changes the bits of its own group only (`gpioCall_bit`), so calls on different groups
commute.
-/

namespace Tl880

open AccessProgram AccessProgram.Program Interleave

/-! ## The driver -/

/-- `VPX_FP_OUTMUX` -/
def vpxFpOutmux : U16 := 0x154

/-- The bit of OUTMUX that a line is. -/
def outmuxMask (gpioLine : U32) : Option U32 :=
  match gpioLine.toNat with
  | 2 => some 4
  | 6 => some 0x40
  | 8 => some 2
  | 9 => some 0x80
  | 10 => some 1
  | 11 => some 8
  | 12 => some 0x10
  | 13 => some 0x20
  | _ => none

/-- A line of the VPX. -/
def setGpioVpx (gpioLine : U32) (state : U8) : FpProgram :=
  .read vpxFpOutmux fun tmp =>
    let gpioValue : U32 := tmp.setWidth 32
    -- a 16-bit value is compared with -1 of 32 bits
    if gpioValue = 0xffffffff then .done 0
    else
      match outmuxMask gpioLine with
      | none => .done 0
      | some mask =>
          let gpioValue := if state = 0 then gpioValue &&& ~~~mask else gpioValue ||| mask
          .write vpxFpOutmux ((0x300 ||| gpioValue).setWidth 16) fun result =>
            .done (if result ≠ 0 then 1 else 0)

/-- What the driver's calls on lines change: the registers, the card's memory and the
registers of the VPX. -/
structure GpioState where
  regs : RegSpace
  mem : CardMem
  vpx : FpFile

/-- Line 0 of an MDP-120 or MDP-130. -/
def setGpioAudio (state : U8) (s : GpioState) : GpioState :=
  if state = 0 then
    let r := tl880WriteRegister s.regs 0x3004 0
    let r := tl880WriteRegister r 0x306c 0xc30000c3
    let r := tl880WriteRegister r 0x3058 (setBits (setBits 0 3 2 1) 0x17 0x10 0xc3)
    let r := tl880WriteRegister r 0x3040 0x1000
    let r := tl880WriteRegister r 0x3044 0xffc
    let r := tl880WriteRegister r 0x3048 0x1020
    -- 0x10 rounds
    let m := tl880ClearSdram 0x11 s.mem 0x1000 0x1040 0xffffffff
    let r := tl880WriteRegister r 0x3000
      (setBits (setBits (setBits 0 0x11 0x10 1) 0x13 0x12 1) 0x19 0x18 1)
    let r := tl880WriteRegister r 0x3004 (setBits (setBits 0 0 0 1) 0x13 0x12 1)
    { s with regs := r, mem := m }
  else
    let r := tl880WriteRegister s.regs 0x306c 0
    let r := tl880WriteRegbits r 0x3058 3 2 2
    let r := tl880WriteRegbits r 0x3058 0x17 0x10 0
    let r := tl880WriteRegbits r 0x3004 0x13 0x12 0
    { s with regs := r }

/-- The lines are on the VPX. -/
def LinesOnVpx (cardType : U16) : Prop := cardType = cardMyhdMdp120 ∨ cardType = cardMyhdMdp130

instance (cardType : U16) : Decidable (LinesOnVpx cardType) :=
  inferInstanceAs (Decidable (_ ∨ _))

/-- `tl880_set_gpio` -/
def tl880SetGpio (cardType : U16) (gpioLine : U32) (state : U8) (s : GpioState) :
    U8 × GpioState :=
  if LinesOnVpx cardType then
    if gpioLine ≠ 0 then
      let (trace, vpx) := (setGpioVpx gpioLine state).exec FpFile.reply FpFile.ack s.vpx
      (trace.result.setWidth 8, { s with vpx := vpx })
    else (0, setGpioAudio state s)
  else (1, { s with regs := setGpioRegs cardType gpioLine.toNat state s.regs })

/-- A call: the line and the state. -/
abbrev GpioCall := U32 × U8

def gpioCall (cardType : U16) (s : GpioState) (call : GpioCall) : GpioState :=
  (tl880SetGpio cardType call.1 call.2 s).2

/-! ## Groups of lines -/

/-- The group of a line of a Janus.  A group is known by its lowest line. -/
def janusGroup : Nat → Option Nat
  | 0 => some 0
  | 1 | 2 => some 1
  | 3 | 4 => some 3
  | 8 => some 8
  | 9 => some 9
  | _ => none

/-- The group that bit `i` of the registers 0x10194 and 0x10198 of a Janus belongs to. -/
def janusBitGroup : Nat → Option Nat
  | 8 => some 0
  | 9 | 0xa => some 1
  | 0xb | 0xe => some 3
  | 0xc => some 8
  | 0xd => some 9
  | _ => none

/-- The group of a line of an MDP-100A. -/
def mdp100aGroup : Nat → Option Nat
  | 0 => some 0
  | 1 | 2 => some 1
  | 3 | 4 | 5 => some 3
  | 6 => some 6
  | _ => none

/-- The group of bit `i` of the registers of an MDP-100A. -/
def mdp100aBitGroup : Nat → Option Nat
  | 8 => some 0
  | 9 | 0xa => some 1
  | 0xb | 0xc | 0xd => some 3
  | 0xe => some 6
  | _ => none

/-- The group of a line of an MDP-100 or MDP-110. -/
def mdp100Group : Nat → Option Nat
  | 0 => some 0
  | 2 => some 2
  | 3 | 4 | 5 => some 3
  | 6 => some 6
  | 8 => some 8
  | 9 => some 9
  | _ => none

/-- The group of bit `i` of the registers of an MDP-100 or MDP-110. -/
def mdp100BitGroup : Nat → Option Nat
  | 8 => some 0
  | 0xa => some 2
  | 0xb | 0xc | 0xd => some 3
  | 0xe => some 6
  | 9 => some 8
  | 0xf => some 9
  | _ => none

/-- The group of a line of an MDP-120 or MDP-130. -/
def vpxGroup (line : Nat) : Option Nat :=
  if line ∈ [0, 2, 6, 8, 9, 10, 11, 12, 13] then some line else none

/-- The group that a line is in. -/
def gpioGroup (cardType : U16) (line : Nat) : Option Nat :=
  if LinesOnVpx cardType then vpxGroup line
  else if cardType = cardJanus then janusGroup line
  else if cardType = cardMyhdMdp100a then mdp100aGroup line
  else if cardMyhdMdp100 ≤ cardType ∧ cardType < cardMyhdMdp120 then mdp100Group line
  else none

/-- The group that bit `i` of the registers 0x10194 and 0x10198 belongs to. -/
def lineGroup (cardType : U16) (i : Nat) : Option Nat :=
  if LinesOnVpx cardType then none
  else if cardType = cardJanus then janusBitGroup i
  else if cardType = cardMyhdMdp100a then mdp100aBitGroup i
  else if cardMyhdMdp100 ≤ cardType ∧ cardType < cardMyhdMdp120 then mdp100BitGroup i
  else none

/-- The line that bit `i` of OUTMUX is. -/
def outmuxLine : Nat → Option Nat
  | 0 => some 10
  | 1 => some 8
  | 2 => some 2
  | 3 => some 11
  | 4 => some 12
  | 5 => some 13
  | 6 => some 6
  | 7 => some 9
  | _ => none

/-- The group that bit `i` of OUTMUX belongs to. -/
def outmuxGroup (cardType : U16) (i : Nat) : Option Nat :=
  if LinesOnVpx cardType then outmuxLine i else none

/-- A bit that lines may be: of the registers 0x10194 and 0x10198, or of OUTMUX. -/
inductive GpioBit
  | direction (i : Nat)
  | output (i : Nat)
  | outmux (i : Nat)

def GpioBit.group (cardType : U16) : GpioBit → Option Nat
  | .direction i => lineGroup cardType i
  | .output i => lineGroup cardType i
  | .outmux i => outmuxGroup cardType i

def GpioState.bit (s : GpioState) : GpioBit → Bool
  | .direction i => s.regs.bit 0x10194 i
  | .output i => s.regs.bit 0x10198 i
  | .outmux i => (s.vpx vpxFpOutmux).getLsbD i

/-- The two bits that every write of OUTMUX sets. -/
def GpioBit.AlwaysSet : GpioBit → Prop
  | .outmux i => i = 8 ∨ i = 9
  | _ => False

/-- The bit is in the group of the line. -/
def OwnBit (cardType : U16) (line : U32) (b : GpioBit) : Prop :=
  gpioGroup cardType line.toNat ≠ none ∧ b.group cardType = gpioGroup cardType line.toNat

/-! ## Lines in registers -/

/-- The function writes bits of the two registers, and only those with the property. -/
def WritesLines (inGroup : Nat → Prop) (f : RegSpace → RegSpace) : Prop :=
  ∃ ws : List LineWrite,
    (∀ w ∈ ws, (w.reg = 0x10194 ∨ w.reg = 0x10198) ∧ w.line < 32 ∧ inGroup w.line) ∧
      ∀ r, f r = applyWrites r ws

namespace WritesLines

variable {inGroup : Nat → Prop}

theorem nothing : WritesLines inGroup fun r => r := by
  refine ⟨[], ?_, fun _ => rfl⟩
  intro w hw
  cases hw

theorem single {reg : U32} (hreg : reg = 0x10194 ∨ reg = 0x10198) {line : Nat} (hline : line < 32)
    (hgroup : inGroup line) (value : U32) :
    WritesLines inGroup fun r => tl880WriteRegbits r reg line line value := by
  refine ⟨[⟨reg, line, value⟩], ?_, fun _ => rfl⟩
  intro w hw
  rw [List.mem_singleton.mp hw]
  exact ⟨hreg, hline, hgroup⟩

theorem comp {f g : RegSpace → RegSpace} (hf : WritesLines inGroup f)
    (hg : WritesLines inGroup g) : WritesLines inGroup fun r => g (f r) := by
  obtain ⟨ws, hws, hf⟩ := hf
  obtain ⟨vs, hvs, hg⟩ := hg
  refine ⟨ws ++ vs, ?_, ?_⟩
  · intro w hw
    rcases List.mem_append.mp hw with hw | hw
    · exact hws w hw
    · exact hvs w hw
  · intro r
    show g (f r) = _
    rw [hf, hg, applyWrites, applyWrites, applyWrites, List.foldl_append]

theorem ite {f g : RegSpace → RegSpace} (c : Prop) [Decidable c] (hf : WritesLines inGroup f)
    (hg : WritesLines inGroup g) : WritesLines inGroup fun r => if c then f r else g r := by
  by_cases hc : c
  · simp only [if_pos hc]
    exact hf
  · simp only [if_neg hc]
    exact hg

/-- Output bits written one after the other. -/
theorem outputs (lines : List Nat) {outputs : List (Nat × U32)}
    (hlines : outputs.map Prod.fst = lines) (h : ∀ i ∈ lines, i < 32 ∧ inGroup i) :
    WritesLines inGroup fun r => writeOutputs r outputs := by
  induction outputs generalizing lines with
  | nil => exact nothing
  | cons output outputs ih =>
      rw [← hlines, List.map_cons] at h
      obtain ⟨hline, hgroup⟩ := h output.1 List.mem_cons_self
      have hrest := ih _ rfl fun i hi => h i (List.mem_cons_of_mem _ hi)
      exact (single (Or.inr rfl) hline hgroup output.2).comp hrest

/-- A line that can be left undriven. -/
theorem threeState {line : Nat} (hline : line < 32) (hgroup : inGroup line) (state : U8) :
    WritesLines inGroup (setThreeState line state) := by
  have hdirection := single (Or.inl rfl) hline hgroup
  have houtput := single (Or.inr rfl) hline hgroup
  exact ite _ ((hdirection 1).comp (houtput 0))
    (ite _ ((hdirection 1).comp (houtput 1)) (hdirection 0))

/-- The writes are to bits of registers. -/
theorem inRegister {ws : List LineWrite}
    (hws : ∀ w ∈ ws, (w.reg = 0x10194 ∨ w.reg = 0x10198) ∧ w.line < 32 ∧ inGroup w.line) :
    ∀ w ∈ ws, w.InRegister := by
  intro w hw
  obtain ⟨hreg, hline, -⟩ := hws w hw
  refine ⟨?_, hline⟩
  rcases hreg with hreg | hreg <;> rw [hreg] <;> decide

/-- Bits outside of the group stay. -/
theorem bit_outside {f : RegSpace → RegSpace} (h : WritesLines inGroup f) {i : Nat}
    (hout : ¬ inGroup i) (r : RegSpace) (reg : U32) : (f r).bit reg i = r.bit reg i := by
  obtain ⟨ws, hws, heq⟩ := h
  rw [heq]
  apply applyWrites_bit (inRegister hws)
  intro w hw _ hsame
  rw [hsame] at hout
  exact hout (hws w hw).2.2

end WritesLines

/-- Bit `i` is in the group of the line. -/
def InGroupOf (group bitGroup : Nat → Option Nat) (line i : Nat) : Prop :=
  group line ≠ none ∧ bitGroup i = group line

instance (group bitGroup : Nat → Option Nat) (line i : Nat) :
    Decidable (InGroupOf group bitGroup line i) := inferInstanceAs (Decidable (_ ∧ _))

open WritesLines in
/-- A call on a Janus writes its own bits. -/
theorem setGpioJanus_writes (line : Nat) (state : U8) :
    WritesLines (InGroupOf janusGroup janusBitGroup line) (setGpioJanus line state) := by
  match line with
  | 0 => exact outputs [8] rfl (by decide)
  | 1 => exact ite _ (outputs [0xa, 9] rfl (by decide)) (outputs [9, 0xa] rfl (by decide))
  | 2 => exact ite _ (outputs [9, 0xa] rfl (by decide)) (outputs [0xa, 9] rfl (by decide))
  | 3 => exact ite _ (outputs [0xb, 0xe] rfl (by decide)) (outputs [0xe, 0xb] rfl (by decide))
  | 4 => exact ite _ (outputs [0xe, 0xb] rfl (by decide)) (outputs [0xb, 0xe] rfl (by decide))
  | 8 => exact threeState (by decide) (by decide) state
  | 9 => exact threeState (by decide) (by decide) state
  | 5 | 6 | 7 | n + 10 => exact nothing

open WritesLines in
/-- A call on an MDP-100A writes its own bits. -/
theorem setGpioMdp100a_writes (line : Nat) (state : U8) :
    WritesLines (InGroupOf mdp100aGroup mdp100aBitGroup line) (setGpioMdp100a line state) := by
  match line with
  | 0 => exact outputs [8] rfl (by decide)
  | 1 => exact ite _ (outputs [0xa, 9] rfl (by decide)) (outputs [9, 0xa] rfl (by decide))
  | 2 => exact ite _ (outputs [9, 0xa] rfl (by decide)) (outputs [0xa, 9] rfl (by decide))
  | 3 => exact ite _ (outputs [0xc, 0xb] rfl (by decide)) (outputs [0xb] rfl (by decide))
  | 4 =>
      exact ite _ (outputs [0xc, 0xd] rfl (by decide))
        (outputs [0xb, 0xc, 0xd] rfl (by decide))
  | 5 => exact outputs [0xd] rfl (by decide)
  | 6 => exact outputs [0xe] rfl (by decide)
  | n + 7 => exact nothing

open WritesLines in
/-- A call on an MDP-100 or MDP-110 writes its own bits. -/
theorem setGpioMdp100_writes (line : Nat) (state : U8) :
    WritesLines (InGroupOf mdp100Group mdp100BitGroup line) (setGpioMdp100 line state) := by
  match line with
  | 0 => exact outputs [8] rfl (by decide)
  | 2 => exact outputs [0xa] rfl (by decide)
  | 3 => exact ite _ (outputs [0xc, 0xb] rfl (by decide)) (outputs [0xb] rfl (by decide))
  | 4 =>
      exact ite _ (outputs [0xc, 0xd] rfl (by decide))
        (outputs [0xb, 0xc, 0xd] rfl (by decide))
  | 5 => exact outputs [0xd] rfl (by decide)
  | 6 =>
      have hdirection : WritesLines (InGroupOf mdp100Group mdp100BitGroup 6)
          fun r => tl880WriteRegbits r 0x10194 0xe 0xe 1 :=
        single (Or.inl rfl) (by decide) (by decide) 1
      exact hdirection.comp (outputs [0xe] rfl (by decide))
  | 8 => exact threeState (by decide) (by decide) state
  | 9 => exact threeState (by decide) (by decide) state
  | 1 | 7 | n + 10 => exact nothing

/-- Where the lines are in registers a call writes the bits of its group. -/
theorem setGpioRegs_writes {cardType : U16} (hregs : ¬ LinesOnVpx cardType) (line : Nat)
    (state : U8) :
    WritesLines (InGroupOf (gpioGroup cardType) (lineGroup cardType) line)
      (setGpioRegs cardType line state) := by
  unfold setGpioRegs gpioGroup lineGroup
  simp only [if_neg hregs]
  by_cases hjanus : cardType = cardJanus
  · simp only [if_pos hjanus]
    exact setGpioJanus_writes line state
  simp only [if_neg hjanus]
  by_cases h100a : cardType = cardMyhdMdp100a
  · simp only [if_pos h100a]
    exact setGpioMdp100a_writes line state
  simp only [if_neg h100a]
  by_cases h100 : cardMyhdMdp100 ≤ cardType ∧ cardType < cardMyhdMdp120
  · simp only [if_pos h100]
    exact setGpioMdp100_writes line state
  · simp only [if_neg h100]
    exact WritesLines.nothing

/-! ## Lines on the VPX -/

/-- What a line's state makes of OUTMUX. -/
def outmuxValue (mask : U32) (state : U8) (value : BitVec 12) : BitVec 12 :=
  let gpioValue : U32 := (value.setWidth 16 : U16).setWidth 32
  let gpioValue := if state = 0 then gpioValue &&& ~~~mask else gpioValue ||| mask
  ((0x300 ||| gpioValue).setWidth 16 : U16).setWidth 12

/-- A value of 16 bits is not -1 of 32 bits. -/
theorem wide_ne_ones (tmp : U16) : (tmp.setWidth 32 : U32) ≠ 0xffffffff := by
  intro heq
  have hbit := congrArg (fun x : U32 => x.getLsbD 31) heq
  simp at hbit

/-- A call writes OUTMUX if the line is a bit of it. -/
theorem setGpioVpx_onFile (gpioLine : U32) (state : U8) (f : FpFile) :
    (setGpioVpx gpioLine state).onFile f =
      match outmuxMask gpioLine with
      | none => f
      | some mask => Function.update f vpxFpOutmux (outmuxValue mask state (f vpxFpOutmux)) := by
  show (exec FpFile.reply FpFile.ack
    (if (((f vpxFpOutmux).setWidth 16 : U16).setWidth 32 : U32) = 0xffffffff then _ else _) f).2 = _
  rw [if_neg (wide_ne_ones _)]
  cases outmuxMask gpioLine <;> rfl

/-- The line gets its bit, and two bits are set. -/
theorem outmuxValue_getLsbD (mask : U32) (state : U8) (value : BitVec 12) {i : Nat}
    (hi : i < 12) :
    (outmuxValue mask state value).getLsbD i =
      (decide (i = 8 ∨ i = 9) ||
        if mask.getLsbD i = true then decide (state ≠ 0) else value.getLsbD i) := by
  have hset : ∀ i < 12, (0x300 : U32).getLsbD i = decide (i = 8 ∨ i = 9) := by decide
  have h16 : i < 16 := by omega
  have h32 : i < 32 := by omega
  unfold outmuxValue
  by_cases hstate : state = 0
  · simp only [if_pos hstate, BitVec.getLsbD_setWidth, BitVec.getLsbD_or, BitVec.getLsbD_and,
      BitVec.getLsbD_not, hi, h16, h32, hset i hi, decide_true, Bool.true_and]
    cases mask.getLsbD i <;> simp [hstate]
  · simp only [if_neg hstate, BitVec.getLsbD_setWidth, BitVec.getLsbD_or, hi, h16, h32, hset i hi,
      decide_true, Bool.true_and]
    cases mask.getLsbD i with
    | false => simp
    | true =>
        rw [decide_eq_true hstate]
        simp

/-- The masks are the bits of their lines. -/
theorem outmuxMask_getLsbD {gpioLine mask : U32} (hmask : outmuxMask gpioLine = some mask)
    {i : Nat} (hi : i < 16) :
    mask.getLsbD i = decide (outmuxLine i = some gpioLine.toNat) := by
  unfold outmuxMask at hmask
  revert hmask
  generalize gpioLine.toNat = line
  intro hmask
  split at hmask <;> cases hmask <;> revert i <;> decide

/-- A line of the VPX that is not line 0 is in a group exactly if it is a bit of OUTMUX. -/
theorem outmuxMask_eq_none_iff {gpioLine : U32} (hline : gpioLine ≠ 0) :
    outmuxMask gpioLine = none ↔ vpxGroup gpioLine.toNat = none := by
  have hzero : gpioLine.toNat ≠ 0 := by
    intro h
    exact hline (BitVec.eq_of_toNat_eq h)
  unfold outmuxMask vpxGroup
  generalize gpioLine.toNat = line at hzero
  split
  case h_9 h2 h6 h8 h9 h10 h11 h12 h13 =>
    have hout : line ∉ [0, 2, 6, 8, 9, 10, 11, 12, 13] := by
      simp only [List.mem_cons, List.not_mem_nil, or_false, not_or]
      exact ⟨hzero, h2, h6, h8, h9, h10, h11, h12, h13⟩
    simp only [if_neg hout]
  all_goals simp

/-- Lines that are different bits commute. -/
theorem outmuxValue_comm {mask mask' : U32}
    (hapart : ∀ i < 12, ¬ (mask.getLsbD i = true ∧ mask'.getLsbD i = true)) (state state' : U8)
    (value : BitVec 12) :
    outmuxValue mask' state' (outmuxValue mask state value) =
      outmuxValue mask state (outmuxValue mask' state' value) := by
  apply BitVec.eq_of_getLsbD_eq
  intro i hi
  simp only [outmuxValue_getLsbD _ _ _ hi]
  have hnot := hapart i hi
  by_cases hm : mask.getLsbD i = true
  · have hm' : ¬ mask'.getLsbD i = true := fun hm' => hnot ⟨hm, hm'⟩
    simp only [if_pos hm, if_neg hm']
    cases decide (i = 8 ∨ i = 9) <;> simp
  · by_cases hm' : mask'.getLsbD i = true
    · simp only [if_neg hm, if_pos hm']
      cases decide (i = 8 ∨ i = 9) <;> simp
    · simp only [if_neg hm, if_neg hm']

/-! ## Calls -/

/-- A line of the VPX changes OUTMUX only. -/
theorem gpioCall_vpx {cardType : U16} (hvpx : LinesOnVpx cardType) {call : GpioCall}
    (hline : call.1 ≠ 0) (s : GpioState) :
    gpioCall cardType s call = { s with vpx := (setGpioVpx call.1 call.2).onFile s.vpx } := by
  rw [gpioCall, tl880SetGpio, if_pos hvpx, if_pos hline]
  rfl

/-- Line 0 of such a card. -/
theorem gpioCall_audio {cardType : U16} (hvpx : LinesOnVpx cardType) {call : GpioCall}
    (hline : ¬ call.1 ≠ 0) (s : GpioState) :
    gpioCall cardType s call = setGpioAudio call.2 s := by
  rw [gpioCall, tl880SetGpio, if_pos hvpx, if_neg hline]

/-- A line in the registers. -/
theorem gpioCall_regs {cardType : U16} (hregs : ¬ LinesOnVpx cardType) (call : GpioCall)
    (s : GpioState) :
    gpioCall cardType s call =
      { s with regs := setGpioRegs cardType call.1.toNat call.2 s.regs } := by
  rw [gpioCall, tl880SetGpio, if_neg hregs]

/-- The audio registers that line 0 writes are not those of the lines. -/
theorem setGpioAudio_read (state : U8) (s : GpioState) {reg : U32}
    (hreg : reg = 0x10194 ∨ reg = 0x10198) :
    tl880ReadRegister (setGpioAudio state s).regs reg = tl880ReadRegister s.regs reg := by
  have hother : reg ∉ [0x3000, 0x3004, 0x3040, 0x3044, 0x3048, 0x3058, 0x306c] := by
    rcases hreg with heq | heq <;> rw [heq] <;> decide
  simp only [List.mem_cons, List.not_mem_nil, or_false, not_or] at hother
  obtain ⟨h00, h04, h40, h44, h48, h58, h6c⟩ := hother
  unfold setGpioAudio
  split_ifs
  · simp only [tl880ReadRegister_write_ne _ h00, tl880ReadRegister_write_ne _ h04,
      tl880ReadRegister_write_ne _ h40, tl880ReadRegister_write_ne _ h44,
      tl880ReadRegister_write_ne _ h48, tl880ReadRegister_write_ne _ h58,
      tl880ReadRegister_write_ne _ h6c]
  · simp only [tl880ReadRegister_writeRegbits_ne _ h04, tl880ReadRegister_writeRegbits_ne _ h58,
      tl880ReadRegister_write_ne _ h6c]

theorem setGpioAudio_vpx (state : U8) (s : GpioState) : (setGpioAudio state s).vpx = s.vpx := by
  unfold setGpioAudio
  split_ifs <;> rfl

/-- The audio line does not look at the VPX. -/
theorem setGpioAudio_setVpx (state : U8) (s : GpioState) (vpx : FpFile) :
    setGpioAudio state { s with vpx := vpx } = { setGpioAudio state s with vpx := vpx } := by
  unfold setGpioAudio
  split_ifs <;> rfl

/-- A line that is a bit of OUTMUX is a group. -/
theorem gpioGroup_of_outmuxMask {cardType : U16} (hvpx : LinesOnVpx cardType) {line : U32}
    (hline : line ≠ 0) {mask : U32} (hmask : outmuxMask line = some mask) :
    gpioGroup cardType line.toNat = some line.toNat := by
  have hne : ¬ vpxGroup line.toNat = none := by
    rw [← outmuxMask_eq_none_iff hline, hmask]
    exact Option.some_ne_none mask
  rw [gpioGroup, if_pos hvpx]
  unfold vpxGroup at hne ⊢
  split_ifs at hne ⊢ with hmem
  · rfl
  · exact absurd rfl hne

/-- A line of the VPX leaves the bits of OUTMUX that are other lines. -/
theorem setGpioVpx_bit {cardType : U16} (hvpx : LinesOnVpx cardType) {line : U32}
    (hline : line ≠ 0) {i : Nat} (hown : ¬ OwnBit cardType line (.outmux i))
    (hset : ¬ (i = 8 ∨ i = 9)) (state : U8) (f : FpFile) :
    ((setGpioVpx line state).onFile f vpxFpOutmux).getLsbD i = (f vpxFpOutmux).getLsbD i := by
  rw [setGpioVpx_onFile]
  cases hmask : outmuxMask line with
  | none => rfl
  | some mask =>
      simp only [Function.update_self]
      by_cases hi : i < 12
      · have hbit : ¬ mask.getLsbD i = true := by
          rw [outmuxMask_getLsbD hmask (by omega), decide_eq_true_iff]
          intro hsame
          apply hown
          have hgroup := gpioGroup_of_outmuxMask hvpx hline hmask
          constructor
          · rw [hgroup]
            exact Option.some_ne_none _
          · rw [hgroup, GpioBit.group, outmuxGroup, if_pos hvpx, hsame]
        rw [outmuxValue_getLsbD mask state _ hi, decide_eq_false hset, if_neg hbit,
          Bool.false_or]
      · rw [BitVec.getLsbD_of_ge _ i (by omega), BitVec.getLsbD_of_ge _ i (by omega)]

/-- A call changes no bit that is not in the group of its line, the two bits apart that
every write of OUTMUX sets. -/
theorem gpioCall_bit {cardType : U16} {call : GpioCall} {b : GpioBit}
    (hown : ¬ OwnBit cardType call.1 b) (hset : ¬ b.AlwaysSet) (s : GpioState) :
    (gpioCall cardType s call).bit b = s.bit b := by
  by_cases hvpx : LinesOnVpx cardType
  · by_cases hline : call.1 ≠ 0
    · rw [gpioCall_vpx hvpx hline]
      cases b with
      | direction i => rfl
      | output i => rfl
      | outmux i => exact setGpioVpx_bit hvpx hline hown hset call.2 s.vpx
    · rw [gpioCall_audio hvpx hline]
      cases b with
      | direction i =>
          simp only [GpioState.bit, RegSpace.bit, setGpioAudio_read call.2 s (Or.inl rfl)]
      | output i =>
          simp only [GpioState.bit, RegSpace.bit, setGpioAudio_read call.2 s (Or.inr rfl)]
      | outmux i => rw [GpioState.bit, setGpioAudio_vpx]; rfl
  · rw [gpioCall_regs hvpx]
    have hwrites := setGpioRegs_writes hvpx call.1.toNat call.2
    cases b with
    | direction i => exact hwrites.bit_outside hown s.regs 0x10194
    | output i => exact hwrites.bit_outside hown s.regs 0x10198
    | outmux i => rfl

/-- A line outside of all groups changes nothing. -/
theorem gpioCall_outside {cardType : U16} {call : GpioCall}
    (houtside : gpioGroup cardType call.1.toNat = none) (s : GpioState) :
    gpioCall cardType s call = s := by
  by_cases hvpx : LinesOnVpx cardType
  · rw [gpioGroup, if_pos hvpx] at houtside
    have hline : call.1 ≠ 0 := by
      intro hzero
      rw [hzero] at houtside
      cases houtside
    rw [gpioCall_vpx hvpx hline, setGpioVpx_onFile, (outmuxMask_eq_none_iff hline).mpr houtside]
  · obtain ⟨ws, hws, heq⟩ := setGpioRegs_writes hvpx call.1.toNat call.2
    have hnil : ws = [] := by
      rw [List.eq_nil_iff_forall_not_mem]
      intro w hw
      exact (hws w hw).2.2.1 houtside
    rw [gpioCall_regs hvpx, heq, hnil]
    rfl

/-- Writes of a group that has no bit in common with another one wait for it. -/
theorem setGpioRegs_comm {cardType : U16} (hregs : ¬ LinesOnVpx cardType) {line line' : Nat}
    (hne : gpioGroup cardType line ≠ gpioGroup cardType line') (state state' : U8)
    (r : RegSpace) :
    setGpioRegs cardType line' state' (setGpioRegs cardType line state r) =
      setGpioRegs cardType line state (setGpioRegs cardType line' state' r) := by
  obtain ⟨ws, hws, heq⟩ := setGpioRegs_writes hregs line state
  obtain ⟨vs, hvs, heq'⟩ := setGpioRegs_writes hregs line' state'
  rw [heq, heq', heq, heq']
  apply applyWrites_comm (WritesLines.inRegister hws) (WritesLines.inRegister hvs)
  intro w hw v hv _ hsame
  apply hne
  rw [← (hws w hw).2.2.2, ← (hvs v hv).2.2.2, hsame]

/-- Two lines of the VPX that are different bits. -/
theorem setGpioVpx_comm {gpioLine gpioLine' : U32} (hne : gpioLine.toNat ≠ gpioLine'.toNat)
    (state state' : U8) (f : FpFile) :
    (setGpioVpx gpioLine' state').onFile ((setGpioVpx gpioLine state).onFile f) =
      (setGpioVpx gpioLine state).onFile ((setGpioVpx gpioLine' state').onFile f) := by
  simp only [setGpioVpx_onFile]
  cases hmask : outmuxMask gpioLine with
  | none => rfl
  | some mask =>
      cases hmask' : outmuxMask gpioLine' with
      | none => rfl
      | some mask' =>
          have hapart : ∀ i < 12, ¬ (mask.getLsbD i = true ∧ mask'.getLsbD i = true) := by
            intro i hi hboth
            have h16 : i < 16 := by omega
            rw [outmuxMask_getLsbD hmask h16, outmuxMask_getLsbD hmask' h16, decide_eq_true_iff,
              decide_eq_true_iff] at hboth
            exact hne (Option.some.inj (hboth.1.symm.trans hboth.2))
          simp only [Function.update_self, Function.update_idem]
          rw [outmuxValue_comm hapart]

/-- Calls on lines of different groups commute. -/
theorem gpioCall_comm {cardType : U16} {call call' : GpioCall}
    (hne : gpioGroup cardType call.1.toNat ≠ gpioGroup cardType call'.1.toNat)
    (s : GpioState) :
    gpioCall cardType (gpioCall cardType s call) call' =
      gpioCall cardType (gpioCall cardType s call') call := by
  by_cases hvpx : LinesOnVpx cardType
  swap
  · simp only [gpioCall_regs hvpx, setGpioRegs_comm hvpx hne]
  by_cases hline : call.1 ≠ 0
  · by_cases hline' : call'.1 ≠ 0
    · have hdifferent : call.1.toNat ≠ call'.1.toNat := fun heq => hne (by rw [heq])
      simp only [gpioCall_vpx hvpx hline, gpioCall_vpx hvpx hline', setGpioVpx_comm hdifferent]
    · simp only [gpioCall_vpx hvpx hline, gpioCall_audio hvpx hline', setGpioAudio_setVpx,
        setGpioAudio_vpx]
  · by_cases hline' : call'.1 ≠ 0
    · simp only [gpioCall_audio hvpx hline, gpioCall_vpx hvpx hline', setGpioAudio_setVpx,
        setGpioAudio_vpx]
    · exact absurd (by rw [not_not.mp hline, not_not.mp hline']) hne

/-- After any calls, a bit in whose group no call was is as before; a line outside of all
groups changes nothing; and calls on different groups commute. -/
theorem gpioGroups_independent (cardType : U16) (s : GpioState) (calls : List GpioCall) :
    (∀ b : GpioBit, ¬ b.AlwaysSet → (∀ call ∈ calls, ¬ OwnBit cardType call.1 b) →
      (calls.foldl (gpioCall cardType) s).bit b = s.bit b) ∧
      (∀ call : GpioCall, gpioGroup cardType call.1.toNat = none →
        gpioCall cardType (calls.foldl (gpioCall cardType) s) call =
          calls.foldl (gpioCall cardType) s) ∧
      ∀ call call' : GpioCall,
        gpioGroup cardType call.1.toNat ≠ gpioGroup cardType call'.1.toNat →
        gpioCall cardType (gpioCall cardType (calls.foldl (gpioCall cardType) s) call) call' =
          gpioCall cardType (gpioCall cardType (calls.foldl (gpioCall cardType) s) call')
            call := by
  constructor
  · intro b hset hown
    induction calls generalizing s with
    | nil => rfl
    | cons call calls ih =>
        rw [List.foldl_cons, ih _ fun c hc => hown c (List.mem_cons_of_mem call hc)]
        exact gpioCall_bit (hown call List.mem_cons_self) hset s
  constructor
  · intro call houtside
    exact gpioCall_outside houtside _
  · intro call call' hne
    exact gpioCall_comm hne _

/-- On an MDP-110 switching the sample clock leaves the output bit of the video relay. -/
theorem gpioGroups_independent_clock :
    ([(8, 1), (9, 2)].foldl (gpioCall cardMyhdMdp110)
        ⟨⟨true, fun _ => 0xffffffff⟩, ⟨true, 0, fun _ => 0, []⟩, fun _ => 0⟩).bit
          (.output 0xa) = true :=
  (gpioGroups_independent cardMyhdMdp110
    ⟨⟨true, fun _ => 0xffffffff⟩, ⟨true, 0, fun _ => 0, []⟩, fun _ => 0⟩
    [(8, 1), (9, 2)]).1 (.output 0xa) id (by
      intro call hcall hown
      simp only [List.mem_cons, List.not_mem_nil, or_false] at hcall
      rcases hcall with heq | heq <;> rw [heq] at hown <;> exact absurd hown.2 (by decide))

end Tl880
