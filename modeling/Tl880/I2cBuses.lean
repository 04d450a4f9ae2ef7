import Tl880.Lib.Interleave
import Tl880.I2cLines

/-!
# Buses that share the GPIO registers

All buses of a card are bits of the registers 0x10194 and 0x10198.  A call on the
lines of a bus is a list of one-bit writes to its own two write lines
(`lineCall_writes`), and what it returns depends on the input register alone.  Since
one-bit writes to different bits commute, the calls on two buses of one card are
independent, and any order of them does what one bus after the other does.
-/

namespace Tl880

open Interleave

/-! ## One-bit writes -/

/-- One bit of a register, and what is written to it. -/
structure LineWrite where
  reg : U32
  line : Nat
  value : U32

def LineWrite.apply (r : RegSpace) (w : LineWrite) : RegSpace :=
  tl880WriteRegbits r w.reg w.line w.line w.value

/-- The writes are made in order. -/
def applyWrites (r : RegSpace) (ws : List LineWrite) : RegSpace :=
  ws.foldl LineWrite.apply r

/-- The write is to a bit of a register. -/
def LineWrite.InRegister (w : LineWrite) : Prop := w.reg < 0x100000#32 ∧ w.line < 32

/-- Two writes are to different bits. -/
def LineWrite.Apart (w v : LineWrite) : Prop := w.reg = v.reg → w.line ≠ v.line

/-- Two bits of a value are set in either order. -/
theorem setBits_line_comm {l m : Nat} (hl : l < 32) (hm : m < 32) (hne : l ≠ m)
    (value x y : U32) :
    setBits (setBits value l l x) m m y = setBits (setBits value m m y) l l x := by
  apply BitVec.eq_of_getLsbD_eq
  intro i _
  rw [getLsbD_setBits (Nat.le_refl m) hm (by omega),
    getLsbD_setBits (Nat.le_refl l) hl (by omega),
    getLsbD_setBits (Nat.le_refl l) hl (by omega),
    getLsbD_setBits (Nat.le_refl m) hm (by omega)]
  by_cases him : m ≤ i ∧ i ≤ m
  · have hil : ¬ (l ≤ i ∧ i ≤ l) := by omega
    rw [if_pos him, if_neg hil, if_pos him]
  · rw [if_neg him, if_neg him]

/-- What a write does to a register space that is mapped. -/
theorem LineWrite.apply_mapped (r : RegSpace) (hmapped : r.mapped = true) {w : LineWrite}
    (hreg : w.reg < 0x100000#32) :
    w.apply r =
      { r with
        cell := Function.update r.cell w.reg
          (setBits (r.cell w.reg) w.line w.line w.value) } := by
  have hnull : ¬ r.mapped = false := by simp [hmapped]
  have hpast : ¬ (0x100000#32 ≤ w.reg) := BitVec.not_le.mpr hreg
  rw [LineWrite.apply, tl880WriteRegbits, tl880WriteRegister, tl880ReadRegister, if_neg hnull,
    if_neg hpast, if_neg hnull, if_neg hpast]

/-- Writes to different bits commute. -/
theorem LineWrite.apply_comm {w v : LineWrite} (hw : w.InRegister) (hv : v.InRegister)
    (hapart : w.Apart v) (r : RegSpace) : v.apply (w.apply r) = w.apply (v.apply r) := by
  cases hmapped : r.mapped with
  | false =>
      have hkept : ∀ u : LineWrite, u.apply r = r := by
        intro u
        rw [LineWrite.apply, tl880WriteRegbits, tl880WriteRegister, if_pos hmapped]
      rw [hkept w, hkept v, hkept w]
  | true =>
      obtain ⟨hwreg, hwline⟩ := hw
      obtain ⟨hvreg, hvline⟩ := hv
      have hstays : ∀ cell, ({ r with cell := cell } : RegSpace).mapped = true :=
        fun _ => hmapped
      rw [LineWrite.apply_mapped r hmapped hwreg, LineWrite.apply_mapped r hmapped hvreg,
        LineWrite.apply_mapped _ (hstays _) hvreg, LineWrite.apply_mapped _ (hstays _) hwreg]
      by_cases hsame : w.reg = v.reg
      · simp only [hsame, Function.update_self, Function.update_idem]
        rw [setBits_line_comm hwline hvline (hapart hsame)]
      · simp only [Function.update_of_ne hsame, Function.update_of_ne (Ne.symm hsame)]
        rw [Function.update_comm hsame]

/-- A write waits until a list of writes to other bits is done. -/
theorem applyWrites_after {w : LineWrite} (hw : w.InRegister) {vs : List LineWrite}
    (hvs : ∀ v ∈ vs, v.InRegister ∧ w.Apart v) (r : RegSpace) :
    applyWrites (w.apply r) vs = w.apply (applyWrites r vs) := by
  induction vs generalizing r with
  | nil => rfl
  | cons v vs ih =>
      obtain ⟨hv, hapart⟩ := hvs v List.mem_cons_self
      have hrest : ∀ u ∈ vs, u.InRegister ∧ w.Apart u :=
        fun u hu => hvs u (List.mem_cons_of_mem v hu)
      change applyWrites (v.apply (w.apply r)) vs = w.apply (applyWrites (v.apply r) vs)
      rw [LineWrite.apply_comm hw hv hapart, ih hrest]

/-- Lists of writes to different bits commute. -/
theorem applyWrites_comm {ws vs : List LineWrite} (hws : ∀ w ∈ ws, w.InRegister)
    (hvs : ∀ v ∈ vs, v.InRegister) (hapart : ∀ w ∈ ws, ∀ v ∈ vs, w.Apart v) (r : RegSpace) :
    applyWrites (applyWrites r ws) vs = applyWrites (applyWrites r vs) ws := by
  induction ws generalizing r with
  | nil => rfl
  | cons w ws ih =>
      have hrest : ∀ u ∈ ws, u.InRegister := fun u hu => hws u (List.mem_cons_of_mem w hu)
      have hclear : ∀ u ∈ ws, ∀ v ∈ vs, u.Apart v :=
        fun u hu => hapart u (List.mem_cons_of_mem w hu)
      have hfirst : ∀ v ∈ vs, v.InRegister ∧ w.Apart v :=
        fun v hv => ⟨hvs v hv, hapart w List.mem_cons_self v hv⟩
      change applyWrites (applyWrites (w.apply r) ws) vs =
        applyWrites (w.apply (applyWrites r vs)) ws
      rw [ih hrest hclear, applyWrites_after (hws w List.mem_cons_self) hfirst]

/-- A bit no write of the list is to stays. -/
theorem applyWrites_bit {ws : List LineWrite} (hws : ∀ w ∈ ws, w.InRegister) {reg : U32}
    {i : Nat} (hkept : ∀ w ∈ ws, reg = w.reg → i ≠ w.line) (r : RegSpace) :
    (applyWrites r ws).bit reg i = r.bit reg i := by
  induction ws generalizing r with
  | nil => rfl
  | cons w ws ih =>
      have hrest := ih (fun u hu => hws u (List.mem_cons_of_mem w hu))
        (fun u hu => hkept u (List.mem_cons_of_mem w hu)) (w.apply r)
      obtain ⟨-, hline⟩ := hws w List.mem_cons_self
      exact hrest.trans (RegSpace.bit_writeRegbits_ne r hline (hkept w List.mem_cons_self) _)

/-- A register no write of the list is to stays. -/
theorem applyWrites_read {ws : List LineWrite} {reg : U32} (hkept : ∀ w ∈ ws, reg ≠ w.reg)
    (r : RegSpace) :
    tl880ReadRegister (applyWrites r ws) reg = tl880ReadRegister r reg := by
  induction ws generalizing r with
  | nil => rfl
  | cons w ws ih =>
      have hrest := ih (fun u hu => hkept u (List.mem_cons_of_mem w hu)) (w.apply r)
      exact hrest.trans (tl880ReadRegister_writeRegbits_ne r (hkept w List.mem_cons_self) _ _ _)

/-! ## Calls as writes -/

/-- The write is to the direction or the output bit of a write line of the bus. -/
structure I2cBusLines.Drives (lines : I2cBusLines) (w : LineWrite) : Prop where
  reg : w.reg = 0x10194 ∨ w.reg = 0x10198
  line : w.line = lines.sclWrite ∨ w.line = lines.sdaWrite

/-- The writes of a call on an open drain line. -/
def openDrainWrites (line : Nat) (state : U32) : List LineWrite :=
  [⟨0x10198, line, 0⟩, ⟨0x10194, line, ~~~(lineLevel state)⟩]

/-- The writes of a call on a push-pull line. -/
def pushPullWrites (line : Nat) (state : U32) : List LineWrite :=
  [⟨0x10194, line, 1⟩, ⟨0x10198, line, lineLevel state⟩]

section Writes

variable {lines : I2cBusLines} {line : Nat}
  (hline : line = lines.sclWrite ∨ line = lines.sdaWrite)
include hline

theorem drives_openDrain (state : U32) :
    ∀ w ∈ openDrainWrites line state, lines.Drives w := by
  intro w hw
  simp only [openDrainWrites, List.mem_cons, List.not_mem_nil, or_false] at hw
  rcases hw with rfl | rfl
  · exact ⟨Or.inr rfl, hline⟩
  · exact ⟨Or.inl rfl, hline⟩

theorem drives_pushPull (state : U32) :
    ∀ w ∈ pushPullWrites line state, lines.Drives w := by
  intro w hw
  simp only [pushPullWrites, List.mem_cons, List.not_mem_nil, or_false] at hw
  rcases hw with rfl | rfl
  · exact ⟨Or.inl rfl, hline⟩
  · exact ⟨Or.inr rfl, hline⟩

theorem drives_single {reg : U32} (hreg : reg = 0x10194 ∨ reg = 0x10198) (value : U32) :
    ∀ w ∈ [(⟨reg, line, value⟩ : LineWrite)], lines.Drives w := by
  intro w hw
  rw [List.mem_singleton] at hw
  rw [hw]
  exact ⟨hreg, hline⟩

end Writes

section Calls

variable {busid : Nat} {lines : I2cBusLines} (hlines : i2cBusLines busid = some lines)
include hlines

/-- What a call changes is a list of one-bit writes to its bus's write lines. -/
theorem lineCall_writes (c : LineCall) :
    ∃ ws : List LineWrite, (∀ w ∈ ws, lines.Drives w) ∧
      ∀ r, (lineCall busid r c).1 = applyWrites r ws := by
  unfold i2cBusLines at hlines
  cases c with
  | setScl state =>
      split at hlines <;> cases hlines
      · exact ⟨openDrainWrites 0x1a state, drives_openDrain (by decide) state, fun _ => rfl⟩
      · exact ⟨pushPullWrites 0x12 state, drives_pushPull (by decide) state, fun _ => rfl⟩
      · exact ⟨openDrainWrites 0x17 state, drives_openDrain (by decide) state, fun _ => rfl⟩
      · exact ⟨pushPullWrites 3 state, drives_pushPull (by decide) state, fun _ => rfl⟩
      · exact ⟨pushPullWrites 0x1b state, drives_pushPull (by decide) state, fun _ => rfl⟩
      · exact ⟨pushPullWrites 0x1a state, drives_pushPull (by decide) state, fun _ => rfl⟩
  | setSda state =>
      split at hlines <;> cases hlines
      · exact ⟨openDrainWrites 0x1b state, drives_openDrain (by decide) state, fun _ => rfl⟩
      · exact ⟨[⟨0x10198, 0x11, lineLevel state⟩],
          drives_single (by decide) (by decide) _, fun _ => rfl⟩
      · exact ⟨openDrainWrites 0x16 state, drives_openDrain (by decide) state, fun _ => rfl⟩
      · exact ⟨pushPullWrites 1 state, drives_pushPull (by decide) state, fun _ => rfl⟩
      · exact ⟨pushPullWrites 0x1a state, drives_pushPull (by decide) state, fun _ => rfl⟩
      · exact ⟨pushPullWrites 0x1b state, drives_pushPull (by decide) state, fun _ => rfl⟩
  | getScl =>
      split at hlines <;> cases hlines
      · exact ⟨[⟨0x10194, 0x1a, 0⟩], drives_single (by decide) (by decide) _, fun _ => rfl⟩
      · exact ⟨[], fun w hw => absurd hw List.not_mem_nil, fun _ => rfl⟩
      · exact ⟨[⟨0x10194, 0x17, 0⟩], drives_single (by decide) (by decide) _, fun _ => rfl⟩
      · exact ⟨[⟨0x10194, 3, 0⟩], drives_single (by decide) (by decide) _, fun _ => rfl⟩
      · exact ⟨[⟨0x10194, 0x1b, 0⟩], drives_single (by decide) (by decide) _, fun _ => rfl⟩
      · exact ⟨[⟨0x10194, 0x1a, 0⟩], drives_single (by decide) (by decide) _, fun _ => rfl⟩
  | getSda =>
      split at hlines <;> cases hlines
      · exact ⟨[⟨0x10194, 0x1b, 0⟩], drives_single (by decide) (by decide) _, fun _ => rfl⟩
      · exact ⟨[], fun w hw => absurd hw List.not_mem_nil, fun _ => rfl⟩
      · exact ⟨[⟨0x10194, 0x16, 0⟩], drives_single (by decide) (by decide) _, fun _ => rfl⟩
      · exact ⟨[], fun w hw => absurd hw List.not_mem_nil, fun _ => rfl⟩
      · exact ⟨[⟨0x10194, 0x1a, 0⟩], drives_single (by decide) (by decide) _, fun _ => rfl⟩
      · exact ⟨[⟨0x10194, 0x1b, 0⟩], drives_single (by decide) (by decide) _, fun _ => rfl⟩

/-- What a call returns depends on the input register alone. -/
theorem lineCall_value_congr {r r' : RegSpace} (c : LineCall)
    (hinput : tl880ReadRegister r 0x1019c = tl880ReadRegister r' 0x1019c) :
    (lineCall busid r c).2 = (lineCall busid r' c).2 := by
  have hdirection : ∀ (s : RegSpace) (line : Nat) (value : U32),
      tl880ReadRegister (tl880WriteRegbits s 0x10194 line line value) 0x1019c =
        tl880ReadRegister s 0x1019c := by
    intro s line value
    exact tl880ReadRegister_writeRegbits_ne s (by decide) line line value
  unfold i2cBusLines at hlines
  cases c with
  | setScl state => rfl
  | setSda state => rfl
  | getScl =>
      split at hlines <;>
        simp only [lineCall, tl880I2cGetScl, tl880ReadRegbits, hdirection, hinput]
  | getSda =>
      split at hlines <;>
        simp only [lineCall, tl880I2cGetSda, tl880ReadRegbits, hdirection, hinput]

end Calls

/-! ## Two buses of a card -/

/-- The ids of two buses of one card: a MyHD has some of the buses 0, 1 and 2, and a
WinTV-HD has 3 and 4. -/
def TwoBusesOfCard (busid busid' : Nat) : Prop :=
  busid ≠ busid' ∧
    (busid ≤ 2 ∧ busid' ≤ 2 ∨ (3 ≤ busid ∧ busid ≤ 4) ∧ 3 ≤ busid' ∧ busid' ≤ 4)

/-- The line is one of the bus's four. -/
def I2cBusLines.Has (lines : I2cBusLines) (i : Nat) : Prop :=
  i = lines.sclWrite ∨ i = lines.sdaWrite ∨ i = lines.sclRead ∨ i = lines.sdaRead

instance (lines : I2cBusLines) (i : Nat) : Decidable (lines.Has i) :=
  inferInstanceAs (Decidable (_ ∨ _))

/-- No call on the bus changes the direction or the output bit of the line. -/
def LeavesLine (busid i : Nat) : Prop :=
  ∀ r c, (lineCall busid r c).1.bit 0x10194 i = r.bit 0x10194 i ∧
    (lineCall busid r c).1.bit 0x10198 i = r.bit 0x10198 i

/-- The calls on a bus keep to its own lines. -/
structure KeepsToOwnLines (busid busid' : Nat) : Prop where
  /-- they leave the lines of the other bus alone -/
  other : ∀ lines, i2cBusLines busid' = some lines → ∀ i, lines.Has i → LeavesLine busid i
  /-- they leave every line alone that is not one of their bus -/
  rest : ∀ lines, i2cBusLines busid = some lines → ∀ i, ¬ lines.Has i → LeavesLine busid i
  /-- they change no other register -/
  registers : ∀ r c reg, reg ≠ 0x10194#32 → reg ≠ 0x10198#32 →
    tl880ReadRegister (lineCall busid r c).1 reg = tl880ReadRegister r reg

/-- A documented bus has its lines among the 32 bits of a register. -/
theorem I2cBusLines.Drives.inRegister {busid : Nat} {lines : I2cBusLines}
    (hlines : i2cBusLines busid = some lines) {w : LineWrite} (hw : lines.Drives w) :
    w.InRegister := by
  obtain ⟨hreg, hline⟩ := hw
  constructor
  · rcases hreg with hreg | hreg <;> rw [hreg] <;> decide
  · unfold i2cBusLines at hlines
    split at hlines <;> cases hlines <;> rcases hline with hline | hline <;> rw [hline] <;> decide

/-- Two buses of one card have no line in common. -/
theorem lines_disjoint {busid busid' : Nat} (hcard : TwoBusesOfCard busid busid')
    {lines lines' : I2cBusLines} (hlines : i2cBusLines busid = some lines)
    (hlines' : i2cBusLines busid' = some lines') {i : Nat} (hi : lines.Has i) :
    ¬ lines'.Has i := by
  obtain ⟨hne, hids⟩ := hcard
  unfold i2cBusLines at hlines hlines'
  split at hlines <;> cases hlines <;> split at hlines' <;> cases hlines' <;>
    simp only [I2cBusLines.Has] at hi ⊢ <;> omega

/-- Two buses of one card are documented. -/
theorem TwoBusesOfCard.lines {busid busid' : Nat} (hcard : TwoBusesOfCard busid busid') :
    (∃ lines, i2cBusLines busid = some lines) ∧ ∃ lines, i2cBusLines busid' = some lines := by
  have hdocumented : ∀ id ≤ 4, ∃ lines, i2cBusLines id = some lines := by
    intro id hid
    match id, hid with
    | 0, _ | 1, _ | 2, _ | 3, _ | 4, _ => exact ⟨_, rfl⟩
  obtain ⟨-, hids⟩ := hcard
  exact ⟨hdocumented busid (by omega), hdocumented busid' (by omega)⟩

theorem TwoBusesOfCard.symm {busid busid' : Nat} (hcard : TwoBusesOfCard busid busid') :
    TwoBusesOfCard busid' busid := by
  obtain ⟨hne, hids⟩ := hcard
  refine ⟨hne.symm, ?_⟩
  omega

/-- A line that no call of the bus may drive stays. -/
theorem leavesLine_of_not_driven {busid : Nat} {lines : I2cBusLines}
    (hlines : i2cBusLines busid = some lines) {i : Nat}
    (hi : i ≠ lines.sclWrite ∧ i ≠ lines.sdaWrite) : LeavesLine busid i := by
  intro r c
  obtain ⟨ws, hdrives, hcall⟩ := lineCall_writes hlines c
  have hin : ∀ w ∈ ws, w.InRegister := fun w hw => (hdrives w hw).inRegister hlines
  have hkept : ∀ w ∈ ws, i ≠ w.line := by
    intro w hw heq
    rcases (hdrives w hw).line with hline | hline
    · exact hi.1 (heq.trans hline)
    · exact hi.2 (heq.trans hline)
  rw [hcall]
  constructor
  · exact applyWrites_bit hin (fun w hw _ => hkept w hw) r
  · exact applyWrites_bit hin (fun w hw _ => hkept w hw) r

section TwoBuses

variable {busid busid' : Nat} (hcard : TwoBusesOfCard busid busid')
include hcard

/-- The calls on a bus keep to its own lines. -/
theorem keepsToOwnLines : KeepsToOwnLines busid busid' := by
  obtain ⟨⟨lines, hlines⟩, -⟩ := hcard.lines
  constructor
  · intro lines' hlines' i hi
    have hforeign := lines_disjoint hcard.symm hlines' hlines hi
    apply leavesLine_of_not_driven hlines
    constructor
    · exact fun heq => hforeign (Or.inl heq)
    · exact fun heq => hforeign (Or.inr (Or.inl heq))
  · intro lines' hlines' i hi
    apply leavesLine_of_not_driven hlines'
    constructor
    · exact fun heq => hi (Or.inl heq)
    · exact fun heq => hi (Or.inr (Or.inl heq))
  · intro r c reg hdirection houtput
    obtain ⟨ws, hdrives, hcall⟩ := lineCall_writes hlines c
    rw [hcall]
    apply applyWrites_read
    intro w hw heq
    rcases (hdrives w hw).reg with hreg | hreg
    · exact hdirection (heq.trans hreg)
    · exact houtput (heq.trans hreg)

/-- Every call on one bus is independent of every call on the other. -/
theorem lineCall_independent (c c' : LineCall) :
    Independent (lineCall busid) (lineCall busid') c c' := by
  obtain ⟨⟨lines, hlines⟩, lines', hlines'⟩ := hcard.lines
  constructor
  · intro r
    obtain ⟨ws, hdrives, hcall⟩ := lineCall_writes hlines c
    obtain ⟨vs, hdrives', hcall'⟩ := lineCall_writes hlines' c'
    rw [hcall, hcall', hcall', hcall]
    apply applyWrites_comm
    · exact fun w hw => (hdrives w hw).inRegister hlines
    · exact fun v hv => (hdrives' v hv).inRegister hlines'
    · intro w hw v hv _ hsame
      have hown : lines.Has w.line := (hdrives w hw).line.imp id Or.inl
      have hown' : lines'.Has v.line := (hdrives' v hv).line.imp id Or.inl
      rw [← hsame] at hown'
      exact lines_disjoint hcard hlines hlines' hown hown'
  · intro r
    apply lineCall_value_congr hlines
    exact (keepsToOwnLines hcard.symm).registers r c' 0x1019c (by decide) (by decide)
  · intro r
    apply lineCall_value_congr hlines'
    exact (keepsToOwnLines hcard).registers r c 0x1019c (by decide) (by decide)

/-- The GPIO registers of two register spaces agree. -/
def SameGpio (r r' : RegSpace) : Prop :=
  ∀ reg ∈ [0x10190#32, 0x10194#32, 0x10198#32], tl880ReadRegister r reg = tl880ReadRegister r' reg

/-- Any order of the calls on two buses of a card leaves the GPIO registers and
returns the values that the calls on one bus and then those on the other do, and the
calls on each bus keep to its lines. -/
theorem i2cBuses_do_not_interfere (calls : List (LineCall ⊕ LineCall)) (r : RegSpace) :
    let mixed := runCalls (eitherAct (lineCall busid) (lineCall busid')) r calls
    let first := runCalls (lineCall busid) r (lefts calls)
    let second := runCalls (lineCall busid') first.1 (rights calls)
    SameGpio mixed.1 second.1 ∧ lefts mixed.2 = first.2 ∧ rights mixed.2 = second.2 ∧
      KeepsToOwnLines busid busid' ∧ KeepsToOwnLines busid' busid := by
  obtain ⟨hstate, hleft, hright⟩ := runCalls_either (lineCall_independent hcard) calls r
  refine ⟨?_, hleft, hright, keepsToOwnLines hcard, keepsToOwnLines hcard.symm⟩
  intro reg _
  rw [hstate]

end TwoBuses

/-- Buses 1 and 2 of an MDP-110, one bus reading while the other is driven. -/
theorem i2cBuses_do_not_interfere_mdp110 :
    let calls : List (LineCall ⊕ LineCall) :=
      [.inl (.setScl 1), .inr (.setSda 0), .inl .getSda, .inr .getScl]
    let mixed := runCalls (eitherAct (lineCall 1) (lineCall 2)) ⟨true, fun _ => 0⟩ calls
    let first := runCalls (lineCall 1) ⟨true, fun _ => 0⟩ (lefts calls)
    let second := runCalls (lineCall 2) first.1 (rights calls)
    SameGpio mixed.1 second.1 ∧ lefts mixed.2 = first.2 ∧ rights mixed.2 = second.2 ∧
      KeepsToOwnLines 1 2 ∧ KeepsToOwnLines 2 1 :=
  i2cBuses_do_not_interfere ⟨by decide, by decide⟩ _ _

end Tl880
