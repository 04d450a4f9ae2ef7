import Tl880.Lib.LabelledRun
import Tl880.Interrupt

/-!
# Runs of the interrupt handlers

`IrqSys` is a card together with the program counter of its bottom half.  A run
interleaves, in any order, what the hardware does to the registers, whole
`tl880_irq` invocations (for this card or for another device on the line), the
start of the scheduled tasklet, and single accesses of `tl880_bh`.

The enabled mask lives in register 4, or in `int_mask` while a bottom half is
outstanding, or in the bottom half's own local value just before it is written
back; `MaskHeld` says which of the three it is.  An invocation that finds no
enabled bit in the type register breaks this: it zeroes register 4 and returns, and
the mask is gone (`MaskLost`) for the rest of the run.

Here the bottom half always finds the card it was scheduled for; `Tl880.InterruptLookup`
has the lookup and the runs in which it fails.
-/

namespace Tl880

open LabelledRun

/-- A card and its bottom half. -/
structure IrqSys where
  dev : IntDev
  pc : BhPc

/-- The events of a run. -/
inductive IrqEvent
  /-- the hardware changes any register but the mask register -/
  | hardware (cell : U32 → U32)
  /-- `tl880_irq` is invoked -/
  | irq
  /-- the scheduled tasklet starts -/
  | bhStart
  /-- the bottom half makes its next access -/
  | bhAccess

/-- One event.  The kernel starts a tasklet only when it is scheduled, and never
twice at the same time; the lookup at the head of `tl880_bh` finds the card. -/
def irqStep (debug : Int) (s : IrqSys) : IrqEvent → Option IrqSys
  | .hardware cell =>
      some { s with dev := { s.dev with regs := s.dev.regs.hardware 4 cell } }
  | .irq => some { s with dev := (tl880Irq debug s.dev).1 }
  | .bhStart =>
      if s.dev.tasklet = true ∧ s.pc = .idle then
        some ⟨{ s.dev with tasklet := false }, .test bhParts⟩
      else none
  | .bhAccess =>
      if s.pc = .idle then none
      else some ⟨(bhStep s.pc s.dev).2, (bhStep s.pc s.dev).1⟩

/-- No bottom half is pending or running. -/
def IrqSys.Quiet (s : IrqSys) : Prop := s.dev.tasklet = false ∧ s.pc = .idle

/-- The state before any interrupt: quiet, and no type left to service. -/
def IrqSys.Idle (s : IrqSys) : Prop := s.Quiet ∧ s.dev.intType = 0

instance : DecidablePred IrqSys.Quiet := fun _ => inferInstanceAs (Decidable (_ ∧ _))

/-- Register 4. -/
def IrqSys.mask (s : IrqSys) : U32 := s.dev.read 4

/-- The mask `m`, with or without the unknown types. -/
def KeepsMask (m x : U32) : Prop := x = m ∨ x = m &&& ~~~unknownTypes

instance (m x : U32) : Decidable (KeepsMask m x) := inferInstanceAs (Decidable (_ ∨ _))

/-! ## What the handlers leave alone -/

/-- `d'` differs from `d` in nothing the mask depends on. -/
structure IntDev.SameMask (d d' : IntDev) : Prop where
  mapped : d'.regs.mapped = d.regs.mapped
  mask : d'.read 4 = d.read 4
  intMask : d'.intMask = d.intMask
  tasklet : d'.tasklet = d.tasklet

namespace IntDev.SameMask

theorem refl (d : IntDev) : SameMask d d := ⟨rfl, rfl, rfl, rfl⟩

theorem trans {d d' d'' : IntDev} (h : SameMask d d') (h' : SameMask d' d'') :
    SameMask d d'' :=
  ⟨h'.mapped.trans h.mapped, h'.mask.trans h.mask, h'.intMask.trans h.intMask,
    h'.tasklet.trans h.tasklet⟩

end IntDev.SameMask

open IntDev (SameMask)

theorem tl880VpipHandler_sameMask (d : IntDev) : SameMask d (tl880VpipHandler d) := by
  unfold tl880VpipHandler
  split_ifs
  all_goals
    refine ⟨?_, ?_, rfl, rfl⟩
    · simp [IntDev.write, IntDev.writeRegbits]
    · simp [IntDev.read, IntDev.write, IntDev.writeRegbits,
        tl880ReadRegister_write_ne, tl880ReadRegister_writeRegbits_ne]

theorem tl880VpipInt_sameMask (d : IntDev) : SameMask d (tl880VpipInt d).1 := by
  have htypes (d : IntDev) (types : PartTypes) :
      SameMask d { d with types := types } := ⟨rfl, rfl, rfl, rfl⟩
  unfold tl880VpipInt
  dsimp only
  split_ifs
  · exact ((htypes d _).trans (tl880VpipHandler_sameMask _)).trans (htypes _ _)
  · exact (htypes d _).trans (htypes _ _)

/-- The registered callbacks only log. -/
theorem runCallbacks_intFunc (funcs : List (IntFunc × Nat)) (d : IntDev) :
    tl880RunCallbacks IntFunc.call funcs d = d := by
  induction funcs with
  | nil => rfl
  | cons entry rest ih =>
      obtain ⟨func, privateData⟩ := entry
      cases func
      exact ih

theorem tl880ApuInt_sameMask (d : IntDev) : SameMask d (tl880ApuInt d).1 := by
  have hsame : (tl880ApuInt d).1 = d := runCallbacks_intFunc d.apuThFuncs d
  rw [hsame]
  exact SameMask.refl d

/-- A dispatch part leaves the mask alone when its handler does. -/
theorem irqPart_sameMask {bit : U32} {handler : IntDev → IntDev × Bool}
    (hhandler : ∀ d, SameMask d (handler d).1) (d : IntDev) :
    SameMask d (irqPart bit handler d) := by
  unfold irqPart
  split_ifs
  · exact SameMask.refl d
  · exact hhandler d
  · exact (hhandler d).trans ⟨rfl, rfl, rfl, rfl⟩

/-- Counting leaves the mask alone. -/
theorem IntDev.count_sameMask (d : IntDev) (update : IntCounts → IntCounts) :
    SameMask d (d.count update) := ⟨rfl, rfl, rfl, rfl⟩

/-- The whole dispatch leaves the mask alone. -/
theorem irqParts_sameMask (debug : Int) (d : IntDev) :
    SameMask d (irqParts debug d) := by
  have hvpip (d : IntDev) : SameMask d (irqVpip d) := by
    apply irqPart_sameMask
    intro d
    exact (d.count_sameMask _).trans (tl880VpipInt_sameMask _)
  have htsd (d : IntDev) : SameMask d (irqTsd debug d) := by
    apply irqPart_sameMask
    intro d
    dsimp only
    split_ifs <;> exact ⟨rfl, rfl, rfl, rfl⟩
  have hapu (d : IntDev) : SameMask d (irqApu d) := by
    apply irqPart_sameMask
    intro d
    exact (d.count_sameMask _).trans (tl880ApuInt_sameMask _)
  -- The remaining handlers touch their own counter and status fields only.
  have hmce (d : IntDev) : SameMask d (irqMce d) :=
    irqPart_sameMask (fun _ => ⟨rfl, rfl, rfl, rfl⟩) d
  have hdpc (d : IntDev) : SameMask d (irqDpc d) :=
    irqPart_sameMask (fun _ => ⟨rfl, rfl, rfl, rfl⟩) d
  have hvsc (d : IntDev) : SameMask d (irqVsc d) :=
    irqPart_sameMask (fun _ => ⟨rfl, rfl, rfl, rfl⟩) d
  have hblt (d : IntDev) : SameMask d (irqBlt d) :=
    irqPart_sameMask (fun _ => ⟨rfl, rfl, rfl, rfl⟩) d
  have hhpip (d : IntDev) : SameMask d (irqHpip d) :=
    irqPart_sameMask (fun _ => ⟨rfl, rfl, rfl, rfl⟩) d
  have hmcu (d : IntDev) : SameMask d (irqMcu d) :=
    irqPart_sameMask (fun _ => ⟨rfl, rfl, rfl, rfl⟩) d
  unfold irqParts
  exact ((((((((hvpip d).trans (htsd _)).trans (hmce _)).trans (hdpc _)).trans
    (hvsc _)).trans (hapu _)).trans (hblt _)).trans (hhpip _)).trans (hmcu _)

theorem bhBody_sameMask (part : U32) (d : IntDev) : SameMask d (bhBody part d) := by
  unfold bhBody
  split_ifs
  · exact ⟨rfl, rfl, rfl, rfl⟩
  · unfold tl880NtscAudioDpc
    dsimp only
    split_ifs
    all_goals
      refine ⟨?_, ?_, rfl, rfl⟩
      · simp [IntDev.write]
      · simp [IntDev.read, IntDev.write, tl880ReadRegister_write_ne]
  · exact SameMask.refl d

/-! ## One `tl880_irq` invocation -/

/-- Register 4 reads back what is written to it. -/
theorem IntDev.read_write_mask {d : IntDev} (hmapped : d.regs.mapped = true)
    (value : U32) : (d.write 4 value).read 4 = value :=
  tl880ReadRegister_write_self hmapped (by decide) value

theorem keepsMask_refl (m : U32) : KeepsMask m m := Or.inl rfl

/-- Dropping the unknown types once or twice is the same. -/
theorem KeepsMask.drop {m x : U32} (h : KeepsMask m x) :
    KeepsMask m (x &&& ~~~unknownTypes) := by
  rcases h with rfl | rfl
  · exact Or.inr rfl
  · right
    rw [BitVec.and_assoc, BitVec.and_self]

theorem KeepsMask.trans {m x y : U32} (h : KeepsMask m x) (h' : KeepsMask x y) :
    KeepsMask m y := by
  rcases h' with rfl | rfl
  · exact h
  · exact h.drop

/-- Entering the handler zeroes register 4 and keeps everything else. -/
theorem irqEnter_spec {d : IntDev} (hmapped : d.regs.mapped = true) :
    (irqEnter d).regs.mapped = true ∧ (irqEnter d).read 4 = 0 := by
  constructor
  · exact (tl880WriteRegister_mapped _ _ _).trans hmapped
  · exact IntDev.read_write_mask (d := { d with intMask := d.read 4 }) hmapped 0

/-- The dispatch keeps register 4, and the mask up to the unknown types. -/
theorem irqDispatch_spec (debug : Int) (intType intMask : U32) (d : IntDev) :
    let served := irqDispatch debug intType intMask d
    served.regs.mapped = d.regs.mapped ∧ served.read 4 = d.read 4 ∧
      served.tasklet = d.tasklet ∧ KeepsMask intMask served.intMask := by
  have hparts := irqParts_sameMask debug
    (({ d with intMask := intMask, intType := intType &&& intMask } : IntDev).count
      fun c => { c with int := c.int + 1 })
  unfold irqDispatch irqUnknown
  dsimp only
  split_ifs
  · exact ⟨hparts.mapped, hparts.mask, hparts.tasklet, Or.inl hparts.intMask⟩
  · refine ⟨hparts.mapped, hparts.mask, hparts.tasklet, Or.inr ?_⟩
    exact congrArg (· &&& ~~~unknownTypes) hparts.intMask

/-- An invocation without an enabled bit leaves register 4 at zero, with its old
contents in `int_mask`. -/
theorem tl880Irq_foreign (debug : Int) {d : IntDev} (hmapped : d.regs.mapped = true)
    (hnone : d.read 0 &&& d.read 4 = 0) :
    let d' := (tl880Irq debug d).1
    d'.regs.mapped = true ∧ d'.read 4 = 0 ∧ d'.intMask = d.read 4 ∧
      d'.tasklet = d.tasklet ∧ d'.intType = d.intType := by
  have hresult : (tl880Irq debug d).1 = { irqEnter d with elseint := true } := by
    unfold tl880Irq
    dsimp only
    rw [if_pos hnone]
  rw [hresult]
  obtain ⟨hm, h4⟩ := irqEnter_spec hmapped
  exact ⟨hm, h4, rfl, rfl, rfl⟩

/-- An invocation with an enabled bit and no type left to service either
schedules the bottom half, with register 4 at zero and the mask in `int_mask`,
or writes the mask back. -/
theorem tl880Irq_matched (debug : Int) {d : IntDev} (hmapped : d.regs.mapped = true)
    (hsome : d.read 0 &&& d.read 4 ≠ 0) (htype : d.intType = 0) :
    let d' := (tl880Irq debug d).1
    d'.regs.mapped = true ∧ KeepsMask (d.read 4) d'.intMask ∧
      ((d'.tasklet = true ∧ d'.read 4 = 0) ∨
        (d'.tasklet = d.tasklet ∧ d'.read 4 = d'.intMask ∧ d'.intType = 0)) := by
  have hresult : (tl880Irq debug d).1 =
      irqFinish (irqDispatch debug (d.read 0) (d.read 4) (irqEnter d)) := by
    have hentered : ¬ (irqEnter d).intType ≠ 0 := not_not.mpr htype
    unfold tl880Irq
    dsimp only
    rw [if_neg hsome, if_neg hentered]
  obtain ⟨hm, h4⟩ := irqEnter_spec hmapped
  obtain ⟨hm', h4', ht', hk'⟩ :=
    irqDispatch_spec debug (d.read 0) (d.read 4) (irqEnter d)
  rw [hm] at hm'
  rw [h4] at h4'
  rw [hresult]
  unfold irqFinish
  split_ifs with hleft
  · exact ⟨hm', hk', Or.inl ⟨rfl, h4'⟩⟩
  · refine ⟨(tl880WriteRegister_mapped _ _ _).trans hm', hk', Or.inr ⟨ht', ?_, ?_⟩⟩
    · exact IntDev.read_write_mask hm' _
    · exact not_not.mp hleft

/-! ## Where the mask is -/

/-- The bottom half is running and has not loaded the saved mask yet. -/
def BhPc.Serving : BhPc → Prop
  | .idle | .write _ | .leave => False
  | .test _ | .body _ _ | .load _ _ | .store _ _ | .check _ | .done => True

instance : DecidablePred BhPc.Serving := fun pc => by
  cases pc <;> first | exact isTrue trivial | exact isFalse id

/-- Everything an access of the bottom half can do: it goes on serving without
touching the mask, it loads the saved mask, it writes it back, or it returns. -/
theorem bhStep_cases {pc : BhPc} (d : IntDev) (hrun : pc ≠ .idle) :
    (pc.Serving ∧ (bhStep pc d).1.Serving ∧ SameMask d (bhStep pc d).2 ∧
      ((bhStep pc d).1 = .done → (bhStep pc d).2.intType = 0)) ∨
    (pc = .done ∧ bhStep pc d = (.write d.intMask, d)) ∨
    (∃ v, pc = .write v ∧ bhStep pc d = (.leave, d.write 4 v)) ∨
    (pc = .leave ∧ bhStep pc d = (.idle, d)) := by
  have hsame (value : U32) : SameMask d { d with intType := value } :=
    ⟨rfl, rfl, rfl, rfl⟩
  cases pc with
  | idle => exact absurd rfl hrun
  | test parts =>
      left
      cases parts with
      | nil => exact ⟨trivial, trivial, hsame 0, fun _ => rfl⟩
      | cons part rest =>
          by_cases hbit : d.intType &&& part = 0
          · have hstep : bhStep (.test (part :: rest)) d = (.test rest, d) := if_pos hbit
            rw [hstep]
            exact ⟨trivial, trivial, SameMask.refl d, by intro heq; cases heq⟩
          · have hstep : bhStep (.test (part :: rest)) d = (.body part rest, d) :=
              if_neg hbit
            rw [hstep]
            exact ⟨trivial, trivial, SameMask.refl d, by intro heq; cases heq⟩
  | body part rest =>
      left
      exact ⟨trivial, trivial, bhBody_sameMask part d, by intro heq; cases heq⟩
  | load part rest =>
      left
      exact ⟨trivial, trivial, SameMask.refl d, by intro heq; cases heq⟩
  | store value rest =>
      left
      exact ⟨trivial, trivial, hsame value, by intro heq; cases heq⟩
  | check rest =>
      left
      by_cases htype : d.intType = 0
      · have hstep : bhStep (.check rest) d = (.done, d) := if_pos htype
        rw [hstep]
        exact ⟨trivial, trivial, SameMask.refl d, fun _ => htype⟩
      · have hstep : bhStep (.check rest) d = (.test rest, d) := if_neg htype
        rw [hstep]
        exact ⟨trivial, trivial, SameMask.refl d, by intro heq; cases heq⟩
  | done => exact Or.inr (Or.inl ⟨rfl, rfl⟩)
  | write v => exact Or.inr (Or.inr (Or.inl ⟨v, rfl, rfl⟩))
  | leave => exact Or.inr (Or.inr (Or.inr ⟨rfl, rfl⟩))

/-- A bottom half is still to put the saved mask back. -/
def IrqSys.Outstanding (s : IrqSys) : Prop := s.dev.tasklet = true ∨ s.pc.Serving

instance : DecidablePred IrqSys.Outstanding :=
  fun _ => inferInstanceAs (Decidable (_ ∨ _))

/-- The enabled mask `m` is somewhere: in `int_mask` while a bottom half is
outstanding, in the bottom half's local value before it is written back, and in
register 4 otherwise. -/
structure MaskHeld (m : U32) (s : IrqSys) : Prop where
  mapped : s.dev.regs.mapped = true
  saved : s.Outstanding → s.mask = 0 ∧ KeepsMask m s.dev.intMask
  loaded : ∀ v, s.pc = .write v → s.mask = 0 ∧ KeepsMask m v
  enabled : ¬ s.Outstanding → (∀ v, s.pc ≠ .write v) → KeepsMask m s.mask
  untyped : ¬ s.Outstanding ∨ s.pc = .done → s.dev.intType = 0
  single : s.pc.Serving ∨ (∃ v, s.pc = .write v) → s.dev.tasklet = false

/-- The mask is gone: neither register 4 nor what is still to be written to it
holds an enabled bit. -/
structure MaskLost (s : IrqSys) : Prop where
  mapped : s.dev.regs.mapped = true
  mask : s.mask = 0
  saved : s.Outstanding → s.dev.intMask = 0
  loaded : ∀ v, s.pc = .write v → v = 0

/-- What an event needs for the mask to survive it: an invocation of `tl880_irq`
finds an enabled bit in the type register, or there is no mask to lose. -/
def IrqEvent.KeepsMask (s : IrqSys) : IrqEvent → Prop
  | .irq => s.dev.read 0 &&& s.mask ≠ 0 ∨ (s.mask = 0 ∧ ¬ s.Outstanding)
  | _ => True

instance (s : IrqSys) : DecidablePred (IrqEvent.KeepsMask s)
  | .irq => inferInstanceAs (Decidable (_ ∨ _))
  | .hardware _ | .bhStart | .bhAccess => isTrue trivial

/-- In a quiet state no bottom half is outstanding. -/
theorem IrqSys.Quiet.not_outstanding {s : IrqSys} (hquiet : s.Quiet) : ¬ s.Outstanding := by
  obtain ⟨htasklet, hpc⟩ := hquiet
  intro hout
  rcases hout with h | h
  · rw [htasklet] at h
    contradiction
  · rw [hpc] at h
    exact h

/-- A quiet card that has never been interrupted holds its mask in register 4. -/
theorem maskHeld_of_idle {s : IrqSys} (hmapped : s.dev.regs.mapped = true)
    (hidle : s.Idle) : MaskHeld s.mask s := by
  have hnot := hidle.1.not_outstanding
  obtain ⟨⟨htasklet, hpc⟩, htype⟩ := hidle
  refine ⟨hmapped, fun h => absurd h hnot, ?_, fun _ _ => keepsMask_refl _,
    fun _ => htype, fun _ => htasklet⟩
  intro v hv
  rw [hpc] at hv
  contradiction

/-- A quiet state in which the mask is held has it in register 4. -/
theorem MaskHeld.quiet {m : U32} {s : IrqSys} (h : MaskHeld m s) (hquiet : s.Quiet) :
    KeepsMask m s.mask := by
  have hnot := hquiet.not_outstanding
  obtain ⟨-, hpc⟩ := hquiet
  apply h.enabled
  · exact hnot
  · intro v hv
    rw [hpc] at hv
    contradiction

/-- Steps between two places of the service loop. -/
theorem MaskHeld.serve {m : U32} {s : IrqSys} (h : MaskHeld m s)
    (hpc : s.pc.Serving) {d' : IntDev} (hsame : SameMask s.dev d') {pc' : BhPc}
    (hpc' : pc'.Serving) (hdone : pc' = .done → d'.intType = 0) :
    MaskHeld m ⟨d', pc'⟩ := by
  obtain ⟨hmask, hkeeps⟩ := h.saved (Or.inr hpc)
  have hout : (⟨d', pc'⟩ : IrqSys).Outstanding := Or.inr hpc'
  refine ⟨hsame.mapped.trans h.mapped, ?_, ?_, ?_, ?_, ?_⟩
  · intro _
    constructor
    · exact hsame.mask.trans hmask
    show KeepsMask m d'.intMask
    rw [hsame.intMask]
    exact hkeeps
  · rintro v rfl
    exact hpc'.elim
  · intro hnot _
    exact absurd hout hnot
  · intro hwhen
    rcases hwhen with hnot | heq
    · exact absurd hout hnot
    · exact hdone heq
  · intro _
    exact hsame.tasklet.trans (h.single (Or.inl hpc))

/-- A bottom half that has loaded the mask is not outstanding. -/
theorem not_outstanding_write {d : IntDev} (htasklet : d.tasklet = false) (v : U32) :
    ¬ (⟨d, .write v⟩ : IrqSys).Outstanding := by
  intro hout
  rcases hout with hpending | hserving
  · rw [htasklet] at hpending
    contradiction
  · exact hserving

/-- The saved mask moves into the bottom half's local value. -/
theorem MaskHeld.load {m : U32} {d : IntDev} (h : MaskHeld m ⟨d, .done⟩) :
    MaskHeld m ⟨d, .write d.intMask⟩ := by
  obtain ⟨hmask, hkeeps⟩ := h.saved (Or.inr trivial)
  have htasklet : d.tasklet = false := h.single (Or.inl trivial)
  have hnot := not_outstanding_write htasklet d.intMask
  refine ⟨h.mapped, fun hout => absurd hout hnot, ?_, ?_, fun _ => h.untyped (Or.inr rfl),
    fun _ => htasklet⟩
  · intro v hv
    cases hv
    exact ⟨hmask, hkeeps⟩
  · intro _ hne
    exact absurd rfl (hne d.intMask)

/-- The local value moves into register 4. -/
theorem MaskHeld.writeBack {m v : U32} {d : IntDev} (h : MaskHeld m ⟨d, .write v⟩) :
    MaskHeld m ⟨d.write 4 v, .leave⟩ := by
  obtain ⟨-, hkeeps⟩ := h.loaded v rfl
  have htasklet : d.tasklet = false := h.single (Or.inr ⟨v, rfl⟩)
  have hbefore := not_outstanding_write htasklet v
  have hafter : ¬ (⟨d.write 4 v, .leave⟩ : IrqSys).Outstanding := hbefore
  refine ⟨(tl880WriteRegister_mapped _ _ _).trans h.mapped,
    fun hout => absurd hout hafter, ?_, ?_, fun _ => h.untyped (Or.inl hbefore),
    fun _ => htasklet⟩
  · intro v' hv'
    cases hv'
  · intro _ _
    show KeepsMask m ((d.write 4 v).read 4)
    rw [IntDev.read_write_mask h.mapped]
    exact hkeeps

/-- The bottom half returns. -/
theorem MaskHeld.leave {m : U32} {d : IntDev} (h : MaskHeld m ⟨d, .leave⟩) :
    MaskHeld m ⟨d, .idle⟩ := by
  have hiff : (⟨d, .idle⟩ : IrqSys).Outstanding ↔ (⟨d, .leave⟩ : IrqSys).Outstanding :=
    Iff.rfl
  refine ⟨h.mapped, fun hout => h.saved (hiff.mp hout), ?_, ?_, ?_, ?_⟩
  · intro v hv
    cases hv
  · intro hnot _
    exact h.enabled hnot (by intro v hv; cases hv)
  · intro hwhen
    rcases hwhen with hnot | heq
    · exact h.untyped (Or.inl hnot)
    · cases heq
  · intro hwhen
    rcases hwhen with hserving | ⟨v, hv⟩
    · exact hserving.elim
    · cases hv

/-- An access of the bottom half keeps the mask held. -/
theorem MaskHeld.bhAccess {m : U32} {d : IntDev} {pc : BhPc}
    (h : MaskHeld m ⟨d, pc⟩) (hrun : pc ≠ .idle) :
    MaskHeld m ⟨(bhStep pc d).2, (bhStep pc d).1⟩ := by
  rcases bhStep_cases d hrun with ⟨hpc, hpc', hsame, hdone⟩ | ⟨rfl, hstep⟩ |
    ⟨v, rfl, hstep⟩ | ⟨rfl, hstep⟩
  · exact h.serve hpc hsame hpc' hdone
  · rw [hstep]
    exact h.load
  · rw [hstep]
    exact h.writeBack
  · rw [hstep]
    exact h.leave

/-- The hardware keeps the mask held. -/
theorem MaskHeld.hardware {m : U32} {s : IrqSys} (h : MaskHeld m s)
    (cell : U32 → U32) :
    MaskHeld m
      { s with dev := { s.dev with regs := s.dev.regs.hardware 4 cell } } := by
  have hmask : ({ s with dev := { s.dev with
      regs := s.dev.regs.hardware 4 cell } } : IrqSys).mask = s.mask :=
    RegSpace.read_hardware_kept s.dev.regs 4 cell
  refine ⟨h.mapped, fun hout => ?_, fun v hv => ?_, fun hnot hne => ?_, h.untyped,
    h.single⟩
  · rw [hmask]
    exact h.saved hout
  · rw [hmask]
    exact h.loaded v hv
  · rw [hmask]
    exact h.enabled hnot hne

/-- The start of the tasklet keeps the mask held. -/
theorem MaskHeld.bhStart {m : U32} {s : IrqSys} (h : MaskHeld m s)
    (hpending : s.dev.tasklet = true) :
    MaskHeld m ⟨{ s.dev with tasklet := false }, .test bhParts⟩ := by
  have hout : (⟨{ s.dev with tasklet := false }, .test bhParts⟩ : IrqSys).Outstanding :=
    Or.inr trivial
  refine ⟨h.mapped, fun _ => h.saved (Or.inl hpending), ?_,
    fun hnot _ => absurd hout hnot, ?_, fun _ => rfl⟩
  · intro v hv
    cases hv
  · intro hwhen
    rcases hwhen with hnot | heq
    · exact absurd hout hnot
    · cases heq

/-- An invocation of `tl880_irq` that finds an enabled bit keeps the mask held. -/
theorem MaskHeld.irq_matched {m : U32} {s : IrqSys} (h : MaskHeld m s) (debug : Int)
    (hsome : s.dev.read 0 &&& s.mask ≠ 0) :
    MaskHeld m { s with dev := (tl880Irq debug s.dev).1 } := by
  -- Register 4 is not zero, so the mask is there.
  have hmask : s.mask ≠ 0 := by
    intro hzero
    rw [hzero] at hsome
    exact hsome (BitVec.and_zero)
  have hnot : ¬ s.Outstanding := fun hout => hmask (h.saved hout).1
  have hne : ∀ v, s.pc ≠ .write v := fun v hv => hmask (h.loaded v hv).1
  have hserving : ¬ s.pc.Serving := fun hs => hnot (Or.inr hs)
  have hsingle : ¬ (s.pc.Serving ∨ ∃ v, s.pc = .write v) := by
    intro hwhen
    rcases hwhen with hs | ⟨v, hv⟩
    · exact hserving hs
    · exact hne v hv
  have hdone : s.pc ≠ .done := by
    intro hd
    rw [hd] at hserving
    exact hserving trivial
  obtain ⟨hm, hkeeps, hcases⟩ :=
    tl880Irq_matched debug h.mapped hsome (h.untyped (Or.inl hnot))
  have hkeeps' : KeepsMask m (tl880Irq debug s.dev).1.intMask :=
    (h.enabled hnot hne).trans hkeeps
  rcases hcases with ⟨hpending, h4⟩ | ⟨htasklet, h4, htype⟩
  · have hout : ({ s with dev := (tl880Irq debug s.dev).1 } : IrqSys).Outstanding :=
      Or.inl hpending
    refine ⟨hm, fun _ => ⟨h4, hkeeps'⟩, fun v hv => absurd hv (hne v),
      fun hnot' _ => absurd hout hnot', ?_, fun hs => absurd hs hsingle⟩
    intro hwhen
    rcases hwhen with hnot' | hd
    · exact absurd hout hnot'
    · exact absurd hd hdone
  · have hnot' : ¬ ({ s with dev := (tl880Irq debug s.dev).1 } : IrqSys).Outstanding := by
      intro hout
      rcases hout with ht | hs
      · exact hnot (Or.inl (htasklet.symm.trans ht))
      · exact hserving hs
    refine ⟨hm, fun hout => absurd hout hnot', fun v hv => absurd hv (hne v),
      fun _ _ => ?_, fun _ => htype, fun hs => absurd hs hsingle⟩
    show KeepsMask m ((tl880Irq debug s.dev).1.read 4)
    rw [h4]
    exact hkeeps'

/-- Whether a bottom half is outstanding does not change when another device's
interrupt is turned away. -/
theorem outstanding_irq_foreign {s : IrqSys} (debug : Int)
    (hmapped : s.dev.regs.mapped = true) (hnone : s.dev.read 0 &&& s.mask = 0) :
    ({ s with dev := (tl880Irq debug s.dev).1 } : IrqSys).Outstanding ↔
      s.Outstanding := by
  obtain ⟨-, -, -, htasklet, -⟩ := tl880Irq_foreign debug hmapped hnone
  exact or_congr (by rw [htasklet]) Iff.rfl

/-- Another device's interrupt does no harm when there is no mask to lose. -/
theorem MaskHeld.irq_foreign {m : U32} {s : IrqSys} (h : MaskHeld m s) (debug : Int)
    (hnone : s.dev.read 0 &&& s.mask = 0) (hmask : s.mask = 0)
    (hnot : ¬ s.Outstanding) :
    MaskHeld m { s with dev := (tl880Irq debug s.dev).1 } := by
  obtain ⟨hm, h4, hsaved, htasklet, htype⟩ := tl880Irq_foreign debug h.mapped hnone
  have hnot' := (not_congr (outstanding_irq_foreign debug h.mapped hnone)).mpr hnot
  refine ⟨hm, fun hout => absurd hout hnot', fun v hv => ⟨h4, (h.loaded v hv).2⟩,
    fun _ hne => ?_, fun _ => htype.trans (h.untyped (Or.inl hnot)),
    fun hs => htasklet.trans (h.single hs)⟩
  have hkeeps : KeepsMask m s.mask := h.enabled hnot hne
  rw [hmask] at hkeeps
  show KeepsMask m ((tl880Irq debug s.dev).1.read 4)
  rw [h4]
  exact hkeeps

/-- One event that loses nothing keeps the mask held. -/
theorem maskHeld_step {m : U32} {debug : Int} (s : IrqSys) (e : IrqEvent) (s' : IrqSys)
    (h : MaskHeld m s) (hok : e.KeepsMask s) (hstep : irqStep debug s e = some s') :
    MaskHeld m s' := by
  cases e with
  | hardware cell =>
      cases hstep
      exact h.hardware cell
  | irq =>
      cases hstep
      by_cases hnone : s.dev.read 0 &&& s.mask = 0
      · rcases hok with hsome | ⟨hmask, hnot⟩
        · exact absurd hnone hsome
        · exact h.irq_foreign debug hnone hmask hnot
      · exact h.irq_matched debug hnone
  | bhStart =>
      simp only [irqStep] at hstep
      split_ifs at hstep with hready
      cases hstep
      exact h.bhStart hready.1
  | bhAccess =>
      simp only [irqStep] at hstep
      split_ifs at hstep with hidle
      cases hstep
      exact h.bhAccess hidle

/-! ## Losing the mask -/

/-- An access of the bottom half brings nothing back: what it has to write is zero. -/
theorem MaskLost.bhAccess {d : IntDev} {pc : BhPc} (h : MaskLost ⟨d, pc⟩)
    (hrun : pc ≠ .idle) : MaskLost ⟨(bhStep pc d).2, (bhStep pc d).1⟩ := by
  have hpending (ht : d.tasklet = true) : d.intMask = 0 := h.saved (Or.inl ht)
  rcases bhStep_cases d hrun with ⟨hpc, hpc', hsame, -⟩ | ⟨rfl, hbh⟩ | ⟨v, rfl, hbh⟩ |
    ⟨rfl, hbh⟩
  · refine ⟨hsame.mapped.trans h.mapped, hsame.mask.trans h.mask, fun _ => ?_,
      fun v hv => ?_⟩
    · exact hsame.intMask.trans (h.saved (Or.inr hpc))
    · change (bhStep pc d).1 = .write v at hv
      rw [hv] at hpc'
      exact hpc'.elim
  · rw [hbh]
    have hzero : d.intMask = 0 := h.saved (Or.inr trivial)
    refine ⟨h.mapped, h.mask, fun _ => hzero, ?_⟩
    intro v hv
    cases hv
    exact hzero
  · rw [hbh]
    have hzero : v = 0 := h.loaded v rfl
    refine ⟨(tl880WriteRegister_mapped _ _ _).trans h.mapped, ?_, ?_, ?_⟩
    · exact (IntDev.read_write_mask h.mapped v).trans hzero
    · intro hout
      rcases hout with ht | hserving
      · exact hpending ht
      · exact hserving.elim
    · intro v' hv'
      cases hv'
  · rw [hbh]
    refine ⟨h.mapped, h.mask, ?_, ?_⟩
    · intro hout
      rcases hout with ht | hserving
      · exact hpending ht
      · exact hserving.elim
    · intro v hv
      cases hv

/-- Once lost, the mask stays lost: with register 4 at zero every further
interrupt is turned away. -/
theorem maskLost_step {debug : Int} (s : IrqSys) (e : IrqEvent) (s' : IrqSys)
    (h : MaskLost s) (hstep : irqStep debug s e = some s') : MaskLost s' := by
  cases e with
  | hardware cell =>
      cases hstep
      refine ⟨h.mapped, ?_, h.saved, h.loaded⟩
      exact (RegSpace.read_hardware_kept s.dev.regs 4 cell).trans h.mask
  | irq =>
      cases hstep
      have hnone : s.dev.read 0 &&& s.mask = 0 := by
        rw [h.mask]
        exact BitVec.and_zero
      obtain ⟨hm, h4, hsaved, -, -⟩ := tl880Irq_foreign debug h.mapped hnone
      exact ⟨hm, h4, fun _ => hsaved.trans h.mask, h.loaded⟩
  | bhStart =>
      simp only [irqStep] at hstep
      split_ifs at hstep with hready
      cases hstep
      refine ⟨h.mapped, h.mask, fun _ => h.saved (Or.inl hready.1), ?_⟩
      intro v hv
      cases hv
  | bhAccess =>
      simp only [irqStep] at hstep
      split_ifs at hstep with hidle
      cases hstep
      exact h.bhAccess hidle

/-- Where the mask is held, an event that may not be taken loses it. -/
theorem maskLost_of_not_keeps {m : U32} {debug : Int} {s s' : IrqSys} {e : IrqEvent}
    (h : MaskHeld m s) (hbad : ¬ e.KeepsMask s) (hstep : irqStep debug s e = some s') :
    MaskLost s' := by
  cases e with
  | hardware cell => exact absurd trivial hbad
  | bhStart => exact absurd trivial hbad
  | bhAccess => exact absurd trivial hbad
  | irq =>
      cases hstep
      have hnone : s.dev.read 0 &&& s.mask = 0 := by
        by_contra hsome
        exact hbad (Or.inl hsome)
      have hlive : s.mask = 0 → s.Outstanding := by
        intro hmask
        by_contra hnot
        exact hbad (Or.inr ⟨hmask, hnot⟩)
      obtain ⟨hm, h4, hsaved, -, -⟩ := tl880Irq_foreign debug h.mapped hnone
      have hout := outstanding_irq_foreign debug h.mapped hnone
      refine ⟨hm, h4, fun ho => ?_, fun v hv => ?_⟩
      · -- A pending or running bottom half will restore what it finds: zero.
        exact hsaved.trans (h.saved (hout.mp ho)).1
      · -- Before its write-back the bottom half is no longer outstanding.
        have hmask : s.mask = 0 := (h.loaded v hv).1
        have hpc : s.pc = .write v := hv
        rcases hlive hmask with ht | hs
        · have hfalse := h.single (Or.inr ⟨v, hpc⟩)
          rw [ht] at hfalse
          contradiction
        · rw [hpc] at hs
          exact hs.elim

/-- An idle card with the given type and mask registers. -/
def idleCard (intType intMask : U32) : IrqSys where
  dev := {
    regs := ⟨true, fun reg => if reg = 0 then intType else if reg = 4 then intMask else 0⟩
    tasklet := false
    elseint := false
    oldMask := 0
    intMask := 0
    intType := 0
    counts := ⟨0, 0, 0, 0, 0, 0, 0, 0, 0, 0⟩
    types := ⟨0, 0, 0⟩
    apuThFuncs := []
    rowCnt := 1
    fieldCnt := 0 }
  pc := .idle

end Tl880
