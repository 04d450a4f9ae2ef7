import Tl880.InterruptRuns

/-!
# The interrupt type and the dead branch

`tl880_irq` has a branch for an interrupt that arrives while `int_type` is still
set; the source says that it should never get executed.  It does not: the type
is only set while the bottom half that will clear it is outstanding, and
register 4 is zero for as long as that is so.  `TypeServed` states this together
with what the program counter adds to it.  It is what is left of `MaskHeld` when any
mask will do, so the events that keep the mask keep it; an interrupt of another
device on the line, which loses the mask, keeps it too.
-/

namespace Tl880

open LabelledRun

/-- While `int_type` is set a bottom half is outstanding, and register 4 is
zero. -/
structure TypeServed (s : IrqSys) : Prop where
  mapped : s.dev.regs.mapped = true
  masked : s.Outstanding → s.mask = 0
  loaded : ∀ v, s.pc = .write v → s.mask = 0
  untyped : ¬ s.Outstanding ∨ s.pc = .done → s.dev.intType = 0
  single : s.pc.Serving ∨ (∃ v, s.pc = .write v) → s.dev.tasklet = false

/-- What holds between the events of a run. -/
structure TypeGuarded (s : IrqSys) : Prop where
  /-- `int_type` is set only while a bottom half is pending or running -/
  served : s.dev.intType ≠ 0 → s.dev.tasklet = true ∨ s.pc ≠ .idle
  /-- and then register 4 is zero -/
  masked : s.dev.intType ≠ 0 → s.mask = 0

/-- What holds of the single events of a run: a bottom half is done with the
card, at its write to register 4, with `int_type = 0`, and on its return finds it
set only by an interrupt that has scheduled it again; an invocation of `tl880_irq`
with an enabled type bit does not find `int_type` set. -/
def NotAlreadyHandling (s : IrqSys) : IrqEvent → Prop
  | .bhAccess =>
      (∀ v, s.pc = .write v →
        (bhStep s.pc s.dev).1 = .leave ∧ (bhStep s.pc s.dev).2.intType = 0) ∧
      (s.pc = .leave → (bhStep s.pc s.dev).2.intType ≠ 0 → s.dev.tasklet = true)
  | .irq => ¬ (s.dev.read 0 &&& s.dev.read 4 ≠ 0 ∧ (irqEnter s.dev).intType ≠ 0)
  | .hardware _ | .bhStart => True

/-- Where some mask is held the type is served. -/
theorem MaskHeld.typeServed {m : U32} {s : IrqSys} (h : MaskHeld m s) : TypeServed s := by
  constructor
  · exact h.mapped
  · intro hout
    exact (h.saved hout).1
  · intro v hv
    exact (h.loaded v hv).1
  · exact h.untyped
  · exact h.single

/-- Once the mask is loaded the bottom half is not outstanding. -/
theorem TypeServed.not_outstanding {s : IrqSys} (h : TypeServed s) {v : U32}
    (hpc : s.pc = .write v) : ¬ s.Outstanding := by
  intro hout
  rcases hout with hpending | hserving
  · have hfalse := h.single (Or.inr ⟨v, hpc⟩)
    rw [hpending] at hfalse
    contradiction
  · rw [hpc] at hserving
    exact hserving

/-- Where the type is served some mask is held: what is saved, what has been loaded,
or what register 4 has. -/
theorem TypeServed.maskHeld {s : IrqSys} (h : TypeServed s) : ∃ m, MaskHeld m s := by
  by_cases hout : s.Outstanding
  · refine ⟨s.dev.intMask, ?_⟩
    constructor
    · exact h.mapped
    · intro _
      exact ⟨h.masked hout, keepsMask_refl _⟩
    · intro v hv
      exact absurd hout (h.not_outstanding hv)
    · intro hnot _
      exact absurd hout hnot
    · exact h.untyped
    · exact h.single
  by_cases hloaded : ∃ v, s.pc = .write v
  · obtain ⟨v, hv⟩ := hloaded
    refine ⟨v, ?_⟩
    constructor
    · exact h.mapped
    · intro hyes
      exact absurd hyes hout
    · intro v' hv'
      rw [hv] at hv'
      cases hv'
      exact ⟨h.loaded v hv, keepsMask_refl _⟩
    · intro _ hne
      exact absurd hv (hne v)
    · exact h.untyped
    · exact h.single
  · refine ⟨s.mask, ?_⟩
    constructor
    · exact h.mapped
    · intro hyes
      exact absurd hyes hout
    · intro v hv
      exact absurd ⟨v, hv⟩ hloaded
    · intro _ _
      exact keepsMask_refl _
    · exact h.untyped
    · exact h.single

theorem TypeServed.guarded {s : IrqSys} (h : TypeServed s) : TypeGuarded s := by
  have hout : s.dev.intType ≠ 0 → s.Outstanding := by
    intro htype
    by_contra hnot
    exact htype (h.untyped (Or.inl hnot))
  constructor
  · intro htype
    rcases hout htype with hpending | hserving
    · exact Or.inl hpending
    · right
      intro hpc
      rw [hpc] at hserving
      exact hserving
  · intro htype
    exact h.masked (hout htype)

/-- Where the type is served, no event takes the branch. -/
theorem TypeServed.notAlreadyHandling {s : IrqSys} (h : TypeServed s) (event : IrqEvent) :
    NotAlreadyHandling s event := by
  cases event with
  | hardware cell => trivial
  | bhStart => trivial
  | bhAccess =>
      constructor
      · intro v hv
        rw [hv]
        exact ⟨rfl, h.untyped (Or.inl (h.not_outstanding hv))⟩
      · intro hleave htype
        rw [hleave] at htype
        rcases h.guarded.served htype with hpending | _
        · exact hpending
        · by_contra hnot
          apply htype
          apply h.untyped
          left
          intro hout
          rcases hout with hpending | hserving
          · exact hnot hpending
          · rw [hleave] at hserving
            exact hserving
  | irq =>
      intro hbranch
      obtain ⟨henabled, htype⟩ := hbranch
      -- an enabled bit needs a mask, and with a type set there is none
      have hmask : s.dev.read 4 = 0 := h.guarded.masked htype
      rw [hmask] at henabled
      exact henabled BitVec.and_zero

/-! ## Every event keeps the type served -/

/-- An interrupt of another device keeps the type served. -/
theorem TypeServed.irq_foreign {s : IrqSys} (h : TypeServed s) (debug : Int)
    (hnone : s.dev.read 0 &&& s.mask = 0) :
    TypeServed { s with dev := (tl880Irq debug s.dev).1 } := by
  obtain ⟨hm, h4, -, htasklet, htype⟩ := tl880Irq_foreign debug h.mapped hnone
  have hout := outstanding_irq_foreign debug h.mapped hnone
  constructor
  · exact hm
  · intro _
    exact h4
  · intro v _
    exact h4
  · intro hwhen
    apply htype.trans
    apply h.untyped
    rcases hwhen with hnot | hdone
    · exact Or.inl (fun hs => hnot (hout.mpr hs))
    · exact Or.inr hdone
  · intro hs
    exact htasklet.trans (h.single hs)

/-- Every event keeps the type served: an interrupt of another device does, and the
other events keep the mask. -/
theorem typeServed_step {debug : Int} (s : IrqSys) (e : IrqEvent) (s' : IrqSys)
    (h : TypeServed s) (hstep : irqStep debug s e = some s') : TypeServed s' := by
  obtain ⟨m, hheld⟩ := h.maskHeld
  cases e with
  | irq =>
      by_cases hnone : s.dev.read 0 &&& s.mask = 0
      · cases hstep
        exact h.irq_foreign debug hnone
      · exact (maskHeld_step s .irq s' hheld (Or.inl hnone) hstep).typeServed
  | hardware cell => exact (maskHeld_step s (.hardware cell) s' hheld trivial hstep).typeServed
  | bhStart => exact (maskHeld_step s .bhStart s' hheld trivial hstep).typeServed
  | bhAccess => exact (maskHeld_step s .bhAccess s' hheld trivial hstep).typeServed

/-- From an idle card whose register 4 reads back what is written to it, no run
reaches the branch of `tl880_irq` for a type that is already set. -/
theorem alreadyHandling_dead (debug : Int) (s : IrqSys) (events : List IrqEvent)
    (hmapped : s.dev.regs.mapped = true) (hidle : s.Idle) :
    AllStates (irqStep debug) TypeGuarded s events ∧
      AllSteps (irqStep debug) NotAlreadyHandling s events := by
  have hstart := (maskHeld_of_idle hmapped hidle).typeServed
  constructor
  · apply (allStates_of_preserves typeServed_step hstart events).imp
    intro t ht
    exact ht.guarded
  · apply allSteps_of_preserves typeServed_step _ hstart events
    intro t e ht
    exact ht.notAlreadyHandling e

/-- A VSC interrupt, its bottom half up to the write of register 4, and the next
VSC interrupt before the bottom half returns. -/
theorem alreadyHandling_dead_vsc :
    AllStates (irqStep 0) TypeGuarded (idleCard 0x10 0x11)
        (.irq :: .bhStart :: (List.replicate 11 .bhAccess ++ [.irq, .bhAccess])) ∧
      AllSteps (irqStep 0) NotAlreadyHandling (idleCard 0x10 0x11)
        (.irq :: .bhStart :: (List.replicate 11 .bhAccess ++ [.irq, .bhAccess])) :=
  alreadyHandling_dead 0 (idleCard 0x10 0x11) _ rfl ⟨⟨rfl, rfl⟩, rfl⟩

end Tl880
