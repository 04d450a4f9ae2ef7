import Tl880.Lib.LabelledRun
import Tl880.Registers

/-!
# Two field updates of one register

`tl880_write_regbits` reads the register, changes the field and writes the register
back, and nothing keeps a second call, in the interrupt handler or on another CPU,
from doing the same in between: `sem`, which `tl880.h` has "for reentry
protection", is never taken.  A run lets two calls on the same register make their
accesses in any order.  `run_finished` lists the six orders in which both calls
finish; in the four where each one reads before the other writes, the update that
is written first is lost.
-/

namespace Tl880

open LabelledRun

/-- The field and the value of a call. -/
structure FieldUpdate where
  highBit : Nat
  lowBit : Nat
  value : U32

/-- The field has bit `i`. -/
def FieldUpdate.Covers (u : FieldUpdate) (i : Nat) : Prop := u.lowBit ≤ i ∧ i ≤ u.highBit

/-- The field is a range of register bits. -/
def FieldUpdate.InRegister (u : FieldUpdate) : Prop := u.lowBit ≤ u.highBit ∧ u.highBit < 32

/-- The two calls. -/
inductive Caller
  | first
  | second
  deriving DecidableEq

def Caller.other : Caller → Caller
  | .first => .second
  | .second => .first

/-- Where a call of `tl880_write_regbits` stands. -/
inductive RegbitsPc
  /-- before its read -/
  | start
  /-- before its write, with what it has read -/
  | loaded (bits : U32)
  | done

/-- The registers and the two calls. -/
structure RegbitsRace where
  regs : RegSpace
  pc : Caller → RegbitsPc

/-- The next access of a caller. -/
def raceStep (reg : U32) (update : Caller → FieldUpdate) (s : RegbitsRace) (c : Caller) :
    Option RegbitsRace :=
  match s.pc c with
  | .start =>
      some { s with pc := Function.update s.pc c (.loaded (tl880ReadRegister s.regs reg)) }
  | .loaded bits =>
      some
        { regs := tl880WriteRegister s.regs reg
            (setBits bits (update c).highBit (update c).lowBit (update c).value)
          pc := Function.update s.pc c .done }
  | .done => none

/-- Neither call has begun. -/
def raceStart (regs : RegSpace) : RegbitsRace := { regs := regs, pc := fun _ => .start }

/-- Both calls have returned. -/
def RegbitsRace.Finished (s : RegbitsRace) : Prop := ∀ c, s.pc c = .done

/-- The register holds both field values and is otherwise unchanged. -/
structure BothKept (update : Caller → FieldUpdate) (old new : U32) : Prop where
  fields : ∀ c i, (update c).Covers i →
    new.getLsbD i = (update c).value.getLsbD (i - (update c).lowBit)
  rest : ∀ i, i < 32 → (∀ c, ¬ (update c).Covers i) → new.getLsbD i = old.getLsbD i

/-- One call makes both of its accesses before the other makes its first. -/
def Serial (events : List Caller) : Prop := ∃ c, events = [c, c, c.other, c.other]

/-- The call writes what its field already holds. -/
def FieldUpdate.Redundant (u : FieldUpdate) (old : U32) : Prop :=
  ∀ i, u.Covers i → old.getLsbD i = u.value.getLsbD (i - u.lowBit)

/-! ## What the accesses do -/

section Runs

variable {reg : U32} {update : Caller → FieldUpdate}

/-- The register after a call that has read `bits`. -/
def FieldUpdate.apply (u : FieldUpdate) (bits : U32) : U32 :=
  setBits bits u.highBit u.lowBit u.value

@[simp] theorem Caller.other_other (c : Caller) : c.other.other = c := by
  cases c <;> rfl

theorem Caller.other_ne (c : Caller) : c.other ≠ c := by
  cases c <;> decide

theorem Caller.eq_or_other (c d : Caller) : d = c ∨ d = c.other := by
  cases c <;> cases d <;> decide

/-- A call reads before it has written, and writes what it has read; the other call
stays where it is. -/
theorem raceStep_cases {s s' : RegbitsRace} {c : Caller}
    (hstep : raceStep reg update s c = some s') :
    s'.pc c.other = s.pc c.other ∧
      ((s.pc c = .start ∧ s'.pc c = .loaded (tl880ReadRegister s.regs reg) ∧
          s'.regs = s.regs) ∨
        ∃ bits, s.pc c = .loaded bits ∧ s'.pc c = .done ∧
          s'.regs = tl880WriteRegister s.regs reg ((update c).apply bits)) := by
  unfold raceStep at hstep
  cases hpc : s.pc c with
  | start =>
      rw [hpc] at hstep
      cases hstep
      constructor
      · exact Function.update_of_ne c.other_ne _ _
      · exact Or.inl ⟨rfl, Function.update_self _ _ _, rfl⟩
  | loaded bits =>
      rw [hpc] at hstep
      cases hstep
      constructor
      · exact Function.update_of_ne c.other_ne _ _
      · exact Or.inr ⟨bits, rfl, Function.update_self _ _ _, rfl⟩
  | done =>
      rw [hpc] at hstep
      cases hstep

/-- A call that is not interrupted is `tl880_write_regbits`. -/
theorem run_alone {s : RegbitsRace} {c : Caller} (hstart : s.pc c = .start) :
    ∃ t, run (raceStep reg update) s [c, c] = some t ∧
      t.regs = tl880WriteRegbits s.regs reg (update c).highBit (update c).lowBit
        (update c).value := by
  have hread : raceStep reg update s c =
      some { s with pc := Function.update s.pc c (.loaded (tl880ReadRegister s.regs reg)) } := by
    unfold raceStep
    rw [hstart]
  have hwrite : ∀ (s' : RegbitsRace) (bits : U32), s'.pc c = .loaded bits →
      ∃ t, raceStep reg update s' c = some t ∧
        t.regs = tl880WriteRegister s'.regs reg ((update c).apply bits) := by
    intro s' bits hloaded
    unfold raceStep
    rw [hloaded]
    exact ⟨_, rfl, rfl⟩
  obtain ⟨t, hstep, hregs⟩ :=
    hwrite { s with pc := Function.update s.pc c (.loaded (tl880ReadRegister s.regs reg)) }
      (tl880ReadRegister s.regs reg) (Function.update_self c _ s.pc)
  refine ⟨t, ?_, hregs⟩
  rw [run_cons, hread, Option.bind_some, run_cons, hstep]
  rfl

/-- A call that has returned makes no further access. -/
theorem raceStep_done {s : RegbitsRace} {c : Caller} (hdone : s.pc c = .done) :
    raceStep reg update s c = none := by
  unfold raceStep
  rw [hdone]

/-- While a call has not returned, a run that finishes goes on. -/
theorem run_goes_on {s t : RegbitsRace} {events : List Caller} {c : Caller}
    (hpc : s.pc c ≠ .done) (hrun : run (raceStep reg update) s events = some t)
    (hfinished : t.Finished) :
    ∃ d rest s', events = d :: rest ∧ raceStep reg update s d = some s' ∧
      run (raceStep reg update) s' rest = some t := by
  cases events with
  | nil =>
      cases hrun
      exact absurd (hfinished c) hpc
  | cons d rest =>
      obtain ⟨s', hstep, hrest⟩ := (run_cons_eq_some_iff _).mp hrun
      exact ⟨d, rest, s', rfl, hstep, hrest⟩

/-- With both calls returned nothing is left. -/
theorem run_done {s t : RegbitsRace} {events : List Caller} {c : Caller}
    (hdone : s.pc c = .done) (hdone' : s.pc c.other = .done)
    (hrun : run (raceStep reg update) s events = some t) : events = [] ∧ t = s := by
  cases events with
  | nil =>
      cases hrun
      exact ⟨rfl, rfl⟩
  | cons d rest =>
      obtain ⟨s', hstep, -⟩ := (run_cons_eq_some_iff _).mp hrun
      rcases c.eq_or_other d with hd | hd
      · rw [hd, raceStep_done hdone] at hstep
        cases hstep
      · rw [hd, raceStep_done hdone'] at hstep
        cases hstep

/-- With one call returned and the other not, the next step is one of the other. -/
theorem run_other_steps {s t : RegbitsRace} {events : List Caller} {c : Caller}
    (hdone : s.pc c = .done) (hpc : s.pc c.other ≠ .done)
    (hrun : run (raceStep reg update) s events = some t) (hfinished : t.Finished) :
    ∃ rest s', events = c.other :: rest ∧ raceStep reg update s c.other = some s' ∧
      run (raceStep reg update) s' rest = some t := by
  obtain ⟨d, rest, s', heq, hstep, hrest⟩ := run_goes_on hpc hrun hfinished
  rcases c.eq_or_other d with hd | hd
  · rw [hd, raceStep_done hdone] at hstep
    cases hstep
  · rw [hd] at heq hstep
    exact ⟨rest, s', heq, hstep, hrest⟩

/-- With one call returned and the other before its write, that write is left. -/
theorem run_loaded {s t : RegbitsRace} {events : List Caller} {c : Caller} {bits : U32}
    (hmapped : s.regs.mapped = true) (hreg : reg < 0x100000#32)
    (hdone : s.pc c = .done) (hloaded : s.pc c.other = .loaded bits)
    (hrun : run (raceStep reg update) s events = some t) (hfinished : t.Finished) :
    events = [c.other] ∧ tl880ReadRegister t.regs reg = (update c.other).apply bits := by
  have hpc : s.pc c.other ≠ .done := by
    rw [hloaded]
    exact RegbitsPc.noConfusion
  obtain ⟨rest, s', heq, hstep, hrest⟩ := run_other_steps hdone hpc hrun hfinished
  obtain ⟨hother, ⟨hstart, -⟩ | ⟨bits', hbits, hdone', hregs⟩⟩ := raceStep_cases hstep
  · rw [hloaded] at hstart
    cases hstart
  rw [hloaded] at hbits
  cases hbits
  rw [Caller.other_other] at hother
  obtain ⟨hnil, ht⟩ := run_done (hother.trans hdone) hdone' hrest
  constructor
  · rw [heq, hnil]
  · rw [ht, hregs]
    exact tl880ReadRegister_write_self hmapped hreg _

/-- With one call returned and the other not begun, its two accesses are left. -/
theorem run_started {s t : RegbitsRace} {events : List Caller} {c : Caller}
    (hmapped : s.regs.mapped = true) (hreg : reg < 0x100000#32)
    (hdone : s.pc c = .done) (hstart : s.pc c.other = .start)
    (hrun : run (raceStep reg update) s events = some t) (hfinished : t.Finished) :
    events = [c.other, c.other] ∧
      tl880ReadRegister t.regs reg =
        (update c.other).apply (tl880ReadRegister s.regs reg) := by
  have hpc : s.pc c.other ≠ .done := by
    rw [hstart]
    exact RegbitsPc.noConfusion
  obtain ⟨rest, s', heq, hstep, hrest⟩ := run_other_steps hdone hpc hrun hfinished
  obtain ⟨hother, ⟨-, hloaded, hregs⟩ | ⟨bits, hbits, -⟩⟩ := raceStep_cases hstep
  · rw [Caller.other_other] at hother
    obtain ⟨hlast, hread⟩ := run_loaded (by rw [hregs]; exact hmapped) hreg
      (hother.trans hdone) hloaded hrest hfinished
    constructor
    · rw [heq, hlast]
    · exact hread
  · rw [hstart] at hbits
    cases hbits

/-- With both calls before their writes, the call that writes last decides. -/
theorem run_both_loaded {s t : RegbitsRace} {events : List Caller} {c : Caller}
    {bits bits' : U32} (hmapped : s.regs.mapped = true) (hreg : reg < 0x100000#32)
    (hloaded : s.pc c = .loaded bits) (hloaded' : s.pc c.other = .loaded bits')
    (hrun : run (raceStep reg update) s events = some t) (hfinished : t.Finished) :
    (events = [c, c.other] ∧ tl880ReadRegister t.regs reg = (update c.other).apply bits') ∨
      (events = [c.other, c] ∧ tl880ReadRegister t.regs reg = (update c).apply bits) := by
  have hpc : s.pc c ≠ .done := by
    rw [hloaded]
    exact RegbitsPc.noConfusion
  obtain ⟨d, rest, s', heq, hstep, hrest⟩ := run_goes_on hpc hrun hfinished
  rcases c.eq_or_other d with hd | hd
  · rw [hd] at hstep
    obtain ⟨hother, ⟨hstart, -⟩ | ⟨_, -, hdone, hregs⟩⟩ := raceStep_cases hstep
    · rw [hloaded] at hstart
      cases hstart
    obtain ⟨hlast, hread⟩ := run_loaded (by rw [hregs, tl880WriteRegister_mapped]; exact hmapped)
      hreg hdone (hother.trans hloaded') hrest hfinished
    left
    constructor
    · rw [heq, hd, hlast]
    · exact hread
  · rw [hd] at hstep
    obtain ⟨hother, ⟨hstart, -⟩ | ⟨_, -, hdone, hregs⟩⟩ := raceStep_cases hstep
    · rw [hloaded'] at hstart
      cases hstart
    obtain ⟨hlast, hread⟩ := run_loaded (by rw [hregs, tl880WriteRegister_mapped]; exact hmapped)
      hreg hdone (hother.trans (by rw [Caller.other_other]; exact hloaded)) hrest hfinished
    rw [Caller.other_other] at hlast hread
    right
    constructor
    · rw [heq, hd, hlast]
    · exact hread

/-- The six orders in which both calls finish, and what the register holds. -/
theorem run_finished {regs : RegSpace} {t : RegbitsRace} {events : List Caller}
    (hmapped : regs.mapped = true) (hreg : reg < 0x100000#32)
    (hrun : run (raceStep reg update) (raceStart regs) events = some t)
    (hfinished : t.Finished) :
    ∃ c, (events = [c, c, c.other, c.other] ∧
        tl880ReadRegister t.regs reg =
          (update c.other).apply ((update c).apply (tl880ReadRegister regs reg))) ∨
      ((events = [c, c.other, c, c.other] ∨ events = [c.other, c, c, c.other]) ∧
        tl880ReadRegister t.regs reg = (update c.other).apply (tl880ReadRegister regs reg)) := by
  obtain ⟨c, rest, s, heq, hstep, hrest⟩ :=
    run_goes_on (c := Caller.first) RegbitsPc.noConfusion hrun hfinished
  obtain ⟨hother, ⟨-, hloaded, hregs⟩ | ⟨_, hbits, -⟩⟩ := raceStep_cases hstep
  swap
  · cases hbits
  change s.pc c.other = .start at hother
  change s.pc c = .loaded (tl880ReadRegister regs reg) at hloaded
  change s.regs = regs at hregs
  have hpc : s.pc c ≠ .done := by
    rw [hloaded]
    exact RegbitsPc.noConfusion
  obtain ⟨d, rest', s', heq', hstep', hrest'⟩ := run_goes_on hpc hrest hfinished
  rcases c.eq_or_other d with hd | hd
  · -- the first caller writes before the other one reads
    rw [hd] at hstep'
    obtain ⟨hother', ⟨hstart, -⟩ | ⟨bits, hbits, hdone, hregs'⟩⟩ := raceStep_cases hstep'
    · rw [hloaded] at hstart
      cases hstart
    rw [hloaded] at hbits
    cases hbits
    rw [hregs] at hregs'
    obtain ⟨hlast, hread⟩ := run_started (by rw [hregs', tl880WriteRegister_mapped]; exact hmapped)
      hreg hdone (hother'.trans hother) hrest' hfinished
    refine ⟨c, Or.inl ⟨?_, ?_⟩⟩
    · rw [heq, heq', hd, hlast]
    · rw [hread, hregs', tl880ReadRegister_write_self hmapped hreg]
  · -- both read the old contents
    rw [hd] at hstep'
    obtain ⟨hother', ⟨-, hloaded', hregs'⟩ | ⟨_, hbits, -⟩⟩ := raceStep_cases hstep'
    swap
    · rw [hother] at hbits
      cases hbits
    rw [hregs] at hregs' hloaded'
    rw [Caller.other_other] at hother'
    rcases run_both_loaded (by rw [hregs']; exact hmapped) hreg (hother'.trans hloaded) hloaded'
      hrest' hfinished with ⟨hlast, hread⟩ | ⟨hlast, hread⟩
    · refine ⟨c, Or.inr ⟨Or.inl ?_, hread⟩⟩
      rw [heq, heq', hd, hlast]
    · refine ⟨c.other, Or.inr ⟨Or.inr ?_, ?_⟩⟩
      · rw [heq, heq', hd, hlast, Caller.other_other]
      · rw [Caller.other_other]
        exact hread

end Runs

/-! ## What the register holds -/

section Contents

variable {update : Caller → FieldUpdate} (hin : ∀ c, (update c).InRegister)
  (hdisjoint : ∀ i, ¬ ((update .first).Covers i ∧ (update .second).Covers i))
include hin hdisjoint

omit hin in
theorem not_covers_other {c : Caller} {i : Nat} (hc : (update c).Covers i) :
    ¬ (update c.other).Covers i := by
  intro hother
  cases c with
  | first => exact hdisjoint i ⟨hc, hother⟩
  | second => exact hdisjoint i ⟨hother, hc⟩

/-- A field that leaves room for another one is not the whole register, so
`set_bits` writes it. -/
theorem apply_getLsbD (c : Caller) (old : U32) (i : Nat) :
    ((update c).apply old).getLsbD i =
      if (update c).lowBit ≤ i ∧ i ≤ (update c).highBit then
        (update c).value.getLsbD (i - (update c).lowBit)
      else old.getLsbD i := by
  obtain ⟨hle, hhigh⟩ := hin c
  obtain ⟨hle', hhigh'⟩ := hin c.other
  have hwidth : (update c).highBit - (update c).lowBit < 31 := by
    by_contra hwhole
    apply not_covers_other hdisjoint (c := c) (i := (update c.other).lowBit)
    · constructor <;> omega
    · exact ⟨Nat.le_refl _, hle'⟩
  exact getLsbD_setBits hle hhigh hwidth old _ i

/-- A bit of the call's field gets its value. -/
theorem apply_covered {c : Caller} {i : Nat} (hc : (update c).Covers i) (old : U32) :
    ((update c).apply old).getLsbD i =
      (update c).value.getLsbD (i - (update c).lowBit) := by
  rw [apply_getLsbD hin hdisjoint]
  exact if_pos hc

/-- Every other bit stays. -/
theorem apply_uncovered {c : Caller} {i : Nat} (hc : ¬ (update c).Covers i) (old : U32) :
    ((update c).apply old).getLsbD i = old.getLsbD i := by
  rw [apply_getLsbD hin hdisjoint]
  exact if_neg hc

/-- After the last call the other one's field is as that call found it. -/
theorem bothKept_apply_iff (c : Caller) {old base : U32}
    (hbase : ∀ i, ¬ (update c).Covers i → base.getLsbD i = old.getLsbD i) :
    BothKept update old ((update c.other).apply base) ↔ (update c).Redundant base := by
  constructor
  · intro hkept i hi
    rw [← hkept.fields c i hi]
    exact (apply_uncovered hin hdisjoint (not_covers_other hdisjoint hi) base).symm
  · intro hredundant
    constructor
    · intro d i hd
      rcases c.eq_or_other d with heq | heq
      · rw [heq] at hd ⊢
        rw [apply_uncovered hin hdisjoint (not_covers_other hdisjoint hd)]
        exact hredundant i hd
      · rw [heq] at hd ⊢
        exact apply_covered hin hdisjoint hd base
    · intro i _ hnone
      rw [apply_uncovered hin hdisjoint (hnone c.other)]
      exact hbase i (hnone c)

/-- One call after the other keeps both fields. -/
theorem bothKept_serial (c : Caller) (old : U32) :
    BothKept update old ((update c.other).apply ((update c).apply old)) := by
  have hbase : ∀ i, ¬ (update c).Covers i →
      ((update c).apply old).getLsbD i = old.getLsbD i :=
    fun i hi => apply_uncovered hin hdisjoint hi old
  apply (bothKept_apply_iff hin hdisjoint c hbase).mpr
  intro i hi
  exact apply_covered hin hdisjoint hi old

/-- When only the later write survives, both fields are there exactly when the lost
one was there before. -/
theorem bothKept_lost_iff (c : Caller) (old : U32) :
    BothKept update old ((update c.other).apply old) ↔ (update c).Redundant old :=
  bothKept_apply_iff hin hdisjoint c fun _ _ => rfl

/-- Two concurrent field updates both survive exactly when one call is over before
the other begins, or the call that does not write last writes what its field
already holds. -/
theorem regbits_bothKept_iff (regs : RegSpace) (reg : U32) (hmapped : regs.mapped = true)
    (hreg : reg < 0x100000#32) (events : List Caller) (t : RegbitsRace)
    (hrun : run (raceStep reg update) (raceStart regs) events = some t)
    (hfinished : t.Finished) :
    BothKept update (tl880ReadRegister regs reg) (tl880ReadRegister t.regs reg) ↔
      Serial events ∨ ∃ c, events.getLast? = some c.other ∧
        (update c).Redundant (tl880ReadRegister regs reg) := by
  obtain ⟨c, ⟨hevents, hread⟩ | ⟨hevents, hread⟩⟩ :=
    run_finished hmapped hreg hrun hfinished
  · rw [hread]
    apply iff_of_true
    · exact bothKept_serial hin hdisjoint c _
    · exact Or.inl ⟨c, hevents⟩
  have hserial : ¬ Serial events := by
    intro hserial
    obtain ⟨d, hd⟩ := hserial
    rcases hevents with heq | heq
    · rw [heq] at hd
      cases c <;> cases d <;> simp [Caller.other] at hd
    · rw [heq] at hd
      cases c <;> cases d <;> simp [Caller.other] at hd
  have hlast : events.getLast? = some c.other := by
    rcases hevents with heq | heq
    · rw [heq]
      rfl
    · rw [heq]
      rfl
  rw [hread, bothKept_lost_iff hin hdisjoint]
  constructor
  · intro hredundant
    exact Or.inr ⟨c, hlast, hredundant⟩
  · intro hwhen
    rcases hwhen with hs | ⟨d, hd, hredundant⟩
    · exact absurd hs hserial
    · rw [hlast, Option.some.injEq] at hd
      have heq : c = d := by
        rw [← c.other_other, hd, Caller.other_other]
      rw [heq]
      exact hredundant

end Contents

/-! ## An I2C clock line and a GPIO line -/

/-- The I2C clock of bus 1 and GPIO line 3 of an MDP-110, both in the output
register, both being set. -/
def clockAndLine : Caller → FieldUpdate
  | .first => { highBit := 0x12, lowBit := 0x12, value := 1 }
  | .second => { highBit := 0xb, lowBit := 0xb, value := 1 }

theorem clockAndLine_inRegister (c : Caller) : (clockAndLine c).InRegister := by
  cases c
  · exact ⟨by decide, by decide⟩
  · exact ⟨by decide, by decide⟩

theorem clockAndLine_disjoint (i : Nat) :
    ¬ ((clockAndLine .first).Covers i ∧ (clockAndLine .second).Covers i) := by
  intro hboth
  obtain ⟨⟨hlow, -⟩, ⟨-, hhigh⟩⟩ := hboth
  change 0x12 ≤ i at hlow
  change i ≤ 0xb at hhigh
  omega

/-- Registers that are all zero. -/
def zeroRegs : RegSpace := { mapped := true, cell := fun _ => 0 }

/-- One after the other, both lines end up set. -/
theorem regbits_bothKept_serial :
    ∃ t, run (raceStep 0x10198#32 clockAndLine) (raceStart zeroRegs)
        [.first, .first, .second, .second] = some t ∧ t.Finished ∧
      BothKept clockAndLine (tl880ReadRegister zeroRegs 0x10198#32)
        (tl880ReadRegister t.regs 0x10198#32) := by
  have hfinished : ∀ t, run (raceStep 0x10198#32 clockAndLine) (raceStart zeroRegs)
      [.first, .first, .second, .second] = some t → t.Finished := by
    intro t hrun c
    cases hrun
    cases c <;> rfl
  refine ⟨_, rfl, hfinished _ rfl, ?_⟩
  exact (regbits_bothKept_iff clockAndLine_inRegister clockAndLine_disjoint zeroRegs
    0x10198#32 rfl (by decide) [.first, .first, .second, .second] _ rfl
    (hfinished _ rfl)).mpr (Or.inl ⟨.first, rfl⟩)

/-- When both calls read before they write, the clock line stays low. -/
theorem regbits_clock_lost :
    ∃ t, run (raceStep 0x10198#32 clockAndLine) (raceStart zeroRegs)
        [.first, .second, .first, .second] = some t ∧ t.Finished ∧
      ¬ BothKept clockAndLine (tl880ReadRegister zeroRegs 0x10198#32)
        (tl880ReadRegister t.regs 0x10198#32) := by
  refine ⟨_, rfl, ?_, ?_⟩
  · intro c
    cases c <;> rfl
  · intro hkept
    have hclock := hkept.fields .first 0x12 ⟨by decide, by decide⟩
    revert hclock
    decide

end Tl880
