import Tl880.InterruptRuns
import Tl880.Hotplug

/-!
# The bottom half's lookup

`tl880_bh` is given a card number.  It looks the number up in `tl880_list` and
returns at once when no card has it.  `HostSys` puts the list beside a card and its
bottom half: other cards are probed and removed while the card is interrupted, and
the bottom half finds what the list then holds.

A bottom half that does not find the card leaves register 4 at zero, as an
invocation of `tl880_irq` for another device does.  `interruptMask_restored_iff`
determines exactly the runs in which the mask is lost in one of the two ways.
-/

namespace Tl880

open LabelledRun

/-- A card with its bottom half, and the cards of the driver. -/
structure HostSys where
  irq : IrqSys
  cards : Hotplug

/-- The events of a run. -/
inductive HostEvent
  /-- an event of the card's interrupt handlers -/
  | handler (e : IrqEvent)
  /-- another card is probed or removed -/
  | hotplug (e : HotplugEvent)

/-- `find_tl880`, called with the number the tasklet of `card` was set up with, returns
`card`. -/
def LookupFinds (card : Tl880Card) (list : List Tl880Card) : Prop :=
  (findTl880 list (card.id.setWidth 64)).map Tl880Card.ptr = some card.ptr

instance (card : Tl880Card) : DecidablePred (LookupFinds card) :=
  fun _ => inferInstanceAs (Decidable (_ = _))

/-- The card `tl880_remove` takes a device for is not `card`, which stays configured. -/
def HotplugEvent.Spares (card : Tl880Card) (list : List Tl880Card) : HotplugEvent → Prop
  | .probe _ _ => True
  | .remove dev => findTl880Pci list dev ≠ .returns (some card)

instance (card : Tl880Card) (list : List Tl880Card) :
    DecidablePred (HotplugEvent.Spares card list)
  | .probe _ _ => isTrue trivial
  | .remove _ => inferInstanceAs (Decidable (_ ≠ _))

/-- The start of `tl880_bh`.  When the lookup finds no card it returns; when it finds
another card with the same number it serves that one.  Either way it leaves this card
alone. -/
def tl880BhStart (debug : Int) (card : Tl880Card) (list : List Tl880Card) (s : IrqSys) :
    Option IrqSys :=
  (irqStep debug s .bhStart).map fun started =>
    if LookupFinds card list then started else { started with pc := .idle }

/-- One event. -/
def hostStep (debug : Int) (card : Tl880Card) (s : HostSys) : HostEvent → Option HostSys
  | .handler .bhStart =>
      (tl880BhStart debug card s.cards.driver.tl880List s.irq).map fun irq =>
        { s with irq := irq }
  | .handler e => (irqStep debug s.irq e).map fun irq => { s with irq := irq }
  | .hotplug e =>
      if e.Spares card s.cards.driver.tl880List then
        (hotplugStep s.cards e).map fun cards => { s with cards := cards }
      else none

/-- What an event needs for the mask to survive it: an invocation of `tl880_irq` finds an
enabled bit or no mask to lose, and a bottom half that starts finds the card. -/
def HostEvent.KeepsMask (card : Tl880Card) (s : HostSys) : HostEvent → Prop
  | .handler .bhStart => LookupFinds card s.cards.driver.tl880List
  | .handler e => e.KeepsMask s.irq
  | .hotplug _ => True

instance (card : Tl880Card) (s : HostSys) : DecidablePred (HostEvent.KeepsMask card s)
  | .handler .bhStart => inferInstanceAs (Decidable (LookupFinds _ _))
  | .handler .irq => inferInstanceAs (Decidable (IrqEvent.KeepsMask s.irq .irq))
  | .handler (.hardware _) | .handler .bhAccess | .hotplug _ => isTrue trivial

/-- Everything an event can do to the card: nothing, what its handlers do when the lookup
succeeds, or start a bottom half that does not find it. -/
theorem hostStep_cases {debug : Int} {card : Tl880Card} {s s' : HostSys} {l : HostEvent}
    (hstep : hostStep debug card s l = some s') :
    ((∃ e, l = .hotplug e) ∧ s'.irq = s.irq) ∨
    (∃ e, l = .handler e ∧ irqStep debug s.irq e = some s'.irq ∧
      (l.KeepsMask card s ↔ e.KeepsMask s.irq)) ∨
    (l = .handler .bhStart ∧ ¬ l.KeepsMask card s ∧ s.irq.dev.tasklet = true ∧
      s'.irq = ⟨{ s.irq.dev with tasklet := false }, .idle⟩) := by
  cases l with
  | hotplug e =>
      left
      simp only [hostStep] at hstep
      split_ifs at hstep with hspares
      obtain ⟨cards, -, rfl⟩ := Option.map_eq_some_iff.mp hstep
      exact ⟨⟨e, rfl⟩, rfl⟩
  | handler e =>
      right
      cases e with
      | bhStart =>
          obtain ⟨irq, hirq, rfl⟩ := Option.map_eq_some_iff.mp hstep
          obtain ⟨started, hstart, rfl⟩ := Option.map_eq_some_iff.mp hirq
          by_cases hfinds : LookupFinds card s.cards.driver.tl880List
          · left
            refine ⟨.bhStart, rfl, ?_, iff_of_true hfinds trivial⟩
            simpa [hfinds] using hstart
          · right
            simp only [irqStep] at hstart
            split_ifs at hstart with hready
            cases hstart
            exact ⟨rfl, hfinds, hready.1, by simp [hfinds]⟩
      | irq | hardware cell | bhAccess =>
          left
          simp only [hostStep] at hstep
          obtain ⟨irq, hirq, rfl⟩ := Option.map_eq_some_iff.mp hstep
          exact ⟨_, rfl, hirq, Iff.rfl⟩

/-- One event that loses nothing keeps the mask held. -/
theorem maskHeld_hostStep {m : U32} {debug : Int} {card : Tl880Card} (s : HostSys)
    (l : HostEvent) (s' : HostSys) (h : MaskHeld m s.irq) (hok : l.KeepsMask card s)
    (hstep : hostStep debug card s l = some s') : MaskHeld m s'.irq := by
  rcases hostStep_cases hstep with ⟨-, hsame⟩ | ⟨e, rfl, hirq, hkeeps⟩ | ⟨-, hbad, -⟩
  · rw [hsame]
    exact h
  · exact maskHeld_step s.irq e s'.irq h (hkeeps.mp hok) hirq
  · exact absurd hok hbad

/-- A bottom half that returns at once brings nothing back. -/
theorem MaskLost.unserved {s : IrqSys} (hmapped : s.dev.regs.mapped = true)
    (hmask : s.mask = 0) : MaskLost ⟨{ s.dev with tasklet := false }, .idle⟩ := by
  refine ⟨hmapped, hmask, ?_, ?_⟩
  · intro hout
    rcases hout with hpending | hserving
    · cases hpending
    · exact hserving.elim
  · intro v hv
    cases hv

/-- Once lost, the mask stays lost. -/
theorem maskLost_hostStep {debug : Int} {card : Tl880Card} (s : HostSys) (l : HostEvent)
    (s' : HostSys) (h : MaskLost s.irq) (hstep : hostStep debug card s l = some s') :
    MaskLost s'.irq := by
  rcases hostStep_cases hstep with ⟨-, hsame⟩ | ⟨e, rfl, hirq, -⟩ | ⟨-, -, -, hresult⟩
  · rw [hsame]
    exact h
  · exact maskLost_step s.irq e s'.irq h hirq
  · rw [hresult]
    exact .unserved h.mapped h.mask

/-- Where the mask is held, an event that may not be taken loses it. -/
theorem maskLost_of_not_keeps_host {m : U32} {debug : Int} {card : Tl880Card}
    (s : HostSys) (l : HostEvent) (s' : HostSys) (h : MaskHeld m s.irq)
    (hbad : ¬ l.KeepsMask card s) (hstep : hostStep debug card s l = some s') :
    MaskLost s'.irq := by
  rcases hostStep_cases hstep with ⟨⟨e, rfl⟩, -⟩ | ⟨e, rfl, hirq, hkeeps⟩ |
    ⟨-, -, hpending, hresult⟩
  · exact absurd trivial hbad
  · exact maskLost_of_not_keeps h (mt hkeeps.mpr hbad) hirq
  · -- The tasklet was scheduled, so the mask was in `int_mask` and register 4 is zero.
    rw [hresult]
    exact .unserved h.mapped (h.saved (Or.inl hpending)).1

/-- When the mask survives.  From an idle card whose register 4 reads back what
is written to it, whatever cards the driver has:

* in a run whose events all keep the mask, every quiet state has it in register
  4, less at most the unknown types;
* of any run that ends in a quiet state this is true exactly when all its events
  kept the mask, or there was no known type in the mask to begin with. -/
theorem interruptMask_restored_iff (debug : Int) (card : Tl880Card) (s : HostSys)
    (events : List HostEvent) (hmapped : s.irq.dev.regs.mapped = true)
    (hidle : s.irq.Idle) :
    (AllSteps (hostStep debug card) (fun s l => l.KeepsMask card s) s events →
      AllStates (hostStep debug card)
        (fun t => t.irq.Quiet → KeepsMask s.irq.mask t.irq.mask) s events) ∧
    ∀ t, run (hostStep debug card) s events = some t → t.irq.Quiet →
      (KeepsMask s.irq.mask t.irq.mask ↔
        AllSteps (hostStep debug card) (fun s l => l.KeepsMask card s) s events ∨
          s.irq.mask &&& ~~~unknownTypes = 0) := by
  have hstart : MaskHeld s.irq.mask s.irq := maskHeld_of_idle hmapped hidle
  refine ⟨fun hall => ?_, fun t hrun hquiet => ?_⟩
  · exact (allStates_of_allSteps maskHeld_hostStep hstart hall).imp fun t ht => ht.quiet
  · rcases run_held_or_lost maskHeld_hostStep maskLost_of_not_keeps_host
      maskLost_hostStep hstart hrun with ⟨hall, ht⟩ | ⟨hbad, ht⟩
    · exact ⟨fun _ => Or.inl hall, fun _ => ht.quiet hquiet⟩
    · constructor
      · intro hkeeps
        rcases hkeeps with hzero | hzero
        · right
          rw [← hzero, ht.mask]
          exact BitVec.zero_and
        · right
          rw [← hzero, ht.mask]
      · intro hwhen
        rcases hwhen with hall | hnone
        · exact absurd hall hbad
        · right
          rw [hnone, ht.mask]

/-- Two cards. -/
def firstCard : Tl880Card := newCard 0x1000 (slotDevice 0x100) 0
def secondCard : Tl880Card := newCard 0x2000 (slotDevice 0x200) 1

/-- The second card idle, beside the first one. -/
def idleBeside (intType intMask : U32) : HostSys where
  irq := idleCard intType intMask
  cards := ⟨⟨[firstCard, secondCard], 2⟩, [firstCard, secondCard]⟩

/-- A VSC interrupt together with an unknown one, and a third card's probe: `tl880_irq`
schedules the bottom half, which finds the card, makes twelve accesses and returns. -/
theorem interruptMask_restored_vsc :
    AllStates (hostStep 0 secondCard)
      (fun t => t.irq.Quiet → KeepsMask (idleBeside 0x30 0x31).irq.mask t.irq.mask)
      (idleBeside 0x30 0x31)
      (.handler .irq :: .hotplug (.probe 0x3000 (slotDevice 0x300)) ::
        .handler .bhStart :: List.replicate 12 (.handler .bhAccess)) :=
  (interruptMask_restored_iff 0 secondCard (idleBeside 0x30 0x31)
    (.handler .irq :: .hotplug (.probe 0x3000 (slotDevice 0x300)) ::
      .handler .bhStart :: List.replicate 12 (.handler .bhAccess)) rfl ⟨⟨rfl, rfl⟩, rfl⟩).1
    (by decide +kernel)

/-- Another device's interrupt on the shared line, when the card is idle: register
4 is left at zero. -/
theorem interruptMask_lost_foreign :
    ¬ AllStates (hostStep 0 secondCard)
      (fun t => t.irq.Quiet → KeepsMask (idleBeside 0 1).irq.mask t.irq.mask)
      (idleBeside 0 1) [.handler .irq] := by
  decide +kernel

/-- The first card's removal clears the list, so the bottom half of the second one finds
no card and register 4 is left at zero, too. -/
example :
    ¬ AllStates (hostStep 0 secondCard)
      (fun t => t.irq.Quiet → KeepsMask (idleBeside 0x30 0x31).irq.mask t.irq.mask)
      (idleBeside 0x30 0x31)
      [.handler .irq, .hotplug (.remove (slotDevice 0x100)), .handler .bhStart] := by
  decide +kernel

end Tl880
