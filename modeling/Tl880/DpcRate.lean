import Tl880.Interrupt
import Mathlib.Algebra.Group.Nat.Defs
import Mathlib.Data.List.Induction
import Mathlib.Data.Nat.ModEq

/-!
# The rate of the DPC interrupts

`tl880_dpc_int` of `driver/tl880dpc.c` prints how many interrupts there are in a second, when
the card's count is a multiple of 1200, or of 60 while debugging.  It divides by the time
since `first_jiffies`, which is one static variable for all cards, set from the first
interrupt that finds it 0.

The clock is a natural number that never goes back; `jiffies` is that number modulo the width
of an `unsigned long`.
-/

namespace Tl880

variable {w : Nat}

/-! ## The driver -/

/-- `first_jiffies`, the `dpc_count` of every card, and the divisions that were evaluated,
the last one first, a dividend and a divisor each. -/
structure DpcRate (w : Nat) where
  firstJiffies : BitVec w
  dpcCount : Nat → U32
  divisions : List (BitVec w × BitVec w)

/-- A DPC interrupt: its card, the debug level, the time when `first_jiffies` is looked at
and the time when the rate is printed. -/
structure DpcIrq where
  card : Nat
  debug : Int
  entry : Nat
  report : Nat

/-- `jiffies` at a time -/
def jiffies (w time : Nat) : BitVec w := BitVec.ofNat w time

/-- The rate is printed. -/
def dpcReports (debug : Int) (dpcCount : U32) : Prop :=
  (debug > 0 ∧ dpcCount % 60 = 0) ∨ dpcCount % 1200 = 0

instance (debug : Int) (dpcCount : U32) : Decidable (dpcReports debug dpcCount) :=
  inferInstanceAs (Decidable (_ ∨ _))

/-- The DPC part of `tl880_irq` with `tl880_dpc_int`, as far as the rate goes. -/
def tl880IrqDpcRate (hz : U32) (s : DpcRate w) (irq : DpcIrq) : DpcRate w :=
  let dpcCount := s.dpcCount irq.card + 1
  let firstJiffies := if s.firstJiffies = 0#w then jiffies w irq.entry else s.firstJiffies
  { firstJiffies := firstJiffies
    dpcCount := Function.update s.dpcCount irq.card dpcCount
    divisions :=
      if dpcReports irq.debug dpcCount then
        ((dpcCount * hz).setWidth w, jiffies w irq.report - firstJiffies) :: s.divisions
      else s.divisions }

/-- The driver is loaded, and the cards have counted so far. -/
def DpcRate.init (dpcCount : Nat → U32) : DpcRate w := ⟨0#w, dpcCount, []⟩

/-- The count is that of the card in the model of the whole handler. -/
theorem irqDpc_count (d : IntDev) :
    (irqDpc d).counts.dpc =
      if d.intType &&& 0x8 = 0 then d.counts.dpc else d.counts.dpc + 1 := by
  unfold irqDpc irqPart
  split_ifs <;> rfl

/-! ## What the interrupts determine -/

/-- The count of a card after some interrupts. -/
def countAfter (dpcCount : Nat → U32) (irqs : List DpcIrq) (card : Nat) : U32 :=
  dpcCount card + BitVec.ofNat 32 (irqs.countP fun irq => irq.card == card)

/-- The time of the first interrupt that finds `jiffies` other than 0, and 0 before there
is one. -/
def startTime (w : Nat) (irqs : List DpcIrq) : Nat :=
  ((irqs.map DpcIrq.entry).find? fun time => jiffies w time ≠ 0#w).getD 0

/-- The clock does not go back. -/
def ClockForward (irqs : List DpcIrq) : Prop :=
  (irqs.flatMap fun irq => [irq.entry, irq.report]).Pairwise (· ≤ ·)

/-- Whenever the rate is printed, the time since the start is not a multiple of the time in
which `jiffies` wraps; so it is not 0 either. -/
def TimeHasPassed (w : Nat) (dpcCount : Nat → U32) (irqs : List DpcIrq) : Prop :=
  ∀ before irq after, irqs = before ++ irq :: after →
    dpcReports irq.debug (countAfter dpcCount (before ++ [irq]) irq.card) →
      ¬ 2 ^ w ∣ irq.report - startTime w (before ++ [irq])

/-- No division is by zero. -/
def DpcRate.DividesProperly (s : DpcRate w) : Prop := ∀ d ∈ s.divisions, d.2 ≠ 0#w

/-! ## Runs -/

theorem countAfter_snoc (dpcCount : Nat → U32) (irqs : List DpcIrq) (irq : DpcIrq) (card : Nat) :
    countAfter dpcCount (irqs ++ [irq]) card =
      if irq.card = card then countAfter dpcCount irqs card + 1
      else countAfter dpcCount irqs card := by
  unfold countAfter
  rw [List.countP_append]
  by_cases hcard : irq.card = card
  · simp [hcard, BitVec.ofNat_add, BitVec.add_assoc]
  · simp [hcard]

/-- The start is decided by the first interrupts, and the next one only counts where these
have all found 0. -/
theorem jiffies_startTime_snoc (w : Nat) (irqs : List DpcIrq) (irq : DpcIrq) :
    jiffies w (startTime w (irqs ++ [irq])) =
      if jiffies w (startTime w irqs) = 0#w then jiffies w irq.entry
      else jiffies w (startTime w irqs) := by
  unfold startTime
  rw [List.map_append, List.find?_append]
  cases hfind : (irqs.map DpcIrq.entry).find? fun time => jiffies w time ≠ 0#w with
  | none =>
      have hzero : jiffies w 0 = 0#w := rfl
      by_cases hirq : jiffies w irq.entry = 0#w <;> simp [hirq, hzero]
  | some time =>
      have htime : ¬ jiffies w time = 0#w := by simpa using List.find?_some hfind
      simp only [Option.some_or, Option.getD_some, if_neg htime]

/-- After a run `first_jiffies` is the clock at the start, and every card has its count. -/
theorem dpcRun_state (hz : U32) (dpcCount : Nat → U32) (irqs : List DpcIrq) :
    (irqs.foldl (tl880IrqDpcRate hz) (DpcRate.init dpcCount : DpcRate w)).firstJiffies =
        jiffies w (startTime w irqs) ∧
      (irqs.foldl (tl880IrqDpcRate hz) (DpcRate.init dpcCount : DpcRate w)).dpcCount =
        countAfter dpcCount irqs := by
  induction irqs using List.reverseRecOn with
  | nil =>
      refine ⟨rfl, ?_⟩
      funext card
      exact (BitVec.add_zero _).symm
  | append_singleton irqs irq ih =>
      obtain ⟨hfirst, hcount⟩ := ih
      rw [List.foldl_append, List.foldl_cons, List.foldl_nil]
      constructor
      · rw [jiffies_startTime_snoc, ← hfirst]
        rfl
      · funext card
        show Function.update _ irq.card _ card = _
        rw [hcount, countAfter_snoc]
        by_cases hcard : irq.card = card
        · rw [if_pos hcard, ← hcard, Function.update_self]
        · rw [if_neg hcard, Function.update_of_ne (Ne.symm hcard)]

/-- The divisor at one interrupt of a run. -/
def divisorAt (w : Nat) (before : List DpcIrq) (irq : DpcIrq) : BitVec w :=
  jiffies w irq.report - jiffies w (startTime w (before ++ [irq]))

/-- One interrupt adds at most one division. -/
theorem tl880IrqDpcRate_divides_iff (hz : U32) (s : DpcRate w) (irq : DpcIrq) :
    (tl880IrqDpcRate hz s irq).DividesProperly ↔
      s.DividesProperly ∧ (dpcReports irq.debug (s.dpcCount irq.card + 1) →
        (jiffies w irq.report -
          if s.firstJiffies = 0#w then jiffies w irq.entry else s.firstJiffies) ≠ 0#w) := by
  unfold DpcRate.DividesProperly
  by_cases hreports : dpcReports irq.debug (s.dpcCount irq.card + 1)
  · have hdivisions : (tl880IrqDpcRate hz s irq).divisions =
        (((s.dpcCount irq.card + 1) * hz).setWidth w, jiffies w irq.report -
          if s.firstJiffies = 0#w then jiffies w irq.entry else s.firstJiffies) :: s.divisions :=
      if_pos hreports
    rw [hdivisions, List.forall_mem_cons]
    constructor
    · rintro ⟨hnew, hbefore⟩
      exact ⟨hbefore, fun _ => hnew⟩
    · rintro ⟨hbefore, hnew⟩
      exact ⟨hnew hreports, hbefore⟩
  · have hdivisions : (tl880IrqDpcRate hz s irq).divisions = s.divisions := if_neg hreports
    rw [hdivisions]
    constructor
    · intro hbefore
      exact ⟨hbefore, fun hdue => absurd hdue hreports⟩
    · intro hboth
      exact hboth.1

/-- What holds at every place of a list with one more element. -/
theorem forall_split_snoc {α : Type} (P : List α → α → Prop) (l : List α) (last : α) :
    (∀ before x after, l ++ [last] = before ++ x :: after → P before x) ↔
      (∀ before x after, l = before ++ x :: after → P before x) ∧ P l last := by
  constructor
  · intro hall
    refine ⟨?_, hall l last [] rfl⟩
    intro before x after hsplit
    exact hall before x (after ++ [last]) (by rw [hsplit, List.append_assoc, List.cons_append])
  · rintro ⟨hall, hlast⟩ before x after hsplit
    rcases List.eq_nil_or_concat after with rfl | ⟨after, y, rfl⟩
    · obtain ⟨rfl, hx⟩ := List.append_inj' hsplit rfl
      cases hx
      exact hlast
    · rw [List.concat_eq_append, ← List.cons_append, ← List.append_assoc] at hsplit
      exact hall before x after (List.append_inj' hsplit rfl).1

/-- The divisions of a run are those of the interrupts that print the rate. -/
theorem dpcRun_divides_iff (hz : U32) (dpcCount : Nat → U32) (irqs : List DpcIrq) :
    (irqs.foldl (tl880IrqDpcRate hz) (DpcRate.init dpcCount : DpcRate w)).DividesProperly ↔
      ∀ before irq after, irqs = before ++ irq :: after →
        dpcReports irq.debug (countAfter dpcCount (before ++ [irq]) irq.card) →
          divisorAt w before irq ≠ 0#w := by
  induction irqs using List.reverseRecOn with
  | nil =>
      constructor
      · intro _ before irq after hsplit
        simp at hsplit
      · intro _ d hd
        cases hd
  | append_singleton irqs last ih =>
      obtain ⟨hfirst, hcount⟩ := dpcRun_state (w := w) hz dpcCount irqs
      have hcard : countAfter dpcCount (irqs ++ [last]) last.card =
          countAfter dpcCount irqs last.card + 1 := by
        rw [countAfter_snoc, if_pos rfl]
      rw [forall_split_snoc, ← ih, hcard, divisorAt, jiffies_startTime_snoc, List.foldl_append,
        List.foldl_cons, List.foldl_nil, tl880IrqDpcRate_divides_iff, hfirst, hcount]

/-! ## Time -/

/-- Two times show the same `jiffies` exactly when they are a number of wraps apart. -/
theorem jiffies_sub_eq_zero_iff {earlier later : Nat} (hle : earlier ≤ later) :
    jiffies w later - jiffies w earlier = 0#w ↔ 2 ^ w ∣ later - earlier := by
  have hsame : jiffies w later - jiffies w earlier = 0#w ↔
      jiffies w later = jiffies w earlier := by
    rw [BitVec.sub_eq_iff_eq_add, BitVec.zero_add]
  have hmod : jiffies w later = jiffies w earlier ↔ later % 2 ^ w = earlier % 2 ^ w := by
    rw [← BitVec.toNat_inj, jiffies, jiffies, BitVec.toNat_ofNat, BitVec.toNat_ofNat]
  rw [hsame, hmod]
  constructor
  · intro h
    exact (Nat.modEq_iff_dvd' hle).mp h.symm
  · intro h
    exact ((Nat.modEq_iff_dvd' hle).mpr h).symm

/-- The start is not after a report of the same or of a later interrupt. -/
theorem startTime_le {before : List DpcIrq} {irq : DpcIrq} {after : List DpcIrq}
    (hclock : ClockForward (before ++ irq :: after)) :
    startTime w (before ++ [irq]) ≤ irq.report := by
  unfold ClockForward at hclock
  rw [List.flatMap_append, List.flatMap_cons, List.pairwise_append] at hclock
  obtain ⟨-, hrest, hbefore⟩ := hclock
  have hreport : irq.report ∈ [irq.entry, irq.report] ++ _ :=
    List.mem_append_left (after.flatMap fun irq => [irq.entry, irq.report]) (by simp)
  have hle : ∀ time ∈ (before ++ [irq]).map DpcIrq.entry, time ≤ irq.report := by
    intro time htime
    obtain ⟨earlier, hearlier, rfl⟩ := List.mem_map.mp htime
    rcases List.mem_append.mp hearlier with hearlier | hearlier
    · apply hbefore _ _ _ hreport
      exact List.mem_flatMap.mpr ⟨earlier, hearlier, by simp⟩
    · rw [List.mem_singleton.mp hearlier]
      exact (List.pairwise_cons.mp hrest).1 _ (by simp)
  unfold startTime
  cases hfind : ((before ++ [irq]).map DpcIrq.entry).find? fun time => jiffies w time ≠ 0#w with
  | none => exact Nat.zero_le _
  | some time => exact hle time (List.mem_of_find?_eq_some hfind)

/-- Over any number of cards and interrupts the handler never divides by zero exactly when
time has passed whenever the rate is printed. -/
theorem dpcRun_divides_iff_time (hz : U32) (dpcCount : Nat → U32) {irqs : List DpcIrq}
    (hclock : ClockForward irqs) :
    (irqs.foldl (tl880IrqDpcRate hz) (DpcRate.init dpcCount : DpcRate w)).DividesProperly ↔
      TimeHasPassed w dpcCount irqs := by
  rw [dpcRun_divides_iff]
  unfold TimeHasPassed
  constructor
  · intro hall before irq after hsplit hreports
    rw [← jiffies_sub_eq_zero_iff (startTime_le (hsplit ▸ hclock))]
    exact hall before irq after hsplit hreports
  · intro hall before irq after hsplit hreports
    have htime := hall before irq after hsplit hreports
    rwa [← jiffies_sub_eq_zero_iff (startTime_le (hsplit ▸ hclock))] at htime

/-- Two cards, of each of which the sixtieth interrupt comes; both times the rate is printed. -/
theorem dpcRun_divides_iff_time_two :
    let s : DpcRate 64 := [⟨0, 1, 5, 6⟩, ⟨1, 1, 7, 8⟩].foldl (tl880IrqDpcRate 250)
      (DpcRate.init fun _ => 59)
    s.divisions = [(15000, 3), (15000, 1)] ∧ s.DividesProperly := by
  refine ⟨by decide, ?_⟩
  apply (dpcRun_divides_iff_time 250 (fun _ => 59) (by simp [ClockForward])).mpr
  intro before irq after hsplit _
  match before with
  | [] =>
      cases hsplit
      decide
  | [_] =>
      cases hsplit
      decide
  | _ :: _ :: _ => simp at hsplit

/-- Sixty interrupts within one tick, while debugging. -/
def sixtyIrqs : List DpcIrq := List.replicate 60 ⟨0, 1, 1000, 1000⟩

theorem sixtyIrqs_clock : ClockForward sixtyIrqs := by
  have hsame : ∀ n, (List.replicate n (⟨0, 1, 1000, 1000⟩ : DpcIrq)).flatMap
      (fun irq => [irq.entry, irq.report]) = List.replicate (2 * n) 1000 := by
    intro n
    induction n with
    | zero => rfl
    | succ n ih =>
        rw [List.replicate_succ, List.flatMap_cons, ih]
        rfl
  rw [ClockForward, sixtyIrqs, hsame]
  exact List.pairwise_replicate.mpr (Or.inr (Nat.le_refl 1000))

/-- The sixtieth of them divides by zero. -/
theorem dpcRun_divides_by_zero :
    ¬ ∀ (hz : U32) (irqs : List DpcIrq), ClockForward irqs →
      (irqs.foldl (tl880IrqDpcRate hz)
        (DpcRate.init (fun _ => 0) : DpcRate 64)).DividesProperly := by
  intro hall
  have hproper := (dpcRun_divides_iff 250 (fun _ => 0) sixtyIrqs).mp (hall 250 _ sixtyIrqs_clock)
  apply hproper (List.replicate 59 ⟨0, 1, 1000, 1000⟩) ⟨0, 1, 1000, 1000⟩ [] rfl
  · decide
  · decide

end Tl880
