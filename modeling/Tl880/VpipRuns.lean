import Tl880.Interrupt
import Tl880.Lib.LabelledRun

/-!
# The counters of the video port

`tl880_vpip_handler` of `driver/tl880int.c` counts rows and fields in static variables, which all
cards share.  A run is any order of VPIP interrupts on any of the cards, with the registers
changing in any way in between.

What a handled interrupt does depends on its number among those of all cards (`vpipKind`): 16
rows, one field, and from then on 15 rows and one interrupt that does nothing, for ever.
-/

namespace Tl880

open LabelledRun

/-- What a handled interrupt does. -/
inductive VpipKind
  | row
  | field
  | idle
  deriving DecidableEq

/-- What the handled interrupt with a number does, the first one being number 0. -/
def vpipKind (n : Nat) : VpipKind :=
  if n = 16 then .field
  else if 0 < n ∧ n % 16 = 0 then .idle
  else .row

/-- The cards, the static variables, and how many interrupts were handled. -/
structure VpipSystem where
  cards : Nat → IntDev
  rowCnt : U32
  fieldCnt : U32
  handled : Nat

/-- A card as the handler sees it. -/
def VpipSystem.card (s : VpipSystem) (card : Nat) : IntDev :=
  { s.cards card with rowCnt := s.rowCnt, fieldCnt := s.fieldCnt }

/-- `tl880_vpip_int` calls the handler. -/
def VpipPending (d : IntDev) : Prop := d.read 0x7008 &&& d.read 0x7004 &&& 1 ≠ 0

instance : DecidablePred VpipPending := fun d =>
  inferInstanceAs (Decidable (d.read 0x7008 &&& d.read 0x7004 &&& 1 ≠ 0))

/-- An interrupt on a card, or a change of its registers. -/
inductive VpipEvent
  | interrupt (card : Nat)
  | change (card : Nat) (cell : U32 → U32)

def vpipStep (s : VpipSystem) : VpipEvent → Option VpipSystem
  | .interrupt card =>
      let d := (tl880VpipInt (s.card card)).1
      some
        { cards := Function.update s.cards card d
          rowCnt := d.rowCnt
          fieldCnt := d.fieldCnt
          handled := if VpipPending (s.card card) then s.handled + 1 else s.handled }
  | .change card cell =>
      let d := s.cards card
      some { s with
        cards := Function.update s.cards card { d with regs := { d.regs with cell := cell } } }

/-- The module has been loaded: no interrupt was handled. -/
def VpipSystem.loaded (cards : Nat → IntDev) : VpipSystem :=
  { cards := cards, rowCnt := 0, fieldCnt := 0, handled := 0 }

/-- What a handled interrupt of a kind does to the registers of its card. -/
structure VpipEffect (kind : VpipKind) (r r' : RegSpace) : Prop where
  idle : kind = .idle → r' = r
  row : kind ≠ .idle → tl880ReadRegbits r' 0x7000 0x15 0x10 = 0x3d ∧
    tl880ReadRegister r' 0x701c = 0x92
  field : (tl880ReadRegister r' 0x7000).getLsbD 22 =
    ((tl880ReadRegister r 0x7000).getLsbD 22 ^^ decide (kind = .field))
  others : ∀ i, (i < 0x10 ∨ 0x16 < i) →
    (tl880ReadRegister r' 0x7000).getLsbD i = (tl880ReadRegister r 0x7000).getLsbD i
  command : tl880ReadRegister r' 0x702c =
    if kind = .field then 0 else tl880ReadRegister r 0x702c
  frame : ∀ reg, reg ≠ 0x7000 → reg ≠ 0x701c → reg ≠ 0x702c →
    tl880ReadRegister r' reg = tl880ReadRegister r reg

/-- An interrupt does to its own card what its number says, and nothing to the others. -/
def VpipOk (s : VpipSystem) : VpipEvent → Prop
  | .interrupt card =>
      ((s.card card).regs.mapped = true → VpipPending (s.card card) →
        VpipEffect (vpipKind s.handled) (s.card card).regs (tl880VpipInt (s.card card)).1.regs) ∧
      (¬ VpipPending (s.card card) →
        (tl880VpipInt (s.card card)).1.regs = (s.card card).regs)
  | .change _ _ => True

/-! ## The counters -/

/-- The counters after a number of handled interrupts. -/
def CountersAt (n : Nat) (rowCnt fieldCnt : U32) : Prop :=
  if n ≤ 16 then rowCnt.toNat = n ∧ fieldCnt = 0
  else rowCnt.toNat = (n - 17) % 16 + 1 ∧ fieldCnt = 1

/-- The branch of the handler that handles a row. -/
def vpipRow (d : IntDev) : IntDev :=
  { (d.writeRegbits 0x7000 0x15 0x10 0x3d).write 0x701c 0x92 with rowCnt := d.rowCnt + 1 }

/-- The registers after the branch that begins the field. -/
def vpipField (d : IntDev) : IntDev :=
  let toggled := if tl880ReadRegbits d.regs 0x7000 0x16 0x16 ≠ 0 then 0 else 1
  let d := d.writeRegbits 0x7000 0x16 0x16 toggled
  let d := d.write 0x702c (setBits 0 0x16 0xc 0 ||| 0x80000000)
  let d := d.write 0x702c (setBits 0 0x16 0xc 0)
  (d.writeRegbits 0x7000 0x15 0x10 0x3d).write 0x701c 0x92

variable {n : Nat} {d : IntDev}

/-- The counters decide on the branch as the number of the interrupt says. -/
theorem tl880VpipHandler_cases (h : CountersAt n d.rowCnt d.fieldCnt) :
    (vpipKind n = .row ∧ d.rowCnt.toNat < 16 ∧ tl880VpipHandler d = vpipRow d) ∨
      (vpipKind n = .field ∧ n = 16 ∧
        tl880VpipHandler d = { vpipField d with rowCnt := 1, fieldCnt := 1 }) ∨
      (vpipKind n = .idle ∧ 16 < n ∧ n % 16 = 0 ∧
        tl880VpipHandler d = { d with rowCnt := 1, fieldCnt := 1 }) := by
  have hrows : d.rowCnt < 0x10 ↔ d.rowCnt.toNat < 16 := Iff.rfl
  have hnone : (0 : U32) < 1 := by decide
  have hone : ¬ (1 : U32) < 1 := by decide
  unfold CountersAt at h
  by_cases hrow : d.rowCnt.toNat < 16
  · left
    refine ⟨?_, hrow, if_pos (hrows.mpr hrow)⟩
    split_ifs at h with hfirst
    · rw [vpipKind, if_neg (by omega), if_neg (by omega)]
    · rw [vpipKind, if_neg (by omega), if_neg (by omega)]
  · right
    have hbranch : tl880VpipHandler d = if d.fieldCnt < 1 then
        { vpipField d with rowCnt := 1, fieldCnt := d.fieldCnt + 1 }
      else { d with rowCnt := 1, fieldCnt := 1 } := if_neg (mt hrows.mp hrow)
    split_ifs at h with hfirst
    · left
      obtain ⟨hcount, hfield⟩ := h
      have hn : n = 16 := by omega
      rw [hbranch, hfield, if_pos hnone]
      exact ⟨if_pos hn, hn, rfl⟩
    · right
      obtain ⟨hcount, hfield⟩ := h
      rw [hbranch, hfield, if_neg hone]
      refine ⟨?_, by omega, by omega, rfl⟩
      rw [vpipKind, if_neg (by omega), if_pos (by omega)]

/-- The counters after one more. -/
theorem CountersAt.next (h : CountersAt n d.rowCnt d.fieldCnt) :
    CountersAt (n + 1) (tl880VpipHandler d).rowCnt (tl880VpipHandler d).fieldCnt := by
  have hone : (1 : U32).toNat = 1 := rfl
  obtain ⟨-, hrow, heq⟩ | ⟨-, rfl, heq⟩ | ⟨-, hlate, hidle, heq⟩ := tl880VpipHandler_cases h
  · have hnext : (d.rowCnt + 1).toNat = d.rowCnt.toNat + 1 := by
      rw [BitVec.toNat_add, hone]
      omega
    rw [heq]
    show CountersAt (n + 1) (d.rowCnt + 1) d.fieldCnt
    unfold CountersAt at h ⊢
    rw [hnext]
    split_ifs at h with hfirst
    · rw [if_pos (by omega)]
      exact ⟨by omega, h.2⟩
    · rw [if_neg (by omega)]
      exact ⟨by omega, h.2⟩
  · rw [heq]
    exact ⟨rfl, rfl⟩
  · rw [heq]
    show CountersAt (n + 1) 1 1
    unfold CountersAt
    rw [if_neg (by omega)]
    exact ⟨by rw [hone]; omega, rfl⟩

/-! ## The registers -/

/-- A field that `set_bits` set reads back. -/
theorem setBits_field {highBit lowBit : Nat} (hle : lowBit ≤ highBit) (hhigh : highBit < 32)
    (hwidth : highBit - lowBit < 31) (value setvalue : U32) :
    (setBits value highBit lowBit setvalue >>> lowBit) &&& fieldMask highBit lowBit =
      setvalue &&& fieldMask highBit lowBit := by
  apply BitVec.eq_of_getLsbD_eq
  intro i hi
  rw [BitVec.getLsbD_and, BitVec.getLsbD_and, BitVec.getLsbD_ushiftRight,
    getLsbD_fieldMask hwidth, getLsbD_setBits hle hhigh hwidth]
  by_cases hin : i ≤ highBit - lowBit
  · rw [if_pos ⟨by omega, by omega⟩, Nat.add_sub_cancel_left]
  · simp [hin]

/-- What the two writes of a row leave. -/
theorem row_effect {r : RegSpace} (r' : RegSpace) (hmapped : r.mapped = true)
    (hr' : r' = tl880WriteRegister (tl880WriteRegbits r 0x7000 0x15 0x10 0x3d) 0x701c 0x92) :
    tl880ReadRegbits r' 0x7000 0x15 0x10 = 0x3d ∧ tl880ReadRegister r' 0x701c = 0x92 ∧
      (∀ i, (i < 0x10 ∨ 0x15 < i) →
        (tl880ReadRegister r' 0x7000).getLsbD i = (tl880ReadRegister r 0x7000).getLsbD i) ∧
      ∀ reg, reg ≠ 0x7000 → reg ≠ 0x701c → tl880ReadRegister r' reg = tl880ReadRegister r reg := by
  have hfield : tl880ReadRegister r' 0x7000 =
      setBits (tl880ReadRegister r 0x7000) 0x15 0x10 0x3d := by
    rw [hr', tl880ReadRegister_write_ne _ (by decide), tl880WriteRegbits,
      tl880ReadRegister_write_self hmapped (by decide)]
  refine ⟨?_, ?_, ?_, ?_⟩
  · rw [tl880ReadRegbits, hfield, setBits_field (by decide) (by decide) (by decide)]
    decide
  · rw [hr']
    exact tl880ReadRegister_write_self (by simp [hmapped]) (by decide) _
  · intro i hout
    rw [hfield, getLsbD_setBits (by decide) (by decide) (by decide), if_neg (by omega)]
  · intro reg hne hne'
    rw [hr', tl880ReadRegister_write_ne _ hne', tl880ReadRegister_writeRegbits_ne _ hne]

/-- The field toggles bit 22. -/
theorem toggled_bit (value : U32) :
    (setBits value 0x16 0x16
        (if (value >>> 0x16) &&& fieldMask 0x16 0x16 ≠ 0 then 0 else 1)).getLsbD 22 =
      !value.getLsbD 22 := by
  have hmask : fieldMask 0x16 0x16 = 1 := by decide
  have hread : (value >>> 0x16) &&& fieldMask 0x16 0x16 = 0 ↔ value.getLsbD 22 = false := by
    rw [hmask]
    constructor
    · intro hzero
      have hbit := congrArg (fun x : U32 => x.getLsbD 0) hzero
      simpa using hbit
    · intro hbit
      apply BitVec.eq_of_getLsbD_eq
      intro i hi
      cases i with
      | zero => simpa using hbit
      | succ i => simp [BitVec.getLsbD_one]
  rw [getLsbD_setBits (by decide) (by decide) (by decide), if_pos (by decide)]
  cases hbit : value.getLsbD 22 with
  | false =>
      rw [if_neg (not_not.mpr (hread.mpr hbit))]
      rfl
  | true =>
      rw [if_pos]
      · rfl
      · intro hzero
        rw [hread.mp hzero] at hbit
        cases hbit

/-- What the first three writes of the field leave: bit 22 is toggled. -/
theorem toggle_effect (command : U32) {r r' : RegSpace} (hmapped : r.mapped = true)
    (hr' : r' = tl880WriteRegister (tl880WriteRegister
      (tl880WriteRegbits r 0x7000 0x16 0x16
        (if tl880ReadRegbits r 0x7000 0x16 0x16 ≠ 0 then 0 else 1)) 0x702c command) 0x702c 0) :
    r'.mapped = true ∧
      (tl880ReadRegister r' 0x7000).getLsbD 22 = (!(tl880ReadRegister r 0x7000).getLsbD 22) ∧
      (∀ i, i ≠ 0x16 →
        (tl880ReadRegister r' 0x7000).getLsbD i = (tl880ReadRegister r 0x7000).getLsbD i) ∧
      tl880ReadRegister r' 0x702c = 0 ∧
      ∀ reg, reg ≠ 0x7000 → reg ≠ 0x702c → tl880ReadRegister r' reg = tl880ReadRegister r reg := by
  have hfield : tl880ReadRegister r' 0x7000 = setBits (tl880ReadRegister r 0x7000) 0x16 0x16
      (if tl880ReadRegbits r 0x7000 0x16 0x16 ≠ 0 then 0 else 1) := by
    rw [hr', tl880ReadRegister_write_ne _ (by decide), tl880ReadRegister_write_ne _ (by decide),
      tl880WriteRegbits, tl880ReadRegister_write_self hmapped (by decide)]
  refine ⟨?_, ?_, ?_, ?_, ?_⟩
  · rw [hr']
    simp [hmapped]
  · rw [hfield]
    exact toggled_bit _
  · intro i hne
    rw [hfield, getLsbD_setBits (by decide) (by decide) (by decide), if_neg (by omega)]
  · rw [hr']
    exact tl880ReadRegister_write_self (by simp [hmapped]) (by decide) _
  · intro reg hne hne'
    rw [hr', tl880ReadRegister_write_ne _ hne', tl880ReadRegister_write_ne _ hne',
      tl880ReadRegister_writeRegbits_ne _ hne]

/-- What a handled interrupt does to the registers of its card. -/
theorem tl880VpipHandler_effect (h : CountersAt n d.rowCnt d.fieldCnt)
    (hmapped : d.regs.mapped = true) :
    VpipEffect (vpipKind n) d.regs (tl880VpipHandler d).regs := by
  obtain ⟨hkind, -, heq⟩ | ⟨hkind, -, heq⟩ | ⟨hkind, -, -, heq⟩ := tl880VpipHandler_cases h
  · rw [hkind, heq]
    obtain ⟨hfield, hrow, hbits, hframe⟩ := row_effect (vpipRow d).regs hmapped rfl
    refine ⟨(fun hidle => by cases hidle), fun _ => ⟨hfield, hrow⟩, ?_, ?_, ?_, ?_⟩
    · simpa using hbits 22 (by decide)
    · exact fun i hout => hbits i (by omega)
    · exact hframe 0x702c (by decide) (by decide)
    · exact fun reg hne hne' _ => hframe reg hne hne'
  · rw [hkind, heq]
    have hzero : setBits 0 0x16 0xc 0 = 0 := by decide
    obtain ⟨hmapped', hbit', hbits', hcommand', hframe'⟩ := toggle_effect
      (setBits 0 0x16 0xc 0 ||| 0x80000000) hmapped rfl
    obtain ⟨hfield, hrow, hbits, hframe⟩ := row_effect (vpipField d).regs hmapped'
      (by rw [← hzero]; rfl)
    refine ⟨(fun hidle => by cases hidle), fun _ => ⟨hfield, hrow⟩, ?_, ?_, ?_, ?_⟩
    · have htoggled := (hbits 22 (by decide)).trans hbit'
      simpa using htoggled
    · exact fun i hout => (hbits i (by omega)).trans (hbits' i (by omega))
    · exact (hframe 0x702c (by decide) (by decide)).trans hcommand'
    · intro reg hne hne' hne''
      exact (hframe reg hne hne').trans (hframe' reg hne hne'')
  · rw [hkind, heq]
    exact ⟨fun _ => rfl, fun hne => absurd rfl hne, by simp, fun _ _ => rfl, rfl,
      fun _ _ _ _ => rfl⟩

/-! ## Whole runs -/

/-- The counters are those of the interrupts so far. -/
def VpipSystem.Counted (s : VpipSystem) : Prop := CountersAt s.handled s.rowCnt s.fieldCnt

/-- The handler does not look at the types. -/
theorem tl880VpipHandler_types (d : IntDev) (types : PartTypes) :
    tl880VpipHandler { d with types := types } =
      { tl880VpipHandler d with types := types } := by
  unfold tl880VpipHandler
  dsimp only
  split_ifs <;> rfl

/-- `tl880_vpip_int` calls the handler. -/
theorem tl880VpipInt_pending {d : IntDev} (h : VpipPending d) : (tl880VpipInt d).1 =
    { tl880VpipHandler d with types := { d.types with vpip := 0 } } := by
  have htypes : (tl880VpipHandler d).types = d.types := by
    unfold tl880VpipHandler
    split_ifs <;> rfl
  have hcalled := tl880VpipHandler_types d
    { d.types with vpip := d.read 0x7008 &&& d.read 0x7004 }
  unfold VpipPending at h
  simp only [tl880VpipInt, if_pos h, hcalled]

/-- `tl880_vpip_int` does not call the handler. -/
theorem tl880VpipInt_not_pending {d : IntDev} (h : ¬ VpipPending d) : (tl880VpipInt d).1 =
    { d with types := { d.types with vpip := 0 } } := by
  unfold VpipPending at h
  simp only [tl880VpipInt, if_neg h]

theorem VpipSystem.Counted.step {s t : VpipSystem} (h : s.Counted) {e : VpipEvent}
    (hstep : vpipStep s e = some t) : t.Counted := by
  cases e with
  | interrupt card =>
      cases hstep
      have hcard : CountersAt s.handled (s.card card).rowCnt (s.card card).fieldCnt := h
      unfold VpipSystem.Counted
      dsimp only
      by_cases hpending : VpipPending (s.card card)
      · rw [if_pos hpending, tl880VpipInt_pending hpending]
        exact hcard.next
      · rw [if_neg hpending, tl880VpipInt_not_pending hpending]
        exact h
  | change card cell =>
      cases hstep
      exact h

/-- In every run each handled interrupt does what its number among all cards says. -/
theorem vpip_runs (cards : Nat → IntDev) (events : List VpipEvent) :
    AllSteps vpipStep VpipOk (.loaded cards) events := by
  have hloaded : (VpipSystem.loaded cards).Counted := ⟨rfl, rfl⟩
  refine allSteps_of_preserves (fun s e t h hstep => VpipSystem.Counted.step h hstep) ?_ hloaded
    events
  intro s e h
  cases e with
  | interrupt card =>
      constructor
      · intro hmapped hpending
        rw [tl880VpipInt_pending hpending]
        exact tl880VpipHandler_effect h hmapped
      · intro hpending
        rw [tl880VpipInt_not_pending hpending]
  | change card cell => trivial

end Tl880
