import Tl880.InitCard
import Mathlib.Tactic.IntervalCases

/-!
# The constant of the DPC's PLL

`tl880_calc_dpc_pll_const` of `driver/tl880dpc.c` packs three numbers into the word of register
0x5800, and `tl880_uncalc_dpc_pll_const` of `tools/dpc/getconst.c` takes it apart.
`tools/dpc/setconst.c` writes what the one makes of its arguments, `tools/dpc/getconst.c` prints
what the other finds.

The packing has no room for six bits of a word that the driver itself writes there.
-/

namespace Tl880

/-! ## The driver and the tools -/

/-- `tl880_calc_dpc_pll_const` -/
def tl880CalcDpcPllConst (a : U32) (b c : U8) : U32 :=
  (((((a &&& 0x3ff) <<< 8) ||| (b &&& 0x1f).setWidth 32) <<< 4) ||| (c &&& 3).setWidth 32) <<< 4

/-- `tl880_uncalc_dpc_pll_const` -/
def tl880UncalcDpcPllConst (dpcconst : U32) : U32 × U8 × U8 :=
  ((dpcconst >>> 0x10) &&& 0x3ff, ((dpcconst >>> 8) &&& 0x1f).setWidth 8,
    ((dpcconst >>> 4) &&& 3).setWidth 8)

/-- `setconst` -/
def setconst (a : U32) (b c : U8) (r : RegSpace) : RegSpace :=
  tl880WriteRegister r 0x5800 (tl880CalcDpcPllConst a b c)

/-- `getconst`, which reads from the card -/
def getconst (r : RegSpace) : U32 × U8 × U8 := tl880UncalcDpcPllConst (tl880ReadRegister r 0x5800)

/-! ## Bits -/

/-- A number of which the low `n` bits are kept. -/
theorem getLsbD_and_low {w : Nat} (n : Nat) (x : BitVec w) (j : Nat) :
    (x &&& BitVec.ofNat w (2 ^ n - 1)).getLsbD j = (x.getLsbD j && decide (j < n)) := by
  rw [BitVec.getLsbD_and]
  by_cases hj : j < w
  · rw [BitVec.getLsbD_ofNat, Nat.testBit_two_pow_sub_one]
    simp [hj]
  · rw [BitVec.getLsbD_of_ge x j (by omega), Bool.false_and, Bool.false_and]

/-- Where the three numbers are in the word. -/
theorem getLsbD_calc (a : U32) (b c : U8) {i : Nat} (hi : i < 32) :
    (tl880CalcDpcPllConst a b c).getLsbD i =
      if 16 ≤ i ∧ i < 26 then a.getLsbD (i - 16)
      else if 8 ≤ i ∧ i < 13 then b.getLsbD (i - 8)
      else if 4 ≤ i ∧ i < 6 then c.getLsbD (i - 4)
      else false := by
  have ha : ∀ j, (a &&& 0x3ff).getLsbD j = (a.getLsbD j && decide (j < 10)) :=
    getLsbD_and_low 10 a
  have hb : ∀ j, (b &&& 0x1f).getLsbD j = (b.getLsbD j && decide (j < 5)) := getLsbD_and_low 5 b
  have hc : ∀ j, (c &&& 3).getLsbD j = (c.getLsbD j && decide (j < 2)) := getLsbD_and_low 2 c
  unfold tl880CalcDpcPllConst
  simp only [BitVec.getLsbD_shiftLeft, BitVec.getLsbD_or, BitVec.getLsbD_setWidth, ha, hb, hc]
  interval_cases i <;> simp

/-- Where a word has them. -/
theorem getLsbD_uncalc_a (x : U32) (j : Nat) :
    (tl880UncalcDpcPllConst x).1.getLsbD j = (x.getLsbD (16 + j) && decide (j < 10)) := by
  have hlow : ((x >>> 16) &&& 0x3ff).getLsbD j = ((x >>> 16).getLsbD j && decide (j < 10)) :=
    getLsbD_and_low 10 (x >>> 16) j
  rw [tl880UncalcDpcPllConst, hlow, BitVec.getLsbD_ushiftRight]

theorem getLsbD_uncalc_b (x : U32) (j : Nat) :
    (tl880UncalcDpcPllConst x).2.1.getLsbD j = (x.getLsbD (8 + j) && decide (j < 5)) := by
  have hlow : ((x >>> 8) &&& 0x1f).getLsbD j = ((x >>> 8).getLsbD j && decide (j < 5)) :=
    getLsbD_and_low 5 (x >>> 8) j
  rw [tl880UncalcDpcPllConst, BitVec.getLsbD_setWidth, hlow, BitVec.getLsbD_ushiftRight]
  by_cases hj : j < 5
  · rw [decide_eq_true (show j < 8 by omega), Bool.true_and]
  · rw [decide_eq_false hj, Bool.and_false, Bool.and_false]

theorem getLsbD_uncalc_c (x : U32) (j : Nat) :
    (tl880UncalcDpcPllConst x).2.2.getLsbD j = (x.getLsbD (4 + j) && decide (j < 2)) := by
  have hlow : ((x >>> 4) &&& 3).getLsbD j = ((x >>> 4).getLsbD j && decide (j < 2)) :=
    getLsbD_and_low 2 (x >>> 4) j
  rw [tl880UncalcDpcPllConst, BitVec.getLsbD_setWidth, hlow, BitVec.getLsbD_ushiftRight]
  by_cases hj : j < 2
  · rw [decide_eq_true (show j < 8 by omega), Bool.true_and]
  · rw [decide_eq_false hj, Bool.and_false, Bool.and_false]

/-- What is packed is found, as far as there is room for it. -/
theorem uncalc_calc (a : U32) (b c : U8) :
    tl880UncalcDpcPllConst (tl880CalcDpcPllConst a b c) = (a &&& 0x3ff, b &&& 0x1f, c &&& 3) := by
  have ha : (tl880UncalcDpcPllConst (tl880CalcDpcPllConst a b c)).1 = a &&& 0x3ff := by
    apply BitVec.eq_of_getLsbD_eq
    intro j hj
    refine Eq.trans ?_ (getLsbD_and_low 10 a j).symm
    rw [getLsbD_uncalc_a]
    by_cases hlow : j < 10
    · rw [getLsbD_calc a b c (by omega), if_pos (by omega), Nat.add_sub_cancel_left]
    · rw [decide_eq_false hlow, Bool.and_false, Bool.and_false]
  have hb : (tl880UncalcDpcPllConst (tl880CalcDpcPllConst a b c)).2.1 = b &&& 0x1f := by
    apply BitVec.eq_of_getLsbD_eq
    intro j hj
    refine Eq.trans ?_ (getLsbD_and_low 5 b j).symm
    rw [getLsbD_uncalc_b]
    by_cases hlow : j < 5
    · rw [getLsbD_calc a b c (by omega), if_neg (by omega), if_pos (by omega),
        Nat.add_sub_cancel_left]
    · rw [decide_eq_false hlow, Bool.and_false, Bool.and_false]
  have hc : (tl880UncalcDpcPllConst (tl880CalcDpcPllConst a b c)).2.2 = c &&& 3 := by
    apply BitVec.eq_of_getLsbD_eq
    intro j hj
    refine Eq.trans ?_ (getLsbD_and_low 2 c j).symm
    rw [getLsbD_uncalc_c]
    by_cases hlow : j < 2
    · rw [getLsbD_calc a b c (by omega), if_neg (by omega), if_neg (by omega),
        if_pos (by omega), Nat.add_sub_cancel_left]
    · rw [decide_eq_false hlow, Bool.and_false, Bool.and_false]
  exact Prod.ext ha (Prod.ext hb hc)

/-- A word that is taken apart and packed again keeps the bits there is room for. -/
theorem calc_uncalc (x : U32) :
    tl880CalcDpcPllConst (tl880UncalcDpcPllConst x).1 (tl880UncalcDpcPllConst x).2.1
      (tl880UncalcDpcPllConst x).2.2 = x &&& 0x03ff1f30 := by
  have hroom : ∀ i < 32, (0x03ff1f30 : U32).getLsbD i =
      decide ((16 ≤ i ∧ i < 26) ∨ (8 ≤ i ∧ i < 13) ∨ (4 ≤ i ∧ i < 6)) := by decide
  apply BitVec.eq_of_getLsbD_eq
  intro i hi
  rw [getLsbD_calc _ _ _ hi, BitVec.getLsbD_and, hroom i hi, getLsbD_uncalc_a, getLsbD_uncalc_b,
    getLsbD_uncalc_c]
  by_cases hfirst : 16 ≤ i ∧ i < 26
  · have hplace : 16 + (i - 16) = i := by omega
    rw [if_pos hfirst, hplace, decide_eq_true (show i - 16 < 10 by omega),
      decide_eq_true (Or.inl hfirst)]
  by_cases hsecond : 8 ≤ i ∧ i < 13
  · have hplace : 8 + (i - 8) = i := by omega
    rw [if_neg hfirst, if_pos hsecond, hplace, decide_eq_true (show i - 8 < 5 by omega),
      decide_eq_true (Or.inr (Or.inl hsecond))]
  by_cases hthird : 4 ≤ i ∧ i < 6
  · have hplace : 4 + (i - 4) = i := by omega
    rw [if_neg hfirst, if_neg hsecond, if_pos hthird, hplace,
      decide_eq_true (show i - 4 < 2 by omega), decide_eq_true (Or.inr (Or.inr hthird))]
  · simp [hfirst, hsecond, hthird]

/-! ## The tools one after the other -/

/-- `setconst` with what `getconst` has printed. -/
def setSameConst (r : RegSpace) : RegSpace :=
  setconst (getconst r).1 (getconst r).2.1 (getconst r).2.2 r

/-- The words that `tl880_set_dpc_clock` writes. -/
def dpcClocks : List U32 := [0x01151bb0, 0x00e619b0, 0x98280, 0x60070, 0x60050]

/-- The bits of the register that there is no room for. -/
def PllConstFits (x : U32) : Prop := x &&& 0x03ff1f30 = x

theorem setGpioLine6_read (d : DevRegs) (state : U8) {reg : U32} (h0 : reg ≠ 0x10194)
    (h1 : reg ≠ 0x10198) :
    tl880ReadRegister (d.setGpioLine6 state).regs reg = tl880ReadRegister d.regs reg := by
  unfold DevRegs.setGpioLine6
  split_ifs
  · exact tl880ReadRegister_write_ne d.regs h1 _
  · refine (tl880ReadRegister_write_ne _ h1 _).trans ?_
    exact tl880ReadRegister_write_ne d.regs h0 _
  · rfl

/-- The register holds one of them afterwards. -/
theorem tl880SetDpcClock_read {d : DevRegs} (hmapped : d.regs.mapped = true) (xres : U64)
    (interlace : Int) :
    tl880ReadRegister (d.tl880SetDpcClock xres interlace).regs 0x5800 ∈ dpcClocks := by
  have hwritten : ∀ val : U32, ∀ gpioVal : U8, tl880ReadRegister
      ((d.writeAll [(0x5800, val), (0x5d14, 0)]).setGpioLine6 gpioVal).regs 0x5800 = val := by
    intro val gpioVal
    rw [setGpioLine6_read _ _ (by decide) (by decide)]
    refine (tl880ReadRegister_write_ne _ (by decide) _).trans ?_
    exact tl880ReadRegister_write_self hmapped (show (0x5800 : U32) < 0x100000 by decide) val
  unfold DevRegs.tl880SetDpcClock
  dsimp only
  rw [hwritten]
  split_ifs <;> simp [dpcClocks]

theorem tl880SetDpcClock_mapped (d : DevRegs) (xres : U64) (interlace : Int) :
    (d.tl880SetDpcClock xres interlace).regs.mapped = d.regs.mapped := by
  have hwritten : ∀ val : U32, ∀ gpioVal : U8,
      ((d.writeAll [(0x5800, val), (0x5d14, 0)]).setGpioLine6 gpioVal).regs.mapped =
        d.regs.mapped := by
    intro val gpioVal
    rw [DevRegs.setGpioLine6_regs]
    simp [setGpioRegs_mapped, DevRegs.writeAll, DevRegs.write]
  unfold DevRegs.tl880SetDpcClock
  dsimp only
  rw [hwritten]

/-- Nothing changes exactly when the register has no bit there is no room for. -/
theorem setSameConst_eq_iff {r : RegSpace} (hmapped : r.mapped = true) :
    setSameConst r = r ↔ PllConstFits (tl880ReadRegister r 0x5800) := by
  have hspace : (0x5800 : U32) < 0x100000 := by decide
  have hset : setSameConst r =
      tl880WriteRegister r 0x5800 (tl880ReadRegister r 0x5800 &&& 0x03ff1f30) := by
    rw [setSameConst, setconst, getconst, calc_uncalc]
  rw [hset]
  constructor
  · intro hsame
    have hread := tl880ReadRegister_write_self hmapped hspace
      (tl880ReadRegister r 0x5800 &&& 0x03ff1f30)
    rw [hsame] at hread
    exact hread.symm
  · intro hfits
    have hnot : ¬ (0x100000#32 ≤ 0x5800) := BitVec.not_le.mpr hspace
    have hcell : tl880ReadRegister r 0x5800 = r.cell 0x5800 := by
      rw [tl880ReadRegister, if_neg (by simp [hmapped]), if_neg hnot]
    rw [PllConstFits] at hfits
    rw [hfits, tl880WriteRegister, if_neg (by simp [hmapped]), if_neg hnot, hcell,
      Function.update_eq_self]

/-- None of the words that the driver writes fits. -/
theorem dpcClocks_lossy : ∀ x ∈ dpcClocks, ¬ PllConstFits x := by
  intro x hx
  simp only [dpcClocks, List.mem_cons, List.not_mem_nil, or_false] at hx
  rcases hx with rfl | rfl | rfl | rfl | rfl <;> simp [PllConstFits]

/-- The packing and its inverse lose what there is no room for, and so a constant that is read
from the card and written back changes the clock, whatever mode the driver has set it for. -/
theorem dpcPllConst_roundtrip :
    (∀ (a : U32) (b c : U8), tl880UncalcDpcPllConst (tl880CalcDpcPllConst a b c) =
      (a &&& 0x3ff, b &&& 0x1f, c &&& 3)) ∧
    (∀ r : RegSpace, r.mapped = true →
      (setSameConst r = r ↔ PllConstFits (tl880ReadRegister r 0x5800))) ∧
    ∀ (d : DevRegs) (xres : U64) (interlace : Int), d.regs.mapped = true →
      setSameConst (d.tl880SetDpcClock xres interlace).regs ≠
        (d.tl880SetDpcClock xres interlace).regs := by
  refine ⟨uncalc_calc, fun r hmapped => setSameConst_eq_iff hmapped, ?_⟩
  intro d xres interlace hmapped hsame
  have hclock : (d.tl880SetDpcClock xres interlace).regs.mapped = true :=
    (tl880SetDpcClock_mapped d xres interlace).trans hmapped
  exact dpcClocks_lossy _ (tl880SetDpcClock_read hmapped xres interlace)
    ((setSameConst_eq_iff hclock).mp hsame)

end Tl880
