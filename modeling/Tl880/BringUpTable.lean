import Tl880.BringUp

/-!
# What bringing up a MyHD card leaves

The accesses of `initCard` set the same bits whatever the registers hold, so what is left of
them is a table: for each register the bits that are set, and their values.  `initTable` is that
table for each of the five cards.  It is smaller than the list of the accesses, most of which
are overwritten by later ones.

As the table does not depend on the state, bringing up the card a second time gives the same as
the first, whatever has been called in between, as long as the calls did not reach beyond the
table (`RunCall.Undone`): the second input, the luma filter and the mode of the contrast are
never set, and SECAM, a saturation of 0 and the audio of an MDP-120 use registers of their own.
-/

namespace Tl880

open Patch

/-! ## The table -/

/-- What is left in the registers of the card, in the FP registers of the VPX and in those that
are reached without the FP interface. -/
structure SetupTable where
  regs : List (SetWord U32 32)
  fp : List (SetWord U16 12)
  direct : List (SetWord U8 8)

/-- A whole word. -/
def wholeWord {κ : Type} {w : Nat} (key : κ) (value : BitVec w) : SetWord κ w where
  key := key
  mask := BitVec.allOnes w
  value := value
  within := by
    rw [BitVec.not_allOnes]
    exact BitVec.and_zero

/-- The GPIO of the card. -/
def gpioWords (cardType : U16) : List (SetWord U32 32) :=
  if cardType = cardMyhdMdp100a then
    [{ key := 0x10190, mask := 0xcffffff, value := 0xcffffff },
      { key := 0x10194, mask := 0xcff00ff, value := 0 },
      { key := 0x10198, mask := 0xc00ff00, value := 0x5100 }]
  else if cardType = cardMyhdMdp100 then
    [{ key := 0x10190, mask := 0xcffffff, value := 0xcffffff },
      { key := 0x10194, mask := 0xcffffff, value := 0xff00 },
      { key := 0x10198, mask := 0xc00ff00, value := 0x5100 }]
  else if cardType = cardMyhdMdp110 then
    [{ key := 0x10190, mask := 0xcffffff, value := 0xcffffff },
      { key := 0x10194, mask := 0xcffffff, value := 0xeff00 },
      { key := 0x10198, mask := 0xccfff00, value := 0xe5100 }]
  else
    -- line 0 of an MDP-120 or MDP-130 is no line but the audio output
    [{ key := 0x10190, mask := 0xcffffff, value := 0xcffffff },
      { key := 0x10194, mask := 0xcffffff, value := 0xff00 },
      { key := 0x10198, mask := 0xccfff00, value := 0xe1000 },
      { key := 0x3058, mask := 0xff000c, value := 8 }]

/-- The APU as `tl880_init_ntsc_audio` leaves it. -/
def ntscAudioWords : List (SetWord U32 32) :=
  [wholeWord 0x27810 0xa000, wholeWord 0x3000 0x1050000, wholeWord 0x3004 0x306,
    wholeWord 0x3008 0x1029, wholeWord 0x300c 0x3000000, wholeWord 0x3010 0x3000000,
    wholeWord 0x3014 0, wholeWord 0x3020 0x1000, wholeWord 0x3024 0x10fe0, wholeWord 0x3028 0,
    wholeWord 0x302c 0x1000, wholeWord 0x3030 0x9000, wholeWord 0x305c 0xc30000c3,
    wholeWord 0x3060 0, wholeWord 0x3064 0, wholeWord 0x3068 0, wholeWord 0x306c 0xc30000c3,
    wholeWord 0x3070 0, wholeWord 0x3074 0, wholeWord 0x3078 0, wholeWord 0x307c 0xc30000c3]

/-- The VPX as `tl880_vpx_config` and the selection of the input leave it. -/
def vpxConfigWords : List (SetWord U16 12) :=
  [wholeWord vpxFpRefsig 0, wholeWord vpxFpFormatSel 0x82, wholeWord vpxFpPvalStart 0,
    wholeWord vpxFpPvalStop 0x320, wholeWord vpxFpControlword 0x800, wholeWord vpxFpReg174 4,
    wholeWord vpxFpPeaking1 0x316, wholeWord vpxFpSdt 0x27, wholeWord vpxFpCombUc 0xfff,
    { key := vpxFpInsel, mask := 0x807, value := 5 },
    { key := vpxFpContrast1, mask := 0x3f, value := 0x24 },
    wholeWord vpxFpBrightness1 0xff0, wholeWord vpxFpAccSat 0xc00, wholeWord vpxFpTint 0]

/-- The multipurpose bits of the VPX. -/
def outmuxEntry (cardType : U16) : SetWord U16 12 :=
  wholeWord vpxFpOutmux (if cardType = cardMyhdMdp100a then 0x300 else 0x301)

/-- What bringing up the card leaves. -/
def initTable (cardType : U16) : SetupTable where
  regs := gpioWords cardType ++ ntscAudioWords
  fp := outmuxEntry cardType :: vpxConfigWords
  direct :=
    [wholeWord vpxI2cLlc 0, wholeWord vpxI2cOena 0xf, wholeWord vpxI2cDriverA 0xff,
      wholeWord vpxI2cDriverB 0x3f]

/-- What holds of the cards for which `tl880_init_dev` calls `tl880_init_myhd`, one by one. -/
theorem forall_initCards {P : U16 → Prop} (h100a : P cardMyhdMdp100a) (h100 : P cardMyhdMdp100)
    (h110 : P cardMyhdMdp110) (h120 : P cardMyhdMdp120) (h130 : P cardMyhdMdp130) {cardType : U16}
    (hcard : cardInit cardType = .myhd) : P cardType := by
  have hmyhd : IsMyhd cardType := by
    unfold cardInit at hcard
    split_ifs at hcard with hmyhd
    exact hmyhd
  rcases hmyhd with h | h | h | h | h <;> rw [h]
  · exact h100a
  · exact h100
  · exact h110
  · exact h120
  · exact h130

/-! ## The accesses and the table -/

/-- The words have all bits of the masks. -/
def WordsHave {κ : Type} {w : Nat} (words : List (SetWord κ w)) (masks : List (κ × BitVec w)) :
    Prop :=
  ∀ m ∈ masks, ∃ word ∈ words, word.key = m.1 ∧ m.2 &&& ~~~word.mask = 0

instance WordsHave.decidable {κ : Type} [DecidableEq κ] {w : Nat} (words : List (SetWord κ w))
    (masks : List (κ × BitVec w)) : Decidable (WordsHave words masks) :=
  inferInstanceAs (Decidable (∀ m ∈ masks, _))

theorem WordsHave.nil {κ : Type} {w : Nat} (words : List (SetWord κ w)) : WordsHave words [] :=
  fun _ hm => absurd hm List.not_mem_nil

/-- The table has all bits of the masks. -/
structure SetupMasks.Within (masks : SetupMasks) (table : SetupTable) : Prop where
  regs : WordsHave table.regs masks.regs
  fp : WordsHave table.fp masks.fp
  direct : WordsHave table.direct masks.direct

instance SetupMasks.decidableWithin (masks : SetupMasks) (table : SetupTable) :
    Decidable (masks.Within table) :=
  decidable_of_iff (_ ∧ _ ∧ _) ⟨fun h => ⟨h.1, h.2.1, h.2.2⟩, fun h => ⟨h.regs, h.fp, h.direct⟩⟩

/-- A card whose registers are all 0, and one whose registers are all ones. -/
def blankCard : CardSetup where
  regs := ⟨true, fun _ => 0⟩
  mem := ⟨true, 0, fun _ => 0, []⟩
  vpx := fun _ => 0
  direct := fun _ => 0
  video := ⟨false, 0⟩

def filledCard : CardSetup where
  regs := ⟨true, fun _ => 0xffffffff⟩
  mem := ⟨true, 0, fun _ => 0, []⟩
  vpx := fun _ => 0xfff
  direct := fun _ => 0xff
  video := ⟨false, 0⟩

/-- The accesses of `initCard`, one after the other. -/
def bringUp (cardType : U16) (s : CardSetup) : CardSetup :=
  (initCard cardType).foldl (setupOp cardType) s

/-- The accesses are to bits of the table, and two runs of them show its values. -/
structure InitProbes (cardType : U16) : Prop where
  proper : ∀ op ∈ initCard cardType, op.Proper
  ready : saturationReady false (initCard cardType) = true
  within : ∀ op ∈ initCard cardType, (op.masks cardType).Within (initTable cardType)
  keys : ∀ word ∈ (initTable cardType).regs, word.key < 0x100000#32
  blankRegs : ∀ word ∈ (initTable cardType).regs,
    tl880ReadRegister (bringUp cardType blankCard).regs word.key = word.value
  filledRegs : ∀ word ∈ (initTable cardType).regs,
    tl880ReadRegister (bringUp cardType filledCard).regs word.key = word.value ||| ~~~word.mask
  blankFp : ∀ word ∈ (initTable cardType).fp, (bringUp cardType blankCard).vpx word.key = word.value
  filledFp : ∀ word ∈ (initTable cardType).fp,
    (bringUp cardType filledCard).vpx word.key = word.value ||| ~~~word.mask
  blankDirect : ∀ word ∈ (initTable cardType).direct,
    (bringUp cardType blankCard).direct word.key = word.value
  filledDirect : ∀ word ∈ (initTable cardType).direct,
    (bringUp cardType filledCard).direct word.key = word.value ||| ~~~word.mask

theorem initProbes {cardType : U16} (hcard : cardInit cardType = .myhd) :
    InitProbes cardType := by
  -- for a card there is nothing left that depends on a state
  have h100a : InitProbes cardMyhdMdp100a := by constructor <;> decide +kernel
  have h100 : InitProbes cardMyhdMdp100 := by constructor <;> decide +kernel
  have h110 : InitProbes cardMyhdMdp110 := by constructor <;> decide +kernel
  have h120 : InitProbes cardMyhdMdp120 := by constructor <;> decide +kernel
  have h130 : InitProbes cardMyhdMdp130 := by constructor <;> decide +kernel
  exact forall_initCards h100a h100 h110 h120 h130 hcard

/-- The words of a table have the bits that are within it. -/
theorem inMasks_of_within {κ : Type} {w : Nat} {words : List (SetWord κ w)}
    {masks : List (κ × BitVec w)} (hwithin : WordsHave words masks) {key : κ} {i : Nat}
    (hin : InMasks masks key i) :
    ∃ word ∈ words, word.key = key ∧ word.mask.getLsbD i = true := by
  obtain ⟨mask, hmem, hbit⟩ := hin
  obtain ⟨word, hword, hkey, hzero⟩ := hwithin _ hmem
  refine ⟨word, hword, hkey, ?_⟩
  have hi : i < w := BitVec.lt_of_getLsbD hbit
  have hout : (mask &&& ~~~word.mask).getLsbD i = false := by
    rw [hzero]
    exact BitVec.getLsbD_zero
  simpa only [BitVec.getLsbD_and, BitVec.getLsbD_not, hbit, hi, decide_true, Bool.true_and,
    Bool.not_eq_false'] using hout

/-- The bits that the table has. -/
def SetupTable.Has (table : SetupTable) : SetupBit → Prop
  | .reg key i => ∃ word ∈ table.regs, word.key = key ∧ word.mask.getLsbD i = true
  | .fp key i => ∃ word ∈ table.fp, word.key = key ∧ word.mask.getLsbD i = true
  | .direct key i => ∃ word ∈ table.direct, word.key = key ∧ word.mask.getLsbD i = true

theorem SetupMasks.Within.has {masks : SetupMasks} {table : SetupTable}
    (h : masks.Within table) {a : SetupBit} (ha : masks.Has a) : table.Has a := by
  rcases a with ⟨reg, i⟩ | ⟨reg, i⟩ | ⟨reg, i⟩
  · exact inMasks_of_within h.regs ha
  · exact inMasks_of_within h.fp ha
  · exact inMasks_of_within h.direct ha

/-- The registers are there. -/
def CardSetup.Mapped (s : CardSetup) : Prop := s.regs.mapped = true

/-- Bringing up the card is one patch, of bits of the table. -/
theorem bringUp_shows {cardType : U16} (hcard : cardInit cardType = .myhd) :
    ∃ p, Shows CardSetup.bit CardSetup.Mapped CardSetup.Mapped (initTable cardType).Has
      (bringUp cardType) p := by
  have hprobes := initProbes hcard
  have hsets : Sets CardSetup.bit _ _ _ (bringUp cardType) :=
    setupOps_sets hprobes.proper hprobes.ready
  refine (hsets.mono ?_).weaken ?_ fun s hs => hs.1
  · rintro a ⟨op, hop, ha⟩
    exact (hprobes.within op hop).has ha
  · exact fun s hs => ⟨hs, fun hready => Bool.noConfusion hready⟩

/-- The patch is the table. -/
structure PatchIs (p : Patch SetupBit Bool) (table : SetupTable) : Prop where
  regs : ∀ word ∈ table.regs, ∀ i < 32, p (.reg word.key i) =
    if word.mask.getLsbD i = true then some (word.value.getLsbD i) else none
  fp : ∀ word ∈ table.fp, ∀ i < 12, p (.fp word.key i) =
    if word.mask.getLsbD i = true then some (word.value.getLsbD i) else none
  direct : ∀ word ∈ table.direct, ∀ i < 8, p (.direct word.key i) =
    if word.mask.getLsbD i = true then some (word.value.getLsbD i) else none

theorem bringUp_patchIs {cardType : U16} (hcard : cardInit cardType = .myhd)
    {p : Patch SetupBit Bool} (h : Shows CardSetup.bit CardSetup.Mapped CardSetup.Mapped
      (initTable cardType).Has (bringUp cardType) p) : PatchIs p (initTable cardType) := by
  have hprobes := initProbes hcard
  have hblank : blankCard.Mapped := rfl
  have hfilled : filledCard.Mapped := rfl
  constructor
  -- beyond the registers of the card both cards would read the same
  · intro word hword i hi
    have hkey : ¬ 0x100000#32 ≤ word.key := BitVec.not_le.mpr (hprobes.keys word hword)
    have hzeros : tl880ReadRegister blankCard.regs word.key = 0 := by
      simp only [tl880ReadRegister, blankCard, Bool.true_eq_false, if_false, if_neg hkey]
    have hones : tl880ReadRegister filledCard.regs word.key = BitVec.allOnes 32 := by
      simp only [tl880ReadRegister, filledCard, Bool.true_eq_false, if_false, if_neg hkey]
      rfl
    exact h.probe_word hblank hfilled (fun _ _ _ => rfl) hzeros hones
      (hprobes.blankRegs word hword) (hprobes.filledRegs word hword) hi
  · intro word hword i hi
    exact h.probe_word hblank hfilled (fun _ _ _ => rfl) rfl rfl (hprobes.blankFp word hword)
      (hprobes.filledFp word hword) hi
  · intro word hword i hi
    exact h.probe_word hblank hfilled (fun _ _ _ => rfl) rfl rfl (hprobes.blankDirect word hword)
      (hprobes.filledDirect word hword) hi

/-- In the second state the registers are as the table leaves them, from the first. -/
structure SetupTable.Leaves (table : SetupTable) (s t : CardSetup) : Prop where
  regs : ∀ reg, tl880ReadRegister t.regs reg =
    wordAfter table.regs reg (tl880ReadRegister s.regs reg)
  fp : ∀ fpaddr, t.vpx fpaddr = wordAfter table.fp fpaddr (s.vpx fpaddr)
  direct : ∀ reg, t.direct reg = wordAfter table.direct reg (s.direct reg)

/-- What is called while the card is in use. -/
inductive RunCall
  | clock (call : ClockCall)
  | setVip (vipMode : U64)
  | setPower (status : U8)
  | setNtscInput (input : Int)
  | vpx (call : VpxCall)

def RunCall.ops (cardType : U16) : RunCall → List SetupOp
  | .clock call => [.clock call]
  | .setVip vipMode => [.setVip vipMode]
  | .setPower status => [tl880VpxSetPowerRegister status]
  | .setNtscInput input => tl880SetNtscInput cardType input
  | .vpx call => [.vpx call]

def runCall (cardType : U16) (s : CardSetup) (call : RunCall) : CardSetup :=
  (call.ops cardType).foldl (setupOp cardType) s

/-- Bringing up the card undoes the call. -/
def RunCall.Undone (cardType : U16) : RunCall → Prop
  | .clock (.setGpio call) => LinesOnVpx cardType → call.1 = 0 → call.2 ≠ 0
  | .vpx (.setVideoStandard standard) => standard ≠ 2
  | .vpx (.setVideoAttribute input attr value) =>
      input ≠ 2 ∧ attr ≠ 8 ∧ attr ≠ 9 ∧ (attr = 3 → value ≠ 0)
  | _ => True

/-- The fields of the first input and of both, with whether bit 11 is cleared. -/
def undoneFields : List (FpField × Bool) :=
  [(.standard, true), (.source, true), (.sVideo, true), (.hue, false),
    (.brightness vpxFpBrightness1, false), (.contrast vpxFpContrast1, false),
    (.sharpness vpxFpPeaking1, false), (.coring vpxFpPeaking1, false)]

theorem attributeWrite_undone {input attr : U64} (hinput : input ≠ 2) (hluma : attr ≠ 8)
    (hmode : attr ≠ 9) (value : U8) :
    ∀ w ∈ attributeWrite input attr value, (w.field, w.clears) ∈ undoneFields := by
  have hfirst : ∀ {reg1 reg2 : U16} {write : U16 → FieldWrite},
      ((write reg1).field, (write reg1).clears) ∈ undoneFields →
      ∀ w ∈ (inputRegister input reg1 reg2).map write, (w.field, w.clears) ∈ undoneFields := by
    intro reg1 reg2 write hwrite w hw
    unfold inputRegister at hw
    -- the second input is not asked for
    rw [if_neg hinput] at hw
    split_ifs at hw <;> cases hw
    exact hwrite
  have hattr : ∀ n : Nat, n < 100 → (attr - 1).toNat = n → attr = BitVec.ofNat 64 (n + 1) := by
    intro n hn heq
    have hsub : attr - 1 = BitVec.ofNat 64 n := by
      apply BitVec.eq_of_toNat_eq
      rw [heq, BitVec.toNat_ofNat, Nat.mod_eq_of_lt (by omega)]
    bv_omega
  unfold attributeWrite
  generalize hk : (attr - 1).toNat = k
  match k with
  | 0 => exact hfirst (by decide : (FpField.brightness vpxFpBrightness1, false) ∈ undoneFields)
  | 1 => exact hfirst (by decide : (FpField.contrast vpxFpContrast1, false) ∈ undoneFields)
  | 3 =>
      intro w hw
      cases hw
      exact (by decide : (FpField.hue, false) ∈ undoneFields)
  | 4 | 9 => exact hfirst (by decide : (FpField.sharpness vpxFpPeaking1, false) ∈ undoneFields)
  | 5 => exact hfirst (by decide : (FpField.coring vpxFpPeaking1, false) ∈ undoneFields)
  | 7 => exact absurd (hattr 7 (by decide) hk) hluma
  | 8 => exact absurd (hattr 8 (by decide) hk) hmode
  | 2 | 6 | n + 10 =>
      intro w hw
      cases hw

/-- The field writes of a call that is undone. -/
theorem VpxCall.writes_undone {cardType : U16} {call : VpxCall}
    (hundone : (RunCall.vpx call).Undone cardType) :
    ∀ w ∈ call.writes, (w.field, w.clears) ∈ undoneFields := by
  cases call with
  | setVideoStandard standard =>
      intro w hw
      unfold VpxCall.writes at hw
      cases hbits : standardBits standard with
      | none =>
          simp only [hbits] at hw
          cases hw
      | some bits =>
          simp only [hbits, List.mem_singleton] at hw
          rw [hw]
          exact (by decide : (FpField.standard, true) ∈ undoneFields)
  | setVideoSource lumaSource chromaSource =>
      intro w hw
      unfold VpxCall.writes at hw
      cases hluma : lumaInput lumaSource with
      | none =>
          simp only [hluma] at hw
          cases hw
      | some tmp2 =>
          simp only [hluma] at hw
          split_ifs at hw
          · rw [List.mem_cons, List.mem_singleton] at hw
            rcases hw with heq | heq
            · rw [heq]
              exact (by decide : (FpField.source, true) ∈ undoneFields)
            · rw [heq]
              exact (by decide : (FpField.sVideo, true) ∈ undoneFields)
          · cases hw
  | setVideoAttribute input attr value =>
      obtain ⟨hinput, hluma, hmode, -⟩ := hundone
      intro w hw
      exact attributeWrite_undone hinput hluma hmode value w (Option.mem_toList.mp hw)

/-- What is known of the standard after a list of operations. -/
def readyAfter : Bool → List SetupOp → Bool
  | ready, [] => ready
  | _, .vpx (.setVideoStandard standard) :: ops => readyAfter (standard ≠ 2) ops
  | ready, _ :: ops => readyAfter ready ops

/-- The table has all bits that calls that are undone can set. -/
structure RunProbes (cardType : U16) : Prop where
  notJanus : cardType ≠ cardJanus
  ready : readyAfter false (initCard cardType) = true
  lines : (linesMasks cardType).Within (initTable cardType)
  clock : (clockMasks cardType (.setSamplingClock 0)).Within (initTable cardType)
  audio : LinesOnVpx cardType → (audioLineMasks 1).Within (initTable cardType)
  vip : (SetupMasks.mk vipMasks [] []).Within (initTable cardType)
  power : (SetupMasks.mk [] [] [(vpxI2cLlc, 0xff)]).Within (initTable cardType)
  saturation : (SetupMasks.mk [] [(vpxFpAccSat, 0xfff)] []).Within (initTable cardType)
  fields : ∀ field ∈ undoneFields, ∃ word ∈ (initTable cardType).fp,
    word.key = field.1.reg ∧ FieldWrite.mask ⟨field.1, 0, field.2⟩ &&& ~~~word.mask = 0

theorem runProbes {cardType : U16} (hcard : cardInit cardType = .myhd) :
    RunProbes cardType := by
  have h100a : RunProbes cardMyhdMdp100a := by constructor <;> decide +kernel
  have h100 : RunProbes cardMyhdMdp100 := by constructor <;> decide +kernel
  have h110 : RunProbes cardMyhdMdp110 := by constructor <;> decide +kernel
  have h120 : RunProbes cardMyhdMdp120 := by constructor <;> decide +kernel
  have h130 : RunProbes cardMyhdMdp130 := by constructor <;> decide +kernel
  exact forall_initCards h100a h100 h110 h120 h130 hcard

/-- Field writes of a call that is undone. -/
theorem vpxMasks_within {cardType : U16} (hprobes : RunProbes cardType) {call : VpxCall}
    (hundone : (RunCall.vpx call).Undone cardType) :
    (SetupMasks.mk [] call.masks []).Within (initTable cardType) := by
  refine ⟨WordsHave.nil _, ?_, WordsHave.nil _⟩
  intro m hm
  obtain ⟨write, hwrite, rfl⟩ := List.mem_map.mp hm
  exact hprobes.fields _ (call.writes_undone hundone write hwrite)

/-- A source is an operation that is undone. -/
theorem setVideoSource_within {cardType : U16} (hprobes : RunProbes cardType) (a b : U8) :
    ∀ op ∈ tl880SetVideoSource cardType a b, (op.masks cardType).Within (initTable cardType) := by
  intro op hop
  rw [tl880SetVideoSource, if_neg hprobes.notJanus] at hop
  rw [List.mem_singleton.mp hop]
  exact vpxMasks_within hprobes trivial

theorem RunCall.Undone.within {cardType : U16} (hprobes : RunProbes cardType) {call : RunCall}
    (hundone : call.Undone cardType) :
    ∀ op ∈ call.ops cardType, (op.masks cardType).Within (initTable cardType) := by
  cases call with
  | clock call =>
      intro op hop
      rw [List.mem_singleton.mp hop]
      cases call with
      | setGpio call =>
          simp only [SetupOp.masks, clockMasks, gpioMasks]
          split_ifs with haudio
          -- the audio output is switched on, and so no register beyond the table is written
          · have hstate : call.2 ≠ 0 := hundone haudio.1 haudio.2
            rw [audioLineMasks, if_neg hstate]
            exact hprobes.audio haudio.1
          · exact hprobes.lines
      | setSamplingClock rate => exact hprobes.clock
      | setSamplerate rate => exact hprobes.lines
  | setVip vipMode =>
      intro op hop
      rw [List.mem_singleton.mp hop]
      exact hprobes.vip
  | setPower status =>
      intro op hop
      rw [List.mem_singleton.mp hop]
      exact hprobes.power
  | setNtscInput input =>
      simp only [RunCall.ops, tl880SetNtscInput]
      split_ifs
      · exact setVideoSource_within hprobes 3 4
      · exact setVideoSource_within hprobes 1 5
      · exact setVideoSource_within hprobes 2 4
  | vpx call =>
      intro op hop
      rw [List.mem_singleton.mp hop]
      cases call with
      | setVideoStandard standard => exact vpxMasks_within hprobes hundone
      | setVideoSource lumaSource chromaSource => exact vpxMasks_within hprobes hundone
      | setVideoAttribute input attr value =>
          simp only [SetupOp.masks]
          split_ifs
          · exact hprobes.saturation
          · exact vpxMasks_within hprobes hundone

theorem saturationReady_append (ready : Bool) (ops ops' : List SetupOp) :
    saturationReady ready (ops ++ ops') =
      (saturationReady ready ops && saturationReady (readyAfter ready ops) ops') := by
  induction ops generalizing ready with
  | nil => rfl
  | cons op ops ih =>
      cases op with
      | vpx call =>
          cases call with
          | setVideoStandard standard => exact ih _
          | setVideoSource lumaSource chromaSource => exact ih _
          | setVideoAttribute input attr value =>
              simp only [List.cons_append, saturationReady, readyAfter, ih, Bool.and_assoc]
      | _ => exact ih _

/-- A call that is undone keeps the standard off SECAM. -/
theorem RunCall.Undone.ready {cardType : U16} (hjanus : cardType ≠ cardJanus) {call : RunCall}
    (hundone : call.Undone cardType) :
    saturationReady true (call.ops cardType) = true ∧
      readyAfter true (call.ops cardType) = true := by
  cases call with
  | setNtscInput input =>
      simp only [RunCall.ops, tl880SetNtscInput, tl880SetVideoSource, if_neg hjanus]
      split_ifs <;> exact ⟨rfl, rfl⟩
  | vpx call =>
      cases call with
      | setVideoStandard standard => exact ⟨rfl, decide_eq_true hundone⟩
      | setVideoSource lumaSource chromaSource => exact ⟨rfl, rfl⟩
      | setVideoAttribute input attr value =>
          simp only [RunCall.ops, saturationReady, readyAfter, Bool.or_true, Bool.and_true,
            and_self]
  | clock call => exact ⟨rfl, rfl⟩
  | setVip vipMode => exact ⟨rfl, rfl⟩
  | setPower status => exact ⟨rfl, rfl⟩

theorem RunCall.Undone.proper {cardType : U16} (hjanus : cardType ≠ cardJanus) {call : RunCall}
    (hundone : call.Undone cardType) : ∀ op ∈ call.ops cardType, op.Proper := by
  cases call with
  | setNtscInput input =>
      intro op hop
      have hattr : ∀ source : VpxCall, (∃ a b, source = .setVideoSource a b) →
          (SetupOp.vpx source).Proper := by
        rintro source ⟨a, b, rfl⟩
        trivial
      simp only [RunCall.ops, tl880SetNtscInput, tl880SetVideoSource, if_neg hjanus,
        List.nil_append] at hop
      split_ifs at hop <;> rw [List.mem_singleton.mp hop] <;> exact hattr _ ⟨_, _, rfl⟩
  | vpx call =>
      intro op hop
      rw [List.mem_singleton.mp hop]
      cases call with
      | setVideoStandard standard => trivial
      | setVideoSource lumaSource chromaSource => trivial
      | setVideoAttribute input attr value => exact hundone.2.2.2
  | clock call =>
      intro op hop
      rw [List.mem_singleton.mp hop]
      trivial
  | setVip vipMode =>
      intro op hop
      rw [List.mem_singleton.mp hop]
      trivial
  | setPower status =>
      intro op hop
      rw [List.mem_singleton.mp hop]
      trivial

/-- The bits of the GPIO lines are none of the lines of bus 0. -/
theorem linesMasks_keepsBus (cardType : U16) : KeepsBus (linesMasks cardType) := by
  unfold linesMasks lineMasks
  split_ifs <;> decide

/-- Calls that are made while the card is in use leave the lines of bus 0. -/
theorem RunCall.keepsBus (cardType : U16) (call : RunCall) :
    ∀ op ∈ call.ops cardType, KeepsBus (op.masks cardType) := by
  have hvpx : ∀ fp direct, KeepsBus ⟨[], fp, direct⟩ := fun _ _ _ hm => absurd hm List.not_mem_nil
  have hsource : ∀ a b, ∀ op ∈ tl880SetVideoSource cardType a b, KeepsBus (op.masks cardType) := by
    intro a b op hop
    rcases List.mem_append.mp hop with hop | hop
    · by_cases hjanus : cardType = cardJanus
      · rw [if_pos hjanus] at hop
        rw [List.mem_singleton.mp hop]
        exact hvpx _ _
      · rw [if_neg hjanus] at hop
        exact absurd hop List.not_mem_nil
    · rw [List.mem_singleton.mp hop]
      exact hvpx _ _
  intro op hop
  cases call with
  | clock call =>
      rw [List.mem_singleton.mp hop]
      cases call with
      | setGpio call =>
          simp only [SetupOp.masks, clockMasks, gpioMasks]
          split_ifs
          · unfold audioLineMasks
            split_ifs <;> decide
          · exact linesMasks_keepsBus cardType
      | setSamplingClock rate =>
          simp only [SetupOp.masks, clockMasks]
          split_ifs
          · exact hvpx _ _
          · exact linesMasks_keepsBus cardType
      | setSamplerate rate => exact linesMasks_keepsBus cardType
  | setVip vipMode =>
      rw [List.mem_singleton.mp hop]
      exact (by decide : KeepsBus ⟨vipMasks, [], []⟩)
  | setPower status =>
      rw [List.mem_singleton.mp hop]
      exact hvpx _ _
  | setNtscInput input =>
      simp only [RunCall.ops, tl880SetNtscInput] at hop
      split_ifs at hop
      · exact hsource 3 4 op hop
      · exact hsource 1 5 op hop
      · exact hsource 2 4 op hop
  | vpx call =>
      rw [List.mem_singleton.mp hop]
      cases call with
      | setVideoAttribute input attr value =>
          simp only [SetupOp.masks]
          split_ifs <;> exact hvpx _ _
      | setVideoStandard standard => exact hvpx _ _
      | setVideoSource lumaSource chromaSource => exact hvpx _ _

/-- What comes after the beginning of `tl880_init_myhd` leaves them too. -/
theorem initRest_keepsBus {cardType : U16} (hcard : cardInit cardType = .myhd) :
    ∀ op ∈ initMyhdRest cardType ++ tl880InitNtscAudio ++ tl880SetNtscInput cardType 0,
      KeepsBus (op.masks cardType) := by
  have h100a : ∀ op ∈ initMyhdRest cardMyhdMdp100a ++ tl880InitNtscAudio ++
      tl880SetNtscInput cardMyhdMdp100a 0, KeepsBus (op.masks cardMyhdMdp100a) := by decide +kernel
  have h100 : ∀ op ∈ initMyhdRest cardMyhdMdp100 ++ tl880InitNtscAudio ++
      tl880SetNtscInput cardMyhdMdp100 0, KeepsBus (op.masks cardMyhdMdp100) := by decide +kernel
  have h110 : ∀ op ∈ initMyhdRest cardMyhdMdp110 ++ tl880InitNtscAudio ++
      tl880SetNtscInput cardMyhdMdp110 0, KeepsBus (op.masks cardMyhdMdp110) := by decide +kernel
  have h120 : ∀ op ∈ initMyhdRest cardMyhdMdp120 ++ tl880InitNtscAudio ++
      tl880SetNtscInput cardMyhdMdp120 0, KeepsBus (op.masks cardMyhdMdp120) := by decide +kernel
  have h130 : ∀ op ∈ initMyhdRest cardMyhdMdp130 ++ tl880InitNtscAudio ++
      tl880SetNtscInput cardMyhdMdp130 0, KeepsBus (op.masks cardMyhdMdp130) := by decide +kernel
  exact forall_initCards (P := fun cardType =>
    ∀ op ∈ initMyhdRest cardType ++ tl880InitNtscAudio ++ tl880SetNtscInput cardType 0,
      KeepsBus (op.masks cardType)) h100a h100 h110 h120 h130 hcard

/-- A run of calls is one list of operations. -/
theorem foldl_runCall (cardType : U16) (calls : List RunCall) (s : CardSetup) :
    calls.foldl (runCall cardType) s =
      (calls.flatMap fun call => call.ops cardType).foldl (setupOp cardType) s := by
  induction calls generalizing s with
  | nil => rfl
  | cons call calls ih =>
      rw [List.foldl_cons, ih, List.flatMap_cons, List.foldl_append, runCall]

/-- Calls that are undone, one after the other. -/
theorem runCalls_ready {cardType : U16} (hjanus : cardType ≠ cardJanus) {calls : List RunCall}
    (hundone : ∀ call ∈ calls, call.Undone cardType) :
    saturationReady true (calls.flatMap fun call => call.ops cardType) = true := by
  induction calls with
  | nil => rfl
  | cons call calls ih =>
      obtain ⟨hready, hafter⟩ := (hundone call List.mem_cons_self).ready hjanus
      rw [List.flatMap_cons, saturationReady_append, hready, hafter, Bool.true_and]
      exact ih fun c hc => hundone c (List.mem_cons_of_mem _ hc)

/-- Before the first transfer the lines of bus 0 are released, and they stay so in every state that
follows, so that the end of a transfer (`stopTransfer_of_released`) changes no register. -/
theorem bus_released {cardType : U16} (hcard : cardInit cardType = .myhd) {s : CardSetup}
    (hmapped : s.Mapped) {calls : List RunCall} (hundone : ∀ call ∈ calls, call.Undone cardType)
    {before after : List SetupOp}
    (hops : initMyhdRest cardType ++ tl880InitNtscAudio ++ tl880SetNtscInput cardType 0 ++
      (calls.flatMap fun call => call.ops cardType) = before ++ after) :
    BusReleased ((initLines cardType ++ before).foldl (setupOp cardType) s).regs := by
  have hinit := (initProbes hcard).proper
  have hsplit : initCard cardType = initLines cardType ++
      (initMyhdRest cardType ++ tl880InitNtscAudio ++ tl880SetNtscInput cardType 0) := by
    simp only [initCard, tl880InitMyhd, List.append_assoc]
  have hlines : ∀ op ∈ initLines cardType, op.Proper := by
    intro op hop
    exact hinit op (hsplit ▸ List.mem_append_left _ hop)
  have hbefore : ∀ op ∈ before, op.Proper ∧ KeepsBus (op.masks cardType) := by
    intro op hop
    have hmem := List.mem_append_left after hop
    rw [← hops] at hmem
    rcases List.mem_append.mp hmem with hmem | hmem
    · exact ⟨hinit op (hsplit ▸ List.mem_append_right _ hmem), initRest_keepsBus hcard op hmem⟩
    · obtain ⟨call, hcall, hop⟩ := List.mem_flatMap.mp hmem
      exact ⟨(hundone call hcall).proper (runProbes hcard).notJanus op hop,
        call.keepsBus cardType op hop⟩
  rw [List.foldl_append]
  exact setupOps_released hbefore (setupOps_mapped hlines hmapped)
    (initLines_released hlines hmapped)

/-- A bit that the table has is set. -/
theorem PatchIs.ne_none {p : Patch SetupBit Bool} {table : SetupTable} (h : PatchIs p table)
    {a : SetupBit} (ha : table.Has a) : p a ≠ none := by
  rcases a with ⟨key, i⟩ | ⟨key, i⟩ | ⟨key, i⟩
  · obtain ⟨word, hword, rfl, hbit⟩ := ha
    rw [h.regs word hword i (BitVec.lt_of_getLsbD hbit), if_pos hbit]
    exact Option.some_ne_none _
  · obtain ⟨word, hword, rfl, hbit⟩ := ha
    rw [h.fp word hword i (BitVec.lt_of_getLsbD hbit), if_pos hbit]
    exact Option.some_ne_none _
  · obtain ⟨word, hword, rfl, hbit⟩ := ha
    rw [h.direct word hword i (BitVec.lt_of_getLsbD hbit), if_pos hbit]
    exact Option.some_ne_none _

/-- All registers hold the same. -/
structure SameRegisters (s t : CardSetup) : Prop where
  regs : ∀ reg, tl880ReadRegister s.regs reg = tl880ReadRegister t.regs reg
  vpx : s.vpx = t.vpx
  direct : s.direct = t.direct

theorem SameRegisters.of_bit {s t : CardSetup} (h : s.bit = t.bit) : SameRegisters s t where
  regs reg := BitVec.eq_of_getLsbD_eq fun i _ => congrFun h (.reg reg i)
  vpx := by
    funext fpaddr
    exact BitVec.eq_of_getLsbD_eq fun i _ => congrFun h (.fp fpaddr i)
  direct := by
    funext reg
    exact BitVec.eq_of_getLsbD_eq fun i _ => congrFun h (.direct reg i)

/-- Bringing up the card again undoes whatever has been called since, SECAM, the second input
and the like apart. -/
theorem bringUp_again {cardType : U16} (hcard : cardInit cardType = .myhd) {s : CardSetup}
    (hmapped : s.Mapped) {calls : List RunCall}
    (hundone : ∀ call ∈ calls, call.Undone cardType) :
    SameRegisters (bringUp cardType (calls.foldl (runCall cardType) (bringUp cardType s)))
      (bringUp cardType s) := by
  have hinit := initProbes hcard
  have hrun := runProbes hcard
  let ops := calls.flatMap fun call => call.ops cardType
  have hops : ∀ op ∈ initCard cardType ++ ops,
      op.Proper ∧ (op.masks cardType).Within (initTable cardType) := by
    intro op hop
    rcases List.mem_append.mp hop with hop | hop
    · exact ⟨hinit.proper op hop, hinit.within op hop⟩
    · obtain ⟨call, hcall, hop⟩ := List.mem_flatMap.mp hop
      have hcallUndone := hundone call hcall
      exact ⟨hcallUndone.proper hrun.notJanus op hop, hcallUndone.within hrun op hop⟩
  have hready : saturationReady false (initCard cardType ++ ops) = true := by
    rw [saturationReady_append, hinit.ready, hrun.ready, Bool.true_and]
    exact runCalls_ready hrun.notJanus hundone
  -- the two parts, the first bringing up and the calls, are one patch of bits of the table
  obtain ⟨q, hq⟩ := setupOps_sets (fun op hop => (hops op hop).1) hready
  have hafter : calls.foldl (runCall cardType) (bringUp cardType s) =
      (initCard cardType ++ ops).foldl (setupOp cardType) s := by
    rw [foldl_runCall, List.foldl_append, bringUp]
  have hpre : s.Ready (NotSecam false) := ⟨hmapped, nofun⟩
  obtain ⟨p, hp⟩ := bringUp_shows hcard
  have htable := bringUp_patchIs hcard hp
  apply SameRegisters.of_bit
  rw [hafter, hp.view_eq_iff (hq.keep s hpre).1 hmapped]
  -- what the second bringing up does not set is not in the table, and so was not changed
  intro a hnone
  have houtside : q a = none := by
    apply hq.outside
    rintro ⟨op, hop, ha⟩
    exact htable.ne_none ((hops op hop).2.has ha) hnone
  rw [hq.shows s hpre, apply_of_none houtside]

/-- An MDP-120 that has been switched to another input and whose picture has been changed. -/
theorem bringUp_again_mdp120 :
    cardInit cardMyhdMdp120 = .myhd ∧ blankCard.Mapped ∧
      SameRegisters
        (bringUp cardMyhdMdp120
          ([.setNtscInput 1, .vpx (.setVideoAttribute 1 3 64), .setVip 2,
              .clock (.setGpio (3, 1))].foldl (runCall cardMyhdMdp120)
            (bringUp cardMyhdMdp120 blankCard)))
        (bringUp cardMyhdMdp120 blankCard) := by
  have hcard : cardInit cardMyhdMdp120 = .myhd := rfl
  have hmapped : blankCard.Mapped := rfl
  refine ⟨hcard, hmapped, bringUp_again hcard hmapped ?_⟩
  intro call hcall
  simp only [List.mem_cons, List.not_mem_nil, or_false] at hcall
  rcases hcall with rfl | rfl | rfl | rfl
  · trivial
  · exact ⟨by decide, by decide, by decide, fun _ => by decide⟩
  · trivial
  · intro _ hline
    exact absurd hline (by decide)

end Tl880
