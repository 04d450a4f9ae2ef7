import Tl880.Lib.AccessProgram
import Tl880.Vpx

/-!
# The settings of the VPX

The model of `tl880_vpx_set_video_standard`, `tl880_vpx_set_video_source` and
`tl880_vpx_set_video_attribute` of `driver/tl880vpx.c`, as programs over the FP
registers.  A read is answered with a `u16`, of which 0xffff says that the read
failed, and a write with an `int`; `fpOnBus` is such a program on the bus of a card.
An `int` is a 32-bit word.  The latch bits, which are computed and not used, and the
mantissa for Cb, which is computed and not written, are left out.
-/

namespace Tl880

open AccessProgram AccessProgram.Program

/-! ## The driver -/

def vpxFpSdt : U16 := 0x20
def vpxFpInsel : U16 := 0x21
def vpxFpAccSat : U16 := 0x30
def vpxFpAccb : U16 := 0x32
def vpxFpAccr : U16 := 0x33
def vpxFpTint : U16 := 0xdc
def vpxFpPeaking1 : U16 := 0x126
def vpxFpBrightness1 : U16 := 0x127
def vpxFpContrast1 : U16 := 0x128
def vpxFpPeaking2 : U16 := 0x130
def vpxFpBrightness2 : U16 := 0x131
def vpxFpContrast2 : U16 := 0x132

/-- A program over the FP registers that returns an `int`. -/
abbrev FpProgram := Program U16 U16 U16 U32 U32

/-- The test of a value that was read, `tmp == (u16)-1`. -/
def readFailed (tmp : U16) : U32 := if tmp = 0xffff then 1 else 0

/-- `gwVPX_Cache`, which nothing changes -/
def gwVpxCache : U16 := 0

/-- The static `cachefirst` of `tl880_vpx_set_video_standard`, and the card's
`vpx_video_standard`. -/
structure VpxState where
  cachefirst : Bool
  vpxVideoStandard : U32

/-- The select bits of a standard; `none` for the one that is not written. -/
def standardBits (standard : U32) : Option U16 :=
  if standard = 15 then none
  else if 1#32 ≤ standard ∧ standard ≤ 7#32 ∨ standard = 9 then some (standard.setWidth 16)
  else some 0

/-- The part of `tl880_vpx_set_video_standard` that accesses the chip. -/
def selectStandard (standard : U32) : FpProgram :=
  .read vpxFpSdt fun tmp =>
    if tmp = 0xffff then .done 0xffffffff
    else
      match standardBits standard with
      | none => .done 4
      | some bits => .write vpxFpSdt ((tmp &&& 0x7f0) ||| bits) .done

/-- `tl880_vpx_set_video_standard` -/
def tl880VpxSetVideoStandard (s : VpxState) (standard : U32) : VpxState × FpProgram :=
  if gwVpxCache ≠ 0 ∧ s.cachefirst = true ∧ s.vpxVideoStandard = standard then (s, .done 0)
  else (⟨true, standard⟩, selectStandard standard)

/-- The switch on `luma_source`. -/
def lumaInput (lumaSource : U32) : Option U32 :=
  if lumaSource = 1 then some 2
  else if lumaSource = 2 then some 1
  else if lumaSource = 3 then some 0
  else none

/-- The chroma sources that are accepted. -/
def ChromaValid (chromaSource : U8) : Prop :=
  chromaSource = 1 ∨ chromaSource = 4 ∨ chromaSource = 5

instance : DecidablePred ChromaValid := fun _ => inferInstanceAs (Decidable (_ ∨ _))

/-- The bits of the standard register with the latch bit clear, set for S-video or for
composite video. -/
def sourceBits (chromaSource : U8) (tmp1 : U32) : U32 :=
  let tmp1 := tmp1 &&& 0x7ff
  if chromaSource &&& 1 ≠ 0 then tmp1 ||| 0x40 else tmp1 &&& ~~~0x40

/-- The part of `tl880_vpx_set_video_source` that accesses the chip. -/
def selectSource (tmp2 : U32) (chromaSource : U8) : FpProgram :=
  let tmp2 : U32 := tmp2 ||| (chromaSource &&& 4).setWidth 32
  -- this read is not tested
  .read vpxFpInsel fun tmp1 =>
  .write vpxFpInsel (((tmp1.setWidth 32 &&& 0x7f8) ||| tmp2).setWidth 16) fun retval =>
  .read vpxFpSdt fun tmp1 =>
  let retval := retval ||| readFailed tmp1
  .write vpxFpSdt ((sourceBits chromaSource (tmp1.setWidth 32)).setWidth 16) fun result =>
  .done (retval ||| result)

/-- `tl880_vpx_set_video_source` -/
def tl880VpxSetVideoSource (lumaSource : U32) (chromaSource : U8) : FpProgram :=
  match lumaInput lumaSource with
  | none => .done 2
  | some tmp2 => if ChromaValid chromaSource then selectSource tmp2 chromaSource else .done 2

/-- Read a register, test what was read, and write it back updated. -/
def updateFp (fpreg : U16) (update : U32 → U32) : FpProgram :=
  .read fpreg fun tmp =>
  let retval := readFailed tmp
  .write fpreg ((update (tmp.setWidth 32)).setWidth 16) fun result => .done (retval ||| result)

/-- The choice of `fpreg` by the input. -/
def withInput (input : U64) (fpreg1 fpreg2 : U16) (program : U16 → FpProgram) : FpProgram :=
  if input = 1 then program fpreg1
  else if input = 2 then program fpreg2
  else .done 2

/-- The three writes of the saturation. -/
def writeSaturation (sat accr accb : U16) : FpProgram :=
  .write vpxFpAccSat sat fun result =>
  .write vpxFpAccr accr fun result' =>
  .write vpxFpAccb accb fun result'' => .done (result ||| result' ||| result'')

/-- The attribute 3 of `tl880_vpx_set_video_attribute`. -/
def setSaturation (vpxVideoStandard : U32) (value : U8) : FpProgram :=
  let value : U32 := value.setWidth 32
  -- in one expression of the source, whose order the compiler chooses
  if value = 0 then writeSaturation 0 0x700 0x700
  else if vpxVideoStandard ≠ 2 then .write vpxFpAccSat ((value <<< 4).setWidth 16) .done
  else
    let above := 0x80#32 < value
    let crMant := if above then (value - 0x80) * 0xd8 / 0x100 + 0x6c else (value &&& 0xd8) / 0x80
    let crExp : U32 := if above then 4 else 5
    let cbExp : U32 := if above then 3 else 4
    -- both multipliers get the mantissa for Cr
    writeSaturation 0 (((crExp <<< 8) ||| crMant).setWidth 16)
      (((cbExp <<< 8) ||| crMant).setWidth 16)

/-- The two bits of attribute 9, of which 0 and 1 are swapped. -/
def swapLow (tmp2 : U32) : U32 := if tmp2 = 0 then 1 else if tmp2 = 1 then 0 else tmp2

/-- `tl880_vpx_set_video_attribute` -/
def tl880VpxSetVideoAttribute (vpxVideoStandard : U32) (input attr : U64) (value : U8) :
    FpProgram :=
  let wide : U32 := value.setWidth 32
  match (attr - 1).toNat with
  | 0 =>
      withInput input vpxFpBrightness1 vpxFpBrightness2 fun fpreg =>
        .write fpreg ((wide - 0x80).setWidth 16) .done
  | 1 =>
      withInput input vpxFpContrast1 vpxFpContrast2 fun fpreg =>
        updateFp fpreg fun tmp => (wide >>> 2) ||| (tmp &&& 0xfc0)
  | 2 => setSaturation vpxVideoStandard value
  | 3 => .write vpxFpTint (((wide <<< 2) - 512).setWidth 16) .done
  | 4 | 9 =>
      withInput input vpxFpPeaking1 vpxFpPeaking2 fun fpreg =>
        updateFp fpreg fun tmp => ((wide >>> 5) <<< 2) ||| (tmp &&& 0xfe3)
  | 5 =>
      withInput input vpxFpPeaking1 vpxFpPeaking2 fun fpreg =>
        updateFp fpreg fun tmp => (tmp &&& (0xffc : U32)) ||| (wide >>> 6)
  | 6 => .done 4
  | 7 => updateFp vpxFpInsel fun tmp => ((wide >>> 6) <<< 5) ||| (tmp &&& 0x79f)
  | 8 =>
      withInput input vpxFpContrast1 vpxFpContrast2 fun fpreg =>
        updateFp fpreg fun tmp => (swapLow (wide >>> 6) <<< 6) ||| (tmp &&& 0xf3f)
  | _ => .done 2

/-- A change of a setting. -/
inductive VpxCall
  | setVideoStandard (standard : U32)
  | setVideoSource (lumaSource : U32) (chromaSource : U8)
  | setVideoAttribute (input attr : U64) (value : U8)

/-- What a call does with the chip. -/
def vpxProgram (s : VpxState) : VpxCall → FpProgram
  | .setVideoStandard standard => (tl880VpxSetVideoStandard s standard).2
  | .setVideoSource lumaSource chromaSource => tl880VpxSetVideoSource lumaSource chromaSource
  | .setVideoAttribute input attr value =>
      tl880VpxSetVideoAttribute s.vpxVideoStandard input attr value

/-- A program on the bus of a card. -/
def fpOnBus {World : Type*} (vpx : Vpx World) (p : FpProgram) (w : World) :
    Trace U16 U16 U32 × World :=
  p.exec (tl880VpxReadFp vpx)
    (fun fpaddr data w =>
      let (result, w) := tl880VpxWriteFp vpx fpaddr data w
      (BitVec.ofInt 32 result, w)) w

/-- What happens on a bus is a run of the program. -/
theorem fpOnBus_eq_run {World : Type*} (vpx : Vpx World) (p : FpProgram) (w : World) :
    ∃ o, (fpOnBus vpx p w).1 = p.run o :=
  exec_eq_runFrom _ _ p w 0 0

/-! ## Failed reads -/

/-- A read returns a 12-bit value or fails. -/
def FpReply (reply : U16) : Prop := reply < 0x1000#16 ∨ reply = 0xffff

/-- If a read fails, the program returns nonzero and no write depends on what the
read returned. -/
def FailedReadsHarmless (p : FpProgram) (o : Outcomes U16 U32) : Prop :=
  ∀ m < (p.run o).reads, o.replies m = 0xffff →
    (p.run o).result ≠ 0 ∧ ∀ n, ¬ p.DependsOn FpReply o m n

/-- The reads a call's arguments make it perform. -/
def VpxCall.fpReads : VpxCall → Nat
  | .setVideoStandard _ => 1
  | .setVideoSource lumaSource chromaSource =>
      if lumaInput lumaSource ≠ none ∧ ChromaValid chromaSource then 2 else 0
  | .setVideoAttribute input attr _ =>
      match (attr - 1).toNat with
      | 1 | 4 | 5 | 8 | 9 => if input = 1 ∨ input = 2 then 1 else 0
      | 7 => 1
      | _ => 0

/-- The call sets the standard. -/
def VpxCall.IsStandard : VpxCall → Prop
  | .setVideoStandard _ => True
  | _ => False

/-- Every read the call performs succeeds. -/
def VpxCall.ReadsSucceed (call : VpxCall) (o : Outcomes U16 U32) : Prop :=
  ∀ m < call.fpReads, o.replies m ≠ 0xffff

theorem failedReadsHarmless_of_succeed {p : FpProgram} {o : Outcomes U16 U32}
    (hsucceed : ∀ m < (p.run o).reads, o.replies m ≠ 0xffff) : FailedReadsHarmless p o :=
  fun m hm hfailed => absurd hfailed (hsucceed m hm)

/-- A program without reads has none that can fail. -/
theorem harmless_iff_of_no_reads {p : FpProgram} {o : Outcomes U16 U32}
    (hreads : (p.run o).reads = 0) :
    FailedReadsHarmless p o ↔ ∀ m < 0, o.replies m ≠ 0xffff := by
  apply iff_of_true
  · apply failedReadsHarmless_of_succeed
    rw [hreads]
    intro m hm
    exact absurd hm (Nat.not_lt_zero m)
  · intro m hm
    exact absurd hm (Nat.not_lt_zero m)

/-- A read that fails does harm when 0 would have made a write another one. -/
theorem not_harmless_of_write {p : FpProgram} {o : Outcomes U16 U32} {m n : Nat}
    (hm : m < (p.run o).reads) (hfailed : o.replies m = 0xffff) {w : U16 × U16}
    (hwrite : (p.run o).writes[n]? = some w)
    (hother : (p.run (o.setReply m 0)).writes[n]? ≠ some w) : ¬ FailedReadsHarmless p o := by
  intro hharmless
  apply (hharmless m hm hfailed).2 n
  exact ⟨w, hwrite, 0, Or.inl (by decide), hother⟩

/-- A register that keeps a bit of what was read shows what was read. -/
theorem masked_ne {fixed mask tmp tmp' : U32} {i : Nat} (hi : i < 16)
    (hmask : mask.getLsbD i = true) (hfixed : fixed.getLsbD i = false)
    (hone : tmp.getLsbD i = true) (hzero : tmp'.getLsbD i = false) :
    ((fixed ||| (tmp &&& mask)).setWidth 16 : U16) ≠ (fixed ||| (tmp' &&& mask)).setWidth 16 := by
  intro heq
  have hbit := congrArg (fun data => data.getLsbD i) heq
  simp only [BitVec.getLsbD_setWidth, BitVec.getLsbD_or, BitVec.getLsbD_and, hi, hmask, hfixed,
    hone, hzero] at hbit
  exact absurd hbit (by decide)

/-- Updating a register does harm exactly when the read fails. -/
theorem updateFp_harmless_iff (fpreg : U16) {update : U32 → U32}
    (hshows : ((update 0xffff).setWidth 16 : U16) ≠ (update 0).setWidth 16)
    (o : Outcomes U16 U32) :
    FailedReadsHarmless (updateFp fpreg update) o ↔ ∀ m < 1, o.replies m ≠ 0xffff := by
  constructor
  · intro hharmless m hm hfailed
    have hzero : m = 0 := Nat.lt_one_iff.mp hm
    rw [hzero] at hfailed
    refine not_harmless_of_write (Nat.lt_one_iff.mpr rfl) hfailed
      (n := 0) (w := (fpreg, (update 0xffff).setWidth 16)) ?_ ?_ hharmless
    · change some (fpreg, ((update ((o.replies 0).setWidth 32)).setWidth 16 : U16)) = _
      rw [hfailed]
      rfl
    · change some (fpreg, ((update 0).setWidth 16 : U16)) ≠ _
      intro heq
      cases hshows (congrArg Prod.snd (Option.some.inj heq)).symm
  · exact fun hsucceed => failedReadsHarmless_of_succeed hsucceed

/-- The update of a register that keeps bit `i` of it. -/
theorem masked_harmless_iff (fpreg : U16) (fixed mask : U32) (i : Nat) (hi : i < 16)
    (hmask : mask.getLsbD i = true) (hfixed : fixed.getLsbD i = false)
    (hone : (0xffff : U32).getLsbD i = true) (o : Outcomes U16 U32) :
    FailedReadsHarmless (updateFp fpreg fun tmp => fixed ||| (tmp &&& mask)) o ↔
      ∀ m < 1, o.replies m ≠ 0xffff :=
  updateFp_harmless_iff fpreg (masked_ne hi hmask hfixed hone BitVec.getLsbD_zero) o

/-- The input chooses a register, or there is no such input. -/
theorem withInput_cases (input : U64) (fpreg1 fpreg2 : U16) (program : U16 → FpProgram) :
    ((input = 1 ∨ input = 2) ∧
        ∃ fpreg, withInput input fpreg1 fpreg2 program = program fpreg) ∨
      (¬ (input = 1 ∨ input = 2) ∧ withInput input fpreg1 fpreg2 program = .done 2) := by
  unfold withInput
  by_cases hone : input = 1
  · exact Or.inl ⟨Or.inl hone, fpreg1, if_pos hone⟩
  by_cases htwo : input = 2
  · left
    refine ⟨Or.inr htwo, fpreg2, ?_⟩
    rw [if_neg hone, if_pos htwo]
  · right
    refine ⟨not_or.mpr ⟨hone, htwo⟩, ?_⟩
    rw [if_neg hone, if_neg htwo]

/-- A program that uses a register of its input. -/
theorem withInput_harmless_iff {input : U64} {fpreg1 fpreg2 : U16} {program : U16 → FpProgram}
    {o : Outcomes U16 U32}
    (hprogram : ∀ fpreg, FailedReadsHarmless (program fpreg) o ↔
      ∀ m < 1, o.replies m ≠ 0xffff) :
    FailedReadsHarmless (withInput input fpreg1 fpreg2 program) o ↔
      ∀ m < (if input = 1 ∨ input = 2 then 1 else 0), o.replies m ≠ 0xffff := by
  rcases withInput_cases input fpreg1 fpreg2 program with
    ⟨hinput, fpreg, heq⟩ | ⟨hinput, heq⟩
  · rw [heq, if_pos hinput]
    exact hprogram fpreg
  · rw [heq, if_neg hinput]
    exact harmless_iff_of_no_reads rfl

/-- Setting the standard performs one read. -/
theorem selectStandard_reads (standard : U32) (o : Outcomes U16 U32) :
    ((selectStandard standard).run o).reads = 1 := by
  change (runFrom o 1 0 (if o.replies 0 = 0xffff then _ else _)).reads + 1 = 1
  split_ifs
  · rfl
  · cases standardBits standard with
    | none => rfl
    | some bits => rfl

/-- Setting the standard stops at a read that fails. -/
theorem selectStandard_harmless (standard : U32) (o : Outcomes U16 U32) :
    FailedReadsHarmless (selectStandard standard) o := by
  intro m hm hfailed
  rw [selectStandard_reads, Nat.lt_one_iff] at hm
  rw [hm] at hfailed
  have hrun : (selectStandard standard).run o = ⟨1, [], 0xffffffff⟩ := by
    change (runFrom o 1 0 (if o.replies 0 = 0xffff then _ else _)).afterRead = _
    rw [if_pos hfailed]
    rfl
  constructor
  · rw [hrun]
    decide
  · intro n hdepends
    obtain ⟨w, hwrite, -⟩ := hdepends
    rw [hrun] at hwrite
    simp at hwrite

/-- The luma bits are below those that are kept. -/
theorem lumaInput_getLsbD {lumaSource tmp2 : U32} (hluma : lumaInput lumaSource = some tmp2) :
    tmp2.getLsbD 3 = false := by
  unfold lumaInput at hluma
  split_ifs at hluma <;> cases hluma <;> rfl

/-- Neither source bit is the lowest one. -/
theorem sourceBits_ne (chromaSource : U8) :
    ((sourceBits chromaSource 0xffff).setWidth 16 : U16) ≠
      (sourceBits chromaSource 0).setWidth 16 := by
  unfold sourceBits
  split_ifs <;> decide

/-- Selecting the source does harm exactly when one of the two reads fails. -/
theorem selectSource_harmless_iff {tmp2 : U32} (htmp2 : tmp2.getLsbD 3 = false)
    (chromaSource : U8) (o : Outcomes U16 U32) :
    FailedReadsHarmless (selectSource tmp2 chromaSource) o ↔
      ∀ m < 2, o.replies m ≠ 0xffff := by
  constructor
  swap
  · exact fun hsucceed => failedReadsHarmless_of_succeed hsucceed
  intro hharmless m hm hfailed
  have hcases : m = 0 ∨ m = 1 := by omega
  rcases hcases with hzero | hone
  · rw [hzero] at hfailed
    have hchroma : ((chromaSource &&& 4).setWidth 32 : U32).getLsbD 3 = false := by
      simp
    have hfixed : (tmp2 ||| (chromaSource &&& 4).setWidth 32).getLsbD 3 = false := by
      rw [BitVec.getLsbD_or, htmp2, hchroma]
      rfl
    refine not_harmless_of_write (n := 0) (Nat.zero_lt_two) hfailed rfl ?_ hharmless
    intro heq
    have hdata := congrArg Prod.snd (Option.some.inj heq)
    rw [hfailed] at hdata
    have hshown : (((tmp2 ||| (chromaSource &&& 4).setWidth 32) |||
          ((0xffff : U16).setWidth 32 &&& (0x7f8 : U32))).setWidth 16 : U16) ≠
        ((tmp2 ||| (chromaSource &&& 4).setWidth 32) |||
          ((0 : U16).setWidth 32 &&& (0x7f8 : U32))).setWidth 16 :=
      masked_ne (i := 3) (by decide) (by decide) hfixed (by decide) (by decide)
    rw [BitVec.or_comm, BitVec.or_comm (_ ||| _)] at hshown
    exact hshown hdata.symm
  · rw [hone] at hfailed
    refine not_harmless_of_write (n := 1) (Nat.one_lt_two) hfailed rfl ?_ hharmless
    intro heq
    have hdata := congrArg Prod.snd (Option.some.inj heq)
    rw [hfailed] at hdata
    exact sourceBits_ne chromaSource hdata.symm

/-- Setting the source does harm exactly when a read it performs fails. -/
theorem setVideoSource_harmless_iff (lumaSource : U32) (chromaSource : U8)
    (o : Outcomes U16 U32) :
    FailedReadsHarmless (tl880VpxSetVideoSource lumaSource chromaSource) o ↔
      ∀ m < (if lumaInput lumaSource ≠ none ∧ ChromaValid chromaSource then 2 else 0),
        o.replies m ≠ 0xffff := by
  unfold tl880VpxSetVideoSource
  cases hluma : lumaInput lumaSource with
  | none =>
      rw [if_neg (fun hvalid => hvalid.1 rfl)]
      exact harmless_iff_of_no_reads rfl
  | some tmp2 =>
      by_cases hchroma : ChromaValid chromaSource
      · rw [if_pos ⟨Option.some_ne_none _, hchroma⟩]
        simp only [hchroma, if_true]
        exact selectSource_harmless_iff (lumaInput_getLsbD hluma) chromaSource o
      · rw [if_neg (fun hvalid => hchroma hvalid.2)]
        simp only [hchroma, if_false]
        exact harmless_iff_of_no_reads rfl

/-- Setting an attribute does harm exactly when its read fails. -/
theorem setVideoAttribute_harmless_iff (vpxVideoStandard : U32) (input attr : U64) (value : U8)
    (o : Outcomes U16 U32) :
    FailedReadsHarmless (tl880VpxSetVideoAttribute vpxVideoStandard input attr value) o ↔
      ∀ m < (VpxCall.setVideoAttribute input attr value).fpReads, o.replies m ≠ 0xffff := by
  have hhigh : ∀ k i : Nat, 8 ≤ i + k →
      ((value.setWidth 32 : U32) >>> k).getLsbD i = false := by
    intro k i hout
    simp only [BitVec.getLsbD_ushiftRight, BitVec.getLsbD_setWidth]
    rw [BitVec.getLsbD_of_ge value _ (by omega), Bool.and_false]
  have hlow : ∀ (x : U32) (k : Nat), 0 < k → (x <<< k).getLsbD 0 = false := by
    intro x k hk
    simp [hk]
  simp only [tl880VpxSetVideoAttribute, VpxCall.fpReads]
  generalize (attr - 1).toNat = k
  match k with
  | 0 =>
      apply harmless_iff_of_no_reads
      unfold withInput
      split_ifs <;> rfl
  | 1 =>
      exact withInput_harmless_iff fun fpreg => masked_harmless_iff fpreg _ _ 6 (by decide)
        (by decide) (hhigh 2 6 (by decide)) (by decide) o
  | 2 =>
      apply harmless_iff_of_no_reads
      simp only [setSaturation]
      split_ifs <;> rfl
  | 3 => exact harmless_iff_of_no_reads rfl
  | 4 | 9 =>
      exact withInput_harmless_iff fun fpreg => masked_harmless_iff fpreg _ _ 0 (by decide)
        (by decide) (hlow _ 2 (by decide)) (by decide) o
  | 5 =>
      have hcomm : (fun tmp : U32 => (tmp &&& (0xffc : U32)) ||| ((value.setWidth 32 : U32) >>> 6)) =
          fun tmp => ((value.setWidth 32 : U32) >>> 6) ||| (tmp &&& (0xffc : U32)) :=
        funext fun tmp => BitVec.or_comm _ _
      rw [hcomm]
      exact withInput_harmless_iff fun fpreg => masked_harmless_iff fpreg _ _ 2 (by decide)
        (by decide) (hhigh 6 2 (by decide)) (by decide) o
  | 6 => exact harmless_iff_of_no_reads rfl
  | 7 =>
      exact masked_harmless_iff vpxFpInsel _ _ 0 (by decide) (by decide)
        (hlow _ 5 (by decide)) (by decide) o
  | 8 =>
      exact withInput_harmless_iff fun fpreg => masked_harmless_iff fpreg _ _ 0 (by decide)
        (by decide) (hlow _ 6 (by decide)) (by decide) o
  | n + 10 => exact harmless_iff_of_no_reads rfl

/-- Every run of a call performs the reads that its arguments say. -/
theorem vpxProgram_reads (s : VpxState) (call : VpxCall) (o : Outcomes U16 U32) :
    ((vpxProgram s call).run o).reads = call.fpReads := by
  cases call with
  | setVideoStandard standard => exact selectStandard_reads standard o
  | setVideoSource lumaSource chromaSource =>
      simp only [vpxProgram, tl880VpxSetVideoSource, VpxCall.fpReads]
      cases lumaInput lumaSource with
      | none => rfl
      | some tmp2 =>
          by_cases hchroma : ChromaValid chromaSource
          · simp only [hchroma, if_true]
            rfl
          · simp only [hchroma, if_false, and_false]
            rfl
  | setVideoAttribute input attr value =>
      have hinput : ∀ (fpreg1 fpreg2 : U16) (update : U32 → U32),
          ((withInput input fpreg1 fpreg2 fun fpreg => updateFp fpreg update).run o).reads =
            if input = 1 ∨ input = 2 then 1 else 0 := by
        intro fpreg1 fpreg2 update
        rcases withInput_cases input fpreg1 fpreg2 (fun fpreg => updateFp fpreg update) with
          ⟨hvalid, fpreg, heq⟩ | ⟨hvalid, heq⟩
        · rw [heq, if_pos hvalid]
          rfl
        · rw [heq, if_neg hvalid]
          rfl
      simp only [vpxProgram, tl880VpxSetVideoAttribute, VpxCall.fpReads]
      generalize (attr - 1).toNat = k
      match k with
      | 0 =>
          unfold withInput
          split_ifs <;> rfl
      | 1 | 4 | 5 | 8 | 9 => exact hinput _ _ _
      | 2 =>
          simp only [setSaturation]
          split_ifs <;> rfl
      | 3 | 6 | 7 | n + 10 => rfl

/-- A failed read is harmless exactly when the call sets the standard, or there is no
failed read. -/
theorem vpx_failedReadsHarmless_iff (s : VpxState) (call : VpxCall) (o : Outcomes U16 U32) :
    FailedReadsHarmless (vpxProgram s call) o ↔ call.IsStandard ∨ call.ReadsSucceed o := by
  cases call with
  | setVideoStandard standard =>
      exact iff_of_true (selectStandard_harmless standard o) (Or.inl trivial)
  | setVideoSource lumaSource chromaSource =>
      exact (setVideoSource_harmless_iff lumaSource chromaSource o).trans (or_iff_right id).symm
  | setVideoAttribute input attr value =>
      exact (setVideoAttribute_harmless_iff s.vpxVideoStandard input attr value o).trans
        (or_iff_right id).symm

/-- With the first read failed, selecting the initial source writes what the failure
left and reports success. -/
theorem vpx_failedRead_written :
    ¬ FailedReadsHarmless (vpxProgram ⟨true, 7⟩ (.setVideoSource 2 4))
      ⟨fun m => if m = 0 then 0xffff else 0, fun _ => 0⟩ := by
  intro hharmless
  have hnonzero := (hharmless 0 (by decide) rfl).1
  revert hnonzero
  decide

end Tl880
