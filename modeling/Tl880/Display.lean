import Tl880.Lib.Patch
import Tl880.Cursors
import Tl880.I2cLines

/-!
# The display enables

The model of `tl880_set_mode` and the four enable and disable functions of
`driver/tl880dpc.c`, of `tl880_show_cursor` of `driver/tl880cursor.c` and of
`tl880_dma_vop_on` of `driver/tl880dma.c`, which asks whether overlay video is on.

The enables are bits of the register 0x10000.  Seen through that register every call is
a patch of one bit, or of none: `tl880_set_mode` writes the whole register and puts it
back.  `tl880_dma_vop_on` reads the register 10000, which is not the register 0x10000 and
which no call writes.
-/

namespace Tl880

open Patch

/-! ## The driver -/

/-- `struct tl880_mode_def` -/
structure ModeDef where
  -- 0x10014
  a : BitVec 1
  b : BitVec 1
  c : BitVec 1
  progScan : BitVec 1
  e : BitVec 10
  xres : BitVec 11
  g : BitVec 1
  h : BitVec 1
  i : BitVec 1
  j : BitVec 1
  -- 0x10018
  hBackporch : BitVec 9
  invHsync : BitVec 1
  invVsync : BitVec 1
  hSynclen : BitVec 7
  hFrontporch : BitVec 9
  -- 0x1001c, the first field
  vSynclen0 : BitVec 3
  vFrontporch0 : BitVec 8
  yres0 : BitVec 11
  vBackporch0 : BitVec 4
  ntscFlag : BitVec 1
  -- 0x10020, the second field
  vSynclen1 : BitVec 3
  vFrontporch1 : BitVec 8
  yres1 : BitVec 11
  vBackporch1 : BitVec 4
  -- 0x10024
  y : BitVec 22
  z : BitVec 1
  aa : BitVec 4
  -- 0x10028
  bb : BitVec 12
  cc : BitVec 1
  -- 0x5800
  dd : U64

/-- Set fields of a value that starts at 0: the highest bit, the lowest bit and the
value of each. -/
def fieldsValue (fields : List (Nat × Nat × U32)) : U32 :=
  fields.foldl (fun value field => setBits value field.1 field.2.1 field.2.2) 0

/-- The registers that `tl880_set_mode` writes while the display is off. -/
def writeMode (mode : ModeDef) (r : RegSpace) : RegSpace :=
  let r := tl880WriteRegister r 0x10014 (fieldsValue
    [(0, 0, mode.a.setWidth 32), (1, 1, mode.b.setWidth 32), (2, 2, mode.c.setWidth 32),
      (3, 3, mode.progScan.setWidth 32), (0xf, 6, mode.e.setWidth 32),
      (0x1a, 0x10, mode.xres.setWidth 32), (0x1b, 0x1b, mode.g.setWidth 32),
      (0x1c, 0x1c, mode.h.setWidth 32), (0x1d, 0x1d, mode.i.setWidth 32),
      (0x1e, 0x1e, mode.j.setWidth 32)])
  let r := tl880WriteRegister r 0x10018 (fieldsValue
    [(8, 0, mode.hBackporch.setWidth 32), (9, 9, mode.invHsync.setWidth 32),
      (0xa, 0xa, mode.invVsync.setWidth 32), (0x12, 0xc, mode.hSynclen.setWidth 32),
      (0x1c, 0x14, mode.hFrontporch.setWidth 32)])
  let r := tl880WriteRegister r 0x1001c (fieldsValue
    [(2, 0, mode.vSynclen0.setWidth 32), (0xb, 4, mode.vFrontporch0.setWidth 32),
      (0x16, 0xc, mode.yres0.setWidth 32), (0x1b, 0x18, mode.vBackporch0.setWidth 32),
      (0x1c, 0x1c, mode.ntscFlag.setWidth 32)])
  let r := tl880WriteRegister r 0x10020 (fieldsValue
    [(2, 0, mode.vSynclen1.setWidth 32), (0xb, 4, mode.vFrontporch1.setWidth 32),
      (0x16, 0xc, mode.yres1.setWidth 32), (0x1b, 0x18, mode.vBackporch1.setWidth 32)])
  let r := tl880WriteRegister r 0x10028 (fieldsValue
    [(0xb, 0, mode.bb.setWidth 32), (0x18, 0x18, mode.cc.setWidth 32)])
  let r := tl880WriteRegister r 0x10024 (fieldsValue
    [(0x15, 0, mode.y.setWidth 32), (0x18, 0x18, mode.z.setWidth 32),
      (0x1f, 0x1c, mode.aa.setWidth 32)])
  tl880WriteRegister r 0x5800 (mode.dd.setWidth 32)

/-- `tl880_set_mode` -/
def tl880SetMode (mode : Option ModeDef) (r : RegSpace) : RegSpace :=
  match mode with
  | none => r
  | some mode =>
      let savereg := tl880ReadRegister r 0x10000
      let r := tl880WriteRegister r 0x10000 0x80
      let r := writeMode mode r
      tl880WriteRegister r 0x10000 savereg

/-- `tl880_enable_bvdo` -/
def tl880EnableBvdo (r : RegSpace) : RegSpace := tl880WriteRegbits r 0x10000 1 1 1

/-- `tl880_disable_bvdo` -/
def tl880DisableBvdo (r : RegSpace) : RegSpace := tl880WriteRegbits r 0x10000 1 1 0

/-- `tl880_enable_aux` -/
def tl880EnableAux (r : RegSpace) : RegSpace := tl880WriteRegbits r 0x10000 4 4 1

/-- `tl880_disable_aux` -/
def tl880DisableAux (r : RegSpace) : RegSpace := tl880WriteRegbits r 0x10000 4 4 0

/-- What `tl880_show_cursor` writes about the surface.  The fields are `unsigned long`. -/
def writeSurface (surface : SOverlaySurface 64) (r : RegSpace) : RegSpace :=
  let r := tl880WriteRegbits r 0x10100 0x19 4 ((surface.fieldC / 16).setWidth 32)
  let r := tl880WriteRegbits r 0x10108 9 8 (surface.field3c.setWidth 32)
  let r := tl880WriteRegbits r 0x10108 0x19 0x18 (surface.field40.setWidth 32)
  let r := tl880WriteRegbits r 0x10108 7 0 (surface.field14.setWidth 32)
  tl880WriteRegbits r 0x10108 0x17 0x10 (surface.field18.setWidth 32)

/-- `tl880_show_cursor` -/
def tl880ShowCursor (surface : Option (SOverlaySurface 64)) (state : U8) (r : RegSpace) :
    RegSpace :=
  let r :=
    match surface with
    | some surface => if state ≠ 0 then writeSurface surface r else r
    | none => r
  tl880WriteRegbits r 0x10000 3 3 (state.setWidth 32)

/-- `tl880_dma_vop_on` -/
def tl880DmaVopOn (r : RegSpace) : Int := if tl880ReadRegbits r 10000 4 4 ≠ 0 then 1 else 0

/-- The calls that write the register 0x10000. -/
inductive DisplayCall
  | enableBvdo
  | disableBvdo
  | enableAux
  | disableAux
  | showCursor (surface : Option (SOverlaySurface 64)) (state : U8)
  | setMode (mode : Option ModeDef)

def displayCall (r : RegSpace) : DisplayCall → RegSpace
  | .enableBvdo => tl880EnableBvdo r
  | .disableBvdo => tl880DisableBvdo r
  | .enableAux => tl880EnableAux r
  | .disableAux => tl880DisableAux r
  | .showCursor surface state => tl880ShowCursor surface state r
  | .setMode mode => tl880SetMode mode r

/-! ## What the calls are for -/

/-- What a call says about main video. -/
def DisplayCall.bvdo : DisplayCall → Option Bool
  | .enableBvdo => some true
  | .disableBvdo => some false
  | _ => none

/-- What a call says about overlay video. -/
def DisplayCall.aux : DisplayCall → Option Bool
  | .enableAux => some true
  | .disableAux => some false
  | _ => none

/-- What a call says about the cursor. -/
def DisplayCall.cursor : DisplayCall → Option Bool
  | .showCursor _ state => some (state.getLsbD 0)
  | _ => none

/-- What the last call that says anything says, or what was so initially. -/
def lastSaid (said : DisplayCall → Option Bool) (calls : List DisplayCall) (initial : Bool) :
    Bool :=
  (calls.reverse.findSome? said).getD initial

/-- Overlay video is on. -/
def overlayOn (r : RegSpace) (calls : List DisplayCall) : Bool :=
  lastSaid DisplayCall.aux calls (r.bit 0x10000 4)

/-- The enables and the query agree with the calls that were made. -/
structure DisplayAgrees (r : RegSpace) (calls : List DisplayCall) : Prop where
  vopOn : tl880DmaVopOn (calls.foldl displayCall r) = 1 ↔ overlayOn r calls = true
  aux : (calls.foldl displayCall r).bit 0x10000 4 = overlayOn r calls
  bvdo : (calls.foldl displayCall r).bit 0x10000 1 =
    lastSaid DisplayCall.bvdo calls (r.bit 0x10000 1)
  cursor : (calls.foldl displayCall r).bit 0x10000 3 =
    lastSaid DisplayCall.cursor calls (r.bit 0x10000 3)

/-! ## The calls as patches -/

/-- Set one bit of a register. -/
def linePatch (line : Nat) (level : Bool) : Patch Nat Bool :=
  fun i => if i = line then some level else none

/-- The bits of the register 0x10000 that a call sets. -/
def displayPatch : DisplayCall → Patch Nat Bool
  | .enableBvdo => linePatch 1 true
  | .disableBvdo => linePatch 1 false
  | .enableAux => linePatch 4 true
  | .disableAux => linePatch 4 false
  | .showCursor _ state => linePatch 3 (state.getLsbD 0)
  | .setMode _ => fun _ => none

theorem linePatch_self (line : Nat) (level : Bool) : linePatch line level line = some level :=
  if_pos rfl

theorem linePatch_ne {line i : Nat} (hne : i ≠ line) (level : Bool) :
    linePatch line level i = none := if_neg hne

/-- A write of one bit is the patch of that bit. -/
theorem RegSpace.bit_writeRegbits {r : RegSpace} (hmapped : r.mapped = true) {reg : U32}
    (hreg : reg < 0x100000#32) {line : Nat} (hline : line < 32) (value : U32) :
    (tl880WriteRegbits r reg line line value).bit reg =
      (linePatch line (value.getLsbD 0)).apply (r.bit reg) := by
  funext i
  by_cases hi : i = line
  · rw [hi, apply_of_some (linePatch_self line _)]
    exact RegSpace.bit_writeRegbits_self hmapped hreg hline value
  · rw [apply_of_none (linePatch_ne hi _)]
    exact RegSpace.bit_writeRegbits_ne r hline (fun _ => hi) value

@[simp] theorem writeSurface_mapped (surface : SOverlaySurface 64) (r : RegSpace) :
    (writeSurface surface r).mapped = r.mapped := by
  simp [writeSurface]

@[simp] theorem writeMode_mapped (mode : ModeDef) (r : RegSpace) :
    (writeMode mode r).mapped = r.mapped := by
  simp [writeMode]

@[simp] theorem displayCall_mapped (r : RegSpace) (call : DisplayCall) :
    (displayCall r call).mapped = r.mapped := by
  cases call with
  | enableBvdo => exact tl880WriteRegbits_mapped r _ _ _ _
  | disableBvdo => exact tl880WriteRegbits_mapped r _ _ _ _
  | enableAux => exact tl880WriteRegbits_mapped r _ _ _ _
  | disableAux => exact tl880WriteRegbits_mapped r _ _ _ _
  | showCursor surface state =>
      cases surface <;> simp [displayCall, tl880ShowCursor, apply_ite RegSpace.mapped]
  | setMode mode => cases mode <;> simp [displayCall, tl880SetMode]

/-- The surface is not described in the register of the enables. -/
theorem read_writeSurface (surface : SOverlaySurface 64) (r : RegSpace) {reg : U32}
    (hreg : reg ≠ 0x10100 ∧ reg ≠ 0x10108) :
    tl880ReadRegister (writeSurface surface r) reg = tl880ReadRegister r reg := by
  obtain ⟨hposition, hscale⟩ := hreg
  simp only [writeSurface, tl880ReadRegister_writeRegbits_ne _ hposition,
    tl880ReadRegister_writeRegbits_ne _ hscale]

/-- The registers that describe a mode. -/
def modeRegisters : List U32 := [0x10014, 0x10018, 0x1001c, 0x10020, 0x10028, 0x10024, 0x5800]

theorem read_writeMode (mode : ModeDef) (r : RegSpace) {reg : U32} (hreg : reg ∉ modeRegisters) :
    tl880ReadRegister (writeMode mode r) reg = tl880ReadRegister r reg := by
  simp only [modeRegisters, List.mem_cons, List.not_mem_nil, or_false, not_or] at hreg
  obtain ⟨h14, h18, h1c, h20, h28, h24, h5800⟩ := hreg
  simp only [writeMode, tl880ReadRegister_write_ne _ h14, tl880ReadRegister_write_ne _ h18,
    tl880ReadRegister_write_ne _ h1c, tl880ReadRegister_write_ne _ h20,
    tl880ReadRegister_write_ne _ h28, tl880ReadRegister_write_ne _ h24,
    tl880ReadRegister_write_ne _ h5800]

/-- Setting a mode puts the register of the enables back. -/
theorem read_tl880SetMode {r : RegSpace} (hmapped : r.mapped = true) (mode : Option ModeDef) :
    tl880ReadRegister (tl880SetMode mode r) 0x10000 = tl880ReadRegister r 0x10000 := by
  cases mode with
  | none => rfl
  | some mode =>
      rw [tl880SetMode]
      apply tl880ReadRegister_write_self
      · simpa using hmapped
      · decide

/-- Every call is the patch of the bits it is for. -/
theorem displayCall_patch (r : RegSpace) (call : DisplayCall) (hmapped : r.mapped = true) :
    (displayCall r call).bit 0x10000 = (displayPatch call).apply (r.bit 0x10000) := by
  have hreg : (0x10000 : U32) < 0x100000#32 := by decide
  cases call with
  | enableBvdo => exact RegSpace.bit_writeRegbits hmapped hreg (by decide) 1
  | disableBvdo => exact RegSpace.bit_writeRegbits hmapped hreg (by decide) 0
  | enableAux => exact RegSpace.bit_writeRegbits hmapped hreg (by decide) 1
  | disableAux => exact RegSpace.bit_writeRegbits hmapped hreg (by decide) 0
  | showCursor surface state =>
      have hlowest : (state.setWidth 32 : U32).getLsbD 0 = state.getLsbD 0 := by simp
      have hwrite : ∀ t : RegSpace, t.mapped = true → t.bit 0x10000 = r.bit 0x10000 →
          (tl880WriteRegbits t 0x10000 3 3 (state.setWidth 32)).bit 0x10000 =
            (linePatch 3 (state.getLsbD 0)).apply (r.bit 0x10000) := by
        intro t ht hsame
        rw [RegSpace.bit_writeRegbits ht hreg (by decide), hlowest, hsame]
      cases surface with
      | none => exact hwrite r hmapped rfl
      | some surface =>
          by_cases hstate : state ≠ 0
          · simp only [displayCall, tl880ShowCursor, if_pos hstate]
            apply hwrite
            · simpa using hmapped
            · funext i
              rw [RegSpace.bit, read_writeSurface surface r (by decide)]
              rfl
          · simp only [displayCall, tl880ShowCursor, if_neg hstate]
            exact hwrite r hmapped rfl
  | setMode mode =>
      funext i
      rw [apply_of_none rfl, RegSpace.bit, displayCall, read_tl880SetMode hmapped]
      rfl

/-- No call writes the register that `tl880_dma_vop_on` reads. -/
theorem read_displayCall (r : RegSpace) (call : DisplayCall) :
    tl880ReadRegister (displayCall r call) 10000 = tl880ReadRegister r 10000 := by
  have henables : (10000 : U32) ≠ 0x10000 := by decide
  cases call with
  | enableBvdo => exact tl880ReadRegister_writeRegbits_ne r henables _ _ _
  | disableBvdo => exact tl880ReadRegister_writeRegbits_ne r henables _ _ _
  | enableAux => exact tl880ReadRegister_writeRegbits_ne r henables _ _ _
  | disableAux => exact tl880ReadRegister_writeRegbits_ne r henables _ _ _
  | showCursor surface state =>
      simp only [displayCall, tl880ShowCursor, tl880ReadRegister_writeRegbits_ne _ henables]
      cases surface with
      | none => rfl
      | some surface =>
          by_cases hstate : state ≠ 0
          · simp only [if_pos hstate]
            exact read_writeSurface surface r (by decide)
          · simp only [if_neg hstate]
  | setMode mode =>
      cases mode with
      | none => rfl
      | some mode =>
          simp only [displayCall, tl880SetMode, tl880ReadRegister_write_ne _ henables]
          rw [read_writeMode mode _ (by decide), tl880ReadRegister_write_ne _ henables]

/-! ## Runs -/

/-- Through the register of the enables the calls are patches. -/
theorem display_patched :
    Patched displayCall (fun r => r.bit 0x10000) displayPatch (fun r => r.mapped = true)
      fun _ => True where
  keep := fun r call hmapped _ => (displayCall_mapped r call).trans hmapped
  shows := fun r call hmapped _ => displayCall_patch r call hmapped

/-- After a run a bit of the enables is what the last call that sets it says. -/
theorem displayRun_bit {r : RegSpace} (hmapped : r.mapped = true) (calls : List DisplayCall)
    {i : Nat} {said : DisplayCall → Option Bool}
    (hsaid : ∀ call, displayPatch call i = said call) :
    (calls.foldl displayCall r).bit 0x10000 i = lastSaid said calls (r.bit 0x10000 i) := by
  have hrun := display_patched.view_foldl hmapped (fun call (_ : call ∈ calls) => trivial) i
  rw [last_map] at hrun
  rw [lastSaid, ← funext hsaid]
  exact hrun

/-- The query sees the register it reads as it was before the run. -/
theorem tl880DmaVopOn_run (r : RegSpace) (calls : List DisplayCall) :
    tl880DmaVopOn (calls.foldl displayCall r) = tl880DmaVopOn r := by
  induction calls generalizing r with
  | nil => rfl
  | cons call calls ih =>
      rw [List.foldl_cons, ih, tl880DmaVopOn, tl880ReadRegbits, read_displayCall]
      rfl

/-- The query returns 1 exactly when bit 4 of the register 10000 is set. -/
theorem tl880DmaVopOn_eq_one_iff (r : RegSpace) :
    tl880DmaVopOn r = 1 ↔ r.bit 10000 4 = true := by
  have hfield : ∀ value : U32, (value >>> 4) &&& fieldMask 4 4 ≠ 0 ↔ value.getLsbD 4 = true := by
    intro value
    have hmask : fieldMask 4 4 = 1#32 := by decide
    rw [hmask, BitVec.and_one_eq_setWidth_ofBool_getLsbD, BitVec.getLsbD_ushiftRight]
    cases value.getLsbD (4 + 0) <;> simp
  rw [tl880DmaVopOn, tl880ReadRegbits, RegSpace.bit, ← hfield]
  split_ifs with hset
  · exact iff_of_true rfl hset
  · exact iff_of_false (by decide) hset

/-- The enables follow the calls.  The query agrees with them exactly when bit 4 of the
register 10000, which has nothing to do with the display, happens to be what overlay
video is. -/
theorem displayAgrees_iff (r : RegSpace) (hmapped : r.mapped = true)
    (calls : List DisplayCall) :
    DisplayAgrees r calls ↔ r.bit 10000 4 = overlayOn r calls := by
  have hquery : tl880DmaVopOn (calls.foldl displayCall r) = 1 ↔ r.bit 10000 4 = true := by
    rw [tl880DmaVopOn_run]
    exact tl880DmaVopOn_eq_one_iff r
  constructor
  · intro hagrees
    exact Bool.eq_iff_iff.mpr (hquery.symm.trans hagrees.vopOn)
  · intro hlucky
    constructor
    · exact hquery.trans (Bool.eq_iff_iff.mp hlucky)
    · exact displayRun_bit hmapped calls fun call => by cases call <;> rfl
    · exact displayRun_bit hmapped calls fun call => by cases call <;> rfl
    · exact displayRun_bit hmapped calls fun call => by cases call <;> rfl

/-- With all registers 0 the query is right until overlay video is enabled. -/
theorem displayAgrees_off :
    DisplayAgrees ⟨true, fun _ => 0⟩ [.enableBvdo, .showCursor none 1, .disableAux] :=
  (displayAgrees_iff ⟨true, fun _ => 0⟩ rfl _).mpr (by decide)

/-- Then it still says that overlay video is off. -/
theorem displayAgrees_enableAux : ¬ DisplayAgrees ⟨true, fun _ => 0⟩ [.enableAux] := by
  intro hagrees
  have hone := hagrees.vopOn.mpr (by decide)
  revert hone
  decide

end Tl880
