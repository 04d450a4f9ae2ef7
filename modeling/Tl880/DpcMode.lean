import Tl880.Display
import Tl880.RegFields

/-!
# Display modes

`tl880_set_mode` of `driver/tl880dpc.c` packs the fields of a `struct tl880_mode_def` into
six words, one `set_bits` a field, and writes them with the display switched off.

`syncLayout` and `documentedMode` say what the words mean, from the table of the DPC sync
registers in `doc/tl880doc.txt`, and do not use the model of the driver.  A mode is read
back from the registers as it was set, but for the upper half of `dd`, which a 32-bit
register has no room for.
-/

namespace Tl880

/-! ## What the registers mean -/

/-- The fields that the documentation gives to each sync register, by their highest and
their lowest bit. -/
def syncLayout : List (U32 × List (Nat × Nat)) :=
  [(0x10014, [(0, 0), (1, 1), (2, 2), (3, 3), (15, 6), (26, 16), (27, 27), (28, 28), (29, 29),
      (30, 30)]),
    (0x10018, [(8, 0), (9, 9), (10, 10), (18, 12), (28, 20)]),
    (0x1001c, [(2, 0), (11, 4), (22, 12), (27, 24), (28, 28)]),
    (0x10020, [(2, 0), (11, 4), (22, 12), (27, 24)]),
    (0x10024, [(21, 0), (24, 24), (31, 28)]),
    (0x10028, [(11, 0), (24, 24)])]

/-- The mode that registers stand for, by the documentation. -/
def documentedMode (read : U32 → U32) : ModeDef where
  a := (read 0x10014).extractLsb' 0 1
  b := (read 0x10014).extractLsb' 1 1
  c := (read 0x10014).extractLsb' 2 1
  progScan := (read 0x10014).extractLsb' 3 1
  e := (read 0x10014).extractLsb' 6 10
  xres := (read 0x10014).extractLsb' 16 11
  g := (read 0x10014).extractLsb' 27 1
  h := (read 0x10014).extractLsb' 28 1
  i := (read 0x10014).extractLsb' 29 1
  j := (read 0x10014).extractLsb' 30 1
  hBackporch := (read 0x10018).extractLsb' 0 9
  invHsync := (read 0x10018).extractLsb' 9 1
  invVsync := (read 0x10018).extractLsb' 10 1
  hSynclen := (read 0x10018).extractLsb' 12 7
  hFrontporch := (read 0x10018).extractLsb' 20 9
  vSynclen0 := (read 0x1001c).extractLsb' 0 3
  vFrontporch0 := (read 0x1001c).extractLsb' 4 8
  yres0 := (read 0x1001c).extractLsb' 12 11
  vBackporch0 := (read 0x1001c).extractLsb' 24 4
  ntscFlag := (read 0x1001c).extractLsb' 28 1
  vSynclen1 := (read 0x10020).extractLsb' 0 3
  vFrontporch1 := (read 0x10020).extractLsb' 4 8
  yres1 := (read 0x10020).extractLsb' 12 11
  vBackporch1 := (read 0x10020).extractLsb' 24 4
  y := (read 0x10024).extractLsb' 0 22
  z := (read 0x10024).extractLsb' 24 1
  aa := (read 0x10024).extractLsb' 28 4
  bb := (read 0x10028).extractLsb' 0 12
  cc := (read 0x10028).extractLsb' 24 1
  dd := (read 0x5800).setWidth 64

/-- The mode up to the part of `dd` that a register has room for. -/
def ModeDef.programmable (mode : ModeDef) : ModeDef :=
  { mode with dd := BitVec.ofNat 64 (mode.dd.toNat % 2 ^ 32) }

/-! ## Packing -/

/-- Fields of a word: none of them is the whole word, and no two of them share a bit. -/
def Packs (ranges : List (Nat × Nat)) : Prop :=
  (∀ p ∈ ranges, p.2 ≤ p.1 ∧ p.1 < 32 ∧ p.1 - p.2 < 31) ∧
    ranges.Pairwise fun p q => p.1 < q.2 ∨ q.1 < p.2

instance (ranges : List (Nat × Nat)) : Decidable (Packs ranges) := by
  unfold Packs
  infer_instance

/-- The highest bit, the lowest bit and the value of a `set_bits` call. -/
abbrev BitsCall := Nat × Nat × U32

/-- The bits that a `set_bits` call is about. -/
def callRange (call : BitsCall) : Nat × Nat := (call.1, call.2.1)

def CallCovers (call : BitsCall) (i : Nat) : Prop := call.2.1 ≤ i ∧ i ≤ call.1

/-- The `set_bits` calls on a value, one after the other. -/
def setFields (value : U32) (calls : List BitsCall) : U32 :=
  calls.foldl (fun value call => setBits value call.1 call.2.1 call.2.2) value

theorem setFields_cons (value : U32) (call : BitsCall) (calls : List BitsCall) :
    setFields value (call :: calls) =
      setFields (setBits value call.1 call.2.1 call.2.2) calls := rfl

theorem fieldsValue_eq (calls : List BitsCall) : fieldsValue calls = setFields 0 calls :=
  rfl

theorem Packs.tail {p : Nat × Nat} {ranges : List (Nat × Nat)} (h : Packs (p :: ranges)) :
    Packs ranges :=
  ⟨fun q hq => h.1 q (List.mem_cons_of_mem p hq), (List.pairwise_cons.mp h.2).2⟩

/-- A bit outside of every field keeps its value. -/
theorem getLsbD_setFields_out {calls : List BitsCall} (hpacks : Packs (calls.map callRange))
    {i : Nat} (hout : ∀ call ∈ calls, ¬ CallCovers call i) (value : U32) :
    (setFields value calls).getLsbD i = value.getLsbD i := by
  induction calls generalizing value with
  | nil => rfl
  | cons call calls ih =>
      obtain ⟨hle, hhigh, hwidth⟩ := hpacks.1 _ (List.mem_cons_self)
      have hrest : ∀ c ∈ calls, ¬ CallCovers c i := by
        intro c hc
        exact hout c (List.mem_cons_of_mem call hc)
      rw [setFields_cons, ih hpacks.tail hrest]
      show (setBits value (callRange call).1 (callRange call).2 call.2.2).getLsbD i = _
      rw [getLsbD_setBits hle hhigh hwidth]
      exact if_neg (hout call List.mem_cons_self)

/-- A bit of a field holds what its call set: the calls after it are about other bits. -/
theorem getLsbD_setFields_in {calls : List BitsCall} (hpacks : Packs (calls.map callRange))
    {call : BitsCall} (hcall : call ∈ calls) {i : Nat} (hin : CallCovers call i)
    (value : U32) :
    (setFields value calls).getLsbD i = call.2.2.getLsbD (i - call.2.1) := by
  induction calls generalizing value with
  | nil => cases hcall
  | cons first calls ih =>
      rw [setFields_cons]
      rcases List.mem_cons.mp hcall with rfl | hlater
      · obtain ⟨hle, hhigh, hwidth⟩ := hpacks.1 _ (List.mem_cons_self)
        have hrest : ∀ c ∈ calls, ¬ CallCovers c i := by
          intro c hc hcovers
          have hdisjoint := (List.pairwise_cons.mp hpacks.2).1 _ (List.mem_map_of_mem hc)
          simp only [callRange, CallCovers] at hdisjoint hcovers hin
          omega
        rw [getLsbD_setFields_out hpacks.tail hrest]
        show (setBits value (callRange call).1 (callRange call).2 call.2.2).getLsbD i = _
        rw [getLsbD_setBits hle hhigh hwidth]
        exact if_pos hin
      · exact ih hpacks.tail hlater _

/-- A field decodes from the word that it was packed into by the `k`-th call. -/
theorem extractLsb'_setFields {calls : List BitsCall} (hpacks : Packs (calls.map callRange))
    (k : Nat) {high low w : Nat} {field : BitVec w}
    (hcall : calls[k]? = some (high, low, field.setWidth 32)) (hw : high + 1 = low + w)
    (value : U32) : (setFields value calls).extractLsb' low w = field := by
  have hmem : (high, low, field.setWidth 32) ∈ calls := List.mem_of_getElem? hcall
  have hhigh : high < 32 := (hpacks.1 _ (List.mem_map_of_mem hmem)).2.1
  apply BitVec.eq_of_getLsbD_eq
  intro i hi
  have hin : CallCovers (high, low, field.setWidth 32) (low + i) := by
    show low ≤ low + i ∧ low + i ≤ high
    omega
  have h32 : i < 32 := by omega
  rw [BitVec.getLsbD_extractLsb', getLsbD_setFields_in hpacks hmem hin]
  simp [hi, h32]

/-! ## The words of a mode -/

def ModeDef.calls10014 (mode : ModeDef) : List BitsCall :=
  [(0, 0, mode.a.setWidth 32), (1, 1, mode.b.setWidth 32), (2, 2, mode.c.setWidth 32),
    (3, 3, mode.progScan.setWidth 32), (0xf, 6, mode.e.setWidth 32),
    (0x1a, 0x10, mode.xres.setWidth 32), (0x1b, 0x1b, mode.g.setWidth 32),
    (0x1c, 0x1c, mode.h.setWidth 32), (0x1d, 0x1d, mode.i.setWidth 32),
    (0x1e, 0x1e, mode.j.setWidth 32)]

def ModeDef.calls10018 (mode : ModeDef) : List BitsCall :=
  [(8, 0, mode.hBackporch.setWidth 32), (9, 9, mode.invHsync.setWidth 32),
    (0xa, 0xa, mode.invVsync.setWidth 32), (0x12, 0xc, mode.hSynclen.setWidth 32),
    (0x1c, 0x14, mode.hFrontporch.setWidth 32)]

def ModeDef.calls1001c (mode : ModeDef) : List BitsCall :=
  [(2, 0, mode.vSynclen0.setWidth 32), (0xb, 4, mode.vFrontporch0.setWidth 32),
    (0x16, 0xc, mode.yres0.setWidth 32), (0x1b, 0x18, mode.vBackporch0.setWidth 32),
    (0x1c, 0x1c, mode.ntscFlag.setWidth 32)]

def ModeDef.calls10020 (mode : ModeDef) : List BitsCall :=
  [(2, 0, mode.vSynclen1.setWidth 32), (0xb, 4, mode.vFrontporch1.setWidth 32),
    (0x16, 0xc, mode.yres1.setWidth 32), (0x1b, 0x18, mode.vBackporch1.setWidth 32)]

def ModeDef.calls10028 (mode : ModeDef) : List BitsCall :=
  [(0xb, 0, mode.bb.setWidth 32), (0x18, 0x18, mode.cc.setWidth 32)]

def ModeDef.calls10024 (mode : ModeDef) : List BitsCall :=
  [(0x15, 0, mode.y.setWidth 32), (0x18, 0x18, mode.z.setWidth 32),
    (0x1f, 0x1c, mode.aa.setWidth 32)]

section Registers

variable {r : RegSpace} (hr : r.mapped = true) (mode : ModeDef)
include hr

/-- What each register of the mode holds afterwards. -/
theorem tl880SetMode_read :
    tl880ReadRegister (tl880SetMode (some mode) r) 0x10014 = setFields 0 mode.calls10014 ∧
      tl880ReadRegister (tl880SetMode (some mode) r) 0x10018 = setFields 0 mode.calls10018 ∧
      tl880ReadRegister (tl880SetMode (some mode) r) 0x1001c = setFields 0 mode.calls1001c ∧
      tl880ReadRegister (tl880SetMode (some mode) r) 0x10020 = setFields 0 mode.calls10020 ∧
      tl880ReadRegister (tl880SetMode (some mode) r) 0x10024 = setFields 0 mode.calls10024 ∧
      tl880ReadRegister (tl880SetMode (some mode) r) 0x10028 = setFields 0 mode.calls10028 ∧
      tl880ReadRegister (tl880SetMode (some mode) r) 0x5800 = mode.dd.setWidth 32 := by
  simp [tl880SetMode, writeMode, fieldsValue_eq, tl880ReadRegister_write_ne,
    tl880ReadRegister_write_self, hr, ModeDef.calls10014, ModeDef.calls10018, ModeDef.calls1001c,
    ModeDef.calls10020, ModeDef.calls10024, ModeDef.calls10028]

/-- The registers that the mode does not set keep their values; 0x10000 is one of them,
since it is put back at the end. -/
theorem tl880SetMode_frame {reg : U32} (hreg : reg ∉ modeRegisters) :
    tl880ReadRegister (tl880SetMode (some mode) r) reg = tl880ReadRegister r reg := by
  by_cases hswitch : reg = 0x10000
  · rw [hswitch]
    exact read_tl880SetMode hr (some mode)
  · simp only [tl880SetMode, tl880ReadRegister_write_ne _ hswitch, read_writeMode _ _ hreg]

end Registers

section Packing

variable (mode : ModeDef)

/-- The driver packs each word by the documented fields. -/
theorem calls_range :
    syncLayout =
      [(0x10014, mode.calls10014.map callRange), (0x10018, mode.calls10018.map callRange),
        (0x1001c, mode.calls1001c.map callRange),
        (0x10020, mode.calls10020.map callRange),
        (0x10024, mode.calls10024.map callRange),
        (0x10028, mode.calls10028.map callRange)] := rfl

theorem syncLayout_packs : ∀ p ∈ syncLayout, Packs p.2 := by
  simp only [syncLayout, List.forall_mem_cons]
  decide

theorem calls_packs :
    Packs (mode.calls10014.map callRange) ∧ Packs (mode.calls10018.map callRange) ∧
      Packs (mode.calls1001c.map callRange) ∧ Packs (mode.calls10020.map callRange) ∧
      Packs (mode.calls10024.map callRange) ∧
      Packs (mode.calls10028.map callRange) := by
  have hpacks := syncLayout_packs
  rw [calls_range mode] at hpacks
  simp only [List.forall_mem_cons] at hpacks
  obtain ⟨p14, p18, p1c, p20, p24, p28, -⟩ := hpacks
  exact ⟨p14, p18, p1c, p20, p24, p28⟩

theorem calls10014_decode :
    (setFields 0 mode.calls10014).extractLsb' 0 1 = mode.a ∧
      (setFields 0 mode.calls10014).extractLsb' 1 1 = mode.b ∧
      (setFields 0 mode.calls10014).extractLsb' 2 1 = mode.c ∧
      (setFields 0 mode.calls10014).extractLsb' 3 1 = mode.progScan ∧
      (setFields 0 mode.calls10014).extractLsb' 6 10 = mode.e ∧
      (setFields 0 mode.calls10014).extractLsb' 16 11 = mode.xres ∧
      (setFields 0 mode.calls10014).extractLsb' 27 1 = mode.g ∧
      (setFields 0 mode.calls10014).extractLsb' 28 1 = mode.h ∧
      (setFields 0 mode.calls10014).extractLsb' 29 1 = mode.i ∧
      (setFields 0 mode.calls10014).extractLsb' 30 1 = mode.j := by
  have hpacks := (calls_packs mode).1
  exact ⟨extractLsb'_setFields hpacks 0 rfl rfl 0, extractLsb'_setFields hpacks 1 rfl rfl 0,
    extractLsb'_setFields hpacks 2 rfl rfl 0, extractLsb'_setFields hpacks 3 rfl rfl 0,
    extractLsb'_setFields hpacks 4 rfl rfl 0, extractLsb'_setFields hpacks 5 rfl rfl 0,
    extractLsb'_setFields hpacks 6 rfl rfl 0, extractLsb'_setFields hpacks 7 rfl rfl 0,
    extractLsb'_setFields hpacks 8 rfl rfl 0, extractLsb'_setFields hpacks 9 rfl rfl 0⟩

theorem calls10018_decode :
    (setFields 0 mode.calls10018).extractLsb' 0 9 = mode.hBackporch ∧
      (setFields 0 mode.calls10018).extractLsb' 9 1 = mode.invHsync ∧
      (setFields 0 mode.calls10018).extractLsb' 10 1 = mode.invVsync ∧
      (setFields 0 mode.calls10018).extractLsb' 12 7 = mode.hSynclen ∧
      (setFields 0 mode.calls10018).extractLsb' 20 9 = mode.hFrontporch := by
  have hpacks := (calls_packs mode).2.1
  exact ⟨extractLsb'_setFields hpacks 0 rfl rfl 0, extractLsb'_setFields hpacks 1 rfl rfl 0,
    extractLsb'_setFields hpacks 2 rfl rfl 0, extractLsb'_setFields hpacks 3 rfl rfl 0,
    extractLsb'_setFields hpacks 4 rfl rfl 0⟩

theorem calls1001c_decode :
    (setFields 0 mode.calls1001c).extractLsb' 0 3 = mode.vSynclen0 ∧
      (setFields 0 mode.calls1001c).extractLsb' 4 8 = mode.vFrontporch0 ∧
      (setFields 0 mode.calls1001c).extractLsb' 12 11 = mode.yres0 ∧
      (setFields 0 mode.calls1001c).extractLsb' 24 4 = mode.vBackporch0 ∧
      (setFields 0 mode.calls1001c).extractLsb' 28 1 = mode.ntscFlag := by
  have hpacks := (calls_packs mode).2.2.1
  exact ⟨extractLsb'_setFields hpacks 0 rfl rfl 0, extractLsb'_setFields hpacks 1 rfl rfl 0,
    extractLsb'_setFields hpacks 2 rfl rfl 0, extractLsb'_setFields hpacks 3 rfl rfl 0,
    extractLsb'_setFields hpacks 4 rfl rfl 0⟩

theorem calls10020_decode :
    (setFields 0 mode.calls10020).extractLsb' 0 3 = mode.vSynclen1 ∧
      (setFields 0 mode.calls10020).extractLsb' 4 8 = mode.vFrontporch1 ∧
      (setFields 0 mode.calls10020).extractLsb' 12 11 = mode.yres1 ∧
      (setFields 0 mode.calls10020).extractLsb' 24 4 = mode.vBackporch1 := by
  have hpacks := (calls_packs mode).2.2.2.1
  exact ⟨extractLsb'_setFields hpacks 0 rfl rfl 0, extractLsb'_setFields hpacks 1 rfl rfl 0,
    extractLsb'_setFields hpacks 2 rfl rfl 0, extractLsb'_setFields hpacks 3 rfl rfl 0⟩

theorem calls10024_decode :
    (setFields 0 mode.calls10024).extractLsb' 0 22 = mode.y ∧
      (setFields 0 mode.calls10024).extractLsb' 24 1 = mode.z ∧
      (setFields 0 mode.calls10024).extractLsb' 28 4 = mode.aa := by
  have hpacks := (calls_packs mode).2.2.2.2.1
  exact ⟨extractLsb'_setFields hpacks 0 rfl rfl 0, extractLsb'_setFields hpacks 1 rfl rfl 0,
    extractLsb'_setFields hpacks 2 rfl rfl 0⟩

theorem calls10028_decode :
    (setFields 0 mode.calls10028).extractLsb' 0 12 = mode.bb ∧
      (setFields 0 mode.calls10028).extractLsb' 24 1 = mode.cc := by
  have hpacks := (calls_packs mode).2.2.2.2.2
  exact ⟨extractLsb'_setFields hpacks 0 rfl rfl 0, extractLsb'_setFields hpacks 1 rfl rfl 0⟩

end Packing

/-! ## Modes -/

/-- The registers hold the mode, and nothing else changed: every field decodes, up to the
upper half of `dd`; the bits of no field are 0; the other registers are as they were. -/
structure ModeProgrammed (r r' : RegSpace) (mode : ModeDef) : Prop where
  decodes : documentedMode (tl880ReadRegister r') = mode.programmable
  unassigned : ∀ p ∈ syncLayout, ∀ i, (∀ f ∈ p.2, ¬ (f.2 ≤ i ∧ i ≤ f.1)) →
    (tl880ReadRegister r' p.1).getLsbD i = false
  clock : tl880ReadRegister r' 0x5800 = BitVec.ofNat 32 (mode.dd.toNat % 2 ^ 32)
  switch : tl880ReadRegister r' 0x10000 = tl880ReadRegister r 0x10000
  frame : ∀ reg, reg ∉ modeRegisters → tl880ReadRegister r' reg = tl880ReadRegister r reg

section Modes

variable {r : RegSpace} (hr : r.mapped = true) (mode : ModeDef)
include hr

theorem documentedMode_tl880SetMode :
    documentedMode (tl880ReadRegister (tl880SetMode (some mode) r)) = mode.programmable := by
  obtain ⟨h14, h18, h1c, h20, h24, h28, h5800⟩ := tl880SetMode_read hr mode
  have hdd : ((mode.dd.setWidth 32 : U32).setWidth 64 : U64) =
      BitVec.ofNat 64 (mode.dd.toNat % 2 ^ 32) := by
    apply BitVec.eq_of_toNat_eq
    simp
  simp only [documentedMode, h14, h18, h1c, h20, h24, h28, h5800, hdd, calls10014_decode,
    calls10018_decode, calls1001c_decode, calls10020_decode, calls10024_decode,
    calls10028_decode, ModeDef.programmable]

/-- The bits that no field covers stay 0. -/
theorem tl880SetMode_unassigned {reg : U32} {ranges : List (Nat × Nat)}
    (hreg : (reg, ranges) ∈ syncLayout) {i : Nat}
    (hout : ∀ f ∈ ranges, ¬ (f.2 ≤ i ∧ i ≤ f.1)) :
    (tl880ReadRegister (tl880SetMode (some mode) r) reg).getLsbD i = false := by
  obtain ⟨h14, h18, h1c, h20, h24, h28, -⟩ := tl880SetMode_read hr mode
  have hpacks : Packs ranges := syncLayout_packs _ hreg
  have hzero : ∀ {calls : List BitsCall}, ranges = calls.map callRange →
      (setFields 0 calls).getLsbD i = false := by
    intro calls hranges
    rw [hranges] at hpacks hout
    rw [getLsbD_setFields_out hpacks]
    · exact BitVec.getLsbD_zero
    · intro call hcall
      exact hout (callRange call) (List.mem_map_of_mem hcall)
  rw [calls_range mode] at hreg
  simp only [List.mem_cons, Prod.mk.injEq, List.not_mem_nil, or_false] at hreg
  rcases hreg with ⟨rfl, h⟩ | ⟨rfl, h⟩ | ⟨rfl, h⟩ | ⟨rfl, h⟩ | ⟨rfl, h⟩ | ⟨rfl, h⟩
  · rw [h14, hzero h]
  · rw [h18, hzero h]
  · rw [h1c, hzero h]
  · rw [h20, hzero h]
  · rw [h24, hzero h]
  · rw [h28, hzero h]

theorem tl880SetMode_programmed : ModeProgrammed r (tl880SetMode (some mode) r) mode where
  decodes := documentedMode_tl880SetMode hr mode
  unassigned p hp i hout := tl880SetMode_unassigned hr mode hp hout
  clock := by
    rw [(tl880SetMode_read hr mode).2.2.2.2.2.2]
    apply BitVec.eq_of_toNat_eq
    simp
  switch := tl880SetMode_frame hr mode (by decide)
  frame _ hreg := tl880SetMode_frame hr mode hreg

end Modes

/-- The documented mode depends on the registers of the mode only. -/
theorem documentedMode_congr {read read' : U32 → U32}
    (h : ∀ reg ∈ modeRegisters, read reg = read' reg) :
    documentedMode read = documentedMode read' := by
  simp only [modeRegisters, List.forall_mem_cons] at h
  obtain ⟨h14, h18, h1c, h20, h28, h24, h5800, -⟩ := h
  simp only [documentedMode, h14, h18, h1c, h20, h24, h28, h5800]

/-- Setting a mode loses nothing and changes nothing else, and modes that differ, other than
in the upper half of `dd`, never set the registers in the same way. -/
theorem tl880SetMode_lossless {r : RegSpace} (hr : r.mapped = true) (mode : ModeDef) :
    ModeProgrammed r (tl880SetMode (some mode) r) mode ∧
      ∀ (r₂ : RegSpace) (mode₂ : ModeDef), r₂.mapped = true →
        (∀ reg ∈ modeRegisters, tl880ReadRegister (tl880SetMode (some mode) r) reg =
          tl880ReadRegister (tl880SetMode (some mode₂) r₂) reg) →
        mode.programmable = mode₂.programmable := by
  refine ⟨tl880SetMode_programmed hr mode, ?_⟩
  intro r₂ mode₂ hr₂ hsame
  rw [← documentedMode_tl880SetMode hr mode, ← documentedMode_tl880SetMode hr₂ mode₂]
  exact documentedMode_congr hsame

/-- The first mode of `tl880_modes`, 1024 by 768. -/
def mode1024x768 : ModeDef where
  a := 0
  b := 1
  c := 1
  progScan := 1
  e := 540
  xres := 1024
  g := 1
  h := 1
  i := 0
  j := 0
  hBackporch := 31
  invHsync := 0
  invVsync := 0
  hSynclen := 127
  hFrontporch := 160
  vSynclen0 := 6
  vFrontporch0 := 29
  yres0 := 768
  vBackporch0 := 3
  ntscFlag := 0
  vSynclen1 := 0
  vFrontporch1 := 0
  yres1 := 0
  vBackporch1 := 0
  y := 5
  z := 1
  aa := 4
  bb := 40
  cc := 1
  dd := 0x01151bb0

theorem tl880SetMode_lossless_1024x768 :
    ModeProgrammed blankRegs (tl880SetMode (some mode1024x768) blankRegs) mode1024x768 :=
  (tl880SetMode_lossless rfl mode1024x768).1

end Tl880
