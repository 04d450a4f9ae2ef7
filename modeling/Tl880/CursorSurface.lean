import Tl880.Display
import Tl880.OsdRoundTrip
import Tl880.RegFields

/-!
# The surface of the hardware cursor

`tl880_show_cursor` of `driver/tl880cursor.c` takes `field_c` of a cursor, the physical
address of its memory on the bus, divides it by 16 and writes it to the bits 25 to 4 of the
register 0x10100, where `doc/tl880doc.txt` has the offset of the cursor in card memory.
These bits hold an address modulo 64 MB, and the card's memory window is aligned to 16 MB
only, so the bus address of the window is left in the field unless it happens to be a
multiple of 64 MB.
-/

namespace Tl880

open AlignUp

/-! ## The cursor that is created -/

/-- The cursor that a call has put at the head of the list: its memory is aligned to 16
bytes, and `field_c` is the physical address of `field_8`. -/
theorem tl880CreateCursor_head {start delta address retval : U64} {total : Nat}
    {kmalloc : Nat → Bool} {fuel : Nat} {surface : Option (SurfaceDesc 64)}
    {s s' : CursorState 64} (h : WellFormed start delta total s.heap.blocks)
    (hcall : tl880CreateCursor address kmalloc fuel surface s = some (retval, s'))
    (hretval : retval ≠ 0) :
    ∃ c, s'.cursors = c :: s.cursors ∧ c.address = retval ∧ 16 ∣ c.field8.toNat ∧
      c.fieldC = c.field8 + delta := by
  cases surface with
  | none =>
      cases hcall
      exact absurd rfl hretval
  | some surface =>
      rw [tl880CreateCursor] at hcall
      by_cases hvalid : ¬ surface.Valid
      · rw [if_pos hvalid] at hcall
        cases hcall
        exact absurd rfl hretval
      rw [if_neg hvalid] at hcall
      by_cases haddress : address = 0#64
      · rw [if_pos haddress] at hcall
        cases hcall
        exact absurd rfl hretval
      rw [if_neg haddress] at hcall
      obtain ⟨⟨field8, heap⟩, halloc, heq⟩ := Option.map_eq_some_iff.mp hcall
      by_cases hfield8 : field8 = 0#64
      · simp only [if_pos hfield8] at heq
        cases heq
        exact absurd rfl hretval
      simp only [if_neg hfield8] at heq
      split_ifs at heq with hoffset
      · cases heq
        exact absurd rfl hretval
      cases heq
      obtain ⟨pre, b, post, -, -, hblocks, haddr, hafter⟩ :=
        tl880AllocateOsdmem_success h (by decide) (by decide) halloc hfield8
      refine ⟨_, rfl, rfl, ?_, ?_⟩
      · show 2 ^ 4 ∣ field8.toNat
        rw [haddr]
        exact alignUp_dvd (imageMask_toNat (by decide)) b.virtAddr
      · show tl880GetOsdmemOffset field8 heap.blocks = field8 + delta
        rw [hblocks] at hafter
        have haligned := b.allocated_aligned (0x10#64 - 1#64)
        rw [← haddr] at haligned
        rw [hblocks, ← haligned]
        exact hafter.getOsdmemOffset rfl

/-! ## The register -/

/-- A field that was set reads as the lowest bits of its value. -/
theorem extractLsb'_setBits {high low w : Nat} (hle : low ≤ high) (hhigh : high < 32)
    (hwidth : high - low < 31) (hw : high + 1 = low + w) (value setvalue : U32) :
    (setBits value high low setvalue).extractLsb' low w = setvalue.setWidth w := by
  apply BitVec.eq_of_getLsbD_eq
  intro i hi
  have hin : low ≤ low + i ∧ low + i ≤ high := by omega
  rw [BitVec.getLsbD_extractLsb', getLsbD_setBits hle hhigh hwidth, if_pos hin,
    BitVec.getLsbD_setWidth, Nat.add_sub_cancel_left]

/-- What showing a cursor leaves in the register 0x10100. -/
theorem read_tl880ShowCursor {r : RegSpace} (hr : r.mapped = true) (c : SOverlaySurface 64) :
    tl880ReadRegister (tl880ShowCursor (some c) 1 r) 0x10100 =
      setBits (tl880ReadRegister r 0x10100) 0x19 4 ((c.fieldC / 16).setWidth 32) := by
  have hne : (0x10100 : U32) ≠ 0x10108 := by decide
  have hswitch : (0x10100 : U32) ≠ 0x10000 := by decide
  have hstate : (1 : U8) ≠ 0 := by decide
  simp only [tl880ShowCursor, if_pos hstate, writeSurface,
    tl880ReadRegister_writeRegbits_ne _ hne, tl880ReadRegister_writeRegbits_ne _ hswitch]
  exact tl880ReadRegister_write_self hr (by decide) _

/-! ## The offset in card memory -/

/-- The register points at the cursor's memory: sixteen times the field is its offset in
card memory, and the other bits are as they were. -/
structure PointsAtSurface (r r' : RegSpace) (memspace : U64) (c : SOverlaySurface 64) : Prop where
  field : 16 * ((tl880ReadRegister r' 0x10100).extractLsb' 4 22).toNat =
    (c.field8 - memspace).toNat
  others : ∀ i, ¬ (4 ≤ i ∧ i ≤ 25) →
    (tl880ReadRegister r' 0x10100).getLsbD i = (tl880ReadRegister r 0x10100).getLsbD i

/-- Sixteen times a field of 22 bits, for the bus address `memphys + offset`. -/
theorem field_eq_offset_iff {memphys offset : Nat} (hbar : 2 ^ 24 ∣ memphys)
    (hbelow : offset < 2 ^ 24) :
    16 * ((memphys + offset) / 16 % 2 ^ 22) = offset ↔ 2 ^ 26 ∣ memphys ∧ 16 ∣ offset := by
  omega

/-- The bus address of memory below card offset `2 ^ 24` does not wrap. -/
theorem busAddress_toNat {memspace memphys addr : U64} (hbar : 2 ^ 24 ∣ memphys.toNat)
    (hbelow : (addr - memspace).toNat < 2 ^ 24) :
    (addr + (memphys - memspace)).toNat = memphys.toNat + (addr - memspace).toNat := by
  have hsum : addr + (memphys - memspace) = memphys + (addr - memspace) := by
    rw [BitVec.sub_eq_add_neg, BitVec.sub_eq_add_neg, ← BitVec.add_assoc, ← BitVec.add_assoc,
      BitVec.add_comm addr]
  have hlt := memphys.isLt
  rw [hsum, BitVec.toNat_add]
  apply Nat.mod_eq_of_lt
  omega

/-- An aligned address is at an aligned offset exactly when the memory window is aligned. -/
theorem offset_aligned_iff {memspace addr : U64} (haddr : 16 ∣ addr.toNat) :
    16 ∣ (addr - memspace).toNat ↔ 16 ∣ memspace.toNat := by
  have hlt := memspace.isLt
  rw [BitVec.toNat_sub]
  omega

/-- The hardware cursor points at its own surface exactly when the card's memory window is
at a multiple of 64 MB on the bus, and mapped at a multiple of 16. -/
theorem tl880ShowCursor_points_iff {memspace memphys start : U64} {total : Nat}
    (hbar : 2 ^ 24 ∣ memphys.toNat) {s s' : CursorState 64}
    (h : WellFormed start (memphys - memspace) total s.heap.blocks) {address retval : U64}
    {kmalloc : Nat → Bool} {fuel : Nat} {surface : Option (SurfaceDesc 64)}
    (hcall : tl880CreateCursor address kmalloc fuel surface s = some (retval, s'))
    (hretval : retval ≠ 0) {c : SOverlaySurface 64} (hc : s'.cursors.head? = some c)
    (hbelow : (c.field8 - memspace).toNat < 2 ^ 24) {r : RegSpace} (hr : r.mapped = true) :
    PointsAtSurface r (tl880ShowCursor (some c) 1 r) memspace c ↔
      2 ^ 26 ∣ memphys.toNat ∧ 16 ∣ memspace.toNat := by
  obtain ⟨c', hcursors, -, haligned, hfieldC⟩ := tl880CreateCursor_head h hcall hretval
  rw [hcursors, List.head?_cons] at hc
  cases hc
  have hbits : ∀ x v : U32, (setBits x 0x19 4 v).extractLsb' 4 22 = v.setWidth 22 :=
    extractLsb'_setBits (by decide) (by decide) (by decide) rfl
  have hfield :
      ((tl880ReadRegister (tl880ShowCursor (some c) 1 r) 0x10100).extractLsb' 4 22).toNat =
        (memphys.toNat + (c.field8 - memspace).toNat) / 16 % 2 ^ 22 := by
    rw [read_tl880ShowCursor hr, hbits, BitVec.setWidth_setWidth_of_le _ (by decide),
      BitVec.toNat_setWidth, BitVec.toNat_udiv, hfieldC, busAddress_toNat hbar hbelow]
    rfl
  have hothers : ∀ i, ¬ (4 ≤ i ∧ i ≤ 25) →
      (tl880ReadRegister (tl880ShowCursor (some c) 1 r) 0x10100).getLsbD i =
        (tl880ReadRegister r 0x10100).getLsbD i := by
    intro i hi
    rw [read_tl880ShowCursor hr, getLsbD_setBits (by decide) (by decide) (by decide)]
    exact if_neg hi
  rw [← offset_aligned_iff haligned, ← field_eq_offset_iff hbar hbelow, ← hfield]
  exact ⟨fun hpoints => hpoints.field, fun hsame => ⟨hsame, hothers⟩⟩

/-! ## Two cards -/

/-- A heap with one idle block that a cursor image fits into exactly. -/
def surfaceHeap (memspace memphys : U64) : OsdHeap 64 where
  blocks := [⟨0, memspace + 0x186008, memphys + 0x186008, 0x20f, false, 0x52300001⟩]
  idTracker := 1

theorem surfaceHeap_wellFormed (memspace memphys : U64) :
    WellFormed (memspace + 0x186008) (memphys - memspace) 0x20f
      (surfaceHeap memspace memphys).blocks := by
  have hsize : (0x20f : U64).toNat = 0x20f := rfl
  apply wellFormed_cons.mpr
  refine ⟨rfl, ?_, Nat.le_of_eq hsize, by decide, ?_, Nat.sub_self _, ?_, ?_⟩
  · show 0 < (0x20f : U64).toNat
    decide
  · constructor
    · show memphys + 0x186008 - (memspace + 0x186008) = memphys - memspace
      rw [BitVec.sub_eq_iff_eq_add, ← BitVec.add_assoc, BitVec.sub_add_cancel]
    · show (0x52300001 : U64) &&& 0xfff00000 = 0x52300000
      decide
    · intro _
      rfl
    · intro hactive
      cases hactive
  · show 0x20f - (0x20f : U64).toNat < 2 ^ 64
    decide
  · intro b hb
    cases hb

/-- A cursor image of 32 by 32. -/
def surfaceImage : SurfaceDesc 64 := ⟨0, 0, 0, 32, 32, 1, 1, 0x1c⟩

/-- The cursor that is created for the image. -/
def surfaceCursor (memspace memphys : U64) : SOverlaySurface 64 :=
  { newSurface 0xc0000000 1 surfaceImage with
    field8 := memspace + 0x186010
    fieldC := memphys + 0x186010 }

/-- The state after it is created. -/
def surfaceState (memspace memphys : U64) : CursorState 64 where
  cursors := [surfaceCursor memspace memphys]
  idTracker := 1
  heap :=
    { blocks := [⟨8, memspace + 0x186008, memphys + 0x186008, 0x20f, true, 0x52300001⟩]
      idTracker := 1 }

/-- Where the window is mapped by the kernel. -/
def mappedAt : U64 := 0xffffc90000000000

theorem tl880CreateCursor_surface (memphys : U64)
    (hmemphys : memphys = 0xe0000000 ∨ memphys = 0xe1000000) :
    tl880CreateCursor 0xc0000000 (fun _ => true) 1 (some surfaceImage)
        ⟨[], 0, surfaceHeap mappedAt memphys⟩ =
      some (0xc0000000, surfaceState mappedAt memphys) := by
  rcases hmemphys with rfl | rfl <;> rfl

theorem tl880ShowCursor_points_iff_64MB :
    PointsAtSurface blankRegs
        (tl880ShowCursor (some (surfaceCursor mappedAt 0xe0000000)) 1 blankRegs)
        mappedAt (surfaceCursor mappedAt 0xe0000000) ↔
      2 ^ 26 ∣ (0xe0000000 : U64).toNat ∧ 16 ∣ mappedAt.toNat :=
  tl880ShowCursor_points_iff (by decide) (surfaceHeap_wellFormed _ _)
    (tl880CreateCursor_surface _ (Or.inl rfl)) (by decide) rfl (by decide) rfl

/-- With the window at an odd multiple of 16 MB the register points 16 MB too far. -/
theorem tl880ShowCursor_points_elsewhere :
    ¬ ∀ (memspace memphys start : U64) (total : Nat) (s s' : CursorState 64)
        (address retval : U64) (kmalloc : Nat → Bool) (fuel : Nat)
        (surface : Option (SurfaceDesc 64)) (c : SOverlaySurface 64) (r : RegSpace),
      2 ^ 24 ∣ memphys.toNat → WellFormed start (memphys - memspace) total s.heap.blocks →
      tl880CreateCursor address kmalloc fuel surface s = some (retval, s') → retval ≠ 0 →
      s'.cursors.head? = some c → (c.field8 - memspace).toNat < 2 ^ 24 → r.mapped = true →
        PointsAtSurface r (tl880ShowCursor (some c) 1 r) memspace c := by
  intro hall
  have hfield := (hall mappedAt 0xe1000000 _ _ _ _ _ _ _ _ _ _ blankRegs (by decide)
    (surfaceHeap_wellFormed _ _) (tl880CreateCursor_surface _ (Or.inr rfl)) (by decide) rfl
    (by decide) rfl).field
  revert hfield
  decide

end Tl880
