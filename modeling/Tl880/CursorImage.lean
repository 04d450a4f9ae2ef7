import Tl880.Lib.Blocks
import Tl880.Registers

/-!
# The picture of the cursor

`tools/cursor.c` draws a picture of 32 by 32 pixels into the card's memory, and then draws it
again and again to cycle its colours.  A pixel has four bits; two pixels are packed in a byte,
and every four bytes are turned round.
-/

namespace Tl880

open Blocks

/-! ## The tool -/

/-- Two pixels in a byte, `((high & mask) << 4) | (low & mask)`. -/
def packPixels (high low mask : U8) : U8 := ((high &&& mask) <<< 4) ||| (low &&& mask)

/-- The body of the loop, with its counter at `i`. -/
def drawRound (cursor : Nat → U8) (mask : U8) (i : Nat) (memspace : Nat → U8) : Nat → U8 :=
  let j := i * 2
  let memspace := Function.update memspace (0x1d8000 + i + 3)
    (packPixels (cursor (j + 0)) (cursor (j + 1)) mask)
  let memspace := Function.update memspace (0x1d8000 + i + 2)
    (packPixels (cursor (j + 2)) (cursor (j + 3)) mask)
  let memspace := Function.update memspace (0x1d8000 + i + 1)
    (packPixels (cursor (j + 4)) (cursor (j + 5)) mask)
  Function.update memspace (0x1d8000 + i + 0)
    (packPixels (cursor (j + 6)) (cursor (j + 7)) mask)

/-- `for(i = 0; i < 512; i += 4)` -/
def drawLoop (cursor : Nat → U8) (mask : U8) (memspace : Nat → U8) : Nat → U8 :=
  (List.range 128).foldl (fun memspace k => drawRound cursor mask (4 * k) memspace) memspace

/-- The masks of a run of the tool: the picture is drawn, and its colours are cycled. -/
def cursorMasks : List U8 := 0x0f :: (List.range 16).map (BitVec.ofNat 8)

/-- The memory after some of the drawing. -/
def drawCursor (cursor : Nat → U8) (masks : List U8) (memspace : Nat → U8) : Nat → U8 :=
  masks.foldl (fun memspace mask => drawLoop cursor mask memspace) memspace

/-! ## What is drawn -/

/-- Pixel `p` of the picture in memory. -/
def pixelAt (memspace : Nat → U8) (p : Nat) : U8 :=
  let byte := memspace (0x1d8000 + mirror 4 (p / 2))
  if p % 2 = 0 then byte >>> 4 else byte &&& 0x0f

/-- Byte `k` of the picture, before the words are turned round. -/
def pictureByte (cursor : Nat → U8) (mask : U8) (k : Nat) : U8 :=
  packPixels (cursor (2 * k)) (cursor (2 * k + 1)) mask

/-- A round stores the four bytes of its word. -/
theorem drawRound_eq (cursor : Nat → U8) (mask : U8) {i : Nat} (hi : 4 ∣ i)
    (memspace : Nat → U8) :
    drawRound cursor mask i memspace =
      store (0x1d8000 + i) 4 (fun k => pictureByte cursor mask (mirror 4 (i + k))) memspace := by
  obtain ⟨word, rfl⟩ := hi
  funext o
  by_cases ho : 0x1d8000 + 4 * word ≤ o ∧ o < 0x1d8000 + 4 * word + 4
  · obtain ⟨k, hk, rfl⟩ : ∃ k < 4, o = 0x1d8000 + 4 * word + k :=
      ⟨o - (0x1d8000 + 4 * word), by omega, by omega⟩
    rw [store_get hk, mirror_group (by omega) word hk, pictureByte, drawRound]
    have hk' : k = 0 ∨ k = 1 ∨ k = 2 ∨ k = 3 := by omega
    -- each byte is stored once, in the order 3, 2, 1, 0
    rcases hk' with rfl | rfl | rfl | rfl
    · have hplace : 2 * (4 * word + (4 - 1 - 0)) = 4 * word * 2 + 6 := by omega
      rw [hplace]
      exact Function.update_self _ _ _
    · have hplace : 2 * (4 * word + (4 - 1 - 1)) = 4 * word * 2 + 4 := by omega
      rw [hplace, Function.update_of_ne (by omega)]
      exact Function.update_self _ _ _
    · have hplace : 2 * (4 * word + (4 - 1 - 2)) = 4 * word * 2 + 2 := by omega
      rw [hplace, Function.update_of_ne (by omega), Function.update_of_ne (by omega)]
      exact Function.update_self _ _ _
    · have hplace : 2 * (4 * word + (4 - 1 - 3)) = 4 * word * 2 + 0 := by omega
      rw [hplace, Function.update_of_ne (by omega), Function.update_of_ne (by omega),
        Function.update_of_ne (by omega)]
      exact Function.update_self _ _ _
  · rw [store_outside (by omega), drawRound]
    rw [Function.update_of_ne (by omega), Function.update_of_ne (by omega),
      Function.update_of_ne (by omega), Function.update_of_ne (by omega)]

/-- The rounds store the picture. -/
theorem drawRounds_eq (cursor : Nat → U8) (mask : U8) (n : Nat) (memspace : Nat → U8) :
    (List.range n).foldl (fun memspace k => drawRound cursor mask (4 * k) memspace) memspace =
      store 0x1d8000 (4 * n) (fun k => pictureByte cursor mask (mirror 4 k)) memspace := by
  induction n with
  | zero => simp
  | succ n ih =>
      rw [List.range_succ, List.foldl_append, ih]
      show drawRound cursor mask (4 * n) _ = _
      rw [drawRound_eq cursor mask (Nat.dvd_mul_right 4 n), Nat.mul_succ, ← store_append]

theorem drawLoop_eq (cursor : Nat → U8) (mask : U8) (memspace : Nat → U8) :
    drawLoop cursor mask memspace =
      store 0x1d8000 512 (fun k => pictureByte cursor mask (mirror 4 k)) memspace :=
  drawRounds_eq cursor mask 128 memspace

/-! ## What is read back -/

/-- A number up to 15 has no bits from bit 4 on. -/
theorem getLsbD_nibble {x : U8} (hx : x ≤ 0x0f) {i : Nat} (hi : 4 ≤ i) : x.getLsbD i = false := by
  have hle : x.toNat ≤ 15 := BitVec.le_def.mp hx
  have hpow : 2 ^ 4 ≤ 2 ^ i := Nat.pow_le_pow_right (by omega) hi
  exact Nat.testBit_lt_two_pow (by omega)

theorem and_mask_le {mask : U8} (hmask : mask ≤ 0x0f) (x : U8) : x &&& mask ≤ 0x0f := by
  rw [BitVec.le_def, BitVec.toNat_and]
  exact Nat.le_trans Nat.and_le_right (BitVec.le_def.mp hmask)

theorem packPixels_high {mask : U8} (hmask : mask ≤ 0x0f) (high low : U8) :
    packPixels high low mask >>> 4 = high &&& mask := by
  have hhigh := and_mask_le hmask high
  have hlow := and_mask_le hmask low
  rw [packPixels]
  generalize high &&& mask = a at hhigh
  generalize low &&& mask = b at hlow
  apply BitVec.eq_of_getLsbD_eq
  intro i hi
  rw [BitVec.getLsbD_ushiftRight, BitVec.getLsbD_or, BitVec.getLsbD_shiftLeft,
    getLsbD_nibble hlow (by omega), Nat.add_sub_cancel_left]
  by_cases hbit : i < 4
  · have hbyte : 4 + i < 8 := by omega
    simp [hbyte]
  · simp [getLsbD_nibble hhigh (show 4 ≤ i by omega)]

theorem packPixels_low {mask : U8} (hmask : mask ≤ 0x0f) (high low : U8) :
    packPixels high low mask &&& 0x0f = low &&& mask := by
  have hlow := and_mask_le hmask low
  have hbits : ∀ i < 8, (0x0f : U8).getLsbD i = decide (i < 4) := by decide
  rw [packPixels]
  generalize low &&& mask = b at hlow
  apply BitVec.eq_of_getLsbD_eq
  intro i hi
  rw [BitVec.getLsbD_and, BitVec.getLsbD_or, BitVec.getLsbD_shiftLeft, hbits i hi]
  by_cases hbit : i < 4
  · simp [hbit]
  · rw [getLsbD_nibble hlow (show 4 ≤ i by omega), decide_eq_false hbit, Bool.and_false]

/-- Every pixel of a drawing is read back, as far as the mask lets it through. -/
theorem pixelAt_drawLoop (cursor : Nat → U8) {mask : U8} (hmask : mask ≤ 0x0f)
    (memspace : Nat → U8) {p : Nat} (hp : p < 1024) :
    pixelAt (drawLoop cursor mask memspace) p = cursor p &&& mask := by
  have hread : drawLoop cursor mask memspace (0x1d8000 + mirror 4 (p / 2)) =
      pictureByte cursor mask (p / 2) := by
    rw [drawLoop_eq]
    exact store_mirror_get (by omega) (by omega) (by omega)
  rw [pixelAt, hread, pictureByte]
  split_ifs with heven
  · rw [packPixels_high hmask]
    congr 2
    omega
  · rw [packPixels_low hmask]
    congr 2
    omega

/-- A drawing covers the one before it. -/
theorem drawLoop_drawLoop (cursor cursor' : Nat → U8) (mask mask' : U8) (memspace : Nat → U8) :
    drawLoop cursor mask (drawLoop cursor' mask' memspace) = drawLoop cursor mask memspace := by
  simp only [drawLoop_eq]
  funext o
  by_cases ho : 0x1d8000 ≤ o ∧ o < 0x1d8000 + 512
  · rw [store_inside ho.1 ho.2, store_inside ho.1 ho.2]
  · rw [store_outside (by omega), store_outside (by omega), store_outside (by omega)]

/-- Only the last drawing is seen. -/
theorem drawCursor_last (cursor : Nat → U8) {masks : List U8} {mask : U8}
    (hlast : masks.getLast? = some mask) (memspace : Nat → U8) :
    drawCursor cursor masks memspace = drawLoop cursor mask memspace := by
  induction masks generalizing memspace with
  | nil => cases hlast
  | cons first rest ih =>
      show drawCursor cursor rest (drawLoop cursor first memspace) = _
      cases rest with
      | nil =>
          obtain rfl : first = mask := by simpa using hlast
          rfl
      | cons second rest =>
          rw [List.getLast?_cons_cons] at hlast
          rw [ih hlast, drawLoop_drawLoop]

theorem drawCursor_outside (cursor : Nat → U8) (masks : List U8) (memspace : Nat → U8) {o : Nat}
    (ho : o < 0x1d8000 ∨ 0x1d8000 + 512 ≤ o) : drawCursor cursor masks memspace o = memspace o := by
  induction masks generalizing memspace with
  | nil => rfl
  | cons first rest ih =>
      show drawCursor cursor rest (drawLoop cursor first memspace) o = _
      rw [ih, drawLoop_eq, store_outside ho]

/-- Whatever was drawn, the picture in memory is the one that was drawn last, pixel by pixel,
and no other byte has changed.  The tool ends with the picture itself. -/
theorem drawCursor_pixels (cursor : Nat → U8) {masks : List U8}
    (hmasks : ∀ mask ∈ masks, mask ≤ 0x0f) (memspace : Nat → U8) :
    (∀ o, o < 0x1d8000 ∨ 0x1d8000 + 512 ≤ o → drawCursor cursor masks memspace o = memspace o) ∧
      (∀ mask, masks.getLast? = some mask → ∀ p < 1024,
        pixelAt (drawCursor cursor masks memspace) p = cursor p &&& mask) ∧
      ∀ p < 1024, pixelAt (drawCursor cursor cursorMasks memspace) p = cursor p &&& 0x0f := by
  refine ⟨fun o ho => drawCursor_outside cursor masks memspace ho, ?_, ?_⟩
  · intro mask hlast p hp
    rw [drawCursor_last cursor hlast]
    exact pixelAt_drawLoop cursor (hmasks mask (List.mem_of_getLast? hlast)) memspace hp
  · intro p hp
    have hlast : cursorMasks.getLast? = some 0x0f := rfl
    rw [drawCursor_last cursor hlast]
    exact pixelAt_drawLoop cursor (BitVec.le_refl _) memspace hp

/-- The masks of the tool. -/
theorem drawCursor_pixels_tool :
    (∀ o, o < 0x1d8000 ∨ 0x1d8000 + 512 ≤ o →
        drawCursor (fun p => BitVec.ofNat 8 p) cursorMasks (fun _ => 0) o = 0) ∧
      (∀ mask, cursorMasks.getLast? = some mask → ∀ p < 1024,
        pixelAt (drawCursor (fun p => BitVec.ofNat 8 p) cursorMasks fun _ => 0) p =
          BitVec.ofNat 8 p &&& mask) ∧
      ∀ p < 1024, pixelAt (drawCursor (fun p => BitVec.ofNat 8 p) cursorMasks fun _ => 0) p =
        BitVec.ofNat 8 p &&& 0x0f :=
  drawCursor_pixels (fun p => BitVec.ofNat 8 p) (by decide) fun _ => 0

end Tl880
