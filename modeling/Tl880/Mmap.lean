import Tl880.CardList

/-!
# Mapping a card into user space

The model of `tl880_mmap` of `driver/tl880kern.c` on a 64-bit CPU with pages of
4096 bytes.  The minor number selects a card and one of its three regions; the
result is what is handed to `remap_pfn_range`, which is taken to succeed.  The
function computes how much of the region lies behind the requested offset, but
never compares it with the length of the request.
-/

namespace Tl880

/-! ## Pages -/

def pageShift : Nat := 12

/-- `PAGE_MASK` -/
def pageMask : U64 := ~~~0xfff

/-- `PAGE_ALIGN` -/
def pageAlign (x : U64) : U64 := (x + 0xfff) &&& pageMask

/-- The number of pages that `size` bytes take. -/
def pageCount (size : Nat) : Nat := (size + 4095) / 4096

/-- Masking an address gives the start of its page. -/
theorem and_pageMask_toNat (x : U64) : (x &&& pageMask).toNat = x.toNat / 4096 * 4096 := by
  have hbits : ∀ i < 64, pageMask.getLsbD i = decide (12 ≤ i) := by decide
  have hshift : x &&& pageMask = x >>> 12 <<< 12 := by
    apply BitVec.eq_of_getLsbD_eq
    intro i hi
    rw [BitVec.getLsbD_and, hbits i hi, BitVec.getLsbD_shiftLeft, BitVec.getLsbD_ushiftRight]
    by_cases hlow : i < 12
    · simp [hlow, Nat.not_le.mpr hlow]
    · have hsum : 12 + (i - 12) = i := by omega
      simp [hlow, hi, hsum, Nat.not_lt.mp hlow]
  have hlt : x.toNat < 2 ^ 64 := x.isLt
  rw [hshift, BitVec.toNat_shiftLeft, BitVec.toNat_ushiftRight, Nat.shiftRight_eq_div_pow,
    Nat.shiftLeft_eq]
  omega

/-! ## `tl880_mmap` -/

/-- The part of `struct vm_area_struct` that is read. -/
structure VmArea where
  vmStart : U64
  vmEnd : U64
  vmPgoff : U64
  deriving DecidableEq

/-- The result of `tl880_mmap`: an error, or 0 after `remap_pfn_range` was called
for `size` bytes from the page frame `pfn` on. -/
inductive MmapResult
  | einval
  | enodev
  | mapped (pfn size : U64)
  deriving DecidableEq

/-- The map type of a minor number, from its `FUNC_MASK` bits. -/
def mapType (minor : U32) : Option MapType :=
  if minor &&& 3 = 0 then some .mem
  else if minor &&& 3 = 1 then some .reg
  else if minor &&& 3 = 2 then some .unk
  else none

/-- `start` and `length` for a region and an offset. -/
def mmapWindow (region : Region) (offset : U64) : U64 × U64 :=
  ((region.phys &&& pageMask) + offset,
    pageAlign ((region.phys &&& ~~~pageMask) + region.len - offset))

/-- `tl880_mmap`.  The computed length is only printed. -/
def tl880Mmap (list : List Tl880Card) (minor : U32) (vma : VmArea) : MmapResult :=
  let offset := vma.vmPgoff <<< pageShift
  match mapType minor with
  | none => .enodev
  | some maptype =>
      match findTl880 list ((minor / 4).setWidth 64) with
      | none => .einval
      | some card =>
          -- the length of the request is not compared with that of the window
          let (start, _) := mmapWindow (card.region maptype) offset
          .mapped (start >>> pageShift) (vma.vmEnd - vma.vmStart)

/-! ## Confinement -/

/-- The region a minor number selects. -/
def selectedRegion (list : List Tl880Card) (minor : U32) : Option Region :=
  (mapType minor).bind fun maptype =>
    (findTl880 list ((minor / 4).setWidth 64)).map fun card => card.region maptype

/-- The first byte of the page the region starts in, and the byte behind the page
it ends in. -/
def Region.pageStart (region : Region) : Nat := region.phys.toNat / 4096 * 4096

def Region.pageEnd (region : Region) : Nat :=
  (region.phys.toNat + region.len.toNat + 4095) / 4096 * 4096

/-- Every page handed to `remap_pfn_range` is a page of the region. -/
def Region.PagesInside (region : Region) (pfn size : U64) : Prop :=
  ∀ i < pageCount size.toNat,
    region.pageStart ≤ (pfn.toNat + i) * 4096 ∧ (pfn.toNat + i) * 4096 < region.pageEnd

/-- The request lies in the region: counted from the start of the region's first
page, without wrapping, its offset and length do not reach beyond the last. -/
def Region.Holds (region : Region) (vma : VmArea) : Prop :=
  region.pageStart + vma.vmPgoff.toNat * 4096 + (vma.vmEnd - vma.vmStart).toNat ≤
    region.pageEnd

/-- There are no pages to map, or the pages counted from the offset the function
computes, which is the low 64 bits of the requested one, end with the region. -/
def Region.HoldsPages (region : Region) (vma : VmArea) : Prop :=
  pageCount (vma.vmEnd - vma.vmStart).toNat = 0 ∨
    region.pageStart + vma.vmPgoff.toNat * 4096 % 2 ^ 64 +
      pageCount (vma.vmEnd - vma.vmStart).toNat * 4096 ≤ region.pageEnd

/-- The page frame that is mapped first. -/
def Region.firstFrame (region : Region) (vma : VmArea) : U64 :=
  ((region.phys &&& pageMask) + vma.vmPgoff <<< pageShift) >>> pageShift

/-- `tl880_mmap` maps whatever is requested of a selected region. -/
theorem tl880Mmap_eq (list : List Tl880Card) (minor : U32) (vma : VmArea) :
    tl880Mmap list minor vma =
      match selectedRegion list minor with
      | none => if mapType minor = none then .enodev else .einval
      | some region => .mapped (region.firstFrame vma) (vma.vmEnd - vma.vmStart) := by
  unfold tl880Mmap selectedRegion mmapWindow
  cases mapType minor with
  | none => rfl
  | some maptype =>
      cases findTl880 list ((minor / 4).setWidth 64) with
      | none => rfl
      | some card => rfl

theorem Region.firstFrame_toNat (region : Region) (vma : VmArea) :
    (region.firstFrame vma).toNat =
      (region.pageStart + vma.vmPgoff.toNat * 4096 % 2 ^ 64) % 2 ^ 64 / 4096 := by
  have hoffset : (vma.vmPgoff <<< pageShift).toNat = vma.vmPgoff.toNat * 4096 % 2 ^ 64 := by
    rw [BitVec.toNat_shiftLeft, Nat.shiftLeft_eq]
    rfl
  unfold Region.firstFrame
  rw [BitVec.toNat_ushiftRight, BitVec.toNat_add, and_pageMask_toNat, hoffset,
    Nat.shiftRight_eq_div_pow]
  rfl

theorem Region.pageEnd_le (region : Region) : region.pageEnd ≤ 2 ^ 64 := by
  have hfits := region.fits
  unfold Region.pageEnd
  omega

/-- The mapped pages are pages of the region exactly when they end with it: a sum
that wraps starts before the region. -/
theorem Region.pagesInside_iff (region : Region) (vma : VmArea) :
    region.PagesInside (region.firstFrame vma) (vma.vmEnd - vma.vmStart) ↔
      region.HoldsPages vma := by
  have hend := region.pageEnd_le
  have hstart : region.pageStart < 2 ^ 64 := by
    have hlt := region.phys.isLt
    unfold Region.pageStart
    omega
  have hstartPage : region.pageStart % 4096 = 0 := Nat.mul_mod_left _ _
  have hendPage : region.pageEnd % 4096 = 0 := Nat.mul_mod_left _ _
  unfold Region.PagesInside Region.HoldsPages
  rw [region.firstFrame_toNat vma]
  generalize pageCount (vma.vmEnd - vma.vmStart).toNat = pages
  generalize hoffset : vma.vmPgoff.toNat * 4096 % 2 ^ 64 = offset
  have hoffsetPage : offset % 4096 = 0 := by omega
  constructor
  · intro h
    by_cases hnone : pages = 0
    · exact Or.inl hnone
    · right
      obtain ⟨hfirst, -⟩ := h 0 (by omega)
      obtain ⟨-, hlast⟩ := h (pages - 1) (by omega)
      omega
  · rintro (hnone | hfit) i hi
    · omega
    · omega

/-- A request that lies in the region is mapped to pages that end with it. -/
theorem Region.Holds.pages {region : Region} {vma : VmArea} (h : region.Holds vma) :
    region.HoldsPages vma := by
  have hend := region.pageEnd_le
  have hstartPage : region.pageStart % 4096 = 0 := Nat.mul_mod_left _ _
  have hendPage : region.pageEnd % 4096 = 0 := Nat.mul_mod_left _ _
  unfold Region.Holds at h
  unfold Region.HoldsPages pageCount
  omega

/-- When `tl880_mmap` is confined to the region it selects.  Its pages are all pages
of that region if and only if the pages counted from the offset it computes end
with the region; it maps such pages only, and refuses requests that reach beyond
the region, if and only if no such request is made of it. -/
theorem tl880Mmap_confined_iff (list : List Tl880Card) (minor : U32) (vma : VmArea) :
    ((∀ pfn size, tl880Mmap list minor vma = .mapped pfn size →
        ∃ region, selectedRegion list minor = some region ∧ region.PagesInside pfn size) ↔
      ∀ region, selectedRegion list minor = some region → region.HoldsPages vma) ∧
    ((∀ pfn size, tl880Mmap list minor vma = .mapped pfn size →
        ∃ region, selectedRegion list minor = some region ∧
          region.PagesInside pfn size ∧ region.Holds vma) ↔
      ∀ region, selectedRegion list minor = some region → region.Holds vma) := by
  rw [tl880Mmap_eq]
  cases hregion : selectedRegion list minor with
  | none =>
      have hrefused (pfn size : U64) :
          (if mapType minor = none then MmapResult.enodev else .einval) ≠
            .mapped pfn size := by
        split_ifs <;> nofun
      constructor <;> constructor
      · nofun
      · exact fun _ pfn size hmapped => absurd hmapped (hrefused pfn size)
      · nofun
      · exact fun _ pfn size hmapped => absurd hmapped (hrefused pfn size)
  | some region =>
      constructor <;> constructor
      · rintro h _ ⟨⟩
        obtain ⟨_, ⟨⟩, hpages⟩ := h _ _ rfl
        exact (region.pagesInside_iff vma).mp hpages
      · rintro h _ _ ⟨⟩
        exact ⟨region, rfl, (region.pagesInside_iff vma).mpr (h region rfl)⟩
      · rintro h _ ⟨⟩
        obtain ⟨_, ⟨⟩, -, hrequest⟩ := h _ _ rfl
        exact hrequest
      · rintro h _ _ ⟨⟩
        have hholds := h region rfl
        exact ⟨region, rfl, (region.pagesInside_iff vma).mpr hholds.pages, hholds⟩

/-- A request for one page behind the 16 megabytes of a card's memory is granted:
the page is the first one of whatever lies there. -/
theorem tl880Mmap_beyond_memory :
    let device : PciDev := ⟨1, "0000:01:00.0", ⟨0xe0000000, 0x1000000, by decide⟩,
      ⟨0xe1000000, 0x100000, by decide⟩, ⟨0xe1100000, 0x10000, by decide⟩, 11⟩
    let list := [newCard 100 device 0]
    let vma : VmArea := ⟨0x10000, 0x11000, 0x1000⟩
    tl880Mmap list 0 vma = .mapped 0xe1000 0x1000 ∧
      ¬ (∀ pfn size, tl880Mmap list 0 vma = .mapped pfn size →
        ∃ region, selectedRegion list 0 = some region ∧
          region.PagesInside pfn size ∧ region.Holds vma) := by
  intro device list vma
  have hmapped : tl880Mmap list 0 vma = .mapped 0xe1000 0x1000 := by decide
  constructor
  · exact hmapped
  intro h
  obtain ⟨region, hregion, hpages, -⟩ := h _ _ hmapped
  have hmem : region = ⟨0xe0000000, 0x1000000, by decide⟩ :=
    Option.some.inj (hregion.symm.trans (by decide))
  rw [hmem] at hpages
  exact absurd (hpages 0 (by decide)).2 (by decide)

end Tl880
