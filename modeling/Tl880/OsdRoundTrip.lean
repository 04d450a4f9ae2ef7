import Tl880.Cursors

/-!
# OSD memory that is allocated and freed

`tl880_allocate_osdmem`, `tl880_get_osdmem_offset`, `tl880_deallocate_osdmem` and
`tl880_compact_osdmem` of `driver/tl880osd.c`, one after the other.  All four know a block
by its aligned address, the virtual address plus `field_0`, and in a well-formed list that
address belongs to one block (`WellFormed.aligned_nodup`), so the walk of the lookup and the
walk of the free stop at the block that was just set active and nowhere before it.
-/

namespace Tl880

open AlignUp

variable {w : Nat}

/-! ## The allocated block -/

/-- The block that an allocation sets active, with its alignment offset. -/
def OsdBlock.allocated (b : OsdBlock w) (alignsize : BitVec w) : OsdBlock w :=
  { b with active := true, field0 := alignUp alignsize b.virtAddr - b.virtAddr }

/-- The block after it is freed. -/
def OsdBlock.freed (b : OsdBlock w) : OsdBlock w := { b with active := false, field0 := 0#w }

/-- The aligned address of the allocated block is the one the allocation returns. -/
theorem OsdBlock.allocated_aligned (b : OsdBlock w) (alignsize : BitVec w) :
    (b.allocated alignsize).virtAddr + (b.allocated alignsize).field0 =
      alignUp alignsize b.virtAddr := by
  show b.virtAddr + (alignUp alignsize b.virtAddr - b.virtAddr) = _
  rw [BitVec.add_comm, BitVec.sub_add_cancel]

/-- Freeing an allocated block gives back the idle block that it was. -/
theorem OsdBlock.freed_allocated {b : OsdBlock w} (hactive : b.active = false)
    (hfield0 : b.field0 = 0#w) (alignsize : BitVec w) : (b.allocated alignsize).freed = b := by
  cases b
  simp_all [OsdBlock.allocated, OsdBlock.freed]

/-- A free stops at the first block with the address. -/
theorem tl880DeallocateOsdmem_first {addr : BitVec w} {pre : List (OsdBlock w)}
    {b : OsdBlock w} {post : List (OsdBlock w)}
    (htag : ∀ c ∈ pre ++ b :: post, c.Tagged)
    (hpre : ∀ c ∈ pre, c.virtAddr + c.field0 ≠ addr) (hb : b.virtAddr + b.field0 = addr) :
    tl880DeallocateOsdmem addr (pre ++ b :: post) = (1, pre ++ b.freed :: post) := by
  induction pre with
  | nil =>
      have htagged : ¬ ¬ b.Tagged := not_not_intro (htag b List.mem_cons_self)
      rw [List.nil_append, tl880DeallocateOsdmem, if_neg htagged, if_pos hb]
      rfl
  | cons c pre ih =>
      have htagged : ¬ ¬ c.Tagged := not_not_intro (htag c List.mem_cons_self)
      have hrest : ∀ d ∈ pre ++ b :: post, d.Tagged :=
        fun d hd => htag d (List.mem_cons_of_mem c hd)
      rw [List.cons_append, tl880DeallocateOsdmem, if_neg htagged,
        if_neg (hpre c List.mem_cons_self), ih hrest fun d hd => hpre d (List.mem_cons_of_mem c hd)]
      rfl

section RoundTrip

variable {start delta : BitVec w} {total : Nat} {pre post : List (OsdBlock w)} {b : OsdBlock w}
  {alignsize : BitVec w}

/-- With the block set active the list is still well formed. -/
theorem WellFormed.allocate (h : WellFormed start delta total (pre ++ b :: post))
    (hroom : alignsize.toNat < b.size.toNat) :
    WellFormed start delta total (pre ++ b.allocated alignsize :: post) := by
  apply h.activateAt
  have hpad := alignUp_sub_le alignsize b.virtAddr
  omega

/-- No block before the allocated one has its address. -/
theorem WellFormed.before_ne (h : WellFormed start delta total (pre ++ b :: post))
    {c : OsdBlock w} (hc : c ∈ pre) : c.virtAddr + c.field0 ≠ b.virtAddr + b.field0 := by
  have hnodup := h.aligned_nodup
  rw [List.map_append, List.map_cons, List.nodup_append] at hnodup
  exact hnodup.2.2 _ (List.mem_map_of_mem hc) _ List.mem_cons_self

/-- The lookup finds an active block at its aligned address. -/
theorem WellFormed.getOsdmemOffset (h : WellFormed start delta total (pre ++ b :: post))
    (hactive : b.active = true) :
    tl880GetOsdmemOffset (b.virtAddr + b.field0) (pre ++ b :: post) =
      b.virtAddr + b.field0 + delta := by
  have hmem : b ∈ pre ++ b :: post := List.mem_append_right pre List.mem_cons_self
  have hdelta : b.physAddr = b.virtAddr + delta := by
    rw [← (h.ok b hmem).phys, BitVec.add_comm, BitVec.sub_add_cancel]
  rcases tl880GetOsdmemOffset_cases (fun c hc => (h.ok c hc).tag) (b.virtAddr + b.field0) with
    ⟨-, hnone⟩ | ⟨c, hc, -, haddr, heq⟩
  · exact absurd rfl (hnone b hmem hactive)
  · rw [heq, h.aligned_unique hc hmem haddr, hdelta, BitVec.add_assoc, BitVec.add_comm delta,
      BitVec.add_assoc]

/-- The free finds the block at its aligned address. -/
theorem WellFormed.deallocateOsdmem (h : WellFormed start delta total (pre ++ b :: post)) :
    tl880DeallocateOsdmem (b.virtAddr + b.field0) (pre ++ b :: post) =
      (1, pre ++ b.freed :: post) :=
  tl880DeallocateOsdmem_first (fun c hc => (h.ok c hc).tag) (fun _ hc => h.before_ne hc) rfl

end RoundTrip

/-- An allocation that succeeds has set a block of the compacted list active, and returns
its aligned address. -/
theorem tl880AllocateOsdmem_success {start delta : BitVec w} {total : Nat} {kmalloc : Nat → Bool}
    {fuel : Nat} {heap heap' : OsdHeap w} {size align a : BitVec w}
    (h : WellFormed start delta total heap.blocks) (hsize : 1 ≤ size.toNat)
    (hwrap : size.toNat + (align - 1#w).toNat < 2 ^ w)
    (hcall : tl880AllocateOsdmem kmalloc fuel heap size align = some (a, heap')) (ha : a ≠ 0#w) :
    ∃ pre b post, tl880CompactOsdmem heap.blocks = pre ++ b :: post ∧ b.active = false ∧
      heap'.blocks = pre ++ b.allocated (align - 1#w) :: post ∧
      a = alignUp (align - 1#w) b.virtAddr ∧
      WellFormed start delta total heap'.blocks := by
  rcases tl880AllocateOsdmem_returns hcall with
    ⟨hzero, -⟩ | ⟨pre, b, post, hsplit, hb, hretval, hblocks⟩
  · exact absurd hzero ha
  · refine ⟨pre, b, post, hsplit, hb.1, hblocks, hretval, ?_⟩
    have hcompact := tl880CompactOsdmem_wellFormed h
    rw [hsplit] at hcompact
    rw [hblocks]
    apply hcompact.allocate
    rw [hb.2, finalsize_toNat hwrap]
    omega

/-! ## The round trip -/

/-- What the list looks like from outside: the addresses, sizes, active flags and `field_0`
values, in list order. -/
def blockViews (blocks : List (OsdBlock w)) : List (BitVec w × BitVec w × Bool × BitVec w) :=
  blocks.map fun b => (b.virtAddr, b.size, b.active, b.field0)

/-- Memory that is allocated at `a` is looked up and freed as that block, and freeing it
undoes the allocation. -/
structure RoundTrip (delta : BitVec w) (before after : List (OsdBlock w)) (a : BitVec w) :
    Prop where
  offset : tl880GetOsdmemOffset a after = a + delta
  freed : ∃ pre b b' post, before = pre ++ b :: post ∧ after = pre ++ b' :: post ∧
    b.active = false ∧ b'.active = true ∧ b'.virtAddr + b'.field0 = a ∧
    tl880DeallocateOsdmem a after =
      (1, pre ++ { b' with active := false, field0 := 0#w } :: post)
  restored : blockViews (tl880CompactOsdmem (tl880DeallocateOsdmem a after).2) =
    blockViews before

/-- An allocation from a compacted list that is freed again leaves the list as it was. -/
theorem tl880AllocateOsdmem_roundTrip (kmalloc : Nat → Bool) (fuel : Nat)
    (size align a : BitVec w) {heap heap' : OsdHeap w} {start delta : BitVec w} {total : Nat}
    (h : WellFormed start delta total heap.blocks)
    (hcompact : tl880CompactOsdmem heap.blocks = heap.blocks) (hsize : 1 ≤ size.toNat)
    (hwrap : size.toNat + (align - 1#w).toNat < 2 ^ w)
    (hcall : tl880AllocateOsdmem kmalloc fuel heap size align = some (a, heap')) (ha : a ≠ 0#w) :
    RoundTrip delta heap.blocks heap'.blocks a := by
  obtain ⟨pre, b, post, hsplit, hidle, hblocks, haddr, hafter⟩ :=
    tl880AllocateOsdmem_success h hsize hwrap hcall ha
  rw [hcompact] at hsplit
  rw [hblocks] at hafter
  have haligned := b.allocated_aligned (align - 1#w)
  rw [← haddr] at haligned
  have hfree := hafter.deallocateOsdmem
  rw [haligned] at hfree
  have hmem : b ∈ heap.blocks := by
    rw [hsplit]
    exact List.mem_append_right pre List.mem_cons_self
  have hback : (b.allocated (align - 1#w)).freed = b :=
    OsdBlock.freed_allocated hidle ((h.ok b hmem).idle hidle) _
  rw [hblocks]
  constructor
  · have hoffset := hafter.getOsdmemOffset rfl
    rwa [haligned] at hoffset
  · exact ⟨pre, b, _, post, hsplit, rfl, hidle, rfl, haligned, hfree⟩
  · rw [hfree, hback]
    show blockViews (tl880CompactOsdmem (pre ++ b :: post)) = _
    rw [← hsplit, hcompact]

/-- `imageHeap` with its block allocated. -/
def imageHeapFull : OsdHeap 32 where
  blocks := [⟨8#32, 0xe0186008#32, 0xd0186008#32, 0x20f#32, true, 0x52300001#32⟩]
  idTracker := 1

/-- The block of `imageHeap` is allocated for a cursor image and freed. -/
theorem tl880AllocateOsdmem_roundTrip_image :
    RoundTrip 0xf0000000#32 imageHeap.blocks imageHeapFull.blocks 0xe0186010#32 :=
  tl880AllocateOsdmem_roundTrip (fun _ => true) 1 0x200#32 0x10#32 _ imageHeap_wellFormed rfl
    (by decide) (by decide) rfl (by decide)

end Tl880
