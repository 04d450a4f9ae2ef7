import Tl880.OsdCompact
import Tl880.OsdRoundTrip

/-!
# What the OSD heap remembers

An allocation compacts the heap before it looks for a block, so that the heap has forgotten how
its inactive memory was cut up: two heaps with the same active blocks answer every sequence of
calls alike (`osdHeap_history_independent`).  What is compared are the answers of allocations,
of lookups and of frees of an address in use.  The answer of any other free can tell the heaps
apart: it is 1 where an inactive block happens to start at the address.

In particular cursors leave nothing behind in the heap (`cursors_leave_heap`).
-/

namespace Tl880

open LabelledRun Tiling

variable {w : Nat}

/-! ## The calls -/

/-- The calls on the heap, with what the kernel does in them. -/
inductive OsdCall (w : Nat)
  | allocate (kmalloc : Nat → Bool) (fuel : Nat) (size align : BitVec w)
  | deallocate (addr : BitVec w)
  | getOffset (addr : BitVec w)

/-- One call: what it returns, and the heap afterwards.  It is `none` if an allocation is
still running. -/
def osdCall (heap : OsdHeap w) : OsdCall w → Option (BitVec w × OsdHeap w)
  | .allocate kmalloc fuel size align => tl880AllocateOsdmem kmalloc fuel heap size align
  | .deallocate addr =>
      let (ret, blocks) := tl880DeallocateOsdmem addr heap.blocks
      some (BitVec.ofInt w ret, { heap with blocks := blocks })
  | .getOffset addr => some (tl880GetOsdmemOffset addr heap.blocks, heap)

/-- The aligned addresses of the active blocks. -/
def usedAddresses (blocks : List (OsdBlock w)) : List (BitVec w) :=
  (activeBlocks blocks).map fun b => b.virtAddr + b.field0

/-- What is seen of a call. -/
inductive OsdAnswer (w : Nat)
  | returned (retval : BitVec w)
  /-- a free of an address that is not in use; what it returned is left out -/
  | strayFree
  | running

/-- What is seen of a call that returned `retval`. -/
def osdAnswer (heap : OsdHeap w) (retval : BitVec w) : OsdCall w → OsdAnswer w
  | .deallocate addr =>
      if addr ∈ usedAddresses heap.blocks then .returned retval else .strayFree
  | .allocate _ _ _ _ | .getOffset _ => .returned retval

/-- What a sequence of calls answers, up to the first one that is still running. -/
def osdTrace : List (OsdCall w) → OsdHeap w → List (OsdAnswer w)
  | [], _ => []
  | call :: calls, heap =>
      match osdCall heap call with
      | none => [.running]
      | some (retval, heap') => osdAnswer heap retval call :: osdTrace calls heap'

/-- The padded size of an allocation does not wrap. -/
def OsdCall.Proper : OsdCall w → Prop
  | .allocate _ _ size align => 1 ≤ size.toNat ∧ size.toNat + (align - 1#w).toNat < 2 ^ w
  | _ => True

/-- Two heaps over the same memory with the same active blocks. -/
structure SameActive (start delta : BitVec w) (total : Nat) (heap heap' : OsdHeap w) : Prop where
  left : WellFormed start delta total heap.blocks
  right : WellFormed start delta total heap'.blocks
  active : blockViews (activeBlocks heap.blocks) = blockViews (activeBlocks heap'.blocks)

/-! ## What the views decide -/

theorem blockViews_cons (b : OsdBlock w) (rest : List (OsdBlock w)) :
    blockViews (b :: rest) = (b.virtAddr, b.size, b.active, b.field0) :: blockViews rest := rfl

/-- The active blocks are seen in the views. -/
theorem blockViews_active (blocks : List (OsdBlock w)) :
    blockViews (activeBlocks blocks) = (blockViews blocks).filter fun v => v.2.2.1 := by
  rw [blockViews, blockViews, List.filter_map]
  rfl

/-- Compaction leaves no choice: the active blocks decide what the heap looks like. -/
theorem SameActive.compact_views {start delta : BitVec w} {total : Nat} {heap heap' : OsdHeap w}
    (h : SameActive start delta total heap heap') :
    blockViews (tl880CompactOsdmem heap.blocks) =
      blockViews (tl880CompactOsdmem heap'.blocks) := by
  have hleft := tl880CompactOsdmem_wellFormed h.left
  have hright := tl880CompactOsdmem_wellFormed h.right
  have hactive := h.active
  rw [← activeBlocks_compact heap.blocks, ← activeBlocks_compact heap'.blocks] at hactive
  refine Tiles.views_eq OsdBlock.active hleft.tiles hright.tiles hleft.fits
    (tl880CompactOsdmem_isChain heap.blocks) (tl880CompactOsdmem_isChain heap'.blocks) ?_ ?_
    hactive
  · intro b c hsame
    simp only [Prod.mk.injEq] at hsame
    exact ⟨hsame.1, hsame.2.1⟩
  · intro b hb c hc hbidle hcidle hvirt hsize
    rw [hvirt, hsize, hbidle, hcidle, (hleft.ok b hb).idle hbidle, (hright.ok c hc).idle hcidle]

/-- The search for an exact fit only looks at the views. -/
theorem allocateExact_views (alignsize finalsize : BitVec w) {blocks blocks' : List (OsdBlock w)}
    (h : blockViews blocks = blockViews blocks') :
    (allocateExact alignsize finalsize blocks).map (fun r => (r.1, blockViews r.2)) =
      (allocateExact alignsize finalsize blocks').map fun r => (r.1, blockViews r.2) := by
  induction blocks generalizing blocks' with
  | nil =>
      cases blocks' with
      | nil => rfl
      | cons c rest' => cases h
  | cons b rest ih =>
      cases blocks' with
      | nil => cases h
      | cons c rest' =>
          simp only [blockViews_cons, List.cons.injEq, Prod.mk.injEq] at h
          obtain ⟨⟨hvirt, hsize, hactive, hfield0⟩, hrest⟩ := h
          rw [allocateExact, allocateExact, hactive, hsize, hvirt]
          split_ifs
          · simp [blockViews_cons, hrest]
          · have hlater := ih hrest
            simp only [Option.map_map] at hlater ⊢
            have hcons := congrArg (Option.map fun r : BitVec w × _ =>
              (r.1, (c.virtAddr, c.size, c.active, c.field0) :: r.2)) hlater
            simp only [Option.map_map] at hcons
            simpa [Function.comp_def, blockViews_cons, hvirt, hsize, hactive, hfield0] using hcons

/-- The splitting loop only looks at the views. -/
theorem splitLoop_views (finalsize : BitVec w) (kmalloc : Nat → Bool) (fuel : Nat)
    {heap heap' : OsdHeap w} (h : blockViews heap.blocks = blockViews heap'.blocks) :
    (splitLoop finalsize kmalloc fuel 0 heap).map (fun r => (r.1, blockViews r.2.blocks)) =
      (splitLoop finalsize kmalloc fuel 0 heap').map fun r => (r.1, blockViews r.2.blocks) := by
  cases fuel with
  | zero => rfl
  | succ fuel =>
      cases hblocks : heap.blocks with
      | nil =>
          cases hblocks' : heap'.blocks with
          | nil => simp [splitLoop, splitRound, hblocks, hblocks']
          | cons c rest' =>
              rw [hblocks, hblocks'] at h
              cases h
      | cons b rest =>
          cases hblocks' : heap'.blocks with
          | nil =>
              rw [hblocks, hblocks'] at h
              cases h
          | cons c rest' =>
              have hviews := h
              rw [hblocks, hblocks'] at hviews
              simp only [blockViews_cons, List.cons.injEq, Prod.mk.injEq] at hviews
              obtain ⟨⟨-, hsize, hactive, -⟩, -⟩ := hviews
              by_cases hlarge : c.active = false ∧ finalsize < c.size
              · have hlarge' : b.active = false ∧ finalsize < b.size := by
                  rw [hactive, hsize]
                  exact hlarge
                rw [splitLoop, splitLoop]
                simp only [splitRound, hblocks, hblocks', List.getElem?_cons_zero,
                  if_pos hlarge, if_pos hlarge']
                split_ifs
                · simp [h]
                · -- both heads are split and active from now on
                  simp only [splitAt]
                  rw [splitLoop_stuck rfl (by simp), splitLoop_stuck rfl (by simp)]
              · have hlarge' : ¬ (b.active = false ∧ finalsize < b.size) := by
                  rw [hactive, hsize]
                  exact hlarge
                rw [splitLoop_stuck hblocks hlarge', splitLoop_stuck hblocks' hlarge]

/-- So does an allocation, after its compaction. -/
theorem tl880AllocateOsdmem_views (kmalloc : Nat → Bool) (fuel : Nat) (size align : BitVec w)
    {heap heap' : OsdHeap w} (h : blockViews (tl880CompactOsdmem heap.blocks) =
      blockViews (tl880CompactOsdmem heap'.blocks)) :
    (tl880AllocateOsdmem kmalloc fuel heap size align).map
        (fun r => (r.1, blockViews r.2.blocks)) =
      (tl880AllocateOsdmem kmalloc fuel heap' size align).map
        fun r => (r.1, blockViews r.2.blocks) := by
  have hexact := allocateExact_views (align - 1#w) (size + (align - 1#w)) h
  rw [tl880AllocateOsdmem, tl880AllocateOsdmem]
  cases hfound : allocateExact (align - 1#w) (size + (align - 1#w))
      (tl880CompactOsdmem heap.blocks) with
  | some r =>
      cases hfound' : allocateExact (align - 1#w) (size + (align - 1#w))
          (tl880CompactOsdmem heap'.blocks) with
      | some r' =>
          rw [hfound, hfound'] at hexact
          exact hexact
      | none =>
          rw [hfound, hfound'] at hexact
          cases hexact
  | none =>
      cases hfound' : allocateExact (align - 1#w) (size + (align - 1#w))
          (tl880CompactOsdmem heap'.blocks) with
      | some r' =>
          rw [hfound, hfound'] at hexact
          cases hexact
      | none => exact splitLoop_views _ kmalloc fuel h

/-- A lookup finds the active block with the address, wherever it is in the list. -/
theorem tl880GetOsdmemOffset_eq {start delta : BitVec w} {total : Nat}
    {blocks : List (OsdBlock w)} (h : WellFormed start delta total blocks) (addr : BitVec w) :
    tl880GetOsdmemOffset addr blocks =
      ((blockViews (activeBlocks blocks)).find? fun v => v.1 + v.2.2.2 = addr).elim (-1#w)
        fun v => v.1 + v.2.2.2 + delta := by
  induction blocks generalizing start total with
  | nil => rfl
  | cons b rest ih =>
      have hok := h.ok b List.mem_cons_self
      have htag : ¬ ¬ b.Tagged := not_not_intro hok.tag
      obtain ⟨-, -, -, -, -, hrest⟩ := wellFormed_cons.mp h
      rw [tl880GetOsdmemOffset, if_neg htag, activeBlocks_cons]
      cases hactive : b.active with
      | false => simpa using ih hrest
      | true =>
          rw [if_pos rfl, blockViews_cons]
          by_cases hmatch : b.virtAddr + b.field0 = addr
          · rw [if_pos ⟨rfl, hmatch⟩, List.find?_cons_of_pos (by simpa using hmatch)]
            show b.physAddr + b.field0 = b.virtAddr + b.field0 + delta
            rw [← hok.phys, BitVec.add_assoc, BitVec.add_comm b.field0, ← BitVec.add_assoc,
              BitVec.add_comm b.virtAddr, BitVec.sub_add_cancel]
          · rw [if_neg fun hboth => hmatch hboth.2,
              List.find?_cons_of_neg (by simpa using hmatch)]
            exact ih hrest

/-- A free returns 1 exactly when a block has the address, active or not. -/
theorem tl880DeallocateOsdmem_retval {start delta : BitVec w} {total : Nat}
    {blocks : List (OsdBlock w)} (h : WellFormed start delta total blocks) (addr : BitVec w) :
    (tl880DeallocateOsdmem addr blocks).1 =
      if addr ∈ blocks.map fun b => b.virtAddr + b.field0 then 1 else 0 := by
  induction blocks generalizing start total with
  | nil => rfl
  | cons b rest ih =>
      have htag : ¬ ¬ b.Tagged := not_not_intro (h.ok b List.mem_cons_self).tag
      obtain ⟨-, -, -, -, -, hrest⟩ := wellFormed_cons.mp h
      rw [tl880DeallocateOsdmem, if_neg htag]
      by_cases hmatch : b.virtAddr + b.field0 = addr
      · simp [hmatch]
      · have hne : ¬ addr = b.virtAddr + b.field0 := fun heq => hmatch heq.symm
        rw [if_neg hmatch]
        simpa only [List.map_cons, List.mem_cons, hne, false_or] using ih hrest

/-! ## Two heaps side by side -/

/-- An allocation that returns keeps the heap well formed. -/
theorem tl880AllocateOsdmem_wellFormed {start delta : BitVec w} {total : Nat}
    {kmalloc : Nat → Bool} {fuel : Nat} {heap heap' : OsdHeap w} {size align retval : BitVec w}
    (h : WellFormed start delta total heap.blocks) (hsize : 1 ≤ size.toNat)
    (hwrap : size.toNat + (align - 1#w).toNat < 2 ^ w)
    (hcall : tl880AllocateOsdmem kmalloc fuel heap size align = some (retval, heap')) :
    WellFormed start delta total heap'.blocks := by
  have hcompact := tl880CompactOsdmem_wellFormed h
  rw [tl880AllocateOsdmem] at hcall
  cases hfound : allocateExact (align - 1#w) (size + (align - 1#w))
      (tl880CompactOsdmem heap.blocks) with
  | some r =>
      simp only [hfound] at hcall
      cases hcall
      exact allocateExact_wellFormed hcompact hsize hwrap hfound
  | none =>
      simp only [hfound] at hcall
      rw [(splitLoop_eq_some hcall).2]
      exact hcompact

section Pair

variable {start delta : BitVec w} {total : Nat} {heap heap' : OsdHeap w}

/-- An allocation from either heap: it returns from both, with the same address, or from
neither. -/
theorem SameActive.allocate (h : SameActive start delta total heap heap') (kmalloc : Nat → Bool)
    (fuel : Nat) {size align : BitVec w} (hsize : 1 ≤ size.toNat)
    (hwrap : size.toNat + (align - 1#w).toNat < 2 ^ w) :
    (tl880AllocateOsdmem kmalloc fuel heap size align = none ∧
        tl880AllocateOsdmem kmalloc fuel heap' size align = none) ∨
      ∃ retval next next', tl880AllocateOsdmem kmalloc fuel heap size align = some (retval, next) ∧
        tl880AllocateOsdmem kmalloc fuel heap' size align = some (retval, next') ∧
        SameActive start delta total next next' := by
  have hviews := tl880AllocateOsdmem_views kmalloc fuel size align h.compact_views
  cases hcall : tl880AllocateOsdmem kmalloc fuel heap size align with
  | none =>
      left
      rw [hcall] at hviews
      exact ⟨rfl, by simpa using hviews.symm⟩
  | some r =>
      right
      cases hcall' : tl880AllocateOsdmem kmalloc fuel heap' size align with
      | none =>
          rw [hcall, hcall'] at hviews
          cases hviews
      | some r' =>
          rw [hcall, hcall'] at hviews
          have hboth := Option.some.inj hviews
          simp only [Prod.mk.injEq] at hboth
          obtain ⟨hretval, hblocks⟩ := hboth
          refine ⟨r.1, r.2, r'.2, rfl, by rw [hretval], ?_⟩
          refine ⟨tl880AllocateOsdmem_wellFormed h.left hsize hwrap hcall,
            tl880AllocateOsdmem_wellFormed h.right hsize hwrap hcall', ?_⟩
          rw [blockViews_active, blockViews_active, hblocks]

/-- A free takes the same block from both heaps, if any. -/
theorem SameActive.deallocate (h : SameActive start delta total heap heap') (addr : BitVec w) :
    SameActive start delta total
      { heap with blocks := (tl880DeallocateOsdmem addr heap.blocks).2 }
      { heap' with blocks := (tl880DeallocateOsdmem addr heap'.blocks).2 } where
  left := tl880DeallocateOsdmem_wellFormed h.left addr
  right := tl880DeallocateOsdmem_wellFormed h.right addr
  active := by
    have hfilter (blocks : List (OsdBlock w)) :
        blockViews (blocks.filter fun b => b.virtAddr + b.field0 ≠ addr) =
          (blockViews blocks).filter fun v => v.1 + v.2.2.2 ≠ addr := by
      rw [blockViews, blockViews, List.filter_map]
      rfl
    rw [activeBlocks_deallocate h.left, activeBlocks_deallocate h.right, hfilter, hfilter,
      h.active]

/-- The same addresses are in use in both heaps. -/
theorem SameActive.usedAddresses_eq (h : SameActive start delta total heap heap') :
    usedAddresses heap.blocks = usedAddresses heap'.blocks := by
  have hviews := congrArg (List.map fun v => v.1 + v.2.2.2) h.active
  simpa only [usedAddresses, blockViews, List.map_map, Function.comp_def] using hviews

/-- A free of an address in use returns 1. -/
theorem deallocate_inUse {blocks : List (OsdBlock w)} (h : WellFormed start delta total blocks)
    {addr : BitVec w} (hin : addr ∈ usedAddresses blocks) :
    (tl880DeallocateOsdmem addr blocks).1 = 1 := by
  rw [tl880DeallocateOsdmem_retval h, if_pos]
  exact (List.filter_sublist.map _).mem hin

/-- A free of any address is seen alike in both heaps. -/
theorem SameActive.osdAnswer_deallocate (h : SameActive start delta total heap heap')
    (addr : BitVec w) :
    osdAnswer heap (BitVec.ofInt w (tl880DeallocateOsdmem addr heap.blocks).1)
        (.deallocate addr) =
      osdAnswer heap' (BitVec.ofInt w (tl880DeallocateOsdmem addr heap'.blocks).1)
        (.deallocate addr) := by
  simp only [osdAnswer]
  rw [h.usedAddresses_eq]
  split_ifs with hin
  · rw [deallocate_inUse h.right hin, deallocate_inUse h.left (h.usedAddresses_eq ▸ hin)]
  · rfl

theorem osdTrace_eq (h : SameActive start delta total heap heap') (calls : List (OsdCall w))
    (hproper : ∀ call ∈ calls, call.Proper) : osdTrace calls heap = osdTrace calls heap' := by
  induction calls generalizing heap heap' with
  | nil => rfl
  | cons call calls ih =>
      have hrest : ∀ call ∈ calls, call.Proper :=
        fun c hc => hproper c (List.mem_cons_of_mem call hc)
      have hfirst := hproper call List.mem_cons_self
      rw [osdTrace, osdTrace]
      cases call with
      | allocate kmalloc fuel size align =>
          obtain ⟨hsize, hwrap⟩ := hfirst
          rcases h.allocate kmalloc fuel hsize hwrap with
            ⟨hnone, hnone'⟩ | ⟨retval, next, next', hsome, hsome', hnext⟩
          · simp only [osdCall, hnone, hnone']
          · simp only [osdCall, hsome, hsome', osdAnswer]
            rw [ih hnext hrest]
      | deallocate addr =>
          simp only [osdCall]
          rw [ih (h.deallocate addr) hrest, h.osdAnswer_deallocate]
      | getOffset addr =>
          simp only [osdCall, osdAnswer]
          rw [tl880GetOsdmemOffset_eq h.left, tl880GetOsdmemOffset_eq h.right, h.active,
            ih h hrest]

/-- A heap that answers every sequence of calls like another one. -/
def AnswersLike (heap heap' : OsdHeap w) : Prop :=
  ∀ calls : List (OsdCall w), (∀ call ∈ calls, call.Proper) →
    osdTrace calls heap = osdTrace calls heap'

/-- Heaps with the same active blocks answer every sequence of calls alike, however their
inactive memory is cut up. -/
theorem osdHeap_history_independent (h : SameActive start delta total heap heap') :
    AnswersLike heap heap' :=
  fun calls hproper => osdTrace_eq h calls hproper

end Pair

/-- A heap of 0x420 bytes in one inactive block, and the same heap cut in two. -/
def wholeHeap : OsdHeap 32 where
  blocks := [⟨0#32, 0xe0186000#32, 0xd0186000#32, 0x420#32, false, 0x52300001#32⟩]
  idTracker := 1

def cutHeap : OsdHeap 32 where
  blocks :=
    [⟨0#32, 0xe0186000#32, 0xd0186000#32, 0x20f#32, false, 0x52300001#32⟩,
      ⟨0#32, 0xe018620f#32, 0xd018620f#32, 0x211#32, false, 0x52300002#32⟩]
  idTracker := 2

theorem wholeHeap_cutHeap : SameActive 0xe0186000#32 0xf0000000#32 0x420 wholeHeap cutHeap where
  left := by
    refine wellFormed_cons.mpr ⟨rfl, by decide, by decide, by decide, ?_, rfl, by decide, ?_⟩
    · exact ⟨by decide, by decide, fun _ => rfl, fun hactive => by cases hactive⟩
    · intro b hb
      cases hb
  right := by
    refine wellFormed_cons.mpr ⟨rfl, by decide, by decide, by decide, ?_, ?_⟩
    · exact ⟨by decide, by decide, fun _ => rfl, fun hactive => by cases hactive⟩
    refine wellFormed_cons.mpr ⟨rfl, by decide, by decide, by decide, ?_, rfl, by decide, ?_⟩
    · exact ⟨by decide, by decide, fun _ => rfl, fun hactive => by cases hactive⟩
    · intro b hb
      cases hb
  active := rfl

theorem osdHeap_history_independent_cut : AnswersLike wholeHeap cutHeap :=
  osdHeap_history_independent wholeHeap_cutHeap

/-! ## Cursors -/

/-- The active blocks of a heap that does not wrap come in the order of their addresses. -/
theorem WellFormed.activeBlocks_sorted {start delta : BitVec w} {total : Nat}
    {blocks : List (OsdBlock w)} (h : WellFormed start delta total blocks)
    (hrange : start.toNat + total ≤ 2 ^ w) :
    (activeBlocks blocks).Pairwise fun b c => b.virtAddr.toNat < c.virtAddr.toNat :=
  (h.tiles.sorted hrange).filter _

/-- Where no cursor is left, the active blocks are those that were there at first. -/
theorem CursorsMatch.sameActive {start delta : BitVec w} {total : Nat} {heap : OsdHeap w}
    (hheap : WellFormed start delta total heap.blocks) (hrange : start.toNat + total ≤ 2 ^ w)
    {s : CursorState w}
    (h : CursorsMatch start delta total (activeBlocks heap.blocks) s) (hnone : s.cursors = []) :
    SameActive start delta total s.heap heap where
  left := h.heap
  right := hheap
  active := by
    obtain ⟨owned, hplaces, howned⟩ := h.owned
    rw [hnone] at hplaces
    rw [List.map_eq_nil_iff.mp hplaces, List.nil_append] at howned
    have hasymm (b c : OsdBlock w) (hbc : b.virtAddr.toNat < c.virtAddr.toNat)
        (hcb : c.virtAddr.toNat < b.virtAddr.toNat) : b = c := by omega
    have hsame := List.Perm.eq_of_pairwise (fun b c _ _ => hasymm b c)
      (h.heap.activeBlocks_sorted hrange) (hheap.activeBlocks_sorted hrange) howned
    rw [hsame]

/-- Cursors leave nothing behind: in every run, whenever no cursor is left, the heap answers all
later calls as if there had never been one. -/
theorem cursors_leave_heap (hw : 32 ≤ w) (start delta : BitVec w) (total : Nat)
    (heap : OsdHeap w) (h : WellFormed start delta total heap.blocks)
    (hnull : 0 < start.toNat) (hrange : start.toNat + total ≤ 2 ^ w) (idTracker : BitVec w)
    (calls : List (CursorCall w))
    (hfresh : AllSteps cursorCall FreshMemory ⟨[], idTracker, heap⟩ calls) :
    AllStates cursorCall (fun s => s.cursors = [] → AnswersLike s.heap heap)
      ⟨[], idTracker, heap⟩ calls := by
  have hmatch := allStates_of_allSteps
    (fun s call s' hs hcall hstep => cursorCall_match hw hnull hrange hs hcall hstep)
    (CursorsMatch.init h idTracker) hfresh
  refine hmatch.imp fun s hs hnone calls hproper => ?_
  exact osdTrace_eq (hs.sameActive h hrange hnone) calls hproper

/-- A cursor is created in the first of two blocks of its size, and deleted. -/
theorem cursors_leave_heap_image :
    AllStates cursorCall (fun s => s.cursors = [] → AnswersLike s.heap (twoImages false false))
      ⟨[], 0, twoImages false false⟩ [createAt 0xc0000000, .delete 0xc0000000] := by
  apply cursors_leave_heap (by decide) 0xe0186010#32 0xf0000000#32 0x42f (twoImages false false)
    twoImages_wellFormed (by decide) (by decide)
  intro s' _
  constructor
  · exact List.not_mem_nil
  · intro s'' _
    exact ⟨trivial, trivial⟩

end Tl880
