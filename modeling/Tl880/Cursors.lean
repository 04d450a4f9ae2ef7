import Tl880.Lib.LabelledRun
import Tl880.Lib.LinkedList
import Tl880.OsdCalls
import Tl880.Registers

/-!
# Cursors

The model of `tl880_create_cursor`, `tl880_add_cursor`, `tl880_delete_cursor` and
`tl880_delete_cursor_list` of `driver/tl880cursor.c`, for a device that is not NULL.
`g_cursor_list` is the list of the cursors in list order, a cursor is known by its
address, and 0 is NULL.

A cursor owns the block of the OSD heap that its `field_8` points into.  `CursorsMatch`
says so for all cursors at once: the active blocks are the owned ones and those that
were active before, and none is owned twice.
-/

namespace Tl880

open AlignUp LabelledRun LinkedList Tiling

variable {w : Nat}

/-! ## The driver -/

/-- `struct _SURFACE_DESC` -/
structure SurfaceDesc (w : Nat) where
  field0 : BitVec w
  field4 : BitVec w
  field8 : BitVec w
  field10 : U16
  field12 : U16
  field14 : U16
  field16 : U16
  field18 : U16

/-- `struct SOverlaySurface`, and where it is. -/
structure SOverlaySurface (w : Nat) where
  address : BitVec w
  /-- OSD memory -/
  field8 : BitVec w
  /-- the location of the image in card memory -/
  fieldC : BitVec w
  field14 : BitVec w
  field18 : BitVec w
  width : BitVec w
  height : BitVec w
  field3c : BitVec w
  field40 : BitVec w
  field50 : BitVec w
  id : BitVec w
deriving DecidableEq

/-- The globals `g_cursor_list`, `_g_idTracker` and those of the OSD heap. -/
structure CursorState (w : Nat) where
  cursors : List (SOverlaySurface w)
  idTracker : BitVec w
  heap : OsdHeap w

/-- The checks of `tl880_create_cursor` on the surface. -/
def SurfaceDesc.Valid (surface : SurfaceDesc w) : Prop :=
  surface.field18 = 0x1c ∧ (surface.field10 = 32 ∧ surface.field12 = 32) ∧
    ¬ (surface.field14 = 0 ∨ 5#16 ≤ surface.field14)

instance (surface : SurfaceDesc w) : Decidable surface.Valid :=
  inferInstanceAs (Decidable (_ ∧ _))

/-- The cursor that `tl880_create_cursor` fills in before it has OSD memory. -/
def newSurface (address idTracker : BitVec w) (surface : SurfaceDesc w) : SOverlaySurface w where
  address := address
  field8 := 0
  fieldC := 0
  field14 := surface.field4
  field18 := surface.field8
  width := surface.field10.setWidth w
  height := surface.field12.setWidth w
  field3c := if surface.field14 ≠ 4 then surface.field14.setWidth w else 0
  field40 := if surface.field16 ≠ 4 then surface.field16.setWidth w else 0
  field50 := surface.field0
  id := osdId idTracker

/-- `tl880_add_cursor` -/
def tl880AddCursor (cursor : SOverlaySurface w) (s : CursorState w) : CursorState w :=
  { s with cursors := cursor :: s.cursors }

/-- `tl880_create_cursor`, where the `kmalloc` of the cursor returns `address`, those of
the OSD heap are `kmalloc`, and the splitting loop has at most `fuel` rounds.  It is
`none` if that loop is still running. -/
def tl880CreateCursor (address : BitVec w) (kmalloc : Nat → Bool) (fuel : Nat)
    (surface : Option (SurfaceDesc w)) (s : CursorState w) :
    Option (BitVec w × CursorState w) :=
  match surface with
  | none => some (0#w, s)
  | some surface =>
      if ¬ surface.Valid then some (0#w, s)
      else if address = 0#w then some (0#w, s)
      else
        let idTracker := s.idTracker + 1#w
        let newSurface := newSurface address idTracker surface
        (tl880AllocateOsdmem kmalloc fuel s.heap 0x200#w 0x10#w).map fun (field8, heap) =>
          let s := { s with idTracker := idTracker, heap := heap }
          if field8 = 0#w then (0#w, s)
          else
            let fieldC := tl880GetOsdmemOffset field8 heap.blocks
            if fieldC = -1#w then
              let blocks := (tl880DeallocateOsdmem field8 heap.blocks).2
              (0#w, { s with heap := { heap with blocks := blocks } })
            else
              (address, tl880AddCursor { newSurface with field8 := field8, fieldC := fieldC } s)

/-- The end of `tl880_delete_cursor`, for a cursor that was taken out of the list. -/
def freeCursor (cursor : SOverlaySurface w) (s : CursorState w) : CursorState w :=
  if cursor.field8 ≠ 0#w then
    { s with
      heap :=
        { s.heap with blocks := (tl880DeallocateOsdmem cursor.field8 s.heap.blocks).2 } }
  else s

/-- `tl880_delete_cursor` -/
def tl880DeleteCursor (cursor : BitVec w) (s : CursorState w) : CursorState w :=
  if cursor = 0#w then s
  else
    match s.cursors with
    | [] => s
    | head :: rest =>
        if head.address = cursor then freeCursor head { s with cursors := rest }
        else
          match unlinkNext SOverlaySurface.address cursor (head :: rest),
              s.cursors.find? (fun c => c.address = cursor) with
          | some cursors, some found => freeCursor found { s with cursors := cursors }
          | _, _ => s

/-- `tl880_delete_cursor_list`, for at most `fuel` rounds of its loop. -/
def tl880DeleteCursorList : Nat → CursorState w → Option (CursorState w)
  | 0, _ => none
  | fuel + 1, s =>
      match s.cursors with
      | [] => some s
      | head :: _ => tl880DeleteCursorList fuel (tl880DeleteCursor head.address s)

/-- The calls on cursors, with what the kernel does in them. -/
inductive CursorCall (w : Nat)
  | create (address : BitVec w) (kmalloc : Nat → Bool) (fuel : Nat)
      (surface : Option (SurfaceDesc w))
  | delete (cursor : BitVec w)
  | deleteList

/-- A call that returns. -/
def cursorCall (s : CursorState w) : CursorCall w → Option (CursorState w)
  | .create address kmalloc fuel surface =>
      (tl880CreateCursor address kmalloc fuel surface s).map Prod.snd
  | .delete cursor => some (tl880DeleteCursor cursor s)
  | .deleteList => tl880DeleteCursorList (s.cursors.length + 1) s

/-- `kmalloc` returns memory that no cursor is in. -/
def FreshMemory (s : CursorState w) : CursorCall w → Prop
  | .create address _ _ _ => address ∉ s.cursors.map SOverlaySurface.address
  | _ => True

/-! ## Blocks and their addresses -/

/-- The blocks that are allocated. -/
def activeBlocks (blocks : List (OsdBlock w)) : List (OsdBlock w) :=
  blocks.filter OsdBlock.active

/-- The aligned address of a block and the physical address that matches it. -/
def OsdBlock.place (b : OsdBlock w) : BitVec w × BitVec w :=
  (b.virtAddr + b.field0, b.physAddr + b.field0)

/-- What a cursor knows of its block. -/
def SOverlaySurface.place (c : SOverlaySurface w) : BitVec w × BitVec w := (c.field8, c.fieldC)

theorem activeBlocks_cons (b : OsdBlock w) (rest : List (OsdBlock w)) :
    activeBlocks (b :: rest) =
      if b.active = true then b :: activeBlocks rest else activeBlocks rest := by
  unfold activeBlocks
  rw [List.filter_cons]

theorem activeBlocks_append (pre post : List (OsdBlock w)) :
    activeBlocks (pre ++ post) = activeBlocks pre ++ activeBlocks post :=
  List.filter_append pre post

theorem mem_activeBlocks {blocks : List (OsdBlock w)} {b : OsdBlock w} :
    b ∈ activeBlocks blocks ↔ b ∈ blocks ∧ b.active = true := List.mem_filter

/-- Compaction merges inactive blocks only. -/
theorem activeBlocks_compact (blocks : List (OsdBlock w)) :
    activeBlocks (tl880CompactOsdmem blocks) = activeBlocks blocks := by
  have hfrom : ∀ (rest : List (OsdBlock w)) (b : OsdBlock w),
      activeBlocks (compactFrom b rest) = activeBlocks (b :: rest) := by
    intro rest
    induction rest with
    | nil =>
        intro b
        rfl
    | cons c rest ih =>
        intro b
        rw [compactFrom]
        split_ifs with hidle
        · simp only [Bool.and_eq_true, Bool.not_eq_true'] at hidle
          rw [ih]
          simp only [activeBlocks_cons, hidle.1, hidle.2, Bool.false_eq_true, if_false]
        · rw [activeBlocks_cons, ih, ← activeBlocks_cons]
  cases blocks with
  | nil => rfl
  | cons b rest => exact hfrom rest b

/-- In a well-formed list no two blocks have one aligned address. -/
theorem WellFormed.aligned_nodup {start delta : BitVec w} {total : Nat}
    {blocks : List (OsdBlock w)} (h : WellFormed start delta total blocks) :
    (blocks.map fun b => b.virtAddr + b.field0).Nodup := by
  induction blocks generalizing start total with
  | nil => exact List.nodup_nil
  | cons b rest ih =>
      obtain ⟨-, -, -, -, -, hrest⟩ := wellFormed_cons.mp h
      rw [List.map_cons, List.nodup_cons]
      constructor
      · intro hmem
        obtain ⟨c, hc, heq⟩ := List.mem_map.mp hmem
        have hin : ∀ e ∈ b :: rest, e.field0.toNat < e.size.toNat :=
          fun e he => (h.ok e he).field0_lt (h.size_pos he)
        exact h.tiles.head_ne h.fits hc (hin b List.mem_cons_self)
          (hin c (List.mem_cons_of_mem b hc)) heq.symm
      · exact ih hrest

/-- No block is active twice. -/
theorem WellFormed.activeBlocks_nodup {start delta : BitVec w} {total : Nat}
    {blocks : List (OsdBlock w)} (h : WellFormed start delta total blocks) :
    (activeBlocks blocks).Nodup :=
  (List.Nodup.of_map _ h.aligned_nodup).sublist List.filter_sublist

/-! ## Calls of the heap -/

/-- The splitting loop has no end once the head is not to be split. -/
theorem splitLoop_stuck {finalsize : BitVec w} {kmalloc : Nat → Bool} {b : OsdBlock w}
    {rest : List (OsdBlock w)} {heap : OsdHeap w} (hblocks : heap.blocks = b :: rest)
    (hkept : ¬ (b.active = false ∧ finalsize < b.size)) (fuel round : Nat) :
    splitLoop finalsize kmalloc fuel round heap = none := by
  induction fuel generalizing round with
  | zero => rfl
  | succ fuel ih =>
      rw [splitLoop]
      simp only [splitRound, hblocks, List.getElem?_cons_zero, if_neg hkept]
      exact ih (round + 1)

/-- The splitting loop returns only by failing, and then has changed nothing. -/
theorem splitLoop_eq_some {finalsize : BitVec w} {kmalloc : Nat → Bool} {fuel round : Nat}
    {heap heap' : OsdHeap w} {retval : BitVec w}
    (h : splitLoop finalsize kmalloc fuel round heap = some (retval, heap')) :
    retval = 0#w ∧ heap' = heap := by
  cases fuel with
  | zero => cases h
  | succ fuel =>
      cases hblocks : heap.blocks with
      | nil =>
          rw [splitLoop] at h
          simp only [splitRound, hblocks, List.getElem?_nil] at h
          cases h
          exact ⟨rfl, rfl⟩
      | cons b rest =>
          by_cases hlarge : b.active = false ∧ finalsize < b.size
          · rw [splitLoop] at h
            simp only [splitRound, hblocks, List.getElem?_cons_zero, if_pos hlarge] at h
            by_cases hkmalloc : kmalloc round = false
            · simp only [if_pos hkmalloc] at h
              cases h
              exact ⟨rfl, rfl⟩
            · -- the head is split and active from now on
              simp only [if_neg hkmalloc, splitAt] at h
              rw [splitLoop_stuck rfl (by simp)] at h
              cases h
          · rw [splitLoop_stuck hblocks hlarge] at h
            cases h

/-- A call that returns has failed, or has set an exact fit active. -/
theorem tl880AllocateOsdmem_returns {kmalloc : Nat → Bool} {fuel : Nat}
    {heap heap' : OsdHeap w} {size align retval : BitVec w}
    (h : tl880AllocateOsdmem kmalloc fuel heap size align = some (retval, heap')) :
    (retval = 0#w ∧ heap'.blocks = tl880CompactOsdmem heap.blocks) ∨
      ∃ pre b post, tl880CompactOsdmem heap.blocks = pre ++ b :: post ∧
        b.Exact (size + (align - 1#w)) ∧ retval = alignUp (align - 1#w) b.virtAddr ∧
        heap'.blocks = pre ++ { b with
          active := true
          field0 := alignUp (align - 1#w) b.virtAddr - b.virtAddr } :: post := by
  rcases exact_split (size + (align - 1#w)) (tl880CompactOsdmem heap.blocks) with
    hnone | ⟨pre, b, post, hcompact, hpre, hb⟩
  · left
    rw [tl880AllocateOsdmem] at h
    simp only [allocateExact_eq_none hnone] at h
    obtain ⟨hretval, hheap⟩ := splitLoop_eq_some h
    rw [hheap]
    exact ⟨hretval, rfl⟩
  · right
    rw [tl880AllocateOsdmem_exact hcompact hpre hb] at h
    cases h
    exact ⟨pre, b, post, hcompact, hb, rfl, rfl⟩

/-- Setting any block active with an offset that fits keeps the heap well formed. -/
theorem WellFormed.activateAt {start delta : BitVec w} {total : Nat}
    {pre post : List (OsdBlock w)} {b : OsdBlock w}
    (h : WellFormed start delta total (pre ++ b :: post)) {offset : BitVec w}
    (hoffset : offset.toNat < b.size.toNat) :
    WellFormed start delta total
      (pre ++ { b with active := true, field0 := offset } :: post) := by
  induction pre generalizing start total with
  | nil => exact h.activate hoffset
  | cons c pre ih =>
      obtain ⟨hbase, hpos, hle, hfits, hok, hrest⟩ := wellFormed_cons.mp h
      exact wellFormed_cons.mpr ⟨hbase, hpos, hle, hfits, hok, ih hrest⟩

/-- A free takes the block with the aligned address from the active ones. -/
theorem activeBlocks_deallocate {start delta : BitVec w} {total : Nat}
    {blocks : List (OsdBlock w)} (h : WellFormed start delta total blocks) (addr : BitVec w) :
    activeBlocks (tl880DeallocateOsdmem addr blocks).2 =
      (activeBlocks blocks).filter fun b => b.virtAddr + b.field0 ≠ addr := by
  induction blocks generalizing start total with
  | nil => rfl
  | cons b rest ih =>
      have htag : ¬ ¬ b.Tagged := not_not_intro (h.ok b List.mem_cons_self).tag
      have hnodup := List.nodup_cons.mp h.aligned_nodup
      obtain ⟨-, -, -, -, -, hrest⟩ := wellFormed_cons.mp h
      rw [tl880DeallocateOsdmem, if_neg htag]
      by_cases hmatch : b.virtAddr + b.field0 = addr
      · -- no later block has the address
        have hothers : (activeBlocks rest).filter (fun c => c.virtAddr + c.field0 ≠ addr) =
            activeBlocks rest := by
          rw [List.filter_eq_self]
          intro c hc
          have hne : c.virtAddr + c.field0 ≠ addr := by
            intro heq
            exact hnodup.1 (List.mem_map.mpr
              ⟨c, (mem_activeBlocks.mp hc).1, heq.trans hmatch.symm⟩)
          simpa using hne
        rw [if_pos hmatch, activeBlocks_cons, activeBlocks_cons]
        cases hactive : b.active with
        | false => simpa using hothers.symm
        | true => simpa [hmatch] using hothers.symm
      · rw [if_neg hmatch]
        show activeBlocks (b :: (tl880DeallocateOsdmem addr rest).2) = _
        rw [activeBlocks_cons, activeBlocks_cons, ih hrest]
        cases hactive : b.active with
        | false => rfl
        | true => simp [hmatch]

/-! ## The invariant -/

/-- The cursors own the active blocks that were not active initially. -/
structure CursorsMatch (start delta : BitVec w) (total : Nat) (initial : List (OsdBlock w))
    (s : CursorState w) : Prop where
  heap : WellFormed start delta total s.heap.blocks
  distinct : (s.cursors.map SOverlaySurface.address).Nodup
  nonnull : ∀ c ∈ s.cursors, c.address ≠ 0#w ∧ c.field8 ≠ 0#w
  owned : ∃ owned : List (OsdBlock w),
    owned.map OsdBlock.place = s.cursors.map SOverlaySurface.place ∧
      (activeBlocks s.heap.blocks).Perm (owned ++ initial)

/-- `0x200 + (0x10 - 1)` bytes of an aligned cursor image. -/
theorem imageMask_toNat (hw : 32 ≤ w) : (0x10#w - 1#w).toNat + 1 = 2 ^ 4 := by
  apply alignsize_toNat
  exact toNat_word (Nat.lt_of_lt_of_le (by decide) (Nat.pow_le_pow_right (by decide) hw))

theorem imageSize_toNat (hw : 32 ≤ w) : (0x200#w + (0x10#w - 1#w)).toNat = 0x20f := by
  have hlarge : 2 ^ 32 ≤ 2 ^ w := Nat.pow_le_pow_right (by decide) hw
  have hmask := imageMask_toNat hw
  have hsize : (0x200#w).toNat = 0x200 := toNat_word (by omega)
  rw [BitVec.toNat_add, hsize]
  have hsum : 0x200 + (0x10#w - 1#w).toNat = 0x20f := by omega
  rw [hsum]
  exact Nat.mod_eq_of_lt (by omega)

section Heap

variable {start delta : BitVec w} {total : Nat} (hw : 32 ≤ w) (hnull : 0 < start.toNat)
  (hrange : start.toNat + total ≤ 2 ^ w)
include hw hnull hrange

/-- What the allocation of a cursor image does to a heap that does not contain NULL: it
fails, or a block is active at a nonzero address that no other block has. -/
theorem allocateImage_cases {kmalloc : Nat → Bool} {fuel : Nat} {heap heap' : OsdHeap w}
    {field8 : BitVec w} (h : WellFormed start delta total heap.blocks)
    (hcall : tl880AllocateOsdmem kmalloc fuel heap 0x200#w 0x10#w = some (field8, heap')) :
    WellFormed start delta total heap'.blocks ∧
      ((field8 = 0#w ∧ activeBlocks heap'.blocks = activeBlocks heap.blocks) ∨
        field8 ≠ 0#w ∧ ∃ b ∈ heap'.blocks, b.active = true ∧ b.virtAddr + b.field0 = field8 ∧
          (activeBlocks heap'.blocks).Perm (b :: activeBlocks heap.blocks) ∧
          (activeBlocks heap'.blocks).filter (fun c => c.virtAddr + c.field0 ≠ field8) =
            activeBlocks heap.blocks) := by
  have hsize := imageSize_toNat hw
  have hmask := imageMask_toNat hw
  have hcompact := tl880CompactOsdmem_wellFormed h
  rcases tl880AllocateOsdmem_returns hcall with
    ⟨hzero, hblocks⟩ | ⟨pre, b, post, hsplit, hb, hfield8, hblocks⟩
  · rw [hblocks]
    exact ⟨hcompact, Or.inl ⟨hzero, activeBlocks_compact heap.blocks⟩⟩
  · let b' : OsdBlock w :=
      { b with
        active := true
        field0 := alignUp (0x10#w - 1#w) b.virtAddr - b.virtAddr }
    have hblocks' : heap'.blocks = pre ++ b' :: post := hblocks
    rw [hsplit] at hcompact
    have hmem : b ∈ pre ++ b :: post := List.mem_append_right pre List.mem_cons_self
    -- the block is in order and does not reach the end of the address space
    have hbounds := hcompact.tiles.bounds hrange hmem
    have hbsize : b.size.toNat = 0x20f := by rw [hb.2, hsize]
    have haligned : b'.virtAddr + b'.field0 = field8 := by
      rw [hfield8]
      show b.virtAddr + (alignUp (0x10#w - 1#w) b.virtAddr - b.virtAddr) = _
      rw [BitVec.add_comm, BitVec.sub_add_cancel]
    have hne : field8 ≠ 0#w := by
      rw [hfield8]
      apply (alignUp_ne_zero_iff hmask b.virtAddr).mpr
      omega
    have hwf : WellFormed start delta total (pre ++ b' :: post) := by
      apply hcompact.activateAt
      have hpad := alignUp_sub_le (0x10#w - 1#w) b.virtAddr
      omega
    have hnodup : ((activeBlocks (pre ++ b' :: post)).map fun c =>
        c.virtAddr + c.field0).Nodup :=
      hwf.aligned_nodup.sublist (List.filter_sublist.map _)
    have hold : activeBlocks heap.blocks = activeBlocks pre ++ activeBlocks post := by
      rw [← activeBlocks_compact, hsplit, activeBlocks_append, activeBlocks_cons,
        if_neg (by simp [hb.1])]
    have hnew : activeBlocks (pre ++ b' :: post) =
        activeBlocks pre ++ b' :: activeBlocks post := by
      rw [activeBlocks_append, activeBlocks_cons, if_pos rfl]
    rw [hblocks']
    refine ⟨hwf, Or.inr ⟨hne, b', List.mem_append_right pre List.mem_cons_self, rfl, haligned,
      ?_, ?_⟩⟩
    · rw [hnew, hold]
      exact List.perm_middle
    · rw [hnew] at hnodup ⊢
      rw [hold, ← haligned]
      exact filter_key_ne (fun c : OsdBlock w => c.virtAddr + c.field0) hnodup

/-- What a call that creates a cursor can do: nothing that shows, or link a cursor that
owns a new active block. -/
theorem tl880CreateCursor_cases {address : BitVec w} {kmalloc : Nat → Bool} {fuel : Nat}
    {surface : Option (SurfaceDesc w)} {s s' : CursorState w} {retval : BitVec w}
    (h : WellFormed start delta total s.heap.blocks)
    (hcall : tl880CreateCursor address kmalloc fuel surface s = some (retval, s')) :
    WellFormed start delta total s'.heap.blocks ∧
      ((retval = 0#w ∧ s'.cursors = s.cursors ∧
          activeBlocks s'.heap.blocks = activeBlocks s.heap.blocks) ∨
        retval = address ∧ address ≠ 0#w ∧ ∃ c b, s'.cursors = c :: s.cursors ∧
          c.address = address ∧ c.field8 ≠ 0#w ∧ b.place = c.place ∧
          (activeBlocks s'.heap.blocks).Perm (b :: activeBlocks s.heap.blocks)) := by
  cases surface with
  | none =>
      cases hcall
      exact ⟨h, Or.inl ⟨rfl, rfl, rfl⟩⟩
  | some surface =>
      rw [tl880CreateCursor] at hcall
      by_cases hvalid : ¬ surface.Valid
      · rw [if_pos hvalid] at hcall
        cases hcall
        exact ⟨h, Or.inl ⟨rfl, rfl, rfl⟩⟩
      rw [if_neg hvalid] at hcall
      by_cases haddress : address = 0#w
      · rw [if_pos haddress] at hcall
        cases hcall
        exact ⟨h, Or.inl ⟨rfl, rfl, rfl⟩⟩
      rw [if_neg haddress] at hcall
      obtain ⟨⟨field8, heap⟩, halloc, heq⟩ := Option.map_eq_some_iff.mp hcall
      obtain ⟨hwf, hfailed | ⟨hne, b, hb, hactive, haligned, hperm, hundo⟩⟩ :=
        allocateImage_cases hw hnull hrange h halloc
      · simp only [if_pos hfailed.1] at heq
        cases heq
        exact ⟨hwf, Or.inl ⟨rfl, rfl, hfailed.2⟩⟩
      simp only [if_neg hne] at heq
      split_ifs at heq with hoffset
      · -- the block is given back
        cases heq
        refine ⟨tl880DeallocateOsdmem_wellFormed hwf field8, Or.inl ⟨rfl, rfl, ?_⟩⟩
        exact (activeBlocks_deallocate hwf field8).trans hundo
      · cases heq
        have htag : ∀ c ∈ heap.blocks, c.Tagged := fun c hc => (hwf.ok c hc).tag
        have hfieldC : tl880GetOsdmemOffset field8 heap.blocks = b.physAddr + b.field0 := by
          rcases tl880GetOsdmemOffset_cases htag field8 with
            ⟨-, hnone⟩ | ⟨c, hc, -, hc8, hcC⟩
          · exact absurd haligned (hnone b hb hactive)
          · rw [hcC, hwf.aligned_unique hc hb (hc8.trans haligned.symm)]
        refine ⟨hwf, Or.inr ⟨rfl, haddress, _, b, rfl, rfl, hne, ?_, hperm⟩⟩
        exact Prod.ext haligned hfieldC.symm

end Heap

/-- A pointer that is not in the list is not deleted. -/
theorem tl880DeleteCursor_not_mem {cursor : BitVec w} {s : CursorState w}
    (hmem : cursor ∉ s.cursors.map SOverlaySurface.address) :
    tl880DeleteCursor cursor s = s := by
  rw [tl880DeleteCursor]
  split_ifs
  · rfl
  cases hcursors : s.cursors with
  | nil => rfl
  | cons head rest =>
      rw [hcursors] at hmem
      have hhead : ¬ head.address = cursor := by
        rintro rfl
        exact hmem List.mem_cons_self
      simp only [if_neg hhead, unlinkNext_eq_none SOverlaySurface.address hmem]

/-- A live cursor is taken out of the list, wherever it is, and freed. -/
theorem tl880DeleteCursor_mem {c : SOverlaySurface w} {s : CursorState w}
    (hdistinct : (s.cursors.map SOverlaySurface.address).Nodup) (hc : c ∈ s.cursors)
    (hnonnull : c.address ≠ 0#w) :
    tl880DeleteCursor c.address s =
      freeCursor c
        { s with cursors := s.cursors.filter fun d => d.address ≠ c.address } := by
  rw [tl880DeleteCursor, if_neg hnonnull]
  cases hcursors : s.cursors with
  | nil =>
      rw [hcursors] at hc
      cases hc
  | cons head rest =>
      rw [hcursors] at hdistinct hc
      by_cases hhead : head.address = c.address
      · obtain rfl : c = head :=
          List.inj_on_of_nodup_map hdistinct hc List.mem_cons_self hhead.symm
        have hrest : (c :: rest).filter (fun d => d.address ≠ c.address) = rest :=
          filter_head_ne SOverlaySurface.address hdistinct
        simp only [if_true, hrest]
      · have hmem : c.address ∈ rest.map SOverlaySurface.address := by
          rcases List.mem_cons.mp hc with heq | hc
          · exact absurd (congrArg SOverlaySurface.address heq.symm) hhead
          · exact List.mem_map_of_mem hc
        have hfind : (head :: rest).find? (fun d => d.address = c.address) = some c :=
          find?_key_eq_some SOverlaySurface.address hdistinct hc rfl
        simp only [if_neg hhead, hfind,
          unlinkNext_eq_filter SOverlaySurface.address hdistinct hmem]

namespace CursorsMatch

variable {start delta : BitVec w} {total : Nat} {initial : List (OsdBlock w)}
  {s : CursorState w}

/-- The empty cursor list goes with the initially active blocks. -/
theorem init {heap : OsdHeap w} (h : WellFormed start delta total heap.blocks)
    (idTracker : BitVec w) :
    CursorsMatch start delta total (activeBlocks heap.blocks) ⟨[], idTracker, heap⟩ where
  heap := h
  distinct := List.nodup_nil
  nonnull := by
    intro c hc
    cases hc
  owned := ⟨[], rfl, List.Perm.refl _⟩

/-- A change that does not show keeps the correspondence. -/
theorem of_unchanged (h : CursorsMatch start delta total initial s) {s' : CursorState w}
    (hheap : WellFormed start delta total s'.heap.blocks) (hcursors : s'.cursors = s.cursors)
    (hactive : activeBlocks s'.heap.blocks = activeBlocks s.heap.blocks) :
    CursorsMatch start delta total initial s' := by
  constructor
  · exact hheap
  · rw [hcursors]
    exact h.distinct
  · rw [hcursors]
    exact h.nonnull
  · rw [hcursors, hactive]
    exact h.owned

/-- A new cursor with a new active block keeps the correspondence. -/
theorem link (h : CursorsMatch start delta total initial s) {s' : CursorState w}
    {c : SOverlaySurface w} {b : OsdBlock w}
    (hheap : WellFormed start delta total s'.heap.blocks) (hcursors : s'.cursors = c :: s.cursors)
    (hfresh : c.address ∉ s.cursors.map SOverlaySurface.address)
    (hnonnull : c.address ≠ 0#w ∧ c.field8 ≠ 0#w) (hplace : b.place = c.place)
    (hperm : (activeBlocks s'.heap.blocks).Perm (b :: activeBlocks s.heap.blocks)) :
    CursorsMatch start delta total initial s' := by
  obtain ⟨owned, hplaces, howned⟩ := h.owned
  constructor
  · exact hheap
  · rw [hcursors]
    exact List.nodup_cons.mpr ⟨hfresh, h.distinct⟩
  · rw [hcursors]
    intro d hd
    rcases List.mem_cons.mp hd with heq | hd
    · rw [heq]
      exact hnonnull
    · exact h.nonnull d hd
  · refine ⟨b :: owned, ?_, hperm.trans (howned.cons b)⟩
    rw [hcursors, List.map_cons, List.map_cons, hplace, hplaces]

/-- The aligned addresses of the owned blocks and of the others are distinct. -/
theorem addresses_nodup (h : CursorsMatch start delta total initial s) :
    (s.cursors.map SOverlaySurface.field8 ++
      initial.map fun b => b.virtAddr + b.field0).Nodup := by
  obtain ⟨owned, hplaces, howned⟩ := h.owned
  have hnodup : ((activeBlocks s.heap.blocks).map fun b => b.virtAddr + b.field0).Nodup :=
    h.heap.aligned_nodup.sublist (List.filter_sublist.map _)
  have hfields : owned.map (fun b => b.virtAddr + b.field0) =
      s.cursors.map SOverlaySurface.field8 := by
    have hfirst := congrArg (List.map Prod.fst) hplaces
    rw [List.map_map, List.map_map] at hfirst
    exact hfirst
  rw [← hfields, ← List.map_append]
  exact (howned.map _).nodup_iff.mp hnodup

/-- Deleting a live cursor keeps the correspondence. -/
theorem unlink (h : CursorsMatch start delta total initial s) {c : SOverlaySurface w}
    (hc : c ∈ s.cursors) :
    CursorsMatch start delta total initial (tl880DeleteCursor c.address s) := by
  obtain ⟨haddress, hfield8⟩ := h.nonnull c hc
  obtain ⟨owned, hplaces, howned⟩ := h.owned
  have hnodup := List.nodup_append.mp h.addresses_nodup
  -- for the cursors of the list the address and the block say the same
  have hsame : s.cursors.filter (fun d => d.address ≠ c.address) =
      s.cursors.filter fun d => d.field8 ≠ c.field8 := by
    apply List.filter_congr
    intro d hd
    have hiff : d.address = c.address ↔ d.field8 = c.field8 := by
      constructor
      · intro heq
        rw [List.inj_on_of_nodup_map h.distinct hd hc heq]
      · intro heq
        rw [List.inj_on_of_nodup_map hnodup.1 hd hc heq]
    simp only [ne_eq, hiff]
  have hinitial : initial.filter (fun b => b.virtAddr + b.field0 ≠ c.field8) = initial := by
    rw [List.filter_eq_self]
    intro b hb
    have hne : b.virtAddr + b.field0 ≠ c.field8 :=
      (hnodup.2.2 c.field8 (List.mem_map_of_mem hc) _ (List.mem_map_of_mem hb)).symm
    simpa using hne
  rw [tl880DeleteCursor_mem h.distinct hc haddress, freeCursor, if_pos hfield8, hsame]
  constructor
  · exact tl880DeallocateOsdmem_wellFormed h.heap c.field8
  · exact h.distinct.sublist (List.filter_sublist.map _)
  · intro d hd
    exact h.nonnull d (List.mem_of_mem_filter hd)
  · refine ⟨owned.filter fun b => b.virtAddr + b.field0 ≠ c.field8, ?_, ?_⟩
    · have hfilter := congrArg (List.filter fun place => place.1 ≠ c.field8) hplaces
      rw [List.filter_map, List.filter_map] at hfilter
      exact hfilter
    · rw [activeBlocks_deallocate h.heap, ← hinitial, ← List.filter_append]
      exact howned.filter _

/-- Deleting any pointer keeps the correspondence. -/
theorem delete (h : CursorsMatch start delta total initial s) (cursor : BitVec w) :
    CursorsMatch start delta total initial (tl880DeleteCursor cursor s) := by
  by_cases hmem : cursor ∈ s.cursors.map SOverlaySurface.address
  · obtain ⟨c, hc, rfl⟩ := List.mem_map.mp hmem
    exact h.unlink hc
  · rw [tl880DeleteCursor_not_mem hmem]
    exact h

/-- Deleting the list terminates: every round takes out the head. -/
theorem deleteList (h : CursorsMatch start delta total initial s) {fuel : Nat}
    (hfuel : s.cursors.length < fuel) :
    ∃ s', tl880DeleteCursorList fuel s = some s' ∧ s'.cursors = [] ∧
      CursorsMatch start delta total initial s' := by
  induction fuel generalizing s with
  | zero => exact absurd hfuel (Nat.not_lt_zero _)
  | succ fuel ih =>
      rw [tl880DeleteCursorList]
      cases hcursors : s.cursors with
      | nil => exact ⟨s, rfl, hcursors, h⟩
      | cons head rest =>
          have hhead : head ∈ s.cursors := by
            rw [hcursors]
            exact List.mem_cons_self
          have hshorter : (tl880DeleteCursor head.address s).cursors.length < fuel := by
            have hdistinct := h.distinct
            rw [hcursors] at hdistinct hfuel
            have hrest : (head :: rest).filter (fun d => d.address ≠ head.address) = rest :=
              filter_head_ne SOverlaySurface.address hdistinct
            rw [tl880DeleteCursor_mem h.distinct hhead (h.nonnull head hhead).1, freeCursor,
              if_pos (h.nonnull head hhead).2]
            show (s.cursors.filter fun d => d.address ≠ head.address).length < fuel
            rw [hcursors, hrest]
            exact Nat.lt_of_succ_lt_succ hfuel
          exact ih (h.unlink hhead) hshorter

end CursorsMatch

/-! ## Runs -/

/-- The cursors and the active blocks that were not active initially, one to one. -/
structure OneToOne (initial : List (OsdBlock w)) (s : CursorState w) : Prop where
  distinct : (s.cursors.map SOverlaySurface.address).Nodup
  kept : ∀ b ∈ initial, b ∈ activeBlocks s.heap.blocks
  block : ∀ c ∈ s.cursors, ∃ b ∈ activeBlocks s.heap.blocks, b ∉ initial ∧ b.place = c.place
  cursor : ∀ b ∈ activeBlocks s.heap.blocks, b ∉ initial → ∃ c ∈ s.cursors, c.place = b.place
  cursorUnique : ∀ c ∈ s.cursors, ∀ d ∈ s.cursors, c.field8 = d.field8 → c = d
  blockUnique : ∀ b ∈ s.heap.blocks, ∀ c ∈ s.heap.blocks,
    b.virtAddr + b.field0 = c.virtAddr + c.field0 → b = c

/-- The invariant is a one-to-one correspondence. -/
theorem CursorsMatch.oneToOne {start delta : BitVec w} {total : Nat}
    {initial : List (OsdBlock w)} {s : CursorState w}
    (h : CursorsMatch start delta total initial s) : OneToOne initial s := by
  have hnodup := List.nodup_append.mp h.addresses_nodup
  obtain ⟨owned, hplaces, howned⟩ := h.owned
  have hboth := howned.nodup_iff.mp h.heap.activeBlocks_nodup
  constructor
  · exact h.distinct
  · intro b hb
    exact howned.mem_iff.mpr (List.mem_append_right owned hb)
  · intro c hc
    have hplace : c.place ∈ owned.map OsdBlock.place := by
      rw [hplaces]
      exact List.mem_map_of_mem hc
    obtain ⟨b, hb, heq⟩ := List.mem_map.mp hplace
    refine ⟨b, howned.mem_iff.mpr (List.mem_append_left initial hb), ?_, heq⟩
    intro hinitial
    exact (List.nodup_append.mp hboth).2.2 b hb b hinitial rfl
  · intro b hb hinitial
    rcases List.mem_append.mp (howned.mem_iff.mp hb) with hb | hb
    · have hplace : b.place ∈ s.cursors.map SOverlaySurface.place := by
        rw [← hplaces]
        exact List.mem_map_of_mem hb
      exact List.mem_map.mp hplace
    · exact absurd hb hinitial
  · intro c hc d hd heq
    exact List.inj_on_of_nodup_map hnodup.1 hc hd heq
  · intro b hb c hc heq
    exact h.heap.aligned_unique hb hc heq

/-- A call that is to change nothing: a creation that fails, or a deletion of a pointer
that is not in the list. -/
def Refused (s : CursorState w) : CursorCall w → Prop
  | .create address kmalloc fuel surface =>
      ∃ s', tl880CreateCursor address kmalloc fuel surface s = some (0#w, s')
  | .delete cursor => cursor ∉ s.cursors.map SOverlaySurface.address
  | .deleteList => False

/-- What holds of every state a run can reach. -/
structure CursorsSound (initial : List (OsdBlock w)) (s : CursorState w) : Prop where
  oneToOne : OneToOne initial s
  refused : ∀ call s', cursorCall s call = some s' → Refused s call →
    s'.cursors = s.cursors ∧ activeBlocks s'.heap.blocks = activeBlocks s.heap.blocks
  deleteList : ∃ s', cursorCall s .deleteList = some s' ∧ s'.cursors = [] ∧
    ∀ b, b ∈ activeBlocks s'.heap.blocks ↔ b ∈ initial

section Runs

variable {start delta : BitVec w} {total : Nat} {initial : List (OsdBlock w)} (hw : 32 ≤ w)
  (hnull : 0 < start.toNat) (hrange : start.toNat + total ≤ 2 ^ w)
include hw hnull hrange

/-- Every call keeps the correspondence. -/
theorem cursorCall_match {s s' : CursorState w} {call : CursorCall w}
    (h : CursorsMatch start delta total initial s) (hfresh : FreshMemory s call)
    (hcall : cursorCall s call = some s') : CursorsMatch start delta total initial s' := by
  cases call with
  | create address kmalloc fuel surface =>
      obtain ⟨⟨retval, t⟩, hcreate, rfl⟩ := Option.map_eq_some_iff.mp hcall
      obtain ⟨hheap, ⟨-, hcursors, hactive⟩ | ⟨-, haddress, c, b, hcursors, hc, hfield8, hplace,
        hperm⟩⟩ := tl880CreateCursor_cases hw hnull hrange h.heap hcreate
      · exact h.of_unchanged hheap hcursors hactive
      · apply h.link hheap hcursors _ ⟨_, hfield8⟩ hplace hperm
        · rw [hc]
          exact hfresh
        · rw [hc]
          exact haddress
  | delete cursor =>
      cases hcall
      exact h.delete cursor
  | deleteList =>
      obtain ⟨t, hlist, -, hmatch⟩ := h.deleteList (Nat.lt_succ_self _)
      cases hcall.symm.trans hlist
      exact hmatch

/-- A refused call changes neither the list nor the active blocks. -/
theorem cursorCall_refused {s s' : CursorState w} {call : CursorCall w}
    (h : CursorsMatch start delta total initial s) (hcall : cursorCall s call = some s')
    (hrefused : Refused s call) :
    s'.cursors = s.cursors ∧ activeBlocks s'.heap.blocks = activeBlocks s.heap.blocks := by
  cases call with
  | create address kmalloc fuel surface =>
      obtain ⟨t, hcreate⟩ := hrefused
      change (tl880CreateCursor address kmalloc fuel surface s).map Prod.snd = some s' at hcall
      rw [hcreate] at hcall
      cases hcall
      obtain ⟨-, ⟨-, hcursors, hactive⟩ | ⟨hzero, haddress, -⟩⟩ :=
        tl880CreateCursor_cases hw hnull hrange h.heap hcreate
      · exact ⟨hcursors, hactive⟩
      · exact absurd hzero.symm haddress
  | delete cursor =>
      cases hcall
      rw [tl880DeleteCursor_not_mem hrefused]
      exact ⟨rfl, rfl⟩
  | deleteList => cases hrefused

/-- Where the invariant holds all that is said of reachable states does. -/
theorem CursorsMatch.sound {s : CursorState w} (h : CursorsMatch start delta total initial s) :
    CursorsSound initial s := by
  constructor
  · exact h.oneToOne
  · intro call s' hcall hrefused
    exact cursorCall_refused hw hnull hrange h hcall hrefused
  · obtain ⟨s', hlist, hempty, hmatch⟩ := h.deleteList (Nat.lt_succ_self _)
    refine ⟨s', hlist, hempty, ?_⟩
    intro b
    obtain ⟨owned, hplaces, howned⟩ := hmatch.owned
    rw [hempty] at hplaces
    rw [List.map_eq_nil_iff.mp hplaces] at howned
    exact howned.mem_iff

end Runs

/-! ## Heaps for cursor images -/

/-- A heap with room for one cursor image. -/
def imageHeap : OsdHeap 32 where
  blocks := [⟨0#32, 0xe0186008#32, 0xd0186008#32, 0x20f#32, false, 0x52300001#32⟩]
  idTracker := 1

theorem imageHeap_wellFormed :
    WellFormed 0xe0186008#32 0xf0000000#32 0x20f imageHeap.blocks := by
  apply wellFormed_cons.mpr
  refine ⟨rfl, by decide, by decide, by decide, ?_, rfl, by decide, ?_⟩
  · constructor
    · decide
    · decide
    · intro _
      rfl
    · intro hactive
      cases hactive
  · intro b hb
    cases hb

/-- A block for one cursor image. -/
def imageBlock (virtAddr : U32) (active : Bool) : OsdBlock 32 :=
  ⟨0, virtAddr, virtAddr + 0xf0000000, 0x20f, active, 0x52300001⟩

/-- A heap with two blocks for cursor images, and one between them that is in use. -/
def twoImages (first second : Bool) : OsdHeap 32 where
  blocks := [imageBlock 0xe0186010 first,
    ⟨0, 0xe018621f, 0xd018621f, 0x11, true, 0x52300002⟩, imageBlock 0xe0186230 second]
  idTracker := 3

theorem twoImages_wellFormed :
    WellFormed 0xe0186010#32 0xf0000000#32 0x42f (twoImages false false).blocks := by
  have himage (virtAddr : U32) : (imageBlock virtAddr false).Ok 0xf0000000#32 := by
    refine ⟨?_, ?_, fun _ => rfl, ?_⟩
    · show virtAddr + 0xf0000000#32 - virtAddr = _
      rw [BitVec.add_comm, BitVec.add_sub_cancel]
    · show (0x52300001#32 : U32) &&& 0xfff00000#32 = 0x52300000#32
      decide
    · intro hactive
      cases hactive
  apply wellFormed_cons.mpr
  refine ⟨rfl, by decide, by decide, by decide, himage _, ?_⟩
  apply wellFormed_cons.mpr
  refine ⟨rfl, by decide, by decide, by decide, ⟨rfl, rfl, ?_, fun _ => by decide⟩, ?_⟩
  · intro hidle
    cases hidle
  apply wellFormed_cons.mpr
  refine ⟨rfl, by decide, by decide, by decide, himage _, rfl, by decide, ?_⟩
  intro b hb
  cases hb

/-- A surface that is accepted. -/
def smallSurface : SurfaceDesc 32 := ⟨0, 0, 0, 32, 32, 1, 1, 0x1c⟩

/-- The creation of a cursor at an address. -/
def createAt (address : U32) : CursorCall 32 :=
  .create address (fun _ => true) 1 (some smallSurface)

/-- The cursor in the first block. -/
def firstCursor : SOverlaySurface 32 :=
  { newSurface 0xc0000000 1 smallSurface with field8 := 0xe0186010, fieldC := 0xd0186010 }

/-- The cursor in the second block, by the value of the counter it was made at. -/
def secondCursor (idTracker : U32) : SOverlaySurface 32 :=
  { newSurface 0xc0001000 idTracker smallSurface with field8 := 0xe0186230, fieldC := 0xd0186230 }

/-- The first cursor is there, and the counter is at a value. -/
def oneCursor (idTracker : U32) : CursorState 32 := ⟨[firstCursor], idTracker, twoImages true false⟩

/-- Both cursors are there, the second one just made. -/
def twoCursors (idTracker : U32) : CursorState 32 :=
  ⟨[secondCursor idTracker, firstCursor], idTracker, twoImages true true⟩

theorem create_first :
    cursorCall ⟨[], 0, twoImages false false⟩ (createAt 0xc0000000) = some (oneCursor 1) := rfl

theorem create_second (idTracker : U32) :
    cursorCall (oneCursor idTracker) (createAt 0xc0001000) = some (twoCursors (idTracker + 1)) :=
  rfl

/-- The memory for the second cursor is not the first one's. -/
theorem freshMemory_second (idTracker : U32) :
    FreshMemory (oneCursor idTracker) (createAt 0xc0001000) := by
  show (0xc0001000 : U32) ∉ [0xc0000000]
  decide

/-- A run that begins with the first cursor's creation. -/
theorem createFirst_fresh {calls : List (CursorCall 32)}
    (hcalls : AllSteps cursorCall FreshMemory (oneCursor 1) calls) :
    AllSteps cursorCall FreshMemory ⟨[], 0, twoImages false false⟩
      (createAt 0xc0000000 :: calls) := by
  intro s' hcreate
  refine ⟨List.not_mem_nil, ?_⟩
  rw [create_first] at hcreate
  cases hcreate
  exact hcalls

/-- In every run from an empty list the cursors and the blocks they own correspond, what
fails changes nothing, and deleting the list leaves the blocks of others. -/
theorem cursors_oneToOne (hw : 32 ≤ w) (start delta : BitVec w) (total : Nat)
    (heap : OsdHeap w) (h : WellFormed start delta total heap.blocks)
    (hnull : 0 < start.toNat) (hrange : start.toNat + total ≤ 2 ^ w) (idTracker : BitVec w)
    (calls : List (CursorCall w))
    (hfresh : AllSteps cursorCall FreshMemory ⟨[], idTracker, heap⟩ calls) :
    AllStates cursorCall (CursorsSound (activeBlocks heap.blocks)) ⟨[], idTracker, heap⟩
      calls := by
  have hmatch := allStates_of_allSteps
    (fun s call s' hs hcall hstep => cursorCall_match hw hnull hrange hs hcall hstep)
    (CursorsMatch.init h idTracker) hfresh
  exact hmatch.imp fun s hs => hs.sound hw hnull hrange

/-- Two cursors are there, and one of them is deleted. -/
theorem cursors_oneToOne_image :
    AllStates cursorCall (CursorsSound (activeBlocks (twoImages false false).blocks))
      ⟨[], 0, twoImages false false⟩
      [createAt 0xc0000000, createAt 0xc0001000, .delete 0xc0000000] := by
  apply cursors_oneToOne (by decide) 0xe0186010#32 0xf0000000#32 0x42f (twoImages false false)
    twoImages_wellFormed (by decide) (by decide)
  apply createFirst_fresh
  intro s' _
  exact ⟨freshMemory_second 1, fun t _ => ⟨trivial, trivial⟩⟩

/-- A heap of one block, which reaches over the end of the address space. -/
def wrappedHeap : OsdHeap 32 where
  blocks := [⟨0#32, 0xfffffff8#32, 0xeffffff8#32, 0x20f#32, false, 0x52300001#32⟩]
  idTracker := 1

theorem wrappedHeap_wellFormed :
    WellFormed 0xfffffff8#32 0xf0000000#32 0x20f wrappedHeap.blocks := by
  apply wellFormed_cons.mpr
  refine ⟨rfl, by decide, by decide, by decide, ⟨by decide, by decide, fun _ => rfl, ?_⟩, rfl,
    by decide, ?_⟩
  · intro hactive
    cases hactive
  · intro b hb
    cases hb

/-- The aligned address of that block is 0, which `tl880_create_cursor` takes for a failure:
it returns NULL and leaves the block active. -/
theorem cursors_oneToOne_wrapped :
    ¬ ∀ (start delta : U32) (total : Nat) (heap : OsdHeap 32),
      WellFormed start delta total heap.blocks → 0 < start.toNat →
      ∀ (idTracker : U32) (calls : List (CursorCall 32)),
        AllSteps cursorCall FreshMemory ⟨[], idTracker, heap⟩ calls →
          AllStates cursorCall (CursorsSound (activeBlocks heap.blocks)) ⟨[], idTracker, heap⟩
            calls := by
  intro h
  have hstates := h 0xfffffff8 0xf0000000 0x20f wrappedHeap wrappedHeap_wellFormed (by decide) 0
    [createAt 0xc0000000] fun s' _ => ⟨List.not_mem_nil, trivial⟩
  have hcreate : cursorCall ⟨[], 0, wrappedHeap⟩ (createAt 0xc0000000) =
      some ⟨[], 1, ⟨[⟨8, 0xfffffff8, 0xeffffff8, 0x20f, true, 0x52300001⟩], 1⟩⟩ := rfl
  have hsound := (hstates.2 _ hcreate).head
  obtain ⟨c, hc, -⟩ := hsound.oneToOne.cursor ⟨8, 0xfffffff8, 0xeffffff8, 0x20f, true, 0x52300001⟩
    (mem_activeBlocks.mpr ⟨List.mem_singleton_self _, rfl⟩) (by decide)
  exact List.not_mem_nil hc

end Tl880
