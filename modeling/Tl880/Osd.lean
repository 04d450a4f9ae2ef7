import Tl880.Lib.AlignUp
import Tl880.Lib.Tiling
import Mathlib.Data.List.Basic

/-!
# The OSD heap

The model of the heap functions in `driver/tl880osd.c`.  The heap is the list of
blocks behind `_g_head`, in list order; an `unsigned long` has `w` bits.  Whether
a `kmalloc` succeeds is up to the kernel.

A node is seven words long and `kmalloc` is asked for `0x1c` bytes, which is a node
where `unsigned long` has 32 bits.  Where it has 64, the stores into a new node go past
the end of it, and a list with a node made by `kmalloc` is not described here: what is
said of a heap after `tl880InitOsdmem` or after a split is said of `w = 32`.

`WellFormed` is the representation invariant: the blocks tile the heap, in
virtual and in physical addresses alike, and each one carries the id tag and an
alignment offset that fits.  The second half of the file proves that
compaction, an exact fit, a single round of the splitting loop and a free each
keep it.
-/

namespace Tl880

open AlignUp Tiling

/-- `struct OSDmemory`; `next` is the list order, and of `active` the code only
ever asks whether it is zero. -/
structure OsdBlock (w : Nat) where
  /-- the alignment offset of an active block -/
  field0 : BitVec w
  virtAddr : BitVec w
  physAddr : BitVec w
  size : BitVec w
  active : Bool
  id : BitVec w
deriving DecidableEq

/-- The globals `_g_head` and `_g_idTracker_0`. -/
structure OsdHeap (w : Nat) where
  blocks : List (OsdBlock w)
  idTracker : BitVec w

variable {w : Nat}

/-- `(++_g_idTracker_0 & 0xfffff) | 0x52300000`, for the new tracker value. -/
def osdId (idTracker : BitVec w) : BitVec w := (idTracker &&& 0xfffff#w) ||| 0x52300000#w

/-- `(id & 0xfff00000) == 0x52300000` -/
def OsdBlock.Tagged (b : OsdBlock w) : Prop := b.id &&& 0xfff00000#w = 0x52300000#w

instance (b : OsdBlock w) : Decidable b.Tagged :=
  inferInstanceAs (Decidable (b.id &&& 0xfff00000#w = 0x52300000#w))

/-- The walk of `tl880_compact_osdmem` from `listp1` on. -/
def compactFrom : OsdBlock w → List (OsdBlock w) → List (OsdBlock w)
  | listp1, [] => [listp1]
  | listp1, listp2 :: rest =>
      if !listp1.active && !listp2.active then
        -- merged; `listp1` stays where it is
        compactFrom { listp1 with size := listp1.size + listp2.size } rest
      else listp1 :: compactFrom listp2 rest

/-- `tl880_compact_osdmem` -/
def tl880CompactOsdmem : List (OsdBlock w) → List (OsdBlock w)
  | [] => []
  | head :: rest => compactFrom head rest

/-- `tl880_init_osdmem`, for `w = 32`, where the `0x1c` bytes of the `kmalloc` hold a
node. -/
def tl880InitOsdmem (memspace memphys : BitVec w) (kmallocOk : Bool) (heap : OsdHeap w) :
    Int × OsdHeap w :=
  if heap.blocks ≠ [] then (0, heap)
  else if kmallocOk = false then (0, heap)
  else
    (1,
      { blocks :=
          [{ field0 := 0#w
             virtAddr := memspace + 0x186000#w
             physAddr := memphys + 0x186000#w
             size := 0x1000000#w
             active := false
             id := osdId (heap.idTracker + 1#w) }]
        idTracker := heap.idTracker + 1#w })

/-- The first search of `tl880_allocate_osdmem`: an inactive block of exactly
`finalsize` bytes is set active. -/
def allocateExact (alignsize finalsize : BitVec w) :
    List (OsdBlock w) → Option (BitVec w × List (OsdBlock w))
  | [] => none
  | listp1 :: next =>
      if listp1.active = false ∧ listp1.size = finalsize then
        let retval := alignUp alignsize listp1.virtAddr
        some
          (retval, { listp1 with active := true, field0 := retval - listp1.virtAddr } :: next)
      else
        (allocateExact alignsize finalsize next).map fun (retval, blocks) =>
          (retval, listp1 :: blocks)

/-- What one round of the splitting loop does to the list when the cursor is at
position `pos` and `kmalloc` has delivered `newmem`. -/
def splitAt (finalsize newId : BitVec w) : Nat → List (OsdBlock w) → List (OsdBlock w)
  | _, [] => []
  | 0, listp1 :: next =>
      { listp1 with size := finalsize, active := true } ::
        { field0 := 0#w
          virtAddr := listp1.virtAddr + finalsize
          physAddr := listp1.physAddr + finalsize
          size := listp1.size - finalsize
          active := false
          id := newId } :: next
  | pos + 1, b :: next => b :: splitAt finalsize newId pos next

/-- How a round of the splitting loop ends. -/
inductive SplitRound (w : Nat) where
  /-- `listp1` is NULL -/
  | finished
  /-- `kmalloc` has failed -/
  | outOfMemory
  | again (heap : OsdHeap w)

/-- One round of the splitting loop of `tl880_allocate_osdmem`, with `listp1` at
position `pos` of the list.  A round that splits is one for `w = 32`, where the `0x1c`
bytes of the `kmalloc` hold the new node. -/
def splitRound (finalsize : BitVec w) (kmallocOk : Bool) (pos : Nat) (heap : OsdHeap w) :
    SplitRound w :=
  match heap.blocks[pos]? with
  | none => .finished
  | some listp1 =>
      if listp1.active = false ∧ finalsize < listp1.size then
        if kmallocOk = false then .outOfMemory
        else
          .again
            { blocks := splitAt finalsize (osdId (heap.idTracker + 1#w)) pos heap.blocks
              idTracker := heap.idTracker + 1#w }
      else .again heap

/-- The splitting loop.  The body never moves `listp1`, so every round is at the
head.  `none` is a loop still running when the rounds are used up. -/
def splitLoop (finalsize : BitVec w) (kmalloc : Nat → Bool) :
    Nat → Nat → OsdHeap w → Option (BitVec w × OsdHeap w)
  | 0, _, _ => none
  | fuel + 1, round, heap =>
      match splitRound finalsize (kmalloc round) 0 heap with
      | .finished => some (0#w, heap)
      | .outOfMemory => some (0#w, heap)
      | .again heap' => splitLoop finalsize kmalloc fuel (round + 1) heap'

/-- `tl880_allocate_osdmem`, for at most `fuel` rounds of its splitting loop;
`kmalloc i` is the outcome of a `kmalloc` in round `i`. -/
def tl880AllocateOsdmem (kmalloc : Nat → Bool) (fuel : Nat) (heap : OsdHeap w)
    (size align : BitVec w) : Option (BitVec w × OsdHeap w) :=
  let alignsize := align - 1#w
  let finalsize := size + alignsize
  let blocks := tl880CompactOsdmem heap.blocks
  match allocateExact alignsize finalsize blocks with
  | some (retval, blocks') => some (retval, { heap with blocks := blocks' })
  | none => splitLoop finalsize kmalloc fuel 0 { heap with blocks := blocks }

/-- `tl880_get_osdmem_offset` -/
def tl880GetOsdmemOffset (addr : BitVec w) : List (OsdBlock w) → BitVec w
  | [] => -1#w
  | listp :: next =>
      if ¬ listp.Tagged then -1#w
      else if listp.active = true ∧ listp.virtAddr + listp.field0 = addr then
        listp.physAddr + listp.field0
      else tl880GetOsdmemOffset addr next

/-- `tl880_deallocate_osdmem` -/
def tl880DeallocateOsdmem (addr : BitVec w) :
    List (OsdBlock w) → Int × List (OsdBlock w)
  | [] => (0, [])
  | listp :: next =>
      if ¬ listp.Tagged then (0, listp :: next)
      else if listp.virtAddr + listp.field0 = addr then
        (1, { listp with active := false, field0 := 0#w } :: next)
      else
        let (ret, blocks) := tl880DeallocateOsdmem addr next
        (ret, listp :: blocks)

/-! ## The representation invariant -/

/-- What holds of a block by itself. -/
structure OsdBlock.Ok (delta : BitVec w) (b : OsdBlock w) : Prop where
  phys : b.physAddr - b.virtAddr = delta
  tag : b.Tagged
  idle : b.active = false → b.field0 = 0#w
  offset : b.active = true → b.field0.toNat < b.size.toNat

/-- The blocks tile `total` bytes from `start` on, and each one is in order. -/
structure WellFormed (start delta : BitVec w) (total : Nat) (blocks : List (OsdBlock w)) :
    Prop where
  tiles : Tiles OsdBlock.virtAddr OsdBlock.size start total blocks
  fits : total < 2 ^ w
  ok : ∀ b ∈ blocks, b.Ok delta

theorem wellFormed_cons {start delta : BitVec w} {total : Nat} {b : OsdBlock w}
    {rest : List (OsdBlock w)} :
    WellFormed start delta total (b :: rest) ↔
      b.virtAddr = start ∧ 0 < b.size.toNat ∧ b.size.toNat ≤ total ∧ total < 2 ^ w ∧
        b.Ok delta ∧ WellFormed (start + b.size) delta (total - b.size.toNat) rest := by
  constructor
  · intro h
    obtain ⟨hbase, hpos, hle, hrest⟩ := h.tiles
    have hfits := h.fits
    refine ⟨hbase, hpos, hle, hfits, h.ok b List.mem_cons_self, hrest, by omega, ?_⟩
    intro c hc
    exact h.ok c (List.mem_cons_of_mem b hc)
  · intro h
    obtain ⟨hbase, hpos, hle, hfits, hok, hrest⟩ := h
    constructor
    · exact ⟨hbase, hpos, hle, hrest.tiles⟩
    · exact hfits
    · intro c hc
      rcases List.mem_cons.mp hc with heq | hc
      · rw [heq]
        exact hok
      · exact hrest.ok c hc

/-- An id made from the tracker carries the tag. -/
theorem osdId_tagged (idTracker : BitVec w) :
    osdId idTracker &&& 0xfff00000#w = 0x52300000#w := by
  have hlow : 0xfffff#w &&& 0xfff00000#w = 0#w := by
    rw [← BitVec.ofNat_and]
    rfl
  have hhigh : 0x52300000#w &&& 0xfff00000#w = 0x52300000#w := by
    rw [← BitVec.ofNat_and]
    rfl
  rw [osdId, BitVec.and_or_distrib_right, BitVec.and_assoc, hlow, hhigh]
  simp

/-- A fresh heap is well formed. -/
theorem tl880InitOsdmem_wellFormed (memspace memphys idTracker : BitVec w)
    (hw : 0x1000000 < 2 ^ w) :
    WellFormed (memspace + 0x186000#w) (memphys - memspace) 0x1000000
      (tl880InitOsdmem memspace memphys true
        { blocks := [], idTracker := idTracker }).2.blocks := by
  have hsize : (0x1000000#w).toNat = 0x1000000 := toNat_word hw
  have hdelta : memphys + 0x186000#w - (memspace + 0x186000#w) = memphys - memspace := by
    rw [BitVec.sub_eq_iff_eq_add, ← BitVec.add_assoc, BitVec.sub_add_cancel]
  apply wellFormed_cons.mpr
  refine ⟨rfl, by rw [hsize]; decide, Nat.le_of_eq hsize, hw, ?_, ?_⟩
  · constructor
    · exact hdelta
    · exact osdId_tagged _
    · intro _
      rfl
    · intro hactive
      cases hactive
  · constructor
    · change 0x1000000 - (0x1000000#w).toNat = 0
      rw [hsize]
    · exact Nat.lt_of_le_of_lt (Nat.sub_le _ _) hw
    · intro b hb
      cases hb

/-! ## Compaction -/

/-- Merging two inactive neighbours keeps the heap well formed. -/
theorem WellFormed.merge {start delta : BitVec w} {total : Nat} {b c : OsdBlock w}
    {rest : List (OsdBlock w)} (h : WellFormed start delta total (b :: c :: rest))
    (hb : b.active = false) :
    WellFormed start delta total ({ b with size := b.size + c.size } :: rest) := by
  have hbok := h.ok b List.mem_cons_self
  constructor
  · exact h.tiles.merge h.fits rfl rfl
  · exact h.fits
  · intro d hd
    rcases List.mem_cons.mp hd with heq | hd
    · rw [heq]
      constructor
      · exact hbok.phys
      · exact hbok.tag
      · exact hbok.idle
      · intro hactive
        rw [hb] at hactive
        cases hactive
    · exact h.ok d (List.mem_cons_of_mem _ (List.mem_cons_of_mem _ hd))

theorem compactFrom_wellFormed {start delta : BitVec w} {total : Nat} {b : OsdBlock w}
    {rest : List (OsdBlock w)} (h : WellFormed start delta total (b :: rest)) :
    WellFormed start delta total (compactFrom b rest) := by
  induction rest generalizing start total b with
  | nil => exact h
  | cons c rest ih =>
      rw [compactFrom]
      split_ifs with hidle
      · simp only [Bool.and_eq_true, Bool.not_eq_true'] at hidle
        exact ih (h.merge hidle.1)
      · obtain ⟨hbase, hpos, hle, hfits, hok, hrest⟩ := wellFormed_cons.mp h
        exact wellFormed_cons.mpr ⟨hbase, hpos, hle, hfits, hok, ih hrest⟩

/-- Compaction keeps the heap well formed. -/
theorem tl880CompactOsdmem_wellFormed {start delta : BitVec w} {total : Nat}
    {blocks : List (OsdBlock w)} (h : WellFormed start delta total blocks) :
    WellFormed start delta total (tl880CompactOsdmem blocks) := by
  cases blocks with
  | nil => exact h
  | cons b rest => exact compactFrom_wellFormed h

/-! ## Allocation -/

/-- A block whose state changes to one that is in order keeps the heap well formed. -/
theorem WellFormed.setState {start delta : BitVec w} {total : Nat} {b : OsdBlock w}
    {rest : List (OsdBlock w)} (h : WellFormed start delta total (b :: rest))
    {active : Bool} {field0 : BitVec w} (hidle : active = false → field0 = 0#w)
    (hoffset : active = true → field0.toNat < b.size.toNat) :
    WellFormed start delta total ({ b with active := active, field0 := field0 } :: rest) := by
  obtain ⟨hbase, hpos, hle, hfits, hok, hrest⟩ := wellFormed_cons.mp h
  refine wellFormed_cons.mpr ⟨hbase, hpos, hle, hfits, ?_, hrest⟩
  constructor
  · exact hok.phys
  · exact hok.tag
  · exact hidle
  · exact hoffset

/-- Setting a block active with an offset that fits keeps the heap well formed. -/
theorem WellFormed.activate {start delta : BitVec w} {total : Nat} {b : OsdBlock w}
    {rest : List (OsdBlock w)} (h : WellFormed start delta total (b :: rest))
    {offset : BitVec w} (hoffset : offset.toNat < b.size.toNat) :
    WellFormed start delta total ({ b with active := true, field0 := offset } :: rest) :=
  h.setState (fun hidle => Bool.noConfusion hidle) fun _ => hoffset

/-- `size + align - 1` when the sum does not wrap. -/
theorem finalsize_toNat {size alignsize : BitVec w}
    (hwrap : size.toNat + alignsize.toNat < 2 ^ w) :
    (size + alignsize).toNat = size.toNat + alignsize.toNat := by
  rw [BitVec.toNat_add]
  exact Nat.mod_eq_of_lt hwrap

/-- An exact fit keeps the heap well formed. -/
theorem allocateExact_wellFormed {start delta : BitVec w} {total : Nat}
    {blocks blocks' : List (OsdBlock w)} {size alignsize retval : BitVec w}
    (h : WellFormed start delta total blocks) (hsize : 0 < size.toNat)
    (hwrap : size.toNat + alignsize.toNat < 2 ^ w)
    (hexact : allocateExact alignsize (size + alignsize) blocks = some (retval, blocks')) :
    WellFormed start delta total blocks' := by
  induction blocks generalizing start total blocks' with
  | nil => cases hexact
  | cons b rest ih =>
      rw [allocateExact] at hexact
      split_ifs at hexact with hfit
      · cases hexact
        apply h.activate
        have hpad := alignUp_sub_le alignsize b.virtAddr
        rw [hfit.2, finalsize_toNat hwrap]
        omega
      · obtain ⟨⟨ret, kept⟩, hfound, heq⟩ := Option.map_eq_some_iff.mp hexact
        cases heq
        obtain ⟨hbase, hpos, hle, hfits, hok, hrest⟩ := wellFormed_cons.mp h
        exact wellFormed_cons.mpr ⟨hbase, hpos, hle, hfits, hok, ih hrest hfound⟩

/-- Splitting an inactive block keeps the heap well formed. -/
theorem splitAt_wellFormed {start delta : BitVec w} {total : Nat}
    {blocks : List (OsdBlock w)} {finalsize idTracker : BitVec w} {pos : Nat}
    {listp1 : OsdBlock w} (h : WellFormed start delta total blocks)
    (hpos : 0 < finalsize.toNat) (hlistp1 : blocks[pos]? = some listp1)
    (hidle : listp1.active = false) (hlt : finalsize < listp1.size) :
    WellFormed start delta total (splitAt finalsize (osdId idTracker) pos blocks) := by
  induction blocks generalizing start total pos with
  | nil => cases hlistp1
  | cons b rest ih =>
      cases pos with
      | zero =>
          cases hlistp1
          have hok := h.ok listp1 List.mem_cons_self
          constructor
          · exact h.tiles.split rfl hpos hlt rfl rfl
          · exact h.fits
          · intro c hc
            rcases List.mem_cons.mp hc with heq | hc
            · rw [heq]
              constructor
              · exact hok.phys
              · exact hok.tag
              · intro hinactive
                cases hinactive
              · -- the offset of an inactive block is 0, and stays so
                intro _
                change _ < finalsize.toNat
                rw [hok.idle hidle, BitVec.toNat_zero]
                exact hpos
            rcases List.mem_cons.mp hc with heq | hc
            · rw [heq]
              constructor
              · change listp1.physAddr + finalsize - (listp1.virtAddr + finalsize) = delta
                rw [BitVec.sub_eq_iff_eq_add, ← hok.phys, ← BitVec.add_assoc]
                rw [BitVec.sub_add_cancel]
              · exact osdId_tagged idTracker
              · intro _
                rfl
              · intro hactive
                cases hactive
            · exact h.ok c (List.mem_cons_of_mem _ hc)
      | succ pos =>
          obtain ⟨hbase, hbpos, hle, hfits, hok, hrest⟩ := wellFormed_cons.mp h
          exact wellFormed_cons.mpr ⟨hbase, hbpos, hle, hfits, hok, ih hrest hlistp1⟩

/-- A round of the splitting loop keeps the heap well formed, wherever its cursor
is. -/
theorem splitRound_wellFormed {start delta : BitVec w} {total : Nat} {heap heap' : OsdHeap w}
    {finalsize : BitVec w} {kmallocOk : Bool} {pos : Nat}
    (h : WellFormed start delta total heap.blocks) (hpos : 0 < finalsize.toNat)
    (hround : splitRound finalsize kmallocOk pos heap = .again heap') :
    WellFormed start delta total heap'.blocks := by
  rw [splitRound] at hround
  cases hlistp1 : heap.blocks[pos]? with
  | none =>
      rw [hlistp1] at hround
      cases hround
  | some listp1 =>
      simp only [hlistp1] at hround
      split_ifs at hround with hlarge
      · cases hround
        exact splitAt_wellFormed h hpos hlistp1 hlarge.1 hlarge.2
      · cases hround
        exact h

/-! ## Freeing -/

/-- Setting a block inactive keeps the heap well formed. -/
theorem WellFormed.deactivate {start delta : BitVec w} {total : Nat} {b : OsdBlock w}
    {rest : List (OsdBlock w)} (h : WellFormed start delta total (b :: rest)) :
    WellFormed start delta total ({ b with active := false, field0 := 0#w } :: rest) :=
  h.setState (fun _ => rfl) fun hactive => Bool.noConfusion hactive

/-- A free keeps the heap well formed, whatever the address. -/
theorem tl880DeallocateOsdmem_wellFormed {start delta : BitVec w} {total : Nat}
    {blocks : List (OsdBlock w)} (h : WellFormed start delta total blocks)
    (addr : BitVec w) :
    WellFormed start delta total (tl880DeallocateOsdmem addr blocks).2 := by
  induction blocks generalizing start total with
  | nil => exact h
  | cons b rest ih =>
      rw [tl880DeallocateOsdmem]
      split_ifs with htag hmatch
      · exact h.deactivate
      · obtain ⟨hbase, hpos, hle, hfits, hok, hrest⟩ := wellFormed_cons.mp h
        exact wellFormed_cons.mpr ⟨hbase, hpos, hle, hfits, hok, ih hrest⟩
      · exact h

/-- Every heap operation keeps a well-formed heap well formed, with the same start
and the same size. -/
theorem osdHeap_stays_wellFormed (start delta : BitVec 32) (total : Nat)
    (heap : OsdHeap 32) (h : WellFormed start delta total heap.blocks) :
    WellFormed start delta total (tl880CompactOsdmem heap.blocks) ∧
      (∀ size align : BitVec 32, 1 ≤ size.toNat →
        size.toNat + (align - 1#32).toNat < 2 ^ 32 →
        (∀ retval blocks',
          allocateExact (align - 1#32) (size + (align - 1#32))
              (tl880CompactOsdmem heap.blocks) = some (retval, blocks') →
          WellFormed start delta total blocks') ∧
        ∀ kmallocOk pos heap',
          splitRound (size + (align - 1#32)) kmallocOk pos heap = .again heap' →
          WellFormed start delta total heap'.blocks) ∧
      ∀ addr, WellFormed start delta total (tl880DeallocateOsdmem addr heap.blocks).2 := by
  have hcompact := tl880CompactOsdmem_wellFormed h
  constructor
  · exact hcompact
  constructor
  · intro size align hsize hwrap
    constructor
    · intro retval blocks' hexact
      exact allocateExact_wellFormed hcompact hsize hwrap hexact
    · intro kmallocOk pos heap' hround
      apply splitRound_wellFormed h _ hround
      rw [finalsize_toNat hwrap]
      omega
  · intro addr
    exact tl880DeallocateOsdmem_wellFormed h addr

/-- The heap of a card whose memory is mapped at `0xe0000000`. -/
def freshOsdHeap : OsdHeap 32 :=
  (tl880InitOsdmem 0xe0000000#32 0xd0000000#32 true { blocks := [], idTracker := 0#32 }).2

theorem freshOsdHeap_wellFormed :
    WellFormed 0xe0186000#32 0xf0000000#32 0x1000000 freshOsdHeap.blocks :=
  tl880InitOsdmem_wellFormed 0xe0000000#32 0xd0000000#32 0#32 (by decide)

/-- The fresh heap stays well formed when a block for a cursor image is split off,
and when an address is freed that was never allocated. -/
theorem osdHeap_stays_wellFormed_fresh :
    (∃ heap', splitRound (0x200#32 + (0x10#32 - 1#32)) true 0 freshOsdHeap = .again heap' ∧
      WellFormed 0xe0186000#32 0xf0000000#32 0x1000000 heap'.blocks) ∧
    WellFormed 0xe0186000#32 0xf0000000#32 0x1000000
      (tl880DeallocateOsdmem 0xe0186000#32 freshOsdHeap.blocks).2 := by
  have hkept := osdHeap_stays_wellFormed _ _ _ freshOsdHeap freshOsdHeap_wellFormed
  constructor
  · refine ⟨_, rfl, ?_⟩
    exact (hkept.2.1 0x200#32 0x10#32 (by decide) (by decide)).2 true 0 _ rfl
  · exact hkept.2.2 0xe0186000#32

end Tl880
