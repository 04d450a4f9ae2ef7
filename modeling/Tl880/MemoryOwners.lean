import Tl880.CardMemory
import Tl880.OsdStretches

/-!
# The owners of card memory

Three parts of the driver carve the same memory: the pool of `tl880mem.c`, from
`0x100000` on, the OSD heap of `tl880osd.c`, 16 MB from `0x186000` on, and
`tl880fb.c`, which writes to fixed addresses.  None of them asks the others.

The system below interleaves their calls.  An OSD allocation that has entered its
splitting loop stays in it (`OsdCalls`), so the rounds of such calls are steps of
their own.  An `unsigned long` has 32 bits, where the nodes of the OSD heap are records
of their own (`Osd`).

`OwnerStepOk` is a condition on the sizes and positions found in the state before a
step: where a pool request fits, which stretches of the OSD heap are as long as an
allocation, and where the live pool blocks are.  The runs without an overlap are exactly
those whose steps all meet it.
-/

namespace Tl880

open AlignUp LabelledRun

/-- Card memory from `lo` up to `hi`. -/
structure MemRange where
  lo : Nat
  hi : Nat

/-- A block of the pool has no byte in the range. -/
def MemBlock.Clear (b : MemBlock 32) (r : MemRange) : Prop :=
  b.addr.toNat + b.size.toNat ≤ r.lo ∨ r.hi ≤ b.addr.toNat

/-- What `tl880fb.c` writes to: the OSD display list of `tl880fb_init` and
`tl880fb_open`, and the frame at `screen_base`. -/
def fbRanges : List MemRange :=
  [{ lo := 0x2d8000, hi := 0x2d8010 }, { lo := 0x300000, hi := 0x300000 + 1024 * 768 * 4 }]

/-- The card memory of an OSD block. -/
def osdRange (memphys : BitVec 32) (b : OsdBlock 32) : MemRange :=
  { lo := (b.physAddr - memphys).toNat, hi := (b.physAddr - memphys).toNat + b.size.toNat }

/-- The card memory of the allocated OSD blocks. -/
def osdRanges (memphys : BitVec 32) (blocks : List (OsdBlock 32)) : List MemRange :=
  (blocks.filter fun b => b.active).map (osdRange memphys)

/-- The card's memory and all of its owners. -/
structure MemoryOwners where
  memory : CardMemory 32
  osd : OsdHeap 32
  /-- `finalsize` of each OSD allocation that is in its splitting loop -/
  spinning : List (BitVec 32)
  /-- `tl880fb_init` has run -/
  fbLoaded : Bool

inductive OwnerEvent where
  | pool (event : MemEvent 32)
  | osdInit (kmallocOk : Bool)
  /-- an OSD allocation up to and including its first search -/
  | osdAllocate (size align : BitVec 32)
  /-- one round of the splitting loop of an allocation -/
  | osdRound (finalsize : BitVec 32) (kmallocOk : Bool)
  | osdDeallocate (addr : BitVec 32)
  | fbInit

/-- One step of one owner. -/
def ownerStep (memspace memphys : BitVec 32) (s : MemoryOwners) :
    OwnerEvent → Option MemoryOwners
  | .pool event => (memStep s.memory event).map fun memory => { s with memory := memory }
  | .osdInit kmallocOk =>
      some { s with osd := (tl880InitOsdmem memspace memphys kmallocOk s.osd).2 }
  | .osdAllocate size align =>
      let alignsize := align - 1#32
      let blocks := tl880CompactOsdmem s.osd.blocks
      match allocateExact alignsize (size + alignsize) blocks with
      | some (_, blocks') => some { s with osd := { s.osd with blocks := blocks' } }
      | none =>
          some
            { s with
              osd := { s.osd with blocks := blocks }
              spinning := (size + alignsize) :: s.spinning }
  | .osdRound finalsize kmallocOk =>
      if finalsize ∈ s.spinning then
        match splitRound finalsize kmallocOk 0 s.osd with
        | .again osd => some { s with osd := osd }
        | .finished => some { s with spinning := s.spinning.erase finalsize }
        | .outOfMemory => some { s with spinning := s.spinning.erase finalsize }
      else none
  | .osdDeallocate addr =>
      some
        { s with osd := { s.osd with blocks := (tl880DeallocateOsdmem addr s.osd.blocks).2 } }
  | .fbInit => some { s with fbLoaded := true }

/-- After `tl880_init_memory`, with no OSD heap yet. -/
def MemoryOwners.start (memlen : BitVec 32) (createOk addOk : Bool) : MemoryOwners :=
  { memory := CardMemory.start memlen createOk addOk
    osd := { blocks := [], idTracker := 0#32 }
    spinning := []
    fbLoaded := false }

/-- The memory that is not the pool's to give away. -/
def MemoryOwners.foreign (memphys : BitVec 32) (s : MemoryOwners) : List MemRange :=
  osdRanges memphys s.osd.blocks ++ if s.fbLoaded then fbRanges else []

/-- No live pool block overlaps memory of another owner. -/
def NoOverlap (memphys : BitVec 32) (s : MemoryOwners) : Prop :=
  ∀ b ∈ s.memory.live, ∀ r ∈ s.foreign memphys, b.Clear r

/-- The pool would place the request at this unit without touching the range; address 0
is not handed out. -/
def PlaceClear (bytes : BitVec 32) (r : MemRange) (unit : Nat) : Prop :=
  unitAddr 32 unit = 0#32 ∨ MemBlock.Clear { addr := unitAddr 32 unit, size := bytes } r

/-- The card memory of an idle stretch. -/
def stretchRange (memphys : BitVec 32) (head : OsdBlock 32) (run : List (OsdBlock 32)) :
    MemRange :=
  osdRange memphys { head with size := stretchSize head run }

/-- What a step needs for nothing to overlap behind it.

* A pool request: for each range in use of the OSD heap or the frame buffer, a place
  that it fits in and that touches the range has a lower one that does not.
* An OSD allocation: for each live pool block, an idle stretch of exactly `finalsize`
  bytes that touches the block has an earlier one that does not.
* A round of the splitting loop, where the head of the OSD heap is inactive and larger
  than `finalsize`: each live pool block ends below the heap, which is at `0x186000`, or
  starts `finalsize` bytes above that.
* Loading the frame buffer driver: each live pool block ends below the display list at
  `0x2d8000`, or lies between its 16 bytes and the frame, or starts above the frame. -/
def OwnerStepOk (memlen memphys : BitVec 32) (s : MemoryOwners) : OwnerEvent → Prop
  | .pool (.alloc bytes) =>
      ∀ bits, s.memory.pool = some (cardPool memlen bits) → bytes ≠ 0#32 →
        ∀ r ∈ s.foreign memphys, ∀ unit,
          (cardChunk memlen bits).Fits 6 (genPoolNbits 6 bytes) unit →
          ¬ PlaceClear bytes r unit →
          ∃ lower, lower < unit ∧
            (cardChunk memlen bits).Fits 6 (genPoolNbits 6 bytes) lower ∧
            PlaceClear bytes r lower
  | .osdAllocate size align =>
      ∀ m ∈ s.memory.live, ∀ pre head run post,
        IdleStretch s.osd.blocks pre head run post →
        stretchSize head run = size + (align - 1#32) →
        ¬ m.Clear (stretchRange memphys head run) →
        ∃ pre' head' run' post', IdleStretch pre pre' head' run' post' ∧
          stretchSize head' run' = size + (align - 1#32) ∧
          m.Clear (stretchRange memphys head' run')
  | .osdRound finalsize kmallocOk =>
      ∀ head ∈ s.osd.blocks.head?, head.active = false → finalsize < head.size →
        kmallocOk = true →
        ∀ m ∈ s.memory.live, m.addr.toNat + m.size.toNat ≤ 0x186000 ∨
          0x186000 + finalsize.toNat ≤ m.addr.toNat
  | .fbInit =>
      ∀ m ∈ s.memory.live, m.addr.toNat + m.size.toNat ≤ 0x2d8000 ∨
        (0x2d8010 ≤ m.addr.toNat ∧ m.addr.toNat + m.size.toNat ≤ 0x300000) ∨
        0x600000 ≤ m.addr.toNat
  | .pool (.free _ _) => True
  | .osdInit _ => True
  | .osdDeallocate _ => True

/-! ## What each OSD operation does to the blocks in use -/

@[simp] theorem osdRanges_nil (memphys : BitVec 32) : osdRanges memphys [] = [] := rfl

theorem osdRanges_cons_active {memphys : BitVec 32} {b : OsdBlock 32} (rest : List (OsdBlock 32))
    (hb : b.active = true) :
    osdRanges memphys (b :: rest) = osdRange memphys b :: osdRanges memphys rest := by
  simp [osdRanges, hb]

theorem osdRanges_cons_idle {memphys : BitVec 32} {b : OsdBlock 32} (rest : List (OsdBlock 32))
    (hb : b.active = false) : osdRanges memphys (b :: rest) = osdRanges memphys rest := by
  simp [osdRanges, hb]

theorem osdRanges_append (memphys : BitVec 32) (pre post : List (OsdBlock 32)) :
    osdRanges memphys (pre ++ post) = osdRanges memphys pre ++ osdRanges memphys post := by
  simp [osdRanges]

/-- Compaction only touches inactive blocks. -/
theorem osdRanges_compactFrom (memphys : BitVec 32) (b : OsdBlock 32)
    (rest : List (OsdBlock 32)) :
    osdRanges memphys (compactFrom b rest) = osdRanges memphys (b :: rest) := by
  induction rest generalizing b with
  | nil => rfl
  | cons c rest ih =>
      rw [compactFrom]
      split_ifs with hidle
      · simp only [Bool.and_eq_true, Bool.not_eq_true'] at hidle
        have hmerged : osdRanges memphys ({ b with size := b.size + c.size } :: rest) =
            osdRanges memphys rest := osdRanges_cons_idle rest hidle.1
        rw [ih, hmerged, osdRanges_cons_idle (c :: rest) hidle.1]
        rw [osdRanges_cons_idle rest hidle.2]
      · cases hb : b.active with
        | true => rw [osdRanges_cons_active _ hb, osdRanges_cons_active _ hb, ih]
        | false => rw [osdRanges_cons_idle _ hb, osdRanges_cons_idle _ hb, ih]

theorem osdRanges_compact (memphys : BitVec 32) (blocks : List (OsdBlock 32)) :
    osdRanges memphys (tl880CompactOsdmem blocks) = osdRanges memphys blocks := by
  cases blocks with
  | nil => rfl
  | cons b rest => exact osdRanges_compactFrom memphys b rest

/-- A free takes no memory. -/
theorem osdRanges_deallocate_subset (memphys addr : BitVec 32) (blocks : List (OsdBlock 32)) :
    osdRanges memphys (tl880DeallocateOsdmem addr blocks).2 ⊆ osdRanges memphys blocks := by
  induction blocks with
  | nil => exact List.Subset.refl _
  | cons b rest ih =>
      rw [tl880DeallocateOsdmem]
      split_ifs with htag hmatch
      · have hfreed : osdRanges memphys
            ({ b with active := false, field0 := 0#32 } :: rest) = osdRanges memphys rest :=
          osdRanges_cons_idle rest rfl
        rw [hfreed]
        cases hb : b.active with
        | true =>
            rw [osdRanges_cons_active _ hb]
            exact List.subset_cons_self _ _
        | false =>
            rw [osdRanges_cons_idle _ hb]
            exact List.Subset.refl _
      · change osdRanges memphys (b :: (tl880DeallocateOsdmem addr rest).2) ⊆ _
        cases hb : b.active with
        | true =>
            rw [osdRanges_cons_active _ hb, osdRanges_cons_active _ hb]
            exact List.cons_subset_cons _ ih
        | false =>
            rw [osdRanges_cons_idle _ hb, osdRanges_cons_idle _ hb]
            exact ih
      · exact List.Subset.refl _

/-- An exact fit takes the memory of one inactive block. -/
theorem mem_osdRanges_activate {memphys : BitVec 32} {pre : List (OsdBlock 32)}
    {b b' : OsdBlock 32} {post : List (OsdBlock 32)} (hb : b.active = false)
    (hb' : b'.active = true) (hrange : osdRange memphys b' = osdRange memphys b)
    (r : MemRange) :
    r ∈ osdRanges memphys (pre ++ b' :: post) ↔
      r = osdRange memphys b ∨ r ∈ osdRanges memphys (pre ++ b :: post) := by
  rw [osdRanges_append, osdRanges_append, osdRanges_cons_active post hb']
  rw [osdRanges_cons_idle post hb, hrange]
  simp only [List.mem_append, List.mem_cons]
  exact or_left_comm

/-- A round that splits takes the front of an inactive head. -/
theorem mem_osdRanges_splitAt {memphys : BitVec 32} {head : OsdBlock 32}
    (rest : List (OsdBlock 32)) (hhead : head.active = false) (finalsize newId : BitVec 32)
    (r : MemRange) :
    r ∈ osdRanges memphys (splitAt finalsize newId 0 (head :: rest)) ↔
      r = osdRange memphys { head with size := finalsize } ∨
        r ∈ osdRanges memphys (head :: rest) := by
  rw [osdRanges_cons_idle rest hhead, splitAt, osdRanges_cons_active _ rfl]
  rw [osdRanges_cons_idle rest rfl, List.mem_cons]
  exact Iff.rfl

/-! ## The steps -/

/-- The pool is the one `tl880_init_memory` set up, whatever its bitmap. -/
def PoolShape (memlen : BitVec 32) (mem : CardMemory 32) : Prop :=
  mem.pool = none ∨ ∃ bits, mem.pool = some (cardPool memlen bits)

theorem tl880FreeMemory_shape {memlen : BitVec 32} {bits : Nat → Bool} {addr bytes : BitVec 32}
    {pool : Option (GenPool 32)} {overrun : Bool}
    (hfree : tl880FreeMemory (some (cardPool memlen bits)) addr bytes = some (pool, overrun)) :
    ∃ bits', pool = some (cardPool memlen bits') := by
  by_cases hpos : 0 < genPoolNbits 6 bytes
  · exact ⟨_, (tl880FreeMemory_cases hfree hpos).1⟩
  · simp only [tl880FreeMemory, genPoolFree, cardPool, Option.map_eq_some_iff] at hfree
    obtain ⟨result, hresult, heq⟩ := hfree
    rw [genPoolFreeChunks, genPoolFreeChunks, if_neg hpos] at hresult
    split_ifs at hresult
    · cases hresult
      cases heq
      exact ⟨_, rfl⟩
    · cases hresult
      cases heq
      exact ⟨bits, rfl⟩

/-- No call changes the shape of the pool. -/
theorem memStep_shape {memlen : BitVec 32} {mem mem' : CardMemory 32} {event : MemEvent 32}
    (hshape : PoolShape memlen mem) (hstep : memStep mem event = some mem') :
    PoolShape memlen mem' := by
  cases event with
  | alloc bytes =>
      rcases hshape with hpool | ⟨bits, hpool⟩
      · left
        simp only [memStep, hpool, tl880AllocMemory] at hstep
        cases hstep
        rfl
      · right
        rcases tl880AllocMemory_cases memlen bits bytes with ⟨-, heq⟩ | ⟨-, s, -, heq⟩
        · simp only [memStep, hpool, heq] at hstep
          cases hstep
          exact ⟨_, rfl⟩
        · simp only [memStep, hpool, heq] at hstep
          cases hstep
          exact ⟨_, rfl⟩
  | free addr bytes =>
      rw [memStep] at hstep
      split_ifs at hstep
      obtain ⟨⟨pool, overrun⟩, hfree, heq⟩ := Option.map_eq_some_iff.mp hstep
      cases heq
      rcases hshape with hpool | ⟨bits, hpool⟩
      · left
        rw [hpool] at hfree
        cases hfree
        rfl
      · right
        rw [hpool] at hfree
        exact tl880FreeMemory_shape hfree

theorem cardPool_inj {memlen : BitVec 32} {bits bits' : Nat → Bool}
    (h : some (cardPool memlen bits) = some (cardPool memlen bits')) : bits = bits' := by
  simp only [cardPool, cardChunk, Option.some.injEq, GenPool.mk.injEq, List.cons.injEq,
    GenPoolChunk.mk.injEq, and_true, true_and] at h
  exact h

/-- The live blocks after a request: the old ones, and the lowest fit if there is
one and it is not at address 0. -/
theorem mem_live_alloc {memlen : BitVec 32} {mem mem' : CardMemory 32} {bytes : BitVec 32}
    (hshape : PoolShape memlen mem) (hstep : memStep mem (.alloc bytes) = some mem')
    (b : MemBlock 32) :
    b ∈ mem'.live ↔ b ∈ mem.live ∨
      ∃ bits unit, mem.pool = some (cardPool memlen bits) ∧ bytes ≠ 0#32 ∧
        (cardChunk memlen bits).LowestFit 6 (genPoolNbits 6 bytes) unit ∧
        unitAddr 32 unit ≠ 0#32 ∧ b = { addr := unitAddr 32 unit, size := bytes } := by
  rcases hshape with hpool | ⟨bits, hpool⟩
  · simp only [memStep, hpool, tl880AllocMemory, if_true] at hstep
    cases hstep
    simp [hpool]
  have hbits : ∀ bits', mem.pool = some (cardPool memlen bits') → bits = bits' := by
    intro bits' hpool'
    exact cardPool_inj (hpool.symm.trans hpool')
  rcases tl880AllocMemory_cases memlen bits bytes with ⟨hnot, heq⟩ | ⟨hbytes, unit, hlow, heq⟩
  · simp only [memStep, hpool, heq, if_true] at hstep
    cases hstep
    constructor
    · exact Or.inl
    · intro h
      rcases h with h | ⟨bits', unit, hpool', hbytes, hlow, -⟩
      · exact h
      · cases hbits bits' hpool'
        rcases hnot with hzero | hnone
        · exact absurd hzero hbytes
        · exact absurd hlow.1 (hnone unit)
  · simp only [memStep, hpool, heq] at hstep
    cases hstep
    constructor
    · intro h
      by_cases hzero : unitAddr 32 unit = 0#32
      · simp only [if_pos hzero] at h
        exact Or.inl h
      · simp only [if_neg hzero, List.mem_cons] at h
        rcases h with h | h
        · exact Or.inr ⟨bits, unit, hpool, hbytes, hlow, hzero, h⟩
        · exact Or.inl h
    · intro h
      rcases h with h | ⟨bits', unit', hpool', -, hlow', hne, hb⟩
      · by_cases hzero : unitAddr 32 unit = 0#32
        · simp only [if_pos hzero]
          exact h
        · simp only [if_neg hzero]
          exact List.mem_cons_of_mem _ h
      · cases hbits bits' hpool'
        cases FirstFit.LowestFit.unique hlow hlow'
        simp only [if_neg hne, hb]
        exact List.mem_cons_self

/-- A free only shortens the list of live blocks. -/
theorem live_free_subset {mem mem' : CardMemory 32} {addr bytes : BitVec 32}
    (hstep : memStep mem (.free addr bytes) = some mem') : mem'.live ⊆ mem.live := by
  rw [memStep] at hstep
  split_ifs at hstep
  obtain ⟨⟨pool, overrun⟩, -, heq⟩ := Option.map_eq_some_iff.mp hstep
  cases heq
  exact List.erase_subset

theorem mem_foreign_iff {memphys : BitVec 32} {s : MemoryOwners} {r : MemRange} :
    r ∈ s.foreign memphys ↔
      r ∈ osdRanges memphys s.osd.blocks ∨ (s.fbLoaded = true ∧ r ∈ fbRanges) := by
  unfold MemoryOwners.foreign
  cases s.fbLoaded <;> simp

/-- Giving memory back causes no overlap. -/
theorem NoOverlap.release {memphys : BitVec 32} {s s' : MemoryOwners}
    (h : NoOverlap memphys s) (hlive : s'.memory.live ⊆ s.memory.live)
    (hforeign : s'.foreign memphys ⊆ s.foreign memphys) : NoOverlap memphys s' := by
  intro b hb r hr
  exact h b (hlive hb) r (hforeign hr)

/-- When another owner takes memory, there is no overlap exactly when there was
none and the live pool blocks are clear of it. -/
theorem noOverlap_take_iff {memphys : BitVec 32} {s s' : MemoryOwners}
    {taken : List MemRange} (hlive : s'.memory.live = s.memory.live)
    (hforeign : ∀ r, r ∈ s'.foreign memphys ↔ r ∈ taken ∨ r ∈ s.foreign memphys) :
    NoOverlap memphys s' ↔
      NoOverlap memphys s ∧ ∀ m ∈ s.memory.live, ∀ r ∈ taken, m.Clear r := by
  unfold NoOverlap
  rw [hlive]
  constructor
  · intro h
    constructor
    · intro b hb r hr
      exact h b hb r ((hforeign r).mpr (Or.inr hr))
    · intro m hm r hr
      exact h m hm r ((hforeign r).mpr (Or.inl hr))
  · intro h b hb r hr
    rcases (hforeign r).mp hr with hr | hr
    · exact h.2 b hb r hr
    · exact h.1 b hb r hr

/-- The same for an OSD operation that takes one range. -/
theorem noOverlap_osd_iff {memphys : BitVec 32} {s s' : MemoryOwners} {taken : MemRange}
    (hmemory : s'.memory = s.memory) (hfb : s'.fbLoaded = s.fbLoaded)
    (hranges : ∀ r, r ∈ osdRanges memphys s'.osd.blocks ↔
      r = taken ∨ r ∈ osdRanges memphys s.osd.blocks) :
    NoOverlap memphys s' ↔
      NoOverlap memphys s ∧ ∀ m ∈ s.memory.live, m.Clear taken := by
  have htake : NoOverlap memphys s' ↔
      NoOverlap memphys s ∧ ∀ m ∈ s.memory.live, ∀ r ∈ [taken], m.Clear r := by
    apply noOverlap_take_iff
    · rw [hmemory]
    · intro r
      rw [mem_foreign_iff, mem_foreign_iff, hranges, hfb, List.mem_singleton, or_assoc]
  simpa only [List.forall_mem_singleton] using htake

/-- A pool request.  What it takes is the lowest fit. -/
theorem ownerStep_alloc_iff {memspace memphys memlen : BitVec 32} {s s' : MemoryOwners}
    {bytes : BitVec 32} (hshape : PoolShape memlen s.memory)
    (hstep : ownerStep memspace memphys s (.pool (.alloc bytes)) = some s') :
    NoOverlap memphys s' ↔
      NoOverlap memphys s ∧ OwnerStepOk memlen memphys s (.pool (.alloc bytes)) := by
  rw [ownerStep] at hstep
  obtain ⟨memory, hmem, heq⟩ := Option.map_eq_some_iff.mp hstep
  cases heq
  have hlive := mem_live_alloc hshape hmem
  constructor
  · intro h
    constructor
    · intro b hb r hr
      exact h b ((hlive b).mpr (Or.inl hb)) r hr
    · intro bits hpool hbytes r hr
      apply FirstFit.forall_lowestFit_iff.mp
      intro unit hlow
      by_cases hne : unitAddr 32 unit = 0#32
      · exact Or.inl hne
      · right
        exact h _ ((hlive _).mpr (Or.inr ⟨bits, unit, hpool, hbytes, hlow, hne, rfl⟩)) r hr
  · intro h b hb r hr
    rcases (hlive b).mp hb with hb | ⟨bits, unit, hpool, hbytes, hlow, hne, heq⟩
    · exact h.1 b hb r hr
    · have hplace := FirstFit.forall_lowestFit_iff.mpr (h.2 bits hpool hbytes r hr) unit hlow
      rw [heq]
      exact hplace.resolve_left hne

/-- An OSD allocation with a first exact fit. -/
theorem ownerStep_exact_iff {memspace memphys : BitVec 32} {s s' : MemoryOwners}
    {size align : BitVec 32} {pre : List (OsdBlock 32)} {b : OsdBlock 32}
    {post : List (OsdBlock 32)} (hcompact : tl880CompactOsdmem s.osd.blocks = pre ++ b :: post)
    (hpre : ∀ c ∈ pre, ¬ c.Exact (size + (align - 1#32)))
    (hb : b.Exact (size + (align - 1#32)))
    (hstep : ownerStep memspace memphys s (.osdAllocate size align) = some s') :
    NoOverlap memphys s' ↔
      NoOverlap memphys s ∧ ∀ m ∈ s.memory.live, m.Clear (osdRange memphys b) := by
  simp only [ownerStep, hcompact, allocateExact_eq_some hpre hb] at hstep
  cases hstep
  apply noOverlap_osd_iff
  · rfl
  · rfl
  · intro r
    rw [← osdRanges_compact memphys s.osd.blocks, hcompact]
    apply mem_osdRanges_activate hb.1
    · rfl
    · rfl

/-- An OSD allocation without an exact fit takes nothing before its splitting
loop. -/
theorem ownerStep_noExact {memspace memphys : BitVec 32} {s s' : MemoryOwners}
    {size align : BitVec 32}
    (hnone : ∀ b ∈ tl880CompactOsdmem s.osd.blocks, ¬ b.Exact (size + (align - 1#32)))
    (hstep : ownerStep memspace memphys s (.osdAllocate size align) = some s')
    (h : NoOverlap memphys s) : NoOverlap memphys s' := by
  simp only [ownerStep, allocateExact_eq_none hnone] at hstep
  cases hstep
  apply h.release
  · exact List.Subset.refl _
  · intro r hr
    rw [mem_foreign_iff] at hr ⊢
    rw [osdRanges_compact] at hr
    exact hr

/-- An OSD allocation.  What it takes is the first stretch of exactly `finalsize`
bytes. -/
theorem ownerStep_allocate_iff {memspace memphys memlen : BitVec 32} {s s' : MemoryOwners}
    {size align : BitVec 32} (hno : NoOverlap memphys s)
    (hstep : ownerStep memspace memphys s (.osdAllocate size align) = some s') :
    NoOverlap memphys s' ↔ OwnerStepOk memlen memphys s (.osdAllocate size align) := by
  constructor
  · intro h m hm pre head run post hstretch hsize htouch
    have hcompact := hstretch.compact
    have hexact : OsdBlock.Exact (size + (align - 1#32))
        { head with size := stretchSize head run } :=
      ⟨hstretch.idle head List.mem_cons_self, hsize⟩
    rcases exact_split (size + (align - 1#32)) (tl880CompactOsdmem pre) with
      hnone | ⟨before, b, behind, heq, hbefore, hb⟩
    · exact absurd (((ownerStep_exact_iff hcompact hnone hexact hstep).mp h).2 m hm) htouch
    · rw [heq, List.append_assoc, List.cons_append] at hcompact
      have hclear := ((ownerStep_exact_iff hcompact hbefore hb hstep).mp h).2 m hm
      obtain ⟨pre', head', run', post', hstretch', -, rfl⟩ := idleStretch_of_compact heq hb.1
      exact ⟨pre', head', run', post', hstretch', hb.2, hclear⟩
  · intro hok
    rcases exact_split (size + (align - 1#32)) (tl880CompactOsdmem s.osd.blocks) with
      hnone | ⟨before, b, behind, hcompact, hbefore, hb⟩
    · exact ownerStep_noExact hnone hstep hno
    · refine (ownerStep_exact_iff hcompact hbefore hb hstep).mpr ⟨hno, fun m hm => ?_⟩
      obtain ⟨pre, head, run, post, hstretch, rfl, rfl⟩ := idleStretch_of_compact hcompact hb.1
      by_contra htouch
      -- an earlier stretch would have been the first exact fit
      obtain ⟨pre', head', run', post', hstretch', hsize', -⟩ :=
        hok m hm pre head run post hstretch hb.2 htouch
      have hearlier := hstretch'.compact
      refine hbefore { head' with size := stretchSize head' run' } ?_
        ⟨hstretch'.idle head' List.mem_cons_self, hsize'⟩
      rw [hearlier]
      exact List.mem_append_right _ List.mem_cons_self

/-- The heap's first block is where `tl880_init_osdmem` put it. -/
def HeadPlaced (memphys : BitVec 32) (blocks : List (OsdBlock 32)) : Prop :=
  ∀ phys ∈ blocks.head?.map OsdBlock.physAddr, phys - memphys = 0x186000#32

/-- Being clear of the front of the heap. -/
theorem HeadPlaced.clear_iff {memphys : BitVec 32} {blocks : List (OsdBlock 32)}
    (h : HeadPlaced memphys blocks) {head : OsdBlock 32} (hhead : head ∈ blocks.head?)
    (finalsize : BitVec 32) (m : MemBlock 32) :
    m.Clear (osdRange memphys { head with size := finalsize }) ↔
      m.addr.toNat + m.size.toNat ≤ 0x186000 ∨ 0x186000 + finalsize.toNat ≤ m.addr.toNat := by
  have hphys : head.physAddr - memphys = 0x186000#32 :=
    h head.physAddr (Option.mem_map_of_mem _ hhead)
  simp only [MemBlock.Clear, osdRange, hphys]
  exact Iff.rfl

/-- A round of the splitting loop. -/
theorem ownerStep_round_iff {memspace memphys memlen : BitVec 32} {s s' : MemoryOwners}
    {finalsize : BitVec 32} {kmallocOk : Bool} (hplaced : HeadPlaced memphys s.osd.blocks)
    (hstep : ownerStep memspace memphys s (.osdRound finalsize kmallocOk) = some s') :
    NoOverlap memphys s' ↔
      NoOverlap memphys s ∧ OwnerStepOk memlen memphys s (.osdRound finalsize kmallocOk) := by
  rw [ownerStep] at hstep
  split_ifs at hstep with hspin
  cases hblocks : s.osd.blocks with
  | nil =>
      simp only [splitRound, hblocks, List.getElem?_nil] at hstep
      cases hstep
      constructor
      · intro h
        refine ⟨h, ?_⟩
        intro head hhead
        rw [hblocks] at hhead
        cases hhead
      · intro h
        exact h.1
  | cons head rest =>
      have hhead : head ∈ s.osd.blocks.head? := by simp [hblocks]
      simp only [splitRound, hblocks, List.getElem?_cons_zero] at hstep
      by_cases hsplit : (head.active = false ∧ finalsize < head.size) ∧ kmallocOk = true
      · obtain ⟨hlarge, hkmalloc⟩ := hsplit
        simp only [if_pos hlarge, hkmalloc, Bool.true_eq_false, if_false] at hstep
        have hrange : NoOverlap memphys s' ↔ NoOverlap memphys s ∧
            ∀ m ∈ s.memory.live, m.Clear (osdRange memphys { head with size := finalsize }) := by
          cases hstep
          apply noOverlap_osd_iff
          · rfl
          · rfl
          · intro r
            rw [hblocks]
            exact mem_osdRanges_splitAt rest hlarge.1 finalsize _ r
        simp only [hplaced.clear_iff hhead] at hrange
        rw [hrange]
        apply and_congr_right
        intro _
        constructor
        · intro h head' hhead' _ _ _
          cases Option.mem_unique hhead hhead'
          exact h
        · intro h
          exact h head hhead hlarge.1 hlarge.2 hkmalloc
      · -- the round does not split: the memory in use stays as it is
        have hsame : NoOverlap memphys s' ↔ NoOverlap memphys s := by
          split_ifs at hstep with hlarge hkmalloc
          · cases hstep
            exact Iff.rfl
          · rw [Bool.not_eq_false] at hkmalloc
            exact absurd ⟨hlarge, hkmalloc⟩ hsplit
          · cases hstep
            exact Iff.rfl
        rw [hsame]
        constructor
        · intro h
          refine ⟨h, ?_⟩
          intro head' hhead' hidle hlt hkmalloc
          cases Option.mem_unique hhead hhead'
          exact absurd ⟨⟨hidle, hlt⟩, hkmalloc⟩ hsplit
        · exact And.left

/-- Being clear of what the frame buffer driver writes to. -/
theorem clear_fbRanges_iff (m : MemBlock 32) :
    (∀ r ∈ fbRanges, m.Clear r) ↔
      m.addr.toNat + m.size.toNat ≤ 0x2d8000 ∨
        (0x2d8010 ≤ m.addr.toNat ∧ m.addr.toNat + m.size.toNat ≤ 0x300000) ∨
        0x600000 ≤ m.addr.toNat := by
  simp only [fbRanges, List.forall_mem_cons, List.not_mem_nil, false_implies, implies_true,
    and_true, MemBlock.Clear]
  omega

/-- Loading the frame buffer driver. -/
theorem ownerStep_fb_iff {memspace memphys memlen : BitVec 32} {s s' : MemoryOwners}
    (hstep : ownerStep memspace memphys s .fbInit = some s') :
    NoOverlap memphys s' ↔ NoOverlap memphys s ∧ OwnerStepOk memlen memphys s .fbInit := by
  have htake : NoOverlap memphys s' ↔
      NoOverlap memphys s ∧ ∀ m ∈ s.memory.live, ∀ r ∈ fbRanges, m.Clear r := by
    cases hstep
    apply noOverlap_take_iff
    · rfl
    · intro r
      rw [mem_foreign_iff, mem_foreign_iff]
      cases hfb : s.fbLoaded <;> simp [or_comm]
  rw [htake, OwnerStepOk]
  simp only [clear_fbRanges_iff]

/-! ## Whole runs -/

/-- What the runs keep: nothing overlaps, the pool has its one chunk, and the OSD heap
begins where it was set up. -/
structure OwnersInv (memlen memphys : BitVec 32) (s : MemoryOwners) : Prop where
  noOverlap : NoOverlap memphys s
  shape : PoolShape memlen s.memory
  placed : HeadPlaced memphys s.osd.blocks

/-- The first block stays where it is in a compaction, ... -/
theorem compactFrom_head_phys (b : OsdBlock 32) (rest : List (OsdBlock 32)) :
    (compactFrom b rest).head?.map OsdBlock.physAddr = some b.physAddr := by
  induction rest generalizing b with
  | nil => rfl
  | cons c rest ih =>
      rw [compactFrom]
      split_ifs
      · exact ih _
      · rfl

theorem tl880CompactOsdmem_head_phys (blocks : List (OsdBlock 32)) :
    (tl880CompactOsdmem blocks).head?.map OsdBlock.physAddr =
      blocks.head?.map OsdBlock.physAddr := by
  cases blocks with
  | nil => rfl
  | cons b rest => exact compactFrom_head_phys b rest

/-- ... an exact fit, ... -/
theorem allocateExact_head_phys {alignsize finalsize retval : BitVec 32}
    {blocks blocks' : List (OsdBlock 32)}
    (hexact : allocateExact alignsize finalsize blocks = some (retval, blocks')) :
    blocks'.head?.map OsdBlock.physAddr = blocks.head?.map OsdBlock.physAddr := by
  cases blocks with
  | nil => cases hexact
  | cons b rest =>
      rw [allocateExact] at hexact
      split_ifs at hexact with hfit
      · cases hexact
        rfl
      · obtain ⟨⟨ret, kept⟩, -, heq⟩ := Option.map_eq_some_iff.mp hexact
        cases heq
        rfl

/-- ... a round of the splitting loop ... -/
theorem splitRound_head_phys {finalsize : BitVec 32} {kmallocOk : Bool}
    {heap heap' : OsdHeap 32} (hround : splitRound finalsize kmallocOk 0 heap = .again heap') :
    heap'.blocks.head?.map OsdBlock.physAddr = heap.blocks.head?.map OsdBlock.physAddr := by
  unfold splitRound at hround
  cases hblocks : heap.blocks with
  | nil =>
      rw [hblocks] at hround
      cases hround
  | cons b rest =>
      simp only [hblocks, List.getElem?_cons_zero] at hround
      split_ifs at hround
      · cases hround
        rfl
      · cases hround
        rw [hblocks]

/-- ... and a free. -/
theorem tl880DeallocateOsdmem_head_phys (addr : BitVec 32) (blocks : List (OsdBlock 32)) :
    (tl880DeallocateOsdmem addr blocks).2.head?.map OsdBlock.physAddr =
      blocks.head?.map OsdBlock.physAddr := by
  cases blocks with
  | nil => rfl
  | cons b rest =>
      rw [tl880DeallocateOsdmem]
      split_ifs <;> rfl

/-- A step leaves the heap where it is, or sets it up. -/
theorem ownerStep_placed {memspace memphys : BitVec 32} {s s' : MemoryOwners}
    {event : OwnerEvent} (h : HeadPlaced memphys s.osd.blocks)
    (hstep : ownerStep memspace memphys s event = some s') :
    HeadPlaced memphys s'.osd.blocks := by
  unfold HeadPlaced at h ⊢
  cases event with
  | pool event =>
      rw [ownerStep] at hstep
      obtain ⟨memory, -, heq⟩ := Option.map_eq_some_iff.mp hstep
      cases heq
      exact h
  | osdInit kmallocOk =>
      cases hstep
      simp only [tl880InitOsdmem]
      split_ifs
      · exact h
      · exact h
      · intro phys hphys
        have hset : memphys + 0x186000#32 = phys := Option.some.inj hphys
        rw [← hset, BitVec.sub_eq_iff_eq_add, BitVec.add_comm]
  | osdAllocate size align =>
      rw [ownerStep] at hstep
      split at hstep
      · rename_i retval blocks' hexact
        cases hstep
        rw [allocateExact_head_phys hexact, tl880CompactOsdmem_head_phys]
        exact h
      · cases hstep
        rw [tl880CompactOsdmem_head_phys]
        exact h
  | osdRound finalsize kmallocOk =>
      rw [ownerStep] at hstep
      split_ifs at hstep
      split at hstep
      · rename_i osd hround
        cases hstep
        rw [splitRound_head_phys hround]
        exact h
      · cases hstep
        exact h
      · cases hstep
        exact h
  | osdDeallocate addr =>
      cases hstep
      rw [tl880DeallocateOsdmem_head_phys]
      exact h
  | fbInit =>
      cases hstep
      exact h

/-- A step keeps the shape of the pool. -/
theorem ownerStep_shape {memspace memphys memlen : BitVec 32} {s s' : MemoryOwners}
    {event : OwnerEvent} (hshape : PoolShape memlen s.memory)
    (hstep : ownerStep memspace memphys s event = some s') : PoolShape memlen s'.memory := by
  cases event with
  | pool event =>
      rw [ownerStep] at hstep
      obtain ⟨memory, hmem, heq⟩ := Option.map_eq_some_iff.mp hstep
      cases heq
      exact memStep_shape hshape hmem
  | osdInit kmallocOk =>
      cases hstep
      exact hshape
  | osdAllocate size align =>
      rw [ownerStep] at hstep
      split at hstep <;> cases hstep <;> exact hshape
  | osdRound finalsize kmallocOk =>
      rw [ownerStep] at hstep
      split_ifs at hstep
      split at hstep <;> cases hstep <;> exact hshape
  | osdDeallocate addr =>
      cases hstep
      exact hshape
  | fbInit =>
      cases hstep
      exact hshape

/-- Setting up the OSD heap takes nothing into use. -/
theorem ownerStep_init_noOverlap {memspace memphys : BitVec 32} {s s' : MemoryOwners}
    {kmallocOk : Bool} (hstep : ownerStep memspace memphys s (.osdInit kmallocOk) = some s')
    (h : NoOverlap memphys s) : NoOverlap memphys s' := by
  cases hstep
  apply h.release
  · exact List.Subset.refl _
  · intro r hr
    rw [mem_foreign_iff] at hr ⊢
    rcases hr with hr | hr
    · left
      unfold tl880InitOsdmem at hr
      split_ifs at hr
      · exact hr
      · exact hr
      · cases hr
    · exact Or.inr hr

/-- A step ends without an overlap exactly when it is allowed. -/
theorem ownerStep_noOverlap_iff {memspace memphys memlen : BitVec 32} {s s' : MemoryOwners}
    {event : OwnerEvent} (hinv : OwnersInv memlen memphys s)
    (hstep : ownerStep memspace memphys s event = some s') :
    NoOverlap memphys s' ↔ OwnerStepOk memlen memphys s event := by
  obtain ⟨hno, hshape, hplaced⟩ := hinv
  cases event with
  | pool event =>
      cases event with
      | alloc bytes =>
          rw [ownerStep_alloc_iff hshape hstep]
          exact and_iff_right hno
      | free addr bytes =>
          apply iff_of_true _ trivial
          rw [ownerStep] at hstep
          obtain ⟨memory, hmem, heq⟩ := Option.map_eq_some_iff.mp hstep
          cases heq
          exact hno.release (live_free_subset hmem) (List.Subset.refl _)
  | osdInit kmallocOk => exact iff_of_true (ownerStep_init_noOverlap hstep hno) trivial
  | osdAllocate size align => exact ownerStep_allocate_iff hno hstep
  | osdRound finalsize kmallocOk =>
      rw [ownerStep_round_iff hplaced hstep]
      exact and_iff_right hno
  | osdDeallocate addr =>
      apply iff_of_true _ trivial
      cases hstep
      apply hno.release
      · exact List.Subset.refl _
      · intro r hr
        rw [mem_foreign_iff] at hr ⊢
        rcases hr with hr | hr
        · exact Or.inl (osdRanges_deallocate_subset memphys addr _ hr)
        · exact Or.inr hr
  | fbInit =>
      rw [ownerStep_fb_iff hstep]
      exact and_iff_right hno

theorem MemoryOwners.start_inv (memlen memphys : BitVec 32) (createOk addOk : Bool) :
    OwnersInv memlen memphys (MemoryOwners.start memlen createOk addOk) := by
  refine ⟨?_, ?_, ?_⟩
  · intro b hb
    cases hb
  · rcases CardMemory.tl880InitMemory_eq memlen createOk addOk with hnone | hsome
    · exact Or.inl hnone
    · exact Or.inr ⟨_, hsome⟩
  · intro phys hphys
    cases hphys

/-- No live pool block ever overlaps an OSD block in use or the frame buffer
exactly when every step finds sizes and positions that keep them apart. -/
theorem memoryOwners_noOverlap_iff (memlen memspace memphys : BitVec 32)
    (createOk addOk : Bool) (events : List (OwnerEvent)) :
    AllStates (ownerStep memspace memphys) (NoOverlap memphys)
        (MemoryOwners.start memlen createOk addOk) events ↔
      AllSteps (ownerStep memspace memphys) (OwnerStepOk memlen memphys)
        (MemoryOwners.start memlen createOk addOk) events := by
  have hpres : ∀ s event s', OwnersInv memlen memphys s →
      OwnerStepOk memlen memphys s event →
      ownerStep memspace memphys s event = some s' → OwnersInv memlen memphys s' := by
    intro s event s' hinv hok hstep
    exact ⟨(ownerStep_noOverlap_iff hinv hstep).mpr hok, ownerStep_shape hinv.shape hstep,
      ownerStep_placed hinv.placed hstep⟩
  apply allStates_iff_allSteps hpres
  · intro s hinv
    exact hinv.noOverlap
  · intro s event s' hinv hstep hno
    exact (ownerStep_noOverlap_iff hinv hstep).mp hno
  · exact MemoryOwners.start_inv memlen memphys createOk addOk

/-- With the frame buffer driver loaded, a request for 2 MB gets the display
list. -/
theorem memoryOwners_overlap :
    ¬ AllStates (ownerStep 0xe0000000#32 0xd0000000#32) (NoOverlap 0xd0000000#32)
        (MemoryOwners.start 0x1000000#32 true true) [.fbInit, .pool (.alloc 0x200000#32)] := by
  intro hstates
  have hloaded := hstates.2 _ rfl
  obtain ⟨memory, hmem⟩ :=
    memStep_alloc_enabled (CardMemory.start 0x1000000#32 true true) 0x200000#32
  have hstep : ownerStep 0xe0000000#32 0xd0000000#32
      { MemoryOwners.start 0x1000000#32 true true with fbLoaded := true }
      (.pool (.alloc 0x200000#32)) =
        some { MemoryOwners.start 0x1000000#32 true true with
          fbLoaded := true, memory := memory } := by
    rw [ownerStep]
    exact congrArg (Option.map _) hmem
  have hno := (hloaded.2 _ hstep).head
  have hok := ((ownerStep_alloc_iff
    (s := { MemoryOwners.start 0x1000000#32 true true with fbLoaded := true })
    (MemoryOwners.start_inv 0x1000000#32 0xd0000000#32 true true).shape hstep).mp hno).2
  have hfits : (cardChunk 0x1000000#32 fun _ => false).Fits 6
      (genPoolNbits 6 0x200000#32) 0 := freshChunk_fits (by decide +kernel)
  obtain ⟨lower, hlt, -⟩ := hok (fun _ => false) rfl (by decide) { lo := 0x2d8000, hi := 0x2d8010 }
    (by
      rw [mem_foreign_iff]
      exact Or.inr ⟨rfl, List.mem_cons_self⟩) 0 hfits (by
      unfold PlaceClear MemBlock.Clear
      decide)
  exact absurd hlt (Nat.not_lt_zero lower)

end Tl880
