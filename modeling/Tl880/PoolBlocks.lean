import Tl880.Lib.AlignUp
import Tl880.GenPool
import Mathlib.Data.List.Nodup
import Mathlib.Data.List.Pairwise

/-!
# The pool of card memory

The model of `tl880_init_memory`, `tl880_alloc_memory` and `tl880_free_memory`
in `driver/tl880mem.c`.  The pool has one chunk, which starts at `0x100000` but is
`memlen - 0x11000` bytes long: the base was moved without changing the size, so
the chunk ends `0xef000` bytes behind the end of the card's memory.

`PoolHolds` ties the bitmap to a list of blocks: a unit is in use if and only if
it belongs to one of them, and no unit belongs to two.  An allocation adds its
block to the list (`PoolHolds.alloc`), and a free takes its block off the list
(`PoolHolds.free`).
-/

namespace Tl880

open AlignUp

variable {w : Nat}

/-- `tl880_init_memory`: whether the pool and the chunk can be allocated is up
to the kernel. -/
def CardMemory.tl880InitMemory (memlen : BitVec w) (createOk addOk : Bool) :
    Option (GenPool w) :=
  if createOk = false then none
  else if addOk = false then none
  else some (genPoolAdd (genPoolCreate w 6) 0x100000#w (memlen - 0x11000#w))

/-- `tl880_alloc_memory` -/
def tl880AllocMemory (pool : Option (GenPool w)) (bytes : BitVec w) :
    BitVec w × Option (GenPool w) × Bool :=
  match pool with
  | none => (0#w, none, false)
  | some p =>
      let result := genPoolAlloc p bytes
      (result.addr, some { p with chunks := result.chunks }, result.overrun)

/-- `tl880_free_memory`; `none` is a `BUG_ON` of the pool. -/
def tl880FreeMemory (pool : Option (GenPool w)) (addr bytes : BitVec w) :
    Option (Option (GenPool w) × Bool) :=
  match pool with
  | none => some (none, false)
  | some p =>
      (genPoolFree p addr bytes).map fun result =>
        (some { p with chunks := result.chunks }, result.overrun)

/-- A block of card memory: the address a caller was given for `size` bytes. -/
structure MemBlock (w : Nat) where
  addr : BitVec w
  size : BitVec w
deriving DecidableEq

/-! ## The card's pool -/

/-- The one chunk of the card's pool. -/
def cardChunk (memlen : BitVec w) (bits : Nat → Bool) : GenPoolChunk w :=
  { startAddr := 0x100000#w, endAddr := 0x100000#w + (memlen - 0x11000#w), bits := bits }

/-- The card's pool. -/
def cardPool (memlen : BitVec w) (bits : Nat → Bool) : GenPool w :=
  { minAllocOrder := 6, chunks := [cardChunk memlen bits] }

/-- The address of a unit of the card's pool. -/
def unitAddr (w s : Nat) : BitVec w := 0x100000#w + (BitVec.ofNat w s <<< 6)

theorem CardMemory.tl880InitMemory_eq (memlen : BitVec w) (createOk addOk : Bool) :
    CardMemory.tl880InitMemory memlen createOk addOk = none ∨
      CardMemory.tl880InitMemory memlen createOk addOk = some (cardPool memlen fun _ => false) := by
  unfold CardMemory.tl880InitMemory
  split_ifs
  · exact Or.inl rfl
  · exact Or.inl rfl
  · exact Or.inr rfl

/-- An allocation either leaves everything as it is and returns 0, or takes the
lowest place that fits. -/
theorem tl880AllocMemory_cases (memlen : BitVec w) (bits : Nat → Bool) (bytes : BitVec w) :
    ((bytes = 0#w ∨ ∀ s, ¬ (cardChunk memlen bits).Fits 6 (genPoolNbits 6 bytes) s) ∧
      tl880AllocMemory (some (cardPool memlen bits)) bytes =
        (0#w, some (cardPool memlen bits), false)) ∨
    (bytes ≠ 0#w ∧
      ∃ s, (cardChunk memlen bits).LowestFit 6 (genPoolNbits 6 bytes) s ∧
        tl880AllocMemory (some (cardPool memlen bits)) bytes =
          (unitAddr w s,
            some (cardPool memlen
              (FirstFit.mark bits true s (countdown (genPoolNbits 6 bytes)))),
            decide ((cardChunk memlen bits).unitCount 6 <
              s + countdown (genPoolNbits 6 bytes)))) := by
  by_cases hzero : bytes = 0#w
  · left
    constructor
    · exact Or.inl hzero
    · simp only [tl880AllocMemory, genPoolAlloc, if_pos hzero]
  simp only [tl880AllocMemory, genPoolAlloc, if_neg hzero, cardPool]
  rcases genPoolAllocChunks_cases 6 (genPoolNbits 6 bytes) (cardChunk memlen bits) [] with
    ⟨s, hlowest, heq⟩ | ⟨hnone, heq⟩
  · right
    constructor
    · exact hzero
    · refine ⟨s, hlowest, ?_⟩
      rw [heq]
      rfl
  · left
    constructor
    · exact Or.inr hnone
    · rw [heq]
      rfl

/-- A free of the card's pool clears the block's bits. -/
theorem tl880FreeMemory_cases {memlen : BitVec w} {bits : Nat → Bool}
    {addr bytes : BitVec w} {pool : Option (GenPool w)} {overrun : Bool}
    (hfree : tl880FreeMemory (some (cardPool memlen bits)) addr bytes =
      some (pool, overrun))
    (hbytes : 0 < genPoolNbits 6 bytes) :
    let bit := cInt ((addr - 0x100000#w) >>> 6).toNat
    let count := countdown (genPoolNbits 6 bytes)
    pool = some (cardPool memlen (FirstFit.mark bits false bit.toNat count)) ∧
      overrun = decide (bit < 0 ∨ (cardChunk memlen bits).unitCount 6 < bit + count) := by
  intro bit count
  simp only [tl880FreeMemory, genPoolFree, cardPool, Option.map_eq_some_iff] at hfree
  obtain ⟨result, hresult, heq⟩ := hfree
  rw [genPoolFreeChunks] at hresult
  split_ifs at hresult with hin hbug
  · -- the block is in the chunk
    cases hresult
    cases heq
    exact ⟨rfl, rfl⟩
  · -- no chunk has the address: the second `BUG_ON`
    rw [genPoolFreeChunks, if_pos hbytes] at hresult
    cases hresult

/-! ## Blocks -/

/-- Two blocks have no byte in common. -/
def MemBlock.Disjoint (b c : MemBlock w) : Prop :=
  b.addr.toNat + b.size.toNat ≤ c.addr.toNat ∨ c.addr.toNat + c.size.toNat ≤ b.addr.toNat

/-- The number of 64-byte units that `bytes` bytes take. -/
def unitsFor (bytes : BitVec w) : Nat := (bytes.toNat + 63) / 64

/-- The number of units of the card's chunk. -/
def cardUnits (memlen : BitVec w) : Int :=
  cInt ((0x100000#w + (memlen - 0x11000#w) - 0x100000#w) >>> 6).toNat

@[simp] theorem cardChunk_unitCount (memlen : BitVec w) (bits : Nat → Bool) :
    (cardChunk memlen bits).unitCount 6 = cardUnits memlen := rfl

/-- The unit of the card's chunk at which a block starts. -/
def MemBlock.unit (b : MemBlock w) : Nat := (b.addr.toNat - 0x100000) / 64

/-- The block takes unit `i`. -/
def MemBlock.Covers (b : MemBlock w) (i : Nat) : Prop :=
  b.unit ≤ i ∧ i < b.unit + unitsFor b.size

/-- Two blocks have no unit in common. -/
def MemBlock.Apart (b c : MemBlock w) : Prop :=
  b.unit + unitsFor b.size ≤ c.unit ∨ c.unit + unitsFor c.size ≤ b.unit

/-- The block lies on whole units inside the bitmap. -/
structure MemBlock.Marked (memlen : BitVec w) (b : MemBlock w) : Prop where
  addr : b.addr.toNat = 0x100000 + 64 * b.unit
  size : 0 < b.size.toNat
  nbits : genPoolNbits 6 b.size = unitsFor b.size
  within : (b.unit + unitsFor b.size : Int) ≤ cardUnits memlen

/-- The bitmap marks the units of the blocks and no others. -/
def MarksUnits (bits : Nat → Bool) (blocks : List (MemBlock w)) : Prop :=
  ∀ i, bits i = true ↔ ∃ b ∈ blocks, b.Covers i

/-- The pool holds the blocks and nothing else, each on units of its own. -/
structure PoolHolds (memlen : BitVec w) (pool : Option (GenPool w))
    (blocks : List (MemBlock w)) : Prop where
  pool : ∃ bits, pool = some (cardPool memlen bits) ∧ MarksUnits bits blocks
  marked : ∀ b ∈ blocks, b.Marked memlen
  apart : blocks.Pairwise MemBlock.Apart

theorem unitsFor_pos {bytes : BitVec w} (h : 0 < bytes.toNat) : 0 < unitsFor bytes := by
  unfold unitsFor
  omega

/-- Blocks without a common unit are apart. -/
theorem MemBlock.apart_of_no_unit {b c : MemBlock w} (hb : 0 < unitsFor b.size)
    (hc : 0 < unitsFor c.size) (hnone : ∀ i, b.Covers i → ¬ c.Covers i) : b.Apart c := by
  have hfirst : b.Covers b.unit := ⟨Nat.le_refl _, by omega⟩
  have hfirst' : c.Covers c.unit := ⟨Nat.le_refl _, by omega⟩
  have hnot := hnone b.unit hfirst
  have hnot' : ¬ b.Covers c.unit := fun hcover => hnone c.unit hcover hfirst'
  unfold MemBlock.Covers at hnot hnot'
  unfold MemBlock.Apart
  omega

instance MemBlock.apart_symm : Std.Symm (MemBlock.Apart (w := w)) :=
  ⟨fun _ _ h => Or.symm h⟩

theorem MemBlock.Marked.countdown {memlen : BitVec w} {b : MemBlock w}
    (h : b.Marked memlen) : countdown (genPoolNbits 6 b.size) = unitsFor b.size := by
  have hwithin := h.within
  have hlt : cardUnits memlen < 0x80000000 := cInt_lt _
  rw [h.nbits]
  unfold Tl880.countdown
  omega

/-- Blocks apart in units are apart in bytes. -/
theorem MemBlock.Apart.disjoint {memlen : BitVec w} {b c : MemBlock w} (h : b.Apart c)
    (hb : b.Marked memlen) (hc : c.Marked memlen) : b.Disjoint c := by
  have hbaddr := hb.addr
  have hcaddr := hc.addr
  unfold MemBlock.Apart unitsFor at h
  unfold MemBlock.Disjoint
  omega

/-- The address of a unit that lies in the address space. -/
theorem unitAddr_toNat {s : Nat} (h : 0x100000 + 64 * s < 2 ^ w) :
    (unitAddr w s).toNat = 0x100000 + 64 * s := by
  have hbase : (0x100000#w).toNat = 0x100000 := toNat_word (by omega)
  have hunit : (BitVec.ofNat w s).toNat = s := toNat_word (by omega)
  have hshift : (BitVec.ofNat w s <<< 6).toNat = 64 * s := by
    rw [BitVec.toNat_shiftLeft, hunit, Nat.shiftLeft_eq]
    rw [Nat.mod_eq_of_lt (by omega)]
    omega
  rw [unitAddr, BitVec.toNat_add, hbase, hshift]
  exact Nat.mod_eq_of_lt h

/-- An address that lies in the address space gives its unit back. -/
theorem unit_of_addr {addr : BitVec w} {s : Nat} (h : addr.toNat = 0x100000 + 64 * s) :
    cInt ((addr - 0x100000#w) >>> 6).toNat = cInt s := by
  have hlt := addr.isLt
  have hbase : (0x100000#w).toNat = 0x100000 := toNat_word (by omega)
  have hsub : (addr - 0x100000#w).toNat = 64 * s := by
    rw [BitVec.toNat_sub_of_le]
    · omega
    · rw [BitVec.le_def]
      omega
  rw [BitVec.toNat_ushiftRight, hsub, Nat.shiftRight_eq_div_pow]
  congr 2
  omega

/-- The units of a card of ordinary size. -/
theorem cardUnits_eq {memlen : BitVec w} (hlow : 0x11000 ≤ memlen.toNat)
    (hhigh : memlen.toNat < 0x2000000000) :
    cardUnits memlen = ((memlen.toNat - 0x11000) / 64 : Nat) := by
  have hlt := memlen.isLt
  have hgap : (0x11000#w).toNat = 0x11000 := toNat_word (by omega)
  have hsize : (memlen - 0x11000#w).toNat = memlen.toNat - 0x11000 := by
    rw [BitVec.toNat_sub_of_le (by rw [BitVec.le_def]; omega), hgap]
  have hcancel : 0x100000#w + (memlen - 0x11000#w) - 0x100000#w = memlen - 0x11000#w := by
    rw [BitVec.add_comm, BitVec.add_sub_cancel]
  rw [cardUnits, hcancel, BitVec.toNat_ushiftRight, hsize, Nat.shiftRight_eq_div_pow]
  exact cInt_of_lt (by omega)

/-- The count of units is exact for requests of ordinary size. -/
theorem genPoolNbits_exact {bytes : BitVec w} (hwrap : bytes.toNat + 63 < 2 ^ w)
    (hsmall : bytes.toNat + 63 < 0x2000000000) (hw : 64 < 2 ^ w) :
    genPoolNbits 6 bytes = unitsFor bytes := by
  have hround : (1#w <<< 6) - 1#w = 63#w := by
    apply BitVec.eq_of_toNat_eq
    have hone : (1#w).toNat = 1 := toNat_word (by omega)
    have hunit : (1#w <<< 6).toNat = 64 := by
      rw [BitVec.toNat_shiftLeft, hone]
      exact Nat.mod_eq_of_lt hw
    rw [BitVec.toNat_sub_of_le (by rw [BitVec.le_def]; omega), hone, hunit]
    exact (toNat_word (by omega)).symm
  have hsum : (bytes + (1#w <<< 6) - 1#w).toNat = bytes.toNat + 63 := by
    rw [BitVec.sub_eq_add_neg, BitVec.add_assoc, ← BitVec.sub_eq_add_neg, hround]
    rw [BitVec.toNat_add, BitVec.toNat_ofNat]
    rw [Nat.mod_eq_of_lt (by omega : 63 < 2 ^ w), Nat.mod_eq_of_lt hwrap]
  rw [genPoolNbits, BitVec.toNat_ushiftRight, hsum, Nat.shiftRight_eq_div_pow]
  exact cInt_of_lt (by omega)

/-! ## The bitmap of a list of blocks -/

section MarksUnits

variable {bits : Nat → Bool} {blocks : List (MemBlock w)}

/-- The blocks determine the bitmap. -/
theorem MarksUnits.unique {bits' : Nat → Bool} (h : MarksUnits bits blocks)
    (h' : MarksUnits bits' blocks) : bits = bits' := by
  ext i
  rw [Bool.eq_iff_iff, h i, h' i]

/-- Marking the units of a block adds the block. -/
theorem MarksUnits.cons (h : MarksUnits bits blocks) (b : MemBlock w) :
    MarksUnits (FirstFit.mark bits true b.unit (unitsFor b.size)) (b :: blocks) := by
  intro i
  rw [List.exists_mem_cons_iff]
  by_cases hin : b.Covers i
  · rw [FirstFit.mark_inside true hin.1 hin.2]
    simp [hin]
  · rw [FirstFit.mark_outside true (by unfold MemBlock.Covers at hin; omega), h i]
    simp [hin]

/-- A block on units that are not marked is apart from the others. -/
theorem MarksUnits.apart (h : MarksUnits bits blocks) {b : MemBlock w}
    (hb : 0 < unitsFor b.size) (hfree : ∀ i, b.Covers i → bits i = false)
    {c : MemBlock w} (hc : c ∈ blocks) (hpos : 0 < unitsFor c.size) : b.Apart c := by
  apply MemBlock.apart_of_no_unit hb hpos
  intro i hnew hold
  have htrue := (h i).mpr ⟨c, hc, hold⟩
  rw [hfree i hnew] at htrue
  cases htrue

/-- Clearing the units of a block takes the block away and leaves the others. -/
theorem MarksUnits.erase (h : MarksUnits bits blocks) (hnodup : blocks.Nodup)
    (hapart : blocks.Pairwise MemBlock.Apart) {b : MemBlock w} (hb : b ∈ blocks) :
    MarksUnits (FirstFit.mark bits false b.unit (unitsFor b.size)) (blocks.erase b) := by
  intro i
  have herase : ∀ c, c ∈ blocks.erase b ↔ c ≠ b ∧ c ∈ blocks :=
    fun c => hnodup.mem_erase_iff
  by_cases hin : b.Covers i
  · rw [FirstFit.mark_inside false hin.1 hin.2]
    constructor
    · intro hfalse
      cases hfalse
    · intro hex
      obtain ⟨c, hc, hcover⟩ := hex
      obtain ⟨hne, hc⟩ := (herase c).mp hc
      have hcb : c.Apart b := hapart.forall hc hb hne
      unfold MemBlock.Apart at hcb
      unfold MemBlock.Covers at hin hcover
      omega
  · rw [FirstFit.mark_outside false (by unfold MemBlock.Covers at hin; omega), h i]
    constructor
    · intro hex
      obtain ⟨c, hc, hcover⟩ := hex
      have hne : c ≠ b := by
        intro heq
        rw [heq] at hcover
        exact hin hcover
      exact ⟨c, (herase c).mpr ⟨hne, hc⟩, hcover⟩
    · intro hex
      obtain ⟨c, hc, hcover⟩ := hex
      exact ⟨c, ((herase c).mp hc).2, hcover⟩

end MarksUnits

/-! ## What the operations do to the blocks -/

/-- A request that is not 0 is positive. -/
theorem toNat_pos_of_ne_zero {bytes : BitVec w} (h : bytes ≠ 0#w) : 0 < bytes.toNat := by
  rw [Nat.pos_iff_ne_zero]
  intro hzero
  exact h (BitVec.eq_of_toNat_eq (by simpa using hzero))

/-- The block at a unit inside the bitmap. -/
theorem MemBlock.marked_of_unit {memlen bytes : BitVec w} {s : Nat} (hbytes : bytes ≠ 0#w)
    (hexact : genPoolNbits 6 bytes = unitsFor bytes)
    (hwithin : (s + unitsFor bytes : Int) ≤ cardUnits memlen)
    (hspace : 0x100000 + 64 * s < 2 ^ w) :
    ({ addr := unitAddr w s, size := bytes } : MemBlock w).unit = s ∧
      ({ addr := unitAddr w s, size := bytes } : MemBlock w).Marked memlen := by
  have haddr := unitAddr_toNat hspace
  have hunit : ({ addr := unitAddr w s, size := bytes } : MemBlock w).unit = s := by
    simp only [MemBlock.unit, haddr]
    omega
  refine ⟨hunit, ?_, ?_, hexact, ?_⟩
  · rw [hunit]
    exact haddr
  · exact toNat_pos_of_ne_zero hbytes
  · rw [hunit]
    exact hwithin

/-- A free of a marked block clears exactly its units. -/
theorem tl880FreeMemory_marked {memlen : BitVec w} {bits : Nat → Bool} {b : MemBlock w}
    {pool : Option (GenPool w)} {overrun : Bool} (hmarked : b.Marked memlen)
    (hfree : tl880FreeMemory (some (cardPool memlen bits)) b.addr b.size =
      some (pool, overrun)) :
    pool = some (cardPool memlen (FirstFit.mark bits false b.unit (unitsFor b.size))) ∧
      overrun = false := by
  have hpos := unitsFor_pos hmarked.size
  have hwithin := hmarked.within
  have hlt : cardUnits memlen < 0x80000000 := cInt_lt _
  have hnbits : 0 < genPoolNbits 6 b.size := by
    rw [hmarked.nbits]
    omega
  have hbit : cInt ((b.addr - 0x100000#w) >>> 6).toNat = b.unit := by
    rw [unit_of_addr hmarked.addr]
    exact cInt_of_lt (by omega)
  obtain ⟨hpool, hover⟩ := tl880FreeMemory_cases hfree hnbits
  rw [hbit, hmarked.countdown] at hpool hover
  constructor
  · rw [hpool, Int.toNat_natCast]
  · rw [hover, cardChunk_unitCount, decide_eq_false_iff_not]
    omega

namespace PoolHolds

variable {memlen : BitVec w} {pool : Option (GenPool w)} {blocks : List (MemBlock w)}

/-- A block is listed once. -/
theorem nodup (h : PoolHolds memlen pool blocks) : blocks.Nodup := by
  apply h.apart.imp_of_mem
  intro b c hb hc hapart heq
  have hpos := unitsFor_pos (h.marked b hb).size
  rw [heq] at hapart hpos
  unfold MemBlock.Apart at hapart
  omega

/-- No byte belongs to two blocks. -/
theorem exclusive (h : PoolHolds memlen pool blocks) :
    blocks.Pairwise MemBlock.Disjoint := by
  apply h.apart.imp_of_mem
  intro b c hb hc hapart
  exact hapart.disjoint (h.marked b hb) (h.marked c hc)

/-- The blocks determine the pool. -/
theorem unique {pool' : Option (GenPool w)} (h : PoolHolds memlen pool blocks)
    (h' : PoolHolds memlen pool' blocks) : pool = pool' := by
  obtain ⟨bits, hpool, hbits⟩ := h.pool
  obtain ⟨bits', hpool', hbits'⟩ := h'.pool
  rw [hpool, hpool', hbits.unique hbits']

/-- The order of the blocks does not matter. -/
theorem perm {blocks' : List (MemBlock w)} (h : PoolHolds memlen pool blocks)
    (hperm : blocks.Perm blocks') : PoolHolds memlen pool blocks' := by
  obtain ⟨bits, hpool, hbits⟩ := h.pool
  constructor
  · refine ⟨bits, hpool, ?_⟩
    intro i
    simp only [hbits i, hperm.mem_iff]
  · intro b hb
    exact h.marked b (hperm.mem_iff.mpr hb)
  · exact (hperm.pairwise_iff fun hapart => Or.symm hapart).mp h.apart

/-- The pool is empty after `tl880_init_memory`. -/
theorem init (memlen : BitVec w) :
    PoolHolds memlen (some (cardPool memlen fun _ => false)) [] := by
  constructor
  · refine ⟨_, rfl, ?_⟩
    intro i
    simp
  · intro b hb
    cases hb
  · exact List.Pairwise.nil

/-- An allocation whose place is inside the bitmap adds its block. -/
theorem alloc {bits : Nat → Bool} {bytes : BitVec w} {s : Nat}
    (h : PoolHolds memlen (some (cardPool memlen bits)) blocks) (hbytes : bytes ≠ 0#w)
    (hlowest : (cardChunk memlen bits).LowestFit 6 (genPoolNbits 6 bytes) s)
    (hexact : genPoolNbits 6 bytes = unitsFor bytes)
    (hwithin : (s + unitsFor bytes : Int) ≤ cardUnits memlen)
    (hspace : 0x100000 + 64 * s < 2 ^ w) :
    unitAddr w s ≠ 0#w ∧ ∃ pool',
      tl880AllocMemory (some (cardPool memlen bits)) bytes = (unitAddr w s, pool', false) ∧
        PoolHolds memlen pool' ({ addr := unitAddr w s, size := bytes } :: blocks) := by
  obtain ⟨hunit, hmarked⟩ := MemBlock.marked_of_unit hbytes hexact hwithin hspace
  have hcount : countdown (genPoolNbits 6 bytes) = unitsFor bytes := hmarked.countdown
  obtain ⟨bits', hpool, hbits⟩ := h.pool
  cases hpool
  constructor
  · intro hzero
    have haddr := unitAddr_toNat hspace
    rw [hzero] at haddr
    simp at haddr
    omega
  refine ⟨some (cardPool memlen (FirstFit.mark bits true s (unitsFor bytes))), ?_, ?_, ?_, ?_⟩
  · rcases tl880AllocMemory_cases memlen bits bytes with ⟨hnot, -⟩ | ⟨-, t, hlowest', heq⟩
    · exact absurd hlowest.1 (hnot.resolve_left hbytes s)
    · cases FirstFit.LowestFit.unique hlowest hlowest'
      rw [heq, hcount, cardChunk_unitCount, decide_eq_false (Int.not_lt.mpr hwithin)]
  · refine ⟨_, rfl, ?_⟩
    have hcons := hbits.cons { addr := unitAddr w s, size := bytes }
    rw [hunit] at hcons
    exact hcons
  · rw [List.forall_mem_cons]
    exact ⟨hmarked, h.marked⟩
  · apply List.Pairwise.cons _ h.apart
    intro c hc
    apply hbits.apart (unitsFor_pos hmarked.size) _ hc (unitsFor_pos (h.marked c hc).size)
    intro i hcover
    rw [MemBlock.Covers, hunit] at hcover
    change s ≤ i ∧ i < s + unitsFor bytes at hcover
    have hfree := hlowest.1.2.2 (i - s) (by rw [hexact]; omega)
    rw [Nat.add_sub_cancel' hcover.1] at hfree
    exact hfree

/-- A free takes its block away. -/
theorem free (h : PoolHolds memlen pool blocks) {b : MemBlock w} (hb : b ∈ blocks)
    {pool' : Option (GenPool w)} {overrun : Bool}
    (hfree : tl880FreeMemory pool b.addr b.size = some (pool', overrun)) :
    PoolHolds memlen pool' (blocks.erase b) ∧ overrun = false := by
  obtain ⟨bits, hpool, hbits⟩ := h.pool
  rw [hpool] at hfree
  obtain ⟨hpool', hover⟩ := tl880FreeMemory_marked (h.marked b hb) hfree
  refine ⟨⟨?_, ?_, ?_⟩, hover⟩
  · exact ⟨_, hpool', hbits.erase h.nodup h.apart hb⟩
  · intro c hc
    exact h.marked c (List.mem_of_mem_erase hc)
  · exact h.apart.sublist List.erase_sublist

/-! ### A card of ordinary size -/

section Ordinary

variable (hlow : 0x11000 ≤ memlen.toNat) (hhigh : memlen.toNat < 0x2000000000)
include hlow hhigh

omit pool blocks in
/-- The place of a request ends inside the bitmap. -/
theorem lowestFit_within {bits : Nat → Bool} {bytes : BitVec w} {s : Nat}
    (hexact : genPoolNbits 6 bytes = unitsFor bytes)
    (hlowest : (cardChunk memlen bits).LowestFit 6 (genPoolNbits 6 bytes) s) :
    s + unitsFor bytes ≤ (memlen.toNat - 0x11000) / 64 := by
  have hlimit := hlowest.1.1
  have hcount : genPoolNbits 6 bytes < 0x80000000 := cInt_lt _
  rw [hexact] at hlimit hcount
  rw [GenPoolChunk.endBit, cardChunk_unitCount, cardUnits_eq hlow hhigh,
    cInt_sub_succ (by omega) (by omega)] at hlimit
  omega

variable (hwrap : memlen.toNat + 0xef000 < 2 ^ w)
include hwrap

/-- A request returns 0, or a block of its own. -/
theorem request (h : PoolHolds memlen pool blocks) {bytes : BitVec w}
    (hexact : genPoolNbits 6 bytes = unitsFor bytes) :
    tl880AllocMemory pool bytes = (0#w, pool, false) ∨
      ∃ addr pool', addr ≠ 0#w ∧ addr.toNat < memlen.toNat + 0xef000 ∧
        tl880AllocMemory pool bytes = (addr, pool', false) ∧
        PoolHolds memlen pool' ({ addr := addr, size := bytes } :: blocks) := by
  obtain ⟨bits, rfl, -⟩ := h.pool
  rcases tl880AllocMemory_cases memlen bits bytes with ⟨-, heq⟩ | ⟨hbytes, s, hlowest, -⟩
  · exact Or.inl heq
  have hwithin := lowestFit_within hlow hhigh hexact hlowest
  have hpos := unitsFor_pos (toNat_pos_of_ne_zero hbytes)
  obtain ⟨haddr, pool', heq, hholds⟩ := h.alloc hbytes hlowest hexact
    (by rw [cardUnits_eq hlow hhigh]; omega) (by omega)
  right
  refine ⟨unitAddr w s, pool', haddr, ?_, heq, hholds⟩
  rw [unitAddr_toNat (by omega)]
  omega

omit pool blocks in
/-- The end of the chunk does not wrap. -/
theorem chunkEnd_toNat : (0x100000#w + (memlen - 0x11000#w)).toNat = memlen.toNat + 0xef000 := by
  have hbase : (0x100000#w).toNat = 0x100000 := toNat_word (by omega)
  have hgap : (0x11000#w).toNat = 0x11000 := toNat_word (by omega)
  rw [BitVec.toNat_add, hbase, BitVec.toNat_sub_of_le (by rw [BitVec.le_def]; omega), hgap]
  rw [Nat.mod_eq_of_lt (by omega)]
  omega

omit pool blocks in
/-- A free of a marked block meets neither of the two `BUG_ON`s. -/
theorem tl880FreeMemory_returns {bits : Nat → Bool} {b : MemBlock w} (hb : b.Marked memlen) :
    ∃ result, tl880FreeMemory (some (cardPool memlen bits)) b.addr b.size = some result := by
  obtain ⟨haddr, hsize, -, hwithin⟩ := hb
  rw [cardUnits_eq hlow hhigh] at hwithin
  unfold unitsFor at hwithin
  have hend := chunkEnd_toNat hlow hhigh hwrap
  have hbase : (0x100000#w).toNat = 0x100000 := toNat_word (by omega)
  have hlast : (b.addr + b.size).toNat = b.addr.toNat + b.size.toNat := by
    rw [BitVec.toNat_add]
    exact Nat.mod_eq_of_lt (by omega)
  have hin : 0x100000#w ≤ b.addr ∧ b.addr < 0x100000#w + (memlen - 0x11000#w) := by
    rw [BitVec.le_def, BitVec.lt_def, hend, hbase]
    omega
  have hbug : ¬ 0x100000#w + (memlen - 0x11000#w) < b.addr + b.size := by
    rw [BitVec.lt_def, hend, hlast]
    omega
  rw [tl880FreeMemory, genPoolFree, cardPool, cardChunk, genPoolFreeChunks, if_pos hin,
    if_neg hbug]
  exact ⟨_, rfl⟩

/-- A free of a block returns. -/
theorem release (h : PoolHolds memlen pool blocks) {b : MemBlock w} (hb : b ∈ blocks) :
    ∃ pool', tl880FreeMemory pool b.addr b.size = some (pool', false) ∧
      PoolHolds memlen pool' (blocks.erase b) := by
  obtain ⟨bits, hpool, -⟩ := h.pool
  have hreturns : ∃ result, tl880FreeMemory pool b.addr b.size = some result := by
    rw [hpool]
    exact tl880FreeMemory_returns hlow hhigh hwrap (h.marked b hb)
  obtain ⟨⟨pool', overrun⟩, hfree⟩ := hreturns
  obtain ⟨hholds, hover⟩ := h.free hb hfree
  rw [hover] at hfree
  exact ⟨pool', hfree, hholds⟩

end Ordinary

end PoolHolds

end Tl880
