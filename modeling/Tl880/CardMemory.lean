import Tl880.Lib.LabelledRun
import Tl880.PoolBlocks

/-!
# Card memory

The users of the card's pool: each call hands out a block or takes one back.

`MemInv` ties the bitmap to the blocks that are handed out.  It is kept by every
step that finds room below `memlen` (`memStep_inv`), and it makes the blocks
that are live at one time real and exclusive (`MemInv.good`).
-/

namespace Tl880

open LabelledRun

variable {w : Nat}

/-- The card's memory and its users. -/
structure CardMemory (w : Nat) where
  pool : Option (GenPool w)
  /-- the blocks handed out and not yet freed (not stored by the driver) -/
  live : List (MemBlock w)
  /-- an operation has written outside of the pool's bitmap -/
  overrun : Bool

/-- What a user of card memory can do. -/
inductive MemEvent (w : Nat) where
  | alloc (bytes : BitVec w)
  | free (addr bytes : BitVec w)

/-- One call.  Only a live block is freed, and with its own size. -/
def memStep (mem : CardMemory w) : MemEvent w → Option (CardMemory w)
  | .alloc bytes =>
      let (addr, pool, overrun) := tl880AllocMemory mem.pool bytes
      some
        { pool := pool
          live := if addr = 0#w then mem.live else { addr := addr, size := bytes } :: mem.live
          overrun := mem.overrun || overrun }
  | .free addr bytes =>
      if { addr := addr, size := bytes } ∈ mem.live then
        (tl880FreeMemory mem.pool addr bytes).map fun (pool, overrun) =>
          { pool := pool
            live := mem.live.erase { addr := addr, size := bytes }
            overrun := mem.overrun || overrun }
      else none

/-- The card after `tl880_init_memory`. -/
def CardMemory.start (memlen : BitVec w) (createOk addOk : Bool) : CardMemory w :=
  { pool := CardMemory.tl880InitMemory memlen createOk addOk, live := [], overrun := false }

/-- The memory handed out is the card's, and no byte of it is handed out
twice. -/
structure MemGood (memlen : BitVec w) (mem : CardMemory w) : Prop where
  overrun : mem.overrun = false
  inside : ∀ b ∈ mem.live, b.addr.toNat + b.size.toNat ≤ memlen.toNat
  exclusive : mem.live.Pairwise MemBlock.Disjoint

/-- The chunk finds room for the request below `memlen`: the count of units is
exact, and one of the places it may choose ends inside the card's memory. -/
def RoomBelow (memlen : BitVec w) (chunk : GenPoolChunk w) (bytes : BitVec w) : Prop :=
  genPoolNbits 6 bytes = unitsFor bytes ∧
    ∃ s, chunk.Fits 6 (genPoolNbits 6 bytes) s ∧
      (s + unitsFor bytes : Int) ≤ chunk.unitCount 6 ∧
      0x100000 + 64 * s + bytes.toNat ≤ memlen.toNat

/-- The steps that keep the memory good: a request that fits anywhere in the
bitmap fits below `memlen`. -/
def MemStepOk (memlen : BitVec w) (mem : CardMemory w) : MemEvent w → Prop
  | .alloc bytes =>
      ∀ p ∈ mem.pool, ∀ chunk ∈ p.chunks, bytes ≠ 0#w →
        (∃ s, chunk.Fits 6 (genPoolNbits 6 bytes) s) → RoomBelow memlen chunk bytes
  | .free _ _ => True

/-! ## The invariant -/

/-- The block lies on whole units, inside the bitmap and inside the card's
memory. -/
structure MemBlock.Placed (memlen : BitVec w) (b : MemBlock w) : Prop where
  addr : b.addr.toNat = 0x100000 + 64 * b.unit
  size : 0 < b.size.toNat
  nbits : genPoolNbits 6 b.size = unitsFor b.size
  within : (b.unit + unitsFor b.size : Int) ≤ cardUnits memlen
  inside : b.addr.toNat + b.size.toNat ≤ memlen.toNat

/-- The bitmap says which units the live blocks take. -/
structure MemInv (memlen : BitVec w) (mem : CardMemory w) : Prop where
  overrun : mem.overrun = false
  pool : (mem.pool = none ∧ mem.live = []) ∨
    ∃ bits, mem.pool = some (cardPool memlen bits) ∧
      ∀ i, bits i = true ↔ ∃ b ∈ mem.live, b.Covers i
  placed : ∀ b ∈ mem.live, b.Placed memlen
  apart : mem.live.Pairwise MemBlock.Apart

theorem MemBlock.Placed.marked {memlen : BitVec w} {b : MemBlock w}
    (h : b.Placed memlen) : b.Marked memlen := ⟨h.addr, h.size, h.nbits, h.within⟩

/-- The pool holds the live blocks. -/
theorem MemInv.holds {memlen : BitVec w} {mem : CardMemory w} (h : MemInv memlen mem)
    (hpool : mem.pool ≠ none) : PoolHolds memlen mem.pool mem.live := by
  constructor
  · exact h.pool.resolve_left fun hnone => hpool hnone.1
  · intro b hb
    exact (h.placed b hb).marked
  · exact h.apart

/-- A pool that holds the live blocks, all of them inside the card's memory. -/
theorem MemInv.of_holds {memlen : BitVec w} {mem : CardMemory w}
    (hover : mem.overrun = false) (hholds : PoolHolds memlen mem.pool mem.live)
    (hinside : ∀ b ∈ mem.live, b.addr.toNat + b.size.toNat ≤ memlen.toNat) :
    MemInv memlen mem := by
  constructor
  · exact hover
  · exact Or.inr hholds.pool
  · intro b hb
    have hmarked := hholds.marked b hb
    exact ⟨hmarked.addr, hmarked.size, hmarked.nbits, hmarked.within, hinside b hb⟩
  · exact hholds.apart

/-- The invariant makes the memory good. -/
theorem MemInv.good {memlen : BitVec w} {mem : CardMemory w} (h : MemInv memlen mem) :
    MemGood memlen mem := by
  constructor
  · exact h.overrun
  · intro b hb
    exact (h.placed b hb).inside
  · apply h.apart.imp_of_mem
    intro b c hb hc hapart
    exact hapart.disjoint (h.placed b hb).marked (h.placed c hc).marked

/-- The invariant holds after `tl880_init_memory`. -/
theorem CardMemory.start_inv (memlen : BitVec w) (createOk addOk : Bool) :
    MemInv memlen (CardMemory.start memlen createOk addOk) := by
  constructor
  · rfl
  · rcases CardMemory.tl880InitMemory_eq memlen createOk addOk with hnone | hsome
    · left
      exact ⟨hnone, rfl⟩
    · right
      refine ⟨fun _ => false, hsome, ?_⟩
      intro i
      simp [CardMemory.start]
  · intro b hb
    cases hb
  · exact List.Pairwise.nil

/-- An allowed allocation keeps the invariant. -/
theorem memStep_alloc_inv {memlen : BitVec w} {mem mem' : CardMemory w} {bytes : BitVec w}
    (hinv : MemInv memlen mem) (hok : MemStepOk memlen mem (.alloc bytes))
    (hstep : memStep mem (.alloc bytes) = some mem') : MemInv memlen mem' := by
  rcases hinv.pool with ⟨hpool, hlive⟩ | ⟨bits, hpool, hbits⟩
  · -- without a pool nothing is handed out
    have hsame : mem' = mem := by
      simp only [memStep, hpool, tl880AllocMemory, if_true, Bool.or_false] at hstep
      cases hstep
      rw [← hpool]
    rw [hsame]
    exact hinv
  rcases tl880AllocMemory_cases memlen bits bytes with ⟨-, heq⟩ | ⟨hbytes, s, hlowest, -⟩
  · have hsame : mem' = mem := by
      simp only [memStep, hpool, heq, if_true, Bool.or_false] at hstep
      cases hstep
      rw [← hpool]
    rw [hsame]
    exact hinv
  obtain ⟨hexact, t, hfits, hwithin, hinside⟩ : RoomBelow memlen (cardChunk memlen bits) bytes :=
    hok _ hpool _ (List.mem_singleton_self _) hbytes ⟨s, hlowest.1⟩
  have hle : s ≤ t := hlowest.le hfits
  have hmem := memlen.isLt
  rw [cardChunk_unitCount] at hwithin
  have hholds := hinv.holds (by simp [hpool])
  rw [hpool] at hholds
  obtain ⟨haddr, pool', heq, hholds'⟩ :=
    hholds.alloc hbytes hlowest hexact (by omega) (by omega)
  simp only [memStep, hpool, heq, if_neg haddr, Bool.or_false] at hstep
  cases hstep
  refine MemInv.of_holds ?_ hholds' ?_
  · exact hinv.overrun
  intro b hb
  rcases List.mem_cons.mp hb with hnew | hold
  · rw [hnew]
    change (unitAddr w s).toNat + bytes.toNat ≤ memlen.toNat
    rw [unitAddr_toNat (by omega)]
    omega
  · exact (hinv.placed b hold).inside

/-- Freeing a live block keeps the invariant. -/
theorem memStep_free_inv {memlen : BitVec w} {mem mem' : CardMemory w}
    {addr bytes : BitVec w} (hinv : MemInv memlen mem)
    (hstep : memStep mem (.free addr bytes) = some mem') : MemInv memlen mem' := by
  rw [memStep] at hstep
  split_ifs at hstep with hlive
  have hholds : PoolHolds memlen mem.pool mem.live := by
    apply hinv.holds
    intro hnone
    rcases hinv.pool with ⟨-, hempty⟩ | ⟨bits, hpool, -⟩
    · rw [hempty] at hlive
      cases hlive
    · rw [hnone] at hpool
      cases hpool
  obtain ⟨⟨pool, overrun⟩, hfree, heq⟩ := Option.map_eq_some_iff.mp hstep
  obtain ⟨hholds', hover⟩ := hholds.free hlive hfree
  cases heq
  refine MemInv.of_holds ?_ hholds' ?_
  · change (mem.overrun || overrun) = false
    rw [hinv.overrun, hover]
    rfl
  · intro b hb
    exact (hinv.placed b (List.mem_of_mem_erase hb)).inside

/-- An allowed step keeps the invariant. -/
theorem memStep_inv {memlen : BitVec w} (mem : CardMemory w) (event : MemEvent w)
    (mem' : CardMemory w) (hinv : MemInv memlen mem) (hok : MemStepOk memlen mem event)
    (hstep : memStep mem event = some mem') : MemInv memlen mem' := by
  cases event with
  | alloc bytes => exact memStep_alloc_inv hinv hok hstep
  | free addr bytes => exact memStep_free_inv hinv hstep

/-! ## The runs that stay good -/

/-- With a card of ordinary size, a step that keeps the memory good is
allowed. -/
theorem memStepOk_of_good {memlen : BitVec w} (hlow : 0x100000 < memlen.toNat)
    (hwrap : memlen.toNat + 0xef000 < 2 ^ w) (hhigh : memlen.toNat < 0x2000000000)
    {mem : CardMemory w} {event : MemEvent w} {mem' : CardMemory w}
    (hinv : MemInv memlen mem) (hstep : memStep mem event = some mem')
    (hgood : MemGood memlen mem') : MemStepOk memlen mem event := by
  cases event with
  | free addr bytes => trivial
  | alloc bytes =>
      intro p hp chunk hchunk hbytes hex
      rcases hinv.pool with ⟨hnone, -⟩ | ⟨bits, hpool, -⟩
      · rw [hnone] at hp
        cases hp
      rw [hpool] at hp
      cases hp
      cases List.mem_singleton.mp hchunk
      rcases tl880AllocMemory_cases memlen bits bytes with
        ⟨hnot, -⟩ | ⟨-, s, hlowest, heq⟩
      · obtain ⟨t, hfits⟩ := hex
        rcases hnot with hzero | hnone
        · exact absurd hzero hbytes
        · exact absurd hfits (hnone t)
      have hunits := cardUnits_eq (by omega) hhigh
      -- the bitmap is not overrun, so the address does not wrap
      simp only [memStep, hpool, heq] at hstep
      cases hstep
      have hover := (Bool.or_eq_false_iff.mp hgood.overrun).2
      rw [cardChunk_unitCount, decide_eq_false_iff_not] at hover
      have haddr : (unitAddr w s).toNat = 0x100000 + 64 * s := unitAddr_toNat (by omega)
      have hne : unitAddr w s ≠ 0#w := by
        intro hzero
        rw [hzero] at haddr
        simp at haddr
        omega
      have hinside := hgood.inside { addr := unitAddr w s, size := bytes } (by
        rw [if_neg hne]
        exact List.mem_cons_self)
      change (unitAddr w s).toNat + bytes.toNat ≤ memlen.toNat at hinside
      have hexact : genPoolNbits 6 bytes = unitsFor bytes :=
        genPoolNbits_exact (by omega) (by omega) (by omega)
      constructor
      · exact hexact
      · refine ⟨s, hlowest.1, ?_, ?_⟩
        · rw [cardChunk_unitCount]
          rw [hexact] at hover
          unfold countdown at hover
          unfold unitsFor at hover ⊢
          omega
        · omega

/-- The blocks handed out are inside the card's memory and apart from each other
in every state of a run when each request that fits anywhere in the bitmap fits
below `memlen`; for a card of ordinary size these are the only such runs. -/
theorem cardMemory_exclusive_iff (memlen : BitVec w) (hlow : 0x100000 < memlen.toNat)
    (createOk addOk : Bool) (events : List (MemEvent w)) :
    (AllSteps memStep (MemStepOk memlen) (CardMemory.start memlen createOk addOk) events →
      AllStates memStep (MemGood memlen) (CardMemory.start memlen createOk addOk) events) ∧
    (memlen.toNat + 0xef000 < 2 ^ w → memlen.toNat < 0x2000000000 →
      AllStates memStep (MemGood memlen) (CardMemory.start memlen createOk addOk) events →
      AllSteps memStep (MemStepOk memlen) (CardMemory.start memlen createOk addOk)
        events) := by
  have hstart := CardMemory.start_inv memlen createOk addOk
  constructor
  · intro hok
    apply (allStates_of_allSteps memStep_inv hstart hok).imp
    intro mem hinv
    exact hinv.good
  · intro hwrap hhigh
    apply (allStates_iff_allSteps memStep_inv (fun _ hinv => hinv.good) _ hstart events).mp
    intro mem event mem' hinv hstep hgood
    exact memStepOk_of_good hlow hwrap hhigh hinv hstep hgood

/-- A request always returns. -/
theorem memStep_alloc_enabled (mem : CardMemory w) (bytes : BitVec w) :
    ∃ mem', memStep mem (.alloc bytes) = some mem' := by
  rw [memStep]
  exact ⟨_, rfl⟩

/-- In the fresh bitmap of a 16 MB card a request that is not too long fits at
the start. -/
theorem freshChunk_fits {bytes : BitVec 32}
    (h : 0 < ((cardChunk 0x1000000#32 fun _ => false).endBit 6
      (genPoolNbits 6 bytes)).toNat) :
    (cardChunk 0x1000000#32 fun _ => false).Fits 6 (genPoolNbits 6 bytes) 0 :=
  ⟨h, rfl, fun _ _ => rfl⟩

/-- A 16 MB card serves a first request for an audio buffer. -/
theorem cardMemory_exclusive_audio :
    0x100000 < (0x1000000#32).toNat ∧
      AllStates memStep (MemGood 0x1000000#32) (CardMemory.start 0x1000000#32 true true)
        [.alloc 0x7800#32] := by
  constructor
  · decide
  · apply (cardMemory_exclusive_iff 0x1000000#32 (by decide) true true _).1
    intro mem' _
    constructor
    · intro p hp chunk hchunk _ _
      cases hp
      cases List.mem_singleton.mp hchunk
      constructor
      · decide +kernel
      · refine ⟨0, freshChunk_fits (by decide +kernel), by decide +kernel, by decide⟩
    · trivial

/-- A 16 MB card hands out a block that ends behind its memory. -/
theorem cardMemory_beyond_memory :
    ¬ AllStates memStep (MemGood 0x1000000#32) (CardMemory.start 0x1000000#32 true true)
        [.alloc 0xF00040#32] := by
  intro hstates
  obtain ⟨mem', hstep⟩ :=
    memStep_alloc_enabled (CardMemory.start 0x1000000#32 true true) 0xF00040#32
  have hgood := (hstates.2 mem' hstep).head
  have hok := memStepOk_of_good (by decide) (by decide) (by decide)
    (CardMemory.start_inv 0x1000000#32 true true) hstep hgood
  obtain ⟨-, s, -, -, hinside⟩ := hok (cardPool 0x1000000#32 fun _ => false) rfl
    (cardChunk 0x1000000#32 fun _ => false) (List.mem_singleton_self _) (by decide)
    ⟨0, freshChunk_fits (by decide +kernel)⟩
  have hsize : (0xF00040#32).toNat = 0xF00040 := rfl
  have hlen : (0x1000000#32).toNat = 0x1000000 := rfl
  omega

end Tl880
