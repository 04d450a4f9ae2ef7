import Tl880.Lib.FirstFit
import Mathlib.Tactic.Common

/-!
# The general purpose allocator

The model of `driver/genalloc.c`: a pool is a list of chunks of card memory,
each with a bitmap of units of `1 << min_alloc_order` bytes.  Addresses and
sizes are `unsigned long`s of `w` bits; bit numbers and counts are `int`s, which
is what `cInt` cuts them down to.

The C bitmap ends after the chunk's units.  The model's bitmap goes on, and an
operation that touches bits outside of it reports an overrun.
-/

namespace Tl880

/-- What is left of a number that is stored into an `int`. -/
def cInt (x : Int) : Int := (BitVec.ofInt 32 x).toInt

theorem cInt_eq_bmod (x : Int) : cInt x = x.bmod 0x100000000 :=
  BitVec.toInt_ofInt x

/-- An `int` holds small numbers exactly. -/
theorem cInt_of_lt {x : Nat} (h : x < 0x80000000) : cInt x = x := by
  rw [cInt_eq_bmod, Int.bmod_def]
  omega

/-- An `int` is below `2 ^ 31`. -/
theorem cInt_lt (x : Int) : cInt x < 0x80000000 := by
  rw [cInt_eq_bmod, Int.bmod_def]
  omega

/-- The bound of the start positions does not wrap: `end_bit -= nbits + 1`. -/
theorem cInt_sub_succ {u n : Nat} (hu : u < 0x80000000) (hn : n < 0x80000000) :
    cInt (u - cInt (n + 1)) = u - n - 1 := by
  have hsucc : cInt (n + 1) = n + 1 ∨ cInt (n + 1) = n + 1 - 0x100000000 := by
    rw [cInt_eq_bmod, Int.bmod_def]
    omega
  rw [cInt_eq_bmod (u - _), Int.bmod_def]
  omega

/-- `struct gen_pool_chunk` -/
structure GenPoolChunk (w : Nat) where
  startAddr : BitVec w
  endAddr : BitVec w
  /-- a set bit is a unit in use -/
  bits : Nat → Bool

/-- `struct gen_pool` -/
structure GenPool (w : Nat) where
  minAllocOrder : Nat
  chunks : List (GenPoolChunk w)

/-- `find_next_zero_bit` -/
def findNextZeroBit (bits : Nat → Bool) (size offset : Nat) : Nat :=
  FirstFit.nextBit bits false size offset

/-- `find_next_bit` -/
def findNextBit (bits : Nat → Bool) (size offset : Nat) : Nat :=
  FirstFit.nextBit bits true size offset

variable {w : Nat}

/-- The number of units of a chunk, as `gen_pool_add` and `gen_pool_alloc`
compute it. -/
def GenPoolChunk.unitCount (chunk : GenPoolChunk w) (order : Nat) : Int :=
  cInt ((chunk.endAddr - chunk.startAddr) >>> order).toNat

/-- The number of units a request for `size` bytes takes. -/
def genPoolNbits (order : Nat) (size : BitVec w) : Int :=
  cInt ((size + (1#w <<< order) - 1#w) >>> order).toNat

/-- How often `while(nbits--)` runs its body: a negative count goes all the way
round. -/
def countdown (nbits : Int) : Nat := (nbits % 0x100000000).toNat

/-- The bound of the start positions: `end_bit` after `end_bit -= nbits + 1`. -/
def GenPoolChunk.endBit (chunk : GenPoolChunk w) (order : Nat) (nbits : Int) : Int :=
  cInt (chunk.unitCount order - cInt (nbits + 1))

/-- The search loop of `gen_pool_alloc` in one chunk; `pos` is `bit + 1`. -/
def genPoolSearch (bits : Nat → Bool) (nbits endBit : Int) : Nat → Nat → Option Nat
  | 0, _ => none
  | fuel + 1, pos =>
      if pos < endBit then
        let startBit := findNextZeroBit bits endBit.toNat pos
        if endBit ≤ startBit then none
        else if 1 < nbits then
          let bit := findNextBit bits (startBit + nbits.toNat) (startBit + 1)
          if (bit : Int) - startBit < nbits then
            genPoolSearch bits nbits endBit fuel (bit + 1)
          else some startBit
        else some startBit
      else none

/-- What an operation on a pool leaves behind. -/
structure PoolResult (w : Nat) where
  /-- the address returned by an allocation -/
  addr : BitVec w
  chunks : List (GenPoolChunk w)
  /-- bits outside of a chunk's bitmap were written -/
  overrun : Bool

/-- The walk of `gen_pool_alloc` over the chunks. -/
def genPoolAllocChunks (order : Nat) (nbits : Int) :
    List (GenPoolChunk w) → PoolResult w
  | [] => { addr := 0#w, chunks := [], overrun := false }
  | chunk :: rest =>
      let endBit := chunk.endBit order nbits
      match genPoolSearch chunk.bits nbits endBit endBit.toNat 0 with
      | some startBit =>
          let count := countdown nbits
          { addr := chunk.startAddr + (BitVec.ofNat w startBit <<< order)
            chunks :=
              { chunk with bits := FirstFit.mark chunk.bits true startBit count } :: rest
            overrun := decide (chunk.unitCount order < startBit + count) }
      | none =>
          let result := genPoolAllocChunks order nbits rest
          { result with chunks := chunk :: result.chunks }

/-- `gen_pool_alloc` -/
def genPoolAlloc (pool : GenPool w) (size : BitVec w) : PoolResult w :=
  if size = 0#w then { addr := 0#w, chunks := pool.chunks, overrun := false }
  else
    genPoolAllocChunks pool.minAllocOrder (genPoolNbits pool.minAllocOrder size)
      pool.chunks

/-- The walk of `gen_pool_free` over the chunks; `none` is one of its two
`BUG_ON`s. -/
def genPoolFreeChunks (order : Nat) (addr size : BitVec w) :
    List (GenPoolChunk w) → Option (PoolResult w)
  | [] =>
      if 0 < genPoolNbits order size then none
      else some { addr := 0#w, chunks := [], overrun := false }
  | chunk :: rest =>
      if chunk.startAddr ≤ addr ∧ addr < chunk.endAddr then
        if chunk.endAddr < addr + size then none
        else
          let bit := cInt ((addr - chunk.startAddr) >>> order).toNat
          let count := countdown (genPoolNbits order size)
          some
            { addr := 0#w
              chunks :=
                { chunk with bits := FirstFit.mark chunk.bits false bit.toNat count } :: rest
              overrun := decide (bit < 0 ∨ chunk.unitCount order < bit + count) }
      else
        (genPoolFreeChunks order addr size rest).map fun result =>
          { result with chunks := chunk :: result.chunks }

/-- `gen_pool_free` -/
def genPoolFree (pool : GenPool w) (addr size : BitVec w) : Option (PoolResult w) :=
  genPoolFreeChunks pool.minAllocOrder addr size pool.chunks

/-- `gen_pool_create` -/
def genPoolCreate (w minAllocOrder : Nat) : GenPool w :=
  { minAllocOrder := minAllocOrder, chunks := [] }

/-- `gen_pool_add`, when the chunk could be allocated: its bitmap is cleared. -/
def genPoolAdd (pool : GenPool w) (addr size : BitVec w) : GenPool w :=
  { pool with
    chunks :=
      { startAddr := addr, endAddr := addr + size, bits := fun _ => false } ::
        pool.chunks }

/-! ## The search finds the lowest fit -/

/-- A request for `nbits` units fits at unit `s` of the chunk. -/
def GenPoolChunk.Fits (chunk : GenPoolChunk w) (order : Nat) (nbits : Int) (s : Nat) :
    Prop :=
  FirstFit.Fits chunk.bits nbits.toNat (chunk.endBit order nbits).toNat s

/-- The request fits at unit `s` and nowhere below. -/
def GenPoolChunk.LowestFit (chunk : GenPoolChunk w) (order : Nat) (nbits : Int)
    (s : Nat) : Prop :=
  FirstFit.LowestFit chunk.bits nbits.toNat (chunk.endBit order nbits).toNat s

/-- One round of the search either ends it or goes on with a higher position
below which nothing fits. -/
theorem genPoolSearch_spec (bits : Nat → Bool) (nbits endBit : Int) (fuel pos : Nat)
    (hfuel : endBit.toNat ≤ fuel + pos)
    (hbelow : FirstFit.NoFitBelow bits nbits.toNat endBit.toNat pos) :
    FirstFit.Answer bits nbits.toNat endBit.toNat
      (genPoolSearch bits nbits endBit fuel pos) := by
  induction fuel generalizing pos with
  | zero =>
      exact FirstFit.Answer.of_none (hbelow.none (by omega))
  | succ fuel ih =>
      rw [genPoolSearch]
      by_cases hpos : (pos : Int) < endBit
      swap
      · rw [if_neg hpos]
        exact FirstFit.Answer.of_none (hbelow.none (by omega))
      rw [if_pos hpos]
      have hzero : FirstFit.Stops bits false endBit.toNat pos
          (findNextZeroBit bits endBit.toNat pos) :=
        FirstFit.nextBit_stops bits false (by omega)
      generalize findNextZeroBit bits endBit.toNat pos = startBit at hzero ⊢
      have hstart := hbelow.skip_used hzero.passed
      by_cases hend : endBit ≤ startBit
      · rw [if_pos hend]
        exact FirstFit.Answer.of_none (hstart.none (by omega))
      rw [if_neg hend]
      have hfree := hzero.found (by omega)
      by_cases hmany : 1 < nbits
      swap
      · -- a single unit: the one just found
        rw [if_neg hmany]
        have hfits : FirstFit.Fits bits nbits.toNat endBit.toNat startBit := by
          apply FirstFit.fits_of_passed (by omega) hfree
          intro i hlow hhigh
          omega
        exact FirstFit.LowestFit.answer ⟨hfits, hstart⟩
      rw [if_pos hmany]
      have hset : FirstFit.Stops bits true (startBit + nbits.toNat) (startBit + 1)
          (findNextBit bits (startBit + nbits.toNat) (startBit + 1)) :=
        FirstFit.nextBit_stops bits true (by omega)
      generalize findNextBit bits (startBit + nbits.toNat) (startBit + 1) = bit at hset ⊢
      have hlow := hset.lower
      by_cases hshort : (bit : Int) - startBit < nbits
      · rw [if_pos hshort]
        have hlt : bit < startBit + nbits.toNat := by omega
        have hnext := hstart.skip_short (hset.found hlt) hlt
        have hge := hzero.lower
        exact ih (bit + 1) (by omega) hnext
      · rw [if_neg hshort]
        have hfits : FirstFit.Fits bits nbits.toNat endBit.toNat startBit := by
          apply FirstFit.fits_of_passed (by omega) hfree
          intro i hlow hhigh
          exact hset.passed i hlow (by omega)
        exact FirstFit.LowestFit.answer ⟨hfits, hstart⟩

/-- What the search of a whole chunk returns. -/
theorem genPoolSearch_answer (bits : Nat → Bool) (nbits endBit : Int) :
    FirstFit.Answer bits nbits.toNat endBit.toNat
      (genPoolSearch bits nbits endBit endBit.toNat 0) := by
  apply genPoolSearch_spec
  · exact Nat.le_refl _
  · exact FirstFit.noFitBelow_zero _ _

/-- One chunk in the walk of an allocation: the request is placed at the lowest
fit, or the walk goes on. -/
theorem genPoolAllocChunks_cases (order : Nat) (nbits : Int) (chunk : GenPoolChunk w)
    (rest : List (GenPoolChunk w)) :
    (∃ s, chunk.LowestFit order nbits s ∧
      genPoolAllocChunks order nbits (chunk :: rest) =
        { addr := chunk.startAddr + (BitVec.ofNat w s <<< order)
          chunks :=
            { chunk with bits := FirstFit.mark chunk.bits true s (countdown nbits) } :: rest
          overrun := decide (chunk.unitCount order < s + countdown nbits) }) ∨
    ((∀ s, ¬ chunk.Fits order nbits s) ∧
      genPoolAllocChunks order nbits (chunk :: rest) =
        { genPoolAllocChunks order nbits rest with
          chunks := chunk :: (genPoolAllocChunks order nbits rest).chunks }) := by
  have hanswer := genPoolSearch_answer chunk.bits nbits (chunk.endBit order nbits)
  cases hfound : genPoolSearch chunk.bits nbits (chunk.endBit order nbits)
      (chunk.endBit order nbits).toNat 0 with
  | some s =>
      left
      refine ⟨s, hanswer.lowest s hfound, ?_⟩
      simp only [genPoolAllocChunks, hfound]
  | none =>
      right
      constructor
      · exact hanswer.complete hfound
      · simp only [genPoolAllocChunks, hfound]

end Tl880
