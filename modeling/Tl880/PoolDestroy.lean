import Mathlib.Algebra.Group.Int.Defs
import Tl880.AudioBuffer

/-!
# Destroying the pool

`gen_pool_destroy` of `driver/genalloc.c` frees the chunks of a pool and stops with a `BUG_ON`
at a chunk that is still in use.  When a card is removed, `tl880_deinit_dev` first takes the
audio buffer back, and `tl880_deinit_memory` then destroys the pool: it returns exactly when
every other user of the pool has freed what it was given.
-/

namespace Tl880

open LabelledRun

variable {w : Nat}

/-! ## The driver -/

/-- The bit that `gen_pool_destroy` finds first, in an `int`.  The bound is an `int` too, and
`find_next_bit` takes it as an `unsigned long`. -/
def GenPoolChunk.firstUsed (chunk : GenPoolChunk w) (order : Nat) : Int :=
  cInt (findNextBit chunk.bits (chunk.unitCount order % 2 ^ 64).toNat 0)

/-- The walk of `gen_pool_destroy` over the chunks, and how many it frees; `none` is its
`BUG_ON`. -/
def genPoolDestroyChunks (order : Nat) : List (GenPoolChunk w) → Option Nat
  | [] => some 0
  | chunk :: rest =>
      if chunk.firstUsed order < chunk.unitCount order then none
      else (genPoolDestroyChunks order rest).map (· + 1)

/-- `gen_pool_destroy` -/
def genPoolDestroy (pool : GenPool w) : Option Nat :=
  genPoolDestroyChunks pool.minAllocOrder pool.chunks

/-- `tl880_deinit_memory`: the pool afterwards. -/
def CardMemory.tl880DeinitMemory (mem : CardMemory w) : Option (CardMemory w) :=
  match mem.pool with
  | none => some mem
  | some pool => (genPoolDestroy pool).map fun _ => { mem with pool := none }

/-- `tl880_disable_apu` -/
def DevRegs.tl880DisableApu (d : DevRegs) : DevRegs := d.writeAll [(0x3000, 0), (0x3004, 0)]

/-- The part of `tl880_deinit_dev` that stops the audio. -/
def AudioPool.deinitDev (s : AudioPool w) : Option (AudioPool w) :=
  AudioPool.deinitHardwareAudio
    { s with audio := { s.audio with card := s.audio.card.tl880DisableApu.tl880ApuStopIoc } }

/-- What `tl880_unconfigure` does to the pool; `none` is a `BUG_ON`. -/
def AudioPool.unconfigure (s : AudioPool w) : Option (AudioPool w) := do
  let s ← s.deinitDev
  let memory ← s.memory.tl880DeinitMemory
  some { s with memory := memory }

/-! ## Chunks in use -/

/-- The chunk has a unit in use. -/
def GenPoolChunk.InUse (chunk : GenPoolChunk w) (order : Nat) : Prop :=
  ∃ i : Nat, (i : Int) < chunk.unitCount order ∧ chunk.bits i = true

/-- The test of `gen_pool_destroy` finds a unit in use if there is one. -/
theorem GenPoolChunk.firstUsed_lt_iff (chunk : GenPoolChunk w) (order : Nat) :
    chunk.firstUsed order < chunk.unitCount order ∧ 0 ≤ chunk.unitCount order ↔
      chunk.InUse order := by
  have hsmall : chunk.unitCount order < 0x80000000 := cInt_lt _
  by_cases hneg : chunk.unitCount order < 0
  · refine iff_of_false (by omega) ?_
    rintro ⟨i, hi, -⟩
    omega
  have hsize : (chunk.unitCount order % 2 ^ 64).toNat = (chunk.unitCount order).toNat := by
    omega
  have hstops : FirstFit.Stops chunk.bits true (chunk.unitCount order).toNat 0
      (findNextBit chunk.bits (chunk.unitCount order).toNat 0) :=
    FirstFit.nextBit_stops chunk.bits true (Nat.zero_le _)
  have hupper := hstops.upper
  have hexact : chunk.firstUsed order =
      findNextBit chunk.bits (chunk.unitCount order).toNat 0 := by
    rw [GenPoolChunk.firstUsed, hsize]
    exact cInt_of_lt (by omega)
  rw [hexact]
  constructor
  · rintro ⟨hlt, -⟩
    exact ⟨_, hlt, hstops.found (by omega)⟩
  · rintro ⟨i, hi, hbit⟩
    refine ⟨?_, by omega⟩
    by_contra hnot
    exact hstops.passed i (Nat.zero_le i) (by omega) hbit

/-- Chunks are freed exactly when none of them is in use, and then all of them are. -/
theorem genPoolDestroyChunks_iff {order : Nat} (chunks : List (GenPoolChunk w))
    (hunits : ∀ chunk ∈ chunks, 0 ≤ chunk.unitCount order) (n : Nat) :
    genPoolDestroyChunks order chunks = some n ↔
      n = chunks.length ∧ ∀ chunk ∈ chunks, ¬ chunk.InUse order := by
  induction chunks generalizing n with
  | nil => simp [genPoolDestroyChunks, eq_comm]
  | cons chunk rest ih =>
      have hrest := ih fun c hc => hunits c (List.mem_cons_of_mem chunk hc)
      have hfirst := chunk.firstUsed_lt_iff order
      rw [and_iff_left (hunits chunk List.mem_cons_self)] at hfirst
      rw [genPoolDestroyChunks, List.forall_mem_cons, ← hfirst]
      split_ifs with hused
      · exact iff_of_false nofun fun h => h.2.1 hused
      · simp only [Option.map_eq_some_iff, hrest, List.length_cons, hused, not_false_iff,
          true_and]
        constructor
        · rintro ⟨m, ⟨hm, hnone⟩, rfl⟩
          exact ⟨congrArg (· + 1) hm, hnone⟩
        · rintro ⟨rfl, hnone⟩
          exact ⟨rest.length, ⟨rfl, hnone⟩, rfl⟩

variable {memlen : BitVec w}

/-- The chunk of a card's pool is in use exactly when a block is. -/
theorem PoolHolds.inUse_iff {bits : Nat → Bool} {blocks : List (MemBlock w)}
    (h : PoolHolds memlen (some (cardPool memlen bits)) blocks) :
    (cardChunk memlen bits).InUse 6 ↔ blocks ≠ [] := by
  obtain ⟨bits', hpool, hmarks⟩ := h.pool
  have hbits : bits = bits' := by
    have hchunks := congrArg GenPool.chunks (Option.some.inj hpool)
    simpa [cardPool, cardChunk] using hchunks
  subst hbits
  constructor
  · rintro ⟨i, -, hbit⟩ hnil
    obtain ⟨b, hb, -⟩ := (hmarks i).mp hbit
    rw [hnil] at hb
    cases hb
  · intro hne
    obtain ⟨b, hb⟩ := List.exists_mem_of_ne_nil blocks hne
    have hmarked := h.marked b hb
    have hunits := unitsFor_pos hmarked.size
    have hwithin := hmarked.within
    refine ⟨b.unit, ?_, (hmarks b.unit).mpr ⟨b, hb, Nat.le_refl _, by omega⟩⟩
    rw [cardChunk_unitCount]
    omega

/-- `tl880_deinit_memory` returns exactly when no block is in use. -/
theorem deinitMemory_iff {mem : CardMemory w} {blocks : List (MemBlock w)}
    (hlow : 0x11000 ≤ memlen.toNat) (hsmall : memlen.toNat < 0x2000000000)
    (h : PoolHolds memlen mem.pool blocks) (t : CardMemory w) :
    mem.tl880DeinitMemory = some t ↔ blocks = [] ∧ t = { mem with pool := none } := by
  obtain ⟨bits, hpool, -⟩ := h.pool
  have hunits : 0 ≤ (cardChunk memlen bits).unitCount 6 := by
    rw [cardChunk_unitCount, cardUnits_eq hlow hsmall]
    omega
  have hall : ∀ chunk ∈ [cardChunk memlen bits], 0 ≤ chunk.unitCount 6 := by
    simpa using hunits
  have hdestroy := genPoolDestroyChunks_iff _ hall
  rw [hpool] at h
  have hinUse := h.inUse_iff
  rw [CardMemory.tl880DeinitMemory, hpool]
  simp only [genPoolDestroy, cardPool, Option.map_eq_some_iff, hdestroy, List.forall_mem_singleton,
    hinUse, not_not]
  constructor
  · rintro ⟨n, ⟨-, hnone⟩, rfl⟩
    exact ⟨hnone, rfl⟩
  · rintro ⟨hnone, rfl⟩
    exact ⟨1, ⟨rfl, hnone⟩, rfl⟩

/-! ## Removing a card -/

/-- The register writes before it do not change what the audio code gives back. -/
theorem AudioPool.deinitDev_spec (hcard : OrdinaryCard memlen) {s : AudioPool w}
    (h : AudioPoolInv memlen s) :
    ∃ s', s.deinitDev = some s' ∧ s'.held = [] ∧ s'.memory.live = s.memory.live ∧
      AudioPoolInv memlen s' := by
  have hbase : s.audio.card.tl880DisableApu.tl880ApuStopIoc.dev.iauBase =
      s.audio.card.dev.iauBase := by
    rw [DevRegs.tl880ApuStopIoc, DevRegs.tl880ApuInitIoc, DevRegs.writeAll_dev,
      DevRegs.tl880DisableApu, DevRegs.writeAll_dev]
  obtain ⟨s', hdeinit, -, hheld, hlive, hinv⟩ := AudioPool.deinitHardwareAudio_spec hcard
    (s := { s with
      audio := { s.audio with card := s.audio.card.tl880DisableApu.tl880ApuStopIoc } })
    ⟨by rw [hbase]; exact h.held, h.overrun, h.holds⟩
  exact ⟨s', hdeinit, hheld, hlive, hinv⟩

/-- A card can be removed exactly when every user of its pool has freed what it was given,
whether or not the audio code has a buffer. -/
def RemovableWhenFreed (s : AudioPool w) : Prop :=
  ((∃ t, s.unconfigure = some t) ↔ s.memory.live = []) ∧
    ∀ t, s.unconfigure = some t → t.memory.pool = none ∧ t.held = []

theorem AudioPoolInv.removable (hcard : OrdinaryCard memlen) {s : AudioPool w}
    (h : AudioPoolInv memlen s) : RemovableWhenFreed s := by
  obtain ⟨s', hdeinit, hheld, hlive, hinv⟩ := AudioPool.deinitDev_spec hcard h
  have hiff (t : CardMemory w) : s'.memory.tl880DeinitMemory = some t ↔
      s.memory.live = [] ∧ t = { s'.memory with pool := none } := by
    rw [deinitMemory_iff hcard.low hcard.small hinv.holds, hheld, List.append_nil, ← hlive]
  have hunconfigure (t : AudioPool w) : s.unconfigure = some t ↔
      s.memory.live = [] ∧ t = { s' with memory := { s'.memory with pool := none } } := by
    simp only [AudioPool.unconfigure, hdeinit, Option.bind_eq_bind, Option.bind_some,
      Option.bind_eq_some_iff, hiff, Option.some.injEq]
    constructor
    · rintro ⟨memory, ⟨hfreed, rfl⟩, rfl⟩
      exact ⟨hfreed, rfl⟩
    · rintro ⟨hfreed, rfl⟩
      exact ⟨_, ⟨hfreed, rfl⟩, rfl⟩
  constructor
  · simp only [hunconfigure, exists_and_left, exists_eq, and_true]
  · intro t ht
    obtain ⟨-, rfl⟩ := (hunconfigure t).mp ht
    exact ⟨rfl, hheld⟩

/-- In every run of the audio code and the other users of the pool. -/
theorem cardRemoval_iff {memlen : BitVec w} (hcard : OrdinaryCard memlen) (audio : AudioCard)
    (hbase : audio.card.dev.iauBase = 0) (events : List (AudioPoolEvent w))
    (hexact : ∀ event ∈ events, ExactRequest event) :
    AllStates audioPoolStep RemovableWhenFreed (AudioPool.start memlen audio) events := by
  have hsteps : AllSteps audioPoolStep (fun _ event => ExactRequest event)
      (AudioPool.start memlen audio) events :=
    .of_forall (fun event hmem _ => hexact event hmem) _
  have hinv := allStates_of_allSteps (fun s event s' h hl hstep =>
    audioPoolStep_inv hcard h hl hstep) (AudioPool.start_inv memlen hbase) hsteps
  exact hinv.imp fun s h => h.removable hcard

/-- A card of 32 MB with an audio buffer and another user. -/
theorem cardRemoval_audio :
    AllStates audioPoolStep RemovableWhenFreed (AudioPool.start 0x2000000#64 newAudioCard)
      [.initHardwareAudio .one 1, .user (.alloc 64#64)] := by
  refine cardRemoval_iff ⟨by decide, by decide, by decide⟩ newAudioCard rfl _ ?_
  intro event hmem
  simp only [List.mem_cons, List.not_mem_nil, or_false] at hmem
  rcases hmem with rfl | rfl
  · trivial
  · show genPoolNbits 6 64#64 = unitsFor 64#64
    decide +kernel

end Tl880
