import Tl880.AudioSetup
import Tl880.CardMemory

/-!
# The audio buffer

`tl880_init_hardware_audio` takes a block of `0x7800` bytes from the card's pool, and
`tl880_deinit_hardware_audio` gives it back.  That the audio code has a block, and
which one, is recorded in the field `iau_base` alone.  Other users of the pool call in
between.

The model puts the audio code of `AudioSetup` on the pool of `CardMemory`.  In every
state the pool holds the blocks of the other users and the block that `iau_base` tells
of (`AudioPoolInv`), so the deinitialisation leaves the blocks of the others.  The pool
is first-fit: where these blocks are does depend on the audio code, unless they were
handed out while it had none.
-/

namespace Tl880

open AlignUp LabelledRun

variable {w : Nat}

/-- The audio code and the other users of the card's pool. -/
structure AudioPool (w : Nat) where
  audio : AudioCard
  /-- the pool, with the blocks of the other users -/
  memory : CardMemory w
  /-- the blocks the audio code was given and has not freed (not stored by the driver) -/
  held : List (MemBlock w)

/-- A call of the audio code, or of another user of the pool. -/
inductive AudioPoolEvent (w : Nat) where
  | initHardwareAudio (audioMode : AudioMode) (iecBuf : U64)
  | deinitHardwareAudio
  | user (event : MemEvent w)

/-- `tl880_init_hardware_audio` with its call of `tl880_alloc_memory`. -/
def AudioPool.initHardwareAudio (s : AudioPool w) (audioMode : AudioMode) (iecBuf : U64) :
    AudioPool w :=
  if s.audio.card.dev.iauBase = 0 then
    let (addr, pool, overrun) := tl880AllocMemory s.memory.pool 0x7800#w
    { audio := s.audio.tl880InitHardwareAudio audioMode (addr.setWidth 64) iecBuf
      memory := { s.memory with pool := pool, overrun := s.memory.overrun || overrun }
      held := if addr = 0#w then s.held else { addr := addr, size := 0x7800#w } :: s.held }
  else { s with audio := s.audio.tl880InitHardwareAudio audioMode 0 iecBuf }

/-- `tl880_deinit_hardware_audio` with its call of `tl880_free_memory`; `none` is a
`BUG_ON` of the pool. -/
def AudioPool.deinitHardwareAudio (s : AudioPool w) : Option (AudioPool w) :=
  if s.audio.card.dev.iauBase ≠ 0 then
    let addr : BitVec w := s.audio.card.dev.iauBase.setWidth w
    (tl880FreeMemory s.memory.pool addr 0x7800#w).map fun (pool, overrun) =>
      { audio := s.audio.tl880DeinitHardwareAudio
        memory := { s.memory with pool := pool, overrun := s.memory.overrun || overrun }
        held := s.held.erase { addr := addr, size := 0x7800#w } }
  else some { s with audio := s.audio.tl880DeinitHardwareAudio }

def audioPoolStep (s : AudioPool w) : AudioPoolEvent w → Option (AudioPool w)
  | .initHardwareAudio audioMode iecBuf => some (s.initHardwareAudio audioMode iecBuf)
  | .deinitHardwareAudio => s.deinitHardwareAudio
  | .user event => (memStep s.memory event).map fun memory => { s with memory := memory }

/-- The pool after `tl880_init_memory`, with a card that has no audio buffer. -/
def AudioPool.start (memlen : BitVec w) (audio : AudioCard) : AudioPool w :=
  { audio := audio, memory := CardMemory.start memlen true true, held := [] }

/-- What `iau_base` says about the audio buffer. -/
def iauBlocks (w : Nat) (iauBase : U32) : List (MemBlock w) :=
  if iauBase = 0 then [] else [{ addr := iauBase.setWidth w, size := 0x7800#w }]

/-- The blocks in use are those of the other users and the one that `iau_base` tells of.
A deinitialisation returns and leaves the blocks of the other users in use. -/
structure AudioPoolGood (memlen : BitVec w) (s : AudioPool w) : Prop where
  held : s.held = iauBlocks w s.audio.card.dev.iauBase
  exclusive : (s.memory.live ++ s.held).Pairwise MemBlock.Disjoint
  overrun : s.memory.overrun = false
  units : ∃ bits, s.memory.pool = some (cardPool memlen bits) ∧
    MarksUnits bits (s.memory.live ++ s.held)
  deinit : ∃ s', s.deinitHardwareAudio = some s' ∧ s'.audio.card.dev.iauBase = 0 ∧
    s'.held = [] ∧ s'.memory.live = s.memory.live ∧
    ∃ bits, s'.memory.pool = some (cardPool memlen bits) ∧ MarksUnits bits s.memory.live

/-- The calls of the other users. -/
def userEvent : AudioPoolEvent w → Option (MemEvent w)
  | .user event => some event
  | .initHardwareAudio _ _ => none
  | .deinitHardwareAudio => none

/-- No other user asks for memory while the audio code has a block. -/
def AllocatesWithoutAudio (s : AudioPool w) : AudioPoolEvent w → Prop
  | .user (.alloc _) => s.audio.card.dev.iauBase = 0
  | .user (.free _ _) => True
  | .initHardwareAudio _ _ => True
  | .deinitHardwareAudio => True

/-- The `int` that counts the units of a request has the right value. -/
def ExactRequest : AudioPoolEvent w → Prop
  | .user (.alloc bytes) => genPoolNbits 6 bytes = unitsFor bytes
  | .user (.free _ _) => True
  | .initHardwareAudio _ _ => True
  | .deinitHardwareAudio => True

/-! ## `iau_base` -/

namespace AudioCard

variable (s : AudioCard)

theorem apuInitIauReg_iauBase :
    s.tl880ApuInitIauReg.card.dev.iauBase = s.card.dev.iauBase := by
  unfold tl880ApuInitIauReg
  cases s.card.dev.audioMode <;> simp [writeIauRegs, DevRegs.writeIau_dev, DevRegs.setIauRegs,
    DevRegs.setDev]

theorem initAudioBuffer_iauBase (iecBuf : U64) :
    (s.initAudioBuffer iecBuf).card.dev.iauBase = s.card.dev.iauBase := by
  have hclock : (s.initAudioBuffer iecBuf).card.dev.iauBase = (tl880ApuInitIauReg
      { s with card := (s.card.allocIecBuf iecBuf).tl880ApuInitIoc }).card.dev.iauBase := rfl
  rw [hclock, apuInitIauReg_iauBase, DevRegs.apuInitIoc_dev]
  unfold DevRegs.allocIecBuf
  split_ifs <;> rfl

/-- The initialisation asks for memory if there is no buffer. -/
theorem initHardwareAudio_iauBase (audioMode : AudioMode) (allocated iecBuf : U64) :
    (s.tl880InitHardwareAudio audioMode allocated iecBuf).card.dev.iauBase =
      if s.card.dev.iauBase = 0 then allocated.setWidth 32 else s.card.dev.iauBase := by
  unfold tl880InitHardwareAudio
  dsimp only
  split_ifs
  · rfl
  · rw [initAudioBuffer_iauBase]
    rfl
  · rw [initAudioBuffer_iauBase]
    rfl

end AudioCard

/-! ## The invariant -/

/-- The pool holds the blocks of the other users and the block that `iau_base` tells
of. -/
structure AudioPoolInv (memlen : BitVec w) (s : AudioPool w) : Prop where
  held : s.held = iauBlocks w s.audio.card.dev.iauBase
  overrun : s.memory.overrun = false
  holds : PoolHolds memlen s.memory.pool (s.memory.live ++ s.held)

@[simp] theorem iauBlocks_zero : iauBlocks w 0 = [] := rfl

theorem AudioPool.start_inv (memlen : BitVec w) {audio : AudioCard}
    (hbase : audio.card.dev.iauBase = 0) : AudioPoolInv memlen (AudioPool.start memlen audio) := by
  constructor
  · rw [AudioPool.start, hbase]
    rfl
  · rfl
  · exact PoolHolds.init memlen

/-- A card of ordinary size: the size of the chunk does not wrap, and the `u32` in
`iau_base` can hold each address of the pool. -/
structure OrdinaryCard (memlen : BitVec w) : Prop where
  width : 32 ≤ w
  low : 0x11000 ≤ memlen.toNat
  high : memlen.toNat + 0xef000 < 2 ^ 32

section Steps

variable {memlen : BitVec w} (hcard : OrdinaryCard memlen)
include hcard

theorem OrdinaryCard.space : 2 ^ 32 ≤ 2 ^ w := Nat.pow_le_pow_right (by decide) hcard.width

theorem OrdinaryCard.wrap : memlen.toNat + 0xef000 < 2 ^ w :=
  Nat.lt_of_lt_of_le hcard.high hcard.space

theorem OrdinaryCard.small : memlen.toNat < 0x2000000000 := by
  have hhigh := hcard.high
  omega

theorem OrdinaryCard.iauExact : genPoolNbits 6 0x7800#w = unitsFor 0x7800#w := by
  have hspace := hcard.space
  have hbytes : (0x7800#w).toNat = 0x7800 := toNat_word (by omega)
  exact genPoolNbits_exact (by omega) (by omega) (by omega)

/-- `iau_base` holds the address of the buffer. -/
theorem OrdinaryCard.iauBlocks_of_addr {addr : BitVec w} (hne : addr ≠ 0#w)
    (hlt : addr.toNat < memlen.toNat + 0xef000) :
    iauBlocks w ((addr.setWidth 64).setWidth 32) = [{ addr := addr, size := 0x7800#w }] := by
  have hspace := hcard.space
  have hhigh := hcard.high
  have hnat : ((addr.setWidth 64).setWidth 32 : U32).toNat = addr.toNat := by
    rw [BitVec.toNat_setWidth, BitVec.toNat_setWidth, Nat.mod_eq_of_lt (by omega)]
    exact Nat.mod_eq_of_lt (by omega)
  have hbase : ((addr.setWidth 64).setWidth 32 : U32) ≠ 0 := by
    intro hzero
    rw [hzero] at hnat
    exact hne (BitVec.eq_of_toNat_eq (by simpa using hnat.symm))
  have haddr : ((addr.setWidth 64).setWidth 32 : U32).setWidth w = addr := by
    apply BitVec.eq_of_toNat_eq
    rw [BitVec.toNat_setWidth, hnat]
    exact Nat.mod_eq_of_lt addr.isLt
  rw [iauBlocks, if_neg hbase, haddr]

/-- A call of another user keeps what the pool holds besides its blocks. -/
theorem memStep_holds {mem mem' : CardMemory w} {event : MemEvent w} {rest : List (MemBlock w)}
    (hover : mem.overrun = false) (hholds : PoolHolds memlen mem.pool (mem.live ++ rest))
    (hexact : ExactRequest (.user event)) (hstep : memStep mem event = some mem') :
    PoolHolds memlen mem'.pool (mem'.live ++ rest) ∧ mem'.overrun = false := by
  cases event with
  | alloc bytes =>
      rcases hholds.request hcard.low hcard.small hcard.wrap hexact with
        heq | ⟨addr, pool', hne, -, heq, hholds'⟩
      · simp only [memStep, heq, if_true, hover, Bool.or_false] at hstep
        cases hstep
        exact ⟨hholds, rfl⟩
      · simp only [memStep, heq, if_neg hne, hover, Bool.or_false] at hstep
        cases hstep
        exact ⟨hholds', rfl⟩
  | free addr bytes =>
      rw [memStep] at hstep
      split_ifs at hstep with hlive
      obtain ⟨pool', hfree, hholds'⟩ := hholds.release hcard.low hcard.small hcard.wrap
        (List.mem_append_left rest hlive)
      rw [List.erase_append_left rest hlive] at hholds'
      simp only [hfree, Option.map_some, hover, Bool.or_false] at hstep
      cases hstep
      exact ⟨hholds', rfl⟩

/-- The initialisation takes a block if `iau_base` is 0 and there is one. -/
theorem AudioPool.initHardwareAudio_inv {s : AudioPool w} (h : AudioPoolInv memlen s)
    (audioMode : AudioMode) (iecBuf : U64) :
    AudioPoolInv memlen (s.initHardwareAudio audioMode iecBuf) := by
  obtain ⟨hheld, hover, hholds⟩ := h
  unfold AudioPool.initHardwareAudio
  by_cases hbase : s.audio.card.dev.iauBase = 0
  swap
  · -- a second initialisation goes on with the old block
    rw [if_neg hbase]
    refine ⟨?_, hover, hholds⟩
    rw [AudioCard.initHardwareAudio_iauBase, if_neg hbase]
    exact hheld
  rw [hbase, iauBlocks_zero] at hheld
  rw [if_pos hbase]
  rw [hheld] at hholds ⊢
  rcases hholds.request hcard.low hcard.small hcard.wrap hcard.iauExact with
    heq | ⟨addr, pool', hne, hlt, heq, hholds'⟩
  · simp only [heq, if_true]
    constructor
    · simp only [AudioCard.initHardwareAudio_iauBase, if_pos hbase, BitVec.setWidth_zero]
      rfl
    · exact (Bool.or_false _).trans hover
    · exact hholds
  · simp only [heq, if_neg hne]
    constructor
    · simp only [AudioCard.initHardwareAudio_iauBase, if_pos hbase]
      exact (hcard.iauBlocks_of_addr hne hlt).symm
    · exact (Bool.or_false _).trans hover
    · apply hholds'.perm
      simp only [List.append_nil]
      exact (List.perm_append_singleton _ _).symm

/-- The deinitialisation gives the block back that the initialisation took. -/
theorem AudioPool.deinitHardwareAudio_spec {s : AudioPool w} (h : AudioPoolInv memlen s) :
    ∃ s', s.deinitHardwareAudio = some s' ∧ s'.audio.card.dev.iauBase = 0 ∧ s'.held = [] ∧
      s'.memory.live = s.memory.live ∧ AudioPoolInv memlen s' := by
  obtain ⟨hheld, hover, hholds⟩ := h
  unfold AudioPool.deinitHardwareAudio
  by_cases hbase : s.audio.card.dev.iauBase = 0
  · rw [hbase, iauBlocks_zero] at hheld
    simp only [ne_eq, hbase, not_true, if_false]
    exact ⟨_, rfl, rfl, hheld, rfl, hheld, hover, hholds⟩
  rw [iauBlocks, if_neg hbase] at hheld
  rw [hheld] at hholds
  obtain ⟨pool', hfree, hholds'⟩ := hholds.release hcard.low hcard.small hcard.wrap
    (List.mem_append_right _ (List.mem_singleton_self _))
  have hnew : { addr := s.audio.card.dev.iauBase.setWidth w, size := 0x7800#w } ∉
      s.memory.live := by
    intro hlive
    exact List.disjoint_of_nodup_append hholds.nodup hlive (List.mem_singleton_self _)
  rw [List.erase_append_right _ hnew, List.erase_cons_head] at hholds'
  simp only [ne_eq, hbase, not_false_eq_true, if_true, hfree, hheld, Option.map_some,
    List.erase_cons_head]
  exact ⟨_, rfl, rfl, rfl, rfl, rfl, (Bool.or_false _).trans hover, hholds'⟩

/-- Each call keeps the invariant. -/
theorem audioPoolStep_inv {s s' : AudioPool w} {event : AudioPoolEvent w}
    (h : AudioPoolInv memlen s) (hexact : ExactRequest event)
    (hstep : audioPoolStep s event = some s') : AudioPoolInv memlen s' := by
  cases event with
  | initHardwareAudio audioMode iecBuf =>
      rw [← Option.some.inj hstep]
      exact AudioPool.initHardwareAudio_inv hcard h audioMode iecBuf
  | deinitHardwareAudio =>
      obtain ⟨t, ht, -, -, -, hinv⟩ := AudioPool.deinitHardwareAudio_spec hcard h
      cases ht.symm.trans hstep
      exact hinv
  | user event =>
      obtain ⟨memory, hmem, rfl⟩ := Option.map_eq_some_iff.mp hstep
      obtain ⟨hholds, hover⟩ := memStep_holds hcard h.overrun h.holds hexact hmem
      exact ⟨h.held, hover, hholds⟩

theorem AudioPoolInv.good {s : AudioPool w} (h : AudioPoolInv memlen s) :
    AudioPoolGood memlen s := by
  obtain ⟨s', hstep, hbase, hheld, hlive, hinv⟩ := AudioPool.deinitHardwareAudio_spec hcard h
  have hunits := hinv.holds.pool
  rw [hheld, hlive, List.append_nil] at hunits
  exact ⟨h.held, h.holds.exclusive, h.overrun, h.holds.pool,
    s', hstep, hbase, hheld, hlive, hunits⟩

end Steps

/-! ## The pool without the audio code -/

/-- A pool that has served the other users only, beside one that has served the audio code
too.  The same blocks are live. -/
structure WithoutAudio (memlen : BitVec w) (s : AudioPool w) (mem : CardMemory w) : Prop where
  inv : AudioPoolInv memlen s
  live : mem.live = s.memory.live
  overrun : mem.overrun = false
  holds : PoolHolds memlen mem.pool (mem.live ++ [])

section Without

variable {memlen : BitVec w} {s s' : AudioPool w} {mem : CardMemory w}

/-- While the audio code has no block, the two pools are the same. -/
theorem WithoutAudio.eq (h : WithoutAudio memlen s mem)
    (hbase : s.audio.card.dev.iauBase = 0) : mem = s.memory := by
  have hholds := h.inv.holds
  rw [h.inv.held, hbase, iauBlocks_zero, ← h.live] at hholds
  have hpool := h.holds.unique hholds
  have hover := h.overrun.trans h.inv.overrun.symm
  have hlive := h.live
  obtain ⟨pool, live, overrun⟩ := mem
  cases hpool
  cases hlive
  cases hover
  rfl

/-- The calls of the audio code leave the blocks of the other users alone. -/
theorem WithoutAudio.audio {event : AudioPoolEvent w} (hcard : OrdinaryCard memlen)
    (h : WithoutAudio memlen s mem) (hexact : ExactRequest event)
    (hstep : audioPoolStep s event = some s') (hunseen : userEvent event = none) :
    WithoutAudio memlen s' mem := by
  have hlive : s'.memory.live = s.memory.live := by
    cases event with
    | initHardwareAudio audioMode iecBuf =>
        rw [← Option.some.inj hstep]
        unfold AudioPool.initHardwareAudio
        split_ifs <;> rfl
    | deinitHardwareAudio =>
        obtain ⟨t, ht, -, -, hlive, -⟩ := AudioPool.deinitHardwareAudio_spec hcard h.inv
        cases ht.symm.trans hstep
        exact hlive
    | user event => cases hunseen
  have hinv := audioPoolStep_inv hcard h.inv hexact hstep
  exact ⟨hinv, h.live.trans hlive.symm, h.overrun, h.holds⟩

/-- The pool without the audio code keeps up with the calls of the other users. -/
theorem WithoutAudio.user {event : MemEvent w} (hcard : OrdinaryCard memlen)
    (h : WithoutAudio memlen s mem) (hexact : ExactRequest (.user event))
    (hfree : AllocatesWithoutAudio s (.user event))
    (hstep : audioPoolStep s (.user event) = some s') :
    ∃ mem', memStep mem event = some mem' ∧ WithoutAudio memlen s' mem' := by
  have hinv := audioPoolStep_inv hcard h.inv hexact hstep
  obtain ⟨memory, hmem, rfl⟩ := Option.map_eq_some_iff.mp hstep
  have hlive : ∃ mem', memStep mem event = some mem' ∧ mem'.live = memory.live := by
    cases event with
    | alloc bytes =>
        rw [h.eq hfree]
        exact ⟨memory, hmem, rfl⟩
    | free addr bytes =>
        rw [memStep] at hmem ⊢
        rw [h.live]
        split_ifs at hmem ⊢ with hmember
        rw [← h.live] at hmember
        obtain ⟨pool', hrelease, -⟩ := h.holds.release hcard.low hcard.small hcard.wrap
          (List.mem_append_left [] hmember)
        obtain ⟨result, -, rfl⟩ := Option.map_eq_some_iff.mp hmem
        rw [hrelease]
        exact ⟨_, rfl, rfl⟩
  obtain ⟨mem', hmem', hlive⟩ := hlive
  obtain ⟨hholds, hover⟩ := memStep_holds hcard h.overrun h.holds hexact hmem'
  exact ⟨mem', hmem', hinv, hlive, hover, hholds⟩

end Without

/-- The pool after a run is the one the other users' calls lead to without the audio code,
if the audio code has no block at the end and none of the others' was handed out while it
had one. -/
theorem run_withoutAudio {memlen : BitVec w} (hcard : OrdinaryCard memlen) {audio : AudioCard}
    (hbase : audio.card.dev.iauBase = 0) {events : List (AudioPoolEvent w)}
    (hok : AllSteps audioPoolStep
      (fun s event => ExactRequest event ∧ AllocatesWithoutAudio s event)
      (AudioPool.start memlen audio) events)
    {s : AudioPool w} (hrun : run audioPoolStep (AudioPool.start memlen audio) events = some s)
    (hend : s.audio.card.dev.iauBase = 0) :
    run memStep (CardMemory.start memlen true true) (events.filterMap userEvent) =
      some s.memory := by
  have hinv := AudioPool.start_inv memlen hbase
  have hstart : WithoutAudio memlen (AudioPool.start memlen audio)
      (CardMemory.start memlen true true) := ⟨hinv, rfl, rfl, hinv.holds⟩
  have hwithout : ∃ mem, run memStep (CardMemory.start memlen true true)
      (events.filterMap userEvent) = some mem ∧ WithoutAudio memlen s mem := by
    apply run_filterMap userEvent _ _ hstart hok hrun
    · intro s mem event s' h hl hstep hunseen
      exact h.audio hcard hl.1 hstep hunseen
    · intro s mem event s' k h hl hstep hseen
      cases event with
      | user event =>
          cases hseen
          exact h.user hcard hl.1 hl.2 hstep
      | initHardwareAudio audioMode iecBuf => cases hseen
      | deinitHardwareAudio => cases hseen
  obtain ⟨mem, hmem, hwithout⟩ := hwithout
  rw [hmem, hwithout.eq hend]

/-- The audio buffer is neither leaked nor freed twice.  In every state of a run the blocks
in use are those of the other users and the one of `iau_base`, a deinitialisation returns,
and it leaves the blocks of the others.  The pool is then as if the audio code had never
allocated, provided no other user asks for memory while the audio code has a block. -/
theorem audioBuffer_owned {memlen : BitVec w} (hcard : OrdinaryCard memlen) (audio : AudioCard)
    (hbase : audio.card.dev.iauBase = 0) (events : List (AudioPoolEvent w))
    (hexact : ∀ event ∈ events, ExactRequest event) :
    AllStates audioPoolStep (AudioPoolGood memlen) (AudioPool.start memlen audio) events ∧
    (AllSteps audioPoolStep AllocatesWithoutAudio (AudioPool.start memlen audio) events →
      ∀ s, run audioPoolStep (AudioPool.start memlen audio) events = some s →
        s.audio.card.dev.iauBase = 0 →
        run memStep (CardMemory.start memlen true true) (events.filterMap userEvent) =
          some s.memory) := by
  have hsteps : AllSteps audioPoolStep (fun _ event => ExactRequest event)
      (AudioPool.start memlen audio) events :=
    .of_forall (fun event hmem _ => hexact event hmem) _
  constructor
  · have hinv := allStates_of_allSteps (fun s event s' h hl hstep =>
      audioPoolStep_inv hcard h hl hstep) (AudioPool.start_inv memlen hbase) hsteps
    exact hinv.imp fun s h => h.good hcard
  · intro hfree s hrun hend
    exact run_withoutAudio hcard hbase (hsteps.and hfree) hrun hend

/-- A new card. -/
def newAudioCard : AudioCard :=
  createdCard 240 default ⟨true, fun _ => 0⟩ ⟨true, 0, fun _ => 0, []⟩ (fun _ => 0)

/-- A user of a 32 MB card is served, and then the audio code takes its buffer once and
gives it back once. -/
theorem audioBuffer_owned_twice :
    let events : List (AudioPoolEvent 64) := [.user (.alloc 64#64), .initHardwareAudio .zero 1,
      .initHardwareAudio .one 1, .deinitHardwareAudio, .deinitHardwareAudio]
    AllStates audioPoolStep (AudioPoolGood 0x2000000#64)
        (AudioPool.start 0x2000000#64 newAudioCard) events ∧
      ∃ s, run audioPoolStep (AudioPool.start 0x2000000#64 newAudioCard) events = some s ∧
        run memStep (CardMemory.start 0x2000000#64 true true) [.alloc 64#64] =
          some s.memory := by
  intro events
  have hcard : OrdinaryCard 0x2000000#64 := ⟨by decide, by decide, by decide⟩
  have hexact : ∀ event ∈ events, ExactRequest event := by
    intro event hmem
    simp only [events, List.mem_cons, List.not_mem_nil, or_false] at hmem
    rcases hmem with rfl | rfl | rfl | rfl | rfl
    · show genPoolNbits 6 64#64 = unitsFor 64#64
      decide +kernel
    all_goals trivial
  obtain ⟨hgood, hwithout⟩ := audioBuffer_owned hcard newAudioCard rfl events hexact
  have hend : (run audioPoolStep (AudioPool.start 0x2000000#64 newAudioCard) events).map
      (fun s => s.audio.card.dev.iauBase) = some 0 := by
    decide +kernel
  obtain ⟨s, hrun, hbase⟩ := Option.map_eq_some_iff.mp hend
  refine ⟨hgood, s, hrun, hwithout ?_ s hrun hbase⟩
  intro s' _
  refine ⟨rfl, ?_⟩
  apply AllSteps.of_forall
  intro event hmem t
  simp only [List.mem_cons, List.not_mem_nil, or_false] at hmem
  rcases hmem with rfl | rfl | rfl | rfl <;> trivial

/-- With the audio code a block lies behind its buffer, and without it at the start of the
pool. -/
theorem audioBuffer_moves_others : ¬ ∀ (events : List (AudioPoolEvent 64)) (s : AudioPool 64)
    (mem : CardMemory 64), (∀ event ∈ events, ExactRequest event) →
    run audioPoolStep (AudioPool.start 0x2000000#64 newAudioCard)
        (events ++ [.deinitHardwareAudio]) = some s →
    run memStep (CardMemory.start 0x2000000#64 true true) (events.filterMap userEvent) =
        some mem →
    s.memory.pool = mem.pool := by
  intro h
  let events : List (AudioPoolEvent 64) := [.initHardwareAudio .zero 1, .user (.alloc 64#64)]
  have hexact : ∀ event ∈ events, ExactRequest event := by
    intro event hmem
    simp only [events, List.mem_cons, List.not_mem_nil, or_false] at hmem
    rcases hmem with rfl | rfl
    · trivial
    · show genPoolNbits 6 64#64 = unitsFor 64#64
      decide +kernel
  have haudio : (run audioPoolStep (AudioPool.start 0x2000000#64 newAudioCard)
      (events ++ [.deinitHardwareAudio])).map
        (fun s => s.memory.pool.map fun p => p.chunks.map fun chunk => chunk.bits 0) =
      some (some [false]) := by
    decide +kernel
  have hplain : (run memStep (CardMemory.start 0x2000000#64 true true)
      (events.filterMap userEvent)).map
        (fun mem => mem.pool.map fun p => p.chunks.map fun chunk => chunk.bits 0) =
      some (some [true]) := by
    decide +kernel
  obtain ⟨s, hrun, hfree⟩ := Option.map_eq_some_iff.mp haudio
  obtain ⟨mem, hmem, hused⟩ := Option.map_eq_some_iff.mp hplain
  rw [h events s mem hexact hrun hmem, hused] at hfree
  cases hfree

end Tl880
