import Mathlib.Data.List.Nodup
import Tl880.Lib.LabelledRun
import Tl880.Registers

/-!
# Auxiliary DMA channels

The model of `tl880_aux_dma_allocate` and `tl880_aux_dma_free` of `driver/tl880dma.c`.  The
twelve channels 0x20 to 0x2b are the low bits of `dma_bitmask`.  A free of a number that
is no channel is reported and then carried out: the x86 takes the number of the bit
modulo 32, so the number frees the channel it is equal to modulo 32, if there is one.

`held` is the list of the channels that were handed out and not given back.  Runs hand
out every channel to one owner at a time exactly when no such number hits a held channel.
-/

namespace Tl880

open LabelledRun

/-! ## The driver -/

/-- The loop of `tl880_aux_dma_allocate` with `rounds` rounds left. -/
def auxDmaLoop (dmaBitmask : U64) : Nat → U64 → U64 → U32 × U64
  | 0, _, _ => (0, dmaBitmask)
  | rounds + 1, dma, bit =>
      if dmaBitmask &&& bit = 0 then (dma.setWidth 32, dmaBitmask ||| bit)
      else auxDmaLoop dmaBitmask rounds (dma + 1) (bit <<< 1)

/-- `tl880_aux_dma_allocate`: the channel or 0, and `dma_bitmask` afterwards. -/
def tl880AuxDmaAllocate (dmaBitmask : U64) : U32 × U64 := auxDmaLoop dmaBitmask 0xc 0x20 1

/-- `tl880_aux_dma_free`: `dma_bitmask` afterwards.  Its two checks only print. -/
def tl880AuxDmaFree (dma : U32) (dmaBitmask : U64) : U64 :=
  let dma := shiftLeft32 1 (dma - 0x20).toNat
  dmaBitmask &&& (~~~dma).setWidth 64

/-- `dma_bitmask`, and the channels that were handed out and not given back. -/
structure AuxDma where
  dmaBitmask : U64
  held : List U32

inductive DmaCall
  | allocate
  | free (dma : U32)

def dmaCall (s : AuxDma) : DmaCall → Option AuxDma
  | .allocate =>
      let (dma, dmaBitmask) := tl880AuxDmaAllocate s.dmaBitmask
      some ⟨dmaBitmask, if dma = 0 then s.held else dma :: s.held⟩
  | .free dma => some ⟨tl880AuxDmaFree dma s.dmaBitmask, s.held.erase dma⟩

/-- A number of a channel. -/
def IsChannel (dma : U32) : Prop := 0x20 ≤ dma ∧ dma ≤ 0x2b

instance (dma : U32) : Decidable (IsChannel dma) := inferInstanceAs (Decidable (_ ∧ _))

/-- The bit of `dma_bitmask` that a number stands for. -/
def dmaBit (dma : U32) : Nat := (dma - 0x20).toNat % 32

/-- The driver has the channel marked as allocated. -/
def Allocated (dmaBitmask : U64) (dma : U32) : Prop := dmaBitmask.getLsbD (dmaBit dma) = true

instance (dmaBitmask : U64) (dma : U32) : Decidable (Allocated dmaBitmask dma) :=
  inferInstanceAs (Decidable (_ = _))

/-- What a call is to do: an allocation returns a channel that nobody holds, and 0 exactly
when all are held; a free of a number that is no channel, or of one that is not held,
leaves the allocated channels as they are. -/
def DmaCallRight (s : AuxDma) : DmaCall → Prop
  | .allocate =>
      let dma := (tl880AuxDmaAllocate s.dmaBitmask).1
      (dma ≠ 0 → IsChannel dma ∧ dma ∉ s.held) ∧
        (dma = 0 ↔ ∀ channel, IsChannel channel → channel ∈ s.held)
  | .free dma =>
      ¬ IsChannel dma ∨ dma ∉ s.held →
        ∀ channel, IsChannel channel →
          (Allocated (tl880AuxDmaFree dma s.dmaBitmask) channel ↔
            Allocated s.dmaBitmask channel)

/-- A number that is freed is a channel, or stands for the bit of no held channel. -/
def DmaCallOk (s : AuxDma) : DmaCall → Prop
  | .allocate => True
  | .free dma =>
      IsChannel dma ∨ ∀ channel ∈ s.held, dmaBit channel ≠ dmaBit dma

/-! ## Channels and their bits -/

/-- The channel of a bit. -/
def channelOf (i : Nat) : U32 := 0x20 + BitVec.ofNat 32 i

theorem dmaBit_channelOf {i : Nat} (hi : i < 12) : dmaBit (channelOf i) = i := by
  have hsub : channelOf i - 0x20 = BitVec.ofNat 32 i := by
    rw [channelOf, BitVec.add_comm, BitVec.add_sub_cancel]
  rw [dmaBit, hsub, BitVec.toNat_ofNat]
  omega

theorem isChannel_channelOf {i : Nat} (hi : i < 12) : IsChannel (channelOf i) := by
  have hval : (channelOf i).toNat = 0x20 + i := by
    simp [channelOf]
    omega
  constructor
  · rw [BitVec.le_def, hval]
    exact Nat.le_add_right 0x20 i
  · rw [BitVec.le_def, hval]
    exact Nat.add_le_add_left (Nat.le_of_lt_succ hi) 0x20

/-- A channel is the channel of its bit. -/
theorem IsChannel.eq_channelOf {dma : U32} (h : IsChannel dma) :
    dmaBit dma < 12 ∧ dma = channelOf (dmaBit dma) := by
  obtain ⟨hlow, hhigh⟩ := h
  have hsub : (dma - 0x20).toNat = dma.toNat - 0x20 := BitVec.toNat_sub_of_le hlow
  have hge : 0x20 ≤ dma.toNat := hlow
  have hle : dma.toNat ≤ 0x2b := hhigh
  have hbit : dmaBit dma = dma.toNat - 0x20 := by
    rw [dmaBit, hsub]
    exact Nat.mod_eq_of_lt (by omega)
  constructor
  · omega
  · apply BitVec.eq_of_toNat_eq
    rw [hbit]
    simp [channelOf]
    omega

theorem channelOf_ne_zero {i : Nat} (hi : i < 12) : channelOf i ≠ 0 := by
  intro hzero
  have hlow := (isChannel_channelOf hi).1
  rw [hzero] at hlow
  exact absurd hlow (by decide)

/-! ## What the functions do to the bits -/

/-- A free clears the bit of the number. -/
theorem getLsbD_auxDmaFree (dma : U32) (dmaBitmask : U64) {i : Nat} (hi : i < 32) :
    (tl880AuxDmaFree dma dmaBitmask).getLsbD i =
      (dmaBitmask.getLsbD i && decide (i ≠ dmaBit dma)) := by
  unfold tl880AuxDmaFree shiftLeft32
  rw [BitVec.getLsbD_and, BitVec.getLsbD_setWidth, BitVec.getLsbD_not]
  have hone : ((1 : U32) <<< ((dma - 0x20).toNat % 32)).getLsbD i = decide (i = dmaBit dma) := by
    have hlt : dmaBit dma < 32 := Nat.mod_lt _ (by decide)
    show (1#32 <<< dmaBit dma).getLsbD i = _
    rw [← BitVec.twoPow_eq, BitVec.getLsbD_twoPow]
    simp [hlt, eq_comm]
  rw [hone]
  have h64 : i < 64 := by omega
  simp [hi, h64]

/-- The loop finds the lowest clear bit, or all are set. -/
theorem auxDmaLoop_cases (dmaBitmask : U64) (rounds c : Nat) (hrounds : c + rounds = 12)
    (hset : ∀ i < c, dmaBitmask.getLsbD i = true) :
    (∃ i < 12, dmaBitmask.getLsbD i = false ∧
      auxDmaLoop dmaBitmask rounds (0x20 + BitVec.ofNat 64 c) (BitVec.twoPow 64 c) =
        (channelOf i, dmaBitmask ||| BitVec.twoPow 64 i)) ∨
    ((∀ i < 12, dmaBitmask.getLsbD i = true) ∧
      auxDmaLoop dmaBitmask rounds (0x20 + BitVec.ofNat 64 c) (BitVec.twoPow 64 c) =
        (0, dmaBitmask)) := by
  induction rounds generalizing c with
  | zero =>
      right
      constructor
      · intro i hi
        exact hset i (by omega)
      · rfl
  | succ rounds ih =>
      have hc : c < 12 := by omega
      rw [auxDmaLoop, BitVec.and_twoPow]
      cases hbit : dmaBitmask.getLsbD c with
      | false =>
          left
          refine ⟨c, hc, hbit, ?_⟩
          have hdma : (0x20 + BitVec.ofNat 64 c : U64).setWidth 32 = channelOf c := by
            apply BitVec.eq_of_toNat_eq
            simp [channelOf]
          have hzero : 0#64 = (0 : U64) := rfl
          rw [if_neg Bool.false_ne_true, if_pos hzero, hdma]
      | true =>
          have hnonzero : BitVec.twoPow 64 c ≠ 0 := by
            intro hzero
            have hbit := congrArg (fun x => x.getLsbD c) hzero
            simp at hbit
            omega
          have hdma : (0x20 : U64) + BitVec.ofNat 64 c + 1 = 0x20 + BitVec.ofNat 64 (c + 1) := by
            rw [BitVec.add_assoc, BitVec.ofNat_add]
            rfl
          have hnext : BitVec.twoPow 64 c <<< 1 = BitVec.twoPow 64 (c + 1) := by
            rw [BitVec.twoPow_eq, BitVec.twoPow_eq, BitVec.shiftLeft_add]
          simp only [if_true, if_neg hnonzero]
          rw [hdma, hnext]
          apply ih
          · omega
          · intro i hi
            rcases Nat.lt_succ_iff_lt_or_eq.mp hi with hlt | heq
            · exact hset i hlt
            · rw [heq]
              exact hbit

/-- An allocation takes the channel of a clear bit, or all twelve bits are set. -/
theorem tl880AuxDmaAllocate_cases (dmaBitmask : U64) :
    (∃ i < 12, dmaBitmask.getLsbD i = false ∧
      tl880AuxDmaAllocate dmaBitmask = (channelOf i, dmaBitmask ||| BitVec.twoPow 64 i)) ∨
    ((∀ i < 12, dmaBitmask.getLsbD i = true) ∧
      tl880AuxDmaAllocate dmaBitmask = (0, dmaBitmask)) :=
  auxDmaLoop_cases dmaBitmask 12 0 rfl (fun i hi => absurd hi (Nat.not_lt_zero i))

/-! ## Runs -/

/-- The bits of the mask are the channels that are held. -/
structure DmaInv (s : AuxDma) : Prop where
  bits : ∀ i < 12, s.dmaBitmask.getLsbD i = true ↔ channelOf i ∈ s.held
  channels : ∀ dma ∈ s.held, IsChannel dma
  nodup : s.held.Nodup

theorem DmaInv.start : DmaInv ⟨0, []⟩ where
  bits := by
    intro i _
    simp
  channels := by
    intro dma hdma
    cases hdma
  nodup := List.nodup_nil

theorem channelOf_inj {i j : Nat} (hi : i < 12) (hj : j < 12) :
    channelOf i = channelOf j ↔ i = j := by
  constructor
  · intro heq
    rw [← dmaBit_channelOf hi, heq, dmaBit_channelOf hj]
  · intro heq
    rw [heq]

/-- The channel of a clear bit is not held. -/
theorem DmaInv.not_held {s : AuxDma} (h : DmaInv s) {i : Nat} (hi : i < 12)
    (hclear : s.dmaBitmask.getLsbD i = false) : channelOf i ∉ s.held := by
  intro hmem
  rw [(h.bits i hi).mpr hmem] at hclear
  cases hclear

/-- An allocation hands out a channel that was not held. -/
theorem DmaInv.allocate {s s' : AuxDma} (h : DmaInv s) (hstep : dmaCall s .allocate = some s') :
    DmaInv s' := by
  rcases tl880AuxDmaAllocate_cases s.dmaBitmask with ⟨i, hi, hclear, heq⟩ | ⟨-, heq⟩
  · have hnew := h.not_held hi hclear
    simp only [dmaCall, heq, if_neg (channelOf_ne_zero hi)] at hstep
    rw [← Option.some.inj hstep]
    constructor
    · intro j hj
      rw [BitVec.getLsbD_or, BitVec.getLsbD_twoPow, Bool.or_eq_true, h.bits j hj,
        List.mem_cons, channelOf_inj hj hi, or_comm]
      have h64 : i < 64 := by omega
      simp [h64, eq_comm]
    · intro dma hdma
      rcases List.mem_cons.mp hdma with heq | hheld
      · rw [heq]
        exact isChannel_channelOf hi
      · exact h.channels dma hheld
    · exact List.nodup_cons.mpr ⟨hnew, h.nodup⟩
  · simp only [dmaCall, heq, if_true] at hstep
    rw [← Option.some.inj hstep]
    exact h

/-- A free that is in order takes the channel from its holder. -/
theorem DmaInv.free {s s' : AuxDma} {dma : U32} (h : DmaInv s) (hok : DmaCallOk s (.free dma))
    (hstep : dmaCall s (.free dma) = some s') : DmaInv s' := by
  rw [← Option.some.inj hstep]
  constructor
  · intro i hi
    rw [getLsbD_auxDmaFree dma s.dmaBitmask (by omega), Bool.and_eq_true, h.bits i hi,
      h.nodup.mem_erase_iff, decide_eq_true_iff, and_comm]
    apply and_congr_left
    intro hheld
    rcases hok with hdma | hfree
    · obtain ⟨hbit, heq⟩ := hdma.eq_channelOf
      rw [← not_iff_not, not_not, not_not, heq, dmaBit_channelOf hbit, channelOf_inj hi hbit]
    · -- the number is no channel that is held
      have hne := hfree _ hheld
      rw [dmaBit_channelOf hi] at hne
      apply iff_of_true hne
      intro heq
      rw [← heq, dmaBit_channelOf hi] at hne
      exact hne rfl
  · intro channel hchannel
    exact h.channels channel (List.mem_of_mem_erase hchannel)
  · exact h.nodup.erase dma

theorem DmaInv.step {s s' : AuxDma} {call : DmaCall} (h : DmaInv s) (hok : DmaCallOk s call)
    (hstep : dmaCall s call = some s') : DmaInv s' := by
  cases call with
  | allocate => exact h.allocate hstep
  | free dma => exact h.free hok hstep

/-- An allocation always does what it is to do. -/
theorem DmaInv.allocate_right {s : AuxDma} (h : DmaInv s) : DmaCallRight s .allocate := by
  unfold DmaCallRight
  rcases tl880AuxDmaAllocate_cases s.dmaBitmask with ⟨i, hi, hclear, heq⟩ | ⟨hset, heq⟩
  · have hnew := h.not_held hi hclear
    simp only [heq]
    constructor
    · intro _
      exact ⟨isChannel_channelOf hi, hnew⟩
    · apply iff_of_false (channelOf_ne_zero hi)
      intro hall
      exact hnew (hall _ (isChannel_channelOf hi))
  · simp only [heq]
    constructor
    · intro hne
      exact absurd rfl hne
    · apply iff_of_true trivial
      intro channel hchannel
      obtain ⟨hbit, heq⟩ := hchannel.eq_channelOf
      rw [heq]
      exact (h.bits _ hbit).mp (hset _ hbit)

/-- A free does what it is to do exactly when its number is in order. -/
theorem DmaInv.free_right_iff {s : AuxDma} (h : DmaInv s) (dma : U32) :
    DmaCallOk s (.free dma) ↔ DmaCallRight s (.free dma) := by
  have hallocated : ∀ channel, IsChannel channel →
      (Allocated (tl880AuxDmaFree dma s.dmaBitmask) channel ↔
        Allocated s.dmaBitmask channel ∧ dmaBit channel ≠ dmaBit dma) := by
    intro channel _
    have hlt : dmaBit channel < 32 := Nat.mod_lt _ (by decide)
    rw [Allocated, getLsbD_auxDmaFree dma s.dmaBitmask hlt, Bool.and_eq_true, decide_eq_true_iff,
      Allocated]
  have hheld : ∀ channel, IsChannel channel →
      (Allocated s.dmaBitmask channel ↔ channel ∈ s.held) := by
    intro channel hchannel
    obtain ⟨hbit, heq⟩ := hchannel.eq_channelOf
    rw [Allocated, h.bits _ hbit, ← heq]
  constructor
  · intro hok hbad channel hchannel
    rw [hallocated channel hchannel, and_iff_left_iff_imp, hheld channel hchannel]
    intro hmem heq
    rcases hok with hdma | hfree
    · -- a channel with the bit of another one is the same
      have hsame : channel = dma := by
        rw [hchannel.eq_channelOf.2, heq, ← hdma.eq_channelOf.2]
      rcases hbad with hnot | hnot
      · exact hnot hdma
      · exact hnot (hsame ▸ hmem)
    · exact hfree channel hmem heq
  · intro hright
    by_cases hdma : IsChannel dma
    · exact Or.inl hdma
    · right
      intro channel hmem
      have hchannel := h.channels channel hmem
      have hkept := (hright (Or.inl hdma) channel hchannel).mpr ((hheld channel hchannel).mpr hmem)
      exact ((hallocated channel hchannel).mp hkept).2

theorem DmaInv.right_iff {s : AuxDma} (h : DmaInv s) (call : DmaCall) :
    DmaCallOk s call ↔ DmaCallRight s call := by
  cases call with
  | allocate => exact iff_of_true trivial h.allocate_right
  | free dma => exact h.free_right_iff dma

/-- In a run from `dma_bitmask = 0` all calls do what they are to do exactly when every
number that is freed is a channel or stands for the bit of no held channel. -/
theorem auxDmaExclusive_iff (calls : List DmaCall) :
    AllSteps dmaCall DmaCallRight ⟨0, []⟩ calls ↔ AllSteps dmaCall DmaCallOk ⟨0, []⟩ calls := by
  have hpres : ∀ (s : AuxDma) (call : DmaCall) (s' : AuxDma), DmaInv s → DmaCallOk s call →
      dmaCall s call = some s' → DmaInv s' := fun _ _ _ h hok hstep => h.step hok hstep
  exact (allSteps_congr hpres (fun _ call h => h.right_iff call) DmaInv.start calls).symm

/-- Channel 0x20 is allocated, and a free of 0x40 frees it. -/
theorem auxDmaExclusive_alias :
    ¬ ∀ calls : List DmaCall, AllSteps dmaCall DmaCallRight ⟨0, []⟩ calls := by
  intro h
  obtain ⟨-, hrest⟩ := h [.allocate, .free 0x40] ⟨1, [0x20]⟩ rfl
  obtain ⟨hfree, -⟩ := hrest _ rfl
  have hkept := hfree (Or.inl (by decide)) 0x20 (by decide)
  exact absurd (hkept.mpr (by decide)) (by decide)

end Tl880
