import Tl880.Lib.Patch
import Tl880.AudioSetup

/-!
# Cross fading

Sequences of `tl880_audio_set_crossfade` calls of `driver/tl880audio.c`.  The nine registers
from 0x305c to 0x307c are eighteen half-words, and a call sets three of them, the ones that
belong to its arguments `a` and `b`.  Seen through the half-words of all registers a call is
a patch, and the patches of calls with different `(a, b)` have no place in common.
-/

namespace Tl880

open Patch

/-! ## Calls and half-words -/

/-- The arguments of a call. -/
structure CrossfadeCall where
  a : Int
  b : Int
  c : U8
  d : U8
  e : U8
  f : U8
  g : U8
  h : U8

def crossfadeCall (card : DevRegs) (call : CrossfadeCall) : DevRegs :=
  card.tl880AudioSetCrossfade call.a call.b call.c call.d call.e call.f call.g call.h

/-- The byte pairs of a call, one for each register of its group. -/
def CrossfadeCall.pair (call : CrossfadeCall) : Fin 3 → U16
  | 0 => call.d ++ call.c
  | 1 => call.f ++ call.e
  | 2 => call.h ++ call.g

/-- The `k`-th register of the group `a`. -/
def crossfadeRegister (a k : Fin 3) : U32 := 0x305c + 12 * BitVec.ofNat 32 a + 4 * BitVec.ofNat 32 k

/-- The lower or the upper half of a register. -/
def halfWord (card : DevRegs) (cell : U32 × Fin 2) : U16 :=
  (tl880ReadRegister card.regs cell.1).extractLsb' (16 * cell.2) 16

/-- The last call with the arguments `(a, b)`. -/
def lastOwner (calls : List CrossfadeCall) (a : Fin 3) (b : Fin 2) : Option CrossfadeCall :=
  calls.reverse.find? fun call => decide (call.a = a.val ∧ call.b = b.val)

/-! ## Words -/

theorem getLsbD_lowHalf {i : Nat} (hi : i < 32) : (0xffff#32).getLsbD i = decide (i < 16) := by
  have hbits : ∀ j < 32, (0xffff#32).getLsbD j = decide (j < 16) := by decide
  exact hbits i hi

theorem getLsbD_highHalf {i : Nat} (hi : i < 32) :
    (0xffff0000#32).getLsbD i = decide (16 ≤ i) := by
  have hbits : ∀ j < 32, (0xffff0000#32).getLsbD j = decide (16 ≤ j) := by decide
  exact hbits i hi

/-- The bits of a word with one half replaced. -/
theorem getLsbD_crossfadeWord (value : U32) (b : Int) (high low : U8) {i : Nat} (hi : i < 32) :
    (crossfadeWord value b high low).getLsbD i =
      if b = 0 then if i < 16 then (high ++ low).getLsbD i else value.getLsbD i
      else if i < 16 then value.getLsbD i else (high ++ low).getLsbD (i - 16) := by
  have hpast : ∀ (x : U8) (j : Nat), 8 ≤ j → x.getLsbD j = false :=
    fun x j hj => BitVec.getLsbD_of_ge x j hj
  have hlower := getLsbD_lowHalf hi
  have hupper := getLsbD_highHalf hi
  have hword : crossfadeWord value b high low =
      if b = 0 then
        (value &&& 0xffff0000#32) ||| (high.setWidth 32 <<< 8) ||| low.setWidth 32
      else (high.setWidth 32 <<< 24) ||| (low.setWidth 32 <<< 16) ||| (value &&& 0xffff#32) := rfl
  rw [hword]
  split_ifs with hb h16 h16
  · have hnot : ¬ 16 ≤ i := by omega
    simp only [BitVec.getLsbD_or, BitVec.getLsbD_and, BitVec.getLsbD_shiftLeft,
      BitVec.getLsbD_setWidth, BitVec.getLsbD_append, hupper, hi, hnot]
    by_cases h8 : i < 8
    · simp [h8]
    · have hlow : low.getLsbD i = false := hpast low i (by omega)
      have hshift : i - 8 < 32 := by omega
      simp [h8, hlow, hshift]
  · have hge : 16 ≤ i := by omega
    have h8 : ¬ i < 8 := by omega
    have hlow : low.getLsbD i = false := hpast low i (by omega)
    have hhigh : high.getLsbD (i - 8) = false := hpast high _ (by omega)
    simp only [BitVec.getLsbD_or, BitVec.getLsbD_and, BitVec.getLsbD_shiftLeft,
      BitVec.getLsbD_setWidth, hupper, hi, hge, hlow, hhigh]
    simp
  · have h24 : i < 24 := by omega
    simp only [BitVec.getLsbD_or, BitVec.getLsbD_and, BitVec.getLsbD_shiftLeft,
      BitVec.getLsbD_setWidth, hlower, hi, h16, h24]
    simp
  · simp only [BitVec.getLsbD_or, BitVec.getLsbD_and, BitVec.getLsbD_shiftLeft,
      BitVec.getLsbD_setWidth, BitVec.getLsbD_append, hlower, hi, h16]
    by_cases h24 : i < 24
    · have h8 : i - 16 < 8 := by omega
      have hshift : i - 16 < 32 := by omega
      simp [h24, h8, hshift]
    · have h8 : ¬ i - 16 < 8 := by omega
      have hlow : low.getLsbD (i - 16) = false := hpast low _ (by omega)
      have hplace : i - 16 - 8 = i - 24 := by omega
      have hshift : i - 24 < 32 := by omega
      simp [h24, h8, hlow, hplace, hshift]

/-- A half of the word: the lower one is replaced for `b = 0`, and the upper one for
`b = 1`. -/
theorem crossfadeWord_half (value : U32) {b : Int} (hb : b = 0 ∨ b = 1) (high low : U8)
    (half : Fin 2) :
    (crossfadeWord value b high low).extractLsb' (16 * half) 16 =
      if b = half.val then high ++ low else value.extractLsb' (16 * half) 16 := by
  apply BitVec.eq_of_getLsbD_eq
  intro i hi
  have hhalf : 16 * half.val + i < 32 := by omega
  rw [BitVec.getLsbD_extractLsb', getLsbD_crossfadeWord _ _ _ _ hhalf]
  have hupper : ¬ 16 + i < 16 := by omega
  obtain rfl | rfl : half = 0 ∨ half = 1 := by omega
  · rcases hb with rfl | rfl <;> simp [hi]
  · rcases hb with rfl | rfl <;> simp [hi, hupper]

/-! ## Calls as patches -/

/-- The half-words that a call sets. -/
def crossfadePatch (call : CrossfadeCall) : Patch (U32 × Fin 2) U16 := fun cell =>
  if call.b = cell.2.val then
    match crossfadeRegs call.a with
    | none => none
    | some (r0, r1, r2) =>
        if cell.1 = r0 then some (call.pair 0)
        else if cell.1 = r1 then some (call.pair 1)
        else if cell.1 = r2 then some (call.pair 2)
        else none
  else none

/-- The three registers of a group are different registers. -/
theorem crossfadeRegs_distinct {a : Int} {r0 r1 r2 : U32}
    (h : crossfadeRegs a = some (r0, r1, r2)) :
    (r0 < 0x100000#32 ∧ r1 < 0x100000#32 ∧ r2 < 0x100000#32) ∧ r0 ≠ r1 ∧ r0 ≠ r2 ∧ r1 ≠ r2 := by
  unfold crossfadeRegs at h
  split_ifs at h <;> cases h <;> decide

/-- What registers hold after three writes to different registers. -/
theorem read_writeAll_three {card : DevRegs} (hmapped : card.regs.mapped = true)
    {r0 r1 r2 : U32} (hvalid : r0 < 0x100000#32 ∧ r1 < 0x100000#32 ∧ r2 < 0x100000#32)
    (hne : r0 ≠ r1 ∧ r0 ≠ r2 ∧ r1 ≠ r2) (v0 v1 v2 reg : U32) :
    tl880ReadRegister (card.writeAll [(r0, v0), (r1, v1), (r2, v2)]).regs reg =
      if reg = r0 then v0 else if reg = r1 then v1 else if reg = r2 then v2
      else tl880ReadRegister card.regs reg := by
  obtain ⟨hvalid0, hvalid1, hvalid2⟩ := hvalid
  obtain ⟨hne01, hne02, hne12⟩ := hne
  show tl880ReadRegister (tl880WriteRegister (tl880WriteRegister (tl880WriteRegister card.regs
    r0 v0) r1 v1) r2 v2) reg = _
  split_ifs with h0 h1 h2
  · rw [h0, tl880ReadRegister_write_ne _ hne02, tl880ReadRegister_write_ne _ hne01,
      tl880ReadRegister_write_self hmapped hvalid0]
  · rw [h1, tl880ReadRegister_write_ne _ hne12,
      tl880ReadRegister_write_self (by simpa using hmapped) hvalid1]
  · rw [h2, tl880ReadRegister_write_self (by simpa using hmapped) hvalid2]
  · rw [tl880ReadRegister_write_ne _ h2, tl880ReadRegister_write_ne _ h1,
      tl880ReadRegister_write_ne _ h0]

@[simp] theorem writeAll_mapped (card : DevRegs) (ws : List (U32 × U32)) :
    (card.writeAll ws).regs.mapped = card.regs.mapped := by
  induction ws generalizing card with
  | nil => rfl
  | cons w ws ih =>
      show ((card.write w.1 w.2).writeAll ws).regs.mapped = _
      rw [ih]
      exact tl880WriteRegister_mapped _ _ _

@[simp] theorem crossfadeCall_mapped (card : DevRegs) (call : CrossfadeCall) :
    (crossfadeCall card call).regs.mapped = card.regs.mapped := by
  unfold crossfadeCall DevRegs.tl880AudioSetCrossfade
  cases crossfadeRegs call.a with
  | none => rfl
  | some regs =>
      dsimp only
      split_ifs <;> simp

/-- A call that owns no cells writes nothing. -/
theorem crossfadeCall_other (card : DevRegs) {call : CrossfadeCall}
    (hother : ¬ ((call.a = 0 ∨ call.a = 1 ∨ call.a = 2) ∧ (call.b = 0 ∨ call.b = 1))) :
    crossfadeCall card call = card := by
  unfold crossfadeCall DevRegs.tl880AudioSetCrossfade
  cases hregs : crossfadeRegs call.a with
  | none => rfl
  | some regs =>
      have hb : ¬ (call.b = 0 ∨ call.b = 1) := by
        intro hb
        apply hother
        refine ⟨?_, hb⟩
        unfold crossfadeRegs at hregs
        split_ifs at hregs with h0 h1 h2
        · exact Or.inl h0
        · exact Or.inr (Or.inl h1)
        · exact Or.inr (Or.inr h2)
      exact if_neg hb

/-- A register of the group, where one half is set and the other one stays. -/
theorem crossfadeWord_cell (card : DevRegs) {b : Int} (hb : b = 0 ∨ b = 1) (high low : U8)
    {reg r : U32} (hreg : reg = r) (half : Fin 2) :
    (crossfadeWord (tl880ReadRegister card.regs r) b high low).extractLsb' (16 * half) 16 =
      (if b = half.val then some (high ++ low) else none).getD (halfWord card (reg, half)) := by
  rw [crossfadeWord_half _ hb, ← hreg]
  split_ifs <;> rfl

/-- A call is the patch of its half-words. -/
theorem crossfadeCall_patch (card : DevRegs) (call : CrossfadeCall)
    (hmapped : card.regs.mapped = true) :
    halfWord (crossfadeCall card call) = (crossfadePatch call).apply (halfWord card) := by
  funext cell
  obtain ⟨reg, half⟩ := cell
  unfold crossfadeCall DevRegs.tl880AudioSetCrossfade
  cases hregs : crossfadeRegs call.a with
  | none =>
      have hnone : crossfadePatch call (reg, half) = none := by
        simp [crossfadePatch, hregs]
      rw [apply_of_none hnone]
  | some regs =>
      obtain ⟨r0, r1, r2⟩ := regs
      obtain ⟨hvalid, hne⟩ := crossfadeRegs_distinct hregs
      dsimp only
      by_cases hb : call.b = 0 ∨ call.b = 1
      · rw [if_pos hb]
        unfold halfWord
        rw [read_writeAll_three hmapped hvalid hne]
        simp only [Patch.apply, crossfadePatch, hregs]
        by_cases h0 : reg = r0
        · simp only [if_pos h0]
          exact crossfadeWord_cell card hb _ _ h0 half
        by_cases h1 : reg = r1
        · simp only [if_neg h0, if_pos h1]
          exact crossfadeWord_cell card hb _ _ h1 half
        by_cases h2 : reg = r2
        · simp only [if_neg h0, if_neg h1, if_pos h2]
          exact crossfadeWord_cell card hb _ _ h2 half
        · simp only [if_neg h0, if_neg h1, if_neg h2]
          split_ifs <;> rfl
      · have hnone : crossfadePatch call (reg, half) = none := by
          have hhalf : ¬ call.b = half.val := by omega
          exact if_neg hhalf
        rw [if_neg hb, apply_of_none hnone]

/-! ## Who owns a half-word -/

theorem crossfadeRegister_injective : ∀ a k a' k' : Fin 3,
    crossfadeRegister a k = crossfadeRegister a' k' → a = a' ∧ k = k' := by decide

theorem crossfadeRegs_group (a : Fin 3) : crossfadeRegs a.val =
    some (crossfadeRegister a 0, crossfadeRegister a 1, crossfadeRegister a 2) := by
  revert a
  decide

theorem crossfadeRegs_none {x : Int} (hx : ∀ a : Fin 3, x ≠ a.val) : crossfadeRegs x = none := by
  have h0 : ¬ x = 0 := hx 0
  have h1 : ¬ x = 1 := hx 1
  have h2 : ¬ x = 2 := hx 2
  rw [crossfadeRegs, if_neg h0, if_neg h1, if_neg h2]

/-- A half-word of the cross fader is set by the calls with its `(a, b)`, and no others. -/
theorem crossfadePatch_cell (call : CrossfadeCall) (a k : Fin 3) (b : Fin 2) :
    crossfadePatch call (crossfadeRegister a k, b) =
      if call.a = a.val ∧ call.b = b.val then some (call.pair k) else none := by
  unfold crossfadePatch
  by_cases hb : call.b = b.val
  · by_cases hgroup : ∃ a' : Fin 3, call.a = a'.val
    · obtain ⟨a', ha'⟩ := hgroup
      simp only [if_pos hb, ha', crossfadeRegs_group]
      by_cases haa' : a = a'
      · subst haa'
        have hown : ((a.val : Int) = a.val ∧ call.b = b.val) := ⟨rfl, hb⟩
        rw [if_pos hown]
        have hsame : ∀ j, crossfadeRegister a k = crossfadeRegister a j ↔ k = j := fun j =>
          ⟨fun h => (crossfadeRegister_injective a k a j h).2, fun h => by rw [h]⟩
        simp only [hsame]
        obtain rfl | rfl | rfl : k = 0 ∨ k = 1 ∨ k = 2 := by omega
        · rfl
        · rfl
        · rfl
      · have hne : ∀ j, ¬ crossfadeRegister a k = crossfadeRegister a' j :=
          fun j h => haa' (crossfadeRegister_injective a k a' j h).1
        have hother : ¬ ((a'.val : Int) = a.val ∧ call.b = b.val) := by omega
        rw [if_neg (hne 0), if_neg (hne 1), if_neg (hne 2), if_neg hother]
    · have hnone : ∀ a : Fin 3, call.a ≠ a.val := fun a ha => hgroup ⟨a, ha⟩
      have hother : ¬ (call.a = a.val ∧ call.b = b.val) := fun h => hnone a h.1
      rw [if_pos hb, crossfadeRegs_none hnone, if_neg hother]
  · have hother : ¬ (call.a = a.val ∧ call.b = b.val) := fun h => hb h.2
    rw [if_neg hb, if_neg hother]

/-- What a call sets is a half-word of the cross fader. -/
theorem crossfadePatch_owner {call : CrossfadeCall} {cell : U32 × Fin 2}
    (hset : crossfadePatch call cell ≠ none) :
    ∃ a k : Fin 3, cell.1 = crossfadeRegister a k ∧ call.a = a.val ∧ call.b = cell.2.val := by
  unfold crossfadePatch at hset
  by_cases hb : call.b = cell.2.val
  · by_cases hgroup : ∃ a : Fin 3, call.a = a.val
    · obtain ⟨a, ha⟩ := hgroup
      simp only [if_pos hb, ha, crossfadeRegs_group] at hset
      by_cases h0 : cell.1 = crossfadeRegister a 0
      · exact ⟨a, 0, h0, ha, hb⟩
      by_cases h1 : cell.1 = crossfadeRegister a 1
      · exact ⟨a, 1, h1, ha, hb⟩
      by_cases h2 : cell.1 = crossfadeRegister a 2
      · exact ⟨a, 2, h2, ha, hb⟩
      · rw [if_neg h0, if_neg h1, if_neg h2] at hset
        exact absurd rfl hset
    · have hnone : ∀ a : Fin 3, call.a ≠ a.val := fun a ha => hgroup ⟨a, ha⟩
      rw [if_pos hb, crossfadeRegs_none hnone] at hset
      exact absurd rfl hset
  · rw [if_neg hb] at hset
    exact absurd rfl hset

/-- Calls with different arguments have no half-word in common. -/
theorem crossfadePatch_compatible {call call' : CrossfadeCall}
    (hne : (call.a, call.b) ≠ (call'.a, call'.b)) :
    Compatible (crossfadePatch call) (crossfadePatch call') := by
  intro cell
  by_cases hset : crossfadePatch call cell = none
  · exact Or.inl hset
  by_cases hset' : crossfadePatch call' cell = none
  · exact Or.inr (Or.inl hset')
  obtain ⟨a, k, hreg, ha, hb⟩ := crossfadePatch_owner hset
  obtain ⟨a', k', hreg', ha', hb'⟩ := crossfadePatch_owner hset'
  have hgroup := (crossfadeRegister_injective a k a' k' (hreg.symm.trans hreg')).1
  exact absurd (by rw [ha, ha', hgroup, hb, hb']) hne

/-! ## Runs -/

theorem crossfade_patched :
    Patched crossfadeCall halfWord crossfadePatch (fun card => card.regs.mapped = true)
      fun _ => True where
  keep card call hmapped _ := (crossfadeCall_mapped card call).trans hmapped
  shows card call hmapped _ := crossfadeCall_patch card call hmapped

/-- Finding the first value is finding the first element that has one. -/
theorem findSome?_guard {α β : Type} (p : α → Bool) (f : α → β) (l : List α) :
    l.findSome? (fun x => if p x = true then some (f x) else none) = (l.find? p).map f := by
  induction l with
  | nil => rfl
  | cons x l ih =>
      rw [List.findSome?_cons, List.find?_cons]
      cases p x with
      | true => rfl
      | false => simpa using ih

/-- The last call that sets a half-word is the last one with its `(a, b)`. -/
theorem last_crossfadePatch (calls : List CrossfadeCall) (a k : Fin 3) (b : Fin 2) :
    last (calls.map crossfadePatch) (crossfadeRegister a k, b) =
      (lastOwner calls a b).map fun call => call.pair k := by
  have hguard : (fun call => crossfadePatch call (crossfadeRegister a k, b)) = fun call =>
      if decide (call.a = (a.val : Int) ∧ call.b = (b.val : Int)) = true then some (call.pair k)
      else none := by
    funext call
    rw [crossfadePatch_cell]
    simp
  rw [last_map, hguard, findSome?_guard]
  rfl

/-- A word is its two halves. -/
theorem word_eq_of_halves {x y : U32}
    (h : ∀ half : Fin 2, x.extractLsb' (16 * half) 16 = y.extractLsb' (16 * half) 16) : x = y := by
  apply BitVec.eq_of_getLsbD_eq
  intro i hi
  by_cases hlow : i < 16
  · have hbit := congrArg (fun half : U16 => half.getLsbD i) (h 0)
    simpa [hlow] using hbit
  · have hin : i - 16 < 16 := by omega
    have hplace : 16 + (i - 16) = i := by omega
    have hbit := congrArg (fun half : U16 => half.getLsbD (i - 16)) (h 1)
    simpa [hin, hplace] using hbit

/-- The half-words of the cross fader are independent: each holds what the last call that
owns it has set, calls that own none write nothing, no other register changes, and calls
that own different half-words commute. -/
theorem crossfade_independent {card : DevRegs} (hmapped : card.regs.mapped = true)
    (calls : List CrossfadeCall) :
    (∀ (a k : Fin 3) (b : Fin 2),
      halfWord (calls.foldl crossfadeCall card) (crossfadeRegister a k, b) =
        match lastOwner calls a b with
        | some call => call.pair k
        | none => halfWord card (crossfadeRegister a k, b)) ∧
    (∀ call : CrossfadeCall,
      ¬ ((call.a = 0 ∨ call.a = 1 ∨ call.a = 2) ∧ (call.b = 0 ∨ call.b = 1)) →
        crossfadeCall card call = card) ∧
    (∀ reg, (∀ a k : Fin 3, reg ≠ crossfadeRegister a k) →
      tl880ReadRegister (calls.foldl crossfadeCall card).regs reg =
        tl880ReadRegister card.regs reg) ∧
    ∀ call call' : CrossfadeCall, (call.a, call.b) ≠ (call'.a, call'.b) → ∀ reg,
      tl880ReadRegister (crossfadeCall (crossfadeCall card call) call').regs reg =
        tl880ReadRegister (crossfadeCall (crossfadeCall card call') call).regs reg := by
  have hall : ∀ call ∈ calls, True := fun _ _ => trivial
  refine ⟨?_, fun call hother => crossfadeCall_other card hother, ?_, ?_⟩
  · intro a k b
    rw [crossfade_patched.view_foldl hmapped hall, last_crossfadePatch]
    cases lastOwner calls a b <;> rfl
  · intro reg hreg
    apply word_eq_of_halves
    intro half
    show halfWord (calls.foldl crossfadeCall card) (reg, half) = halfWord card (reg, half)
    apply crossfade_patched.view_foldl_unset hmapped hall
    intro call _
    by_contra hset
    obtain ⟨a, k, howner, -⟩ := crossfadePatch_owner hset
    exact hreg a k howner
  · intro call call' hne reg
    have hview := crossfade_patched.view_comm hmapped trivial trivial
      (crossfadePatch_compatible hne)
    apply word_eq_of_halves
    intro half
    exact congrFun hview (reg, half)

/-- Two calls on a card whose registers are all 0: one half-word is owned by the first of them. -/
theorem crossfade_independent_two :
    halfWord ([⟨0, 1, 1, 2, 3, 4, 5, 0xff⟩, ⟨7, 0, 9, 9, 9, 9, 9, 9⟩].foldl crossfadeCall
        ⟨default, ⟨true, fun _ => 0⟩, []⟩) (crossfadeRegister 0 1, (1 : Fin 2)) =
      CrossfadeCall.pair ⟨0, 1, 1, 2, 3, 4, 5, 0xff⟩ 1 :=
  (crossfade_independent rfl _).1 0 1 1

end Tl880
