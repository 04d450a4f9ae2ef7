import Mathlib.Data.Nat.ModEq
import Tl880.Cursors

/-!
# The ids of cursors

`tl880_create_cursor` takes the id of a cursor from the low 20 bits of a counter, and the
format notes use the id as the key of a surface.  Two cursors get one id when the creations
of them are a multiple of 2^20 apart.

`countedCall` counts the creations that take a number, whether or not a cursor comes of
them, and remembers the number each address was given last.
-/

namespace Tl880

open LabelledRun LinkedList

variable {w : Nat}

/-! ## Ids -/

/-- An id is the low 20 bits of the counter. -/
theorem osdId_eq_iff (hw : 32 ≤ w) (a b : BitVec w) :
    osdId a = osdId b ↔ a.toNat % 2 ^ 20 = b.toNat % 2 ^ 20 := by
  have hmask (i : Nat) : (0xfffff#w).getLsbD i = decide (i < 20) := by
    rw [BitVec.getLsbD_ofNat]
    have hones : Nat.testBit 0xfffff i = decide (i < 20) := Nat.testBit_two_pow_sub_one 20 i
    rw [hones]
    by_cases hi : i < 20
    · have hiw : i < w := by omega
      simp [hi, hiw]
    · simp [hi]
  have htag (i : Nat) (hi : i < 20) : (0x52300000#w).getLsbD i = false := by
    have hzero : ∀ i < 20, Nat.testBit 0x52300000 i = false := by decide
    rw [BitVec.getLsbD_ofNat, hzero i hi, Bool.and_false]
  constructor
  · intro h
    apply Nat.eq_of_testBit_eq
    intro i
    rw [Nat.testBit_mod_two_pow, Nat.testBit_mod_two_pow]
    by_cases hi : i < 20
    · have hbit := congrArg (fun id : BitVec w => id.getLsbD i) h
      simp only [osdId, BitVec.getLsbD_or, BitVec.getLsbD_and, hmask, htag i hi, hi, decide_true,
        Bool.and_true, Bool.or_false] at hbit
      rw [BitVec.testBit_toNat, BitVec.testBit_toNat, hbit]
    · simp [hi]
  · intro h
    have hlow : a &&& 0xfffff#w = b &&& 0xfffff#w := by
      apply BitVec.eq_of_getLsbD_eq
      intro i _
      have hbit := congrArg (fun n => Nat.testBit n i) h
      simp only [Nat.testBit_mod_two_pow, BitVec.testBit_toNat] at hbit
      rw [BitVec.getLsbD_and, BitVec.getLsbD_and, hmask, Bool.and_comm, hbit, Bool.and_comm]
    rw [osdId, osdId, hlow]

/-- The ids of the `m`-th and the `n`-th number agree when they are a multiple of 2^20
apart. -/
theorem osdId_add_eq_iff (hw : 32 ≤ w) (idTracker : BitVec w) {m n : Nat} (hle : m ≤ n) :
    osdId (idTracker + BitVec.ofNat w m) = osdId (idTracker + BitVec.ofNat w n) ↔
      2 ^ 20 ∣ n - m := by
  have hdvd : 2 ^ 20 ∣ 2 ^ w := Nat.pow_dvd_pow 2 (by omega)
  have hlow (k : Nat) : (idTracker + BitVec.ofNat w k).toNat % 2 ^ 20 =
      (idTracker.toNat + k) % 2 ^ 20 := by
    rw [BitVec.toNat_add, BitVec.toNat_ofNat, Nat.add_mod_mod, Nat.mod_mod_of_dvd _ hdvd]
  rw [osdId_eq_iff hw, hlow, hlow]
  constructor
  · intro h
    exact (Nat.modEq_iff_dvd' hle).mp (Nat.ModEq.add_left_cancel' idTracker.toNat h)
  · intro h
    exact Nat.ModEq.add_left idTracker.toNat ((Nat.modEq_iff_dvd' hle).mpr h)

/-! ## Numbers -/

/-- The creation takes a number: the surface is valid, and there is memory for the cursor. -/
def TakesNumber (address : BitVec w) : Option (SurfaceDesc w) → Prop
  | none => False
  | some surface => surface.Valid ∧ address ≠ 0#w

instance (address : BitVec w) : DecidablePred (TakesNumber address)
  | none => isFalse id
  | some surface => inferInstanceAs (Decidable (surface.Valid ∧ address ≠ 0#w))

/-- What a creation does with the counter and the list of cursors. -/
theorem tl880CreateCursor_number {address : BitVec w} {kmalloc : Nat → Bool} {fuel : Nat}
    {surface : Option (SurfaceDesc w)} {s s' : CursorState w} {retval : BitVec w}
    (hcall : tl880CreateCursor address kmalloc fuel surface s = some (retval, s')) :
    if TakesNumber address surface then
      s'.idTracker = s.idTracker + 1#w ∧
        (s'.cursors = s.cursors ∨ ∃ c, s'.cursors = c :: s.cursors ∧ c.address = address ∧
          c.id = osdId (s.idTracker + 1#w))
    else s' = s := by
  cases surface with
  | none =>
      cases hcall
      exact (if_neg id).mpr rfl
  | some surface =>
      rw [tl880CreateCursor] at hcall
      by_cases hvalid : ¬ surface.Valid
      · rw [if_pos hvalid] at hcall
        cases hcall
        rw [if_neg fun h => hvalid h.1]
      rw [if_neg hvalid] at hcall
      by_cases haddress : address = 0#w
      · rw [if_pos haddress] at hcall
        cases hcall
        rw [if_neg fun h => h.2 haddress]
      rw [if_neg haddress] at hcall
      rw [if_pos ⟨not_not.mp hvalid, haddress⟩]
      obtain ⟨⟨field8, heap⟩, -, heq⟩ := Option.map_eq_some_iff.mp hcall
      dsimp only at heq
      split_ifs at heq
      · cases heq
        exact ⟨rfl, Or.inl rfl⟩
      · cases heq
        exact ⟨rfl, Or.inl rfl⟩
      · cases heq
        exact ⟨rfl, Or.inr ⟨_, rfl, rfl, rfl⟩⟩

/-- Freeing what a cursor owns changes the heap only. -/
theorem freeCursor_fields (cursor : SOverlaySurface w) (s : CursorState w) :
    (freeCursor cursor s).cursors = s.cursors ∧ (freeCursor cursor s).idTracker = s.idTracker := by
  unfold freeCursor
  split_ifs <;> exact ⟨rfl, rfl⟩

/-- A deletion takes from the list only. -/
theorem tl880DeleteCursor_sublist (cursor : BitVec w) (s : CursorState w) :
    (tl880DeleteCursor cursor s).cursors.Sublist s.cursors ∧
      (tl880DeleteCursor cursor s).idTracker = s.idTracker := by
  unfold tl880DeleteCursor
  split_ifs
  · exact ⟨List.Sublist.refl _, rfl⟩
  cases hcursors : s.cursors with
  | nil => exact ⟨by rw [hcursors], rfl⟩
  | cons head rest =>
      dsimp only
      split_ifs
      · obtain ⟨hlist, htracker⟩ := freeCursor_fields head { s with cursors := rest }
        rw [hlist, htracker]
        exact ⟨List.sublist_cons_self head rest, rfl⟩
      · split
        · next cursors found hunlink _ =>
            obtain ⟨hlist, htracker⟩ := freeCursor_fields found { s with cursors := cursors }
            rw [hlist, htracker]
            exact ⟨unlinkNext_sublist SOverlaySurface.address hunlink, rfl⟩
        · exact ⟨by rw [hcursors], rfl⟩

/-- So does the deletion of the list. -/
theorem tl880DeleteCursorList_sublist {fuel : Nat} {s s' : CursorState w}
    (h : tl880DeleteCursorList fuel s = some s') :
    s'.cursors.Sublist s.cursors ∧ s'.idTracker = s.idTracker := by
  induction fuel generalizing s with
  | zero => cases h
  | succ fuel ih =>
      rw [tl880DeleteCursorList] at h
      cases hcursors : s.cursors with
      | nil =>
          simp only [hcursors] at h
          cases h
          exact ⟨by rw [hcursors], rfl⟩
      | cons head rest =>
          simp only [hcursors] at h
          obtain ⟨hlist, htracker⟩ := ih h
          obtain ⟨hone, htrackerOne⟩ := tl880DeleteCursor_sublist head.address s
          rw [hcursors] at hone
          exact ⟨hlist.trans hone, htracker.trans htrackerOne⟩

/-! ## Counting -/

/-- The cursors, how many creations have taken a number, and the number that the last one at
an address has taken. -/
structure CountedCursors (w : Nat) where
  state : CursorState w
  creations : Nat
  made : BitVec w → Nat

/-- A call that returns, counted. -/
def countedCall (t : CountedCursors w) (call : CursorCall w) : Option (CountedCursors w) :=
  (cursorCall t.state call).map fun s =>
    match call with
    | .create address _ _ surface =>
        if TakesNumber address surface then
          ⟨s, t.creations + 1, Function.update t.made address (t.creations + 1)⟩
        else ⟨s, t.creations, t.made⟩
    | _ => ⟨s, t.creations, t.made⟩

/-- When the creation takes a number, no cursor in the list was created a multiple of 2^20
such creations before. -/
def SpacedCreation (t : CountedCursors w) : CursorCall w → Prop
  | .create address _ _ surface => TakesNumber address surface →
      ∀ c ∈ t.state.cursors, ¬ 2 ^ 20 ∣ t.creations + 1 - t.made c.address
  | _ => True

/-- No two cursors have one id. -/
def IdsDistinct (s : CursorState w) : Prop := (s.cursors.map SOverlaySurface.id).Nodup

/-- The cursors have the ids of the numbers their creations took. -/
structure Numbered (idTracker : BitVec w) (t : CountedCursors w) : Prop where
  tracker : t.state.idTracker = idTracker + BitVec.ofNat w t.creations
  made : ∀ c ∈ t.state.cursors, t.made c.address ≤ t.creations ∧
    c.id = osdId (idTracker + BitVec.ofNat w (t.made c.address))
  distinct : IdsDistinct t.state

/-- Taking cursors from the list keeps the numbers of the others. -/
theorem Numbered.sublist {idTracker : BitVec w} {t : CountedCursors w} (h : Numbered idTracker t)
    {s : CursorState w} (hlist : s.cursors.Sublist t.state.cursors)
    (htracker : s.idTracker = t.state.idTracker) :
    Numbered idTracker { t with state := s } where
  tracker := htracker.trans h.tracker
  made c hc := h.made c (hlist.subset hc)
  distinct := h.distinct.sublist (hlist.map _)

section Creation

variable {idTracker : BitVec w} {t : CountedCursors w} {s : CursorState w} {address : BitVec w}

/-- The number that a creation takes. -/
theorem Numbered.next (h : Numbered idTracker t) :
    t.state.idTracker + 1#w = idTracker + BitVec.ofNat w (t.creations + 1) := by
  rw [h.tracker, BitVec.add_assoc, BitVec.ofNat_add]

/-- The cursors that were there before a creation keep their numbers. -/
theorem Numbered.kept (h : Numbered idTracker t)
    (hfresh : address ∉ t.state.cursors.map SOverlaySurface.address) {c : SOverlaySurface w}
    (hc : c ∈ t.state.cursors) :
    Function.update t.made address (t.creations + 1) c.address = t.made c.address ∧
      t.made c.address ≤ t.creations + 1 ∧
      c.id = osdId (idTracker + BitVec.ofNat w (t.made c.address)) := by
  obtain ⟨hle, hid⟩ := h.made c hc
  refine ⟨?_, by omega, hid⟩
  apply Function.update_of_ne
  rintro rfl
  exact hfresh (List.mem_map_of_mem hc)

/-- A creation that fails after it has taken a number. -/
theorem Numbered.failed (h : Numbered idTracker t)
    (hfresh : address ∉ t.state.cursors.map SOverlaySurface.address)
    (htracker : s.idTracker = t.state.idTracker + 1#w) (hsame : s.cursors = t.state.cursors) :
    Numbered idTracker
      ⟨s, t.creations + 1, Function.update t.made address (t.creations + 1)⟩ := by
  constructor
  · exact htracker.trans h.next
  · intro c hc
    rw [hsame] at hc
    obtain ⟨hmade, hle, hid⟩ := h.kept hfresh hc
    dsimp only
    rw [hmade]
    exact ⟨hle, hid⟩
  · show IdsDistinct s
    rw [IdsDistinct, hsame]
    exact h.distinct

/-- A creation whose number is not a multiple of 2^20 behind that of a cursor in the list. -/
theorem Numbered.created (hw : 32 ≤ w) (h : Numbered idTracker t)
    (hfresh : address ∉ t.state.cursors.map SOverlaySurface.address)
    (hspaced : ∀ c ∈ t.state.cursors, ¬ 2 ^ 20 ∣ t.creations + 1 - t.made c.address)
    (htracker : s.idTracker = t.state.idTracker + 1#w) {c : SOverlaySurface w}
    (hcons : s.cursors = c :: t.state.cursors) (haddress : c.address = address)
    (hid : c.id = osdId (t.state.idTracker + 1#w)) :
    Numbered idTracker
      ⟨s, t.creations + 1, Function.update t.made address (t.creations + 1)⟩ := by
  rw [h.next] at hid
  constructor
  · exact htracker.trans h.next
  · intro d hd
    dsimp only at hd ⊢
    rw [hcons] at hd
    rcases List.mem_cons.mp hd with heq | hd
    · rw [heq, haddress, Function.update_self]
      exact ⟨Nat.le_refl _, hid⟩
    · obtain ⟨hmade, hle, hdid⟩ := h.kept hfresh hd
      rw [hmade]
      exact ⟨hle, hdid⟩
  · show IdsDistinct s
    rw [IdsDistinct, hcons, List.map_cons, List.nodup_cons]
    refine ⟨?_, h.distinct⟩
    intro hmem
    obtain ⟨d, hd, hsame⟩ := List.mem_map.mp hmem
    obtain ⟨-, hle, hdid⟩ := h.kept hfresh hd
    rw [hdid, hid, osdId_add_eq_iff hw idTracker hle] at hsame
    exact hspaced d hd hsame

end Creation

/-- A call that meets the condition keeps the ids distinct. -/
theorem countedCall_numbered (hw : 32 ≤ w) {idTracker : BitVec w} {t t' : CountedCursors w}
    {call : CursorCall w} (h : Numbered idTracker t) (hfresh : FreshMemory t.state call)
    (hspaced : SpacedCreation t call) (hcall : countedCall t call = some t') :
    Numbered idTracker t' := by
  obtain ⟨s, hstep, rfl⟩ := Option.map_eq_some_iff.mp hcall
  cases call with
  | create address kmalloc fuel surface =>
      obtain ⟨⟨retval, s'⟩, hcreate, rfl⟩ := Option.map_eq_some_iff.mp hstep
      have hnumber := tl880CreateCursor_number hcreate
      dsimp only
      by_cases htakes : TakesNumber address surface
      · rw [if_pos htakes] at hnumber ⊢
        obtain ⟨htracker, hsame | ⟨c, hcons, haddress, hid⟩⟩ := hnumber
        · exact h.failed hfresh htracker hsame
        · exact h.created hw hfresh (hspaced htakes) htracker hcons haddress hid
      · rw [if_neg htakes] at hnumber ⊢
        rw [hnumber]
        exact h
  | delete cursor =>
      cases hstep
      obtain ⟨hlist, htracker⟩ := tl880DeleteCursor_sublist cursor t.state
      exact h.sublist hlist htracker
  | deleteList =>
      obtain ⟨hlist, htracker⟩ := tl880DeleteCursorList_sublist hstep
      exact h.sublist hlist htracker

/-- Without the counts a counted call is the call. -/
theorem countedCall_state (t : CountedCursors w) (call : CursorCall w) :
    cursorCall t.state call = (countedCall t call).map CountedCursors.state := by
  rw [countedCall, Option.map_map]
  cases cursorCall t.state call with
  | none => rfl
  | some s =>
      cases call with
      | create address kmalloc fuel surface =>
          dsimp only [Option.map_some, Function.comp_apply]
          split_ifs <;> rfl
      | delete cursor => rfl
      | deleteList => rfl

/-- In a run whose creations are spaced no two cursors in the list ever have one id. -/
theorem cursorIds_distinct (hw : 32 ≤ w) (idTracker : BitVec w) (heap : OsdHeap w)
    (calls : List (CursorCall w))
    (hfresh : AllSteps cursorCall FreshMemory ⟨[], idTracker, heap⟩ calls)
    (hspaced : AllSteps countedCall SpacedCreation ⟨⟨[], idTracker, heap⟩, 0, fun _ => 0⟩ calls) :
    AllStates cursorCall IdsDistinct ⟨[], idTracker, heap⟩ calls := by
  have hinit : Numbered idTracker ⟨⟨[], idTracker, heap⟩, 0, fun _ => 0⟩ := by
    refine ⟨(BitVec.add_zero idTracker).symm, ?_, List.nodup_nil⟩
    intro c hc
    cases hc
  have hsteps := (allSteps_of_view CountedCursors.state countedCall_state hfresh).and hspaced
  have hnumbered := allStates_of_allSteps
    (fun t call t' ht hcall hstep => countedCall_numbered hw ht hcall.1 hcall.2 hstep) hinit hsteps
  exact allStates_of_view CountedCursors.state countedCall_state
    (hnumbered.imp fun t ht => ht.distinct)

/-- Two cursors are created, with the ids 0x52300001 and 0x52300002. -/
theorem cursorIds_distinct_image :
    AllStates cursorCall IdsDistinct ⟨[], 0, twoImages false false⟩
      [createAt 0xc0000000, createAt 0xc0001000] := by
  apply cursorIds_distinct (by decide)
  · apply createFirst_fresh
    intro s' _
    exact ⟨freshMemory_second 1, trivial⟩
  · intro t' hfirst
    refine ⟨fun _ c hc => absurd hc List.not_mem_nil, ?_⟩
    have hcounted : countedCall ⟨⟨[], 0, twoImages false false⟩, 0, fun _ => 0⟩
        (createAt 0xc0000000) =
          some ⟨oneCursor 1, 1, Function.update (fun _ => 0) 0xc0000000 1⟩ := rfl
    cases hcounted.symm.trans hfirst
    intro t'' _
    refine ⟨?_, trivial⟩
    -- the second creation comes one number after the first cursor's
    intro _ c hc
    cases List.mem_singleton.mp hc
    decide

/-! ## A million creations -/

theorem delete_second (idTracker : U32) :
    cursorCall (twoCursors idTracker) (.delete 0xc0001000) = some (oneCursor idTracker) := rfl

/-- The second cursor is created and deleted a number of times. -/
def churn : Nat → List (CursorCall 32)
  | 0 => []
  | n + 1 => createAt 0xc0001000 :: .delete 0xc0001000 :: churn n

/-- All that is left of this is in the counter. -/
theorem run_churn (n : Nat) (idTracker : U32) :
    run cursorCall (oneCursor idTracker) (churn n) =
      some (oneCursor (idTracker + BitVec.ofNat 32 n)) := by
  induction n generalizing idTracker with
  | zero =>
      show _ = some (oneCursor (idTracker + 0#32))
      rw [BitVec.add_zero]
      rfl
  | succ n ih =>
      have hsum : idTracker + 1 + BitVec.ofNat 32 n = idTracker + BitVec.ofNat 32 (n + 1) := by
        rw [BitVec.add_assoc, Nat.add_comm n 1, BitVec.ofNat_add]
        rfl
      rw [churn, run_cons, create_second, Option.bind_some, run_cons, delete_second,
        Option.bind_some, ih, hsum]

/-- The memory that `kmalloc` returns is fresh. -/
theorem churn_fresh (n : Nat) (idTracker : U32) :
    AllSteps cursorCall FreshMemory (oneCursor idTracker)
      (churn n ++ [createAt 0xc0001000]) := by
  induction n generalizing idTracker with
  | zero => exact fun s' _ => ⟨freshMemory_second idTracker, trivial⟩
  | succ n ih =>
      intro s' hcreate
      refine ⟨freshMemory_second idTracker, ?_⟩
      rw [create_second] at hcreate
      cases hcreate
      intro s'' hdelete
      rw [delete_second] at hdelete
      cases hdelete
      exact ⟨trivial, ih (idTracker + 1)⟩

/-- After 2^20 - 1 creations of another cursor the next one has the id of the first. -/
theorem cursorIds_repeated :
    ¬ ∀ (start delta : U32) (total : Nat) (heap : OsdHeap 32),
      WellFormed start delta total heap.blocks → ∀ (idTracker : U32) (calls : List (CursorCall 32)),
      AllSteps cursorCall FreshMemory ⟨[], idTracker, heap⟩ calls →
        AllStates cursorCall IdsDistinct ⟨[], idTracker, heap⟩ calls := by
  intro h
  have hstates := h 0xe0186010 0xf0000000 0x42f _ twoImages_wellFormed 0
    (createAt 0xc0000000 :: (churn (2 ^ 20 - 1) ++ [createAt 0xc0001000]))
    (createFirst_fresh (churn_fresh _ 1))
  have hrun : run cursorCall ⟨[], 0, twoImages false false⟩
      (createAt 0xc0000000 :: (churn (2 ^ 20 - 1) ++ [createAt 0xc0001000])) =
      some (twoCursors (1 + BitVec.ofNat 32 (2 ^ 20 - 1) + 1)) := by
    rw [run_cons, create_first, Option.bind_some, run_append, run_churn, Option.bind_some,
      run_cons, create_second]
    rfl
  have hdistinct := hstates.last hrun
  have hsame : (secondCursor (1 + BitVec.ofNat 32 (2 ^ 20 - 1) + 1)).id = firstCursor.id := by
    decide
  have hout := (List.nodup_cons.mp hdistinct).1
  apply hout
  show (secondCursor _).id ∈ [firstCursor.id]
  rw [hsame]
  exact List.mem_singleton_self _

end Tl880
