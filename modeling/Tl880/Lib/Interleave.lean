import Mathlib.Tactic.Common

/-!
# Interleavings of two callers

A call changes a state and returns a value.  `runCalls` makes a list of calls and
collects what they return.  Two callers that share a state make their calls in some
order, a list of tagged calls; `callersOf` separates such a list.

When every call of one caller is `Independent` of every call of the other — they
commute, and neither changes what the other returns — every order of the calls ends
in the same state and returns the same values as one caller after the other.
-/

namespace Interleave

variable {σ α β ρ τ : Type*}

/-- Make the calls in order: the last state, and what each call returned. -/
def runCalls (act : σ → α → σ × ρ) : σ → List α → σ × List ρ
  | s, [] => (s, [])
  | s, a :: rest =>
      let result := runCalls act (act s a).1 rest
      (result.1, (act s a).2 :: result.2)

/-- A call of either caller. -/
def eitherAct (act : σ → α → σ × ρ) (act' : σ → β → σ × τ) (s : σ) :
    α ⊕ β → σ × (ρ ⊕ τ)
  | .inl a => ((act s a).1, .inl (act s a).2)
  | .inr b => ((act' s b).1, .inr (act' s b).2)

/-- The first caller's entries. -/
def lefts : List (α ⊕ β) → List α
  | [] => []
  | .inl a :: rest => a :: lefts rest
  | .inr _ :: rest => lefts rest

/-- The second caller's entries. -/
def rights : List (α ⊕ β) → List β
  | [] => []
  | .inl _ :: rest => rights rest
  | .inr b :: rest => b :: rights rest

@[simp] theorem runCalls_nil (act : σ → α → σ × ρ) (s : σ) :
    runCalls act s [] = (s, []) := rfl

@[simp] theorem runCalls_cons_fst (act : σ → α → σ × ρ) (s : σ) (a : α) (rest : List α) :
    (runCalls act s (a :: rest)).1 = (runCalls act (act s a).1 rest).1 := rfl

@[simp] theorem runCalls_cons_snd (act : σ → α → σ × ρ) (s : σ) (a : α) (rest : List α) :
    (runCalls act s (a :: rest)).2 = (act s a).2 :: (runCalls act (act s a).1 rest).2 := rfl

/-- Two calls commute, and neither changes what the other returns. -/
structure Independent (act : σ → α → σ × ρ) (act' : σ → β → σ × τ) (a : α) (b : β) :
    Prop where
  state : ∀ s, (act' (act s a).1 b).1 = (act (act' s b).1 a).1
  left : ∀ s, (act (act' s b).1 a).2 = (act s a).2
  right : ∀ s, (act' (act s a).1 b).2 = (act' s b).2

section Orders

variable {act : σ → α → σ × ρ} {act' : σ → β → σ × τ}
  (hindependent : ∀ a b, Independent act act' a b)
include hindependent

/-- A call of the second caller may wait until the first caller is done. -/
theorem runCalls_after (as : List α) (b : β) (s : σ) :
    (runCalls act (act' s b).1 as).1 = (act' (runCalls act s as).1 b).1 ∧
      (runCalls act (act' s b).1 as).2 = (runCalls act s as).2 ∧
      (act' (runCalls act s as).1 b).2 = (act' s b).2 := by
  induction as generalizing s with
  | nil => exact ⟨rfl, rfl, rfl⟩
  | cons a rest ih =>
      obtain ⟨hstate, hleft, hright⟩ := ih (act s a).1
      have hswap := (hindependent a b).state s
      refine ⟨?_, ?_, ?_⟩
      · rw [runCalls_cons_fst, runCalls_cons_fst, ← hswap, hstate]
      · rw [runCalls_cons_snd, runCalls_cons_snd, ← hswap, hleft, (hindependent a b).left s]
      · rw [runCalls_cons_fst, hright, (hindependent a b).right s]

/-- Every order of the calls does what the first caller and then the second one do. -/
theorem runCalls_either (calls : List (α ⊕ β)) (s : σ) :
    (runCalls (eitherAct act act') s calls).1 =
        (runCalls act' (runCalls act s (lefts calls)).1 (rights calls)).1 ∧
      lefts (runCalls (eitherAct act act') s calls).2 = (runCalls act s (lefts calls)).2 ∧
      rights (runCalls (eitherAct act act') s calls).2 =
        (runCalls act' (runCalls act s (lefts calls)).1 (rights calls)).2 := by
  induction calls generalizing s with
  | nil => exact ⟨rfl, rfl, rfl⟩
  | cons call rest ih =>
      cases call with
      | inl a =>
          obtain ⟨hstate, hleft, hright⟩ := ih (act s a).1
          refine ⟨hstate, ?_, hright⟩
          exact congrArg ((act s a).2 :: ·) hleft
      | inr b =>
          obtain ⟨hstate, hleft, hright⟩ := ih (act' s b).1
          obtain ⟨hpast, hsame, hvalue⟩ :=
            runCalls_after hindependent (lefts rest) b s
          refine ⟨?_, ?_, ?_⟩
          · change (runCalls (eitherAct act act') (act' s b).1 rest).1 =
              (runCalls act' (act' (runCalls act s (lefts rest)).1 b).1 (rights rest)).1
            rw [hstate, hpast]
          · exact hleft.trans hsame
          · change (act' s b).2 ::
                rights (runCalls (eitherAct act act') (act' s b).1 rest).2 =
              (act' (runCalls act s (lefts rest)).1 b).2 ::
                (runCalls act' (act' (runCalls act s (lefts rest)).1 b).1 (rights rest)).2
            rw [hright, hpast, hvalue]

end Orders

end Interleave
