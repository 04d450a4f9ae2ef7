import Mathlib.Data.List.Basic
import Mathlib.Tactic.Common

/-!
# Ledgers of acquired resources

A ledger is the list of acquisitions and releases a piece of code makes.
`settle` plays it: a release must be of something held.  A ledger is `Clean` when
it can be played from nothing to nothing, so that everything acquired is released
exactly once and nothing else is.
-/

namespace Ledger

variable {R : Type*}

/-- An entry of a ledger. -/
inductive Op (R : Type*)
  | acquire (r : R)
  | release (r : R)
  deriving DecidableEq

/-- The entry for another name of the resource. -/
def Op.map {R' : Type*} (f : R → R') : Op R → Op R'
  | .acquire r => .acquire (f r)
  | .release r => .release (f r)

variable [DecidableEq R]

/-- Play a ledger on the resources held; `none` when something is released that is
not held. -/
def settle : List R → List (Op R) → Option (List R)
  | held, [] => some held
  | held, .acquire r :: ops => settle (r :: held) ops
  | held, .release r :: ops => if r ∈ held then settle (held.erase r) ops else none

/-- Everything acquired is released exactly once, and nothing else is. -/
def Clean (ops : List (Op R)) : Prop := settle [] ops = some []

instance (ops : List (Op R)) : Decidable (Clean ops) :=
  inferInstanceAs (Decidable (settle [] ops = some []))

/-- A ledger that goes on from where another one ended. -/
theorem settle_append {held held' : List R} {ops ops' : List (Op R)}
    (h : settle held ops = some held') : settle held (ops ++ ops') = settle held' ops' := by
  induction ops generalizing held with
  | nil =>
      cases h
      rfl
  | cons op ops ih =>
      cases op with
      | acquire r => exact ih h
      | release r =>
          rw [settle] at h
          split_ifs at h with hmem
          rw [List.cons_append, settle, if_pos hmem]
          exact ih h

/-- Acquisitions only. -/
theorem settle_acquires (held rs : List R) :
    settle held (rs.map .acquire) = some (rs.reverse ++ held) := by
  induction rs generalizing held with
  | nil => rfl
  | cons r rs ih =>
      rw [List.map_cons, settle, ih, List.reverse_cons, List.append_assoc]
      rfl

/-- Releases only: they end with one thing left exactly when they are of all else that is
held. -/
theorem settle_releases_left_iff (held rs : List R) (left : R) :
    settle held (rs.map .release) = some [left] ↔ held.Perm (rs ++ [left]) := by
  induction rs generalizing held with
  | nil => simp [settle]
  | cons r rs ih =>
      rw [List.map_cons, settle, List.cons_append, List.perm_comm,
        List.cons_perm_iff_perm_erase]
      split_ifs with hmem
      · rw [ih, and_iff_right hmem, List.perm_comm]
      · exact iff_of_false nofun fun h => hmem h.1

/-- A ledger under other names, beside things it does not name. -/
theorem settle_map {R' : Type*} [DecidableEq R'] {f : R → R'} (hf : Function.Injective f)
    {others : List R'} (hothers : ∀ r, f r ∉ others) (held : List R) (ops : List (Op R)) :
    settle (held.map f ++ others) (ops.map (Op.map f)) =
      (settle held ops).map fun held' => held'.map f ++ others := by
  induction ops generalizing held with
  | nil => rfl
  | cons op ops ih =>
      cases op with
      | acquire r => exact ih (r :: held)
      | release r =>
          have hmem : f r ∈ held.map f ++ others ↔ r ∈ held := by
            rw [List.mem_append, List.mem_map_of_injective hf, or_iff_left (hothers r)]
          rw [List.map_cons, Op.map, settle, settle]
          by_cases hheld : r ∈ held
          · rw [if_pos hheld, if_pos (hmem.mpr hheld),
              List.erase_append_left _ (List.mem_map_of_mem hheld), ← List.map_erase hf]
            exact ih (held.erase r)
          · rw [if_neg hheld, if_neg (mt hmem.mp hheld)]
            rfl

/-- Conservation: what was held and acquired is what is held and released. -/
theorem settle_count {held held' : List R} {ops : List (Op R)}
    (h : settle held ops = some held') (r : R) :
    held.count r + ops.count (.acquire r) = held'.count r + ops.count (.release r) := by
  induction ops generalizing held with
  | nil =>
      cases h
      rfl
  | cons op ops ih =>
      cases op with
      | acquire a =>
          have hrest : (a :: held).count r + ops.count (.acquire r) =
              held'.count r + ops.count (.release r) := ih h
          by_cases ha : a = r
          · subst ha
            simp only [List.count_cons_self] at hrest ⊢
            rw [List.count_cons_of_ne (by simp)]
            omega
          · rw [List.count_cons_of_ne ha] at hrest
            rw [List.count_cons_of_ne (by simpa using ha), List.count_cons_of_ne (by simp)]
            exact hrest
      | release a =>
          rw [settle] at h
          split_ifs at h with hmem
          have hrest := ih h
          by_cases ha : a = r
          · subst ha
            have hpos : 0 < held.count a := List.count_pos_iff.mpr hmem
            rw [List.count_erase_self] at hrest
            rw [List.count_cons_of_ne (by simp), List.count_cons_self]
            omega
          · rw [List.count_erase_of_ne (Ne.symm ha)] at hrest
            rw [List.count_cons_of_ne (by simp), List.count_cons_of_ne (by simpa using ha)]
            exact hrest

/-- In a clean ledger every resource is released as often as it is acquired. -/
theorem Clean.count_eq {ops : List (Op R)} (h : Clean ops) (r : R) :
    ops.count (.acquire r) = ops.count (.release r) := by
  have hcount := settle_count h r
  simpa using hcount

/-- Acquire a resource if the attempt succeeds. -/
def acquireIf (succeeds : Bool) (r : R) : List (Op R) := if succeeds then [.acquire r] else []

/-- Release a resource if there is one. -/
def releaseIf (held : Bool) (r : R) : List (Op R) := if held then [.release r] else []

end Ledger
