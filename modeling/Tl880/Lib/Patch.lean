import Mathlib.Tactic.Common

/-!
# Partial assignments

A patch sets some places of a table and leaves the others.  After a list of patches a
place holds what the last patch that sets it says, and patches that agree where both
set a place commute.

A system is `Patched` through a view when every step shows in the view as the patch of
its label.  `Patched.view_foldl` is then the whole story of a run: a place depends on the
last label that sets it, and on nothing else.
-/

/-- A partial assignment of places: which it sets, and to what. -/
abbrev Patch (α β : Type*) := α → Option β

namespace Patch

variable {α β : Type*}

/-- The table after a patch. -/
def apply (p : Patch α β) (s : α → β) : α → β := fun a => (p a).getD (s a)

theorem apply_of_some {p : Patch α β} {a : α} {b : β} (hset : p a = some b) (s : α → β) :
    p.apply s a = b := by
  rw [apply, hset]
  rfl

theorem apply_of_none {p : Patch α β} {a : α} (hset : p a = none) (s : α → β) :
    p.apply s a = s a := by
  rw [apply, hset]
  rfl

/-- What the last patch that sets a place says about it. -/
def last (ps : List (Patch α β)) (a : α) : Option β := ps.reverse.findSome? fun p => p a

@[simp] theorem last_nil (a : α) : last ([] : List (Patch α β)) a = none := rfl

/-- The patches after the first one come first. -/
theorem last_cons (p : Patch α β) (ps : List (Patch α β)) (a : α) :
    last (p :: ps) a = (last ps a).or (p a) := by
  unfold last
  rw [List.reverse_cons, List.findSome?_append]
  cases hset : p a <;> simp [hset]

/-- Nothing is said about a place that no patch sets. -/
theorem last_eq_none {ps : List (Patch α β)} {a : α} (hset : ∀ p ∈ ps, p a = none) :
    last ps a = none := by
  unfold last
  rw [List.findSome?_eq_none_iff]
  intro p hp
  exact hset p (List.mem_reverse.mp hp)

/-- The last word on a place, for patches that belong to labels. -/
theorem last_map {ι : Type*} (patch : ι → Patch α β) (ls : List ι) (a : α) :
    last (ls.map patch) a = ls.reverse.findSome? fun l => patch l a := by
  rw [last, ← List.map_reverse, List.findSome?_map]
  rfl

theorem last_append (ps qs : List (Patch α β)) (a : α) :
    last (ps ++ qs) a = (last qs a).or (last ps a) := by
  unfold last
  rw [List.reverse_append, List.findSome?_append]

/-- The last word on a place, for labels that stand for several patches each. -/
theorem last_flatMap {ι : Type*} (patches : ι → List (Patch α β)) (ls : List ι) (a : α) :
    last (ls.flatMap patches) a = ls.reverse.findSome? fun l => last (patches l) a := by
  induction ls with
  | nil => rfl
  | cons l ls ih =>
      rw [List.flatMap_cons, last_append, ih, List.reverse_cons, List.findSome?_append]
      cases hl : last (patches l) a <;> simp [hl]

/-- A list of patches does what its last words say. -/
theorem foldl_apply (ps : List (Patch α β)) (s : α → β) :
    ps.foldl (fun s p => p.apply s) s = apply (last ps) s := by
  induction ps generalizing s with
  | nil => rfl
  | cons p ps ih =>
      rw [List.foldl_cons, ih]
      funext a
      rw [apply, apply, apply, last_cons]
      cases last ps a <;> rfl

/-- The patches agree where both set a place. -/
def Compatible (p q : Patch α β) : Prop := ∀ a, p a = none ∨ q a = none ∨ p a = q a

theorem Compatible.symm {p q : Patch α β} (hagree : Compatible p q) : Compatible q p := by
  intro a
  rcases hagree a with hnone | hnone | heq
  · exact Or.inr (Or.inl hnone)
  · exact Or.inl hnone
  · exact Or.inr (Or.inr heq.symm)

/-- Patches that agree commute. -/
theorem apply_comm {p q : Patch α β} (hagree : Compatible p q) (s : α → β) :
    p.apply (q.apply s) = q.apply (p.apply s) := by
  funext a
  rcases hagree a with hnone | hnone | heq
  · rw [apply_of_none hnone]
    simp only [apply, hnone, Option.getD_none]
  · rw [apply_of_none hnone (p.apply s)]
    simp only [apply, hnone, Option.getD_none]
  · simp only [apply, heq]

/-! ## Systems that are patched -/

/-- Every step the labels allow shows as the patch of its label, while the invariant
holds. -/
structure Patched {σ ι : Type*} (step : σ → ι → σ) (view : σ → α → β) (patch : ι → Patch α β)
    (inv : σ → Prop) (ok : ι → Prop) : Prop where
  keep : ∀ s l, inv s → ok l → inv (step s l)
  shows : ∀ s l, inv s → ok l → view (step s l) = (patch l).apply (view s)

namespace Patched

variable {σ ι : Type*} {step : σ → ι → σ} {view : σ → α → β} {patch : ι → Patch α β}
  {inv : σ → Prop} {ok : ι → Prop} (h : Patched step view patch inv ok)
include h

/-- After a run a place holds what the last label that sets it says. -/
theorem view_foldl {s : σ} (hs : inv s) {ls : List ι} (hls : ∀ l ∈ ls, ok l) (a : α) :
    view (ls.foldl step s) a = (last (ls.map patch) a).getD (view s a) := by
  induction ls generalizing s with
  | nil => rfl
  | cons l ls ih =>
      have hl : ok l := hls l List.mem_cons_self
      have hrest : ∀ l' ∈ ls, ok l' := fun l' hl' => hls l' (List.mem_cons_of_mem l hl')
      rw [List.foldl_cons, ih (h.keep s l hs hl) hrest, h.shows s l hs hl, List.map_cons,
        last_cons, apply]
      cases last (ls.map patch) a with
      | none => rfl
      | some b => rfl

/-- A place that no label sets stays. -/
theorem view_foldl_unset {s : σ} (hs : inv s) {ls : List ι} (hls : ∀ l ∈ ls, ok l) {a : α}
    (hset : ∀ l ∈ ls, patch l a = none) : view (ls.foldl step s) a = view s a := by
  rw [h.view_foldl hs hls, last_eq_none]
  · rfl
  · intro p hp
    obtain ⟨l, hl, rfl⟩ := List.mem_map.mp hp
    exact hset l hl

/-- Labels whose patches agree can be taken in either order. -/
theorem view_comm {s : σ} (hs : inv s) {l l' : ι} (hl : ok l) (hl' : ok l')
    (hagree : Compatible (patch l) (patch l')) :
    view (step (step s l) l') = view (step (step s l') l) := by
  rw [h.shows _ l' (h.keep s l hs hl) hl', h.shows s l hs hl, h.shows _ l (h.keep s l' hs hl') hl,
    h.shows s l' hs hl', apply_comm hagree.symm]

end Patched

end Patch
