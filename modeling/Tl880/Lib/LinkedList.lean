import Mathlib.Data.List.Nodup
import Mathlib.Tactic.Common

/-!
# Singly linked lists

The two loops a hand-written singly linked list lives on, over a list that gives
the nodes from the head on and a `key` that identifies a node (its address):

* `appendLast` — walk to the last node and link a new one behind it;
* `unlinkNext` — walk until the next node is the wanted one and take it out,
  which never looks at the head itself.
-/

namespace LinkedList

variable {α κ : Type*}

/-- Walk to the last node and link `x` behind it. -/
def appendLast (x : α) : List α → List α
  | [] => [x]
  | [last] => [last, x]
  | node :: next :: rest => node :: appendLast x (next :: rest)

theorem appendLast_eq (x : α) (l : List α) : appendLast x l = l ++ [x] := by
  induction l with
  | nil => rfl
  | cons node rest ih =>
      cases rest with
      | nil => rfl
      | cons next rest => exact congrArg (node :: ·) ih

variable [DecidableEq κ] (key : α → κ)

/-- No node has a key, or one is the first that has it. -/
theorem firstKey_cases (k : κ) (l : List α) :
    (∀ c ∈ l, key c ≠ k) ∨
      ∃ pre c post, l = pre ++ c :: post ∧ (∀ d ∈ pre, key d ≠ k) ∧ key c = k := by
  induction l with
  | nil => simp
  | cons node rest ih =>
      by_cases hnode : key node = k
      · exact Or.inr ⟨[], node, rest, rfl, by simp, hnode⟩
      · rcases ih with hnone | ⟨pre, c, post, rfl, hpre, hc⟩
        · exact Or.inl (by simpa [hnode] using hnone)
        · exact Or.inr ⟨node :: pre, c, post, rfl, by simpa [hnode] using hpre, hc⟩

/-- With distinct keys, a search by key finds the node it is for. -/
theorem find?_key_eq_some {l : List α} (hnodup : (l.map key).Nodup) {c : α} (hc : c ∈ l)
    {k : κ} (hk : key c = k) : l.find? (fun d => key d = k) = some c := by
  have hisSome : (l.find? fun d => key d = k).isSome := by
    rw [List.find?_isSome]
    exact ⟨c, hc, by simpa using hk⟩
  obtain ⟨found, hfound⟩ := Option.isSome_iff_exists.mp hisSome
  have hkey : key found = k := by simpa using List.find?_some hfound
  have hmem : found ∈ l := List.mem_of_find?_eq_some hfound
  rw [hfound, List.inj_on_of_nodup_map hnodup hmem hc (hkey.trans hk.symm)]

/-- With distinct keys, the nodes without a node's key are all but that node. -/
theorem filter_key_ne {pre post : List α} {c : α}
    (hnodup : ((pre ++ c :: post).map key).Nodup) :
    (pre ++ c :: post).filter (fun d => key d ≠ key c) = pre ++ post := by
  have hother : ∀ d ∈ pre ++ post, key d ≠ key c := by
    rw [List.map_append, List.map_cons, List.nodup_middle, ← List.map_append] at hnodup
    intro d hd heq
    exact (List.nodup_cons.mp hnodup).1 (heq ▸ List.mem_map_of_mem hd)
  have hkeep : ∀ l : List α, (∀ d ∈ l, d ∈ pre ++ post) → l.filter (fun d => key d ≠ key c) = l := by
    intro l hl
    rw [List.filter_eq_self]
    intro d hd
    simpa using hother d (hl d hd)
  rw [List.filter_append, List.filter_cons_of_neg (by simp),
    hkeep pre fun d hd => List.mem_append_left post hd,
    hkeep post fun d hd => List.mem_append_right pre hd]

/-- For the head these are the rest. -/
theorem filter_head_ne {c : α} {l : List α} (hnodup : ((c :: l).map key).Nodup) :
    (c :: l).filter (fun d => key d ≠ key c) = l := by
  have hfront : (([] ++ c :: l).map key).Nodup := hnodup
  exact filter_key_ne key hfront

/-- Take out the first node after the head that has the key `k`. -/
def unlinkNext (k : κ) : List α → Option (List α)
  | node :: next :: rest =>
      if key next = k then some (node :: rest)
      else (unlinkNext k (next :: rest)).map (node :: ·)
  | _ => none

/-- A key that no node has is not found. -/
theorem unlinkNext_eq_none {k : κ} {l : List α} (hmem : k ∉ l.map key) :
    unlinkNext key k l = none := by
  induction l with
  | nil => rfl
  | cons node rest ih =>
      cases rest with
      | nil => rfl
      | cons next rest =>
          have htail : k ∉ (next :: rest).map key := fun h => hmem (List.mem_cons_of_mem _ h)
          have hnext : key next ≠ k := by
            rintro rfl
            exact htail List.mem_cons_self
          rw [unlinkNext, if_neg hnext, ih htail]
          rfl

/-- Unlinking only removes. -/
theorem unlinkNext_sublist {k : κ} {l l' : List α} (h : unlinkNext key k l = some l') :
    l'.Sublist l := by
  induction l generalizing l' with
  | nil => cases h
  | cons node rest ih =>
      cases rest with
      | nil => cases h
      | cons next rest =>
          rw [unlinkNext] at h
          split_ifs at h
          · cases h
            exact List.Sublist.cons_cons node (List.sublist_cons_self next rest)
          · obtain ⟨l'', hl'', rfl⟩ := Option.map_eq_some_iff.mp h
            exact List.Sublist.cons_cons node (ih hl'')

/-- With distinct keys, a node behind the head is unlinked, and no other. -/
theorem unlinkNext_eq_filter {k : κ} {head : α} {l : List α}
    (hnodup : ((head :: l).map key).Nodup) (hmem : k ∈ l.map key) :
    unlinkNext key k (head :: l) = some ((head :: l).filter fun c => key c ≠ k) := by
  induction l generalizing head with
  | nil => cases hmem
  | cons next rest ih =>
      have hhead : key head ≠ k := by
        rintro rfl
        exact (List.nodup_cons.mp hnodup).1 hmem
      have htail : ((next :: rest).map key).Nodup := (List.nodup_cons.mp hnodup).2
      have hkeep : (head :: next :: rest).filter (fun c => key c ≠ k) =
          head :: (next :: rest).filter fun c => key c ≠ k := by
        simp [hhead]
      rw [unlinkNext, hkeep]
      by_cases hnext : key next = k
      · have hrest : rest.filter (fun c => key c ≠ k) = rest := by
          rw [List.filter_eq_self]
          intro c hc
          have hne : key c ≠ key next := by
            intro heq
            exact (List.nodup_cons.mp htail).1 (heq ▸ List.mem_map_of_mem hc)
          simpa [hnext] using hne
        rw [if_pos hnext, List.filter_cons_of_neg (by simpa using hnext), hrest]
      · have hmem' : k ∈ rest.map key := by
          rcases List.mem_cons.mp hmem with rfl | h
          · exact absurd rfl hnext
          · exact h
        rw [if_neg hnext, ih htail hmem']
        rfl

/-- The first node behind the head with the key is unlinked. -/
theorem unlinkNext_append {k : κ} {head c : α} {pre post : List α} (hpre : k ∉ pre.map key)
    (hc : key c = k) :
    unlinkNext key k (head :: (pre ++ c :: post)) = some (head :: (pre ++ post)) := by
  induction pre generalizing head with
  | nil => exact if_pos hc
  | cons next pre ih =>
      have hnext : key next ≠ k := by
        rintro rfl
        exact hpre List.mem_cons_self
      have hrest : k ∉ pre.map key := fun h => hpre (List.mem_cons_of_mem _ h)
      rw [List.cons_append, unlinkNext, if_neg hnext, ih hrest]
      rfl

/-- The last node is unlinked if no other one has its key. -/
theorem unlinkNext_last {k : κ} {head last : α} {l : List α} (hmem : k ∉ l.map key)
    (hlast : key last = k) : unlinkNext key k (head :: (l ++ [last])) = some (head :: l) := by
  rw [unlinkNext_append key hmem hlast, List.append_nil]

end LinkedList
