import Mathlib.Data.List.Induction
import Mathlib.Data.List.Nodup
import Mathlib.Tactic.Common

/-!
# Singly linked lists in memory

A list of nodes as the code sees it: a pointer to the first node, and in every node the pointer
to the next one.  `mem` gives the node at an address and `next` reads its pointer.

* `Segment p l q` — from `p` on the nodes are at the addresses `l`, and then comes `q`;
* `Chain p l` — the segment up to NULL, which is a whole list;
* `Reachable p a` — the node at `a` is reached by following pointers from `p`;
* `walk` — the loop `for(p = start; more(p); p = p->next) ;`.

`Segment.frame` says that a segment depends on the pointers of its own nodes only; `Chain.link`
and `Chain.unlink` are the two edits of a list.
-/

namespace PointerList

variable {P N : Type*} (null : P) (next : N → P)

/-- The nodes from `p` on are those at `l`, and the last one points to `q`. -/
def Segment (mem : P → N) : P → List P → P → Prop
  | p, [], q => p = q
  | p, a :: l, q => p = a ∧ a ≠ null ∧ Segment mem (next (mem a)) l q

/-- The list that `p` points to has its nodes at `l`. -/
def Chain (mem : P → N) (p : P) (l : List P) : Prop := Segment null next mem p l null

/-- What the code comes to by following pointers from `p`. -/
inductive Reachable (mem : P → N) (p : P) : P → Prop
  | start (h : p ≠ null) : Reachable mem p p
  | step {a : P} (ha : Reachable mem p a) (h : next (mem a) ≠ null) :
      Reachable mem p (next (mem a))

/-- Follow the pointers while `more` says so, for at most `fuel` rounds. -/
def walk (mem : P → N) (more : P → Bool) : Nat → P → Option P
  | 0, _ => none
  | fuel + 1, p => if more p then walk mem more fuel (next (mem p)) else some p

variable {null next} {mem mem' : P → N} {p q a b c : P} {l pre post : List P}

@[simp] theorem segment_nil : Segment null next mem p [] q ↔ p = q := Iff.rfl

@[simp] theorem segment_cons :
    Segment null next mem p (a :: l) q ↔
      p = a ∧ a ≠ null ∧ Segment null next mem (next (mem a)) l q := Iff.rfl

/-- A segment of two parts goes through the place where they meet. -/
theorem segment_append :
    Segment null next mem p (pre ++ post) q ↔
      ∃ r, Segment null next mem p pre r ∧ Segment null next mem r post q := by
  induction pre generalizing p with
  | nil => simp
  | cons a pre ih =>
      simp only [List.cons_append, segment_cons, ih]
      constructor
      · rintro ⟨hp, hne, r, hpre, hpost⟩
        exact ⟨r, ⟨hp, hne, hpre⟩, hpost⟩
      · rintro ⟨r, ⟨hp, hne, hpre⟩, hpost⟩
        exact ⟨hp, hne, r, hpre, hpost⟩

/-- A segment depends on the pointers of its own nodes only. -/
theorem Segment.frame (h : Segment null next mem p l q)
    (hsame : ∀ a ∈ l, next (mem' a) = next (mem a)) : Segment null next mem' p l q := by
  induction l generalizing p with
  | nil => exact h
  | cons a l ih =>
      obtain ⟨hp, hne, hrest⟩ := h
      refine ⟨hp, hne, ?_⟩
      rw [hsame a List.mem_cons_self]
      exact ih hrest fun b hb => hsame b (List.mem_cons_of_mem a hb)

/-! ## Whole lists -/

@[simp] theorem chain_nil : Chain null next mem p [] ↔ p = null := Iff.rfl

@[simp] theorem chain_cons :
    Chain null next mem p (a :: l) ↔ p = a ∧ a ≠ null ∧ Chain null next mem (next (mem a)) l :=
  Iff.rfl

theorem chain_append :
    Chain null next mem p (pre ++ a :: post) ↔
      Segment null next mem p pre a ∧ a ≠ null ∧ Chain null next mem (next (mem a)) post := by
  unfold Chain
  rw [segment_append]
  constructor
  · rintro ⟨r, hpre, rfl, hne, hpost⟩
    exact ⟨hpre, hne, hpost⟩
  · rintro ⟨hpre, hne, hpost⟩
    exact ⟨a, hpre, rfl, hne, hpost⟩

theorem Chain.frame (h : Chain null next mem p l)
    (hsame : ∀ a ∈ l, next (mem' a) = next (mem a)) : Chain null next mem' p l :=
  Segment.frame h hsame

/-- NULL points to no node. -/
theorem chain_null_iff : Chain null next mem null l ↔ l = [] := by
  cases l with
  | nil => simp
  | cons a l =>
      simp only [chain_cons, List.cons_ne_nil, iff_false]
      rintro ⟨rfl, hne, -⟩
      exact hne rfl

/-- A pointer to a node points to the first one of a list. -/
theorem Chain.eq_cons (h : Chain null next mem p l) (hp : p ≠ null) : ∃ rest, l = p :: rest := by
  cases l with
  | nil => exact absurd h hp
  | cons a rest =>
      obtain ⟨rfl, -⟩ := h
      exact ⟨rest, rfl⟩

/-- A pointer points to one list. -/
theorem Chain.unique {l' : List P} (h : Chain null next mem p l) (h' : Chain null next mem p l') :
    l = l' := by
  induction l generalizing p l' with
  | nil =>
      rw [chain_nil] at h
      rw [h, chain_null_iff] at h'
      exact h'.symm
  | cons a l ih =>
      obtain ⟨rfl, hne, hrest⟩ := h
      obtain ⟨rest, rfl⟩ := h'.eq_cons hne
      rw [ih hrest h'.2.2]

/-- No node is in a list twice: the pointers would go round for ever. -/
theorem Chain.nodup (h : Chain null next mem p l) : l.Nodup := by
  induction l generalizing p with
  | nil => exact List.nodup_nil
  | cons a l ih =>
      obtain ⟨rfl, hne, hrest⟩ := h
      refine List.nodup_cons.mpr ⟨?_, ih hrest⟩
      intro hmem
      obtain ⟨pre, post, hsplit⟩ := List.append_of_mem hmem
      have hfrom : Chain null next mem (next (mem p)) (pre ++ p :: post) := hsplit ▸ hrest
      obtain ⟨-, -, hpost⟩ := chain_append.mp hfrom
      have hsame : l = post := Chain.unique hrest hpost
      have hlength := congrArg List.length hsplit
      simp [hsame] at hlength
      omega

/-- The pointer to a list with a node at `a` points to a node up to there. -/
theorem Chain.start_mem (h : Chain null next mem p (pre ++ a :: post)) :
    p ∈ pre ++ [a] ∧ p ≠ null := by
  cases pre with
  | nil =>
      obtain ⟨rfl, hne, -⟩ := h
      exact ⟨List.mem_singleton_self p, hne⟩
  | cons b pre =>
      obtain ⟨rfl, hne, -⟩ := h
      exact ⟨List.mem_cons_self, hne⟩

/-- The pointer of a node before `a` points to a node up to there. -/
theorem Chain.next_mem (h : Chain null next mem p (pre ++ a :: post)) (hc : c ∈ pre) :
    next (mem c) ∈ pre ++ [a] ∧ next (mem c) ≠ null := by
  obtain ⟨front, back, rfl⟩ := List.append_of_mem hc
  rw [List.append_assoc, List.cons_append] at h
  obtain ⟨-, -, hback⟩ := chain_append.mp h
  obtain ⟨hmem, hne⟩ := hback.start_mem
  refine ⟨?_, hne⟩
  simp only [List.append_assoc, List.cons_append, List.mem_append, List.mem_cons] at hmem ⊢
  exact Or.inr (Or.inr hmem)

/-- The nodes of a list are those that are reached from its pointer. -/
theorem Chain.reachable_iff (h : Chain null next mem p l) :
    Reachable null next mem p a ↔ a ∈ l := by
  constructor
  · intro hreach
    induction hreach with
    | start hp =>
        obtain ⟨rest, rfl⟩ := h.eq_cons hp
        exact List.mem_cons_self
    | @step a ha hnext ih =>
        obtain ⟨pre, post, rfl⟩ := List.append_of_mem ih
        obtain ⟨-, -, hpost⟩ := chain_append.mp h
        obtain ⟨rest, rfl⟩ := hpost.eq_cons hnext
        simp
  · intro hmem
    obtain ⟨pre, post, rfl⟩ := List.append_of_mem hmem
    clear hmem
    induction pre using List.reverseRecOn generalizing a post with
    | nil =>
        obtain ⟨rfl, hne, -⟩ := h
        exact Reachable.start hne
    | append_singleton pre b ih =>
        rw [List.append_assoc, List.singleton_append] at h
        have hb := ih _ h
        obtain ⟨-, -, hafter, hne, -⟩ := chain_append.mp h
        rw [← hafter] at hne ⊢
        exact Reachable.step hb hne

/-! ## Edits -/

/-- A new node is linked behind the last one. -/
theorem Chain.link (h : Chain null next mem p (pre ++ [a])) (hb : b ≠ null)
    (hlast : next (mem' a) = b) (hnew : next (mem' b) = null)
    (hsame : ∀ c ∈ pre, next (mem' c) = next (mem c)) :
    Chain null next mem' p (pre ++ [a, b]) := by
  obtain ⟨hpre, hne, -⟩ := chain_append.mp h
  refine chain_append.mpr ⟨hpre.frame hsame, hne, ?_⟩
  exact ⟨hlast, hb, hnew⟩

/-- The node behind `a` is taken out. -/
theorem Chain.unlink (h : Chain null next mem p (pre ++ a :: b :: post))
    (hpast : next (mem' a) = next (mem b))
    (hpre : ∀ c ∈ pre, next (mem' c) = next (mem c))
    (hpost : ∀ c ∈ post, next (mem' c) = next (mem c)) :
    Chain null next mem' p (pre ++ a :: post) := by
  obtain ⟨hfront, hne, -, -, hrest⟩ := chain_append.mp h
  refine chain_append.mpr ⟨hfront.frame hpre, hne, ?_⟩
  rw [hpast]
  exact hrest.frame hpost

/-! ## Walking -/

/-- A walk ends at the first node where it is not to go on. -/
theorem Chain.walk_eq (h : Chain null next mem p (pre ++ a :: post)) {more : P → Bool}
    (hmore : ∀ c ∈ pre, more c = true) (hend : more a = false) {fuel : Nat}
    (hfuel : pre.length < fuel) : walk next mem more fuel p = some a := by
  induction pre generalizing p fuel with
  | nil =>
      obtain ⟨rfl, -, -⟩ := h
      cases fuel with
      | zero => omega
      | succ fuel => simp [walk, hend]
  | cons c pre ih =>
      obtain ⟨rfl, -, hrest⟩ := h
      cases fuel with
      | zero => omega
      | succ fuel =>
          rw [walk, if_pos (hmore p List.mem_cons_self)]
          refine ih hrest (fun d hd => hmore d (List.mem_cons_of_mem p hd)) ?_
          simp only [List.length_cons] at hfuel
          omega

end PointerList
