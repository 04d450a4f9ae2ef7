import Mathlib.Data.List.Basic
import Mathlib.Tactic.Common

/-!
# Tables with a fixed number of slots

A table of pointers as C programs keep it: a fixed number of slots, each empty or
occupied.  A new occupant goes into the first empty slot, and an occupant is
removed by clearing every slot that holds it.  The number of slots is a field of
the table, so no operation can change it.

`occupants` is what the table is for; `occupants_insert_perm` and
`occupants_clear` say what the operations do to it, `get_insert` and `get_clear`
what they do to one slot.
-/

/-- A table with `size` slots. -/
structure SlotTable (α : Type*) (size : Nat) where
  slots : List (Option α)
  length_eq : slots.length = size

namespace SlotTable

variable {α : Type*} {size : Nat}

/-- The index of the first empty slot of a list, or its length. -/
def firstFreeIn : List (Option α) → Nat
  | [] => 0
  | none :: _ => 0
  | some _ :: rest => firstFreeIn rest + 1

/-- Put `a` into the first empty slot of a list. -/
def fillIn (a : α) : List (Option α) → List (Option α)
  | [] => []
  | none :: rest => some a :: rest
  | some b :: rest => some b :: fillIn a rest

theorem length_fillIn (a : α) (slots : List (Option α)) :
    (fillIn a slots).length = slots.length := by
  induction slots with
  | nil => rfl
  | cons slot rest ih =>
      cases slot with
      | none => rfl
      | some b => simp [fillIn, ih]

/-- A table of empty slots. -/
def empty (α : Type*) (size : Nat) : SlotTable α size :=
  ⟨List.replicate size none, List.length_replicate⟩

/-- The index of the first empty slot, or the number of slots when all are
occupied. -/
def firstFree (t : SlotTable α size) : Nat := firstFreeIn t.slots

/-- Put `a` into the first empty slot; a full table is left alone. -/
def insert (t : SlotTable α size) (a : α) : SlotTable α size :=
  ⟨fillIn a t.slots, (length_fillIn a t.slots).trans t.length_eq⟩

/-- Empty every slot that holds `a`. -/
def clear [DecidableEq α] (t : SlotTable α size) (a : α) : SlotTable α size :=
  ⟨t.slots.map fun slot => if slot = some a then none else slot,
    List.length_map _ |>.trans t.length_eq⟩

/-- What slot `k` holds. -/
def get (t : SlotTable α size) (k : Nat) : Option α := (t.slots[k]?).join

/-- The occupants in slot order. -/
def occupants (t : SlotTable α size) : List α := t.slots.filterMap id

/-! ## Occupants -/

@[simp] theorem occupants_empty : (empty α size).occupants = [] := by
  simp [occupants, empty]

@[simp] theorem get_empty (k : Nat) : (empty α size).get k = none := by
  unfold get empty
  cases h : (List.replicate size (none : Option α))[k]? with
  | none => rfl
  | some slot =>
      rw [List.eq_of_mem_replicate (List.mem_of_getElem? h)]
      rfl

/-- There is an empty slot exactly when there are fewer occupants than slots. -/
theorem firstFree_lt_iff (t : SlotTable α size) :
    t.firstFree < size ↔ t.occupants.length < size := by
  obtain ⟨slots, rfl⟩ := t
  show firstFreeIn slots < slots.length ↔ (slots.filterMap id).length < slots.length
  induction slots with
  | nil => rfl
  | cons slot rest ih =>
      cases slot with
      | none =>
          have hle : (rest.filterMap id).length ≤ rest.length := List.length_filterMap_le id rest
          have hleft : firstFreeIn (none :: rest) < rest.length + 1 := Nat.succ_pos _
          have hright : ((none :: rest).filterMap id).length < rest.length + 1 :=
            Nat.lt_succ_of_le hle
          exact iff_of_true hleft hright
      | some b => simpa [firstFreeIn] using ih

/-- Inserting into a table that is not full adds the new occupant. -/
theorem occupants_insert_perm (t : SlotTable α size) (a : α) (hfree : t.firstFree < size) :
    (t.insert a).occupants.Perm (a :: t.occupants) := by
  obtain ⟨slots, rfl⟩ := t
  show ((fillIn a slots).filterMap id).Perm (a :: slots.filterMap id)
  change firstFreeIn slots < slots.length at hfree
  induction slots with
  | nil => cases hfree
  | cons slot rest ih =>
      cases slot with
      | none => exact List.Perm.refl _
      | some b =>
          have hrest := ih (Nat.lt_of_succ_lt_succ hfree)
          exact (hrest.cons b).trans (List.Perm.swap a b _)

/-- Clearing removes the occupant, and no other. -/
theorem occupants_clear [DecidableEq α] (t : SlotTable α size) (a : α) :
    (t.clear a).occupants = t.occupants.filter fun b => b ≠ a := by
  show (t.slots.map _).filterMap id = (t.slots.filterMap id).filter _
  induction t.slots with
  | nil => rfl
  | cons slot rest ih =>
      cases slot with
      | none => simpa using ih
      | some b =>
          by_cases hb : b = a
          · simpa [hb] using ih
          · simpa [hb] using ih

/-- Clearing what was just inserted into a table that did not have it leaves the
occupants as they were. -/
theorem occupants_clear_insert_perm [DecidableEq α] {t : SlotTable α size} {a : α}
    (hfree : t.firstFree < size) (hnew : a ∉ t.occupants) :
    ((t.insert a).clear a).occupants.Perm t.occupants := by
  rw [occupants_clear]
  have hfilter := (t.occupants_insert_perm a hfree).filter fun b => decide (b ≠ a)
  have hgone : (a :: t.occupants).filter (fun b => decide (b ≠ a)) = t.occupants := by
    rw [List.filter_cons_of_neg (by simp), List.filter_eq_self]
    intro b hb
    apply decide_eq_true
    rintro rfl
    exact hnew hb
  rw [hgone] at hfilter
  exact hfilter

/-! ## One slot -/

/-- Inserting changes the first empty slot only. -/
theorem get_insert (t : SlotTable α size) (a : α) (k : Nat) :
    (t.insert a).get k = if k = t.firstFree ∧ k < size then some a else t.get k := by
  obtain ⟨slots, rfl⟩ := t
  show (fillIn a slots)[k]?.join =
    if k = firstFreeIn slots ∧ k < slots.length then some a else slots[k]?.join
  induction slots generalizing k with
  | nil => simp [fillIn]
  | cons slot rest ih =>
      cases slot with
      | none => cases k <;> simp [fillIn, firstFreeIn]
      | some b =>
          cases k with
          | zero => simp [fillIn, firstFreeIn]
          | succ k => simpa [fillIn, firstFreeIn] using ih k

/-- The first empty slot is empty. -/
theorem get_firstFree (t : SlotTable α size) : t.get t.firstFree = none := by
  show t.slots[firstFreeIn t.slots]?.join = none
  induction t.slots with
  | nil => rfl
  | cons slot rest ih =>
      cases slot with
      | none => rfl
      | some b => simpa [firstFreeIn] using ih

/-- An occupied slot keeps its occupant when another one is inserted. -/
theorem get_insert_of_some {t : SlotTable α size} {k : Nat} {b : α}
    (hget : t.get k = some b) (a : α) : (t.insert a).get k = some b := by
  rw [get_insert, if_neg, hget]
  rintro ⟨rfl, -⟩
  rw [get_firstFree] at hget
  cases hget

/-- Clearing empties the slots that hold `a`. -/
theorem get_clear [DecidableEq α] (t : SlotTable α size) (a : α) (k : Nat) :
    (t.clear a).get k = if t.get k = some a then none else t.get k := by
  show ((t.slots.map _)[k]?).join = _
  unfold get
  rw [List.getElem?_map]
  cases t.slots[k]? with
  | none => rfl
  | some slot => rfl

end SlotTable
