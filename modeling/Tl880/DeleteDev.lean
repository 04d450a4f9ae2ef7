import Tl880.Lib.LinkedList
import Tl880.Registers

/-!
# Deleting a device

`tl880_delete_dev` of `driver/tl880kern.c` frees the interrupt callbacks of a device and
then the device, with `tl880_remove_int_callback` of `driver/tl880int.c`.  Its second loop
is a copy of the first one: it goes on while there are callbacks for the bottom half, and
removes callbacks for the top half, of which there are none left.

A node of a list is known by its address, and 0 is NULL.
-/

namespace Tl880

open LinkedList

/-! ## The driver -/

/-- `struct int_func_desc`, and where it is. -/
structure IntFuncDesc where
  address : U64
  func : U64
  privateData : U64
deriving DecidableEq

/-- The part of `struct tl880_dev` that has to do with callbacks, where it is, and the memory
that was freed, the oldest first. -/
structure CallbackDev where
  address : U64
  apuThFuncs : List IntFuncDesc
  apuBhFuncs : List IntFuncDesc
  freed : List U64
deriving DecidableEq

/-- The two lists of a device. -/
inductive FuncList
  | apuTh
  | apuBh

/-- The list after `tl880_add_int_callback`, where `kmalloc` returns `new`. -/
def addFunc (new func privateData : U64) (list : List IntFuncDesc) : List IntFuncDesc :=
  if func = 0 then list
  else if new = 0 then list
  else appendLast ⟨new, func, privateData⟩ list

/-- The list after `tl880_remove_int_callback`, and the node that is freed. -/
def removeFunc (func : U64) (list : List IntFuncDesc) : List IntFuncDesc × List U64 :=
  if func = 0 then (list, [])
  else
    match list with
    | [] => (list, [])
    | head :: rest =>
        if head.func = func then (rest, [head.address])
        else
          match unlinkNext IntFuncDesc.func func (head :: rest),
              rest.find? (fun p => p.func = func) with
          | some list, some p2 => (list, [p2.address])
          | _, _ => (list, [])

namespace CallbackDev

/-- `tl880_add_int_callback` -/
def tl880AddIntCallback (d : CallbackDev) (list : FuncList) (new func privateData : U64) :
    CallbackDev :=
  match list with
  | .apuTh => { d with apuThFuncs := addFunc new func privateData d.apuThFuncs }
  | .apuBh => { d with apuBhFuncs := addFunc new func privateData d.apuBhFuncs }

/-- `tl880_remove_int_callback` -/
def tl880RemoveIntCallback (d : CallbackDev) (list : FuncList) (func : U64) : CallbackDev :=
  match list with
  | .apuTh =>
      { d with
        apuThFuncs := (removeFunc func d.apuThFuncs).1
        freed := d.freed ++ (removeFunc func d.apuThFuncs).2 }
  | .apuBh =>
      { d with
        apuBhFuncs := (removeFunc func d.apuBhFuncs).1
        freed := d.freed ++ (removeFunc func d.apuBhFuncs).2 }

end CallbackDev

/-- How a call ends: it returns, it follows the NULL pointer, or it is still running. -/
inductive DeleteResult
  | returned (d : CallbackDev)
  | nullDereference
  | running
deriving DecidableEq

/-- The first loop, for at most `fuel` rounds. -/
def freeThFuncs : Nat → CallbackDev → DeleteResult
  | 0, _ => .running
  | fuel + 1, d =>
      match d.apuThFuncs with
      | [] => .returned d
      | head :: _ => freeThFuncs fuel (d.tl880RemoveIntCallback .apuTh head.func)

/-- The second loop, for at most `fuel` rounds.  Its body is that of the first one. -/
def freeBhFuncs : Nat → CallbackDev → DeleteResult
  | 0, _ => .running
  | fuel + 1, d =>
      match d.apuBhFuncs with
      | [] => .returned d
      | _ :: _ =>
          match d.apuThFuncs with
          | [] => .nullDereference
          | head :: _ => freeBhFuncs fuel (d.tl880RemoveIntCallback .apuTh head.func)

/-- `tl880_delete_dev`, for a device that is not NULL and at most `fuel` rounds of each loop.
For a card that is being probed, whose lists are empty, the model of the probe has a
definition of its own. -/
def CallbackDev.tl880DeleteDev (fuel : Nat) (d : CallbackDev) : DeleteResult :=
  match freeThFuncs fuel d with
  | .returned d =>
      match freeBhFuncs fuel d with
      | .returned d => .returned { d with freed := d.freed ++ [d.address] }
      | result => result
  | result => result

/-! ## Devices and their callbacks -/

/-- The nodes of both lists. -/
def CallbackDev.nodes (d : CallbackDev) : List U64 :=
  (d.apuThFuncs ++ d.apuBhFuncs).map IntFuncDesc.address

/-- A device that was created, and whose lists were changed by calls of
`tl880_add_int_callback` and `tl880_remove_int_callback`.  `kmalloc` returns NULL or memory
that is not in use. -/
inductive CallbacksBuilt (address : U64) : CallbackDev → Prop
  | create : CallbacksBuilt address ⟨address, [], [], []⟩
  | add {d : CallbackDev} (h : CallbacksBuilt address d) (list : FuncList)
      (new func privateData : U64) (hfresh : new ∉ address :: d.nodes) :
      CallbacksBuilt address (d.tl880AddIntCallback list new func privateData)
  | remove {d : CallbackDev} (h : CallbacksBuilt address d) (list : FuncList) (func : U64) :
      CallbacksBuilt address (d.tl880RemoveIntCallback list func)

/-- The call returns, every node of both lists is freed once, and the device after them. -/
def DeletesProperly (d : CallbackDev) : Prop :=
  ∃ fuel d' nodes, CallbackDev.tl880DeleteDev fuel { d with freed := [] } = .returned d' ∧
    d'.freed = nodes ++ [d.address] ∧ nodes.Perm d.nodes ∧ (nodes ++ [d.address]).Nodup

/-- What the calls keep: no function is NULL, and no memory is in use twice. -/
structure CallbackDev.Ok (d : CallbackDev) : Prop where
  funcs : ∀ p ∈ d.apuThFuncs ++ d.apuBhFuncs, p.func ≠ 0
  distinct : (d.address :: d.nodes).Nodup

/-! ## What the calls keep -/

/-- Adding links a new node with a function behind the last one, or does nothing. -/
theorem addFunc_cases (new func privateData : U64) (list : List IntFuncDesc) :
    addFunc new func privateData list = list ∨
      func ≠ 0 ∧ addFunc new func privateData list = list ++ [⟨new, func, privateData⟩] := by
  unfold addFunc
  split_ifs with hfunc hnew
  · exact Or.inl rfl
  · exact Or.inl rfl
  · exact Or.inr ⟨hfunc, appendLast_eq _ _⟩

/-- Removing only takes nodes out. -/
theorem removeFunc_sublist (func : U64) (list : List IntFuncDesc) :
    (removeFunc func list).1.Sublist list := by
  unfold removeFunc
  split_ifs
  · exact List.Sublist.refl list
  cases list with
  | nil => exact List.Sublist.refl []
  | cons head rest =>
      dsimp only
      split_ifs
      · exact List.sublist_cons_self head rest
      · split
        · next list p2 hunlink _ => exact unlinkNext_sublist IntFuncDesc.func hunlink
        · exact List.Sublist.refl _

/-- A head with a function is removed by its function. -/
theorem removeFunc_head {head : IntFuncDesc} (hfunc : head.func ≠ 0) (rest : List IntFuncDesc) :
    removeFunc head.func (head :: rest) = (rest, [head.address]) := by
  rw [removeFunc, if_neg hfunc]
  exact if_pos rfl

/-- With fewer nodes a device stays in order. -/
theorem CallbackDev.Ok.of_sublist {d : CallbackDev} (h : d.Ok) (d' : CallbackDev)
    (haddress : d'.address = d.address)
    (hsub : (d'.apuThFuncs ++ d'.apuBhFuncs).Sublist (d.apuThFuncs ++ d.apuBhFuncs)) : d'.Ok where
  funcs p hp := h.funcs p (hsub.subset hp)
  distinct := by
    rw [haddress]
    exact h.distinct.sublist ((hsub.map _).cons_cons _)

/-- With one more node, in either list, it does if the node has a function and new memory. -/
theorem CallbackDev.Ok.of_insert {d : CallbackDev} (h : d.Ok) (d' : CallbackDev)
    (haddress : d'.address = d.address) (p : IntFuncDesc) (hfunc : p.func ≠ 0)
    (hfresh : p.address ∉ d.address :: d.nodes)
    (hperm : (d'.apuThFuncs ++ d'.apuBhFuncs).Perm (p :: (d.apuThFuncs ++ d.apuBhFuncs))) :
    d'.Ok where
  funcs q hq := by
    rcases List.mem_cons.mp (hperm.mem_iff.mp hq) with rfl | hbefore
    · exact hfunc
    · exact h.funcs q hbefore
  distinct := by
    have hnodes : (d'.address :: d'.nodes).Perm (p.address :: d.address :: d.nodes) := by
      rw [haddress]
      exact ((hperm.map IntFuncDesc.address).cons _).trans (List.Perm.swap _ _ _)
    exact hnodes.nodup_iff.mpr (List.nodup_cons.mpr ⟨hfresh, h.distinct⟩)

/-- Every device that was built is in order. -/
theorem CallbacksBuilt.ok {address : U64} {d : CallbackDev} (h : CallbacksBuilt address d) :
    d.Ok ∧ d.address = address := by
  induction h with
  | create =>
      refine ⟨⟨?_, List.nodup_singleton _⟩, rfl⟩
      intro p hp
      cases hp
  | @add d hbuilt list new func privateData hfresh ih =>
      obtain ⟨hok, haddress⟩ := ih
      rw [← haddress] at hfresh
      cases list with
      | apuTh =>
          refine ⟨?_, haddress⟩
          rcases addFunc_cases new func privateData d.apuThFuncs with hsame | ⟨hfunc, hadd⟩
          · refine hok.of_sublist _ rfl ?_
            show (addFunc new func privateData d.apuThFuncs ++ d.apuBhFuncs).Sublist _
            rw [hsame]
          · refine hok.of_insert _ rfl ⟨new, func, privateData⟩ hfunc hfresh ?_
            show (addFunc new func privateData d.apuThFuncs ++ d.apuBhFuncs).Perm _
            rw [hadd, List.append_assoc]
            exact List.perm_middle
      | apuBh =>
          refine ⟨?_, haddress⟩
          rcases addFunc_cases new func privateData d.apuBhFuncs with hsame | ⟨hfunc, hadd⟩
          · refine hok.of_sublist _ rfl ?_
            show (d.apuThFuncs ++ addFunc new func privateData d.apuBhFuncs).Sublist _
            rw [hsame]
          · refine hok.of_insert _ rfl ⟨new, func, privateData⟩ hfunc hfresh ?_
            show (d.apuThFuncs ++ addFunc new func privateData d.apuBhFuncs).Perm _
            rw [hadd, ← List.append_assoc]
            exact List.perm_append_singleton _ _
  | @remove d hbuilt list func ih =>
      obtain ⟨hok, haddress⟩ := ih
      cases list with
      | apuTh =>
          exact ⟨hok.of_sublist _ rfl ((removeFunc_sublist func _).append_right _), haddress⟩
      | apuBh =>
          exact ⟨hok.of_sublist _ rfl ((removeFunc_sublist func _).append_left _), haddress⟩

/-! ## The loops -/

/-- The first loop frees the nodes of the first list, one a round. -/
theorem freeThFuncs_frees {d : CallbackDev} (hfuncs : ∀ p ∈ d.apuThFuncs, p.func ≠ 0) :
    freeThFuncs (d.apuThFuncs.length + 1) d =
      .returned { d with
        apuThFuncs := []
        freed := d.freed ++ d.apuThFuncs.map IntFuncDesc.address } := by
  obtain ⟨address, list, bh, freed⟩ := d
  induction list generalizing freed with
  | nil => simp [freeThFuncs]
  | cons head rest ih =>
      have hhead : head.func ≠ 0 := hfuncs head List.mem_cons_self
      have hround : freeThFuncs (rest.length + 1 + 1) ⟨address, head :: rest, bh, freed⟩ =
          freeThFuncs (rest.length + 1) ⟨address, rest, bh, freed ++ [head.address]⟩ := by
        rw [freeThFuncs]
        simp only [CallbackDev.tl880RemoveIntCallback, removeFunc_head hhead]
      show freeThFuncs (rest.length + 1 + 1) ⟨address, head :: rest, bh, freed⟩ = _
      rw [hround, ih _ fun p hp => hfuncs p (List.mem_cons_of_mem head hp)]
      simp

/-- Where the first loop ends, its list is empty, and the other one is as it was. -/
theorem freeThFuncs_returned {fuel : Nat} {d d' : CallbackDev}
    (h : freeThFuncs fuel d = .returned d') :
    d'.apuThFuncs = [] ∧ d'.apuBhFuncs = d.apuBhFuncs := by
  induction fuel generalizing d with
  | zero => cases h
  | succ fuel ih =>
      rw [freeThFuncs] at h
      cases hlist : d.apuThFuncs with
      | nil =>
          simp only [hlist] at h
          cases h
          exact ⟨hlist, rfl⟩
      | cons head rest =>
          simp only [hlist] at h
          obtain ⟨hempty, hsame⟩ := ih h
          exact ⟨hempty, hsame⟩

/-- The second loop does not return while its list has a node and the first one has none. -/
theorem freeBhFuncs_ne_returned {d : CallbackDev} (hth : d.apuThFuncs = [])
    (hbh : d.apuBhFuncs ≠ []) (fuel : Nat) (d' : CallbackDev) :
    freeBhFuncs fuel d ≠ .returned d' := by
  cases fuel with
  | zero => simp [freeBhFuncs]
  | succ fuel =>
      cases hlist : d.apuBhFuncs with
      | nil => exact absurd hlist hbh
      | cons head rest => simp [freeBhFuncs, hlist, hth]

/-- Where the call returns, both loops have. -/
theorem tl880DeleteDev_returned {fuel : Nat} {d d' : CallbackDev}
    (h : CallbackDev.tl880DeleteDev fuel d = .returned d') :
    ∃ d₁ d₂, freeThFuncs fuel d = .returned d₁ ∧ freeBhFuncs fuel d₁ = .returned d₂ := by
  rw [CallbackDev.tl880DeleteDev] at h
  cases hfirst : freeThFuncs fuel d with
  | running => simp [hfirst] at h
  | nullDereference => simp [hfirst] at h
  | returned d₁ =>
      cases hsecond : freeBhFuncs fuel d₁ with
      | running => simp [hfirst, hsecond] at h
      | nullDereference => simp [hfirst, hsecond] at h
      | returned d₂ => exact ⟨d₁, d₂, rfl, hsecond⟩

/-- A device is deleted properly exactly when it has no callbacks for the bottom half. -/
theorem tl880DeleteDev_proper_iff {address : U64} {d : CallbackDev}
    (h : CallbacksBuilt address d) : DeletesProperly d ↔ d.apuBhFuncs = [] := by
  obtain ⟨hok, -⟩ := h.ok
  constructor
  · rintro ⟨fuel, d', nodes, hcall, -⟩
    by_contra hbh
    obtain ⟨d₁, d₂, hfirst, hsecond⟩ := tl880DeleteDev_returned hcall
    obtain ⟨hth, hsame⟩ := freeThFuncs_returned hfirst
    have hne : d₁.apuBhFuncs ≠ [] := by
      rw [hsame]
      exact hbh
    exact freeBhFuncs_ne_returned hth hne fuel d₂ hsecond
  · intro hbh
    have hnodes : d.nodes = d.apuThFuncs.map IntFuncDesc.address := by
      rw [CallbackDev.nodes, hbh, List.append_nil]
    have hfuncs : ∀ p ∈ d.apuThFuncs, p.func ≠ 0 :=
      fun p hp => hok.funcs p (List.mem_append_left _ hp)
    have hfirst : freeThFuncs (d.apuThFuncs.length + 1) { d with freed := [] } =
        .returned { d with apuThFuncs := [], freed := d.nodes } := by
      rw [hnodes]
      exact freeThFuncs_frees hfuncs
    refine ⟨d.apuThFuncs.length + 1,
      { d with apuThFuncs := [], freed := d.nodes ++ [d.address] }, d.nodes, ?_, rfl,
      List.Perm.refl _, ?_⟩
    · rw [CallbackDev.tl880DeleteDev, hfirst]
      simp only [freeBhFuncs, hbh]
    · exact (List.perm_append_singleton _ _).nodup_iff.mpr hok.distinct

/-- A device with one callback of each kind, of which the one for the bottom half is removed
again. -/
theorem tl880DeleteDev_proper_iff_one :
    DeletesProperly ⟨0x1000, [⟨0x2000, 0xf00, 0⟩], [], [0x3000]⟩ ↔ ([] : List IntFuncDesc) = [] :=
  tl880DeleteDev_proper_iff
    (((CallbacksBuilt.create.add .apuTh 0x2000 0xf00 0 (by decide)).add .apuBh 0x3000 0xb00 7
      (by decide)).remove .apuBh 0xb00)

/-- A device with a callback for the bottom half is not deleted: the call follows NULL. -/
theorem tl880DeleteDev_bh_fails :
    ¬ ∀ (address : U64) (d : CallbackDev), CallbacksBuilt address d → DeletesProperly d := by
  intro hall
  have hbuilt : CallbacksBuilt 0x1000 ⟨0x1000, [], [⟨0x3000, 0xb00, 7⟩], []⟩ :=
    CallbacksBuilt.create.add .apuBh 0x3000 0xb00 7 (by decide)
  obtain ⟨fuel, d', nodes, hcall, -⟩ := hall _ _ hbuilt
  cases fuel with
  | zero => cases hcall
  | succ fuel => cases hcall

end Tl880
