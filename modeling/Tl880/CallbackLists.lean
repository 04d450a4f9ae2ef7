import Tl880.DeleteDev
import Tl880.Interrupt
import Tl880.Lib.PointerList

/-!
# Callback lists

`tl880_add_int_callback`, `tl880_remove_int_callback` and `tl880_run_callbacks` of
`driver/tl880int.c` on the nodes in memory, for a device and a `list` that are not NULL.

There are two models above this one: the list of nodes that `tl880_delete_dev` works on, and the
sequence of functions with their data, to which an added pair is appended and from which the
first pair of a removed function is erased.  A call does the same on all three
(`intCall_refines`, `IntCall.onList_pairs`).
-/

namespace Tl880

open PointerList LinkedList

/-! ## The driver -/

/-- `struct int_func_desc` with its `next`. -/
structure FuncNode where
  func : U64
  privateData : U64
  next : U64
deriving DecidableEq

/-- `*list` and the memory behind it, and what was given to `kfree`, the oldest first.  A node
is known by its address, and 0 is NULL. -/
structure FuncMem where
  list : U64
  node : U64 → FuncNode
  freed : List U64

namespace FuncMem

def setNode (m : FuncMem) (a : U64) (n : FuncNode) : FuncMem :=
  { m with node := Function.update m.node a n }

/-- `tl880_add_int_callback`, where `kmalloc` returns `new`, for at most `fuel` rounds of its
loop; `none` is a loop still running. -/
def tl880AddIntCallback (fuel : Nat) (m : FuncMem) (new func privateData : U64) :
    Option (Int × FuncMem) :=
  if func = 0 then some (-1, m)
  else if new = 0 then some (-1, m)
  else
    let m := m.setNode new ⟨func, privateData, 0⟩
    if m.list = 0 then some (0, { m with list := new })
    else
      (walk FuncNode.next m.node (fun p => (m.node p).next ≠ 0) fuel m.list).map fun p =>
        (0, m.setNode p { m.node p with next := new })

/-- `tl880_remove_int_callback`, for at most `fuel` rounds of its loop. -/
def tl880RemoveIntCallback (fuel : Nat) (m : FuncMem) (func : U64) : Option FuncMem :=
  if func = 0 then some m
  else if m.list = 0 then some m
  else if (m.node m.list).func = func then
    some { m with list := (m.node m.list).next, freed := m.freed ++ [m.list] }
  else
    (walk FuncNode.next m.node
      (fun p => (m.node p).next ≠ 0 ∧ (m.node (m.node p).next).func ≠ func) fuel m.list).map
      fun p =>
        let p2 := (m.node p).next
        if p2 ≠ 0 ∧ (m.node p2).func = func then
          { m.setNode p { m.node p with next := (m.node p2).next } with
            freed := m.freed ++ [p2] }
        else m

/-- The loop of `tl880_run_callbacks` from `p` on, for at most `fuel` rounds.  `call` is what a
function does with its data to the rest of the system; the functions leave the list alone. -/
def runCallbacksFrom {S : Type*} (call : U64 → U64 → S → S) (m : FuncMem) :
    Nat → U64 → S → Option S
  | 0, _, _ => none
  | fuel + 1, p, s =>
      if p ≠ 0 then
        runCallbacksFrom call m fuel (m.node p).next
          (call (m.node p).func (m.node p).privateData s)
      else some s

/-- `tl880_run_callbacks` -/
def tl880RunCallbacks {S : Type*} (call : U64 → U64 → S → S) (fuel : Nat) (m : FuncMem) (s : S) :
    Option S :=
  runCallbacksFrom call m fuel m.list s

end FuncMem

/-- A call that changes a list. -/
inductive IntCall
  /-- `new` is what `kmalloc` returns, if it is called -/
  | add (new func privateData : U64)
  | remove (func : U64)
deriving DecidableEq

/-- The memory after a call. -/
def intCall (fuel : Nat) (m : FuncMem) : IntCall → Option FuncMem
  | .add new func privateData => (m.tl880AddIntCallback fuel new func privateData).map Prod.snd
  | .remove func => m.tl880RemoveIntCallback fuel func

/-- The memory after calls, one after the other. -/
def intCalls (fuel : Nat) : List IntCall → FuncMem → Option FuncMem
  | [], m => some m
  | call :: calls, m => (intCall fuel m call).bind (intCalls fuel calls)

/-! ## Lists and sequences -/

namespace FuncMem

/-- The list has its nodes at `nodes`. -/
def IsList (m : FuncMem) (nodes : List U64) : Prop := Chain 0 FuncNode.next m.node m.list nodes

/-- The node at an address is in the list. -/
def Reachable (m : FuncMem) (a : U64) : Prop :=
  PointerList.Reachable 0 FuncNode.next m.node m.list a

/-- The nodes at some addresses, as `tl880_delete_dev` has them. -/
def descs (m : FuncMem) (nodes : List U64) : List IntFuncDesc :=
  nodes.map fun a => ⟨a, (m.node a).func, (m.node a).privateData⟩

/-- The functions at some addresses, with their data. -/
def pairs (m : FuncMem) (nodes : List U64) : List (U64 × U64) :=
  nodes.map fun a => ((m.node a).func, (m.node a).privateData)

end FuncMem

namespace IntCall

/-- The memory that a call takes from `kmalloc` for good. -/
def allocated : IntCall → List U64
  | .add new func _ => if func = 0 ∨ new = 0 then [] else [new]
  | .remove _ => []

/-- What a call does to the list of nodes, and the nodes that it frees. -/
def onList : IntCall → List IntFuncDesc → List IntFuncDesc × List U64
  | .add new func privateData, list => (addFunc new func privateData list, [])
  | .remove func, list => removeFunc func list

/-- What a call does to the sequence: an add that succeeds appends, a remove erases the first
pair of its function. -/
def onPairs : IntCall → List (U64 × U64) → List (U64 × U64)
  | .add new func privateData, pairs =>
      if func = 0 ∨ new = 0 then pairs else pairs ++ [(func, privateData)]
  | .remove func, pairs => pairs.eraseP fun p => p.1 = func

end IntCall

/-- `kmalloc` never returns a node of the list. -/
def KmallocFresh (fuel : Nat) : List IntCall → FuncMem → Prop
  | [], _ => True
  | call :: calls, m =>
      (∀ a ∈ call.allocated, ¬ m.Reachable a) ∧
        ∀ m', intCall fuel m call = some m' → KmallocFresh fuel calls m'

/-! ## From the list of nodes to the sequence -/

/-- What a remove does where no node has the function. -/
theorem removeFunc_none {func : U64} {list : List IntFuncDesc}
    (h : ∀ c ∈ list, c.func ≠ func) : removeFunc func list = (list, []) := by
  unfold removeFunc
  split_ifs
  · rfl
  cases list with
  | nil => rfl
  | cons head rest =>
      have hkey : func ∉ (head :: rest).map IntFuncDesc.func := by
        intro hmem
        obtain ⟨c, hc, heq⟩ := List.mem_map.mp hmem
        exact h c hc heq
      simp [h head List.mem_cons_self, unlinkNext_eq_none IntFuncDesc.func hkey]

/-- What it does where one is the first that has it. -/
theorem removeFunc_first {func : U64} (hfunc : func ≠ 0) {pre post : List IntFuncDesc}
    {p : IntFuncDesc} (hpre : ∀ c ∈ pre, c.func ≠ func) (hp : p.func = func) :
    removeFunc func (pre ++ p :: post) = (pre ++ post, [p.address]) := by
  cases pre with
  | nil =>
      rw [← hp] at hfunc ⊢
      exact removeFunc_head hfunc post
  | cons head pre =>
      have hhead : head.func ≠ func := hpre head List.mem_cons_self
      have hkey : func ∉ pre.map IntFuncDesc.func := by
        intro hmem
        obtain ⟨c, hc, heq⟩ := List.mem_map.mp hmem
        exact hpre c (List.mem_cons_of_mem head hc) heq
      have hfind : (pre ++ p :: post).find? (fun p => p.func = func) = some p := by
        rw [List.find?_eq_some_iff_append]
        refine ⟨by simpa using hp, pre, post, rfl, ?_⟩
        intro c hc
        simpa using hpre c (List.mem_cons_of_mem head hc)
      rw [List.cons_append, removeFunc, if_neg hfunc]
      simp only [if_neg hhead, hfind, unlinkNext_append IntFuncDesc.func hkey hp,
        List.cons_append]

/-- What an add does. -/
theorem addFunc_eq (new func privateData : U64) (list : List IntFuncDesc) :
    addFunc new func privateData list =
      if func = 0 ∨ new = 0 then list else list ++ [⟨new, func, privateData⟩] := by
  unfold addFunc
  by_cases hfunc : func = 0
  · rw [if_pos hfunc, if_pos (Or.inl hfunc)]
  by_cases hnew : new = 0
  · rw [if_neg hfunc, if_pos hnew, if_pos (Or.inr hnew)]
  · rw [if_neg hfunc, if_neg hnew, if_neg (not_or.mpr ⟨hfunc, hnew⟩), appendLast_eq]

/-- The function of a node and its data. -/
def IntFuncDesc.pair (p : IntFuncDesc) : U64 × U64 := (p.func, p.privateData)

/-- The sequence of a list changes as the list does. -/
theorem IntCall.onList_pairs (call : IntCall) {list : List IntFuncDesc}
    (hfuncs : ∀ p ∈ list, p.func ≠ 0) :
    (call.onList list).1.map IntFuncDesc.pair = call.onPairs (list.map IntFuncDesc.pair) := by
  cases call with
  | add new func privateData =>
      simp only [onList, onPairs, addFunc_eq]
      split_ifs
      · rfl
      · simp [IntFuncDesc.pair]
  | remove func =>
      simp only [onList, onPairs]
      rcases firstKey_cases IntFuncDesc.func func list with hnone | ⟨pre, p, post, rfl, hpre, hp⟩
      · rw [removeFunc_none hnone, List.eraseP_of_forall_not]
        intro q hq
        obtain ⟨c, hc, rfl⟩ := List.mem_map.mp hq
        exact fun heq => hnone c hc (of_decide_eq_true heq)
      · have hfunc : func ≠ 0 := hp ▸ hfuncs p (by simp)
        have hskip : ∀ q ∈ pre.map IntFuncDesc.pair, ¬ (decide (q.1 = func)) = true := by
          intro q hq
          obtain ⟨c, hc, rfl⟩ := List.mem_map.mp hq
          exact fun heq => hpre c hc (of_decide_eq_true heq)
        have hfound : (p.pair :: post.map IntFuncDesc.pair).eraseP (fun q => q.1 = func) =
            post.map IntFuncDesc.pair := List.eraseP_cons_of_pos (decide_eq_true hp)
        rw [removeFunc_first hfunc hpre hp]
        simp only [List.map_append, List.map_cons]
        rw [List.eraseP_append_right _ hskip, hfound]

/-- The nodes before a call and those it takes are the nodes it frees and those after it. -/
theorem IntCall.onList_nodes (call : IntCall) (list : List IntFuncDesc) :
    ((call.onList list).2 ++ (call.onList list).1.map IntFuncDesc.address).Perm
      (list.map IntFuncDesc.address ++ call.allocated) := by
  cases call with
  | add new func privateData =>
      simp only [onList, allocated, addFunc_eq]
      split_ifs <;> simp
  | remove func =>
      simp only [onList, allocated, List.append_nil]
      by_cases hfunc : func = 0
      · simp [removeFunc, hfunc]
      rcases firstKey_cases IntFuncDesc.func func list with hnone | ⟨pre, p, post, rfl, hpre, hp⟩
      · simp [removeFunc_none hnone]
      · rw [removeFunc_first hfunc hpre hp]
        simp only [List.map_append, List.map_cons, List.singleton_append]
        exact List.perm_middle.symm

/-- No call puts a node without a function into a list. -/
theorem IntCall.onList_funcs (call : IntCall) {list : List IntFuncDesc}
    (hfuncs : ∀ p ∈ list, p.func ≠ 0) : ∀ p ∈ (call.onList list).1, p.func ≠ 0 := by
  intro p hp
  cases call with
  | add new func privateData =>
      rcases addFunc_cases new func privateData list with hsame | ⟨hfunc, hadd⟩
      · rw [onList, hsame] at hp
        exact hfuncs p hp
      · rw [onList, hadd, List.mem_append, List.mem_singleton] at hp
        rcases hp with hp | rfl
        · exact hfuncs p hp
        · exact hfunc
  | remove func => exact hfuncs p ((removeFunc_sublist func list).subset hp)

/-! ## From the memory to the list of nodes -/

namespace FuncMem

variable {m : FuncMem} {nodes pre post : List U64} {a b p func : U64}

@[simp] theorem setNode_list (n : FuncNode) : (m.setNode a n).list = m.list := rfl

@[simp] theorem setNode_freed (n : FuncNode) : (m.setNode a n).freed = m.freed := rfl

@[simp] theorem setNode_node_self (n : FuncNode) : (m.setNode a n).node a = n := by
  simp [setNode]

theorem setNode_node_other (n : FuncNode) (h : b ≠ a) : (m.setNode a n).node b = m.node b := by
  simp [setNode, h]

@[simp] theorem descs_address (m : FuncMem) (nodes : List U64) :
    (m.descs nodes).map IntFuncDesc.address = nodes := by
  simp [descs, Function.comp_def]

theorem descs_pair (m : FuncMem) (nodes : List U64) :
    (m.descs nodes).map IntFuncDesc.pair = m.pairs nodes := by
  simp [descs, pairs, IntFuncDesc.pair]

theorem descs_append (m : FuncMem) (pre post : List U64) :
    m.descs (pre ++ post) = m.descs pre ++ m.descs post := List.map_append

/-- The list of nodes depends on the functions and the data only. -/
theorem descs_congr {m' : FuncMem}
    (h : ∀ a ∈ nodes, (m'.node a).func = (m.node a).func ∧
      (m'.node a).privateData = (m.node a).privateData) : m'.descs nodes = m.descs nodes := by
  refine List.map_congr_left ?_
  intro a ha
  rw [(h a ha).1, (h a ha).2]

/-- Changing where a node points to leaves its function and its data. -/
theorem descs_setNext (m : FuncMem) (a next : U64) (nodes : List U64) :
    (m.setNode a { m.node a with next := next }).descs nodes = m.descs nodes := by
  refine descs_congr ?_
  intro b _
  by_cases hb : b = a
  · rw [hb, setNode_node_self]
    exact ⟨rfl, rfl⟩
  · rw [setNode_node_other _ hb]
    exact ⟨rfl, rfl⟩

/-- Writing a node that is not in the list leaves the list. -/
theorem setNode_isList (h : m.IsList nodes) (hfresh : a ∉ nodes) (n : FuncNode) :
    (m.setNode a n).IsList nodes ∧ (m.setNode a n).descs nodes = m.descs nodes := by
  have hother : ∀ c ∈ nodes, (m.setNode a n).node c = m.node c := by
    intro c hc
    refine setNode_node_other n ?_
    rintro rfl
    exact hfresh hc
  constructor
  · exact h.frame fun c hc => congrArg FuncNode.next (hother c hc)
  · refine descs_congr ?_
    intro c hc
    rw [hother c hc]
    exact ⟨rfl, rfl⟩

/-- The last node points to a new one. -/
theorem setNext_link (h : m.IsList (pre ++ [p])) (hb : b ≠ 0) (hfresh : b ∉ pre ++ [p])
    (hend : (m.node b).next = 0) :
    (m.setNode p { m.node p with next := b }).IsList (pre ++ [p] ++ [b]) := by
  have hlast : b ≠ p := by
    rintro rfl
    exact hfresh (by simp)
  have hkept : ∀ c ∈ pre, c ≠ p := by
    rintro c hc rfl
    exact List.disjoint_of_nodup_append h.nodup hc (List.mem_singleton_self c)
  rw [IsList, List.append_assoc, List.singleton_append]
  refine Chain.link h hb ?_ ?_ ?_
  · rw [setNode_node_self]
  · rw [setNode_node_other _ hlast, hend]
  · intro c hc
    rw [setNode_node_other _ (hkept c hc)]

/-- A node points past the one behind it. -/
theorem setNext_unlink (h : m.IsList (pre ++ a :: p :: post)) :
    (m.setNode a { m.node a with next := (m.node p).next }).IsList (pre ++ a :: post) := by
  have hother : ∀ c ∈ pre ++ post, c ≠ a := by
    have hnodup := List.nodup_middle.mp h.nodup
    rintro c hc rfl
    refine (List.nodup_cons.mp hnodup).1 ?_
    simp only [List.mem_append, List.mem_cons] at hc ⊢
    exact hc.imp_right Or.inr
  refine Chain.unlink h ?_ ?_ ?_
  · rw [setNode_node_self]
  · intro c hc
    rw [setNode_node_other _ (hother c (List.mem_append_left post hc))]
  · intro c hc
    rw [setNode_node_other _ (hother c (List.mem_append_right pre hc))]

/-- An add with a function and memory links a new node behind the last one. -/
theorem tl880AddIntCallback_links (h : m.IsList nodes) {new : U64} (privateData : U64)
    (hfunc : func ≠ 0) (hnew : new ≠ 0) (hfresh : new ∉ nodes) :
    ∃ m', (∀ fuel, nodes.length < fuel →
        m.tl880AddIntCallback fuel new func privateData = some (0, m')) ∧
      m'.IsList (nodes ++ [new]) ∧ m'.freed = m.freed ∧
      m'.descs (nodes ++ [new]) = m.descs nodes ++ [⟨new, func, privateData⟩] := by
  obtain ⟨hlist, hsame⟩ := setNode_isList h hfresh ⟨func, privateData, 0⟩
  have hdescs : (m.setNode new ⟨func, privateData, 0⟩).descs (nodes ++ [new]) =
      m.descs nodes ++ [⟨new, func, privateData⟩] := by
    rw [descs_append, hsame]
    simp [descs]
  cases nodes using List.reverseRecOn with
  | nil =>
      refine ⟨{ m.setNode new ⟨func, privateData, 0⟩ with list := new }, ?_, ?_, rfl, hdescs⟩
      · intro fuel _
        have hnull : m.list = 0 := h
        rw [tl880AddIntCallback, if_neg hfunc, if_neg hnew]
        exact if_pos hnull
      · refine ⟨rfl, hnew, ?_⟩
        simp
  | append_singleton pre last =>
      obtain ⟨-, hne⟩ := h.start_mem
      have hend : ((m.setNode new ⟨func, privateData, 0⟩).node last).next = 0 :=
        (chain_append.mp hlist).2.2
      refine ⟨(m.setNode new ⟨func, privateData, 0⟩).setNode last
        { (m.setNode new ⟨func, privateData, 0⟩).node last with next := new }, ?_, ?_, rfl, ?_⟩
      · intro fuel hfuel
        rw [tl880AddIntCallback, if_neg hfunc, if_neg hnew]
        refine (if_neg hne).trans ?_
        rw [hlist.walk_eq]
        · rfl
        · intro c hc
          exact decide_eq_true (hlist.next_mem hc).2
        · exact decide_eq_false (not_not_intro hend)
        · simp only [List.length_append] at hfuel
          omega
      · refine setNext_link hlist hnew hfresh ?_
        rw [setNode_node_self]
      · rw [descs_setNext]
        exact hdescs

/-- An add without a function or without memory fails. -/
theorem tl880AddIntCallback_fails (fuel : Nat) (m : FuncMem) {new : U64} (privateData : U64)
    (h : func = 0 ∨ new = 0) : m.tl880AddIntCallback fuel new func privateData = some (-1, m) := by
  by_cases hfunc : func = 0
  · exact if_pos hfunc
  · rw [tl880AddIntCallback, if_neg hfunc]
    exact if_pos (h.resolve_left hfunc)

/-- A remove of a function that no node has changes nothing. -/
theorem tl880RemoveIntCallback_none (h : m.IsList nodes)
    (hnone : ∀ c ∈ nodes, (m.node c).func ≠ func) {fuel : Nat} (hfuel : nodes.length < fuel) :
    m.tl880RemoveIntCallback fuel func = some m := by
  unfold tl880RemoveIntCallback
  split_ifs with hfunc hnull hhead
  · rfl
  · rfl
  · obtain ⟨rest, rfl⟩ := h.eq_cons hnull
    exact absurd hhead (hnone m.list List.mem_cons_self)
  · cases nodes using List.reverseRecOn with
    | nil => exact absurd h hnull
    | append_singleton pre last =>
        have hend : (m.node last).next = 0 := (chain_append.mp h).2.2
        rw [h.walk_eq]
        · simp [hend]
        · intro c hc
          obtain ⟨hmem, hne⟩ := h.next_mem hc
          exact decide_eq_true ⟨hne, hnone _ hmem⟩
        · refine decide_eq_false ?_
          rintro ⟨hne, -⟩
          exact hne hend
        · simp only [List.length_append] at hfuel
          omega

/-- A remove takes out the first node that has the function, and frees it. -/
theorem tl880RemoveIntCallback_first (h : m.IsList (pre ++ p :: post)) (hfunc : func ≠ 0)
    (hpre : ∀ c ∈ pre, (m.node c).func ≠ func) (hp : (m.node p).func = func) :
    ∃ m', (∀ fuel, (pre ++ p :: post).length < fuel →
        m.tl880RemoveIntCallback fuel func = some m') ∧
      m'.IsList (pre ++ post) ∧ m'.freed = m.freed ++ [p] ∧
      m'.descs (pre ++ post) = m.descs (pre ++ post) := by
  cases pre using List.reverseRecOn with
  | nil =>
      have hhead : m.list = p := h.1
      have hne : m.list ≠ 0 := hhead ▸ h.2.1
      refine ⟨{ m with list := (m.node p).next, freed := m.freed ++ [p] }, ?_, h.2.2, rfl, rfl⟩
      intro fuel _
      rw [tl880RemoveIntCallback, if_neg hfunc, if_neg hne, hhead]
      exact if_pos hp
  | append_singleton front q =>
      -- the walk ends at `q`, the node before the one that is looked for
      rw [List.append_assoc, List.singleton_append] at h
      obtain ⟨hmem, hne⟩ := h.start_mem
      obtain ⟨-, -, hnext, hpne, -⟩ := chain_append.mp h
      refine ⟨{ m.setNode q { m.node q with next := (m.node p).next } with
          freed := m.freed ++ [p] }, ?_, ?_, rfl, descs_setNext m q _ _⟩
      · intro fuel hfuel
        have hfound : p ≠ 0 ∧ (m.node p).func = func := ⟨hpne, hp⟩
        rw [tl880RemoveIntCallback, if_neg hfunc, if_neg hne, if_neg (hpre m.list hmem), h.walk_eq]
        · simp only [Option.map_some, hnext, if_pos hfound]
        · intro c hc
          obtain ⟨hcmem, hcne⟩ := h.next_mem hc
          exact decide_eq_true ⟨hcne, hpre _ hcmem⟩
        · refine decide_eq_false ?_
          rintro ⟨-, hother⟩
          rw [hnext] at hother
          exact hother hp
        · simp only [List.length_append, List.length_cons] at hfuel
          omega
      · rw [IsList, List.append_assoc, List.singleton_append]
        exact setNext_unlink h

/-- The loop of `tl880_run_callbacks` takes the functions in the order of the list. -/
theorem runCallbacksFrom_eq {S : Type*} (call : U64 → U64 → S → S)
    (h : Chain 0 FuncNode.next m.node p nodes) {fuel : Nat} (hfuel : nodes.length < fuel) (s : S) :
    runCallbacksFrom call m fuel p s = some (Tl880.tl880RunCallbacks call (m.pairs nodes) s) := by
  induction nodes generalizing p fuel s with
  | nil =>
      cases fuel with
      | zero => simp at hfuel
      | succ fuel =>
          rw [chain_nil] at h
          simp [runCallbacksFrom, h, pairs, Tl880.tl880RunCallbacks]
  | cons a nodes ih =>
      obtain ⟨rfl, hne, hrest⟩ := h
      cases fuel with
      | zero => simp at hfuel
      | succ fuel =>
          simp only [List.length_cons] at hfuel
          rw [runCallbacksFrom, if_pos hne, ih hrest (by omega)]
          rfl

end FuncMem

/-- Every entry is called once with its own data, in order. -/
theorem tl880RunCallbacks_eq_foldl {F D S : Type*} (call : F → D → S → S) (funcs : List (F × D))
    (s : S) : tl880RunCallbacks call funcs s = funcs.foldl (fun s p => call p.1 p.2 s) s := by
  induction funcs generalizing s with
  | nil => rfl
  | cons p rest ih => exact ih _

/-- An add on the memory does to the list of nodes what the model of the list says. -/
theorem FuncMem.tl880AddIntCallback_refines {m : FuncMem} {nodes : List U64} (h : m.IsList nodes)
    {new func : U64} (privateData : U64) (hfresh : ¬ (func = 0 ∨ new = 0) → new ∉ nodes) :
    ∃ ret m' nodes', (∀ fuel, nodes.length < fuel →
        m.tl880AddIntCallback fuel new func privateData = some (ret, m')) ∧
      m'.IsList nodes' ∧ m'.descs nodes' = addFunc new func privateData (m.descs nodes) ∧
      m'.freed = m.freed := by
  rw [addFunc_eq]
  by_cases hfails : func = 0 ∨ new = 0
  · refine ⟨-1, m, nodes, ?_, h, (if_pos hfails).symm, rfl⟩
    intro fuel _
    exact m.tl880AddIntCallback_fails fuel privateData hfails
  · obtain ⟨hfunc, hnew⟩ := not_or.mp hfails
    obtain ⟨m', hrun, hlist, hfreed, hdescs⟩ :=
      FuncMem.tl880AddIntCallback_links h privateData hfunc hnew (hfresh hfails)
    refine ⟨0, m', nodes ++ [new], hrun, hlist, ?_, hfreed⟩
    rw [hdescs, if_neg hfails]

/-- So does a remove. -/
theorem FuncMem.tl880RemoveIntCallback_refines {m : FuncMem} {nodes : List U64}
    (h : m.IsList nodes) (func : U64) :
    ∃ m' nodes', (∀ fuel, nodes.length < fuel →
        m.tl880RemoveIntCallback fuel func = some m') ∧
      m'.IsList nodes' ∧ m'.descs nodes' = (removeFunc func (m.descs nodes)).1 ∧
      m'.freed = m.freed ++ (removeFunc func (m.descs nodes)).2 := by
  rcases firstKey_cases (fun a => (m.node a).func) func nodes with
    hnone | ⟨pre, p, post, rfl, hpre, hp⟩
  · have hsame : removeFunc func (m.descs nodes) = (m.descs nodes, []) := by
      refine removeFunc_none ?_
      intro c hc
      obtain ⟨a, ha, rfl⟩ := List.mem_map.mp hc
      exact hnone a ha
    rw [hsame, List.append_nil]
    refine ⟨m, nodes, ?_, h, rfl, rfl⟩
    intro fuel hfuel
    exact FuncMem.tl880RemoveIntCallback_none h hnone hfuel
  by_cases hfunc : func = 0
  · have hsame : removeFunc func (m.descs (pre ++ p :: post)) =
        (m.descs (pre ++ p :: post), []) := if_pos hfunc
    rw [hsame, List.append_nil]
    refine ⟨m, pre ++ p :: post, ?_, h, rfl, rfl⟩
    intro fuel _
    exact if_pos hfunc
  · have hremoved : removeFunc func (m.descs (pre ++ p :: post)) =
        (m.descs (pre ++ post), [p]) := by
      rw [FuncMem.descs_append, FuncMem.descs_append]
      refine removeFunc_first hfunc ?_ hp
      intro c hc
      obtain ⟨a, ha, rfl⟩ := List.mem_map.mp hc
      exact hpre a ha
    obtain ⟨m', hrun, hlist, hfreed, hdescs⟩ :=
      FuncMem.tl880RemoveIntCallback_first h hfunc hpre hp
    rw [hremoved]
    exact ⟨m', pre ++ post, hrun, hlist, hdescs, hfreed⟩

/-- A call on the memory does to the list of nodes what the model of the list says. -/
theorem intCall_refines {m : FuncMem} {nodes : List U64} (h : m.IsList nodes) (call : IntCall)
    (hfresh : ∀ a ∈ call.allocated, a ∉ nodes) :
    ∃ m' nodes', (∀ fuel, nodes.length < fuel → intCall fuel m call = some m') ∧
      m'.IsList nodes' ∧ m'.descs nodes' = (call.onList (m.descs nodes)).1 ∧
      m'.freed = m.freed ++ (call.onList (m.descs nodes)).2 := by
  cases call with
  | add new func privateData =>
      have hnode : ¬ (func = 0 ∨ new = 0) → new ∉ nodes := by
        intro hok
        refine hfresh new ?_
        rw [IntCall.allocated, if_neg hok]
        exact List.mem_singleton_self new
      obtain ⟨ret, m', nodes', hrun, hlist, hdescs, hfreed⟩ :=
        FuncMem.tl880AddIntCallback_refines h privateData hnode
      refine ⟨m', nodes', ?_, hlist, hdescs, ?_⟩
      · intro fuel hfuel
        rw [intCall, hrun fuel hfuel]
        rfl
      · rw [hfreed]
        exact (List.append_nil _).symm
  | remove func => exact FuncMem.tl880RemoveIntCallback_refines h func

/-! ## Histories -/

theorem IntCall.allocated_length (call : IntCall) : call.allocated.length ≤ 1 := by
  cases call with
  | add new func privateData =>
      rw [allocated]
      split_ifs <;> simp
  | remove func => simp [allocated]

/-- What one call does to the sequence and to the nodes in use; `gone` is what it frees. -/
theorem intCall_spec {m : FuncMem} {nodes : List U64} (h : m.IsList nodes)
    (hfuncs : ∀ p ∈ m.descs nodes, p.func ≠ 0) (call : IntCall)
    (hfresh : ∀ a ∈ call.allocated, a ∉ nodes) :
    ∃ m' nodes' gone, (∀ fuel, nodes.length < fuel → intCall fuel m call = some m') ∧
      m'.IsList nodes' ∧ nodes'.length ≤ nodes.length + 1 ∧
      (∀ p ∈ m'.descs nodes', p.func ≠ 0) ∧
      m'.pairs nodes' = call.onPairs (m.pairs nodes) ∧
      m'.freed = m.freed ++ gone ∧ (gone ++ nodes').Perm (nodes ++ call.allocated) := by
  obtain ⟨m', nodes', hrun, hlist, hdescs, hfreed⟩ := intCall_refines h call hfresh
  have hledger := call.onList_nodes (m.descs nodes)
  rw [← hdescs, FuncMem.descs_address, FuncMem.descs_address] at hledger
  refine ⟨m', nodes', (call.onList (m.descs nodes)).2, hrun, hlist, ?_, ?_, ?_, hfreed, hledger⟩
  · have hlength := hledger.length_eq
    have hone := call.allocated_length
    simp only [List.length_append] at hlength
    omega
  · rw [hdescs]
    exact call.onList_funcs hfuncs
  · rw [← FuncMem.descs_pair, hdescs, call.onList_pairs hfuncs, FuncMem.descs_pair]

/-- What a history of calls does. -/
theorem intCalls_spec {fuel : Nat} (calls : List IntCall) {m : FuncMem} {nodes : List U64}
    (h : m.IsList nodes) (hfuncs : ∀ p ∈ m.descs nodes, p.func ≠ 0)
    (hfuel : nodes.length + calls.length < fuel) (hfresh : KmallocFresh fuel calls m) :
    ∃ m' nodes', intCalls fuel calls m = some m' ∧ m'.IsList nodes' ∧ nodes'.length < fuel ∧
      (∀ p ∈ m'.descs nodes', p.func ≠ 0) ∧
      m'.pairs nodes' = calls.foldl (fun pairs call => call.onPairs pairs) (m.pairs nodes) ∧
      (m'.freed ++ nodes').Perm (m.freed ++ nodes ++ calls.flatMap IntCall.allocated) := by
  induction calls generalizing m nodes with
  | nil => exact ⟨m, nodes, rfl, h, by simpa using hfuel, hfuncs, rfl, by simp⟩
  | cons call calls ih =>
      obtain ⟨hcall, hrest⟩ := hfresh
      have hunused : ∀ a ∈ call.allocated, a ∉ nodes := by
        intro a ha hmem
        exact hcall a ha (h.reachable_iff.mpr hmem)
      obtain ⟨m₁, nodes₁, gone, hrun₁, hlist₁, hlength₁, hfuncs₁, hpairs₁, hfreed₁, hledger₁⟩ :=
        intCall_spec h hfuncs call hunused
      simp only [List.length_cons] at hfuel
      have hrun := hrun₁ fuel (by omega)
      obtain ⟨m', nodes', hrun', hlist, hlength, hfuncs', hpairs, hledger⟩ :=
        ih hlist₁ hfuncs₁ (by omega) (hrest m₁ hrun)
      refine ⟨m', nodes', ?_, hlist, hlength, hfuncs', ?_, ?_⟩
      · rw [intCalls, hrun]
        exact hrun'
      · rw [hpairs, hpairs₁]
        rfl
      · have hstep : (m₁.freed ++ nodes₁).Perm (m.freed ++ nodes ++ call.allocated) := by
          rw [hfreed₁, List.append_assoc, List.append_assoc]
          exact hledger₁.append_left m.freed
        rw [List.flatMap_cons, ← List.append_assoc]
        exact hledger.trans (hstep.append_right _)

/-- `kmalloc` never returns a node of the list if it never returns the same memory twice. -/
theorem kmallocFresh_of_nodup {fuel : Nat} (calls : List IntCall) {m : FuncMem}
    {nodes : List U64} (h : m.IsList nodes) (hfuncs : ∀ p ∈ m.descs nodes, p.func ≠ 0)
    (hfuel : nodes.length + calls.length < fuel)
    (hnodup : (nodes ++ calls.flatMap IntCall.allocated).Nodup) : KmallocFresh fuel calls m := by
  induction calls generalizing m nodes with
  | nil => trivial
  | cons call calls ih =>
      rw [List.flatMap_cons, ← List.append_assoc] at hnodup
      have hunused : ∀ a ∈ call.allocated, a ∉ nodes := by
        intro a ha hmem
        have hfront := (List.nodup_append.mp hnodup).1
        exact List.disjoint_of_nodup_append hfront hmem ha
      obtain ⟨m₁, nodes₁, gone, hrun, hlist, hlength, hfuncs₁, -, -, hledger⟩ :=
        intCall_spec h hfuncs call hunused
      simp only [List.length_cons] at hfuel
      constructor
      · intro a ha hreach
        exact hunused a ha (h.reachable_iff.mp hreach)
      · intro m' hm'
        rw [hrun fuel (by omega)] at hm'
        cases hm'
        have hafter := ((hledger.append_right _).nodup_iff).mpr hnodup
        rw [List.append_assoc] at hafter
        exact ih hlist hfuncs₁ (by omega) (List.nodup_append.mp hafter).2.1

/-- Callback lists behave as sequences.  After any calls on a list that began empty the functions
with their data are what the calls make of a sequence, every node that was allocated is freed
once or in the list once, a failed add and a remove without a match change nothing, a remove
with a match frees one node and unlinks it, and the functions are called in their order. -/
theorem callbackLists_are_sequences (node : U64 → FuncNode) (calls : List IntCall) (fuel : Nat)
    (hfuel : calls.length < fuel) (hfresh : KmallocFresh fuel calls ⟨0, node, []⟩) :
    ∃ m nodes, intCalls fuel calls ⟨0, node, []⟩ = some m ∧ m.IsList nodes ∧
      m.pairs nodes = calls.foldl (fun pairs call => call.onPairs pairs) [] ∧
      (m.freed ++ nodes).Perm (calls.flatMap IntCall.allocated) ∧ nodes.Nodup ∧
      (∀ new func privateData, func = 0 ∨ new = 0 →
        m.tl880AddIntCallback fuel new func privateData = some (-1, m)) ∧
      (∀ new func privateData, ¬ (func = 0 ∨ new = 0) → new ∉ nodes →
        ∃ m', m.tl880AddIntCallback fuel new func privateData = some (0, m') ∧
          m'.IsList (nodes ++ [new]) ∧ m'.freed = m.freed ∧
          m'.pairs (nodes ++ [new]) = m.pairs nodes ++ [(func, privateData)]) ∧
      (∀ func, (∀ p ∈ m.pairs nodes, p.1 ≠ func) →
        m.tl880RemoveIntCallback fuel func = some m) ∧
      (∀ func pre p post, nodes = pre ++ p :: post →
        (∀ c ∈ pre, (m.node c).func ≠ func) → (m.node p).func = func →
        ∃ m', m.tl880RemoveIntCallback fuel func = some m' ∧ m'.IsList (pre ++ post) ∧
          m'.freed = m.freed ++ [p] ∧ m'.pairs (pre ++ post) = m.pairs (pre ++ post) ∧
          ¬ m'.Reachable p) ∧
      ∀ (S : Type) (call : U64 → U64 → S → S) (s : S),
        m.tl880RunCallbacks call fuel s =
          some ((m.pairs nodes).foldl (fun s p => call p.1 p.2 s) s) := by
  have hempty : FuncMem.IsList ⟨0, node, []⟩ [] := rfl
  have hnone : ∀ p ∈ FuncMem.descs ⟨0, node, []⟩ [], p.func ≠ 0 := by simp [FuncMem.descs]
  obtain ⟨m, nodes, hrun, hlist, hlength, hfuncs, hpairs, hledger⟩ :=
    intCalls_spec calls hempty hnone (by simpa using hfuel) hfresh
  refine ⟨m, nodes, hrun, hlist, hpairs, hledger, hlist.nodup, ?_, ?_, ?_, ?_, ?_⟩
  · intro new func privateData hfails
    exact m.tl880AddIntCallback_fails fuel privateData hfails
  · intro new func privateData hok hnew
    obtain ⟨hfunc, hne⟩ := not_or.mp hok
    obtain ⟨m', hadd, hlist', hfreed, hdescs⟩ :=
      FuncMem.tl880AddIntCallback_links hlist privateData hfunc hne hnew
    refine ⟨m', hadd fuel hlength, hlist', hfreed, ?_⟩
    rw [← FuncMem.descs_pair, hdescs, List.map_append, FuncMem.descs_pair]
    rfl
  · intro func hnone
    refine FuncMem.tl880RemoveIntCallback_none hlist ?_ hlength
    intro c hc
    exact hnone _ (List.mem_map_of_mem hc)
  · rintro func pre p post rfl hpre hp
    have hfunc : func ≠ 0 := by
      rw [← hp]
      exact hfuncs ⟨p, (m.node p).func, (m.node p).privateData⟩ (List.mem_map_of_mem (by simp))
    obtain ⟨m', hremove, hlist', hfreed, hdescs⟩ :=
      FuncMem.tl880RemoveIntCallback_first hlist hfunc hpre hp
    refine ⟨m', hremove fuel hlength, hlist', hfreed, ?_, ?_⟩
    · rw [← FuncMem.descs_pair, hdescs, FuncMem.descs_pair]
    · intro hreach
      have hmem : p ∈ pre ++ post := hlist'.reachable_iff.mp hreach
      exact (List.nodup_cons.mp (List.nodup_middle.mp hlist.nodup)).1 hmem
  · intro S call s
    rw [FuncMem.tl880RunCallbacks, FuncMem.runCallbacksFrom_eq call hlist hlength,
      tl880RunCallbacks_eq_foldl]

/-- One function is added twice, another one between, a `kmalloc` fails, and the first function
is removed. -/
def duplicateCalls : List IntCall :=
  [.add 0x1000 0xf00 1, .add 0x2000 0xb00 2, .add 0x3000 0xf00 3, .add 0 0xf00 4, .remove 0xf00]

/-- The second registration of the function stays. -/
theorem callbackLists_are_sequences_duplicate :
    ∃ m nodes, intCalls 9 duplicateCalls ⟨0, fun _ => ⟨0, 0, 0⟩, []⟩ = some m ∧
      m.IsList nodes ∧ m.pairs nodes = [(0xb00, 2), (0xf00, 3)] ∧
      (m.freed ++ nodes).Perm [0x1000, 0x2000, 0x3000] := by
  have hempty : FuncMem.IsList ⟨0, fun _ => ⟨0, 0, 0⟩, []⟩ [] := rfl
  have hfresh : KmallocFresh 9 duplicateCalls ⟨0, fun _ => ⟨0, 0, 0⟩, []⟩ := by
    refine kmallocFresh_of_nodup duplicateCalls hempty (by simp [FuncMem.descs]) (by decide) ?_
    decide
  obtain ⟨m, nodes, hrun, hlist, hpairs, hledger, -⟩ :=
    callbackLists_are_sequences (fun _ => ⟨0, 0, 0⟩) duplicateCalls 9 (by decide) hfresh
  exact ⟨m, nodes, hrun, hlist, hpairs, hledger⟩

end Tl880
