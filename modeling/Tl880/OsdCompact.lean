import Tl880.Cursors
import Tl880.Lib.PointerList

/-!
# Compacting the OSD heap

`tl880_compact_osdmem` of `driver/tl880osd.c` on the nodes in memory: it follows the pointers
from `_g_head` on, takes a node out of the list where two inactive ones meet, and gives it back
with `kfree`.

The model of the heap functions has the blocks as a list, and its `tl880CompactOsdmem` is what
the loop does to that list (`compactLoop_spec`).  The result is canonical: no two inactive blocks
are left side by side, and a second call finds nothing to do.
-/

namespace Tl880

open PointerList

variable {w : Nat}

/-! ## The driver -/

/-- `struct OSDmemory` with its `next`. -/
structure OsdNode (w : Nat) extends OsdBlock w where
  next : BitVec w
deriving DecidableEq

/-- The memory behind `_g_head`, and what was given to `kfree`, the oldest first.  A node is
known by its address, and 0 is NULL. -/
structure OsdMem (w : Nat) where
  head : BitVec w
  node : BitVec w → OsdNode w
  freed : List (BitVec w)

/-- `listp1` takes in `listp2`, which is freed. -/
def OsdMem.merge (m : OsdMem w) (listp1 listp2 : BitVec w) : OsdMem w :=
  { m with
    node := Function.update m.node listp1
      { m.node listp1 with
        size := (m.node listp1).size + (m.node listp2).size
        next := (m.node listp2).next }
    freed := m.freed ++ [listp2] }

/-- The loop from `listp1` on, for at most `fuel` rounds. -/
def compactLoop : Nat → BitVec w → OsdMem w → Option (OsdMem w)
  | 0, _, _ => none
  | fuel + 1, listp1, m =>
      if listp1 ≠ 0 ∧ (m.node listp1).next ≠ 0 then
        let listp2 := (m.node listp1).next
        if !(m.node listp1).active && !(m.node listp2).active then
          -- `listp1` stays: the next node may be inactive too
          compactLoop fuel listp1 (m.merge listp1 listp2)
        else compactLoop fuel listp2 m
      else some m

/-- `tl880_compact_osdmem`, for at most `fuel` rounds of its loop; `none` is a loop still
running. -/
def OsdMem.tl880CompactOsdmem (fuel : Nat) (m : OsdMem w) : Option (Int × OsdMem w) :=
  (compactLoop fuel m.head m).map fun m' => (1, m')

/-! ## Lists of blocks in memory -/

namespace OsdMem

/-- The list behind `_g_head` has its nodes at `addrs`. -/
def IsList (m : OsdMem w) (addrs : List (BitVec w)) : Prop :=
  Chain 0 OsdNode.next m.node m.head addrs

/-- The node at an address can be reached from `_g_head`. -/
def Reachable (m : OsdMem w) (a : BitVec w) : Prop :=
  PointerList.Reachable 0 OsdNode.next m.node m.head a

/-- The blocks at some addresses. -/
def blocks (m : OsdMem w) (addrs : List (BitVec w)) : List (OsdBlock w) :=
  addrs.map fun a => (m.node a).toOsdBlock

@[simp] theorem blocks_nil (m : OsdMem w) : m.blocks [] = [] := rfl

@[simp] theorem blocks_cons (m : OsdMem w) (a : BitVec w) (addrs : List (BitVec w)) :
    m.blocks (a :: addrs) = (m.node a).toOsdBlock :: m.blocks addrs := rfl

/-- Blocks depend on their own nodes only. -/
theorem blocks_congr {m m' : OsdMem w} {addrs : List (BitVec w)}
    (h : ∀ a ∈ addrs, m'.node a = m.node a) : m'.blocks addrs = m.blocks addrs := by
  refine List.map_congr_left ?_
  intro a ha
  rw [h a ha]

@[simp] theorem merge_head (m : OsdMem w) (p q : BitVec w) : (m.merge p q).head = m.head := rfl

@[simp] theorem merge_freed (m : OsdMem w) (p q : BitVec w) :
    (m.merge p q).freed = m.freed ++ [q] := rfl

@[simp] theorem merge_node_self (m : OsdMem w) (p q : BitVec w) :
    (m.merge p q).node p =
      { m.node p with size := (m.node p).size + (m.node q).size, next := (m.node q).next } := by
  simp [merge]

theorem merge_node_other (m : OsdMem w) {p a : BitVec w} (q : BitVec w) (h : a ≠ p) :
    (m.merge p q).node a = m.node a := by
  simp [merge, h]

end OsdMem

/-- Two neighbours that are not merged. -/
def OsdBlock.KeptApart (b c : OsdBlock w) : Prop := ¬ (b.active = false ∧ c.active = false)

/-- A byte belongs to an active block.  Addresses are taken modulo `2 ^ w`. -/
def InActiveBlock (blocks : List (OsdBlock w)) (byte : BitVec w) : Prop :=
  ∃ b ∈ blocks, b.active = true ∧ (byte - b.virtAddr).toNat < b.size.toNat

/-- The condition of the loop for merging. -/
theorem bothIdle_iff (b c : OsdBlock w) :
    (!b.active && !c.active) = true ↔ b.active = false ∧ c.active = false := by
  simp

/-! ## The list of blocks after compaction -/

/-- The first block of a compacted list is as active as it was. -/
theorem compactFrom_head (b : OsdBlock w) (rest : List (OsdBlock w)) :
    ∃ first tail, compactFrom b rest = first :: tail ∧ first.active = b.active := by
  induction rest generalizing b with
  | nil => exact ⟨b, [], rfl, rfl⟩
  | cons c rest ih =>
      rw [compactFrom]
      split_ifs
      · exact ih _
      · exact ⟨b, compactFrom c rest, rfl, rfl⟩

/-- No two inactive blocks are left side by side. -/
theorem compactFrom_isChain (b : OsdBlock w) (rest : List (OsdBlock w)) :
    (compactFrom b rest).IsChain OsdBlock.KeptApart := by
  induction rest generalizing b with
  | nil => exact List.IsChain.singleton b
  | cons c rest ih =>
      rw [compactFrom]
      split_ifs with hidle
      · exact ih _
      · have hrest := ih c
        obtain ⟨first, tail, hfirst, hactive⟩ := compactFrom_head c rest
        rw [hfirst] at hrest ⊢
        refine List.isChain_cons_cons.mpr ⟨?_, hrest⟩
        rw [bothIdle_iff] at hidle
        unfold OsdBlock.KeptApart
        rw [hactive]
        exact hidle

theorem tl880CompactOsdmem_isChain (blocks : List (OsdBlock w)) :
    (tl880CompactOsdmem blocks).IsChain OsdBlock.KeptApart := by
  cases blocks with
  | nil => exact List.IsChain.nil
  | cons b rest => exact compactFrom_isChain b rest

/-- A byte belongs to the active blocks, whichever they are. -/
theorem inActiveBlock_iff (blocks : List (OsdBlock w)) (byte : BitVec w) :
    InActiveBlock blocks byte ↔
      ∃ b ∈ activeBlocks blocks, (byte - b.virtAddr).toNat < b.size.toNat := by
  simp only [InActiveBlock, mem_activeBlocks, and_assoc]

/-! ## The loop -/

/-- What the loop makes of the list of nodes at `addrs` that `p` points to: it keeps the nodes at
`kept` and frees those at `gone`. -/
structure CompactsTo (m : OsdMem w) (p : BitVec w) (addrs : List (BitVec w)) (m' : OsdMem w)
    (kept gone : List (BitVec w)) : Prop where
  chain : Chain 0 OsdNode.next m'.node p kept
  blocks : m'.blocks kept = tl880CompactOsdmem (m.blocks addrs)
  nodes : (kept ++ gone).Perm addrs
  freed : m'.freed = m.freed ++ gone
  head : m'.head = m.head
  frame : ∀ a, a ∉ addrs → m'.node a = m.node a

/-- The loop ends at NULL, and at the last node. -/
theorem compactLoop_stops {m : OsdMem w} {p : BitVec w} (h : p = 0 ∨ (m.node p).next = 0)
    {fuel : Nat} (hfuel : 0 < fuel) : compactLoop fuel p m = some m := by
  cases fuel with
  | zero => omega
  | succ fuel =>
      rw [compactLoop, if_neg]
      rintro ⟨hp, hnext⟩
      exact h.elim hp hnext

/-- A round at a node with another one behind it. -/
theorem compactLoop_round {m : OsdMem w} {p q : BitVec w} (hp : p ≠ 0)
    (hq : (m.node p).next = q) (hqne : q ≠ 0) (fuel : Nat) :
    compactLoop (fuel + 1) p m =
      if !(m.node p).active && !(m.node q).active then compactLoop fuel p (m.merge p q)
      else compactLoop fuel q m := by
  have hcond : p ≠ 0 ∧ (m.node p).next ≠ 0 := ⟨hp, hq ▸ hqne⟩
  rw [compactLoop, if_pos hcond, hq]

/-- The list after a merge, and its blocks. -/
theorem OsdMem.merge_chain {m : OsdMem w} {p q : BitVec w} {rest : List (BitVec w)}
    (h : Chain 0 OsdNode.next m.node p (p :: q :: rest)) :
    Chain 0 OsdNode.next (m.merge p q).node p (p :: rest) ∧
      (m.merge p q).blocks rest = m.blocks rest := by
  have hother : ∀ a ∈ rest, (m.merge p q).node a = m.node a := by
    intro a ha
    refine m.merge_node_other q ?_
    rintro rfl
    exact (List.nodup_cons.mp h.nodup).1 (List.mem_cons_of_mem q ha)
  constructor
  · have hnone : ∀ c ∈ ([] : List (BitVec w)),
        OsdNode.next ((m.merge p q).node c) = OsdNode.next (m.node c) := by simp
    have hfront : Chain 0 OsdNode.next m.node p ([] ++ p :: q :: rest) := h
    refine hfront.unlink ?_ hnone ?_
    · rw [OsdMem.merge_node_self]
    · intro c hc
      rw [hother c hc]
  · exact OsdMem.blocks_congr hother

/-- A list that is compacted already. -/
theorem CompactsTo.refl {m : OsdMem w} {p : BitVec w} {addrs : List (BitVec w)}
    (h : Chain 0 OsdNode.next m.node p addrs)
    (hsame : m.blocks addrs = tl880CompactOsdmem (m.blocks addrs)) :
    CompactsTo m p addrs m addrs [] where
  chain := h
  blocks := hsame
  nodes := by rw [List.append_nil]
  freed := (List.append_nil m.freed).symm
  head := rfl
  frame _ _ := rfl

/-- A merge and then the rest. -/
theorem CompactsTo.merge {m m' : OsdMem w} {p q : BitVec w} {rest kept gone : List (BitVec w)}
    (h : Chain 0 OsdNode.next m.node p (p :: q :: rest))
    (hidle : (!(m.node p).active && !(m.node q).active) = true)
    (hto : CompactsTo (m.merge p q) p (p :: rest) m' kept gone) :
    CompactsTo m p (p :: q :: rest) m' kept (q :: gone) where
  chain := hto.chain
  blocks := by
    rw [hto.blocks, OsdMem.blocks_cons, OsdMem.merge_node_self, (OsdMem.merge_chain h).2]
    simp only [OsdMem.blocks_cons, tl880CompactOsdmem, compactFrom]
    rw [if_pos hidle]
  nodes := by
    have hmiddle : (kept ++ q :: gone).Perm (q :: (kept ++ gone)) := List.perm_middle
    exact hmiddle.trans ((hto.nodes.cons q).trans (List.Perm.swap p q rest))
  freed := by
    rw [hto.freed, OsdMem.merge_freed, List.append_assoc, List.singleton_append]
  head := hto.head
  frame a ha := by
    simp only [List.mem_cons, not_or] at ha
    obtain ⟨hap, -, harest⟩ := ha
    rw [hto.frame a (by simp [hap, harest]), m.merge_node_other q hap]

/-- A node that is kept and then the rest, which never comes back to it. -/
theorem CompactsTo.advance {m m' : OsdMem w} {p q : BitVec w} {rest kept gone : List (BitVec w)}
    (h : Chain 0 OsdNode.next m.node p (p :: q :: rest))
    (hidle : ¬ (!(m.node p).active && !(m.node q).active) = true)
    (hto : CompactsTo m q (q :: rest) m' kept gone) :
    CompactsTo m p (p :: q :: rest) m' (p :: kept) gone := by
  obtain ⟨-, hp, hq, -⟩ := id h
  have hself : m'.node p = m.node p := hto.frame p (List.nodup_cons.mp h.nodup).1
  constructor
  · refine ⟨rfl, hp, ?_⟩
    rw [hself, hq]
    exact hto.chain
  · rw [OsdMem.blocks_cons, hself, hto.blocks]
    simp only [OsdMem.blocks_cons, tl880CompactOsdmem, compactFrom]
    rw [if_neg hidle]
  · exact hto.nodes.cons p
  · exact hto.freed
  · exact hto.head
  · intro a ha
    exact hto.frame a fun hmem => ha (List.mem_cons_of_mem p hmem)

/-- The loop ends, and the list is compacted as the list of its blocks is. -/
theorem compactLoop_spec {m : OsdMem w} {p : BitVec w} {rest : List (BitVec w)}
    (h : Chain 0 OsdNode.next m.node p (p :: rest)) :
    ∃ m' kept gone, (∀ fuel, rest.length < fuel → compactLoop fuel p m = some m') ∧
      CompactsTo m p (p :: rest) m' kept gone := by
  induction rest generalizing p m with
  | nil =>
      obtain ⟨-, -, hend⟩ := id h
      refine ⟨m, [p], [], ?_, CompactsTo.refl h rfl⟩
      intro fuel hfuel
      exact compactLoop_stops (Or.inr hend) hfuel
  | cons q rest ih =>
      obtain ⟨-, hp, hq, hqne, -⟩ := id h
      by_cases hidle : (!(m.node p).active && !(m.node q).active) = true
      · obtain ⟨m', kept, gone, hrun, hto⟩ := ih (OsdMem.merge_chain h).1
        refine ⟨m', kept, q :: gone, ?_, hto.merge h hidle⟩
        intro fuel hfuel
        obtain ⟨fuel, rfl⟩ : ∃ n, fuel = n + 1 := ⟨fuel - 1, by omega⟩
        rw [compactLoop_round hp hq hqne, if_pos hidle]
        exact hrun fuel (Nat.lt_of_succ_lt_succ hfuel)
      · have htail : Chain 0 OsdNode.next m.node (m.node p).next (q :: rest) := h.2.2
        rw [hq] at htail
        obtain ⟨m', kept, gone, hrun, hto⟩ := ih htail
        refine ⟨m', p :: kept, gone, ?_, hto.advance h hidle⟩
        intro fuel hfuel
        obtain ⟨fuel, rfl⟩ : ∃ n, fuel = n + 1 := ⟨fuel - 1, by omega⟩
        rw [compactLoop_round hp hq hqne, if_neg hidle]
        exact hrun fuel (Nat.lt_of_succ_lt_succ hfuel)

/-- The whole call, for an empty list too. -/
theorem OsdMem.tl880CompactOsdmem_spec {m : OsdMem w} {addrs : List (BitVec w)}
    (h : m.IsList addrs) :
    ∃ m' kept gone,
      (∀ fuel, addrs.length < fuel → m.tl880CompactOsdmem fuel = some (1, m')) ∧
      CompactsTo m m.head addrs m' kept gone := by
  cases addrs with
  | nil =>
      refine ⟨m, [], [], ?_, CompactsTo.refl h rfl⟩
      intro fuel hfuel
      rw [OsdMem.tl880CompactOsdmem, compactLoop_stops (Or.inl h) hfuel]
      rfl
  | cons p rest =>
      have hhead : m.head = p := h.1
      have hchain : Chain 0 OsdNode.next m.node m.head (m.head :: rest) := by
        rw [← hhead] at h
        exact h
      obtain ⟨m', kept, gone, hrun, hto⟩ := compactLoop_spec hchain
      refine ⟨m', kept, gone, ?_, hhead ▸ hto⟩
      intro fuel hfuel
      simp only [List.length_cons] at hfuel
      rw [OsdMem.tl880CompactOsdmem, hrun fuel (by omega)]
      rfl

/-- Where no two inactive blocks meet, the loop only walks. -/
theorem compactLoop_settled {m : OsdMem w} {p : BitVec w} {rest : List (BitVec w)}
    (h : Chain 0 OsdNode.next m.node p (p :: rest))
    (hapart : (m.blocks (p :: rest)).IsChain OsdBlock.KeptApart) {fuel : Nat}
    (hfuel : rest.length < fuel) : compactLoop fuel p m = some m := by
  induction rest generalizing p fuel with
  | nil =>
      obtain ⟨-, -, hend⟩ := h
      exact compactLoop_stops (Or.inr hend) hfuel
  | cons q rest ih =>
      obtain ⟨-, hp, htail⟩ := h
      obtain ⟨hq, hqne, -⟩ := id htail
      obtain ⟨hkept, hrest⟩ := List.isChain_cons_cons.mp hapart
      have hidle : ¬ (!(m.node p).active && !(m.node q).active) = true :=
        mt (bothIdle_iff _ _).mp hkept
      obtain ⟨fuel, rfl⟩ : ∃ n, fuel = n + 1 := ⟨fuel - 1, by omega⟩
      rw [compactLoop_round hp hq hqne, if_neg hidle]
      rw [hq] at htail
      exact ih htail hrest (Nat.lt_of_succ_lt_succ hfuel)

/-- A second call finds nothing to do. -/
theorem OsdMem.tl880CompactOsdmem_settled {m : OsdMem w} {addrs : List (BitVec w)}
    (h : m.IsList addrs) (hapart : (m.blocks addrs).IsChain OsdBlock.KeptApart) {fuel : Nat}
    (hfuel : addrs.length < fuel) : m.tl880CompactOsdmem fuel = some (1, m) := by
  have hloop : compactLoop fuel m.head m = some m := by
    cases addrs with
    | nil => exact compactLoop_stops (Or.inl h) hfuel
    | cons p rest =>
        have hhead : m.head = p := h.1
        simp only [List.length_cons] at hfuel
        rw [← hhead] at h hapart
        exact compactLoop_settled h hapart (by omega)
  rw [OsdMem.tl880CompactOsdmem, hloop]
  rfl

/-- Compaction is canonical: it ends, no two inactive blocks are left side by side, the active
blocks and their bytes are what they were, every node that was taken out is freed once and can
not be reached any more, and a second call changes nothing. -/
theorem tl880CompactOsdmem_canonical (m : OsdMem w) (addrs : List (BitVec w))
    (h : m.IsList addrs) :
    ∃ m' kept gone,
      (∀ fuel, addrs.length < fuel → m.tl880CompactOsdmem fuel = some (1, m')) ∧
      m'.IsList kept ∧
      (m'.blocks kept).IsChain OsdBlock.KeptApart ∧
      activeBlocks (m'.blocks kept) = activeBlocks (m.blocks addrs) ∧
      (∀ byte, InActiveBlock (m'.blocks kept) byte ↔ InActiveBlock (m.blocks addrs) byte) ∧
      (∀ start delta total, WellFormed start delta total (m.blocks addrs) →
        WellFormed start delta total (m'.blocks kept)) ∧
      (kept ++ gone).Perm addrs ∧ (kept ++ gone).Nodup ∧
      m'.freed = m.freed ++ gone ∧
      (∀ a, m'.Reachable a ↔ m.Reachable a ∧ a ∉ gone) ∧
      ∀ fuel, kept.length < fuel → m'.tl880CompactOsdmem fuel = some (1, m') := by
  obtain ⟨m', kept, gone, hrun, hto⟩ := m.tl880CompactOsdmem_spec h
  have hlist : m'.IsList kept := by
    unfold OsdMem.IsList
    rw [hto.head]
    exact hto.chain
  have hapart : (m'.blocks kept).IsChain OsdBlock.KeptApart := by
    rw [hto.blocks]
    exact tl880CompactOsdmem_isChain _
  have hactive : activeBlocks (m'.blocks kept) = activeBlocks (m.blocks addrs) := by
    rw [hto.blocks, activeBlocks_compact]
  have hnodup : (kept ++ gone).Nodup := hto.nodes.nodup_iff.mpr h.nodup
  refine ⟨m', kept, gone, hrun, hlist, hapart, hactive, ?_, ?_, hto.nodes, hnodup, hto.freed,
    ?_, ?_⟩
  · intro byte
    rw [inActiveBlock_iff, inActiveBlock_iff, hactive]
  · intro start delta total hwell
    rw [hto.blocks]
    exact tl880CompactOsdmem_wellFormed hwell
  · intro a
    have hkept : m'.Reachable a ↔ a ∈ kept := hlist.reachable_iff
    have hbefore : m.Reachable a ↔ a ∈ addrs := h.reachable_iff
    rw [hkept, hbefore, ← hto.nodes.mem_iff, List.mem_append]
    constructor
    · intro ha
      exact ⟨Or.inl ha, List.disjoint_of_nodup_append hnodup ha⟩
    · rintro ⟨ha | ha, hgone⟩
      · exact ha
      · exact absurd ha hgone
  · intro fuel hfuel
    exact OsdMem.tl880CompactOsdmem_settled hlist hapart hfuel

/-- A heap of `0x1000` bytes with three nodes, the first two of them inactive. -/
def smallOsdMem : OsdMem 32 where
  head := 0x100
  node a :=
    if a = 0x100 then ⟨⟨0, 0xe0186000, 0xd0186000, 0x400, false, 0x52300001⟩, 0x200⟩
    else if a = 0x200 then ⟨⟨0, 0xe0186400, 0xd0186400, 0x400, false, 0x52300002⟩, 0x300⟩
    else ⟨⟨0x10, 0xe0186800, 0xd0186800, 0x800, true, 0x52300003⟩, 0⟩
  freed := []

example : ((smallOsdMem.tl880CompactOsdmem 4).map fun r => r.2.freed) = some [0x200] := by decide

/-- The first two nodes become one, and the active one stays. -/
theorem tl880CompactOsdmem_canonical_small :
    ∃ m' kept gone,
      smallOsdMem.tl880CompactOsdmem 4 = some (1, m') ∧ m'.IsList kept ∧
      (m'.blocks kept).IsChain OsdBlock.KeptApart ∧
      activeBlocks (m'.blocks kept) = [⟨0x10, 0xe0186800, 0xd0186800, 0x800, true, 0x52300003⟩] ∧
      (kept ++ gone).Perm [0x100, 0x200, 0x300] ∧ m'.freed = gone := by
  have hlist : smallOsdMem.IsList [0x100, 0x200, 0x300] := by
    refine ⟨rfl, by decide, rfl, by decide, rfl, by decide, rfl⟩
  obtain ⟨m', kept, gone, hrun, hkept, hapart, hactive, -, -, hperm, -, hfreed, -⟩ :=
    tl880CompactOsdmem_canonical smallOsdMem [0x100, 0x200, 0x300] hlist
  refine ⟨m', kept, gone, hrun 4 (by decide), hkept, hapart, ?_, hperm, hfreed⟩
  rw [hactive]
  decide

end Tl880
