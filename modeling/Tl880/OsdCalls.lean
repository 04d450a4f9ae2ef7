import Tl880.Osd

/-!
# What the callers of the OSD heap get

Two results about whole calls.

* `tl880_allocate_osdmem` returns only from its first search, or from an empty
  list.  The splitting loop never moves its cursor, so once it is entered with a
  nonempty list and `kmalloc` delivers, it runs forever
  (`splitLoop_runs_forever`).
* `tl880_deallocate_osdmem` matches blocks whether they are active or not, and
  `tl880_get_osdmem_offset` active ones only.  In a well-formed list an aligned
  address belongs to one block (`WellFormed.aligned_unique`), so the two disagree
  exactly at the addresses of inactive blocks, and where the offset of an active
  block is the failure value.
-/

namespace Tl880

open AlignUp Tiling

variable {w : Nat}

/-! ## Allocation -/

/-- The block is what the first search looks for. -/
def OsdBlock.Exact (finalsize : BitVec w) (b : OsdBlock w) : Prop :=
  b.active = false ∧ b.size = finalsize

/-- The first search sets the first exact fit active. -/
theorem allocateExact_eq_some {alignsize finalsize : BitVec w} {pre : List (OsdBlock w)}
    {b : OsdBlock w} {post : List (OsdBlock w)} (hpre : ∀ c ∈ pre, ¬ c.Exact finalsize)
    (hb : b.Exact finalsize) :
    allocateExact alignsize finalsize (pre ++ b :: post) =
      some (alignUp alignsize b.virtAddr,
        pre ++ { b with active := true, field0 := alignUp alignsize b.virtAddr - b.virtAddr } ::
          post) := by
  induction pre with
  | nil =>
      have hfit : b.active = false ∧ b.size = finalsize := hb
      rw [List.nil_append, allocateExact, if_pos hfit]
      rfl
  | cons c pre ih =>
      have hc : ¬ (c.active = false ∧ c.size = finalsize) := hpre c List.mem_cons_self
      rw [List.cons_append, allocateExact, if_neg hc]
      rw [ih fun d hd => hpre d (List.mem_cons_of_mem c hd)]
      rfl

/-- Without an exact fit the first search fails. -/
theorem allocateExact_eq_none {alignsize finalsize : BitVec w} {blocks : List (OsdBlock w)}
    (h : ∀ b ∈ blocks, ¬ b.Exact finalsize) :
    allocateExact alignsize finalsize blocks = none := by
  induction blocks with
  | nil => rfl
  | cons b rest ih =>
      have hb : ¬ (b.active = false ∧ b.size = finalsize) := h b List.mem_cons_self
      rw [allocateExact, if_neg hb, ih fun c hc => h c (List.mem_cons_of_mem b hc)]
      rfl

/-- A list has a first exact fit or none. -/
theorem exact_split (finalsize : BitVec w) (blocks : List (OsdBlock w)) :
    (∀ b ∈ blocks, ¬ b.Exact finalsize) ∨
      ∃ pre b post, blocks = pre ++ b :: post ∧ (∀ c ∈ pre, ¬ c.Exact finalsize) ∧
        b.Exact finalsize := by
  induction blocks with
  | nil =>
      left
      intro b hb
      cases hb
  | cons b rest ih =>
      by_cases hb : b.Exact finalsize
      · right
        refine ⟨[], b, rest, rfl, ?_, hb⟩
        intro c hc
        cases hc
      rcases ih with hnone | ⟨pre, c, post, heq, hpre, hc⟩
      · left
        intro d hd
        rcases List.mem_cons.mp hd with hd | hd
        · rw [hd]
          exact hb
        · exact hnone d hd
      · right
        refine ⟨b :: pre, c, post, by rw [heq]; rfl, ?_, hc⟩
        intro d hd
        rcases List.mem_cons.mp hd with hd | hd
        · rw [hd]
          exact hb
        · exact hpre d hd

/-- The splitting loop does not end on a nonempty list while `kmalloc` delivers:
each round leaves a nonempty list behind and the cursor where it was. -/
theorem splitLoop_runs_forever (finalsize : BitVec w) (fuel round : Nat) (heap : OsdHeap w)
    (hne : heap.blocks ≠ []) :
    splitLoop finalsize (fun _ => true) fuel round heap = none := by
  induction fuel generalizing round heap with
  | zero => rfl
  | succ fuel ih =>
      cases hblocks : heap.blocks with
      | nil => exact absurd hblocks hne
      | cons b rest =>
          rw [splitLoop]
          simp only [splitRound, hblocks, List.getElem?_cons_zero, Bool.true_eq_false, if_false]
          by_cases hlarge : b.active = false ∧ finalsize < b.size
          · simp only [if_pos hlarge]
            apply ih
            simp only [splitAt]
            exact List.cons_ne_nil _ _
          · simp only [if_neg hlarge]
            exact ih (round + 1) heap hne

/-- Compaction leaves no block only of no block. -/
theorem tl880CompactOsdmem_eq_nil_iff (blocks : List (OsdBlock w)) :
    tl880CompactOsdmem blocks = [] ↔ blocks = [] := by
  have hfrom : ∀ (rest : List (OsdBlock w)) (b : OsdBlock w), compactFrom b rest ≠ [] := by
    intro rest
    induction rest with
    | nil =>
        intro b
        exact List.cons_ne_nil _ _
    | cons c rest ih =>
        intro b
        rw [compactFrom]
        split_ifs
        · exact ih _
        · exact List.cons_ne_nil _ _
  cases blocks with
  | nil => exact Iff.rfl
  | cons b rest =>
      constructor
      · intro hnil
        exact absurd hnil (hfrom rest b)
      · intro hnil
        cases hnil

/-- The call terminates, it finds memory whenever an inactive block is large
enough, and the memory is aligned and lies in a block that it set active. -/
def AllocatesProperly (heap : OsdHeap w) (size align : BitVec w) : Prop :=
  ∃ fuel retval heap',
    tl880AllocateOsdmem (fun _ => true) fuel heap size align = some (retval, heap') ∧
    (retval ≠ 0#w ↔ ∃ b ∈ tl880CompactOsdmem heap.blocks,
      b.active = false ∧ size.toNat + (align - 1#w).toNat ≤ b.size.toNat) ∧
    (retval ≠ 0#w →
      align.toNat ∣ retval.toNat ∧
      ∃ pre b b' post,
        tl880CompactOsdmem heap.blocks = pre ++ b :: post ∧
        heap'.blocks = pre ++ b' :: post ∧
        b.active = false ∧ b'.active = true ∧
        b'.virtAddr = b.virtAddr ∧ b'.size = b.size ∧
        (retval - b.virtAddr).toNat + size.toNat ≤ b.size.toNat)

/-- The heap is empty, or the first inactive block of exactly `size + align - 1`
bytes in the compacted list starts neither at 0 nor less than `align` bytes below
the end of the address space. -/
def ExactFitReady (heap : OsdHeap w) (size align : BitVec w) : Prop :=
  heap.blocks = [] ∨
    ∃ pre b post, tl880CompactOsdmem heap.blocks = pre ++ b :: post ∧
      (∀ c ∈ pre, ¬ c.Exact (size + (align - 1#w))) ∧ b.Exact (size + (align - 1#w)) ∧
      0 < b.virtAddr.toNat ∧ b.virtAddr.toNat + (align - 1#w).toNat < 2 ^ w

/-- `align - 1` for a power of two. -/
theorem alignsize_toNat {align : BitVec w} {k : Nat} (halign : align.toNat = 2 ^ k) :
    (align - 1#w).toNat + 1 = 2 ^ k := by
  have hpos := Nat.two_pow_pos k
  have hlt := align.isLt
  have hone : (1#w).toNat = 1 := toNat_word (by omega)
  rw [BitVec.toNat_sub_of_le (by rw [BitVec.le_def]; omega)]
  omega

/-- What a call returns when the compacted list has a first exact fit. -/
theorem tl880AllocateOsdmem_exact {kmalloc : Nat → Bool} {fuel : Nat} {heap : OsdHeap w}
    {size align : BitVec w} {pre : List (OsdBlock w)} {b : OsdBlock w}
    {post : List (OsdBlock w)} (hcompact : tl880CompactOsdmem heap.blocks = pre ++ b :: post)
    (hpre : ∀ c ∈ pre, ¬ c.Exact (size + (align - 1#w)))
    (hb : b.Exact (size + (align - 1#w))) :
    tl880AllocateOsdmem kmalloc fuel heap size align =
      some (alignUp (align - 1#w) b.virtAddr,
        { heap with
          blocks := pre ++ { b with
            active := true
            field0 := alignUp (align - 1#w) b.virtAddr - b.virtAddr } :: post }) := by
  rw [tl880AllocateOsdmem]
  simp only [hcompact, allocateExact_eq_some hpre hb]

/-- A call does not return when the heap is not empty and there is no exact
fit. -/
theorem tl880AllocateOsdmem_runs_forever {heap : OsdHeap w} {size align : BitVec w}
    (hne : heap.blocks ≠ [])
    (hnone : ∀ b ∈ tl880CompactOsdmem heap.blocks, ¬ b.Exact (size + (align - 1#w)))
    (fuel : Nat) : tl880AllocateOsdmem (fun _ => true) fuel heap size align = none := by
  rw [tl880AllocateOsdmem]
  simp only [allocateExact_eq_none hnone]
  apply splitLoop_runs_forever
  intro hnil
  exact hne ((tl880CompactOsdmem_eq_nil_iff _).mp hnil)

/-- An OSD allocation terminates and is complete exactly when the heap is empty or
the compacted list has an exact fit. -/
theorem tl880AllocateOsdmem_proper_iff (heap : OsdHeap w) (size align : BitVec w)
    (k : Nat) (halign : align.toNat = 2 ^ k)
    (hwrap : size.toNat + (align - 1#w).toNat < 2 ^ w) :
    AllocatesProperly heap size align ↔ ExactFitReady heap size align := by
  have hmask := alignsize_toNat halign
  have hfinal := finalsize_toNat hwrap
  constructor
  · intro hproper
    obtain ⟨fuel, retval, heap', hcall, hcomplete, -⟩ := hproper
    by_cases hempty : heap.blocks = []
    · exact Or.inl hempty
    rcases exact_split (size + (align - 1#w)) (tl880CompactOsdmem heap.blocks) with
      hnone | ⟨pre, b, post, hcompact, hpre, hb⟩
    · rw [tl880AllocateOsdmem_runs_forever hempty hnone] at hcall
      cases hcall
    · right
      refine ⟨pre, b, post, hcompact, hpre, hb, ?_⟩
      rw [tl880AllocateOsdmem_exact hcompact hpre hb] at hcall
      cases hcall
      apply (alignUp_ne_zero_iff hmask b.virtAddr).mp
      apply hcomplete.mpr
      refine ⟨b, ?_, hb.1, ?_⟩
      · rw [hcompact]
        exact List.mem_append_right pre List.mem_cons_self
      · exact Nat.le_of_eq (by rw [hb.2, hfinal])
  · intro hready
    rcases hready with hempty | ⟨pre, b, post, hcompact, hpre, hb, hlow, hhigh⟩
    · refine ⟨1, 0#w, { heap with blocks := [] }, ?_, ?_, ?_⟩
      · rw [tl880AllocateOsdmem, hempty]
        rfl
      · constructor
        · intro hne
          exact absurd rfl hne
        · intro hex
          obtain ⟨b, hb, -⟩ := hex
          rw [hempty] at hb
          cases hb
      · intro hne
        exact absurd rfl hne
    · have hne := (alignUp_ne_zero_iff hmask b.virtAddr).mpr ⟨hlow, hhigh⟩
      refine ⟨0, _, _, tl880AllocateOsdmem_exact hcompact hpre hb, ?_, ?_⟩
      · constructor
        · intro _
          refine ⟨b, ?_, hb.1, ?_⟩
          · rw [hcompact]
            exact List.mem_append_right pre List.mem_cons_self
          · exact Nat.le_of_eq (by rw [hb.2, hfinal])
        · intro _
          exact hne
      · intro _
        constructor
        · rw [halign]
          exact alignUp_dvd hmask b.virtAddr
        · refine ⟨pre, b, _, post, hcompact, rfl, hb.1, rfl, rfl, rfl, ?_⟩
          have hpad := alignUp_sub_le (align - 1#w) b.virtAddr
          rw [hb.2, hfinal]
          omega

/-- The whole of a fresh heap can be had at once. -/
theorem tl880AllocateOsdmem_proper_whole :
    AllocatesProperly freshOsdHeap 0xfffff1#32 0x10#32 := by
  apply (tl880AllocateOsdmem_proper_iff freshOsdHeap 0xfffff1#32 0x10#32 4 (by decide)
    (by decide)).mpr
  right
  refine ⟨[], _, [], rfl, ?_, ?_, ?_, ?_⟩
  · intro c hc
    cases hc
  · constructor
    · rfl
    · rfl
  · decide
  · decide

/-- Nothing smaller can be had at all: the call for a cursor image does not
return. -/
theorem tl880AllocateOsdmem_hangs : ¬ AllocatesProperly freshOsdHeap 0x200#32 0x10#32 := by
  intro hproper
  obtain ⟨fuel, retval, heap', hcall, -⟩ := hproper
  rw [tl880AllocateOsdmem_runs_forever (by decide) (by
    intro b hb
    cases List.mem_singleton.mp hb
    unfold OsdBlock.Exact
    decide)] at hcall
  cases hcall

/-! ## Looking up and freeing -/

/-- Lookup and free agree on `addr`: the free succeeds exactly when the lookup
did, exactly when `addr` is the aligned address of an active block, and then it
frees this block and nothing else. -/
structure LookupFreeAgree (blocks : List (OsdBlock w)) (addr : BitVec w) : Prop where
  result : (tl880DeallocateOsdmem addr blocks).1 = 0 ∨
    (tl880DeallocateOsdmem addr blocks).1 = 1
  lookup : (tl880DeallocateOsdmem addr blocks).1 = 1 ↔
    tl880GetOsdmemOffset addr blocks ≠ -1#w
  allocated : (tl880DeallocateOsdmem addr blocks).1 = 1 ↔
    ∃ b ∈ blocks, b.active = true ∧ b.virtAddr + b.field0 = addr
  unchanged : (tl880DeallocateOsdmem addr blocks).1 = 0 →
    (tl880DeallocateOsdmem addr blocks).2 = blocks
  freed : (tl880DeallocateOsdmem addr blocks).1 = 1 →
    ∃ pre b post, blocks = pre ++ b :: post ∧
      b.active = true ∧ b.virtAddr + b.field0 = addr ∧
      (tl880DeallocateOsdmem addr blocks).2 =
        pre ++ { b with active := false, field0 := 0#w } :: post

/-- `addr` is not where an inactive block starts, and the offset of an active block
allocated at `addr` is not the failure value. -/
def AddressUsable (blocks : List (OsdBlock w)) (addr : BitVec w) : Prop :=
  (∀ b ∈ blocks, b.active = false → b.virtAddr ≠ addr) ∧
    ∀ b ∈ blocks, b.active = true → b.virtAddr + b.field0 = addr →
      b.physAddr + b.field0 ≠ -1#w

/-- The aligned address of a block is inside the block. -/
theorem OsdBlock.Ok.field0_lt {delta : BitVec w} {b : OsdBlock w} (h : b.Ok delta)
    (hpos : 0 < b.size.toNat) : b.field0.toNat < b.size.toNat := by
  cases hactive : b.active with
  | true => exact h.offset hactive
  | false =>
      rw [h.idle hactive, BitVec.toNat_zero]
      exact hpos

/-- In a well-formed list every block has a positive size. -/
theorem WellFormed.size_pos {start delta : BitVec w} {total : Nat}
    {blocks : List (OsdBlock w)} (h : WellFormed start delta total blocks) {b : OsdBlock w}
    (hb : b ∈ blocks) : 0 < b.size.toNat := by
  induction blocks generalizing start total with
  | nil => cases hb
  | cons c rest ih =>
      obtain ⟨-, hpos, -, -, -, hrest⟩ := wellFormed_cons.mp h
      rcases List.mem_cons.mp hb with heq | hb
      · rw [heq]
        exact hpos
      · exact ih hrest hb

/-- In a well-formed list an aligned address belongs to one block. -/
theorem WellFormed.aligned_unique {start delta : BitVec w} {total : Nat}
    {blocks : List (OsdBlock w)} (h : WellFormed start delta total blocks)
    {b c : OsdBlock w} (hb : b ∈ blocks) (hc : c ∈ blocks)
    (heq : b.virtAddr + b.field0 = c.virtAddr + c.field0) : b = c := by
  induction blocks generalizing start total with
  | nil => cases hb
  | cons d rest ih =>
      have hin : ∀ e ∈ d :: rest, e.field0.toNat < e.size.toNat :=
        fun e he => (h.ok e he).field0_lt (h.size_pos he)
      have hhead : ∀ e ∈ rest, d.virtAddr + d.field0 ≠ e.virtAddr + e.field0 :=
        fun e he => h.tiles.head_ne h.fits he (hin d List.mem_cons_self)
          (hin e (List.mem_cons_of_mem d he))
      obtain ⟨-, -, -, -, -, hrest⟩ := wellFormed_cons.mp h
      rcases List.mem_cons.mp hb with hbd | hb
      · rcases List.mem_cons.mp hc with hcd | hc
        · rw [hbd, hcd]
        · rw [hbd] at heq
          exact absurd heq (hhead c hc)
      · rcases List.mem_cons.mp hc with hcd | hc
        · rw [hcd] at heq
          exact absurd heq.symm (hhead b hb)
        · exact ih hrest hb hc

/-- A free either finds no block or frees the first one that matches. -/
theorem tl880DeallocateOsdmem_cases {blocks : List (OsdBlock w)}
    (htag : ∀ b ∈ blocks, b.Tagged) (addr : BitVec w) :
    (tl880DeallocateOsdmem addr blocks = (0, blocks) ∧
      ∀ b ∈ blocks, b.virtAddr + b.field0 ≠ addr) ∨
    ∃ pre b post, blocks = pre ++ b :: post ∧ b.virtAddr + b.field0 = addr ∧
      tl880DeallocateOsdmem addr blocks =
        (1, pre ++ { b with active := false, field0 := 0#w } :: post) := by
  induction blocks with
  | nil =>
      left
      refine ⟨rfl, ?_⟩
      intro b hb
      cases hb
  | cons b rest ih =>
      have hb : ¬ ¬ b.Tagged := not_not_intro (htag b List.mem_cons_self)
      by_cases hmatch : b.virtAddr + b.field0 = addr
      · right
        refine ⟨[], b, rest, rfl, hmatch, ?_⟩
        rw [tl880DeallocateOsdmem, if_neg hb, if_pos hmatch]
        rfl
      rcases ih fun c hc => htag c (List.mem_cons_of_mem b hc) with
        ⟨heq, hnone⟩ | ⟨pre, c, post, hsplit, hc, heq⟩
      · left
        constructor
        · rw [tl880DeallocateOsdmem, if_neg hb, if_neg hmatch, heq]
        · intro c hc
          rcases List.mem_cons.mp hc with hcb | hc
          · rw [hcb]
            exact hmatch
          · exact hnone c hc
      · right
        refine ⟨b :: pre, c, post, by rw [hsplit]; rfl, hc, ?_⟩
        rw [tl880DeallocateOsdmem, if_neg hb, if_neg hmatch, heq]
        rfl

/-- A lookup either finds no active block or returns the offset of one. -/
theorem tl880GetOsdmemOffset_cases {blocks : List (OsdBlock w)}
    (htag : ∀ b ∈ blocks, b.Tagged) (addr : BitVec w) :
    (tl880GetOsdmemOffset addr blocks = -1#w ∧
      ∀ b ∈ blocks, b.active = true → b.virtAddr + b.field0 ≠ addr) ∨
    ∃ b ∈ blocks, b.active = true ∧ b.virtAddr + b.field0 = addr ∧
      tl880GetOsdmemOffset addr blocks = b.physAddr + b.field0 := by
  induction blocks with
  | nil =>
      left
      refine ⟨rfl, ?_⟩
      intro b hb
      cases hb
  | cons b rest ih =>
      have hb : ¬ ¬ b.Tagged := not_not_intro (htag b List.mem_cons_self)
      by_cases hmatch : b.active = true ∧ b.virtAddr + b.field0 = addr
      · right
        refine ⟨b, List.mem_cons_self, hmatch.1, hmatch.2, ?_⟩
        rw [tl880GetOsdmemOffset, if_neg hb, if_pos hmatch]
      have hskip : tl880GetOsdmemOffset addr (b :: rest) = tl880GetOsdmemOffset addr rest := by
        rw [tl880GetOsdmemOffset, if_neg hb, if_neg hmatch]
      rcases ih fun c hc => htag c (List.mem_cons_of_mem b hc) with
        ⟨heq, hnone⟩ | ⟨c, hc, hactive, haddr, heq⟩
      · left
        constructor
        · rw [hskip, heq]
        · intro c hc hactive
          rcases List.mem_cons.mp hc with hcb | hc
          · rw [hcb] at hactive ⊢
            intro haddr
            exact hmatch ⟨hactive, haddr⟩
          · exact hnone c hc hactive
      · right
        exact ⟨c, List.mem_cons_of_mem b hc, hactive, haddr, by rw [hskip, heq]⟩

section Agreement

variable {start delta : BitVec w} {total : Nat} {blocks : List (OsdBlock w)}
  (h : WellFormed start delta total blocks) {addr : BitVec w}
include h

/-- Where lookup and free agree the address is usable. -/
theorem LookupFreeAgree.usable (hagree : LookupFreeAgree blocks addr) :
    AddressUsable blocks addr := by
  have htag : ∀ b ∈ blocks, b.Tagged := fun b hb => (h.ok b hb).tag
  constructor
  · intro b hb hidle haddr
    have haligned : b.virtAddr + b.field0 = addr := by
      rw [(h.ok b hb).idle hidle, BitVec.add_zero, haddr]
    rcases tl880DeallocateOsdmem_cases htag addr with ⟨-, hnone⟩ | ⟨_, _, _, _, _, hfree⟩
    · exact hnone b hb haligned
    · obtain ⟨c, hc, hactive, hcaddr⟩ := hagree.allocated.mp (by rw [hfree])
      have heq := h.aligned_unique hb hc (haligned.trans hcaddr.symm)
      rw [heq, hactive] at hidle
      cases hidle
  · intro b hb hactive haligned
    have hfound := hagree.lookup.mp (hagree.allocated.mpr ⟨b, hb, hactive, haligned⟩)
    rcases tl880GetOsdmemOffset_cases htag addr with ⟨hfail, -⟩ | ⟨c, hc, _, hcaddr, heq⟩
    · exact absurd hfail hfound
    · rw [h.aligned_unique hb hc (haligned.trans hcaddr.symm), ← heq]
      exact hfound

/-- On an address no block is aligned at, both fail. -/
theorem lookupFreeAgree_of_none (hfree : tl880DeallocateOsdmem addr blocks = (0, blocks))
    (hnone : ∀ b ∈ blocks, b.virtAddr + b.field0 ≠ addr) : LookupFreeAgree blocks addr := by
  have htag : ∀ b ∈ blocks, b.Tagged := fun b hb => (h.ok b hb).tag
  have hlookup : tl880GetOsdmemOffset addr blocks = -1#w := by
    rcases tl880GetOsdmemOffset_cases htag addr with ⟨hfail, -⟩ | ⟨c, hc, _, hcaddr, _⟩
    · exact hfail
    · exact absurd hcaddr (hnone c hc)
  constructor
  · exact Or.inl (by rw [hfree])
  · rw [hfree, hlookup]
    simp
  · rw [hfree]
    constructor
    · intro hone
      cases hone
    · intro hex
      obtain ⟨b, hb, -, haddr⟩ := hex
      exact absurd haddr (hnone b hb)
  · intro _
    rw [hfree]
  · intro hone
    rw [hfree] at hone
    cases hone

end Agreement

/-- In a well-formed list, lookup and free agree on an address exactly when no
inactive block starts there and the offset of a block allocated there is not the
failure value. -/
theorem lookupFreeAgree_iff (start delta : BitVec w) (total : Nat)
    (blocks : List (OsdBlock w)) (h : WellFormed start delta total blocks)
    (addr : BitVec w) : LookupFreeAgree blocks addr ↔ AddressUsable blocks addr := by
  have htag : ∀ b ∈ blocks, b.Tagged := fun b hb => (h.ok b hb).tag
  constructor
  · exact LookupFreeAgree.usable h
  intro husable
  obtain ⟨hidle, hoffset⟩ := husable
  rcases tl880DeallocateOsdmem_cases htag addr with
    ⟨hfree, hnone⟩ | ⟨pre, b, post, hsplit, haddr, hfree⟩
  · exact lookupFreeAgree_of_none h hfree hnone
  have hb : b ∈ blocks := by
    rw [hsplit]
    exact List.mem_append_right pre List.mem_cons_self
  have hactive : b.active = true := by
    cases hb' : b.active with
    | true => rfl
    | false =>
        rw [(h.ok b hb).idle hb', BitVec.add_zero] at haddr
        exact absurd haddr (hidle b hb hb')
  have hlookup : tl880GetOsdmemOffset addr blocks ≠ -1#w := by
    rcases tl880GetOsdmemOffset_cases htag addr with ⟨-, hnone⟩ | ⟨c, hc, hc', hcaddr, heq⟩
    · exact absurd haddr (hnone b hb hactive)
    · rw [heq]
      exact hoffset c hc hc' hcaddr
  constructor
  · exact Or.inr (by rw [hfree])
  · rw [hfree]
    exact ⟨fun _ => hlookup, fun _ => rfl⟩
  · rw [hfree]
    exact ⟨fun _ => ⟨b, hb, hactive, haddr⟩, fun _ => rfl⟩
  · intro hzero
    rw [hfree] at hzero
    cases hzero
  · intro _
    exact ⟨pre, b, post, hsplit, hactive, haddr, by rw [hfree]⟩

/-- A block in use, which starts 8 bytes before its aligned address, and an idle one. -/
def alignedBlocks : List (OsdBlock 32) :=
  [⟨8, 0xe0186008, 0xd0186008, 0x20f, true, 0x52300001⟩,
    ⟨0, 0xe0186217, 0xd0186217, 0x1000, false, 0x52300002⟩]

theorem alignedBlocks_wellFormed :
    WellFormed 0xe0186008#32 0xf0000000#32 0x120f alignedBlocks := by
  apply wellFormed_cons.mpr
  refine ⟨rfl, by decide, by decide, by decide, ⟨rfl, rfl, ?_, fun _ => by decide⟩, ?_⟩
  · intro hidle
    cases hidle
  apply wellFormed_cons.mpr
  refine ⟨rfl, by decide, by decide, by decide, ⟨rfl, rfl, fun _ => rfl, ?_⟩, ?_⟩
  · intro hactive
    cases hactive
  · exact ⟨rfl, by decide, fun _ hb => absurd hb List.not_mem_nil⟩

/-- Lookup and free agree on the aligned address of the block in use. -/
theorem lookupFreeAgree_aligned : LookupFreeAgree alignedBlocks 0xe0186010#32 := by
  apply (lookupFreeAgree_iff _ _ _ alignedBlocks alignedBlocks_wellFormed _).mpr
  constructor <;> decide

/-- Freeing the start of the free block is reported as a success. -/
theorem lookupFree_disagree : ¬ LookupFreeAgree freshOsdHeap.blocks 0xe0186000#32 := by
  intro hagree
  have hlookup := hagree.lookup.mp (by decide)
  exact hlookup (by decide)

end Tl880
