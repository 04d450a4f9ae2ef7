import Tl880.OsdCalls

/-!
# Idle stretches of the OSD heap

`tl880_compact_osdmem` merges neighbouring inactive blocks.  `IdleStretch` says what it
merges in terms of the list before the call: a run of inactive blocks with none before
or behind it.  The inactive blocks of the compacted list are exactly the stretches, in
their order (`IdleStretch.compact`, `idleStretch_of_compact`), so that a property of the
first search of `tl880_allocate_osdmem` can be read off the list it is called with.
-/

namespace Tl880

variable {w : Nat}

/-- The bytes of neighbouring blocks together. -/
def stretchSize (head : OsdBlock w) (run : List (OsdBlock w)) : BitVec w :=
  run.foldl (fun size b => size + b.size) head.size

@[simp] theorem stretchSize_nil (head : OsdBlock w) : stretchSize head [] = head.size := rfl

@[simp] theorem stretchSize_cons (head b : OsdBlock w) (run : List (OsdBlock w)) :
    stretchSize head (b :: run) = stretchSize { head with size := head.size + b.size } run :=
  rfl

/-- `head` and `run` are inactive neighbours, behind `pre` and before `post`, and no
further block at either end is inactive. -/
structure IdleStretch (blocks pre : List (OsdBlock w)) (head : OsdBlock w)
    (run post : List (OsdBlock w)) : Prop where
  list : blocks = pre ++ (head :: run ++ post)
  idle : ∀ b ∈ head :: run, b.active = false
  before : ∀ b ∈ pre.getLast?, b.active = true
  behind : ∀ b ∈ post.head?, b.active = true

/-! ## Compaction, stretch by stretch -/

/-- Where two parts of a list do not meet in two inactive blocks they are compacted
separately. -/
theorem compactFrom_append (b : OsdBlock w) (rest post : List (OsdBlock w))
    (hapart : ∀ x ∈ (b :: rest).getLast?, ∀ y ∈ post.head?, x.active = true ∨ y.active = true) :
    compactFrom b (rest ++ post) = compactFrom b rest ++ tl880CompactOsdmem post := by
  induction rest generalizing b with
  | nil =>
      cases post with
      | nil => simp [compactFrom, tl880CompactOsdmem]
      | cons c post =>
          have hnot : ¬ (!b.active && !c.active) = true := by
            rcases hapart b (by simp) c (by simp) with hb | hc
            · simp [hb]
            · simp [hc]
          simp only [List.nil_append, compactFrom, tl880CompactOsdmem, if_neg hnot]
          rfl
  | cons c rest ih =>
      rw [List.cons_append, compactFrom, compactFrom]
      split_ifs with hidle
      · apply ih
        intro x hx y hy
        simp only [Bool.and_eq_true, Bool.not_eq_true'] at hidle
        cases rest with
        | nil =>
            -- the merged block is the last one, and `c` was
            have hlast : x = { b with size := b.size + c.size } := by simpa using hx.symm
            have hc := hapart c (by simp) y hy
            rw [hlast]
            exact hc.imp_left fun h => absurd h (by simp [hidle.2])
        | cons d rest => exact hapart x (by simpa using hx) y hy
      · rw [ih c fun x hx => hapart x (by simpa using hx)]
        rfl

theorem tl880CompactOsdmem_append (pre post : List (OsdBlock w))
    (hapart : ∀ x ∈ pre.getLast?, ∀ y ∈ post.head?, x.active = true ∨ y.active = true) :
    tl880CompactOsdmem (pre ++ post) = tl880CompactOsdmem pre ++ tl880CompactOsdmem post := by
  cases pre with
  | nil => rfl
  | cons b rest => exact compactFrom_append b rest post hapart

/-- A stretch becomes one block. -/
theorem compactFrom_idle {head : OsdBlock w} {run : List (OsdBlock w)}
    (hidle : ∀ b ∈ head :: run, b.active = false) :
    compactFrom head run = [{ head with size := stretchSize head run }] := by
  induction run generalizing head with
  | nil => rfl
  | cons c run ih =>
      have hhead : head.active = false := hidle head (by simp)
      have hboth : (!head.active && !c.active) = true := by
        simp [hhead, hidle c (by simp)]
      rw [compactFrom, if_pos hboth, ih, stretchSize_cons]
      intro b hb
      rcases List.mem_cons.mp hb with heq | hb
      · rw [heq]
        exact hhead
      · exact hidle b (by simp [hb])

/-- A stretch is an inactive block of the compacted list, behind what was before it. -/
theorem IdleStretch.compact {blocks pre : List (OsdBlock w)} {head : OsdBlock w}
    {run post : List (OsdBlock w)} (h : IdleStretch blocks pre head run post) :
    tl880CompactOsdmem blocks = tl880CompactOsdmem pre ++
      { head with size := stretchSize head run } :: tl880CompactOsdmem post := by
  rw [h.list, tl880CompactOsdmem_append, tl880CompactOsdmem_append]
  · show _ ++ (compactFrom head run ++ _) = _
    rw [compactFrom_idle h.idle]
    rfl
  · intro x _ y hy
    exact Or.inr (h.behind y hy)
  · intro x hx y _
    exact Or.inl (h.before x hx)

/-- A stretch stays one when the list grows at the front, and what is before it is
compacted separately, unless two inactive blocks meet where the list has grown. -/
theorem IdleStretch.grow {blocks pre : List (OsdBlock w)} {head : OsdBlock w}
    {run post : List (OsdBlock w)} (h : IdleStretch blocks pre head run post)
    (front : List (OsdBlock w))
    (hapart : (∀ x ∈ front.getLast?, x.active = true) ∨ ∀ y ∈ blocks.head?, y.active = true) :
    IdleStretch (front ++ blocks) (front ++ pre) head run post ∧
      tl880CompactOsdmem (front ++ pre) =
        tl880CompactOsdmem front ++ tl880CompactOsdmem pre := by
  have hlist : front ++ blocks = front ++ pre ++ (head :: run ++ post) := by
    rw [h.list, List.append_assoc]
  cases pre with
  | nil =>
      -- the stretch begins the list, so it is the last block of `front` that is active
      have hfront : ∀ x ∈ front.getLast?, x.active = true := by
        refine hapart.resolve_right fun hblocks => ?_
        have hhead := hblocks head (by rw [h.list]; rfl)
        rw [h.idle head List.mem_cons_self] at hhead
        cases hhead
      refine ⟨⟨hlist, h.idle, ?_, h.behind⟩, ?_⟩
      · rw [List.append_nil]
        exact hfront
      · rw [List.append_nil]
        exact (List.append_nil _).symm
  | cons c pre =>
      have hhead : blocks.head? = (c :: pre).head? := by
        rw [h.list]
        rfl
      refine ⟨⟨hlist, h.idle, ?_, h.behind⟩, ?_⟩
      · intro b hb
        exact h.before b (by simpa [List.getLast?_append] using hb)
      · apply tl880CompactOsdmem_append
        intro x hx y hy
        exact hapart.imp (fun hfront => hfront x hx) fun hblocks => hblocks y (hhead ▸ hy)

/-- A list whose first block is inactive begins with a stretch, up to its first active
block. -/
theorem exists_idleStretch {first : OsdBlock w} (rest : List (OsdBlock w))
    (hfirst : first.active = false) :
    ∃ run post, IdleStretch (first :: rest) [] first run post := by
  refine ⟨rest.takeWhile fun b => !b.active, rest.dropWhile fun b => !b.active, ?_, ?_, ?_, ?_⟩
  · rw [List.nil_append, List.cons_append, List.takeWhile_append_dropWhile]
  · intro b hb
    rcases List.mem_cons.mp hb with rfl | hb
    · exact hfirst
    · simpa using List.all_eq_true.mp List.all_takeWhile b hb
  · intro b hb
    cases hb
  · intro b hb
    have hnot := List.head?_dropWhile_not (fun b => !b.active) rest
    rw [hb] at hnot
    simpa using hnot

/-- Each inactive block of the compacted list is a stretch of the list before. -/
theorem idleStretch_of_compact {blocks before : List (OsdBlock w)} {b : OsdBlock w}
    {behind : List (OsdBlock w)}
    (hcompact : tl880CompactOsdmem blocks = before ++ b :: behind) (hb : b.active = false) :
    ∃ pre head run post, IdleStretch blocks pre head run post ∧
      before = tl880CompactOsdmem pre ∧ b = { head with size := stretchSize head run } := by
  induction hn : blocks.length using Nat.strong_induction_on generalizing blocks before with
  | _ n ih =>
  cases blocks with
  | nil => simp [tl880CompactOsdmem] at hcompact
  | cons first rest =>
      cases hfirst : first.active with
      | true =>
          have hlast : ∀ x ∈ [first].getLast?, x.active = true := by
            intro x hx
            have hx : first = x := by simpa using hx
            rw [← hx, hfirst]
          have hsplit : tl880CompactOsdmem (first :: rest) =
              first :: tl880CompactOsdmem rest :=
            tl880CompactOsdmem_append [first] rest fun x hx _ _ => Or.inl (hlast x hx)
          rw [hsplit] at hcompact
          cases before with
          | nil =>
              have heq : first = b := (List.cons.inj hcompact).1
              rw [← heq, hfirst] at hb
              cases hb
          | cons c before =>
              obtain ⟨rfl, hrest⟩ := List.cons.inj hcompact
              obtain ⟨pre, head, run, post, hstretch, hbefore, hblock⟩ :=
                ih rest.length (by simp [← hn]) hrest rfl
              obtain ⟨hgrown, hpre⟩ := hstretch.grow [first] (Or.inl hlast)
              refine ⟨[first] ++ pre, head, run, post, hgrown, ?_, hblock⟩
              rw [hpre, hbefore]
              rfl
      | false =>
          -- the first stretch of the list, and what is behind it
          obtain ⟨run, post, hstretch⟩ := exists_idleStretch rest hfirst
          have hlist : first :: rest = first :: run ++ post := hstretch.list
          rw [hstretch.compact] at hcompact
          cases before with
          | nil =>
              have heq := (List.cons.inj hcompact).1
              exact ⟨[], first, run, post, hstretch, rfl, heq.symm⟩
          | cons c before =>
              obtain ⟨hc, hrest⟩ := List.cons.inj hcompact
              have hshort : post.length < n := by
                rw [← hn, hlist]
                simp only [List.length_cons, List.length_append]
                omega
              obtain ⟨pre, head, run', post', hstretch', hbefore, hblock⟩ :=
                ih post.length hshort hrest rfl
              -- the block behind the first stretch is active
              obtain ⟨hgrown, hpre⟩ := hstretch'.grow (first :: run) (Or.inr hstretch.behind)
              refine ⟨first :: run ++ pre, head, run', post', ?_, ?_, hblock⟩
              · rw [hlist]
                exact hgrown
              · rw [hpre, ← hbefore, ← hc]
                show _ = compactFrom first run ++ before
                rw [compactFrom_idle hstretch.idle]
                rfl

end Tl880
