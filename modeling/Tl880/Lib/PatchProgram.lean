import Tl880.Lib.Patch

/-!
# Programs that set places

A program *sets places* when, from every state it may start in, it sets the same places to
the same values and leaves the others: it shows as one patch.  Straight-line programs that
write registers, or fields of registers, are of this kind.

Nothing but two runs is needed to find the patch (`Shows.probe`): a place that is set holds
the same after both, and one that is left still tells the two apart.  Where the places are
bits of words, the runs are one from zeros and one from ones, and give for each word a mask and
a value (`Shows.wordAfter`).
-/

namespace Patch

variable {α β σ : Type*}

/-- From the states of `pre` the program shows as the patch, which sets places inside only,
and leads to the states of `post`. -/
structure Shows (view : σ → α → β) (pre post : σ → Prop) (inside : α → Prop) (f : σ → σ)
    (p : Patch α β) : Prop where
  keep : ∀ s, pre s → post (f s)
  shows : ∀ s, pre s → view (f s) = p.apply (view s)
  outside : ∀ a, ¬ inside a → p a = none

/-- The program sets places. -/
def Sets (view : σ → α → β) (pre post : σ → Prop) (inside : α → Prop) (f : σ → σ) : Prop :=
  ∃ p, Shows view pre post inside f p

variable {view : σ → α → β} {pre mid post inv : σ → Prop} {inside : α → Prop} {f g : σ → σ}
  {p : Patch α β}

/-! ## Composition -/

/-- A program that does nothing. -/
theorem Sets.skip : Sets view inv inv inside id :=
  ⟨fun _ => none, fun _ hs => hs, fun _ _ => rfl, fun _ _ => rfl⟩

/-- One program after the other. -/
theorem Sets.comp (hf : Sets view pre mid inside f) (hg : Sets view mid post inside g) :
    Sets view pre post inside fun s => g (f s) := by
  obtain ⟨p, hp⟩ := hf
  obtain ⟨q, hq⟩ := hg
  refine ⟨fun a => (q a).or (p a), fun s hs => hq.keep _ (hp.keep s hs), ?_, ?_⟩
  · intro s hs
    funext a
    rw [hq.shows _ (hp.keep s hs), hp.shows s hs, apply, apply, apply]
    cases q a <;> rfl
  · intro a ha
    rw [hp.outside a ha, hq.outside a ha]
    rfl

/-- More places may be inside. -/
theorem Sets.mono (hf : Sets view pre post inside f) {inside' : α → Prop}
    (hinside : ∀ a, inside a → inside' a) : Sets view pre post inside' f := by
  obtain ⟨p, hp⟩ := hf
  exact ⟨p, hp.keep, hp.shows, fun a ha => hp.outside a fun h => ha (hinside a h)⟩

/-- Less may be said about the states. -/
theorem Sets.weaken (hf : Sets view pre post inside f) {pre' post' : σ → Prop}
    (hpre : ∀ s, pre' s → pre s) (hpost : ∀ s, post s → post' s) :
    Sets view pre' post' inside f := by
  obtain ⟨p, hp⟩ := hf
  exact ⟨p, fun s hs => hpost _ (hp.keep s (hpre s hs)), fun s hs => hp.shows s (hpre s hs),
    hp.outside⟩

/-- A choice that does not depend on the state. -/
theorem Sets.ite (c : Prop) [Decidable c] (hf : Sets view pre post inside f)
    (hg : Sets view pre post inside g) :
    Sets view pre post inside fun s => if c then f s else g s := by
  by_cases hc : c
  · simp only [if_pos hc]
    exact hf
  · simp only [if_neg hc]
    exact hg

/-- A list of operations each of which sets places. -/
theorem Sets.foldl {ι : Type*} {step : σ → ι → σ} {ops : List ι}
    (hops : ∀ op ∈ ops, Sets view inv inv inside fun s => step s op) :
    Sets view inv inv inside fun s => ops.foldl step s := by
  induction ops with
  | nil => exact Sets.skip
  | cons op ops ih =>
      exact (hops op List.mem_cons_self).comp (ih fun o ho => hops o (List.mem_cons_of_mem op ho))

/-- A program on one part of the state.  `part` finds the places of that part. -/
theorem Sets.lift {τ γ : Type*} (get : σ → τ) (part : α → Option γ) {viewPart : τ → γ → β}
    {invPart : τ → Prop} {insidePart : γ → Prop} {fPart : τ → τ}
    (hpart : Sets viewPart invPart invPart insidePart fPart)
    (hview : ∀ s a c, part a = some c → view s a = viewPart (get s) c)
    (hget : ∀ s, pre s → get (f s) = fPart (get s))
    (hrest : ∀ s a, pre s → part a = none → view (f s) a = view s a)
    (hinv : ∀ s, pre s → invPart (get s))
    (hkeep : ∀ s, pre s → invPart (get (f s)) → post (f s)) :
    Sets view pre post (fun a => ∃ c, part a = some c ∧ insidePart c) f := by
  obtain ⟨p, hp⟩ := hpart
  refine ⟨fun a => (part a).bind p, ?_, ?_, ?_⟩
  · intro s hs
    apply hkeep s hs
    rw [hget s hs]
    exact hp.keep _ (hinv s hs)
  · intro s hs
    funext a
    rw [apply]
    cases hc : part a with
    | none => rw [hrest s a hs hc, Option.bind_none, Option.getD_none]
    | some c =>
        rw [hview _ a c hc, hview s a c hc, hget s hs, hp.shows _ (hinv s hs), Option.bind_some, apply]
  · intro a ha
    cases hc : part a with
    | none => rfl
    | some c => exact hp.outside c fun hin => ha ⟨c, hc, hin⟩

/-! ## What the patch is -/

/-- Two runs tell what is set: the same value from states that differ there. -/
theorem Shows.probe [DecidableEq β] (h : Shows view pre post inside f p) {s t : σ} (hs : pre s)
    (ht : pre t) {a : α} (hne : view s a ≠ view t a) :
    p a = if view (f s) a = view (f t) a then some (view (f s) a) else none := by
  rw [h.shows s hs, h.shows t ht]
  cases ha : p a with
  | none => rw [apply_of_none ha, apply_of_none ha, if_neg hne]
  | some b => rw [apply_of_some ha, apply_of_some ha, if_pos rfl]

/-- Two states come to look alike exactly if they agree on what is not set. -/
theorem Shows.view_eq_iff (h : Shows view pre post inside f p) {s t : σ} (hs : pre s)
    (ht : pre t) : view (f s) = view (f t) ↔ ∀ a, p a = none → view s a = view t a := by
  rw [h.shows s hs, h.shows t ht]
  constructor
  · intro heq a ha
    have hplace := congrFun heq a
    rw [apply_of_none ha, apply_of_none ha] at hplace
    exact hplace
  · intro hagree
    funext a
    cases ha : p a with
    | none => rw [apply_of_none ha, apply_of_none ha, hagree a ha]
    | some b => rw [apply_of_some ha, apply_of_some ha]

/-! ## Words -/

/-- Bits of the word that has the key, and what they are set to. -/
structure SetWord (κ : Type*) (w : Nat) where
  key : κ
  mask : BitVec w
  value : BitVec w
  within : value &&& ~~~mask = 0 := by decide

/-- A word after the bits of its entry are set. -/
def wordAfter {κ : Type*} [DecidableEq κ] {w : Nat} (words : List (SetWord κ w)) (key : κ)
    (old : BitVec w) : BitVec w :=
  match words.find? fun word => word.key = key with
  | none => old
  | some word => (old &&& ~~~word.mask) ||| word.value

/-- The bit of an entry that is not set. -/
theorem SetWord.value_getLsbD {κ : Type*} {w : Nat} (word : SetWord κ w) {i : Nat} (hi : i < w)
    (hmask : word.mask.getLsbD i = false) : word.value.getLsbD i = false := by
  have hbit : (word.value &&& ~~~word.mask).getLsbD i = false := by
    rw [word.within]
    exact BitVec.getLsbD_zero
  simpa only [BitVec.getLsbD_and, BitVec.getLsbD_not, hi, hmask, decide_true, Bool.not_false,
    Bool.and_true] using hbit

section Words

variable {κ : Type*} {w : Nat} {words : List (SetWord κ w)} {place : κ → Nat → α}
  {read : σ → κ → BitVec w} {view : σ → α → Bool} {p : Patch α Bool} {zeros ones : σ}

/-- Two runs, from zeros and from ones, tell all bits of an entry. -/
theorem Shows.probe_word (h : Shows view pre post inside f p) (hzeros : pre zeros)
    (hones : pre ones) (hread : ∀ s key i, view s (place key i) = (read s key).getLsbD i)
    {word : SetWord κ w} (hz : read zeros word.key = 0)
    (ho : read ones word.key = BitVec.allOnes w) (hvalue : read (f zeros) word.key = word.value)
    (hmask : read (f ones) word.key = word.value ||| ~~~word.mask) {i : Nat} (hi : i < w) :
    p (place word.key i) =
      if word.mask.getLsbD i = true then some (word.value.getLsbD i) else none := by
  have hne : view zeros (place word.key i) ≠ view ones (place word.key i) := by
    simp [hread, hz, ho, hi]
  rw [h.probe hzeros hones hne]
  simp only [hread, hvalue, hmask, BitVec.getLsbD_or, BitVec.getLsbD_not, hi, decide_true,
    Bool.true_and]
  cases hbit : word.mask.getLsbD i with
  | true => simp
  | false => simp [word.value_getLsbD hi hbit]

/-- A program that sets bits of words, and of no words without an entry. -/
theorem Shows.wordAfter [DecidableEq κ] (h : Shows view pre post inside f p)
    (hread : ∀ s key i, view s (place key i) = (read s key).getLsbD i)
    (hentry : ∀ word ∈ words, ∀ i < w, p (place word.key i) =
      if word.mask.getLsbD i = true then some (word.value.getLsbD i) else none)
    (hinside : ∀ key i, inside (place key i) → ∃ word ∈ words, word.key = key) {s : σ}
    (hs : pre s) (key : κ) : read (f s) key = Patch.wordAfter words key (read s key) := by
  apply BitVec.eq_of_getLsbD_eq
  intro i hi
  have hbit : (read (f s) key).getLsbD i =
      (p (place key i)).getD ((read s key).getLsbD i) := by
    rw [← hread, ← hread, h.shows s hs]
    rfl
  rw [hbit, Patch.wordAfter]
  cases hfind : words.find? fun word => word.key = key with
  | none =>
      have hout : ¬ inside (place key i) := by
        intro hin
        obtain ⟨word, hword, hkey⟩ := hinside key i hin
        exact List.find?_eq_none.mp hfind word hword (decide_eq_true hkey)
      rw [h.outside _ hout]
      rfl
  | some word =>
      have hkey : word.key = key := by
        have hfound := List.find?_some hfind
        exact of_decide_eq_true hfound
      rw [← hkey, hentry word (List.mem_of_find?_eq_some hfind) i hi, BitVec.getLsbD_or,
        BitVec.getLsbD_and, BitVec.getLsbD_not]
      cases hmask : word.mask.getLsbD i with
      | true => simp only [hi, decide_true, Bool.not_true, Bool.and_false, Bool.false_or,
          if_true, Option.getD_some]
      | false => simp only [hi, word.value_getLsbD hi hmask, decide_true, Bool.not_false,
          Bool.and_true, Bool.or_false, Bool.false_eq_true, if_false, Option.getD_none]

end Words

end Patch
