import Tl880.Probe

/-!
# Loading the ALSA module

The model of `snd_tl880_init`, `snd_tl880_exit` and the adding and removing of a card in
`driver/alsa/tl880alsa.c`, and of the list of callbacks of `driver/tl880int.c` that they
change.  What the kernel answers is given by an `AlsaEnv`; every index that is used is
recorded, and every sound card that is created or freed is an entry of a ledger.

The loop that adds the cards stops at `SNDRV_CARDS`, and the loop that removes them after a
failure does not.  A card that is not enabled is told from a card that failed by `-ENOENT`,
which the calls into ALSA may return too.
-/

namespace Tl880

open Ledger LinkedList

/-! ## The module -/

/-- A function in a list of callbacks. -/
inductive ApuThFunc
  | testInt
  | other (n : Nat)
  deriving DecidableEq

/-- A sound card: the one that was created for a device, or what a pointer from outside of
`cards[]` leads to. -/
inductive SoundCard
  | ofDev (dev : Nat)
  | stray (n : Nat)
  deriving DecidableEq

/-- The arrays of the module. -/
inductive AlsaArray
  | cards
  | enable
  | index
  | id
  deriving DecidableEq

/-- What the kernel answers. -/
structure AlsaEnv where
  enable : Nat → Bool
  /-- `snd_card_new` does not return NULL -/
  cardNew : Nat → Bool
  pcmNew : Nat → Int
  cardRegister : Nat → Int
  /-- there is memory for the descriptor of a callback -/
  descAlloc : Nat → Bool

/-- `cards[]` and the memory behind it, the list `apu_th_funcs` of each device, the array
elements used, and the ledger of sound cards. -/
structure AlsaModule where
  cards : Nat → Option SoundCard
  apuThFuncs : Nat → List ApuThFunc
  used : List (AlsaArray × Nat)
  ops : List (Op SoundCard)

/-- The module as it is loaded. -/
def AlsaModule.loaded (sndrvCards : Nat) (behind : Nat → Option Nat) (others : Nat → List Nat) :
    AlsaModule where
  cards := fun dev => if dev < sndrvCards then none else (behind dev).map .stray
  apuThFuncs := fun dev => (others dev).map .other
  used := []
  ops := []

/-- An array element is used. -/
def AlsaModule.use (s : AlsaModule) (array : AlsaArray) (dev : Nat) : AlsaModule :=
  { s with used := (array, dev) :: s.used }

/-- `snd_card_new` or `snd_card_free` -/
def AlsaModule.enter (s : AlsaModule) (op : Op SoundCard) : AlsaModule :=
  { s with ops := s.ops ++ [op] }

def enoent : Int := 2

/-! ## Callbacks -/

/-- `tl880_add_int_callback` -/
def tl880AddIntCallback (alloc : Bool) (list : List ApuThFunc) (func : ApuThFunc) : List ApuThFunc :=
  if alloc = false then list else appendLast func list

/-- `tl880_remove_int_callback` -/
def tl880RemoveIntCallback (list : List ApuThFunc) (func : ApuThFunc) : List ApuThFunc :=
  match list with
  | [] => []
  | head :: rest =>
      if head = func then rest else (unlinkNext id func (head :: rest)).getD (head :: rest)

theorem tl880RemoveIntCallback_of_not_mem {list : List ApuThFunc} {func : ApuThFunc}
    (hmem : func ∉ list) : tl880RemoveIntCallback list func = list := by
  cases list with
  | nil => rfl
  | cons head rest =>
      have hhead : head ≠ func := by
        rintro rfl
        exact hmem List.mem_cons_self
      have hnone : unlinkNext id func (head :: rest) = none := by
        apply unlinkNext_eq_none
        rwa [List.map_id]
      rw [tl880RemoveIntCallback, if_neg hhead, hnone, Option.getD_none]

/-- What was added last is removed. -/
theorem tl880RemoveIntCallback_last {list : List ApuThFunc} {func : ApuThFunc} (hmem : func ∉ list) :
    tl880RemoveIntCallback (list ++ [func]) func = list := by
  cases list with
  | nil => exact if_pos rfl
  | cons head rest =>
      have hhead : head ≠ func := by
        rintro rfl
        exact hmem List.mem_cons_self
      have hlast : unlinkNext id func (head :: (rest ++ [func])) = some (head :: rest) := by
        apply unlinkNext_last
        · rw [List.map_id]
          exact fun h => hmem (List.mem_cons_of_mem head h)
        · rfl
      rw [List.cons_append, tl880RemoveIntCallback, if_neg hhead, hlast, Option.getD_some]

/-! ## Cards -/

/-- `snd_tl880_add_card` -/
def sndTl880AddCard (env : AlsaEnv) (dev : Nat) (s : AlsaModule) : Int × AlsaModule :=
  let s := s.use .enable dev
  if env.enable dev = false then (-enoent, s)
  else
    let s := (s.use .index dev).use .id dev
    if env.cardNew dev = false then (-enomem, s)
    else
      let s := s.enter (.acquire (.ofDev dev))
      if env.pcmNew dev ≠ 0 then (env.pcmNew dev, s.enter (.release (.ofDev dev)))
      else if env.cardRegister dev ≠ 0 then
        (env.cardRegister dev, s.enter (.release (.ofDev dev)))
      else
        let s := s.use .cards dev
        (0, { s with
          cards := Function.update s.cards dev (some (.ofDev dev))
          apuThFuncs := Function.update s.apuThFuncs dev
            (tl880AddIntCallback (env.descAlloc dev) (s.apuThFuncs dev) .testInt) })

/-- `snd_tl880_remove_card` -/
def sndTl880RemoveCard (s : AlsaModule) (dev : Nat) : AlsaModule :=
  let s := { s with
    apuThFuncs := Function.update s.apuThFuncs dev
      (tl880RemoveIntCallback (s.apuThFuncs dev) .testInt) }
  let s := s.use .cards dev
  match s.cards dev with
  | none => s
  | some card =>
      { s.enter (.release card) with cards := Function.update s.cards dev none }

/-- The loop of `snd_tl880_init` that adds the cards.  A card that is not enabled does not
stop it. -/
def addCards (env : AlsaEnv) : List Nat → AlsaModule → Int × AlsaModule
  | [], s => (0, s)
  | dev :: rest, s =>
      let (err, s) := sndTl880AddCard env dev s
      if err = 0 ∨ err = -enoent then addCards env rest s else (err, s)

/-- `snd_tl880_init` -/
def sndTl880Init (env : AlsaEnv) (sndrvCards : Nat) (nCards : Int) (s : AlsaModule) :
    Int × AlsaModule :=
  let (err, s) := addCards env (List.range (min nCards.toNat sndrvCards)) s
  -- the bound of the array is not in this loop
  if err ≠ 0 then (err, (List.range nCards.toNat).foldl sndTl880RemoveCard s) else (0, s)

/-! ## What a card's outcome is -/

/-- What the calls into ALSA answer for a card. -/
def AlsaEnv.alsaError (env : AlsaEnv) (dev : Nat) : Int :=
  if env.pcmNew dev ≠ 0 then env.pcmNew dev else env.cardRegister dev

/-- The sound card cannot be set up, and not because of an `-ENOENT`. -/
def AlsaEnv.Fatal (env : AlsaEnv) (dev : Nat) : Prop :=
  env.enable dev = true ∧
    (env.cardNew dev = false ∨ env.alsaError dev ≠ 0 ∧ env.alsaError dev ≠ -enoent)

/-- An enabled card for which ALSA answers `-ENOENT`. -/
def AlsaEnv.Mistaken (env : AlsaEnv) (dev : Nat) : Prop :=
  env.enable dev = true ∧ env.cardNew dev = true ∧ env.alsaError dev = -enoent

/-- Everything goes well with the card. -/
def AlsaEnv.succeeds (env : AlsaEnv) (dev : Nat) : Bool :=
  env.enable dev && env.cardNew dev && decide (env.alsaError dev = 0)

/-! ## What holds between the steps -/

variable {env : AlsaEnv} {sndrvCards : Nat} {behind : Nat → Option Nat} {others : Nat → List Nat}

/-- The cards with the property are there, and nothing else is. -/
structure Registered (env : AlsaEnv) (sndrvCards : Nat) (behind : Nat → Option Nat)
    (others : Nat → List Nat) (added : Nat → Bool) (s : AlsaModule) : Prop where
  cards : ∀ dev, s.cards dev =
    if added dev then some (.ofDev dev) else (AlsaModule.loaded sndrvCards behind others).cards dev
  funcs : ∀ dev, s.apuThFuncs dev =
    (others dev).map .other ++ if added dev && env.descAlloc dev then [.testInt] else []
  owned : ∃ held, settle [] s.ops = some held ∧ held.Nodup ∧
    ∀ card, card ∈ held ↔ ∃ dev, added dev = true ∧ card = .ofDev dev

theorem testInt_not_mem (ns : List Nat) : ApuThFunc.testInt ∉ ns.map .other := by
  simp

theorem loaded_registered :
    Registered env sndrvCards behind others (fun _ => false)
      (AlsaModule.loaded sndrvCards behind others) where
  cards _ := rfl
  funcs dev := by
    rw [Bool.false_and, if_neg (by decide), List.append_nil]
    rfl
  owned := ⟨[], rfl, List.nodup_nil, by simp⟩

/-- Only the ledger, the cards and the callbacks matter. -/
theorem Registered.congr {added : Nat → Bool} {s t : AlsaModule}
    (h : Registered env sndrvCards behind others added s) (hcards : t.cards = s.cards)
    (hfuncs : t.apuThFuncs = s.apuThFuncs) (hops : settle [] t.ops = settle [] s.ops) :
    Registered env sndrvCards behind others added t where
  cards dev := by rw [hcards, h.cards dev]
  funcs dev := by rw [hfuncs, h.funcs dev]
  owned := by
    rw [hops]
    exact h.owned

/-- A card that is created and freed at once leaves the ledger as it was. -/
theorem Registered.settle_twice {added : Nat → Bool} {s : AlsaModule}
    (h : Registered env sndrvCards behind others added s) (card : SoundCard) :
    settle [] (s.ops ++ [.acquire card] ++ [.release card]) = settle [] s.ops := by
  obtain ⟨held, hsettle, -⟩ := h.owned
  rw [List.append_assoc, settle_append hsettle, hsettle, List.singleton_append, settle, settle,
    if_pos List.mem_cons_self, List.erase_cons_head, settle]

/-- The ledger holds the sound cards with the property. -/
def HoldsCards (ops : List (Op SoundCard)) (added : Nat → Bool) : Prop :=
  ∃ held, settle [] ops = some held ∧ held.Nodup ∧
    ∀ card, card ∈ held ↔ ∃ dev, added dev = true ∧ card = .ofDev dev

theorem HoldsCards.acquire {ops : List (Op SoundCard)} {added : Nat → Bool} {dev : Nat}
    (h : HoldsCards ops added) (hnew : added dev = false) :
    HoldsCards (ops ++ [.acquire (.ofDev dev)]) (Function.update added dev true) := by
  obtain ⟨held, hsettle, hnodup, hmem⟩ := h
  refine ⟨.ofDev dev :: held, ?_, ?_, ?_⟩
  · rw [settle_append hsettle]
    rfl
  · refine List.nodup_cons.mpr ⟨?_, hnodup⟩
    rw [hmem]
    rintro ⟨d, hd, hsame⟩
    cases hsame
    rw [hnew] at hd
    cases hd
  · intro card
    rw [List.mem_cons, hmem]
    constructor
    · rintro (heq | ⟨d, hd, heq⟩)
      · exact ⟨dev, Function.update_self .., heq⟩
      · refine ⟨d, ?_, heq⟩
        by_cases hsame : d = dev
        · rw [hsame, Function.update_self]
        · rwa [Function.update_of_ne hsame]
    · rintro ⟨d, hd, heq⟩
      by_cases hsame : d = dev
      · rw [hsame] at heq
        exact Or.inl heq
      · rw [Function.update_of_ne hsame] at hd
        exact Or.inr ⟨d, hd, heq⟩

theorem HoldsCards.release {ops : List (Op SoundCard)} {added : Nat → Bool} {dev : Nat}
    (h : HoldsCards ops added) (hthere : added dev = true) :
    HoldsCards (ops ++ [.release (.ofDev dev)]) (Function.update added dev false) := by
  obtain ⟨held, hsettle, hnodup, hmem⟩ := h
  refine ⟨held.erase (.ofDev dev), ?_, hnodup.erase _, ?_⟩
  · rw [settle_append hsettle]
    exact if_pos ((hmem _).mpr ⟨dev, hthere, rfl⟩)
  · intro card
    rw [hnodup.mem_erase_iff, hmem]
    constructor
    · rintro ⟨hne, d, hd, heq⟩
      refine ⟨d, ?_, heq⟩
      rw [Function.update_of_ne]
      · exact hd
      · rintro rfl
        exact hne heq
    · rintro ⟨d, hd, heq⟩
      have hother : d ≠ dev := by
        rintro rfl
        rw [Function.update_self] at hd
        cases hd
      rw [Function.update_of_ne hother] at hd
      refine ⟨?_, d, hd, heq⟩
      rw [heq]
      intro hsame
      cases hsame
      exact hother rfl

/-- A card that is set up. -/
theorem Registered.add {added : Nat → Bool} {s t : AlsaModule} {dev : Nat}
    (h : Registered env sndrvCards behind others added s) (hnew : added dev = false)
    (hcards : t.cards = Function.update s.cards dev (some (.ofDev dev)))
    (hfuncs : t.apuThFuncs = Function.update s.apuThFuncs dev
      (tl880AddIntCallback (env.descAlloc dev) (s.apuThFuncs dev) .testInt))
    (hops : t.ops = s.ops ++ [.acquire (.ofDev dev)]) :
    Registered env sndrvCards behind others (Function.update added dev true) t where
  cards d := by
    rw [hcards]
    by_cases hd : d = dev
    · rw [hd, Function.update_self, Function.update_self, if_pos rfl]
    · rw [Function.update_of_ne hd, Function.update_of_ne hd, h.cards d]
  funcs d := by
    rw [hfuncs]
    by_cases hd : d = dev
    · rw [hd, Function.update_self, Function.update_self, h.funcs dev, hnew, Bool.false_and,
        if_neg (by decide), List.append_nil, Bool.true_and, tl880AddIntCallback]
      cases env.descAlloc dev with
      | false => exact (List.append_nil _).symm
      | true => exact appendLast_eq _ _
    · rw [Function.update_of_ne hd, Function.update_of_ne hd, h.funcs d]
  owned := by
    rw [hops]
    exact HoldsCards.acquire h.owned hnew

/-- The four ways in which adding a card ends. -/
theorem sndTl880AddCard_cases (env : AlsaEnv) (dev : Nat) (s : AlsaModule) :
    let named := ((s.use .enable dev).use .index dev).use .id dev
    (env.enable dev = false ∧ sndTl880AddCard env dev s = (-enoent, s.use .enable dev)) ∨
      (env.enable dev = true ∧ env.cardNew dev = false ∧
        sndTl880AddCard env dev s = (-enomem, named)) ∨
      (env.enable dev = true ∧ env.cardNew dev = true ∧ env.alsaError dev ≠ 0 ∧
        sndTl880AddCard env dev s = (env.alsaError dev,
          (named.enter (.acquire (.ofDev dev))).enter (.release (.ofDev dev)))) ∨
      (env.enable dev = true ∧ env.cardNew dev = true ∧ env.alsaError dev = 0 ∧
        sndTl880AddCard env dev s = (0,
          { (named.enter (.acquire (.ofDev dev))).use .cards dev with
            cards := Function.update s.cards dev (some (.ofDev dev))
            apuThFuncs := Function.update s.apuThFuncs dev
              (tl880AddIntCallback (env.descAlloc dev) (s.apuThFuncs dev) .testInt) })) := by
  intro named
  unfold sndTl880AddCard AlsaEnv.alsaError
  cases env.enable dev with
  | false => exact Or.inl ⟨rfl, rfl⟩
  | true =>
      right
      cases env.cardNew dev with
      | false => exact Or.inl ⟨rfl, rfl, rfl⟩
      | true =>
          right
          by_cases hpcm : env.pcmNew dev = 0
          · by_cases hregister : env.cardRegister dev = 0
            · right
              simp only [hpcm, hregister, ne_eq, not_true_eq_false, if_false]
              exact ⟨trivial, trivial, trivial, rfl⟩
            · left
              simp only [hpcm, ne_eq, not_true_eq_false, if_false, if_pos hregister]
              exact ⟨trivial, trivial, hregister, rfl⟩
          · left
            simp only [ne_eq, if_pos hpcm]
            exact ⟨trivial, trivial, hpcm, rfl⟩

/-- What adding a card does. -/
theorem sndTl880AddCard_spec {added : Nat → Bool} {s : AlsaModule} {dev : Nat}
    (h : Registered env sndrvCards behind others added s) (hnew : added dev = false) :
    let t := sndTl880AddCard env dev s
    (env.succeeds dev = true ∧ t.1 = 0 ∧
        Registered env sndrvCards behind others (Function.update added dev true) t.2) ∨
      (env.succeeds dev = false ∧ t.1 ≠ 0 ∧ (t.1 ≠ -enoent ↔ env.Fatal dev) ∧
        Registered env sndrvCards behind others added t.2) := by
  intro t
  rcases sndTl880AddCard_cases env dev s with
    ⟨henable, heq⟩ | ⟨henable, hnone, heq⟩ | ⟨henable, hcard, herror, heq⟩ |
      ⟨henable, hcard, herror, heq⟩
  · right
    have hcode : t.1 = -enoent := by rw [show t = _ from heq]
    refine ⟨by simp [AlsaEnv.succeeds, henable], ?_, ?_, ?_⟩
    · rw [hcode]
      decide
    · simp [hcode, AlsaEnv.Fatal, henable]
    · rw [show t = _ from heq]
      exact h.congr rfl rfl rfl
  · right
    have hcode : t.1 = -enomem := by rw [show t = _ from heq]
    refine ⟨by simp [AlsaEnv.succeeds, hnone], ?_, ?_, ?_⟩
    · rw [hcode]
      decide
    · rw [hcode]
      exact iff_of_true (by decide) ⟨henable, Or.inl hnone⟩
    · rw [show t = _ from heq]
      exact h.congr rfl rfl rfl
  · right
    have hcode : t.1 = env.alsaError dev := by rw [show t = _ from heq]
    refine ⟨by simp [AlsaEnv.succeeds, herror], ?_, ?_, ?_⟩
    · rwa [hcode]
    · simp [hcode, AlsaEnv.Fatal, henable, hcard, herror]
    · rw [show t = _ from heq]
      exact h.congr rfl rfl (h.settle_twice (.ofDev dev))
  · left
    refine ⟨by simp [AlsaEnv.succeeds, henable, hcard, herror], ?_, ?_⟩
    · rw [show t = _ from heq]
    · rw [show t = _ from heq]
      exact h.add hnew rfl rfl rfl

/-- Adding a card uses the elements of its number only. -/
theorem sndTl880AddCard_used (env : AlsaEnv) (dev : Nat) (s : AlsaModule) :
    ∀ u ∈ (sndTl880AddCard env dev s).2.used, u ∈ s.used ∨ u.2 = dev := by
  intro u hu
  rcases sndTl880AddCard_cases env dev s with
    ⟨-, heq⟩ | ⟨-, -, heq⟩ | ⟨-, -, -, heq⟩ | ⟨-, -, -, heq⟩
  all_goals
    rw [heq] at hu
    simp only [AlsaModule.use, AlsaModule.enter, List.mem_cons] at hu
    grind

/-- What removing a card leaves. -/
theorem sndTl880RemoveCard_fields (s : AlsaModule) (dev : Nat) :
    (sndTl880RemoveCard s dev).cards = Function.update s.cards dev none ∧
      (sndTl880RemoveCard s dev).apuThFuncs = Function.update s.apuThFuncs dev
        (tl880RemoveIntCallback (s.apuThFuncs dev) .testInt) ∧
      (sndTl880RemoveCard s dev).ops = s.ops ++ (s.cards dev).toList.map .release := by
  unfold sndTl880RemoveCard AlsaModule.use AlsaModule.enter
  dsimp only
  cases hcard : s.cards dev with
  | none =>
      refine ⟨?_, rfl, (List.append_nil _).symm⟩
      exact (Function.update_eq_self_iff.mpr hcard.symm).symm
  | some card => exact ⟨rfl, rfl, rfl⟩

/-- What removing a card does, inside of the array. -/
theorem sndTl880RemoveCard_spec {added : Nat → Bool} {s : AlsaModule} {dev : Nat}
    (h : Registered env sndrvCards behind others added s) (hdev : dev < sndrvCards) :
    Registered env sndrvCards behind others (Function.update added dev false)
      (sndTl880RemoveCard s dev) := by
  obtain ⟨hcards, hfuncs, hops⟩ := sndTl880RemoveCard_fields s dev
  have hempty : (AlsaModule.loaded sndrvCards behind others).cards dev = none := if_pos hdev
  have hleft : tl880RemoveIntCallback (s.apuThFuncs dev) .testInt = (others dev).map .other := by
    rw [h.funcs dev]
    split_ifs
    · exact tl880RemoveIntCallback_last (testInt_not_mem _)
    · rw [List.append_nil]
      exact tl880RemoveIntCallback_of_not_mem (testInt_not_mem _)
  constructor
  · intro d
    rw [hcards]
    by_cases hd : d = dev
    · rw [hd, Function.update_self, Function.update_self, if_neg (by decide), hempty]
    · rw [Function.update_of_ne hd, Function.update_of_ne hd, h.cards d]
  · intro d
    rw [hfuncs]
    by_cases hd : d = dev
    · rw [hd, Function.update_self, Function.update_self, hleft, Bool.false_and,
        if_neg (by decide), List.append_nil]
    · rw [Function.update_of_ne hd, Function.update_of_ne hd, h.funcs d]
  · rw [hops, h.cards dev]
    cases hadded : added dev with
    | false =>
        rw [if_neg (by decide), hempty, ← hadded, Function.update_eq_self]
        simpa using h.owned
    | true => exact HoldsCards.release h.owned hadded

/-- Removing a card uses its place in the array, and no other. -/
theorem sndTl880RemoveCard_used (s : AlsaModule) (dev : Nat) :
    (AlsaArray.cards, dev) ∈ (sndTl880RemoveCard s dev).used ∧
      s.used ⊆ (sndTl880RemoveCard s dev).used ∧
      ∀ u ∈ (sndTl880RemoveCard s dev).used, u ∈ s.used ∨ u.2 = dev := by
  have hused : (sndTl880RemoveCard s dev).used = (.cards, dev) :: s.used := by
    unfold sndTl880RemoveCard AlsaModule.use AlsaModule.enter
    dsimp only
    cases s.cards dev <;> rfl
  rw [hused]
  refine ⟨List.mem_cons_self, List.subset_cons_self _ _, ?_⟩
  intro u hu
  rcases List.mem_cons.mp hu with heq | hmem
  · rw [heq]
    exact Or.inr rfl
  · exact Or.inl hmem

/-! ## The loops -/

theorem not_fatal_of_succeeds {dev : Nat} (h : env.succeeds dev = true) : ¬ env.Fatal dev := by
  rw [AlsaEnv.succeeds, Bool.and_eq_true, Bool.and_eq_true, decide_eq_true_iff] at h
  rintro ⟨-, hnone | ⟨herror, -⟩⟩
  · rw [hnone] at h
    cases h.1.2
  · exact herror h.2

/-- How adding the cards in `l` ends: the ones that succeed are there, none of them being one
that ends the loop; or one of them is. -/
def AddsCards (env : AlsaEnv) (sndrvCards : Nat) (behind : Nat → Option Nat)
    (others : Nat → List Nat) (added : Nat → Bool) (l : List Nat) (t : Int × AlsaModule) : Prop :=
  (t.1 = 0 ∧ (∀ dev ∈ l, ¬ env.Fatal dev) ∧
      Registered env sndrvCards behind others
        (fun dev => added dev || decide (dev ∈ l) && env.succeeds dev) t.2) ∨
    (t.1 ≠ 0 ∧ (∃ dev ∈ l, env.Fatal dev) ∧
      ∃ added', (∀ dev, added' dev = true → added dev = true ∨ dev ∈ l) ∧
        Registered env sndrvCards behind others added' t.2)

/-- The loop goes on after a card that was added or skipped. -/
theorem AddsCards.cons {added added' : Nat → Bool} {dev : Nat} {rest : List Nat}
    {t : Int × AlsaModule} (h : AddsCards env sndrvCards behind others added' rest t)
    (hadded' : ∀ d, added' d = (added d || decide (d = dev) && env.succeeds d))
    (hnotFatal : ¬ env.Fatal dev) :
    AddsCards env sndrvCards behind others added (dev :: rest) t := by
  rcases h with ⟨hzero, hnone, hreg⟩ | ⟨hne, ⟨d, hd, hfatal⟩, added'', hsub, hreg⟩
  · left
    refine ⟨hzero, List.forall_mem_cons.mpr ⟨hnotFatal, hnone⟩, ?_⟩
    have hsame : (fun d => added' d || decide (d ∈ rest) && env.succeeds d) =
        fun d => added d || decide (d ∈ dev :: rest) && env.succeeds d := by
      funext d
      rw [hadded']
      by_cases hd : d = dev <;> simp [hd]
      grind
    rw [← hsame]
    exact hreg
  · right
    refine ⟨hne, ⟨d, List.mem_cons_of_mem _ hd, hfatal⟩, added'', ?_, hreg⟩
    intro d hd
    rcases hsub d hd with hmem | hmem
    · rw [hadded', Bool.or_eq_true, Bool.and_eq_true, decide_eq_true_iff] at hmem
      rcases hmem with hold | ⟨heq, -⟩
      · exact Or.inl hold
      · exact Or.inr (heq ▸ List.mem_cons_self)
    · exact Or.inr (List.mem_cons_of_mem _ hmem)

theorem addCards_spec {added : Nat → Bool} {s : AlsaModule} (l : List Nat) (hnodup : l.Nodup)
    (h : Registered env sndrvCards behind others added s) (hnew : ∀ dev ∈ l, added dev = false) :
    AddsCards env sndrvCards behind others added l (addCards env l s) := by
  induction l generalizing added s with
  | nil =>
      left
      refine ⟨rfl, fun dev hdev => absurd hdev List.not_mem_nil, ?_⟩
      have hsame : (fun dev => added dev || decide (dev ∈ []) && env.succeeds dev) = added := by
        funext dev
        simp
      rw [hsame]
      exact h
  | cons dev rest ih =>
      obtain ⟨hout, hrest⟩ := List.nodup_cons.mp hnodup
      have hdev := hnew dev List.mem_cons_self
      have hlater : ∀ d ∈ rest, d ≠ dev ∧ added d = false := by
        intro d hd
        exact ⟨fun heq => hout (heq ▸ hd), hnew d (List.mem_cons_of_mem _ hd)⟩
      rw [addCards]
      dsimp only
      rcases sndTl880AddCard_spec h hdev with
        ⟨hsucceeds, hzero, hadded⟩ | ⟨hsucceeds, hne, hfatal, hkept⟩
      · rw [if_pos (Or.inl hzero)]
        have hrun := ih hrest hadded fun d hd => by
          rw [Function.update_of_ne (hlater d hd).1]
          exact (hlater d hd).2
        apply hrun.cons _ (not_fatal_of_succeeds hsucceeds)
        intro d
        by_cases hd : d = dev
        · rw [hd, Function.update_self, hdev, hsucceeds]
          simp
        · rw [Function.update_of_ne hd]
          simp [hd]
      · by_cases hskip : (sndTl880AddCard env dev s).1 = -enoent
        · rw [if_pos (Or.inr hskip)]
          have hrun := ih hrest hkept fun d hd => (hlater d hd).2
          apply hrun.cons _ fun h => hfatal.mpr h hskip
          intro d
          by_cases hd : d = dev
          · rw [hd, hsucceeds]
            simp
          · simp [hd]
        · rw [if_neg (not_or.mpr ⟨hne, hskip⟩)]
          right
          refine ⟨hne, ⟨dev, List.mem_cons_self, hfatal.mp hskip⟩, added, ?_, hkept⟩
          exact fun d hd => Or.inl hd

/-- Adding cards uses the elements of their numbers only. -/
theorem addCards_used (env : AlsaEnv) (l : List Nat) (s : AlsaModule) :
    ∀ u ∈ (addCards env l s).2.used, u ∈ s.used ∨ u.2 ∈ l := by
  induction l generalizing s with
  | nil => exact fun u hu => Or.inl hu
  | cons dev rest ih =>
      intro u hu
      have hone : u ∈ (sndTl880AddCard env dev s).2.used → u ∈ s.used ∨ u.2 ∈ dev :: rest := by
        intro hu
        rcases sndTl880AddCard_used env dev s u hu with hold | hdev
        · exact Or.inl hold
        · exact Or.inr (hdev ▸ List.mem_cons_self)
      rw [addCards] at hu
      dsimp only at hu
      split_ifs at hu
      · rcases ih _ u hu with hold | hmem
        · exact hone hold
        · exact Or.inr (List.mem_cons_of_mem _ hmem)
      · exact hone hu

/-- Cleaning up inside of the array leaves the cards that are not cleaned up. -/
theorem removeCards_spec {added : Nat → Bool} {s : AlsaModule} (l : List Nat)
    (h : Registered env sndrvCards behind others added s) (hwithin : ∀ dev ∈ l, dev < sndrvCards) :
    Registered env sndrvCards behind others (fun dev => added dev && decide (dev ∉ l))
      (l.foldl sndTl880RemoveCard s) := by
  induction l generalizing added s with
  | nil =>
      have hsame : (fun dev => added dev && decide (dev ∉ ([] : List Nat))) = added := by
        funext dev
        simp
      rw [hsame]
      exact h
  | cons dev rest ih =>
      have hrest := ih (sndTl880RemoveCard_spec h (hwithin dev List.mem_cons_self))
        fun d hd => hwithin d (List.mem_cons_of_mem _ hd)
      have hsame : (fun d => Function.update added dev false d && decide (d ∉ rest)) =
          fun d => added d && decide (d ∉ dev :: rest) := by
        funext d
        by_cases hd : d = dev
        · rw [hd, Function.update_self]
          simp
        · rw [Function.update_of_ne hd]
          simp [hd]
      rw [hsame] at hrest
      exact hrest

/-- The places of the array that are cleaned up are used. -/
theorem removeCards_used (l : List Nat) (s : AlsaModule) :
    s.used ⊆ (l.foldl sndTl880RemoveCard s).used ∧
      (∀ dev ∈ l, (AlsaArray.cards, dev) ∈ (l.foldl sndTl880RemoveCard s).used) ∧
      ∀ u ∈ (l.foldl sndTl880RemoveCard s).used, u ∈ s.used ∨ u.2 ∈ l := by
  induction l generalizing s with
  | nil =>
      refine ⟨List.Subset.refl _, fun dev hdev => absurd hdev List.not_mem_nil, ?_⟩
      exact fun u hu => Or.inl hu
  | cons dev rest ih =>
      obtain ⟨hplace, hkept, honly⟩ := sndTl880RemoveCard_used s dev
      obtain ⟨hkeptRest, hplaces, honlyRest⟩ := ih (sndTl880RemoveCard s dev)
      refine ⟨List.Subset.trans hkept hkeptRest, ?_, ?_⟩
      · intro d hd
        rcases List.mem_cons.mp hd with heq | hmem
        · rw [heq]
          exact hkeptRest hplace
        · exact hplaces d hmem
      · intro u hu
        rcases honlyRest u hu with hold | hmem
        · rcases honly u hold with hold | hdev
          · exact Or.inl hold
          · exact Or.inr (hdev ▸ List.mem_cons_self)
        · exact Or.inr (List.mem_cons_of_mem _ hmem)

/-! ## All or nothing -/

/-- Only elements of the arrays are used; after a failure every sound card that was created
has been freed once, no card is left in `cards[]` and no callback of the module with any
device; and after a success exactly the enabled cards are in `cards[]`. -/
structure AllOrNothing (env : AlsaEnv) (sndrvCards : Nat) (nCards : Int) (t : Int × AlsaModule) :
    Prop where
  inBounds : ∀ u ∈ t.2.used, u.2 < sndrvCards
  nothing : t.1 ≠ 0 → Clean t.2.ops ∧ (∀ dev < sndrvCards, t.2.cards dev = none) ∧
    ∀ dev, ApuThFunc.testInt ∉ t.2.apuThFuncs dev
  all : t.1 = 0 → ∀ dev < sndrvCards,
    t.2.cards dev ≠ none ↔ env.enable dev = true ∧ dev < min nCards.toNat sndrvCards

/-- An enabled card succeeds or fails in one of the two ways. -/
theorem enabled_cases {dev : Nat} (h : env.enable dev = true) :
    env.succeeds dev = true ∨ env.Fatal dev ∨ env.Mistaken dev := by
  unfold AlsaEnv.succeeds AlsaEnv.Fatal AlsaEnv.Mistaken
  rw [h]
  cases env.cardNew dev with
  | false => exact Or.inr (Or.inl ⟨rfl, Or.inl rfl⟩)
  | true =>
      by_cases hzero : env.alsaError dev = 0
      · left
        simpa using hzero
      · right
        by_cases henoent : env.alsaError dev = -enoent
        · exact Or.inr ⟨rfl, rfl, henoent⟩
        · exact Or.inl ⟨rfl, Or.inr ⟨hzero, henoent⟩⟩

theorem enable_of_succeeds {dev : Nat} (h : env.succeeds dev = true) : env.enable dev = true := by
  rw [AlsaEnv.succeeds, Bool.and_eq_true, Bool.and_eq_true] at h
  exact h.1.1

theorem not_mistaken_of_succeeds {dev : Nat} (h : env.succeeds dev = true) :
    ¬ env.Mistaken dev := by
  rw [AlsaEnv.succeeds, Bool.and_eq_true, decide_eq_true_iff] at h
  rintro ⟨-, -, herror⟩
  rw [h.2] at herror
  exact absurd herror (by decide)

/-- After a loop that reached its end the cards that succeed are there. -/
theorem allOrNothing_done {s : AlsaModule} {nCards : Int}
    (hused : ∀ u ∈ s.used, u.2 < sndrvCards)
    (hnone : ∀ dev < min nCards.toNat sndrvCards, ¬ env.Fatal dev)
    (hreg : Registered env sndrvCards behind others
      (fun dev => decide (dev < min nCards.toNat sndrvCards) && env.succeeds dev) s) :
    AllOrNothing env sndrvCards nCards (0, s) ↔
      ∀ dev < min nCards.toNat sndrvCards, ¬ env.Mistaken dev := by
  have hthere (dev : Nat) (hdev : dev < sndrvCards) : s.cards dev ≠ none ↔
      dev < min nCards.toNat sndrvCards ∧ env.succeeds dev = true := by
    have hempty : (AlsaModule.loaded sndrvCards behind others).cards dev = none := if_pos hdev
    rw [hreg.cards dev, hempty]
    split_ifs with hadded <;> simpa using hadded
  constructor
  · intro h dev hdev
    have hdev' : dev < sndrvCards := by omega
    intro hmistaken
    have hcard := (h.all rfl dev hdev').mpr ⟨hmistaken.1, hdev⟩
    exact not_mistaken_of_succeeds ((hthere dev hdev').mp hcard).2 hmistaken
  · intro hright
    refine ⟨hused, fun hne => absurd rfl hne, ?_⟩
    intro _ dev hdev
    rw [hthere dev hdev]
    constructor
    · rintro ⟨hbelow, hsucceeds⟩
      exact ⟨enable_of_succeeds hsucceeds, hbelow⟩
    · rintro ⟨henable, hbelow⟩
      rcases enabled_cases henable with hsucceeds | hfatal | hmistaken
      · exact ⟨hbelow, hsucceeds⟩
      · exact absurd hfatal (hnone dev hbelow)
      · exact absurd hmistaken (hright dev hbelow)

/-- Where no card is there, nothing of the module is left. -/
theorem Registered.nothing {s : AlsaModule}
    (h : Registered env sndrvCards behind others (fun _ => false) s) :
    Clean s.ops ∧ (∀ dev < sndrvCards, s.cards dev = none) ∧
      ∀ dev, ApuThFunc.testInt ∉ s.apuThFuncs dev := by
  refine ⟨?_, ?_, ?_⟩
  · obtain ⟨held, hsettle, -, hmem⟩ := h.owned
    have hnil : held = [] := by
      rw [List.eq_nil_iff_forall_not_mem]
      intro card hcard
      obtain ⟨dev, hdev, -⟩ := (hmem card).mp hcard
      cases hdev
    rw [hnil] at hsettle
    exact hsettle
  · intro dev hdev
    rw [h.cards dev, if_neg (by decide)]
    exact if_pos hdev
  · intro dev
    rw [h.funcs dev, Bool.false_and, if_neg (by decide), List.append_nil]
    exact testInt_not_mem _

/-- After the cleanup nothing is there, if it stays inside of the array. -/
theorem allOrNothing_cleaned {s : AlsaModule} {nCards err : Int} {added : Nat → Bool}
    (herr : err ≠ 0) (hused : ∀ u ∈ s.used, u.2 < sndrvCards)
    (hadded : ∀ dev, added dev = true → dev < min nCards.toNat sndrvCards)
    (hreg : Registered env sndrvCards behind others added s) :
    AllOrNothing env sndrvCards nCards (err, (List.range nCards.toNat).foldl sndTl880RemoveCard s) ↔
      nCards ≤ sndrvCards := by
  obtain ⟨-, hplaces, honly⟩ := removeCards_used (List.range nCards.toNat) s
  constructor
  · intro h
    by_contra hmore
    have hplace := hplaces sndrvCards (List.mem_range.mpr (by omega))
    exact absurd (h.inBounds _ hplace) (Nat.lt_irrefl sndrvCards)
  · intro hfits
    have hcleaned := removeCards_spec (List.range nCards.toNat) hreg fun dev hdev => by
      have hbelow := List.mem_range.mp hdev
      omega
    have hgone : (fun dev => added dev && decide (dev ∉ List.range nCards.toNat)) =
        fun _ => false := by
      funext dev
      by_cases hdev : added dev = true
      · have hbelow := hadded dev hdev
        simp only [hdev, List.mem_range, Bool.true_and, decide_eq_false_iff_not]
        omega
      · simp [hdev]
    rw [hgone] at hcleaned
    refine ⟨?_, ?_, fun hzero => absurd hzero herr⟩
    · intro u hu
      rcases honly u hu with hold | hmem
      · exact hused u hold
      · have hbelow := List.mem_range.mp hmem
        omega
    · intro _
      exact hcleaned.nothing

/-- Loading the module is all or nothing exactly when there are no more devices than places
in the arrays if a card fails, and no enabled card fails with `-ENOENT` if none fails
otherwise. -/
theorem sndTl880Init_iff (env : AlsaEnv) (sndrvCards : Nat) (nCards : Int)
    (behind : Nat → Option Nat) (others : Nat → List Nat) :
    AllOrNothing env sndrvCards nCards
        (sndTl880Init env sndrvCards nCards (AlsaModule.loaded sndrvCards behind others)) ↔
      ((∃ dev < min nCards.toNat sndrvCards, env.Fatal dev) → nCards ≤ sndrvCards) ∧
        ((∀ dev < min nCards.toNat sndrvCards, ¬ env.Fatal dev) →
          ∀ dev < min nCards.toNat sndrvCards, ¬ env.Mistaken dev) := by
  have hloaded : Registered env sndrvCards behind others (fun _ => false) _ := loaded_registered
  have hspec := addCards_spec (List.range (min nCards.toNat sndrvCards)) List.nodup_range hloaded
    fun _ _ => rfl
  have hused : ∀ u ∈ (addCards env (List.range (min nCards.toNat sndrvCards))
      (AlsaModule.loaded sndrvCards behind others)).2.used, u.2 < sndrvCards := by
    intro u hu
    rcases addCards_used env _ _ u hu with hold | hmem
    · cases hold
    · have hbelow := List.mem_range.mp hmem
      omega
  rw [sndTl880Init]
  dsimp only
  simp only [AddsCards, List.mem_range] at hspec
  rcases hspec with ⟨hzero, hnone, hreg⟩ | ⟨hne, ⟨dev, hdev, hfatal⟩, added, hadded, hreg⟩
  · have hbool : (fun dev => false || decide (dev < min nCards.toNat sndrvCards) &&
        env.succeeds dev) =
        fun dev => decide (dev < min nCards.toNat sndrvCards) && env.succeeds dev := by
      funext dev
      exact Bool.false_or _
    rw [hbool] at hreg
    rw [if_neg (not_not.mpr hzero), allOrNothing_done hused hnone hreg]
    constructor
    · intro hright
      refine ⟨?_, fun _ => hright⟩
      rintro ⟨dev, hdev, hfatal⟩
      exact absurd hfatal (hnone dev hdev)
    · rintro ⟨-, hright⟩
      exact hright hnone
  · have hbelow : ∀ dev, added dev = true → dev < min nCards.toNat sndrvCards := by
      intro dev hdev
      rcases hadded dev hdev with hfalse | hmem
      · cases hfalse
      · exact hmem
    rw [if_pos hne, allOrNothing_cleaned hne hused hbelow hreg]
    constructor
    · intro hfits
      refine ⟨fun _ => hfits, ?_⟩
      intro hnone
      exact absurd hfatal (hnone dev hdev)
    · rintro ⟨hfits, -⟩
      exact hfits ⟨dev, hdev, hfatal⟩

/-- Nine devices and eight places; no sound card can be created. -/
def noSoundCards : AlsaEnv := ⟨fun _ => true, fun _ => false, fun _ => 0, fun _ => 0, fun _ => true⟩

/-- With them the cleanup uses `cards[8]`. -/
theorem sndTl880Init_outOfBounds :
    ¬ ∀ (env : AlsaEnv) (sndrvCards : Nat) (nCards : Int) (behind : Nat → Option Nat)
      (others : Nat → List Nat), AllOrNothing env sndrvCards nCards
        (sndTl880Init env sndrvCards nCards (AlsaModule.loaded sndrvCards behind others)) := by
  intro h
  have hbounds := (h noSoundCards 8 9 (fun _ => none) (fun _ => [])).inBounds (.cards, 8) (by decide)
  exact absurd hbounds (by decide)

/-! ## Unloading the module -/

/-- `snd_tl880_exit`.  The bound of the array is in its loop. -/
def sndTl880Exit (sndrvCards : Nat) (nCards : Int) (s : AlsaModule) : AlsaModule :=
  (List.range (min nCards.toNat sndrvCards)).foldl sndTl880RemoveCard s

/-- Nothing of the module is left, and only elements of the arrays were used. -/
structure LeftAsFound (before after : AlsaModule) (sndrvCards : Nat) : Prop where
  cards : after.cards = before.cards
  funcs : after.apuThFuncs = before.apuThFuncs
  clean : Clean after.ops
  inBounds : ∀ u ∈ after.used, u.2 < sndrvCards

/-- Where no card is there, the module is as it was loaded. -/
theorem Registered.leftAsFound {s : AlsaModule}
    (h : Registered env sndrvCards behind others (fun _ => false) s)
    (hused : ∀ u ∈ s.used, u.2 < sndrvCards) :
    LeftAsFound (AlsaModule.loaded sndrvCards behind others) s sndrvCards := by
  refine ⟨?_, ?_, h.nothing.1, hused⟩
  · ext1 dev
    rw [h.cards dev, if_neg (by simp)]
  · ext1 dev
    rw [h.funcs dev, Bool.false_and, if_neg (by simp), List.append_nil]
    rfl

/-- A module that was loaded, with any of its cards skipped, and is unloaded again has freed each
of its sound cards once and leaves the callbacks of every device as they were. -/
theorem sndTl880_load_unload (env : AlsaEnv) (sndrvCards : Nat) (nCards : Int)
    (behind : Nat → Option Nat) (others : Nat → List Nat)
    (hloads : (sndTl880Init env sndrvCards nCards
      (AlsaModule.loaded sndrvCards behind others)).1 = 0) :
    LeftAsFound (AlsaModule.loaded sndrvCards behind others)
      (sndTl880Exit sndrvCards nCards (sndTl880Init env sndrvCards nCards
        (AlsaModule.loaded sndrvCards behind others)).2) sndrvCards := by
  have hloaded : Registered env sndrvCards behind others (fun _ => false) _ := loaded_registered
  have hspec := addCards_spec (List.range (min nCards.toNat sndrvCards)) List.nodup_range hloaded
    fun _ _ => rfl
  have hused := addCards_used env (List.range (min nCards.toNat sndrvCards))
    (AlsaModule.loaded sndrvCards behind others)
  rw [sndTl880Init] at hloads ⊢
  dsimp only at hloads ⊢
  rcases hspec with ⟨hzero, -, hreg⟩ | ⟨hne, -⟩
  · rw [if_neg (not_not.mpr hzero), sndTl880Exit]
    dsimp only
    obtain ⟨-, -, honly⟩ := removeCards_used (List.range (min nCards.toNat sndrvCards))
      (addCards env (List.range (min nCards.toNat sndrvCards))
        (AlsaModule.loaded sndrvCards behind others)).2
    have hgone := removeCards_spec (List.range (min nCards.toNat sndrvCards)) hreg fun dev hdev => by
      have hbelow := List.mem_range.mp hdev
      omega
    have hnone : (fun dev => (false || decide (dev ∈ List.range (min nCards.toNat sndrvCards)) &&
        env.succeeds dev) && decide (dev ∉ List.range (min nCards.toNat sndrvCards))) =
          fun _ => false := by
      ext1 dev
      by_cases hdev : dev ∈ List.range (min nCards.toNat sndrvCards) <;> simp [hdev]
    rw [hnone] at hgone
    refine hgone.leftAsFound fun u hu => ?_
    have hmem : u.2 ∈ List.range (min nCards.toNat sndrvCards) := by
      rcases honly u hu with hold | hmem
      · rcases hused u hold with hnil | hmem
        · cases hnil
        · exact hmem
      · exact hmem
    have hbelow := List.mem_range.mp hmem
    omega
  · rw [if_pos hne] at hloads
    exact absurd hloads hne

/-- Three devices, the second of which is not enabled. -/
theorem sndTl880_load_unload_three :
    let env : AlsaEnv := ⟨fun dev => dev ≠ 1, fun _ => true, fun _ => 0, fun _ => 0, fun _ => true⟩
    LeftAsFound (AlsaModule.loaded 8 (fun _ => none) fun _ => [])
      (sndTl880Exit 8 3 (sndTl880Init env 8 3
        (AlsaModule.loaded 8 (fun _ => none) fun _ => [])).2) 8 := by
  intro env
  exact sndTl880_load_unload env 8 3 (fun _ => none) (fun _ => []) rfl

end Tl880
