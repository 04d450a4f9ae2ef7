import Mathlib.Logic.Basic

/-!
# Runs of a partial labelled step function

A system is given by a partial step function: `step s l = none` means that
label `l` is not enabled in state `s`.  A run is a list of labels.  Three views
of one run are used:

* `run` — the state it ends in, if every label was enabled;
* `AllStates` — every state it visits is good;
* `AllSteps` — every enabled step is taken in a state that allows it.

`run_invariant` turns a one-step lemma into a statement about whole runs, and
`allStates_iff_allSteps` characterises the runs that stay good: when an allowed
step keeps the invariant, and a step that is not allowed leaves the good states
at once, a run stays good exactly when all its steps are allowed.
-/

namespace LabelledRun

variable {σ ι : Type*} (step : σ → ι → Option σ)

/-- The state reached by taking the labels in order. -/
def run : σ → List ι → Option σ
  | s, [] => some s
  | s, l :: ls => (step s l).bind fun s' => run s' ls

@[simp] theorem run_nil (s : σ) : run step s [] = some s := rfl

theorem run_cons (s : σ) (l : ι) (ls : List ι) :
    run step s (l :: ls) = (step s l).bind fun s' => run step s' ls := rfl

/-- A nonempty run exposes its first step. -/
theorem run_cons_eq_some_iff {s t : σ} {l : ι} {ls : List ι} :
    run step s (l :: ls) = some t ↔
      ∃ s', step s l = some s' ∧ run step s' ls = some t := by
  rw [run_cons]
  exact Option.bind_eq_some_iff

/-- Runs compose. -/
theorem run_append (s : σ) (ls ls' : List ι) :
    run step s (ls ++ ls') =
      (run step s ls).bind fun s' => run step s' ls' := by
  induction ls generalizing s with
  | nil => rfl
  | cons l ls ih =>
      rw [List.cons_append, run_cons, run_cons]
      cases step s l with
      | none => rfl
      | some s' => exact ih s'

/-- Every enabled step of the run is taken in a state that satisfies `ok`. -/
def AllSteps (ok : σ → ι → Prop) : σ → List ι → Prop
  | _, [] => True
  | s, l :: ls => ∀ s', step s l = some s' → ok s l ∧ AllSteps ok s' ls

/-- Every state the run visits, the first included, is good. -/
def AllStates (good : σ → Prop) : σ → List ι → Prop
  | s, [] => good s
  | s, l :: ls => good s ∧ ∀ s', step s l = some s' → AllStates good s' ls

instance AllSteps.decidable (ok : σ → ι → Prop) [∀ s l, Decidable (ok s l)] :
    ∀ s ls, Decidable (AllSteps step ok s ls)
  | _, [] => isTrue trivial
  | s, l :: ls =>
      match h : step s l with
      | none => isTrue fun s' hs' => by rw [h] at hs'; contradiction
      | some t =>
          have := AllSteps.decidable ok t ls
          decidable_of_iff (ok s l ∧ AllSteps step ok t ls) <| by
            constructor
            · intro hok s' hs'
              rw [h] at hs'
              cases hs'
              exact hok
            · intro hok
              exact hok t h

instance AllStates.decidable (good : σ → Prop) [∀ s, Decidable (good s)] :
    ∀ s ls, Decidable (AllStates step good s ls)
  | s, [] => inferInstanceAs (Decidable (good s))
  | s, l :: ls =>
      match h : step s l with
      | none =>
          decidable_of_iff (good s) <| by
            constructor
            · intro hs
              exact ⟨hs, fun s' hs' => by rw [h] at hs'; contradiction⟩
            · exact And.left
      | some t =>
          have := AllStates.decidable good t ls
          decidable_of_iff (good s ∧ AllStates step good t ls) <| by
            constructor
            · intro hstates
              obtain ⟨hs, ht⟩ := hstates
              constructor
              · exact hs
              intro s' hs'
              rw [h] at hs'
              cases hs'
              exact ht
            · intro hstates
              obtain ⟨hs, hrest⟩ := hstates
              exact ⟨hs, hrest t h⟩

variable {step}

/-- The first state of a run is one of its states. -/
theorem AllStates.head {good : σ → Prop} {s : σ} {ls : List ι}
    (h : AllStates step good s ls) : good s := by
  cases ls with
  | nil => exact h
  | cons l ls => exact h.1

/-- The last state of a run is one of its states. -/
theorem AllStates.last {good : σ → Prop} {s t : σ} {ls : List ι}
    (h : AllStates step good s ls) (hrun : run step s ls = some t) : good t := by
  induction ls generalizing s with
  | nil =>
      cases hrun
      exact h
  | cons l ls ih =>
      obtain ⟨s', hstep, hrest⟩ := (run_cons_eq_some_iff step).mp hrun
      exact ih (h.2 s' hstep) hrest

/-- Goodness may be weakened along a run. -/
theorem AllStates.imp {good good' : σ → Prop} (himp : ∀ s, good s → good' s)
    {s : σ} {ls : List ι} (h : AllStates step good s ls) :
    AllStates step good' s ls := by
  induction ls generalizing s with
  | nil => exact himp s h
  | cons l ls ih => exact ⟨himp s h.1, fun s' hstep => ih (h.2 s' hstep)⟩

/-- Labels that are allowed in every state make an allowed run. -/
theorem AllSteps.of_forall {ok : σ → ι → Prop} {ls : List ι} (h : ∀ l ∈ ls, ∀ s, ok s l)
    (s : σ) : AllSteps step ok s ls := by
  induction ls generalizing s with
  | nil => trivial
  | cons l ls ih =>
      intro s' _
      exact ⟨h l List.mem_cons_self s, ih (fun l' hl' => h l' (List.mem_cons_of_mem l hl')) s'⟩

section Invariant

variable {inv : σ → Prop} {ok : σ → ι → Prop}
  (hpres : ∀ s l s', inv s → ok s l → step s l = some s' → inv s')
include hpres

/-- An invariant of the allowed steps holds where a run of allowed steps ends. -/
theorem run_invariant {s t : σ} {ls : List ι} (hinv : inv s)
    (hok : AllSteps step ok s ls) (hrun : run step s ls = some t) : inv t := by
  induction ls generalizing s with
  | nil =>
      cases hrun
      exact hinv
  | cons l ls ih =>
      obtain ⟨s', hstep, hrest⟩ := (run_cons_eq_some_iff step).mp hrun
      obtain ⟨hl, hls⟩ := hok s' hstep
      exact ih (hpres s l s' hinv hl hstep) hls hrest

/-- An invariant of the allowed steps holds in every state of a run of allowed
steps. -/
theorem allStates_of_allSteps {s : σ} {ls : List ι} (hinv : inv s)
    (hok : AllSteps step ok s ls) : AllStates step inv s ls := by
  induction ls generalizing s with
  | nil => exact hinv
  | cons l ls ih =>
      constructor
      · exact hinv
      intro s' hstep
      obtain ⟨hl, hls⟩ := hok s' hstep
      exact ih (hpres s l s' hinv hl hstep) hls

/-- The runs that stay good are those that take allowed steps only, provided a
step that is not allowed leaves the good states. -/
theorem allStates_iff_allSteps {good : σ → Prop}
    (hgood : ∀ s, inv s → good s)
    (hexact : ∀ s l s', inv s → step s l = some s' → good s' → ok s l)
    {s : σ} (hinv : inv s) (ls : List ι) :
    AllStates step good s ls ↔ AllSteps step ok s ls := by
  constructor
  · intro h
    induction ls generalizing s with
    | nil => trivial
    | cons l ls ih =>
        intro s' hstep
        have hrest := h.2 s' hstep
        have hl : ok s l := hexact s l s' hinv hstep hrest.head
        exact ⟨hl, ih (hpres s l s' hinv hl hstep) hrest⟩
  · intro h
    exact (allStates_of_allSteps hpres hinv h).imp hgood

end Invariant

/-- Without a condition on the steps: a property every step keeps holds where
any run ends. -/
theorem run_preserves {inv : σ → Prop}
    (hpres : ∀ s l s', inv s → step s l = some s' → inv s') {s t : σ}
    {ls : List ι} (hinv : inv s) (hrun : run step s ls = some t) : inv t := by
  have hok : AllSteps step (fun _ _ => True) s ls := .of_forall (fun _ _ _ => trivial) s
  exact run_invariant (fun s l s' hs _ => hpres s l s' hs) hinv hok hrun

/-- A run either takes allowed steps only and ends with the invariant, or it takes one that
is not allowed and ends in what such a step leads to, when no step leads out of that. -/
theorem run_held_or_lost {inv lost : σ → Prop} {ok : σ → ι → Prop}
    (hpres : ∀ s l s', inv s → ok s l → step s l = some s' → inv s')
    (hbreak : ∀ s l s', inv s → ¬ ok s l → step s l = some s' → lost s')
    (hlost : ∀ s l s', lost s → step s l = some s' → lost s') {s t : σ} {ls : List ι}
    (hinv : inv s) (hrun : run step s ls = some t) :
    (AllSteps step ok s ls ∧ inv t) ∨ (¬ AllSteps step ok s ls ∧ lost t) := by
  induction ls generalizing s with
  | nil =>
      cases hrun
      exact Or.inl ⟨trivial, hinv⟩
  | cons l ls ih =>
      obtain ⟨s', hstep, hrest⟩ := (run_cons_eq_some_iff step).mp hrun
      by_cases hok : ok s l
      · rcases ih (hpres s l s' hinv hok hstep) hrest with ⟨hall, ht⟩ | ⟨hbad, ht⟩
        · left
          refine ⟨fun s'' hs'' => ?_, ht⟩
          rw [hstep] at hs''
          cases hs''
          exact ⟨hok, hall⟩
        · right
          exact ⟨fun hall => hbad (hall s' hstep).2, ht⟩
      · right
        refine ⟨fun hall => hok (hall s' hstep).1, ?_⟩
        exact run_preserves hlost (hbreak s l s' hinv hok hstep) hrest

/-- Without a condition on the steps: a property every step keeps holds in every
state of a run. -/
theorem allStates_of_preserves {inv : σ → Prop}
    (hpres : ∀ s l s', inv s → step s l = some s' → inv s') {s : σ} (hinv : inv s)
    (ls : List ι) : AllStates step inv s ls := by
  have hok : AllSteps step (fun _ _ => True) s ls := .of_forall (fun _ _ _ => trivial) s
  exact allStates_of_allSteps (fun s l s' hs _ => hpres s l s' hs) hinv hok

/-- What every state with the property allows is all a run does. -/
theorem allSteps_of_preserves {inv : σ → Prop} {ok : σ → ι → Prop}
    (hpres : ∀ s l s', inv s → step s l = some s' → inv s')
    (hallow : ∀ s l, inv s → ok s l) {s : σ} (hinv : inv s) (ls : List ι) :
    AllSteps step ok s ls := by
  induction ls generalizing s with
  | nil => trivial
  | cons l ls ih =>
      intro s' hstep
      exact ⟨hallow s l hinv, ih (hpres s l s' hinv hstep)⟩

/-- Two conditions that agree where the property holds allow the same runs, if the steps
they allow keep the property. -/
theorem allSteps_congr {inv : σ → Prop} {ok ok' : σ → ι → Prop}
    (hpres : ∀ s l s', inv s → ok s l → step s l = some s' → inv s')
    (hiff : ∀ s l, inv s → (ok s l ↔ ok' s l)) {s : σ} (hinv : inv s) (ls : List ι) :
    AllSteps step ok s ls ↔ AllSteps step ok' s ls := by
  induction ls generalizing s with
  | nil => exact Iff.rfl
  | cons l ls ih =>
      constructor
      · intro h s' hstep
        obtain ⟨hl, hls⟩ := h s' hstep
        exact ⟨(hiff s l hinv).mp hl, (ih (hpres s l s' hinv hl hstep)).mp hls⟩
      · intro h s' hstep
        obtain ⟨hl', hls⟩ := h s' hstep
        have hl : ok s l := (hiff s l hinv).mpr hl'
        exact ⟨hl, (ih (hpres s l s' hinv hl hstep)).mpr hls⟩

/-- Two conditions on the steps are one. -/
theorem AllSteps.and {ok ok' : σ → ι → Prop} {s : σ} {ls : List ι} (h : AllSteps step ok s ls)
    (h' : AllSteps step ok' s ls) : AllSteps step (fun s l => ok s l ∧ ok' s l) s ls := by
  induction ls generalizing s with
  | nil => trivial
  | cons l ls ih =>
      intro s' hstep
      obtain ⟨hl, hls⟩ := h s' hstep
      obtain ⟨hl', hls'⟩ := h' s' hstep
      exact ⟨⟨hl, hl'⟩, ih hls hls'⟩

/-- A system with ghost state takes, without it, the steps of the plain system. -/
theorem allSteps_of_view {τ : Type*} {step' : τ → ι → Option τ} (view : τ → σ)
    (hview : ∀ t l, step (view t) l = (step' t l).map view) {ok : σ → ι → Prop} {t : τ}
    {ls : List ι} (h : AllSteps step ok (view t) ls) :
    AllSteps step' (fun t l => ok (view t) l) t ls := by
  induction ls generalizing t with
  | nil => trivial
  | cons l ls ih =>
      intro t' hstep
      have hplain : step (view t) l = some (view t') := by
        rw [hview, hstep]
        rfl
      obtain ⟨hl, hls⟩ := h (view t') hplain
      exact ⟨hl, ih hls⟩

/-- A system with ghost state visits, without it, the states of the plain system. -/
theorem allStates_of_view {τ : Type*} {step' : τ → ι → Option τ} (view : τ → σ)
    (hview : ∀ t l, step (view t) l = (step' t l).map view) {good : σ → Prop} {t : τ}
    {ls : List ι} (h : AllStates step' (fun t => good (view t)) t ls) :
    AllStates step good (view t) ls := by
  induction ls generalizing t with
  | nil => exact h
  | cons l ls ih =>
      refine ⟨h.1, ?_⟩
      intro s' hstep
      rw [hview] at hstep
      obtain ⟨t', hstep', rfl⟩ := Option.map_eq_some_iff.mp hstep
      exact ih (h.2 t' hstep')

/-- A second system that sees some of the labels.  If it keeps up with each step of a
run, it has a run of its own over the labels it sees. -/
theorem run_filterMap {τ κ : Type*} {step' : τ → κ → Option τ} {ok : σ → ι → Prop}
    (see : ι → Option κ) {rel : σ → τ → Prop}
    (hunseen : ∀ s t l s', rel s t → ok s l → step s l = some s' → see l = none → rel s' t)
    (hseen : ∀ s t l s' k, rel s t → ok s l → step s l = some s' → see l = some k →
      ∃ t', step' t k = some t' ∧ rel s' t')
    {s s' : σ} {t : τ} {ls : List ι} (hrel : rel s t) (hok : AllSteps step ok s ls)
    (hrun : run step s ls = some s') :
    ∃ t', run step' t (ls.filterMap see) = some t' ∧ rel s' t' := by
  induction ls generalizing s t with
  | nil =>
      cases hrun
      exact ⟨t, rfl, hrel⟩
  | cons l ls ih =>
      obtain ⟨u, hstep, hrest⟩ := (run_cons_eq_some_iff step).mp hrun
      obtain ⟨hl, hls⟩ := hok u hstep
      cases hsee : see l with
      | none =>
          rw [List.filterMap_cons_none hsee]
          exact ih (hunseen s t l u hrel hl hstep hsee) hls hrest
      | some k =>
          obtain ⟨v, hstep', hrel'⟩ := hseen s t l u k hrel hl hstep hsee
          obtain ⟨t', hrun', hend⟩ := ih hrel' hls hrest
          rw [List.filterMap_cons_some hsee]
          exact ⟨t', (run_cons_eq_some_iff step').mpr ⟨v, hstep', hrun'⟩, hend⟩

end LabelledRun
