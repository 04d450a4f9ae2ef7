import Mathlib.Tactic.Common

/-!
# Fields of a state

A field reads a value out of a state and puts one back.  `StateField.Lawful` are the laws of a
lens, with two allowances: what is read back is the normal form of what was put, since a
narrow field drops the bits it has no room for, and states are compared through a view,
since an access may leave a trace that is not part of the contents.

A field of a field is a field, and it is lawful when both are: this is how the bits of a
word inherit the laws of the cell that holds the word.
-/

/-- A way to read a value out of a state and to put one back. -/
structure StateField (σ ν : Type*) where
  get : σ → ν
  put : σ → ν → σ

namespace StateField

variable {σ κ ν τ : Type*}

/-- The laws of a lens on the states that are `valid`, up to a view. -/
structure Lawful (f : StateField σ ν) (valid : σ → Prop) (view : σ → τ) (norm : ν → ν) : Prop where
  valid_put : ∀ s v, valid s → valid (f.put s v)
  get_put : ∀ s v, valid s → f.get (f.put s v) = norm v
  put_get : ∀ s, valid s → view (f.put s (f.get s)) = view s
  put_put : ∀ s v w, valid s → view (f.put (f.put s v) w) = view (f.put s w)

/-- The two orders of putting look the same. -/
def Commute (f g : StateField σ ν) (valid : σ → Prop) (view : σ → τ) : Prop :=
  ∀ s v w, valid s → view (g.put (f.put s v) w) = view (f.put (g.put s w) v)

/-- The field `g` of what the field `f` holds. -/
def comp (f : StateField σ κ) (g : StateField κ ν) : StateField σ ν where
  get s := g.get (f.get s)
  put s v := f.put s (g.put (f.get s) v)

variable {f : StateField σ κ} {g h : StateField κ ν} {valid : σ → Prop} {view : σ → τ}
  {norm : ν → ν}

/-- Putting twice through `comp` is putting once into the outer field. -/
theorem Lawful.comp_put_put (hf : f.Lawful valid view id) (s : σ) (v w : ν) (hs : valid s) :
    view ((f.comp h).put ((f.comp g).put s v) w) =
      view (f.put s (h.put (g.put (f.get s) v) w)) := by
  show view (f.put (f.put s (g.put (f.get s) v))
    (h.put (f.get (f.put s (g.put (f.get s) v))) w)) = _
  rw [hf.get_put s _ hs, hf.put_put s _ _ hs]
  rfl

/-- A lawful field of a lawful field is lawful. -/
theorem Lawful.comp (hf : f.Lawful valid view id)
    (hg : g.Lawful (fun _ => True) id norm) : (f.comp g).Lawful valid view norm where
  valid_put s v hs := hf.valid_put s _ hs
  get_put s v hs := by
    show g.get (f.get (f.put s (g.put (f.get s) v))) = norm v
    rw [hf.get_put s _ hs]
    exact hg.get_put _ v trivial
  put_get s hs := by
    show view (f.put s (g.put (f.get s) (g.get (f.get s)))) = view s
    have hsame : g.put (f.get s) (g.get (f.get s)) = f.get s := hg.put_get _ trivial
    rw [hsame, hf.put_get s hs]
  put_put s v w hs := by
    have hlast : g.put (g.put (f.get s) v) w = g.put (f.get s) w := hg.put_put _ v w trivial
    rw [hf.comp_put_put s v w hs, hlast]
    rfl

/-- Fields that commute in what the outer field holds commute in the state. -/
theorem Lawful.comp_commute (hf : f.Lawful valid view id)
    (hcomm : g.Commute h (fun _ => True) id) : (f.comp g).Commute (f.comp h) valid view := by
  intro s v w hs
  have hword : h.put (g.put (f.get s) v) w = g.put (h.put (f.get s) w) v :=
    hcomm (f.get s) v w trivial
  rw [hf.comp_put_put s v w hs, hword, hf.comp_put_put s w v hs]

end StateField
