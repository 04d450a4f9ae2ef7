import Mathlib.Algebra.Group.Nat.Defs
import Mathlib.Data.List.Chain
import Mathlib.Tactic.Common

/-!
# Tilings of an address range

A list of segments, each with a base and a length of `w` bits, tiles the range
of `total` addresses from `start` on when the segments are not empty, each one
begins where the one before it ends, and the lengths sum to `total`.  Addresses
wrap; lengths do not, as long as `total` is below `2 ^ w`.

The edits of an allocator are the two rules `merge` and `split`.
`Tiles.position` says where in the range an address inside of a segment lies,
and `Tiles.head_ne` that it is inside of no other segment.

Some segments may be taken.  Where no two others are next to each other, the taken ones say
what all of them are (`Tiles.views_eq`).
-/

namespace Tiling

variable {w : Nat} {α : Type*} (base len : α → BitVec w)

/-- The segments tile `total` addresses from `start` on. -/
def Tiles : BitVec w → Nat → List α → Prop
  | _, total, [] => total = 0
  | start, total, s :: rest =>
      base s = start ∧ 0 < (len s).toNat ∧ (len s).toNat ≤ total ∧
        Tiles (start + len s) (total - (len s).toNat) rest

variable {base len}

theorem tiles_cons {start : BitVec w} {total : Nat} {s : α} {rest : List α} :
    Tiles base len start total (s :: rest) ↔
      base s = start ∧ 0 < (len s).toNat ∧ (len s).toNat ≤ total ∧
        Tiles base len (start + len s) (total - (len s).toNat) rest :=
  Iff.rfl

/-- Merging two neighbours into one segment. -/
theorem Tiles.merge {start : BitVec w} {total : Nat} {s t m : α} {rest : List α}
    (h : Tiles base len start total (s :: t :: rest)) (htotal : total < 2 ^ w)
    (hbase : base m = base s) (hlen : len m = len s + len t) :
    Tiles base len start total (m :: rest) := by
  obtain ⟨hs, hspos, hsle, -, htpos, htle, hrest⟩ := h
  have hsum : (len m).toNat = (len s).toNat + (len t).toNat := by
    rw [hlen, BitVec.toNat_add]
    exact Nat.mod_eq_of_lt (by omega)
  rw [tiles_cons]
  constructor
  · rw [hbase, hs]
  constructor
  · omega
  constructor
  · omega
  · rw [hsum, hlen, ← BitVec.add_assoc, ← Nat.sub_sub]
    exact hrest

/-- Splitting a segment in two. -/
theorem Tiles.split {start : BitVec w} {total : Nat} {s t u : α} {rest : List α}
    (h : Tiles base len start total (s :: rest)) (htbase : base t = base s)
    (hpos : 0 < (len t).toNat) (hlt : (len t).toNat < (len s).toNat)
    (hubase : base u = base s + len t) (hulen : len u = len s - len t) :
    Tiles base len start total (t :: u :: rest) := by
  obtain ⟨hs, -, hle, hrest⟩ := h
  have hu : (len u).toNat = (len s).toNat - (len t).toNat := by
    rw [hulen]
    exact BitVec.toNat_sub_of_le (by rw [BitVec.le_def]; omega)
  have hends : start + len t + len u = start + len s := by
    rw [hulen, BitVec.add_assoc, BitVec.add_comm (len t), BitVec.sub_add_cancel]
  rw [tiles_cons, tiles_cons]
  constructor
  · rw [htbase, hs]
  constructor
  · exact hpos
  constructor
  · omega
  constructor
  · rw [hubase, hs]
  constructor
  · omega
  constructor
  · omega
  · have hleft : total - (len t).toNat - (len u).toNat = total - (len s).toNat := by omega
    rw [hleft, hends]
    exact hrest

/-- An address inside of a segment has a place in the range. -/
theorem Tiles.position {start : BitVec w} {total : Nat} {l : List α}
    (h : Tiles base len start total l) {s : α} (hs : s ∈ l) {offset : BitVec w}
    (hoffset : offset.toNat < (len s).toNat) :
    ∃ x, x < total ∧ base s + offset = start + BitVec.ofNat w x := by
  induction l generalizing start total with
  | nil => cases hs
  | cons t rest ih =>
      obtain ⟨ht, -, hle, hrest⟩ := h
      rcases List.mem_cons.mp hs with heq | hs
      · rw [heq] at hoffset ⊢
        refine ⟨offset.toNat, by omega, ?_⟩
        rw [ht, BitVec.ofNat_toNat, BitVec.setWidth_eq]
      · obtain ⟨x, hx, heq⟩ := ih hrest hs
        refine ⟨(len t).toNat + x, by omega, ?_⟩
        rw [heq, BitVec.add_assoc, BitVec.ofNat_add, BitVec.ofNat_toNat, BitVec.setWidth_eq]

/-- An address inside of the first segment is inside of no other one. -/
theorem Tiles.head_ne {start : BitVec w} {total : Nat} {s t : α} {rest : List α}
    (h : Tiles base len start total (s :: rest)) (htotal : total < 2 ^ w) (ht : t ∈ rest)
    {x y : BitVec w} (hx : x.toNat < (len s).toNat) (hy : y.toNat < (len t).toNat) :
    base s + x ≠ base t + y := by
  intro heq
  obtain ⟨hs, -, hle, hrest⟩ := h
  obtain ⟨z, hz, hplace⟩ := hrest.position ht hy
  rw [hplace, hs, BitVec.add_assoc] at heq
  have hval := congrArg BitVec.toNat ((BitVec.add_right_inj start).mp heq)
  rw [BitVec.toNat_add, BitVec.toNat_ofNat, Nat.add_mod_mod, Nat.mod_eq_of_lt (by omega)] at hval
  omega

/-- In a range that does not wrap every segment lies between the two ends. -/
theorem Tiles.bounds {start : BitVec w} {total : Nat} {l : List α}
    (h : Tiles base len start total l) (hrange : start.toNat + total ≤ 2 ^ w) {s : α}
    (hs : s ∈ l) :
    start.toNat ≤ (base s).toNat ∧
      (base s).toNat + (len s).toNat ≤ start.toNat + total := by
  induction l generalizing start total with
  | nil => cases hs
  | cons t rest ih =>
      obtain ⟨ht, hpos, hle, hrest⟩ := h
      rcases List.mem_cons.mp hs with heq | hs
      · rw [heq, ht]
        omega
      · -- something follows, so the first segment ends inside of the range
        have hmore : 0 < total - (len t).toNat := by
          cases rest with
          | nil => cases hs
          | cons u rest =>
              obtain ⟨-, hupos, hule, -⟩ := hrest
              omega
        have hnext : (start + len t).toNat = start.toNat + (len t).toNat := by
          rw [BitVec.toNat_add]
          exact Nat.mod_eq_of_lt (by omega)
        have hbounds := ih hrest (by omega) hs
        omega

/-- A segment of a tiling is not empty. -/
theorem Tiles.pos {start : BitVec w} {total : Nat} {l : List α}
    (h : Tiles base len start total l) {s : α} (hs : s ∈ l) : 0 < (len s).toNat := by
  induction l generalizing start total with
  | nil => cases hs
  | cons t rest ih =>
      obtain ⟨-, hpos, -, hrest⟩ := h
      rcases List.mem_cons.mp hs with rfl | hs
      · exact hpos
      · exact ih hrest hs

/-- The segments come in the order of their addresses. -/
theorem Tiles.sorted {start : BitVec w} {total : Nat} {l : List α}
    (h : Tiles base len start total l) (hrange : start.toNat + total ≤ 2 ^ w) :
    l.Pairwise fun s t => (base s).toNat < (base t).toNat := by
  induction l generalizing start total with
  | nil => exact List.Pairwise.nil
  | cons s rest ih =>
      obtain ⟨hs, hpos, hle, hrest⟩ := h
      cases rest with
      | nil => exact List.pairwise_singleton _ _
      | cons t rest =>
          have hmore : 0 < total - (len s).toNat := by
            obtain ⟨-, htpos, htle, -⟩ := hrest
            omega
          have hnext : (start + len s).toNat = start.toNat + (len s).toNat := by
            rw [BitVec.toNat_add]
            exact Nat.mod_eq_of_lt (by omega)
          refine List.pairwise_cons.mpr ⟨?_, ih hrest (by omega)⟩
          intro u hu
          have hbounds := hrest.bounds (by omega) hu
          rw [hs]
          omega

section Taken

variable {γ : Type*} {taken : α → Bool} {view : α → γ}

/-- The first segment is not one of those behind it. -/
theorem Tiles.head_view_ne {start : BitVec w} {total : Nat} {s t : α} {rest : List α}
    (h : Tiles base len start total (s :: rest)) (htotal : total < 2 ^ w)
    (hkey : ∀ s t, view s = view t → base s = base t ∧ len s = len t) (ht : base t = start) :
    view t ∉ (rest.filter taken).map view := by
  intro hmem
  obtain ⟨u, hu, hview⟩ := List.mem_map.mp hmem
  have hrest := (List.mem_filter.mp hu).1
  have hpos := h.pos List.mem_cons_self
  have hupos := h.pos (List.mem_cons_of_mem s hrest)
  have hne := h.head_ne htotal hrest (x := 0#w) (y := 0#w) (by simpa using hpos)
    (by simpa using hupos)
  apply hne
  rw [h.1, (hkey u t hview).1, ht]

/-- A segment that is not taken reaches up to the next taken one, or to the end. -/
theorem idle_len_eq {start : BitVec w} {total : Nat} {s t : α} {rest rest' : List α}
    (h : Tiles base len start total (s :: rest)) (h' : Tiles base len start total (t :: rest'))
    (hapart : (s :: rest).IsChain fun s t => ¬ (taken s = false ∧ taken t = false))
    (hapart' : (t :: rest').IsChain fun s t => ¬ (taken s = false ∧ taken t = false))
    (hkey : ∀ s t, view s = view t → base s = base t ∧ len s = len t)
    (hs : taken s = false) (ht : taken t = false)
    (hviews : (rest.filter taken).map view = (rest'.filter taken).map view) : len s = len t := by
  obtain ⟨hsbase, hspos, hsle, hrest⟩ := h
  obtain ⟨htbase, htpos, htle, hrest'⟩ := h'
  cases rest with
  | nil =>
      cases rest' with
      | nil =>
          have hsend : total - (len s).toNat = 0 := hrest
          have htend : total - (len t).toNat = 0 := hrest'
          apply BitVec.eq_of_toNat_eq
          omega
      | cons v rest' =>
          have hv : taken v = true := by
            have hne := (List.isChain_cons_cons.mp hapart').1
            simpa [ht] using hne
          rw [List.filter_cons_of_pos hv] at hviews
          cases hviews
  | cons u rest =>
      have hu : taken u = true := by
        have hne := (List.isChain_cons_cons.mp hapart).1
        simpa [hs] using hne
      rw [List.filter_cons_of_pos hu] at hviews
      cases rest' with
      | nil => cases hviews
      | cons v rest' =>
          have hv : taken v = true := by
            have hne := (List.isChain_cons_cons.mp hapart').1
            simpa [ht] using hne
          rw [List.filter_cons_of_pos hv, List.map_cons, List.map_cons, List.cons.injEq] at hviews
          have hsame := (hkey u v hviews.1).1
          rw [hrest.1, hrest'.1] at hsame
          exact (BitVec.add_right_inj start).mp hsame

/-- Two tilings of a range with the same taken segments are the same, if neither has two other
segments next to each other. -/
theorem Tiles.views_eq (taken : α → Bool) {start : BitVec w} {total : Nat} {l l' : List α}
    (h : Tiles base len start total l) (h' : Tiles base len start total l')
    (htotal : total < 2 ^ w)
    (hapart : l.IsChain fun s t => ¬ (taken s = false ∧ taken t = false))
    (hapart' : l'.IsChain fun s t => ¬ (taken s = false ∧ taken t = false))
    (hkey : ∀ s t, view s = view t → base s = base t ∧ len s = len t)
    (hidle : ∀ s ∈ l, ∀ t ∈ l', taken s = false → taken t = false → base s = base t →
      len s = len t → view s = view t)
    (hviews : (l.filter taken).map view = (l'.filter taken).map view) :
    l.map view = l'.map view := by
  induction l generalizing start total l' with
  | nil =>
      cases l' with
      | nil => rfl
      | cons t rest' =>
          obtain ⟨-, hpos, hle, -⟩ := h'
          have hzero : total = 0 := h
          omega
  | cons s rest ih =>
      cases l' with
      | nil =>
          obtain ⟨-, hpos, hle, -⟩ := h
          have hzero : total = 0 := h'
          omega
      | cons t rest' =>
          obtain ⟨hs, hspos, hsle, hrest⟩ := h
          obtain ⟨ht, htpos, htle, hrest'⟩ := h'
          -- once the heads agree, so do the tails
          have hgo (hhead : view s = view t)
              (htails : (rest.filter taken).map view = (rest'.filter taken).map view) :
              (s :: rest).map view = (t :: rest').map view := by
            have hlen := (hkey s t hhead).2
            rw [← hlen] at hrest'
            rw [List.map_cons, List.map_cons, hhead]
            congr 1
            exact ih hrest hrest' (by omega) hapart.tail hapart'.tail
              (fun u hu v hv => hidle u (List.mem_cons_of_mem s hu) v (List.mem_cons_of_mem t hv))
              htails
          cases hstaken : taken s with
          | true =>
              rw [List.filter_cons_of_pos hstaken, List.map_cons] at hviews
              cases httaken : taken t with
              | true =>
                  rw [List.filter_cons_of_pos httaken, List.map_cons, List.cons.injEq] at hviews
                  exact hgo hviews.1 hviews.2
              | false =>
                  rw [List.filter_cons_of_neg (by simp [httaken])] at hviews
                  have hnot : view s ∉ (rest'.filter taken).map view := Tiles.head_view_ne
                    (tiles_cons.mpr ⟨ht, htpos, htle, hrest'⟩) htotal hkey hs
                  exact absurd (hviews ▸ List.mem_cons_self) hnot
          | false =>
              rw [List.filter_cons_of_neg (by simp [hstaken])] at hviews
              cases httaken : taken t with
              | true =>
                  rw [List.filter_cons_of_pos httaken, List.map_cons] at hviews
                  have hnot : view t ∉ (rest.filter taken).map view := Tiles.head_view_ne
                    (tiles_cons.mpr ⟨hs, hspos, hsle, hrest⟩) htotal hkey ht
                  exact absurd (hviews ▸ List.mem_cons_self) hnot
              | false =>
                  rw [List.filter_cons_of_neg (by simp [httaken])] at hviews
                  refine hgo (hidle s List.mem_cons_self t List.mem_cons_self hstaken httaken
                    (hs.trans ht.symm) ?_) hviews
                  exact idle_len_eq ⟨hs, hspos, hsle, hrest⟩ ⟨ht, htpos, htle, hrest'⟩ hapart
                    hapart' hkey hstaken httaken hviews

end Taken

end Tiling
