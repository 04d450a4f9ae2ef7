import Tl880.Lib.ForLoop
import Tl880.Registers

/-!
# The tools that fill and dump the memory

`tools/memset.c`, `tools/striperam.c` and `tools/rampram.c` fill a range of the card's mapped
memory, and `tools/memdump.c` writes one to a file.  All of them round the address and the
length, and clip the length to the 16 MB with the same test, in 32 bits.

The offset of an access is counted from the start of the mapping.  Where a counter is an `int`,
the offset may be negative.
-/

namespace Tl880

open ForLoop

/-! ## The tools -/

/-- An access to the mapped memory: its first byte, and how many there are. -/
inductive Access
  | store (offset : Int) (size : Nat) (value : U32)
  | load (offset : Int) (size : Nat)

/-- `memspace[i] = value` -/
def memspace (i value : U32) : Access := .store i.toNat 1 value

/-- `smspace[index] = value` -/
def smspace (index value : U32) : Access := .store (2 * index.toNat) 2 value

/-- `lmspace[index] = value` -/
def lmspace (index : Int) (value : U32) : Access := .store (4 * index) 4 value

/-- An argument, rounded to a multiple of four. -/
def roundArg (arg : U32) : U32 := arg &&& 0xfffffffc

/-- The address a tool takes. -/
def mapAddr (arg : U32) : U32 := if roundArg arg ≥ 0x01000000 then 0 else roundArg arg

/-- The length a tool that fills takes. -/
def clipLen (addr len : U32) : U32 := if addr + len ≥ 0x01000000 then 0x01000000 - addr else len

/-- The number of bytes of a value, from 1 to 4. -/
def clipValsize (valsize : U32) : U32 :=
  if valsize < 1 then 1 else if valsize > 4 then 4 else valsize

/-- The width of a stripe and the length of a ramp. -/
def clipWidth (width : U32) : U32 := if roundArg width > 8 then roundArg width else 8

/-- The body of the loop of `memset` for each case of its `switch`. -/
def memsetRound (value valsize i : U32) : List Access :=
  if valsize = 1 then [memspace i (value &&& 0xff)]
  else if valsize = 2 then [smspace (i / 2) (value &&& 0xffff)]
  else if valsize = 3 then
    [memspace i ((value >>> 16) &&& 0xff), memspace (i + 1) ((value >>> 8) &&& 0xff),
      memspace (i + 2) (value &&& 0xff)]
  else if valsize = 4 then [lmspace (i / 4).toNat value]
  -- "Broken valsize", which no valsize is
  else []

/-- `memset` -/
def memset (value addr len nbytes : U32) (fuel : Nat) : Option (List Access) :=
  let valsize := clipValsize nbytes
  let addr := mapAddr addr
  let len := clipLen addr (roundArg len)
  forLoop (fun i => i < addr + len) valsize (fun i => some (memsetRound value valsize i)) fuel addr

/-- The loop of `striperam` over the words of a stripe.  `i` and `j` are signed, but compared as
unsigned numbers. -/
def stripeLoop (fuel : Nat) (i start stop value : U32) : Option (List Access) :=
  forLoop (fun j => j < stop) 4 (fun j => some [lmspace ((i + j).sdiv 4).toInt value]) fuel start

/-- The body of the loop of `striperam` -/
def stripe (fuel : Nat) (i width : U32) : Option (List Access) := do
  let high ← stripeLoop fuel i 0 (width / 2) 0xffffffff
  let low ← stripeLoop fuel i (width / 2) width 0x00000000
  some (high ++ low)

/-- `striperam` -/
def striperam (addr len width : U32) (fuel : Nat) : Option (List Access) :=
  let width := clipWidth width
  let addr := mapAddr addr
  let len := clipLen addr (roundArg len)
  forLoop (fun i => i < addr + len) width (fun i => stripe fuel i width) fuel addr

/-- The value of a word of a ramp. -/
def rampValue (j ramplen : U32) : U32 :=
  let k := j * 0x100 / ramplen
  k ||| (k <<< 8) ||| (k <<< 16) ||| (k <<< 24)

/-- The loop of `rampram` over the words of a ramp. -/
def rampLoop (fuel : Nat) (i ramplen stop : U32) : Option (List Access) :=
  forLoop (fun j => j < ramplen ∧ i + j < stop) 4
    (fun j => some [lmspace ((i + j) / 4).toNat (rampValue j ramplen)]) fuel 0

/-- `rampram` -/
def rampram (addr len ramplen : U32) (fuel : Nat) : Option (List Access) :=
  let ramplen := clipWidth ramplen
  let addr := mapAddr addr
  let len := clipLen addr (roundArg len)
  forLoop (fun i => i < addr + len) ramplen (fun i => rampLoop fuel i ramplen (addr + len)) fuel
    addr

/-- `memdump`, whose `write` reads the mapping -/
def memdump (addr len : U32) : List Access :=
  let addr := mapAddr addr
  let len := roundArg len
  let len := if addr + len > 0x01000000 then 0x01000000 - addr else len
  [.load addr.toNat len.toNat]

/-! ## The range of a tool -/

/-- The first byte of the range. -/
def rangeStart (addr : U32) : Nat := (mapAddr addr).toNat

/-- The end of the range. -/
def rangeEnd (addr len : U32) : Nat :=
  min ((mapAddr addr).toNat + (roundArg len).toNat) 0x01000000

/-- An access touches a byte. -/
def Access.Touches : Access → Int → Prop
  | .store offset size _, place => offset ≤ place ∧ place < offset + size
  | .load offset size, place => offset ≤ place ∧ place < offset + size

/-- An access writes a byte. -/
def Access.Stores : Access → Int → Prop
  | .store offset size _, place => offset ≤ place ∧ place < offset + size
  | .load _ _, _ => False

/-- A tool ends, touches nothing outside of the range, and writes all of it. -/
def FillsRange (addr len : U32) (tool : Nat → Option (List Access)) : Prop :=
  ∃ fuel accesses, tool fuel = some accesses ∧
    Covers Access.Touches Access.Stores accesses (rangeStart addr) (rangeEnd addr len)

/-- Accesses touch nothing outside of the range. -/
def InsideRange (addr len : U32) (accesses : List Access) : Prop :=
  ∀ access ∈ accesses, ∀ place, access.Touches place →
    (rangeStart addr : Int) ≤ place ∧ place < rangeEnd addr len

/-- The end of the range as it was given is a 32-bit number. -/
def RangeFits (addr len : U32) : Prop := (mapAddr addr).toNat + (roundArg len).toNat < 2 ^ 32

/-! ## Arguments -/

theorem roundArg_dvd (arg : U32) : 4 ∣ (roundArg arg).toNat := by
  apply Nat.dvd_of_mod_eq_zero
  show (roundArg arg).toNat % 2 ^ 2 = 0
  rw [roundArg, BitVec.toNat_and, Nat.and_mod_two_pow]
  exact Nat.and_zero _

theorem mapAddr_dvd (addr : U32) : 4 ∣ rangeStart addr := by
  unfold rangeStart mapAddr
  split_ifs
  · exact Nat.dvd_zero 4
  · exact roundArg_dvd addr

theorem mapAddr_lt (addr : U32) : rangeStart addr < 0x01000000 := by
  unfold rangeStart mapAddr
  split_ifs with h
  · decide
  · rw [ge_iff_le, BitVec.le_def] at h
    simp at h
    exact h

theorem clipValsize_toNat (valsize : U32) :
    1 ≤ (clipValsize valsize).toNat ∧ (clipValsize valsize).toNat ≤ 4 := by
  unfold clipValsize
  split_ifs with hlow hhigh
  · decide
  · decide
  · rw [BitVec.lt_def] at hlow
    rw [gt_iff_lt, BitVec.lt_def] at hhigh
    simp at hlow hhigh
    omega

theorem clipWidth_toNat (width : U32) :
    8 ≤ (clipWidth width).toNat ∧ 4 ∣ (clipWidth width).toNat := by
  unfold clipWidth
  split_ifs with h
  · rw [gt_iff_lt, BitVec.lt_def] at h
    simp at h
    exact ⟨by omega, roundArg_dvd width⟩
  · decide

theorem rangeEnd_dvd (addr len : U32) : 4 ∣ rangeEnd addr len := by
  have haddr := mapAddr_dvd addr
  have hlen := roundArg_dvd len
  unfold rangeEnd
  unfold rangeStart at haddr
  omega

theorem rangeStart_le_rangeEnd (addr len : U32) : rangeStart addr ≤ rangeEnd addr len := by
  have haddr := mapAddr_lt addr
  unfold rangeEnd
  unfold rangeStart at haddr ⊢
  omega

theorem rangeEnd_le (addr len : U32) : rangeEnd addr len ≤ 0x01000000 := Nat.min_le_right _ _

/-- The bound of the loops, `addr + len`. -/
def loopStop (addr len : U32) : U32 := mapAddr addr + clipLen (mapAddr addr) (roundArg len)

/-- Where the range fits, the loops stop at its end. -/
theorem loopStop_of_fits {addr len : U32} (hfits : RangeFits addr len) :
    (loopStop addr len).toNat = rangeEnd addr len := by
  have haddr := mapAddr_lt addr
  unfold rangeStart at haddr
  unfold RangeFits at hfits
  have hsum : (mapAddr addr + roundArg len).toNat =
      (mapAddr addr).toNat + (roundArg len).toNat := by
    rw [BitVec.toNat_add, Nat.mod_eq_of_lt hfits]
  unfold loopStop clipLen rangeEnd
  split_ifs with hclip
  · rw [ge_iff_le, BitVec.le_def, hsum] at hclip
    rw [BitVec.add_comm, BitVec.sub_add_cancel]
    simp at hclip ⊢
    omega
  · rw [ge_iff_le, BitVec.le_def, hsum] at hclip
    rw [hsum]
    simp at hclip
    omega

/-- Where it does not, they stop before its start. -/
theorem loopStop_of_wraps {addr len : U32} (hwraps : ¬ RangeFits addr len) :
    (loopStop addr len).toNat < rangeStart addr := by
  have haddr := mapAddr_lt addr
  have hlen := (roundArg len).isLt
  unfold RangeFits at hwraps
  unfold rangeStart at haddr ⊢
  have hsum : (mapAddr addr + roundArg len).toNat =
      (mapAddr addr).toNat + (roundArg len).toNat - 2 ^ 32 := by
    rw [BitVec.toNat_add]
    omega
  unfold loopStop clipLen
  split_ifs with hclip
  · rw [ge_iff_le, BitVec.le_def, hsum] at hclip
    simp at hclip
    omega
  · rw [hsum]
    omega

/-! ## Loops over the range -/

/-- The loop of a tool that fills, with its body. -/
def rangeLoop (addr len stride : U32) (body : Nat → U32 → Option (List Access)) (fuel : Nat) :
    Option (List Access) :=
  forLoop (fun i => i < loopStop addr len) stride (body fuel) fuel (mapAddr addr)

/-- Where the range does not fit, nothing is written, and so it is not filled. -/
theorem FillsRange.fits {addr len stride : U32} {body : Nat → U32 → Option (List Access)}
    (h : FillsRange addr len (rangeLoop addr len stride body)) : RangeFits addr len := by
  obtain ⟨fuel, accesses, htool, hcovers⟩ := h
  by_contra hwraps
  have hstop := loopStop_of_wraps hwraps
  have hrange : rangeStart addr < rangeEnd addr len := by
    have haddr := mapAddr_lt addr
    unfold RangeFits at hwraps
    unfold rangeEnd
    unfold rangeStart at haddr ⊢
    omega
  obtain ⟨access, haccess, -⟩ := hcovers.filled (rangeStart addr) (by omega) (by omega)
  cases fuel with
  | zero => cases htool
  | succ fuel =>
      have hdone : ¬ mapAddr addr < loopStop addr len := by
        rw [BitVec.lt_def]
        unfold rangeStart at hstop
        omega
      rw [rangeLoop, forLoop, if_neg hdone] at htool
      cases htool
      cases haccess

/-- Rounds that cover one stride each, up to the end of the range, fill it. -/
theorem fills_of_rounds {addr len stride : U32} (hfits : RangeFits addr len)
    (hpos : 0 < stride.toNat)
    (hwrap : rangeEnd addr len ≤ rangeStart addr ∨ rangeStart addr + stride.toNat < 2 ^ 32)
    {body : Nat → U32 → Option (List Access)} (bodyFuel : Nat)
    (hbody : ∀ fuel, bodyFuel < fuel → ∀ k (i : U32),
      i.toNat = rangeStart addr + k * stride.toNat → i.toNat < rangeEnd addr len →
        ∃ out, body fuel i = some out ∧ Covers Access.Touches Access.Stores out i.toNat
          (min (i.toNat + stride.toNat) (rangeEnd addr len) : Nat)) :
    FillsRange addr len (rangeLoop addr len stride body) := by
  have hstop := loopStop_of_fits hfits
  have hend := rangeEnd_le addr len
  have hle := rangeStart_le_rangeEnd addr len
  obtain ⟨n, hbehind, hwithin, hrounds⟩ :=
    exists_rounds (rangeEnd addr len - rangeStart addr) hpos
  have hlast : rangeStart addr + n * stride.toNat < 2 ^ 32 := by
    match n, hwithin, hrounds with
    | 0, _, _ => omega
    | 1, hwithin, _ => omega
    | n + 2, hwithin, hrounds =>
        have hone := hrounds 1 (by omega)
        omega
  have hcounter : ∀ k < n, (counter (mapAddr addr) stride k).toNat =
      rangeStart addr + k * stride.toNat := by
    intro k hk
    have hlt := hrounds k hk
    exact counter_toNat (show rangeStart addr + k * stride.toNat < 2 ^ 32 by omega)
  have hout : ∀ k, ∃ out, k < n →
      body (n + bodyFuel + 1) (counter (mapAddr addr) stride k) = some out ∧
        Covers Access.Touches Access.Stores out (rangeStart addr + k * stride.toNat : Nat)
          (min (rangeStart addr + (k + 1) * stride.toNat) (rangeEnd addr len) : Nat) := by
    intro k
    by_cases hk : k < n
    · have hlt := hrounds k hk
      obtain ⟨out, hout, hcovers⟩ := hbody (n + bodyFuel + 1) (by omega) k _ (hcounter k hk)
        (by rw [hcounter k hk]; omega)
      rw [hcounter k hk, Nat.add_assoc, ← Nat.succ_mul] at hcovers
      exact ⟨out, fun _ => ⟨hout, hcovers⟩⟩
    · exact ⟨[], fun h => absurd h hk⟩
  choose out hout using hout
  refine ⟨n + bodyFuel + 1, (List.range n).flatMap out, ?_, ?_⟩
  · refine forLoop_lt ?_ ?_ hlast (fun k hk => (hout k hk).1) (by omega)
    · intro k hk
      have hlt := hrounds k hk
      show rangeStart addr + _ < _
      omega
    · show _ ≤ rangeStart addr + _
      omega
  · -- a round starts where the one before it ends
    have hcovers : _ ∧ Covers Access.Touches Access.Stores _ _ _ :=
      Covers.rounds out (fun k =>
        ((min (rangeStart addr + k * stride.toNat) (rangeEnd addr len) : Nat) : Int)) n ?_ ?_
    · have hfirst : min (rangeStart addr + 0 * stride.toNat) (rangeEnd addr len) =
          rangeStart addr := by omega
      have hfinal : min (rangeStart addr + n * stride.toNat) (rangeEnd addr len) =
          rangeEnd addr len := by omega
      simpa only [hfirst, hfinal] using hcovers.2
    · intro k hk
      have hnext : (k + 1) * stride.toNat = k * stride.toNat + stride.toNat := Nat.succ_mul _ _
      omega
    · intro k hk
      have hlt := hrounds k hk
      have hstart : min (rangeStart addr + k * stride.toNat) (rangeEnd addr len) =
          rangeStart addr + k * stride.toNat := by omega
      rw [hstart]
      exact (hout k hk).2

/-- Where a tool fills its range, each round stays inside. -/
theorem FillsRange.round {addr len stride : U32} {body : Nat → U32 → Option (List Access)}
    (h : FillsRange addr len (rangeLoop addr len stride body)) {m : Nat}
    (hrounds : ∀ k ≤ m, counter (mapAddr addr) stride k < loopStop addr len) :
    ∃ fuel out, body fuel (counter (mapAddr addr) stride m) = some out ∧
      InsideRange addr len out := by
  obtain ⟨fuel, accesses, htool, hcovers⟩ := h
  obtain ⟨out, hout, hsub⟩ := forLoop_round htool hrounds
  refine ⟨fuel, out, hout, ?_⟩
  intro access haccess
  exact hcovers.inside access (hsub haccess)

/-- If the stride does not divide the range, the last round starts in it and ends behind it. -/
theorem exists_last_round {addr len stride : U32} (hfits : RangeFits addr len)
    (hpos : 0 < stride.toNat) (hdvd : ¬ stride.toNat ∣ rangeEnd addr len - rangeStart addr) :
    ∃ m, (∀ k ≤ m, counter (mapAddr addr) stride k < loopStop addr len) ∧
      (counter (mapAddr addr) stride m).toNat = rangeStart addr + m * stride.toNat ∧
      rangeStart addr + m * stride.toNat < rangeEnd addr len ∧
      rangeEnd addr len < rangeStart addr + m * stride.toNat + stride.toNat := by
  have hstop := loopStop_of_fits hfits
  have hend := rangeEnd_le addr len
  have hle := rangeStart_le_rangeEnd addr len
  have hdiv := Nat.div_add_mod (rangeEnd addr len - rangeStart addr) stride.toNat
  rw [Nat.mul_comm] at hdiv
  have hrest : (rangeEnd addr len - rangeStart addr) % stride.toNat ≠ 0 :=
    fun hzero => hdvd (Nat.dvd_of_mod_eq_zero hzero)
  have hmod := Nat.mod_lt (rangeEnd addr len - rangeStart addr) hpos
  have hcounter : ∀ k ≤ (rangeEnd addr len - rangeStart addr) / stride.toNat,
      (counter (mapAddr addr) stride k).toNat = rangeStart addr + k * stride.toNat ∧
        rangeStart addr + k * stride.toNat < rangeEnd addr len := by
    intro k hk
    have hmul := Nat.mul_le_mul_right stride.toNat hk
    refine ⟨counter_toNat (show rangeStart addr + _ < 2 ^ 32 by omega), by omega⟩
  refine ⟨(rangeEnd addr len - rangeStart addr) / stride.toNat, ?_, ?_, ?_, ?_⟩
  · intro k hk
    obtain ⟨hvalue, hlt⟩ := hcounter k hk
    rw [BitVec.lt_def, hvalue, hstop]
    exact hlt
  · exact (hcounter _ (Nat.le_refl _)).1
  · exact (hcounter _ (Nat.le_refl _)).2
  · omega

/-- A round that starts before the end of a range of whole strides ends there at the latest. -/
theorem stride_inside {range stride k : Nat} (hdvd : stride ∣ range) (hlt : k * stride < range) :
    k * stride + stride ≤ range := by
  obtain ⟨n, rfl⟩ := hdvd
  rw [Nat.mul_comm stride n] at hlt ⊢
  rw [← Nat.succ_mul]
  exact Nat.mul_le_mul_right stride (Nat.lt_of_mul_lt_mul_right hlt)

/-- Rounds that cover one stride each fill the range exactly when it fits and is made up of
whole strides, if a round that goes on behind the end of the range touches something there. -/
theorem fills_iff_dvd {addr len stride : U32} (hpos : 0 < stride.toNat)
    {body : Nat → U32 → Option (List Access)} (bodyFuel : Nat)
    (hcovers : ∀ fuel, bodyFuel < fuel → ∀ k (i : U32),
      i.toNat = rangeStart addr + k * stride.toNat → i.toNat + stride.toNat ≤ rangeEnd addr len →
        ∃ out, body fuel i = some out ∧
          Covers Access.Touches Access.Stores out i.toNat (i.toNat + stride.toNat : Nat))
    (hoverrun : ∀ fuel k (i : U32) out, i.toNat = rangeStart addr + k * stride.toNat →
      i.toNat < rangeEnd addr len → rangeEnd addr len < i.toNat + stride.toNat →
        body fuel i = some out →
          ∃ access ∈ out, ∃ place : Int, rangeEnd addr len ≤ place ∧ access.Touches place) :
    FillsRange addr len (rangeLoop addr len stride body) ↔
      RangeFits addr len ∧ stride.toNat ∣ rangeEnd addr len - rangeStart addr := by
  have hend := rangeEnd_le addr len
  have hstart := mapAddr_lt addr
  constructor
  · intro hfills
    have hfits := hfills.fits
    refine ⟨hfits, ?_⟩
    by_contra hdvd
    obtain ⟨m, hrounds, hcounter, hbefore, hbehind⟩ := exists_last_round hfits hpos hdvd
    obtain ⟨fuel, out, hout, hinside⟩ := hfills.round hrounds
    obtain ⟨access, haccess, place, hplace, htouch⟩ :=
      hoverrun fuel m _ out hcounter (by omega) (by omega) hout
    obtain ⟨-, hlt⟩ := hinside access haccess place htouch
    omega
  · rintro ⟨hfits, hdvd⟩
    have hwrap : rangeEnd addr len ≤ rangeStart addr ∨
        rangeStart addr + stride.toNat < 2 ^ 32 := by
      rcases Nat.eq_zero_or_pos (rangeEnd addr len - rangeStart addr) with hempty | hnonempty
      · exact Or.inl (by omega)
      · have hle := Nat.le_of_dvd hnonempty hdvd
        exact Or.inr (by omega)
    refine fills_of_rounds hfits hpos hwrap bodyFuel ?_
    intro fuel hfuel k i hi hlt
    have hinside := stride_inside hdvd (k := k) (by omega)
    have hround : min (i.toNat + stride.toNat) (rangeEnd addr len) = i.toNat + stride.toNat := by
      omega
    rw [hround]
    exact hcovers fuel hfuel k i hi (by omega)

/-! ## Each tool -/

theorem Access.touches_of_stores {access : Access} {place : Int} (h : access.Stores place) :
    access.Touches place := by
  cases access with
  | store offset size value => exact h
  | load offset size => exact h.elim

theorem store_covers {offset lo hi : Int} {size : Nat} (value : U32) (hlo : offset = lo)
    (hhi : offset + size = hi) :
    Covers Access.Touches Access.Stores [.store offset size value] lo hi := by
  subst hlo hhi
  exact Covers.singleton (fun _ htouch => htouch) fun _ hlo hhi => ⟨hlo, hhi⟩

/-- Words that are written one after the other. -/
theorem words_cover {base n lo hi : Nat} {index : Nat → Int} (value : Nat → U32)
    (hindex : ∀ k < n, index k = (base + k : Nat)) (hlo : 4 * base = lo)
    (hhi : 4 * base + 4 * n = hi) :
    Covers Access.Touches Access.Stores
      ((List.range n).flatMap fun k => [lmspace (index k) (value k)]) lo hi := by
  subst hlo hhi
  have hcovers : _ ∧ Covers Access.Touches Access.Stores _ _ _ :=
    Covers.rounds (fun k => [lmspace (index k) (value k)])
      (fun k => ((4 * base + 4 * k : Nat) : Int)) n ?_ ?_
  · exact hcovers.2
  · intro k _
    omega
  · intro k hk
    rw [hindex k hk]
    exact store_covers _ (by omega) (by omega)

theorem memspace_covers (i value : U32) :
    Covers Access.Touches Access.Stores [memspace i value] i.toNat (i.toNat + 1) :=
  store_covers value rfl rfl

/-- A round of `memset` covers as many bytes as its value has. -/
theorem memsetRound_covers (value : U32) {valsize i : U32} (hsize : 1 ≤ valsize.toNat)
    (hsize4 : valsize.toNat ≤ 4) {start k : Nat} (hstart : 4 ∣ start)
    (hi : i.toNat = start + k * valsize.toNat) (hwrap : i.toNat + 2 < 2 ^ 32) :
    Covers Access.Touches Access.Stores (memsetRound value valsize i) i.toNat
      (i.toNat + valsize.toNat) := by
  have hcases : valsize = 1 ∨ valsize = 2 ∨ valsize = 3 ∨ valsize = 4 := by
    rw [← BitVec.toNat_inj, ← BitVec.toNat_inj, ← BitVec.toNat_inj, ← BitVec.toNat_inj]
    simp
    omega
  rcases hcases with rfl | rfl | rfl | rfl
  · exact store_covers _ rfl rfl
  · have heven : (2 * (i / 2).toNat : Int) = i.toNat := by
      rw [BitVec.toNat_udiv]
      simp at hi ⊢
      omega
    exact store_covers _ heven (by rw [heven]; rfl)
  · have hsecond : ((i + 1).toNat : Int) = i.toNat + 1 := by
      rw [BitVec.toNat_add, Nat.mod_eq_of_lt (by simp; omega)]
      rfl
    have hthird : ((i + 2).toNat : Int) = i.toNat + 2 := by
      rw [BitVec.toNat_add, Nat.mod_eq_of_lt (by simp; omega)]
      rfl
    have hfirst := memspace_covers i ((value >>> 16) &&& 0xff)
    have hmiddle := memspace_covers (i + 1) ((value >>> 8) &&& 0xff)
    have hlast := memspace_covers (i + 2) (value &&& 0xff)
    rw [hsecond] at hmiddle
    rw [hthird] at hlast
    have hend : (i.toNat : Int) + (3 : U32).toNat = i.toNat + 2 + 1 := by
      simp
      omega
    rw [hend]
    exact (hfirst.append hmiddle (by omega) (by omega) (by omega)).append hlast
      (by omega) (by omega) (by omega)
  · have hword : (4 * (i / 4).toNat : Int) = i.toNat := by
      rw [BitVec.toNat_udiv]
      simp at hi ⊢
      omega
    exact store_covers _ hword (by rw [hword]; rfl)

/-- `memset` fills its range exactly when that fits and a whole number of values makes it up. -/
theorem memset_fills_iff (value addr len nbytes : U32) :
    FillsRange addr len (memset value addr len nbytes) ↔
      RangeFits addr len ∧
        (clipValsize nbytes).toNat ∣ rangeEnd addr len - rangeStart addr := by
  have hloop : memset value addr len nbytes = rangeLoop addr len (clipValsize nbytes)
      fun _ i => some (memsetRound value (clipValsize nbytes) i) := rfl
  obtain ⟨hsize, hsize4⟩ := clipValsize_toNat nbytes
  have hend := rangeEnd_le addr len
  rw [hloop]
  refine fills_iff_dvd hsize 0 ?_ ?_
  · intro fuel _ k i hi hinside
    exact ⟨_, rfl, memsetRound_covers value hsize hsize4 (mapAddr_dvd addr) hi (by omega)⟩
  · intro fuel k i out hi hbefore hbehind hout
    cases hout
    have hcovers := memsetRound_covers value hsize hsize4 (mapAddr_dvd addr) hi (by omega)
    obtain ⟨access, haccess, hstores⟩ := hcovers.filled (rangeEnd addr len) (by omega) (by omega)
    exact ⟨access, haccess, _, Int.le_refl _, Access.touches_of_stores hstores⟩

/-- The signed index of a word below 2 GB is that of an unsigned one. -/
theorem sdiv_four_toInt {x : U32} (hx : x.toNat < 2 ^ 31) :
    (x.sdiv 4).toInt = (x.toNat / 4 : Nat) := by
  have hmsb : x.msb = false := by
    rw [BitVec.msb_eq_false_iff_two_mul_lt]
    omega
  have hfour : (4 : U32).msb = false := by decide
  have hdiv : x.sdiv 4 = x / 4 := by
    rw [BitVec.sdiv_eq, hmsb, hfour]
    rfl
  have hvalue : (x / 4).toNat = x.toNat / 4 := BitVec.toNat_udiv
  rw [hdiv, BitVec.toInt_eq_toNat_of_lt (by rw [hvalue]; omega), hvalue]

/-- The loop over a stripe covers the words from its start to its end. -/
theorem stripeLoop_covers {i : U32} (start stop value : U32) (hi : 4 ∣ i.toNat)
    (hle : start.toNat ≤ stop.toNat) (hsmall : i.toNat + stop.toNat + 4 < 2 ^ 31) :
    ∃ n, stop.toNat ≤ start.toNat + 4 * n ∧ start.toNat + 4 * n < stop.toNat + 4 ∧
      ∀ fuel, n < fuel → ∃ out, stripeLoop fuel i start stop value = some out ∧
        Covers Access.Touches Access.Stores out (4 * ((i.toNat + start.toNat) / 4) : Nat)
          (4 * ((i.toNat + start.toNat) / 4) + 4 * n : Nat) := by
  obtain ⟨n, hbehind, hwithin, hrounds⟩ :=
    exists_rounds (stop.toNat - start.toNat) (s := 4) (by decide)
  have hfour : (4 : U32).toNat = 4 := rfl
  refine ⟨n, by omega, by omega, ?_⟩
  intro fuel hfuel
  have hcounter : ∀ k < n, (counter start 4 k).toNat = start.toNat + k * 4 := by
    intro k hk
    have hlt := hrounds k hk
    exact counter_toNat (by rw [hfour]; omega)
  refine ⟨_, forLoop_lt ?_ ?_ ?_ (fun k _ => rfl) hfuel, ?_⟩
  · intro k hk
    have hlt := hrounds k hk
    rw [hfour]
    omega
  · rw [hfour]
    omega
  · rw [hfour]
    omega
  · refine words_cover (fun _ => value) ?_ rfl rfl
    intro k hk
    have hlt := hrounds k hk
    have hsum : (i + counter start 4 k).toNat = i.toNat + start.toNat + k * 4 := by
      rw [BitVec.toNat_add, hcounter k hk, Nat.mod_eq_of_lt (by omega), Nat.add_assoc]
    rw [sdiv_four_toInt (by omega), hsum]
    omega

/-- A loop over a stripe that ends has written each word before its end. -/
theorem stripeLoop_stores {i start stop value : U32} {fuel m : Nat} {out : List Access}
    (h : stripeLoop fuel i start stop value = some out)
    (hm : start.toNat + m * 4 < stop.toNat) (hsmall : i.toNat + start.toNat + m * 4 < 2 ^ 31) :
    ∃ access ∈ out, access.Touches (4 * ((i.toNat + start.toNat + m * 4) / 4) : Nat) := by
  have hfour : (4 : U32).toNat = 4 := rfl
  have hstop := stop.isLt
  have hcounter : ∀ k ≤ m, (counter start 4 k).toNat = start.toNat + k * 4 := by
    intro k hk
    exact counter_toNat (by rw [hfour]; omega)
  obtain ⟨word, hword, hsub⟩ := forLoop_round (m := m) h (by
    intro k hk
    rw [BitVec.lt_def, hcounter k hk]
    omega)
  cases hword
  have hsum : (i + counter start 4 m).toNat = i.toNat + start.toNat + m * 4 := by
    rw [BitVec.toNat_add, hcounter m (Nat.le_refl m), Nat.mod_eq_of_lt (by omega), Nat.add_assoc]
  have hindex := sdiv_four_toInt (x := i + counter start 4 m) (by omega)
  refine ⟨_, hsub (List.mem_singleton_self _), ?_⟩
  show 4 * ((i + counter start 4 m).sdiv 4).toInt ≤ _ ∧
    _ < 4 * ((i + counter start 4 m).sdiv 4).toInt + (4 : Nat)
  rw [hindex, hsum]
  push_cast
  omega

/-- A stripe covers its width. -/
theorem stripe_covers {i width : U32} (hi : 4 ∣ i.toNat) (hwidth : 4 ∣ width.toNat)
    (hend : i.toNat + width.toNat ≤ 0x01000000) {fuel : Nat} (hfuel : width.toNat < fuel) :
    ∃ out, stripe fuel i width = some out ∧
      Covers Access.Touches Access.Stores out i.toNat (i.toNat + width.toNat : Nat) := by
  have hhalf : (width / 2).toNat = width.toNat / 2 := BitVec.toNat_udiv
  have hzero : (0 : U32).toNat = 0 := rfl
  obtain ⟨n, hbehind, hwithin, hhigh⟩ :=
    stripeLoop_covers 0 (width / 2) 0xffffffff hi (by omega) (by omega)
  obtain ⟨n', hbehind', hwithin', hlow⟩ :=
    stripeLoop_covers (width / 2) width 0x00000000 hi (by omega) (by omega)
  obtain ⟨high, hhigh, hhighCovers⟩ := hhigh fuel (by omega)
  obtain ⟨low, hlow, hlowCovers⟩ := hlow fuel (by omega)
  refine ⟨high ++ low, by rw [stripe, hhigh, hlow]; rfl, ?_⟩
  have hfirst : 4 * ((i.toNat + (0 : U32).toNat) / 4) = i.toNat := by omega
  have hlast : 4 * ((i.toNat + (width / 2).toNat) / 4) + 4 * n' = i.toNat + width.toNat := by
    omega
  rw [hfirst] at hhighCovers
  rw [hlast] at hlowCovers
  exact hhighCovers.append hlowCovers (by omega) (by omega) (by omega)

/-- A stripe that goes on behind a place touches something there. -/
theorem stripe_overruns {i width : U32} {fuel bound : Nat} {out : List Access}
    (h : stripe fuel i width = some out) (hi : 4 ∣ i.toNat) (hwidth : 4 ∣ width.toNat)
    (hbound : 4 ∣ bound) (hbefore : i.toNat < bound) (hbehind : bound < i.toNat + width.toNat)
    (hend : bound ≤ 0x01000000) :
    ∃ access ∈ out, ∃ place : Int, bound ≤ place ∧ access.Touches place := by
  have hhalf : (width / 2).toNat = width.toNat / 2 := BitVec.toNat_udiv
  have hzero : (0 : U32).toNat = 0 := rfl
  rw [stripe, Option.bind_eq_bind, Option.bind_eq_some_iff] at h
  obtain ⟨high, hhigh, h⟩ := h
  rw [Option.bind_eq_some_iff] at h
  obtain ⟨low, hlow, h⟩ := h
  cases h
  by_cases hfirst : bound - i.toNat < width.toNat / 2
  · -- the first half of the stripe reaches the place
    obtain ⟨access, haccess, htouch⟩ := stripeLoop_stores hhigh
      (m := (bound - i.toNat) / 4) (by omega) (by omega)
    exact ⟨access, List.mem_append_left low haccess, _, by omega, htouch⟩
  · -- the last word of the second half is behind it
    obtain ⟨access, haccess, htouch⟩ := stripeLoop_stores hlow
      (m := (width.toNat / 2 - 1) / 4) (by omega) (by omega)
    exact ⟨access, List.mem_append_right high haccess, _, by omega, htouch⟩

/-- `striperam` fills its range exactly when that fits and a whole number of stripes makes it
up. -/
theorem striperam_fills_iff (addr len width : U32) :
    FillsRange addr len (striperam addr len width) ↔
      RangeFits addr len ∧
        (clipWidth width).toNat ∣ rangeEnd addr len - rangeStart addr := by
  have hloop : striperam addr len width = rangeLoop addr len (clipWidth width)
      fun fuel i => stripe fuel i (clipWidth width) := rfl
  obtain ⟨hwidth, hwidthDvd⟩ := clipWidth_toNat width
  have hend := rangeEnd_le addr len
  have hstartDvd := mapAddr_dvd addr
  have hmulDvd (k : Nat) : 4 ∣ k * (clipWidth width).toNat := Nat.dvd_mul_left_of_dvd hwidthDvd k
  rw [hloop]
  refine fills_iff_dvd (by omega) (clipWidth width).toNat ?_ ?_
  · intro fuel hfuel k i hi hinside
    have hmul := hmulDvd k
    exact stripe_covers (by omega) hwidthDvd (by omega) hfuel
  · intro fuel k i out hi hbefore hbehind hout
    have hmul := hmulDvd k
    exact stripe_overruns hout (by omega) hwidthDvd (rangeEnd_dvd addr len) hbefore hbehind hend

/-- The loop over a ramp covers its words, as far as they are in the range. -/
theorem rampLoop_covers {i ramplen stop : U32} (hi : 4 ∣ i.toNat) (hramp : 4 ∣ ramplen.toNat)
    (hstop : 4 ∣ stop.toNat) (hlt : i.toNat < stop.toNat) {fuel : Nat}
    (hfuel : ramplen.toNat < fuel) :
    ∃ out, rampLoop fuel i ramplen stop = some out ∧
      Covers Access.Touches Access.Stores out i.toNat
        (min (i.toNat + ramplen.toNat) stop.toNat : Nat) := by
  have hfour : (4 : U32).toNat = 4 := rfl
  have hzero : (0 : U32).toNat = 0 := rfl
  have hstopLt := stop.isLt
  have hrampLt := ramplen.isLt
  have hcounter : ∀ k ≤ min ramplen.toNat (stop.toNat - i.toNat) / 4,
      (counter 0 4 k : U32).toNat = k * 4 ∧ (i + counter 0 4 k).toNat = i.toNat + k * 4 := by
    intro k hk
    have hvalue : (counter 0 4 k : U32).toNat = k * 4 := by
      rw [counter_toNat (by rw [hfour, hzero]; omega), hfour, hzero, Nat.zero_add]
    refine ⟨hvalue, ?_⟩
    rw [BitVec.toNat_add, hvalue, Nat.mod_eq_of_lt (by omega)]
  refine ⟨_, forLoop_eq (n := min ramplen.toNat (stop.toNat - i.toNat) / 4) ?_ ?_
    (fun k _ => rfl) (by omega), ?_⟩
  · intro k hk
    obtain ⟨hj, hsum⟩ := hcounter k (by omega)
    rw [BitVec.lt_def, BitVec.lt_def, hj, hsum]
    omega
  · obtain ⟨hj, hsum⟩ := hcounter _ (Nat.le_refl _)
    rw [BitVec.lt_def, BitVec.lt_def, hj, hsum]
    omega
  · have hstart : 4 * (i.toNat / 4) = i.toNat := by omega
    refine words_cover (fun k => rampValue (counter 0 4 k) ramplen) ?_ hstart (by omega)
    intro k hk
    obtain ⟨-, hsum⟩ := hcounter k (by omega)
    rw [BitVec.toNat_udiv, hsum, hfour]
    omega

/-- A loop over a ramp that ends has written its first word. -/
theorem rampLoop_stores {i ramplen stop : U32} {fuel : Nat} {out : List Access}
    (h : rampLoop fuel i ramplen stop = some out) (hramp : 0 < ramplen.toNat) (hi : i < stop) :
    ∃ access ∈ out, access.Touches (4 * (i.toNat / 4) : Nat) := by
  have hsame : i + 0 = i := BitVec.add_zero i
  obtain ⟨word, hword, hsub⟩ := forLoop_round (m := 0) h (by
    intro k hk
    obtain rfl : k = 0 := Nat.le_zero.mp hk
    rw [counter_zero, hsame]
    exact ⟨BitVec.lt_def.mpr hramp, hi⟩)
  rw [counter_zero, hsame] at hword
  cases hword
  refine ⟨_, hsub (List.mem_singleton_self _), ?_⟩
  have hindex : (i / 4).toNat = i.toNat / 4 := BitVec.toNat_udiv
  show (4 * ((i / 4).toNat : Int)) ≤ _ ∧ _ < (4 * ((i / 4).toNat : Int)) + (4 : Nat)
  rw [hindex]
  push_cast
  omega

/-- `rampram` fills its range exactly when that fits and is empty, or the end of the first ramp
is a 32-bit number. -/
theorem rampram_fills_iff (addr len ramplen : U32) :
    FillsRange addr len (rampram addr len ramplen) ↔
      RangeFits addr len ∧ (rangeEnd addr len ≤ rangeStart addr ∨
        rangeStart addr + (clipWidth ramplen).toNat < 2 ^ 32) := by
  have hloop : rampram addr len ramplen = rangeLoop addr len (clipWidth ramplen)
      fun fuel i => rampLoop fuel i (clipWidth ramplen) (loopStop addr len) := rfl
  obtain ⟨hramp, hrampDvd⟩ := clipWidth_toNat ramplen
  have hrampLt := (clipWidth ramplen).isLt
  have hend := rangeEnd_le addr len
  have hendDvd := rangeEnd_dvd addr len
  have hstart := mapAddr_lt addr
  have hstartDvd := mapAddr_dvd addr
  rw [hloop]
  constructor
  · intro hfills
    have hfits := hfills.fits
    refine ⟨hfits, ?_⟩
    by_contra hwrap
    rw [not_or, Nat.not_le, Nat.not_lt] at hwrap
    have hstop := loopStop_of_fits hfits
    -- the second ramp starts before the range
    have hsecond : (counter (mapAddr addr) (clipWidth ramplen) 1).toNat =
        rangeStart addr + (clipWidth ramplen).toNat - 2 ^ 32 := by
      show (BitVec.ofNat 32 (rangeStart addr + 1 * _)).toNat = _
      rw [BitVec.toNat_ofNat]
      omega
    have hrounds : ∀ k ≤ 1,
        counter (mapAddr addr) (clipWidth ramplen) k < loopStop addr len := by
      intro k hk
      obtain rfl | rfl : k = 0 ∨ k = 1 := by omega
      · rw [counter_zero, BitVec.lt_def, hstop]
        exact hwrap.1
      · rw [BitVec.lt_def, hstop, hsecond]
        omega
    obtain ⟨fuel, out, hout, hinside⟩ := hfills.round hrounds
    obtain ⟨access, haccess, htouch⟩ := rampLoop_stores hout (by omega)
      (hrounds 1 (Nat.le_refl 1))
    obtain ⟨hge, -⟩ := hinside access haccess _ htouch
    rw [hsecond] at hge
    omega
  · rintro ⟨hfits, hwrap⟩
    have hstop := loopStop_of_fits hfits
    refine fills_of_rounds hfits (by omega) hwrap (clipWidth ramplen).toNat ?_
    intro fuel hfuel k i hi hlt
    have hmul : 4 ∣ k * (clipWidth ramplen).toNat := Nat.dvd_mul_left_of_dvd hrampDvd k
    rw [← hstop]
    exact rampLoop_covers (by omega) hrampDvd (by omega) (by omega) hfuel

/-- `memdump` stays inside of its range exactly when that fits. -/
theorem memdump_inside_iff (addr len : U32) :
    InsideRange addr len (memdump addr len) ↔ RangeFits addr len := by
  have hstart := mapAddr_lt addr
  have hlen := (roundArg len).isLt
  unfold rangeStart at hstart
  have hsum : (mapAddr addr + roundArg len).toNat =
      ((mapAddr addr).toNat + (roundArg len).toNat) % 2 ^ 32 := BitVec.toNat_add _ _
  have hclip : (0x01000000 - mapAddr addr).toNat = 0x01000000 - (mapAddr addr).toNat :=
    BitVec.toNat_sub_of_le (by rw [BitVec.le_def]; simp; omega)
  have hmore : mapAddr addr + roundArg len > 0x01000000 ↔
      0x01000000 < (mapAddr addr + roundArg len).toNat := BitVec.lt_def
  have hinside : InsideRange addr len (memdump addr len) ↔ ∀ place : Int,
      Access.Touches (.load (mapAddr addr).toNat (if mapAddr addr + roundArg len > 0x01000000
        then 0x01000000 - mapAddr addr else roundArg len).toNat) place →
        (rangeStart addr : Int) ≤ place ∧ place < rangeEnd addr len :=
    List.forall_mem_singleton
  rw [hinside]
  unfold Access.Touches RangeFits rangeStart rangeEnd
  constructor
  · intro hload
    by_contra hwraps
    have hwhole : ¬ mapAddr addr + roundArg len > 0x01000000 := by
      rw [hmore]
      omega
    rw [if_neg hwhole] at hload
    obtain ⟨-, hlt⟩ := hload 0x01000000 ⟨by omega, by omega⟩
    omega
  · rintro hfits place ⟨hge, hlt⟩
    rw [Nat.mod_eq_of_lt hfits] at hsum
    split_ifs at hlt with hpast
    · rw [hmore, hsum] at hpast
      omega
    · rw [hmore, hsum] at hpast
      omega

/-- Each tool stays inside of its range, and those that fill it write all of it, exactly under
its condition. -/
theorem memTools_inside_iff (value addr len nbytes width ramplen : U32) :
    (FillsRange addr len (memset value addr len nbytes) ↔
      RangeFits addr len ∧
        (clipValsize nbytes).toNat ∣ rangeEnd addr len - rangeStart addr) ∧
    (FillsRange addr len (striperam addr len width) ↔
      RangeFits addr len ∧
        (clipWidth width).toNat ∣ rangeEnd addr len - rangeStart addr) ∧
    (FillsRange addr len (rampram addr len ramplen) ↔
      RangeFits addr len ∧ (rangeEnd addr len ≤ rangeStart addr ∨
        rangeStart addr + (clipWidth ramplen).toNat < 2 ^ 32)) ∧
    (InsideRange addr len (memdump addr len) ↔ RangeFits addr len) :=
  ⟨memset_fills_iff value addr len nbytes, striperam_fills_iff addr len width,
    rampram_fills_iff addr len ramplen, memdump_inside_iff addr len⟩

/-- Values of three bytes do not make up one word. -/
theorem memset_overruns :
    ¬ ∀ value addr len nbytes : U32, FillsRange addr len (memset value addr len nbytes) := by
  intro hall
  have hfills := hall 0xffffff 0 4 3
  obtain ⟨-, hdvd⟩ := (memset_fills_iff _ _ _ _).mp hfills
  revert hdvd
  decide

end Tl880
