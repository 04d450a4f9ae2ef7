import Tl880.RegLoad

/-!
# Register dumps and back

`tools/regdump.c` writes the whole register space of 1 MB to a file.  That is more than the
256 kB that `regload` and `regloadslow` are made for, so the fast one reads the first quarter,
and the slow one goes on behind it if it is told to slow down there.
-/

namespace Tl880

/-! ## The tool -/

/-- `regdump` -/
def regdump (cell : U32 → U32) : List U32 :=
  (List.range (0x100000 / 4)).map fun k => cell (BitVec.ofNat 32 (4 * k))

@[simp] theorem regdump_length (cell : U32 → U32) : (regdump cell).length = 0x100000 / 4 := by
  rw [regdump, List.length_map, List.length_range]

theorem regdump_word (cell : U32 → U32) {k : Nat} (hk : k < 0x100000 / 4) :
    (regdump cell)[k]? = some (cell (BitVec.ofNat 32 (4 * k))) := by
  rw [regdump, List.getElem?_map, List.getElem?_range hk]
  rfl

/-! ## Reading a part of a dump -/

/-- A register after words were read from `reg` on. -/
theorem RegLoad.readInto_cell {s : RegLoad} {reg : U32} {words : List U32}
    (hfits : reg.toNat + 4 * words.length ≤ 0x100000) (r : U32) :
    (s.readInto reg words).cell r =
      if reg.toNat ≤ r.toNat ∧ 4 ∣ r.toNat - reg.toNat then
        (words[(r.toNat - reg.toNat) / 4]?).getD (s.cell r)
      else s.cell r := by
  induction words generalizing s reg with
  | nil => simp [readInto]
  | cons word words ih =>
      rw [List.length_cons] at hfits
      have hnext : (reg + 4).toNat = reg.toNat + 4 := nextDword_toNat (by omega)
      rw [readInto, ih (by omega), hnext]
      by_cases hsame : r.toNat = reg.toNat
      · -- the register of the first word is not written again
        rw [BitVec.eq_of_toNat_eq hsame, if_neg (by omega), if_pos (by simp)]
        simp [write]
      · have hne : r ≠ reg := fun heq => hsame (congrArg BitVec.toNat heq)
        have hother : (s.write reg word).cell r = s.cell r := Function.update_of_ne hne _ _
        rw [hother]
        by_cases hlater : reg.toNat + 4 ≤ r.toNat ∧ 4 ∣ r.toNat - (reg.toNat + 4)
        · have hplace : (r.toNat - reg.toNat) / 4 = (r.toNat - (reg.toNat + 4)) / 4 + 1 := by omega
          rw [if_pos hlater, if_pos (by omega), hplace, List.getElem?_cons_succ]
        · rw [if_neg hlater, if_neg (by omega)]

/-- The slow loop reads up to the end of the register space, as far as the file goes there. -/
theorem slowLoop_eq_take {n : Nat} {reg : U32} (regval : U32) {file : List U32} (s : RegLoad)
    (hend : reg.toNat + 4 * n = 0x40000) (hfile : n ≤ file.length) :
    slowLoop reg regval file s = s.readInto reg (file.take n) := by
  induction n generalizing reg regval file s with
  | zero => exact slowLoop_done (by omega) regval file s
  | succ n ih =>
      cases file with
      | nil => simp at hfile
      | cons word words =>
          have hnext : (reg + 4).toNat = reg.toNat + 4 := nextDword_toNat (by omega)
          rw [slowLoop_round (by omega)]
          exact ih word _ (by omega) (by simpa using hfile)

/-- The first register that the slow tool writes. -/
def slowBase (args : LoadArgs) : Nat :=
  min (argAddr args.startAddr).toNat (argAddr args.slowAt).toNat

/-- The end of what it writes. -/
def slowEnd (args : LoadArgs) : Nat := max (argAddr args.slowAt).toNat 0x40000

theorem ofNat_slowBase (args : LoadArgs) : BitVec.ofNat 32 (slowBase args) =
    if (argAddr args.startAddr).toNat < (argAddr args.slowAt).toNat then argAddr args.startAddr
    else argAddr args.slowAt := by
  unfold slowBase
  split_ifs with hread
  · rw [Nat.min_eq_left (Nat.le_of_lt hread), BitVec.ofNat_toNat, BitVec.setWidth_eq]
  · rw [Nat.min_eq_right (by omega), BitVec.ofNat_toNat, BitVec.setWidth_eq]

/-- The loop goes on where the read has stopped. -/
theorem slowLoop_readInto_take {start reg : U32} {k n : Nat} {file : List U32} (s : RegLoad)
    (hreg : reg.toNat = start.toNat + 4 * k) (hend : reg.toNat + 4 * n = 0x40000)
    (hfile : k + n ≤ file.length) :
    slowLoop reg 0 (file.drop k) (s.readInto start (file.take k)) =
      s.readInto start (file.take (k + n)) := by
  have hplace : start + BitVec.ofNat 32 (4 * k) = reg := by
    apply BitVec.eq_of_toNat_eq
    rw [BitVec.toNat_add, BitVec.toNat_ofNat]
    omega
  have happend := s.readInto_append start (file.take k) ((file.drop k).take n)
  rw [List.length_take_of_le (by omega), hplace, ← List.take_add] at happend
  rw [happend]
  apply slowLoop_eq_take 0 _ hend
  rw [List.length_drop]
  omega

/-- The slow tool reads one piece of a file that is long enough.  Where it does not read fast, the
start address is not used. -/
theorem regloadslow_eq_take {args : LoadArgs} {file : List U32}
    (hfile : slowEnd args ≤ 4 * file.length) (cell : U32 → U32) :
    regloadslow args file cell = RegLoad.readInto ⟨cell, []⟩ (BitVec.ofNat 32 (slowBase args))
      (file.take ((slowEnd args - slowBase args) / 4)) := by
  have hstartDvd := argAddr_dvd args.startAddr
  have hslowDvd := argAddr_dvd args.slowAt
  have hlater : argAddr args.slowAt > argAddr args.startAddr ↔
      (argAddr args.startAddr).toNat < (argAddr args.slowAt).toNat := BitVec.lt_def
  have hzero : argAddr args.slowAt > 0 ↔ 0 < (argAddr args.slowAt).toNat := BitVec.lt_def
  rw [ofNat_slowBase]
  unfold slowEnd slowBase at *
  unfold regloadslow
  dsimp only
  by_cases hread : (argAddr args.startAddr).toNat < (argAddr args.slowAt).toNat
  · have hsub : (argAddr args.slowAt - argAddr args.startAddr).toNat =
        (argAddr args.slowAt).toNat - (argAddr args.startAddr).toNat :=
      BitVec.toNat_sub_of_le (BitVec.le_def.mpr (Nat.le_of_lt hread))
    rw [if_pos ⟨hzero.mpr (by omega), hlater.mpr hread⟩, hsub, if_pos hread,
      Nat.min_eq_left (Nat.le_of_lt hread)]
    by_cases hpast : 0x40000 ≤ (argAddr args.slowAt).toNat
    · rw [slowLoop_done hpast, Nat.max_eq_left hpast]
    · rw [slowLoop_readInto_take ⟨cell, []⟩ (n := (0x40000 - (argAddr args.slowAt).toNat) / 4)
        (by omega) (by omega) (by omega)]
      congr 2
      omega
  · rw [if_neg (fun h => hread (hlater.mp h.2)), if_neg hread]
    by_cases hpast : 0x40000 ≤ (argAddr args.slowAt).toNat
    · -- nothing is read
      have hnone : (max (argAddr args.slowAt).toNat 0x40000 -
          min (argAddr args.startAddr).toNat (argAddr args.slowAt).toNat) / 4 = 0 := by omega
      rw [slowLoop_done hpast, hnone, List.take_zero]
      rfl
    · exact slowLoop_eq_take 0 _ (by omega) (by omega)

/-! ## A dump read back -/

/-- The first `n` words of a dump, read from register `base` on. -/
theorem readInto_regdump {base n : Nat} (hfits : base + 4 * n ≤ 0x100000) (cell cell' : U32 → U32)
    (r : U32) :
    (RegLoad.readInto ⟨cell', []⟩ (BitVec.ofNat 32 base) ((regdump cell).take n)).cell r =
      if base ≤ r.toNat ∧ r.toNat < base + 4 * n ∧ 4 ∣ r.toNat - base then
        cell (BitVec.ofNat 32 (r.toNat - base))
      else cell' r := by
  have hbase : (BitVec.ofNat 32 base).toNat = base := by
    rw [BitVec.toNat_ofNat]
    omega
  have hlength : ((regdump cell).take n).length = n := by
    rw [List.length_take_of_le]
    simp
    omega
  rw [RegLoad.readInto_cell (by rw [hbase, hlength]; exact hfits), hbase]
  by_cases hplace : base ≤ r.toNat ∧ 4 ∣ r.toNat - base
  · rw [if_pos hplace]
    by_cases hword : r.toNat < base + 4 * n
    · have hoffset : 4 * ((r.toNat - base) / 4) = r.toNat - base := by omega
      rw [if_pos ⟨hplace.1, hword, hplace.2⟩, List.getElem?_take_of_lt (by omega),
        regdump_word cell (by omega), hoffset]
      rfl
    · rw [if_neg (by omega), List.getElem?_eq_none (by omega)]
      rfl
  · rw [if_neg hplace, if_neg (fun h => hplace ⟨h.1, h.2.2⟩)]

/-- The fast tool puts the first 256 kB of a dump at the start address. -/
theorem regload_regdump_cell {args : LoadArgs}
    (hstart : (argAddr args.startAddr).toNat + 0x40000 ≤ 0x100000) (cell cell' : U32 → U32)
    (r : U32) :
    (regload args (regdump cell) cell').cell r =
      if (argAddr args.startAddr).toNat ≤ r.toNat ∧
          r.toNat < (argAddr args.startAddr).toNat + 0x40000 ∧
          4 ∣ r.toNat - (argAddr args.startAddr).toNat then
        cell (BitVec.ofNat 32 (r.toNat - (argAddr args.startAddr).toNat))
      else cell' r := by
  have hbase : BitVec.ofNat 32 (argAddr args.startAddr).toNat = argAddr args.startAddr := by
    rw [BitVec.ofNat_toNat, BitVec.setWidth_eq]
  have hsize : 4 * (0x40000 / 4) = 0x40000 := rfl
  rw [regload, ← hbase, readInto_regdump (by omega), hsize, hbase]

/-- The slow tool puts a dump at the smaller one of its two addresses. -/
theorem regloadslow_regdump_cell {args : LoadArgs}
    (hslow : (argAddr args.slowAt).toNat ≤ 0x100000) (cell cell' : U32 → U32) (r : U32) :
    (regloadslow args (regdump cell) cell').cell r =
      if slowBase args ≤ r.toNat ∧ r.toNat < slowEnd args ∧ 4 ∣ r.toNat - slowBase args then
        cell (BitVec.ofNat 32 (r.toNat - slowBase args))
      else cell' r := by
  have hstartDvd := argAddr_dvd args.startAddr
  have hslowDvd := argAddr_dvd args.slowAt
  have hend : slowBase args + 4 * ((slowEnd args - slowBase args) / 4) = slowEnd args := by
    unfold slowBase slowEnd
    omega
  have hmapped : slowEnd args ≤ 0x100000 := by
    unfold slowEnd
    omega
  rw [regloadslow_eq_take (by simpa using hmapped), readInto_regdump (by omega), hend]

/-- A dump comes back to its own registers by the fast tool if and only if that starts at 0, and
by the slow one if and only if one of its addresses is 0.  It brings back the first 256 kB, and
the slow tool what is before the register it slows down at too. -/
theorem regdump_comes_back {args : LoadArgs}
    (hstart : (argAddr args.startAddr).toNat + 0x40000 ≤ 0x100000)
    (hslow : (argAddr args.slowAt).toNat ≤ 0x100000) :
    ((∀ (cell cell' : U32 → U32) (r : U32), (regload args (regdump cell) cell').cell r =
        if r.toNat < 0x40000 ∧ 4 ∣ r.toNat then cell r else cell' r) ↔
      argAddr args.startAddr = 0) ∧
    ((∀ (cell cell' : U32 → U32) (r : U32), (regloadslow args (regdump cell) cell').cell r =
        if r.toNat < slowEnd args ∧ 4 ∣ r.toNat then cell r else cell' r) ↔
      argAddr args.startAddr = 0 ∨ argAddr args.slowAt = 0) := by
  have hself : ∀ r : U32, BitVec.ofNat 32 r.toNat = r := by
    intro r
    rw [BitVec.ofNat_toNat, BitVec.setWidth_eq]
  have hzero : (0 : U32).toNat = 0 := rfl
  constructor
  · constructor
    · intro hall
      -- register 0 comes back
      have hfirst := hall (fun _ => 1) (fun _ => 0) 0
      apply BitVec.eq_of_toNat_eq
      by_contra hne
      rw [hzero] at hne
      rw [regload_regdump_cell hstart, hzero, if_neg (by omega), if_pos (by omega)] at hfirst
      cases hfirst
    · intro hbase cell cell' r
      rw [regload_regdump_cell hstart, hbase, hzero, Nat.sub_zero, Nat.zero_add, hself]
      simp
  · have hbase : slowBase args = 0 ↔ argAddr args.startAddr = 0 ∨ argAddr args.slowAt = 0 := by
      rw [← BitVec.toNat_inj, ← BitVec.toNat_inj, hzero, slowBase]
      omega
    have hend : 0 < slowEnd args := by
      unfold slowEnd
      omega
    rw [← hbase]
    constructor
    · intro hall
      have hfirst := hall (fun _ => 1) (fun _ => 0) 0
      by_contra hne
      rw [regloadslow_regdump_cell hslow, hzero, if_neg (by omega), if_pos (by omega)] at hfirst
      cases hfirst
    · intro hstart cell cell' r
      rw [regloadslow_regdump_cell hslow, hstart, Nat.sub_zero, hself]
      simp

/-- From register 0x100 on, slow from 0x80000 on. -/
theorem regdump_comes_back_shifted :
    ((∀ (cell cell' : U32 → U32) (r : U32),
        (regload ⟨some 0x100, some 0x80000⟩ (regdump cell) cell').cell r =
          if r.toNat < 0x40000 ∧ 4 ∣ r.toNat then cell r else cell' r) ↔
      argAddr (some 0x100) = 0) ∧
    ((∀ (cell cell' : U32 → U32) (r : U32),
        (regloadslow ⟨some 0x100, some 0x80000⟩ (regdump cell) cell').cell r =
          if r.toNat < slowEnd ⟨some 0x100, some 0x80000⟩ ∧ 4 ∣ r.toNat then cell r
          else cell' r) ↔
      argAddr (some 0x100) = 0 ∨ argAddr (some 0x80000) = 0) :=
  regdump_comes_back (Nat.le_of_ble_eq_true rfl) (Nat.le_of_ble_eq_true rfl)

end Tl880
