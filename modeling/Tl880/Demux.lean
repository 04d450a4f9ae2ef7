import Tl880.CrcTable
import Tl880.Lib.ForLoop

/-!
# Setting up the demultiplexer

What `tl880_demux_init` of `driver/tl880demux.c` does before it talks to the processor of the
transport stream demultiplexer (TSD): it fills its tables and programs the registers of the
devices.  The loop over the channels is bounded by a register and not by the length of its
array; `demuxSetUp_eq` says that it ends with the array.

The code stores into its tables between the writes to the registers.  The card does not see
the tables, so the two are kept apart here: the tables are given as the code leaves them, and
the writes in their order, but not which store comes before which write.
-/

namespace Tl880

open ForLoop

/-! ## The tables -/

/-- `struct demux_dma_control` -/
structure DemuxDmaControl where
  field0 : U64
  field4 : U64
  field8 : U64
  reg : U64

/-- The fields of `struct demux_dev` that the code sets. -/
structure DemuxDev where
  field0 : U64
  field4 : U64
  field8 : U64
  fieldC : U64
  field10 : U64
  field14 : U64
  field50 : U64
  field60 : U64
  field64 : U64
  reg : U64
  field6c : U64
  field70 : U64

/-- The globals that the code sets, but for `tsd_last_queued_interrupt`. -/
structure DemuxGlobals where
  dmaBitmask : U64
  devBitmask : U64
  demuxInited : U8
  demuxPcrPid : U32
  crcTable : U8 → U32
  dmaChan : Vector DemuxDmaControl 44
  demuxDevList : Vector DemuxDev 32

/-- `array[i] = entry`; `none` is an access outside of the array. -/
def storeAt {α : Type} {n : Nat} (array : Vector α n) (i : U64) (entry : α) :
    Option (Vector α n) :=
  if h : i.toNat < n then some (array.set i.toNat entry h) else none

/-- The loop over `dma_chan`, which is bounded by the register; `none` is an access outside of
the array or a loop still running after `fuel` rounds. -/
def dmaChanLoop : Nat → U64 → U64 → Vector DemuxDmaControl 44 →
    Option (Vector DemuxDmaControl 44)
  | 0, _, _, _ => none
  | fuel + 1, reg, i, dmaChan =>
      if reg < 0x24d68 then do
        let dmaChan ← storeAt dmaChan i ⟨0, 0, 0, reg⟩
        dmaChanLoop fuel (reg + 0x20) (i + 1) dmaChan
      else some dmaChan

/-- What a device of the list starts with. -/
def freshDev (reg : U64) : DemuxDev :=
  { field0 := 0, field4 := -1, field8 := 0, fieldC := 0, field10 := -1, field14 := 0,
    field50 := 0, field60 := 0, field64 := 0, reg := reg, field6c := 0, field70 := 0 }

/-- The five registers of a device. -/
def devWrites (reg : U64) : List (U32 × U32) :=
  [(reg.setWidth 32, 0x3fff), ((reg + 4).setWidth 32, 0xa0), ((reg + 8).setWidth 32, 0),
    ((reg + 0xc).setWidth 32, 0), ((reg + 0x10).setWidth 32, 0)]

/-- The loop over `demux_dev_list`, and the registers it writes. -/
def devLoop : Nat → U64 → U64 → Vector DemuxDev 32 →
    Option (Vector DemuxDev 32 × List (U32 × U32))
  | 0, _, _, _ => none
  | fuel + 1, reg, i, devList =>
      if i < 32 then do
        let devList ← storeAt devList i (freshDev reg)
        let (devList, writes) ← devLoop fuel (reg + 0x14) (i + 1) devList
        some (devList, devWrites reg ++ writes)
      else some (devList, [])

/-- A loop that zeroes the registers up to the last one. -/
def zeroLoop (fuel : Nat) (first last : U64) : Option (List (U32 × U32)) :=
  forLoop (fun i => i ≤ last) 4 (fun i => some [(i.setWidth 32, 0)]) fuel first

/-- Everything before the read of register `0x27814`: the globals as they are left there, and
the registers written, in order. -/
def demuxSetUp (fuel : Nat) (g : DemuxGlobals) :
    Option (DemuxGlobals × List (U32 × U32)) := do
  let dmaChan ← dmaChanLoop fuel 0x247e8 0 g.dmaChan
  let (devList, devs) ← devLoop fuel 0x24568 0 g.demuxDevList
  let zeros ← zeroLoop fuel 0x25718 0x25764
  let moreZeros ← zeroLoop fuel 0x257f0 0x257fc
  some
    ({ g with
        dmaBitmask := 0, devBitmask := 0, demuxInited := 1, demuxPcrPid := 0xff,
        dmaChan := dmaChan, demuxDevList := devList, crcTable := crcEntry 64 },
      devs ++ zeros ++ moreZeros ++ [(0x27810, 0x5000)])

/-- The register where the `i`-th device begins. -/
def devReg (i : Nat) : U64 := BitVec.ofNat 64 (0x24568 + 0x14 * i)

/-- The register where the `i`-th DMA channel begins. -/
def chanReg (i : Nat) : U64 := BitVec.ofNat 64 (0x247e8 + 0x20 * i)

/-- The registers that are written before the handshake, in order. -/
def demuxWrites : List (U32 × U32) :=
  ((List.range 32).flatMap fun i => devWrites (devReg i)) ++
    ((List.range 20).map fun i => (BitVec.ofNat 32 (0x25718 + 4 * i), 0)) ++
    ((List.range 4).map fun i => (BitVec.ofNat 32 (0x257f0 + 4 * i), 0)) ++ [(0x27810, 0x5000)]

/-- The globals afterwards. -/
def demuxReady : DemuxGlobals :=
  { dmaBitmask := 0, devBitmask := 0, demuxInited := 1, demuxPcrPid := 0xff,
    crcTable := crcEntry 64,
    dmaChan := Vector.ofFn fun i : Fin 44 => ⟨0, 0, 0, chanReg i⟩,
    demuxDevList := Vector.ofFn fun i : Fin 32 => freshDev (devReg i) }

/-- Each entry of the tables has the registers behind those of the entry before it, the
channels come behind the devices, and only the devices' registers are in the set-up. -/
structure TablesReady (g : DemuxGlobals) (writes : List (U32 × U32)) : Prop where
  devs : ∀ i (hi : i < 32), g.demuxDevList[i].reg.toNat = 0x24568 + 0x14 * i
  chans : ∀ i (hi : i < 44), g.dmaChan[i].reg.toNat = 0x24568 + 0x14 * 32 + 0x20 * i
  owned : ∀ i (hi : i < 32), ∀ w ∈ devWrites g.demuxDevList[i].reg, w ∈ writes
  free : ∀ i (hi : i < 44), ∀ w ∈ writes,
    w.1.toNat < g.dmaChan[i].reg.toNat ∨ g.dmaChan[43].reg.toNat + 0x20 ≤ w.1.toNat

/-! ## The loops over the tables -/

/-- The entries below an index are set, and the others are as they were. -/
def Filled {α : Type} {n : Nat} (array old : Vector α n) (entry : Nat → α) (k : Nat) : Prop :=
  ∀ i (hi : i < n), array[i] = if i < k then entry i else old[i]

theorem Filled.store {α : Type} {n : Nat} {array old : Vector α n} {entry : Nat → α} {k : Nat}
    (h : Filled array old entry k) {i : U64} (hi : i.toNat = k) (hk : k < n) :
    ∃ array', storeAt array i (entry k) = some array' ∧ Filled array' old entry (k + 1) := by
  subst hi
  refine ⟨array.set i.toNat (entry i.toNat) hk, dif_pos hk, ?_⟩
  intro j hj
  rw [Vector.getElem_set]
  split_ifs with heq hlt hlt
  · rw [heq]
  · omega
  · rw [h j hj, if_pos (by omega)]
  · rw [h j hj, if_neg (by omega)]

theorem Filled.eq_ofFn {α : Type} {n : Nat} {array old : Vector α n} {entry : Nat → α}
    (h : Filled array old entry n) : array = Vector.ofFn fun i : Fin n => entry i := by
  ext i hi
  rw [h i hi, if_pos hi, Vector.getElem_ofFn]

/-- The counter of a loop over registers, one stride on. -/
theorem ofNat_stride (base stride k : Nat) :
    BitVec.ofNat 64 (base + stride * k) + BitVec.ofNat 64 stride =
      BitVec.ofNat 64 (base + stride * (k + 1)) := by
  rw [← BitVec.ofNat_add, Nat.mul_succ, Nat.add_assoc]

/-- The loop over the channels ends with the last of the 44. -/
theorem dmaChanLoop_filled (old : Vector DemuxDmaControl 44) (n : Nat) {k fuel : Nat}
    {dmaChan : Vector DemuxDmaControl 44} (hk : k + n = 44) (hfuel : n < fuel)
    (h : Filled dmaChan old (fun i => ⟨0, 0, 0, chanReg i⟩) k) :
    ∃ dmaChan', dmaChanLoop fuel (chanReg k) (BitVec.ofNat 64 k) dmaChan = some dmaChan' ∧
      Filled dmaChan' old (fun i => ⟨0, 0, 0, chanReg i⟩) 44 := by
  induction n generalizing k fuel dmaChan with
  | zero =>
      obtain ⟨fuel, rfl⟩ : ∃ m, fuel = m + 1 := ⟨fuel - 1, by omega⟩
      have hk : k = 44 := by omega
      subst hk
      exact ⟨dmaChan, rfl, h⟩
  | succ n ih =>
      obtain ⟨fuel, rfl⟩ : ∃ m, fuel = m + 1 := ⟨fuel - 1, by omega⟩
      have hreg : chanReg k < 0x24d68 := by
        rw [BitVec.lt_def, chanReg, BitVec.toNat_ofNat]
        have hbound : (0x24d68 : U64).toNat = 0x24d68 := rfl
        omega
      have hindex : (BitVec.ofNat 64 k).toNat = k := by
        rw [BitVec.toNat_ofNat]
        omega
      obtain ⟨next, hstore, hnext⟩ := h.store hindex (by omega)
      have hrest := ih (k := k + 1) (by omega) (by omega : n < fuel) hnext
      have hnextReg : chanReg k + 0x20 = chanReg (k + 1) := ofNat_stride 0x247e8 0x20 k
      have hnextIndex : BitVec.ofNat 64 k + 1 = BitVec.ofNat 64 (k + 1) := by
        rw [BitVec.ofNat_add]
        rfl
      rw [dmaChanLoop, if_pos hreg, hstore, hnextReg, hnextIndex]
      exact hrest

/-- The loop over the devices writes the registers of each one. -/
theorem devLoop_filled (old : Vector DemuxDev 32) (n : Nat) {k fuel : Nat}
    {devList : Vector DemuxDev 32} (hk : k + n = 32) (hfuel : n < fuel)
    (h : Filled devList old (fun i => freshDev (devReg i)) k) :
    ∃ devList', devLoop fuel (devReg k) (BitVec.ofNat 64 k) devList =
        some (devList', (List.range n).flatMap fun i => devWrites (devReg (k + i))) ∧
      Filled devList' old (fun i => freshDev (devReg i)) 32 := by
  induction n generalizing k fuel devList with
  | zero =>
      obtain ⟨fuel, rfl⟩ : ∃ m, fuel = m + 1 := ⟨fuel - 1, by omega⟩
      have hk : k = 32 := by omega
      subst hk
      exact ⟨devList, rfl, h⟩
  | succ n ih =>
      obtain ⟨fuel, rfl⟩ : ∃ m, fuel = m + 1 := ⟨fuel - 1, by omega⟩
      have hindex : (BitVec.ofNat 64 k).toNat = k := by
        rw [BitVec.toNat_ofNat]
        omega
      have hround : BitVec.ofNat 64 k < (32 : U64) := by
        rw [BitVec.lt_def, hindex]
        have hbound : (32 : U64).toNat = 32 := rfl
        omega
      obtain ⟨next, hstore, hnext⟩ := h.store hindex (by omega)
      obtain ⟨devList', hrest, hfilled⟩ :=
        ih (k := k + 1) (by omega) (by omega : n < fuel) hnext
      have hnextReg : devReg k + 0x14 = devReg (k + 1) := ofNat_stride 0x24568 0x14 k
      have hnextIndex : BitVec.ofNat 64 k + 1 = BitVec.ofNat 64 (k + 1) := by
        rw [BitVec.ofNat_add]
        rfl
      have hlater : (fun i => devWrites (devReg (k + 1 + i))) =
          fun i => devWrites (devReg (k + (i + 1))) := by
        ext1 i
        rw [Nat.add_assoc, Nat.add_comm 1 i]
      refine ⟨devList', ?_, hfilled⟩
      rw [devLoop, if_pos hround, hstore, hnextReg, hnextIndex, List.range_succ_eq_map,
        List.flatMap_cons, List.flatMap_map, Nat.add_zero, ← hlater]
      show (devLoop fuel (devReg (k + 1)) (BitVec.ofNat 64 (k + 1)) next).bind _ = _
      rw [hrest]
      rfl

/-- A loop over registers below `2 ^ 32` zeroes each of them. -/
theorem zeroLoop_eq (first last n : Nat) {fuel : Nat} (hlast : first + 4 * n = last + 4)
    (hbound : last + 4 < 2 ^ 32) (hfuel : n < fuel) :
    zeroLoop fuel (BitVec.ofNat 64 first) (BitVec.ofNat 64 last) =
      some ((List.range n).map fun i => (BitVec.ofNat 32 (first + 4 * i), 0)) := by
  have hstart : (BitVec.ofNat 64 first).toNat = first := by
    rw [BitVec.toNat_ofNat]
    omega
  have hend : (BitVec.ofNat 64 last).toNat = last := by
    rw [BitVec.toNat_ofNat]
    omega
  have hstride : (4 : U64).toNat = 4 := rfl
  have hcounter {k : Nat} (hk : k ≤ n) :
      (counter (BitVec.ofNat 64 first) (4 : U64) k).toNat = first + 4 * k := by
    rw [counter_toNat (by rw [hstart, hstride]; omega), hstart, hstride, Nat.mul_comm]
  rw [List.map_eq_flatMap]
  refine forLoop_eq ?_ ?_ ?_ hfuel
  · intro k hk
    rw [BitVec.le_def, hcounter (by omega), hend]
    omega
  · rw [BitVec.le_def, hcounter (Nat.le_refl n), hend]
    omega
  · intro k hk
    have hreg : (counter (BitVec.ofNat 64 first) (4 : U64) k).setWidth 32 =
        BitVec.ofNat 32 (first + 4 * k) := by
      apply BitVec.eq_of_toNat_eq
      rw [BitVec.toNat_setWidth, hcounter (by omega), BitVec.toNat_ofNat]
    rw [hreg]

/-- What the code does before the handshake, with enough fuel for its loops. -/
theorem demuxSetUp_eq (g : DemuxGlobals) {fuel : Nat} (hfuel : 44 < fuel) :
    demuxSetUp fuel g = some (demuxReady, demuxWrites) := by
  obtain ⟨dmaChan, hchan, hchanFilled⟩ :=
    dmaChanLoop_filled g.dmaChan 44 (k := 0) rfl hfuel (fun _ _ => rfl)
  obtain ⟨devList, hdev, hdevFilled⟩ :=
    devLoop_filled g.demuxDevList 32 (k := 0) rfl (by omega : 32 < fuel)
      (fun _ _ => rfl)
  have hzeros := zeroLoop_eq 0x25718 0x25764 20 rfl (by omega)
    (by omega : 20 < fuel)
  have hmoreZeros := zeroLoop_eq 0x257f0 0x257fc 4 rfl (by omega)
    (by omega : 4 < fuel)
  have hchan' : dmaChanLoop fuel 0x247e8 0 g.dmaChan = some dmaChan := hchan
  have hdev' : devLoop fuel 0x24568 0 g.demuxDevList = some (devList, _) := hdev
  have hzeros' : zeroLoop fuel 0x25718 0x25764 = some _ := hzeros
  have hmoreZeros' : zeroLoop fuel 0x257f0 0x257fc = some _ := hmoreZeros
  rw [demuxSetUp, hchan', hdev', hzeros', hmoreZeros', demuxReady, ← hchanFilled.eq_ofFn,
    ← hdevFilled.eq_ofFn]
  simp [demuxWrites]

/-! ## The registers of the set-up -/

/-- The registers of the devices follow each other without a gap. -/
theorem devWrites_regs (n : Nat) :
    (((List.range n).flatMap fun i => devWrites (devReg i)).map Prod.fst) =
      (List.range (5 * n)).map fun j => BitVec.ofNat 32 (0x24568 + 4 * j) := by
  induction n with
  | zero => rfl
  | succ n ih =>
      have hfive : List.range (5 * (n + 1)) =
          List.range (5 * n) ++ [5 * n, 5 * n + 1, 5 * n + 2, 5 * n + 3, 5 * n + 4] := by
        rw [Nat.mul_succ, List.range_add]
        rfl
      have hreg (j : Nat) : (devReg n + BitVec.ofNat 64 (4 * j)).setWidth 32 =
          BitVec.ofNat 32 (0x24568 + 4 * (5 * n + j)) := by
        apply BitVec.eq_of_toNat_eq
        rw [devReg, ← BitVec.ofNat_add, BitVec.toNat_setWidth, BitVec.toNat_ofNat,
          BitVec.toNat_ofNat]
        omega
      have hfirst : (devReg n).setWidth 32 = BitVec.ofNat 32 (0x24568 + 4 * (5 * n)) := by
        simpa using hreg 0
      have hwindow : (devWrites (devReg n)).map Prod.fst =
          [5 * n, 5 * n + 1, 5 * n + 2, 5 * n + 3, 5 * n + 4].map
            fun j => BitVec.ofNat 32 (0x24568 + 4 * j) := by
        simp only [devWrites, List.map_cons, List.map_nil, ← hreg, hfirst]
        rfl
      rw [List.range_succ, List.flatMap_append, List.map_append, ih, hfive, List.map_append]
      simp [hwindow]

/-- The registers of the set-up, in order. -/
theorem demuxWrites_regs : (demuxWrites.map fun w => w.1.toNat) =
    (List.range 160).map (fun j => 0x24568 + 4 * j) ++
      (List.range 20).map (fun j => 0x25718 + 4 * j) ++
      (List.range 4).map (fun j => 0x257f0 + 4 * j) ++ [0x27810] := by
  have hdevs := congrArg (List.map BitVec.toNat) (devWrites_regs 32)
  rw [List.map_map, List.map_map] at hdevs
  have hsplit : (fun w : U32 × U32 => w.1.toNat) = BitVec.toNat ∘ Prod.fst := rfl
  rw [demuxWrites, hsplit, List.map_append, List.map_append, List.map_append, hdevs]
  rfl

/-- The registers of the set-up come in increasing order. -/
theorem demuxWrites_sorted : (demuxWrites.map fun w => w.1.toNat).Pairwise (· < ·) := by
  have hstride (n base : Nat) :
      ((List.range n).map fun j => base + 4 * j).Pairwise (· < ·) := by
    rw [List.pairwise_map]
    exact List.pairwise_lt_range.imp (by omega)
  rw [demuxWrites_regs, List.pairwise_append, List.pairwise_append, List.pairwise_append]
  refine ⟨⟨⟨hstride 160 _, hstride 20 _, ?_⟩, hstride 4 _, ?_⟩, List.pairwise_singleton _ _, ?_⟩
  all_goals
    intro a ha b hb
    simp at ha hb
    omega

/-- No register is set up twice. -/
theorem demuxWrites_unique {reg value value' : U32} (h : (reg, value) ∈ demuxWrites)
    (h' : (reg, value') ∈ demuxWrites) : value = value' := by
  have hnodup : (demuxWrites.map Prod.fst).Nodup := by
    have hsorted := demuxWrites_sorted
    rw [List.pairwise_map] at hsorted
    rw [List.Nodup, List.pairwise_map]
    refine hsorted.imp ?_
    intro a b hlt heq
    rw [heq] at hlt
    omega
  exact List.inj_on_of_nodup_map hnodup h h' rfl |> Prod.mk.inj |>.2

/-- Where the registers of the set-up are. -/
theorem demuxWrites_inside {w : U32 × U32} (h : w ∈ demuxWrites) :
    w.1.toNat < 0x247e8 ∨ (0x25718 ≤ w.1.toNat ∧ w.1.toNat < 0x25800) ∨
      w.1.toNat = 0x27810 := by
  have hmem : w.1.toNat ∈ demuxWrites.map fun w => w.1.toNat := List.mem_map.mpr ⟨w, h, rfl⟩
  rw [demuxWrites_regs] at hmem
  simp at hmem
  rcases hmem with ⟨j, hj, heq⟩ | ⟨j, hj, heq⟩ | ⟨j, hj, heq⟩ | heq
  · omega
  · omega
  · omega
  · exact Or.inr (Or.inr heq)

/-- The tables go with the set-up. -/
theorem demuxReady_tables : TablesReady demuxReady demuxWrites where
  devs i hi := by
    simp only [demuxReady, Vector.getElem_ofFn, freshDev, devReg, BitVec.toNat_ofNat]
    omega
  chans i hi := by
    simp only [demuxReady, Vector.getElem_ofFn, chanReg, BitVec.toNat_ofNat]
    omega
  owned i hi w hw := by
    simp only [demuxReady, Vector.getElem_ofFn, freshDev] at hw
    simp only [demuxWrites, List.mem_append, List.mem_flatMap, List.mem_range]
    exact Or.inl (Or.inl (Or.inl ⟨i, hi, hw⟩))
  free i hi w hw := by
    have hinside := demuxWrites_inside hw
    simp only [demuxReady, Vector.getElem_ofFn, chanReg, BitVec.toNat_ofNat]
    omega

end Tl880
