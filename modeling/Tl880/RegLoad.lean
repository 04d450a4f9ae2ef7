import Tl880.Registers
import Mathlib.Data.List.Basic

/-!
# Loading a register dump

`tools/regload.c` reads a dump of the register space from a file into the mapped registers.
`tools/regloadslow.c` does so up to a register, and from there on writes the words of the file
one by one with an ioctl.  Its loop starts at that register even if it is before the start
address or was not given, and goes on to the end of the register space with the last word of
the file.

A dump is the list of its words, and a read gets as many of them as there are.
-/

namespace Tl880

/-! ## The tools -/

/-- The registers, and which of them were written, the last one first. -/
structure RegLoad where
  cell : U32 → U32
  written : List U32

namespace RegLoad

/-- A register is written in the mapping. -/
def write (s : RegLoad) (reg value : U32) : RegLoad where
  cell := Function.update s.cell reg value
  written := reg :: s.written

/-- `read` of words of the file into the mapped registers from `reg` on -/
def readInto (s : RegLoad) (reg : U32) : List U32 → RegLoad
  | [] => s
  | word :: words => (s.write reg word).readInto (reg + 4) words

/-- `write_register` of the slow tool, an ioctl that ends in `tl880_write_register` -/
def writeRegister (s : RegLoad) (reg value : U32) : RegLoad where
  cell := (tl880WriteRegister ⟨true, s.cell⟩ reg value).cell
  written := if 0x100000#32 ≤ reg then s.written else reg :: s.written

end RegLoad

/-- The addresses on the command line, as `strtoul` returns them. -/
structure LoadArgs where
  startAddr : Option U64
  slowAt : Option U64

/-- An address, a multiple of four, and 0 if it is not given. -/
def argAddr : Option U64 → U32
  | none => 0
  | some arg => ((arg >>> 2) <<< 2).setWidth 32

/-- `regload` -/
def regload (args : LoadArgs) (file : List U32) (cell : U32 → U32) : RegLoad :=
  RegLoad.readInto ⟨cell, []⟩ (argAddr args.startAddr) (file.take (0x40000 / 4))

/-- The slow loop.  A read at the end of the file leaves `regval` as it is. -/
def slowLoop (reg regval : U32) (file : List U32) (s : RegLoad) : RegLoad :=
  if reg < 0x40000 then
    slowLoop (reg + 4) (file.headD regval) file.tail (s.writeRegister reg (file.headD regval))
  else s
termination_by 0x40000 - reg.toNat
decreasing_by
  have hreg : reg.toNat < 0x40000 := by simpa [BitVec.lt_def] using ‹reg < 0x40000›
  have hnext : (reg + 4).toNat = reg.toNat + 4 := nextDword_toNat (by omega)
  omega

/-- `regloadslow` -/
def regloadslow (args : LoadArgs) (file : List U32) (cell : U32 → U32) : RegLoad :=
  let start := argAddr args.startAddr
  let slowAt := argAddr args.slowAt
  if slowAt > 0 ∧ slowAt > start then
    slowLoop slowAt 0 (file.drop ((slowAt - start).toNat / 4))
      (RegLoad.readInto ⟨cell, []⟩ start (file.take ((slowAt - start).toNat / 4)))
  else slowLoop slowAt 0 file ⟨cell, []⟩

/-! ## What is loaded -/

/-- The slow tool leaves what the fast one leaves: the words of the file from the start address
on, and nothing else is written. -/
structure LoadsSame (args : LoadArgs) (file : List U32) (cell : U32 → U32) : Prop where
  same : ∀ reg, (regloadslow args file cell).cell reg = (regload args file cell).cell reg
  loaded : ∀ k (hk : k < file.length),
    (regloadslow args file cell).cell (argAddr args.startAddr + BitVec.ofNat 32 (4 * k)) =
      file[k]
  inside : ∀ reg ∈ (regloadslow args file cell).written,
    (argAddr args.startAddr).toNat ≤ reg.toNat ∧
      reg.toNat < (argAddr args.startAddr).toNat + 4 * file.length

/-- The dump fits in the register space behind the start address. -/
def DumpFits (args : LoadArgs) (file : List U32) : Prop :=
  (argAddr args.startAddr).toNat < 0x40000 ∧
    4 * file.length ≤ 0x40000 - (argAddr args.startAddr).toNat

/-- The slow loop has nothing to do, or it starts within the dump and the dump goes on to the
end of the register space. -/
def SlowLoopFits (args : LoadArgs) (file : List U32) : Prop :=
  0x40000 ≤ (argAddr args.slowAt).toNat ∨
    (argAddr args.startAddr).toNat ≤ (argAddr args.slowAt).toNat ∧
      4 * file.length = 0x40000 - (argAddr args.startAddr).toNat

/-! ## Addresses -/

theorem argAddr_dvd (arg : Option U64) : 4 ∣ (argAddr arg).toNat := by
  cases arg with
  | none => exact Nat.dvd_zero 4
  | some arg =>
      rw [argAddr, BitVec.toNat_setWidth, BitVec.toNat_shiftLeft, BitVec.toNat_ushiftRight,
        Nat.shiftLeft_eq, Nat.shiftRight_eq_div_pow]
      omega

theorem lt_regs_iff (reg : U32) : reg < 0x40000 ↔ reg.toNat < 0x40000 := BitVec.lt_def

/-- The register of word `k` of the rest is that of word `k + 1`. -/
theorem reg_add_words (reg : U32) (k : Nat) :
    reg + 4 + BitVec.ofNat 32 (4 * k) = reg + BitVec.ofNat 32 (4 * (k + 1)) := by
  rw [BitVec.add_assoc, Nat.mul_succ, Nat.add_comm, BitVec.ofNat_add]
  rfl

/-! ## Reading into the mapping -/

theorem RegLoad.readInto_append (s : RegLoad) (reg : U32) (words words' : List U32) :
    s.readInto reg (words ++ words') =
      (s.readInto reg words).readInto (reg + BitVec.ofNat 32 (4 * words.length)) words' := by
  induction words generalizing s reg with
  | nil => simp [readInto]
  | cons word words ih =>
      rw [List.cons_append, readInto, ih, readInto, reg_add_words, List.length_cons]

/-- Words may be read in two parts. -/
theorem RegLoad.readInto_split (s : RegLoad) (reg : U32) {words : List U32} {n : Nat}
    (hn : n ≤ words.length) :
    (s.readInto reg (words.take n)).readInto (reg + BitVec.ofNat 32 (4 * n)) (words.drop n) =
      s.readInto reg words := by
  have happend := s.readInto_append reg (words.take n) (words.drop n)
  rw [List.take_append_drop, List.length_take_of_le hn] at happend
  exact happend.symm

/-- Only the registers from `reg` on are written. -/
theorem RegLoad.readInto_written {s : RegLoad} {reg : U32} {words : List U32}
    (hfits : reg.toNat + 4 * words.length ≤ 0x40000) {r : U32}
    (hr : r ∈ (s.readInto reg words).written) :
    r ∈ s.written ∨ reg.toNat ≤ r.toNat ∧ r.toNat < reg.toNat + 4 * words.length := by
  induction words generalizing s reg with
  | nil => exact Or.inl hr
  | cons word words ih =>
      rw [List.length_cons] at hfits ⊢
      have hnext : (reg + 4).toNat = reg.toNat + 4 := nextDword_toNat (by omega)
      rcases ih (by omega) hr with hbefore | hrest
      · rcases List.mem_cons.mp hbefore with rfl | hbefore
        · right
          omega
        · exact Or.inl hbefore
      · right
        omega

/-- The registers before `reg` stay. -/
theorem RegLoad.readInto_before {s : RegLoad} {reg : U32} {words : List U32}
    (hfits : reg.toNat + 4 * words.length ≤ 0x40000) {r : U32} (hr : r.toNat < reg.toNat) :
    (s.readInto reg words).cell r = s.cell r := by
  induction words generalizing s reg with
  | nil => rfl
  | cons word words ih =>
      rw [List.length_cons] at hfits
      have hnext : (reg + 4).toNat = reg.toNat + 4 := nextDword_toNat (by omega)
      have hne : r ≠ reg := by
        rintro rfl
        omega
      rw [readInto, ih (by omega) (by omega)]
      exact Function.update_of_ne hne _ _

/-- Each word goes to its register. -/
theorem RegLoad.readInto_loaded {s : RegLoad} {reg : U32} {words : List U32}
    (hfits : reg.toNat + 4 * words.length ≤ 0x40000) (k : Nat) (hk : k < words.length) :
    (s.readInto reg words).cell (reg + BitVec.ofNat 32 (4 * k)) = words[k] := by
  induction words generalizing s reg k with
  | nil => simp at hk
  | cons word words ih =>
      rw [List.length_cons] at hfits hk
      have hnext : (reg + 4).toNat = reg.toNat + 4 := nextDword_toNat (by omega)
      rw [readInto]
      cases k with
      | zero =>
          have hreg : reg + BitVec.ofNat 32 (4 * 0) = reg := BitVec.add_zero reg
          rw [hreg, readInto_before (by omega) (by omega)]
          exact Function.update_self _ _ _
      | succ k =>
          rw [← reg_add_words, ih (by omega) k (by omega)]
          rfl

/-! ## The slow loop -/

/-- Below the end of the register space the ioctl writes as the mapping does. -/
theorem RegLoad.writeRegister_eq {reg : U32} (hreg : reg.toNat < 0x40000) (s : RegLoad)
    (value : U32) : s.writeRegister reg value = s.write reg value := by
  have hspace : ¬ 0x100000#32 ≤ reg := by
    rw [BitVec.le_def]
    simp
    omega
  have hcell : tl880WriteRegister ⟨true, s.cell⟩ reg value =
      ⟨true, Function.update s.cell reg value⟩ := by
    rw [tl880WriteRegister, if_neg (by simp), if_neg hspace]
  rw [writeRegister, hcell, if_neg hspace, write]

theorem slowLoop_done {reg : U32} (hreg : 0x40000 ≤ reg.toNat) (regval : U32) (file : List U32)
    (s : RegLoad) : slowLoop reg regval file s = s := by
  rw [slowLoop, if_neg]
  rw [lt_regs_iff]
  omega

theorem slowLoop_round {reg : U32} (hreg : reg.toNat < 0x40000) (regval : U32)
    (file : List U32) (s : RegLoad) :
    slowLoop reg regval file s =
      slowLoop (reg + 4) (file.headD regval) file.tail (s.write reg (file.headD regval)) := by
  rw [slowLoop, if_pos ((lt_regs_iff reg).mpr hreg), RegLoad.writeRegister_eq hreg]

/-- If the file ends where the register space does, the loop loads it as a read would. -/
theorem slowLoop_eq_readInto {reg : U32} (regval : U32) {file : List U32} (s : RegLoad)
    (hend : reg.toNat + 4 * file.length = 0x40000) :
    slowLoop reg regval file s = s.readInto reg file := by
  induction file generalizing reg regval s with
  | nil => exact slowLoop_done (by simp at hend; omega) regval [] s
  | cons word words ih =>
      rw [List.length_cons] at hend
      have hnext : (reg + 4).toNat = reg.toNat + 4 := nextDword_toNat (by omega)
      rw [slowLoop_round (by omega)]
      exact ih word _ (by omega)

/-- The loop writes every register from the first one on, whatever the file. -/
theorem slowLoop_written (reg regval : U32) (file : List U32) (s : RegLoad) :
    (∀ r ∈ s.written, r ∈ (slowLoop reg regval file s).written) ∧
      ∀ r : U32, reg.toNat ≤ r.toNat → r.toNat < 0x40000 → 4 ∣ r.toNat - reg.toNat →
        r ∈ (slowLoop reg regval file s).written := by
  by_cases hreg : reg.toNat < 0x40000
  · have hnext : (reg + 4).toNat = reg.toNat + 4 := nextDword_toNat (by omega)
    obtain ⟨hkept, hlater⟩ := slowLoop_written (reg + 4) (file.headD regval) file.tail
      (s.write reg (file.headD regval))
    rw [slowLoop_round hreg]
    constructor
    · intro r hr
      exact hkept r (List.mem_cons_of_mem reg hr)
    · intro r hle hlt hdvd
      by_cases hsame : r.toNat = reg.toNat
      · rw [BitVec.eq_of_toNat_eq hsame]
        exact hkept reg List.mem_cons_self
      · exact hlater r (by omega) hlt (by omega)
  · rw [slowLoop_done (by omega)]
    refine ⟨fun r hr => hr, ?_⟩
    intro r hle hlt _
    omega
termination_by 0x40000 - reg.toNat

/-! ## Both tools -/

/-- A dump that fits is read as a whole. -/
theorem regload_eq {args : LoadArgs} {file : List U32} (hfits : DumpFits args file)
    (cell : U32 → U32) :
    regload args file cell = RegLoad.readInto ⟨cell, []⟩ (argAddr args.startAddr) file := by
  obtain ⟨-, hsize⟩ := hfits
  rw [regload, List.take_of_length_le (by omega)]

/-- Where the slow loop fits, the slow tool does what the fast one does. -/
theorem regloadslow_eq {args : LoadArgs} {file : List U32} (hfits : DumpFits args file)
    (hslow : SlowLoopFits args file) (cell : U32 → U32) :
    regloadslow args file cell = RegLoad.readInto ⟨cell, []⟩ (argAddr args.startAddr) file := by
  obtain ⟨hstart, hsize⟩ := hfits
  have hstartDvd := argAddr_dvd args.startAddr
  have hslowDvd := argAddr_dvd args.slowAt
  have hlater : argAddr args.slowAt > argAddr args.startAddr ↔
      (argAddr args.startAddr).toNat < (argAddr args.slowAt).toNat := BitVec.lt_def
  have hzero : argAddr args.slowAt > 0 ↔ 0 < (argAddr args.slowAt).toNat := BitVec.lt_def
  have hsub (hle : (argAddr args.startAddr).toNat ≤ (argAddr args.slowAt).toNat) :
      (argAddr args.slowAt - argAddr args.startAddr).toNat =
        (argAddr args.slowAt).toNat - (argAddr args.startAddr).toNat :=
    BitVec.toNat_sub_of_le (BitVec.le_def.mpr hle)
  unfold regloadslow
  dsimp only
  by_cases hpast : 0x40000 ≤ (argAddr args.slowAt).toNat
  · -- the read gets all of the file
    rw [if_pos ⟨hzero.mpr (by omega), hlater.mpr (by omega)⟩, hsub (by omega),
      slowLoop_done hpast, List.take_of_length_le (by omega)]
  · obtain ⟨hle, hend⟩ := hslow.resolve_left hpast
    by_cases hread : (argAddr args.startAddr).toNat < (argAddr args.slowAt).toNat
    · -- the loop loads what the read has left
      rw [if_pos ⟨hzero.mpr (by omega), hlater.mpr hread⟩, hsub hle]
      have hn : ((argAddr args.slowAt).toNat - (argAddr args.startAddr).toNat) / 4 ≤
          file.length := by omega
      rw [slowLoop_eq_readInto 0, ← RegLoad.readInto_split ⟨cell, []⟩ _ hn]
      · congr 1
        apply BitVec.eq_of_toNat_eq
        rw [BitVec.toNat_add, BitVec.toNat_ofNat]
        omega
      · rw [List.length_drop]
        omega
    · have hsame : argAddr args.slowAt = argAddr args.startAddr :=
        BitVec.eq_of_toNat_eq (by omega)
      rw [if_neg (fun h => hread (hlater.mp h.2)), hsame]
      exact slowLoop_eq_readInto 0 _ (by omega)

/-- The slow tool writes every register from the one it slows down at. -/
theorem regloadslow_written (args : LoadArgs) (file : List U32) (cell : U32 → U32) {r : U32}
    (hle : (argAddr args.slowAt).toNat ≤ r.toNat) (hlt : r.toNat < 0x40000)
    (hdvd : 4 ∣ r.toNat - (argAddr args.slowAt).toNat) :
    r ∈ (regloadslow args file cell).written := by
  unfold regloadslow
  dsimp only
  split_ifs
  · exact (slowLoop_written _ 0 _ _).2 r hle hlt hdvd
  · exact (slowLoop_written _ 0 _ _).2 r hle hlt hdvd

/-- The slow tool loads what the fast one loads exactly when the slow loop fits. -/
theorem regloadslow_loads_iff {args : LoadArgs} {file : List U32} (hfits : DumpFits args file)
    (cell : U32 → U32) : LoadsSame args file cell ↔ SlowLoopFits args file := by
  obtain ⟨hstart, hsize⟩ := id hfits
  have hstartDvd := argAddr_dvd args.startAddr
  have hslowDvd := argAddr_dvd args.slowAt
  constructor
  · rintro ⟨-, -, hinside⟩
    unfold SlowLoopFits
    by_cases hpast : 0x40000 ≤ (argAddr args.slowAt).toNat
    · exact Or.inl hpast
    · -- the first register of the loop and the last one
      have hend : (0x3fffc : U32).toNat = 0x3fffc := rfl
      obtain ⟨hfirst, -⟩ := hinside (argAddr args.slowAt)
        (regloadslow_written args file cell (Nat.le_refl _) (by omega) (by simp))
      obtain ⟨-, hlast⟩ := hinside 0x3fffc
        (regloadslow_written args file cell (by omega) (by omega) (by omega))
      right
      omega
  · intro hslow
    have heq := regloadslow_eq hfits hslow cell
    have hbound : (argAddr args.startAddr).toNat + 4 * file.length ≤ 0x40000 := by omega
    refine ⟨?_, ?_, ?_⟩
    · intro reg
      rw [heq, regload_eq hfits]
    · intro k hk
      rw [heq]
      exact RegLoad.readInto_loaded hbound k hk
    · intro reg hreg
      rw [heq] at hreg
      rcases RegLoad.readInto_written hbound hreg with hbefore | hwithin
      · cases hbefore
      · exact hwithin

/-- The last two registers, of which the second one is loaded by the slow loop. -/
theorem regloadslow_loads_iff_two :
    LoadsSame ⟨some 0x3fff8, some 0x3fffc⟩ [0xdead, 0xbeef] fun _ => 0 :=
  (regloadslow_loads_iff ⟨by decide, by decide⟩ fun _ => 0).mpr (Or.inr (by decide))

/-- With a start address only, register 0 is written. -/
theorem regloadslow_start_ignored :
    ¬ ∀ (args : LoadArgs) (file : List U32) (cell : U32 → U32),
      DumpFits args file → LoadsSame args file cell := by
  intro hall
  have hloads := hall ⟨some 0x100, none⟩ [0xdead] (fun _ => 0) ⟨by decide, by decide⟩
  have hwritten : (0 : U32) ∈ (regloadslow ⟨some 0x100, none⟩ [0xdead] fun _ => 0).written :=
    regloadslow_written _ _ _ (Nat.zero_le _) (by decide) (by decide)
  obtain ⟨hfirst, -⟩ := hloads.inside 0 hwritten
  revert hfirst
  decide

end Tl880
