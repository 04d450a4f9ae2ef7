import Tl880.Registers
import Mathlib.Algebra.Group.Nat.Defs

/-!
# Access to the card's memory

The model of the accessors in `driver/tl880mem.c`, for a device that is not NULL.  The
window behind `memspace` is `memlen` bytes long, and what lies behind its end is a table
of bytes all the same, since nothing but the checks of the accessors keeps an access out
of there.  `touched` records the accesses.

`size_t` and `unsigned long` have 64 bits here.  An accessor stays inside of the window exactly
under the condition `InBounds`: the checks let the end of the window itself pass, they look at
the first of four bytes only, and the sum of an address and a length is taken modulo `2 ^ 64`.
-/

namespace Tl880

/-! ## The driver -/

/-- The memory of a card. -/
structure CardMem where
  /-- `memspace` is not NULL -/
  mapped : Bool
  memlen : U64
  byte : Nat → U8
  /-- the accesses through `memspace`, an offset and a number of bytes each -/
  touched : List (Nat × Nat)

/-- The little-endian dword at an offset. -/
def dwordAt (byte : Nat → U8) (offset : Nat) : U32 :=
  byte (offset + 3) ++ byte (offset + 2) ++ byte (offset + 1) ++ byte offset

def CardMem.touch (m : CardMem) (offset length : Nat) : CardMem :=
  { m with touched := (offset, length) :: m.touched }

/-- `writel` -/
def CardMem.writel (m : CardMem) (offset : Nat) (value : U32) : CardMem :=
  { m.touch offset 4 with
    byte := fun o =>
      if offset ≤ o ∧ o < offset + 4 then (value >>> (8 * (o - offset))).setWidth 8
      else m.byte o }

/-- `tl880_write_memory` -/
def tl880WriteMemory (m : CardMem) (mem value : U32) : CardMem :=
  if m.mapped = false ∨ m.memlen < mem.setWidth 64 then m
  else m.writel mem.toNat value

/-- `tl880_read_memory` -/
def tl880ReadMemory (m : CardMem) (mem : U32) : CardMem × U32 :=
  if m.mapped = false ∨ m.memlen < mem.setWidth 64 then (m, 0)
  else (m.touch mem.toNat 4, dwordAt m.byte mem.toNat)

/-- `tl880_read_membits` -/
def tl880ReadMembits (m : CardMem) (mem : U32) (highBit lowBit : Nat) : CardMem × U32 :=
  let (m, value) := tl880ReadMemory m mem
  (m, (value >>> lowBit) &&& fieldMask highBit lowBit)

/-- `tl880_write_membits` -/
def tl880WriteMembits (m : CardMem) (mem : U32) (highBit lowBit : Nat) (value : U32) :
    CardMem :=
  let (m, curval) := tl880ReadMemory m mem
  tl880WriteMemory m mem (setBits curval highBit lowBit value)

/-- The check of a length against the end of the window. -/
def clampLength (m : CardMem) (addr : U32) (length : U64) : U64 :=
  if m.memlen < addr.setWidth 64 + length then m.memlen - addr.setWidth 64 else length

/-- `tl880_memcpy` -/
def tl880Memcpy (m : CardMem) (src : Option (Nat → U8)) (addr : U32) (length : U64) : CardMem :=
  match src with
  | none => m
  | some src =>
      if m.memlen < addr.setWidth 64 then m
      else
        let length := (clampLength m addr length).toNat
        { m.touch addr.toNat length with
          byte := fun o =>
            if addr.toNat ≤ o ∧ o < addr.toNat + length then src (o - addr.toNat)
            else m.byte o }

/-- A loop over dwords, for at most `fuel` rounds. -/
def dwordLoop (cond : U32 → Bool) (body : U32 → CardMem → CardMem) :
    Nat → U32 → CardMem → CardMem
  | 0, _, m => m
  | fuel + 1, i, m => if cond i then dwordLoop cond body fuel (i + 4) (body i m) else m

/-- `swab32` -/
def swab32 (x : U32) : U32 :=
  (x <<< 24) ||| ((x &&& 0xff00) <<< 8) ||| ((x >>> 8) &&& 0xff00) ||| (x >>> 24)

/-- `swahw32` -/
def swahw32 (x : U32) : U32 := (x <<< 16) ||| (x >>> 16)

/-- The body that `tl880_memcpy_swab32` and `tl880_memcpy_swahw32` share. -/
def memcpySwapped (swap : U32 → U32) (fuel : Nat) (m : CardMem) (src : Option (Nat → U8))
    (addr : U32) (length : U64) : CardMem :=
  match src with
  | none => m
  | some src =>
      if m.memlen < addr.setWidth 64 then m
      else
        let length := clampLength m addr length
        -- the length is not truncated to a multiple of four
        dwordLoop (fun i => (i.setWidth 64 : U64) < addr.setWidth 64 + length)
          (fun i m => tl880WriteMemory m i (swap (dwordAt src (4 * (i / 4).toNat)))) fuel addr m

/-- `tl880_memcpy_swab32` -/
def tl880MemcpySwab32 : Nat → CardMem → Option (Nat → U8) → U32 → U64 → CardMem :=
  memcpySwapped swab32

/-- `tl880_memcpy_swahw32` -/
def tl880MemcpySwahw32 : Nat → CardMem → Option (Nat → U8) → U32 → U64 → CardMem :=
  memcpySwapped swahw32

/-- `tl880_clear_sdram` -/
def tl880ClearSdram (fuel : Nat) (m : CardMem) (startAddr endAddr value : U32) : CardMem :=
  dwordLoop (fun i => i < endAddr ∧ (i.setWidth 64 : U64) < m.memlen)
    (fun i m => tl880WriteMemory m i value) fuel startAddr m

/-- A call of an accessor. -/
inductive MemCall
  | writeMemory (mem value : U32)
  | readMemory (mem : U32)
  | readMembits (mem : U32) (highBit lowBit : Nat)
  | writeMembits (mem : U32) (highBit lowBit : Nat) (value : U32)
  | memcpy (src : Option (Nat → U8)) (addr : U32) (length : U64)
  | memcpySwab32 (src : Option (Nat → U8)) (addr : U32) (length : U64)
  | memcpySwahw32 (src : Option (Nat → U8)) (addr : U32) (length : U64)
  | clearSdram (startAddr endAddr value : U32)

/-- The memory after a call, whose loop has run for at most `fuel` rounds. -/
def memCall (fuel : Nat) (m : CardMem) : MemCall → CardMem
  | .writeMemory mem value => tl880WriteMemory m mem value
  | .readMemory mem => (tl880ReadMemory m mem).1
  | .readMembits mem highBit lowBit => (tl880ReadMembits m mem highBit lowBit).1
  | .writeMembits mem highBit lowBit value => tl880WriteMembits m mem highBit lowBit value
  | .memcpy src addr length => tl880Memcpy m src addr length
  | .memcpySwab32 src addr length => tl880MemcpySwab32 fuel m src addr length
  | .memcpySwahw32 src addr length => tl880MemcpySwahw32 fuel m src addr length
  | .clearSdram startAddr endAddr value => tl880ClearSdram fuel m startAddr endAddr value

/-! ## Inside of the window -/

/-- Every byte of the accesses is in the window. -/
def CardMem.Inside (m : CardMem) : Prop :=
  ∀ access ∈ m.touched, ∀ o, access.1 ≤ o → o < access.1 + access.2 → o < m.memlen.toNat

/-- Every byte that a call accesses is in the window, however long it runs. -/
def StaysInside (m : CardMem) (call : MemCall) : Prop :=
  ∀ fuel, (memCall fuel { m with touched := [] } call).Inside

/-- A dword that the check lets pass is in the window. -/
def DwordFits (m : CardMem) (mem : U32) : Prop :=
  m.mapped = true → mem.toNat ≤ m.memlen.toNat → mem.toNat + 4 ≤ m.memlen.toNat

/-- The dwords from `addr` on that begin below `limit` are in the window. -/
def DwordsFit (m : CardMem) (addr limit : Nat) : Prop :=
  m.mapped = true → addr < limit → addr + (limit - addr + 3) / 4 * 4 ≤ m.memlen.toNat

/-- The sum of an address and a length as the checks see it. -/
def wrappedEnd (addr : U32) (length : U64) : Nat := (addr.toNat + length.toNat) % 2 ^ 64

/-- The condition on the arguments of a call. -/
def InBounds (m : CardMem) : MemCall → Prop
  | .writeMemory mem _ => DwordFits m mem
  | .readMemory mem => DwordFits m mem
  | .readMembits mem _ _ => DwordFits m mem
  | .writeMembits mem _ _ _ => DwordFits m mem
  | .memcpy src addr length =>
      src.isSome → addr.toNat ≤ m.memlen.toNat → wrappedEnd addr length ≤ m.memlen.toNat →
        addr.toNat + length.toNat < 2 ^ 64
  | .memcpySwab32 src addr length =>
      src.isSome → DwordsFit m addr.toNat
        (min (min (wrappedEnd addr length) m.memlen.toNat) (2 ^ 32))
  | .memcpySwahw32 src addr length =>
      src.isSome → DwordsFit m addr.toNat
        (min (min (wrappedEnd addr length) m.memlen.toNat) (2 ^ 32))
  | .clearSdram startAddr endAddr _ =>
      DwordsFit m startAddr.toNat (min endAddr.toNat m.memlen.toNat)

/-! ## Single accesses -/

@[simp] theorem tl880WriteMemory_memlen (m : CardMem) (mem value : U32) :
    (tl880WriteMemory m mem value).memlen = m.memlen := by
  unfold tl880WriteMemory
  split_ifs <;> rfl

@[simp] theorem tl880WriteMemory_mapped (m : CardMem) (mem value : U32) :
    (tl880WriteMemory m mem value).mapped = m.mapped := by
  unfold tl880WriteMemory
  split_ifs <;> rfl

/-- The check on the address of a dword. -/
theorem refused_iff (m : CardMem) (mem : U32) :
    m.mapped = false ∨ m.memlen < (mem.setWidth 64 : U64) ↔
      ¬ (m.mapped = true ∧ mem.toNat ≤ m.memlen.toNat) := by
  have hwide : (mem.setWidth 64 : U64).toNat = mem.toNat :=
    BitVec.toNat_setWidth_of_le (by decide)
  rw [BitVec.lt_def, hwide]
  cases m.mapped <;> simp

/-- The accesses after a dword is written. -/
theorem tl880WriteMemory_touched (m : CardMem) (mem value : U32) :
    (tl880WriteMemory m mem value).touched =
      if m.mapped = true ∧ mem.toNat ≤ m.memlen.toNat then (mem.toNat, 4) :: m.touched
      else m.touched := by
  unfold tl880WriteMemory
  simp only [refused_iff]
  split_ifs <;> rfl

/-- Bytes lie below a limit exactly when the last one does. -/
theorem bytes_below_iff (start n limit : Nat) :
    (∀ o, start ≤ o → o < start + n → o < limit) ↔ n = 0 ∨ start + n ≤ limit := by
  constructor
  · intro hbelow
    by_cases hzero : n = 0
    · exact Or.inl hzero
    · have hlast := hbelow (start + n - 1) (by omega) (by omega)
      right
      omega
  · intro hend o _ hlt
    omega

/-- A dword lies in the window exactly when its four bytes do. -/
theorem dword_inside_iff (m : CardMem) (mem : U32) (hmapped : m.mapped = true)
    (hle : mem.toNat ≤ m.memlen.toNat) :
    (∀ o, mem.toNat ≤ o → o < mem.toNat + 4 → o < m.memlen.toNat) ↔ DwordFits m mem := by
  rw [bytes_below_iff]
  constructor
  · intro hend _ _
    omega
  · intro hfits
    exact Or.inr (hfits hmapped hle)

/-- A dword that is written stays in the window if it fits. -/
theorem CardMem.Inside.writeMemory {m : CardMem} (h : m.Inside) {mem : U32}
    (hfits : DwordFits m mem) (value : U32) : (tl880WriteMemory m mem value).Inside := by
  intro access haccess
  rw [tl880WriteMemory_touched] at haccess
  rw [tl880WriteMemory_memlen]
  split_ifs at haccess with hpass
  · rcases List.mem_cons.mp haccess with heq | hbefore
    · rw [heq]
      exact (dword_inside_iff m mem hpass.1 hpass.2).mpr hfits
    · exact h access hbefore
  · exact h access haccess

/-- An access that is in the log and inside of the window fits. -/
theorem CardMem.Inside.dwordFits {m t : CardMem} (h : t.Inside) (hmemlen : t.memlen = m.memlen)
    {mem : U32} (hmem : m.mapped = true → mem.toNat ≤ m.memlen.toNat →
      (mem.toNat, 4) ∈ t.touched) : DwordFits m mem := by
  intro hmapped hle
  have hinside := h _ (hmem hmapped hle)
  rw [hmemlen] at hinside
  exact (dword_inside_iff m mem hmapped hle).mp hinside hmapped hle

/-- Nothing was accessed yet. -/
theorem inside_nil (m : CardMem) : CardMem.Inside { m with touched := [] } := by
  intro access haccess
  cases haccess

/-- Writing a dword. -/
theorem writeMemory_stays_iff (m : CardMem) (mem value : U32) :
    (tl880WriteMemory { m with touched := [] } mem value).Inside ↔ DwordFits m mem := by
  constructor
  · intro hinside
    refine hinside.dwordFits (tl880WriteMemory_memlen _ _ _) ?_
    intro hmapped hle
    rw [tl880WriteMemory_touched, if_pos ⟨hmapped, hle⟩]
    exact List.mem_cons_self
  · intro hfits
    exact (inside_nil m).writeMemory hfits value

/-- Reading a dword. -/
theorem tl880ReadMemory_touched (m : CardMem) (mem : U32) :
    (tl880ReadMemory m mem).1.touched = (tl880WriteMemory m mem 0).touched ∧
      (tl880ReadMemory m mem).1.memlen = m.memlen ∧
      (tl880ReadMemory m mem).1.mapped = m.mapped := by
  unfold tl880ReadMemory tl880WriteMemory
  split_ifs <;> exact ⟨rfl, rfl, rfl⟩

theorem readMemory_stays_iff (m : CardMem) (mem : U32) :
    (tl880ReadMemory { m with touched := [] } mem).1.Inside ↔ DwordFits m mem := by
  obtain ⟨htouched, hmemlen, -⟩ := tl880ReadMemory_touched { m with touched := [] } mem
  rw [← writeMemory_stays_iff m mem 0, CardMem.Inside, CardMem.Inside, htouched, hmemlen,
    tl880WriteMemory_memlen]

/-- Writing a field reads the dword and writes it. -/
theorem writeMembits_stays_iff (m : CardMem) (mem : U32) (highBit lowBit : Nat) (value : U32) :
    (tl880WriteMembits { m with touched := [] } mem highBit lowBit value).Inside ↔
      DwordFits m mem := by
  obtain ⟨htouched, hmemlen, hmapped⟩ := tl880ReadMemory_touched { m with touched := [] } mem
  constructor
  · intro hinside
    refine hinside.dwordFits ((tl880WriteMemory_memlen _ _ _).trans hmemlen) ?_
    intro hm hle
    have hpass : (tl880ReadMemory { m with touched := [] } mem).1.mapped = true ∧
        mem.toNat ≤ (tl880ReadMemory { m with touched := [] } mem).1.memlen.toNat := by
      rw [hmapped, hmemlen]
      exact ⟨hm, hle⟩
    rw [tl880WriteMembits, tl880WriteMemory_touched, if_pos hpass]
    exact List.mem_cons_self
  · intro hfits
    apply CardMem.Inside.writeMemory ((readMemory_stays_iff m mem).mpr hfits)
    intro hm hle
    rw [hmapped] at hm
    rw [hmemlen] at hle ⊢
    exact hfits hm hle

/-! ## Copies -/

theorem wideAddr_toNat (addr : U32) : (addr.setWidth 64 : U64).toNat = addr.toNat :=
  BitVec.toNat_setWidth_of_le (by decide)

/-- The length is clamped exactly when the sum lies behind the window. -/
theorem clampLength_cases (m : CardMem) {addr : U32} (hle : addr.toNat ≤ m.memlen.toNat)
    (length : U64) :
    (m.memlen.toNat < wrappedEnd addr length ∧
        (clampLength m addr length).toNat = m.memlen.toNat - addr.toNat) ∨
      (wrappedEnd addr length ≤ m.memlen.toNat ∧ clampLength m addr length = length) := by
  have hsum : (addr.setWidth 64 + length : U64).toNat = wrappedEnd addr length := by
    rw [BitVec.toNat_add, wideAddr_toNat, wrappedEnd]
  unfold clampLength
  by_cases hpast : m.memlen < addr.setWidth 64 + length
  · left
    rw [if_pos hpast, BitVec.toNat_sub_of_le (by rw [BitVec.le_def, wideAddr_toNat]; exact hle),
      wideAddr_toNat]
    rw [BitVec.lt_def, hsum] at hpast
    exact ⟨hpast, rfl⟩
  · right
    rw [if_neg hpast]
    rw [BitVec.lt_def, hsum] at hpast
    exact ⟨Nat.le_of_not_lt hpast, rfl⟩

/-- Copying stays in the window exactly when the sum does not wrap to a small one. -/
theorem memcpy_stays_iff (m : CardMem) (src : Nat → U8) (addr : U32) (length : U64) :
    (tl880Memcpy { m with touched := [] } (some src) addr length).Inside ↔
      (addr.toNat ≤ m.memlen.toNat → wrappedEnd addr length ≤ m.memlen.toNat →
        addr.toNat + length.toNat < 2 ^ 64) := by
  unfold tl880Memcpy
  simp only [BitVec.lt_def, wideAddr_toNat]
  split_ifs with hpast
  · apply iff_of_true (inside_nil m)
    intro hle
    omega
  have hle : addr.toNat ≤ m.memlen.toNat := by omega
  have hbytes : ∀ n, (CardMem.Inside { m with touched := [(addr.toNat, n)] } ↔
      n = 0 ∨ addr.toNat + n ≤ m.memlen.toNat) := by
    intro n
    unfold CardMem.Inside
    rw [List.forall_mem_singleton]
    exact bytes_below_iff addr.toNat n m.memlen.toNat
  refine (hbytes _).trans ?_
  have hmemlen := m.memlen.isLt
  have hwrapped : wrappedEnd addr length = (addr.toNat + length.toNat) % 2 ^ 64 := rfl
  rcases clampLength_cases { m with touched := [] } hle length with
    ⟨hpast, hclamped⟩ | ⟨hfits, hclamped⟩
  · rw [hclamped]
    apply iff_of_true
    · right
      exact Nat.le_of_eq (Nat.add_sub_cancel' hle)
    · intro _ hsmall
      exact absurd hpast (Nat.not_lt.mpr hsmall)
  · rw [hclamped]
    constructor
    · intro hbytes _ _
      omega
    · intro hnowrap
      have hsmall := hnowrap hle hfits
      rw [Nat.mod_eq_of_lt hsmall] at hwrapped
      right
      rw [← hwrapped]
      exact hfits

/-! ## Loops -/

/-- What every round at a dword of one residue keeps, the loop keeps.  The residue
survives the wrap of the counter. -/
theorem dwordLoop_invariant (P : CardMem → Prop) {cond : U32 → Bool}
    {body : U32 → CardMem → CardMem} {residue : Nat}
    (hbody : ∀ i m, cond i = true → i.toNat % 4 = residue → P m → P (body i m)) (fuel : Nat)
    {i : U32} (hi : i.toNat % 4 = residue) {m : CardMem} (hm : P m) :
    P (dwordLoop cond body fuel i m) := by
  induction fuel generalizing i m with
  | zero => exact hm
  | succ fuel ih =>
      rw [dwordLoop]
      by_cases hcond : cond i = true
      · rw [if_pos hcond]
        have hnext : (i + 4).toNat % 4 = residue := by
          have hfour : (4 : U32).toNat = 4 := rfl
          rw [BitVec.toNat_add, hfour]
          omega
        exact ih hnext (hbody i m hcond hi hm)
      · rw [if_neg hcond]
        exact hm

section Writes

variable {cond : U32 → Bool} {write : U32 → CardMem → U32}

/-- A loop whose condition is false at once does nothing. -/
theorem dwordLoop_idle {body : U32 → CardMem → CardMem} {i : U32} (hcond : ¬ cond i = true)
    (fuel : Nat) (m : CardMem) : dwordLoop cond body fuel i m = m := by
  cases fuel with
  | zero => rfl
  | succ fuel => rw [dwordLoop, if_neg hcond]

/-- The loop takes the dword that is `k` rounds away, if the condition holds until there
and the counter does not wrap. -/
theorem dwordLoop_reaches (k : Nat) {i : U32}
    (hcond : ∀ x : U32, i.toNat ≤ x.toNat → x.toNat ≤ i.toNat + 4 * k → cond x = true)
    (hlast : i.toNat + 4 * k < 2 ^ 32) {m : CardMem} (hmapped : m.mapped = true)
    (hle : i.toNat + 4 * k ≤ m.memlen.toNat) :
    (i.toNat + 4 * k, 4) ∈
      (dwordLoop cond (fun i m => tl880WriteMemory m i (write i m)) (k + 1) i m).touched := by
  induction k generalizing i m with
  | zero =>
      rw [dwordLoop, if_pos (hcond i (Nat.le_refl _) (Nat.le_refl _)), dwordLoop,
        tl880WriteMemory_touched, if_pos ⟨hmapped, hle⟩]
      exact List.mem_cons_self
  | succ k ih =>
      have hnext : (i + 4).toNat = i.toNat + 4 := nextDword_toNat (by omega)
      have hplace : i.toNat + 4 * (k + 1) = (i + 4).toNat + 4 * k := by omega
      rw [dwordLoop, if_pos (hcond i (Nat.le_refl _) (by omega)), hplace]
      apply ih
      · intro x hlow hhigh
        exact hcond x (by omega) (by omega)
      · omega
      · exact (tl880WriteMemory_mapped m i _).trans hmapped
      · rw [tl880WriteMemory_memlen]
        omega

/-- The loop keeps the window. -/
theorem dwordLoop_memlen (fuel : Nat) (i : U32) (m : CardMem) :
    (dwordLoop cond (fun i m => tl880WriteMemory m i (write i m)) fuel i m).memlen =
      m.memlen :=
  dwordLoop_invariant (fun t => t.memlen = m.memlen)
    (fun i t _ _ ht => (tl880WriteMemory_memlen t i _).trans ht) fuel rfl rfl

/-- A loop of writes to the dwords below `limit` stays in the window exactly when the
dwords fit. -/
theorem dwordLoop_stays_iff {m : CardMem} {addr : U32} {limit : Nat}
    (hcond : ∀ x : U32, cond x = true ↔ x.toNat < limit) (hlimit : limit ≤ m.memlen.toNat) :
    (∀ fuel, (dwordLoop cond (fun i m => tl880WriteMemory m i (write i m)) fuel addr
        { m with touched := [] }).Inside) ↔
      DwordsFit m addr.toNat (min limit (2 ^ 32)) := by
  have haddr := addr.isLt
  constructor
  · intro hinside hmapped hlt
    by_contra hends
    -- the last dword that begins below the limit ends behind the window
    obtain ⟨k, hk⟩ : ∃ k, k = (min limit (2 ^ 32) - addr.toNat - 1) / 4 := ⟨_, rfl⟩
    have hreach : (addr.toNat + 4 * k, 4) ∈ (dwordLoop cond
        (fun i m => tl880WriteMemory m i (write i m)) (k + 1) addr
        { m with touched := [] }).touched := by
      apply dwordLoop_reaches
      · intro x _ hhigh
        exact (hcond x).mpr (by omega)
      · omega
      · exact hmapped
      · show addr.toNat + 4 * k ≤ m.memlen.toNat
        omega
    have hbyte := hinside (k + 1) _ hreach m.memlen.toNat
      (by
        show addr.toNat + 4 * k ≤ m.memlen.toNat
        omega)
      (by
        show m.memlen.toNat < addr.toNat + 4 * k + 4
        omega)
    rw [dwordLoop_memlen] at hbyte
    exact Nat.lt_irrefl _ hbyte
  · intro hfits fuel
    by_cases hstarted : addr.toNat < limit
    · have hstep : ∀ (i : U32) (t : CardMem), cond i = true → i.toNat % 4 = addr.toNat % 4 →
          t.Inside ∧ t.memlen = m.memlen ∧ t.mapped = m.mapped →
          (tl880WriteMemory t i (write i t)).Inside ∧
            (tl880WriteMemory t i (write i t)).memlen = m.memlen ∧
            (tl880WriteMemory t i (write i t)).mapped = m.mapped := by
        intro i t hround hresidue ht
        obtain ⟨hinside, hmemlen, hmapped⟩ := ht
        refine ⟨hinside.writeMemory ?_ _, (tl880WriteMemory_memlen t i _).trans hmemlen,
          (tl880WriteMemory_mapped t i _).trans hmapped⟩
        intro htmapped _
        have hend := hfits (hmapped.symm.trans htmapped) (by omega)
        have hbelow := (hcond i).mp hround
        have hi := i.isLt
        rw [hmemlen]
        -- a dword of the loop's residue is one of those that fit, or lies before them
        omega
      exact (dwordLoop_invariant
        (fun t => t.Inside ∧ t.memlen = m.memlen ∧ t.mapped = m.mapped) hstep fuel rfl
        ⟨inside_nil m, rfl, rfl⟩).1
    · rw [dwordLoop_idle fun htrue => hstarted ((hcond addr).mp htrue)]
      exact inside_nil m

end Writes

/-- The copies that swap bytes or halfwords. -/
theorem memcpySwapped_stays_iff (swap : U32 → U32) (m : CardMem) (src : Nat → U8) (addr : U32)
    (length : U64) :
    (∀ fuel, (memcpySwapped swap fuel { m with touched := [] } (some src) addr length).Inside) ↔
      DwordsFit m addr.toNat
        (min (min (wrappedEnd addr length) m.memlen.toNat) (2 ^ 32)) := by
  unfold memcpySwapped
  simp only [BitVec.lt_def, wideAddr_toNat]
  by_cases hpast : m.memlen.toNat < addr.toNat
  · simp only [if_pos hpast]
    apply iff_of_true
    · intro _
      exact inside_nil m
    · intro _ hlt
      omega
  · simp only [if_neg hpast]
    have hle : addr.toNat ≤ m.memlen.toNat := Nat.le_of_not_lt hpast
    have hends : (addr.setWidth 64 + clampLength { m with touched := [] } addr length : U64).toNat =
        min (wrappedEnd addr length) m.memlen.toNat := by
      rcases clampLength_cases { m with touched := [] } hle length with
        ⟨hclamp, hclamped⟩ | ⟨hfits, hclamped⟩
      · have hmemlen := m.memlen.isLt
        rw [BitVec.toNat_add, wideAddr_toNat, hclamped]
        change m.memlen.toNat < _ at hclamp
        show (addr.toNat + (m.memlen.toNat - addr.toNat)) % 2 ^ 64 = _
        rw [Nat.add_sub_cancel' hle, Nat.mod_eq_of_lt hmemlen,
          Nat.min_eq_right (Nat.le_of_lt hclamp)]
      · rw [hclamped, BitVec.toNat_add, wideAddr_toNat]
        exact (Nat.min_eq_left hfits).symm
    apply dwordLoop_stays_iff
    · intro x
      rw [decide_eq_true_iff, hends]
    · exact Nat.min_le_right _ _

/-- Clearing. -/
theorem clearSdram_stays_iff (m : CardMem) (startAddr endAddr value : U32) :
    (∀ fuel, (tl880ClearSdram fuel { m with touched := [] } startAddr endAddr value).Inside) ↔
      DwordsFit m startAddr.toNat (min endAddr.toNat m.memlen.toNat) := by
  have hend := endAddr.isLt
  have hlimit : min endAddr.toNat m.memlen.toNat =
      min (min endAddr.toNat m.memlen.toNat) (2 ^ 32) := by omega
  rw [hlimit]
  apply dwordLoop_stays_iff
  · intro x
    simp only [decide_eq_true_iff, BitVec.lt_def, wideAddr_toNat]
    omega
  · exact Nat.min_le_right _ _

/-- A call stays inside of the window exactly when its arguments are in bounds, where `size_t`
and `unsigned long` have 64 bits. -/
theorem staysInside_iff (m : CardMem) (call : MemCall) : StaysInside m call ↔ InBounds m call := by
  -- a copy from NULL does nothing
  have hnull : ∀ fits : Prop, (Nat → CardMem.Inside { m with touched := [] }) ↔
      ((none : Option (Nat → U8)).isSome → fits) := by
    intro fits
    apply iff_of_true
    · intro _
      exact inside_nil m
    · intro hsrc
      cases hsrc
  cases call with
  | writeMemory mem value => exact (forall_const Nat).trans (writeMemory_stays_iff m mem value)
  | readMemory mem => exact (forall_const Nat).trans (readMemory_stays_iff m mem)
  | readMembits mem highBit lowBit => exact (forall_const Nat).trans (readMemory_stays_iff m mem)
  | writeMembits mem highBit lowBit value =>
      exact (forall_const Nat).trans (writeMembits_stays_iff m mem highBit lowBit value)
  | memcpy src addr length =>
      cases src with
      | none => exact hnull _
      | some src =>
          exact ((forall_const Nat).trans (memcpy_stays_iff m src addr length)).trans
            ⟨fun h _ => h, fun h => h rfl⟩
  | memcpySwab32 src addr length =>
      cases src with
      | none => exact hnull _
      | some src =>
          exact (memcpySwapped_stays_iff swab32 m src addr length).trans
            ⟨fun h _ => h, fun h => h rfl⟩
  | memcpySwahw32 src addr length =>
      cases src with
      | none => exact hnull _
      | some src =>
          exact (memcpySwapped_stays_iff swahw32 m src addr length).trans
            ⟨fun h _ => h, fun h => h rfl⟩
  | clearSdram startAddr endAddr value => exact clearSdram_stays_iff m startAddr endAddr value

/-- The address of the end of the window passes the check. -/
theorem staysInside_end :
    ¬ StaysInside ⟨true, 0x2000000, fun _ => 0, []⟩ (.writeMemory 0x2000000 0) := by
  intro hinside
  have hlast := hinside 0 (0x2000000, 4) List.mem_cons_self 0x2000000 (by decide) (by decide)
  revert hlast
  decide

end Tl880
