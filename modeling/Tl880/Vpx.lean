import Tl880.I2cTransfer

/-!
# The FP registers of the VPX

The model of `tl880_vpx_read`, `tl880_vpx_fp_status`, `tl880_vpx_read_fp` and
`tl880_vpx_write_fp` of `driver/tl880vpx.c` on a little-endian CPU.

An access to an FP register writes an address, polls the busy bit and then moves
the data.  `fpHandshake` and `fpExpected` say what the bus did and what an access
should report; the functions of the driver pass negative results through an
`unsigned char` and a `u16` and miss some of it.
-/

namespace Tl880

/-! ## The driver -/

def vpxTimeoutCount : Nat := 10
def vpxI2cFpsta : U8 := 0x35
def vpxI2cFprd : U8 := 0x36
def vpxI2cFpwr : U8 := 0x37
def vpxI2cFpdat : U8 := 0x38

/-- `__cpu_to_be16` and `__be16_to_cpu` -/
def swab16 (x : U16) : U16 := (x <<< 8) ||| (x >>> 8)

/-- A card's VPX: the bus it is on and its address there. -/
structure Vpx (World : Type*) where
  port : I2cPort World
  addr : U16

variable {World : Type*}

/-- `tl880_vpx_read` -/
def tl880VpxRead (vpx : Vpx World) (reg : U8) (w : World) : Int × World :=
  tl880I2cReadByteData vpx.port vpx.addr reg w

/-- The loop of `tl880_vpx_fp_status` with `polls` passes left.  The status is an
`unsigned char`. -/
def fpStatusLoop (vpx : Vpx World) : Nat → World → Int × World
  | 0, w => (-1, w)
  | polls + 1, w =>
      let (result, w) := tl880VpxRead vpx vpxI2cFpsta w
      -- a negative result is truncated like a status: its bit 2 is clear
      let status : U8 := BitVec.ofInt 8 result
      if status &&& 4 = 0 then (0, w) else fpStatusLoop vpx polls w

/-- `tl880_vpx_fp_status` -/
def tl880VpxFpStatus (vpx : Vpx World) (w : World) : Int × World :=
  fpStatusLoop vpx vpxTimeoutCount w

/-- `tl880_vpx_read_fp` -/
def tl880VpxReadFp (vpx : Vpx World) (fpaddr : U16) (w : World) : U16 × World :=
  let (result, w) := tl880I2cWriteWordData vpx.port vpx.addr vpxI2cFprd (swab16 fpaddr) w
  if result < 0 then (0xffff, w)
  else
    let (result, w) := tl880VpxFpStatus vpx w
    if result < 0 then (0xffff, w)
    else
      let (result, w) := tl880I2cReadWordData vpx.port vpx.addr vpxI2cFpdat w
      -- the result is truncated before it is tested
      let data : U16 := BitVec.ofInt 16 result
      if data = 0xffff then (0xffff, w) else (swab16 data, w)

/-- `tl880_vpx_write_fp` -/
def tl880VpxWriteFp (vpx : Vpx World) (fpaddr data : U16) (w : World) : Int × World :=
  let (result, w) := tl880I2cWriteWordData vpx.port vpx.addr vpxI2cFpwr (swab16 fpaddr) w
  if result < 0 then (-1, w)
  else
    let (result, w) := tl880VpxFpStatus vpx w
    if result < 0 then (-1, w)
    else
      let (result, w) := tl880I2cWriteWordData vpx.port vpx.addr vpxI2cFpdat (swab16 data) w
      if result < 0 then (-1, w) else (0, w)

/-! ## What the bus did -/

/-- How the polls of the busy bit end. -/
inductive FpPoll (World : Type*)
  /-- every poll read a status byte with the busy bit set -/
  | busy (w : World)
  /-- a status byte with the busy bit clear was read -/
  | ready (w : World)
  /-- a poll failed -/
  | failed (w : World)

/-- Poll until the busy bit is clear or a poll fails. -/
def fpPoll (vpx : Vpx World) : Nat → World → FpPoll World
  | 0, w => .busy w
  | polls + 1, w =>
      match vpx.port.reply w (.readByteData vpx.addr vpxI2cFpsta) with
      | (.failed _, w) => .failed w
      | (.done data, w) =>
          if data.setWidth 8 &&& (4 : U8) = 0 then .ready w else fpPoll vpx polls w

/-- Write an FP address to the selection register `reg` and poll; `none` when the
write fails. -/
def fpHandshake (vpx : Vpx World) (reg : U8) (fpaddr : U16) (w : World) :
    Option (FpPoll World) :=
  match vpx.port.reply w (.writeWordData vpx.addr reg (swab16 fpaddr)) with
  | (.failed _, _) => none
  | (.done _, w) => some (fpPoll vpx vpxTimeoutCount w)

/-- What a read of an FP register should return: the value, or 0xffff when a
transaction failed or the busy bit stayed set. -/
def fpExpected (vpx : Vpx World) (fpaddr : U16) (w : World) : U16 :=
  match fpHandshake vpx vpxI2cFprd fpaddr w with
  | none | some (.busy _) | some (.failed _) => 0xffff
  | some (.ready w) =>
      match vpx.port.reply w (.readWordData vpx.addr vpxI2cFpdat) with
      | (.failed _, _) => 0xffff
      | (.done data, _) => swab16 data

/-- The transactions a write of an FP register needs have all succeeded. -/
def fpWritten (vpx : Vpx World) (fpaddr data : U16) (w : World) : Prop :=
  match fpHandshake vpx vpxI2cFpwr fpaddr w with
  | none | some (.busy _) | some (.failed _) => False
  | some (.ready w) =>
      match vpx.port.reply w (.writeWordData vpx.addr vpxI2cFpdat (swab16 data)) with
      | (.failed _, _) => False
      | (.done _, _) => True

/-- What the bus must do for a read to report correctly: when the data is read, that
read must succeed, and after a failed poll it must read 0xffff. -/
def FpReadSafe (vpx : Vpx World) (fpaddr : U16) (w : World) : Prop :=
  match fpHandshake vpx vpxI2cFprd fpaddr w with
  | none | some (.busy _) => True
  | some (.ready w) =>
      match vpx.port.reply w (.readWordData vpx.addr vpxI2cFpdat) with
      | (.failed _, _) => False
      | (.done _, _) => True
  | some (.failed w) =>
      match vpx.port.reply w (.readWordData vpx.addr vpxI2cFpdat) with
      | (.failed _, _) => False
      | (.done data, _) => data = 0xffff

/-- What the bus must do for a write to report correctly: after a failed poll, the
write of the data must fail too. -/
def FpWriteSafe (vpx : Vpx World) (fpaddr data : U16) (w : World) : Prop :=
  match fpHandshake vpx vpxI2cFpwr fpaddr w with
  | none | some (.busy _) | some (.ready _) => True
  | some (.failed w) =>
      match vpx.port.reply w (.writeWordData vpx.addr vpxI2cFpdat (swab16 data)) with
      | (.failed _, _) => True
      | (.done _, _) => False

/-! ## What the driver makes of it -/

/-- The busy bit of a truncated error number is clear: a failed poll ends the loop as
if the VPX were ready. -/
theorem fpStatusLoop_eq (vpx : Vpx World) (polls : Nat) (w : World) :
    fpStatusLoop vpx polls w =
      match fpPoll vpx polls w with
      | .busy w => (-1, w)
      | .ready w | .failed w => (0, w) := by
  induction polls generalizing w with
  | zero => rfl
  | succ polls ih =>
      unfold fpStatusLoop fpPoll tl880VpxRead tl880I2cReadByteData
      rcases i2cRead_cases vpx.port (.readByteData vpx.addr vpxI2cFpsta)
          (fun data => (data.setWidth 8).toNat) w with
        ⟨data, w', hreply, hread⟩ | ⟨errno, w', code, hreply, hread, hcode⟩
      · have hstatus : (BitVec.ofInt 8 ((data.setWidth 8).toNat : Int) : U8) =
            data.setWidth 8 := by
          rw [BitVec.ofInt_natCast, BitVec.ofNat_toNat, BitVec.setWidth_eq]
        rw [hreply, hread]
        dsimp only
        rw [hstatus]
        split_ifs
        · rfl
        · exact ih w'
      · have hclear : (BitVec.ofInt 8 code : U8) &&& 4 = 0 := by
          rcases hcode with rfl | rfl <;> decide
        rw [hreply, hread]
        dsimp only
        rw [if_pos hclear]

/-- Swapping moves every bit by eight places. -/
theorem getLsbD_swab16 (x : U16) {i : Nat} (hi : i < 16) :
    (swab16 x).getLsbD ((i + 8) % 16) = x.getLsbD i := by
  unfold swab16
  rw [BitVec.getLsbD_or, BitVec.getLsbD_shiftLeft, BitVec.getLsbD_ushiftRight]
  by_cases hlow : i < 8
  · have hplace : (i + 8) % 16 = i + 8 := Nat.mod_eq_of_lt (by omega)
    have hout : x.getLsbD (8 + (i + 8)) = false := BitVec.getLsbD_of_ge x _ (by omega)
    have hroom : i + 8 < 16 := by omega
    simp [hplace, hout, hroom]
  · have hplace : (i + 8) % 16 = i - 8 := by omega
    have hback : 8 + (i - 8) = i := by omega
    have hlow' : i - 8 < 8 := by omega
    simp [hplace, hback, hlow']

/-- A swapped word is all ones only if the word is. -/
theorem swab16_eq_ones_iff (x : U16) : swab16 x = 0xffff ↔ x = 0xffff := by
  have hones : ∀ i < 16, (0xffff : U16).getLsbD i = true := by decide
  constructor
  · intro h
    apply BitVec.eq_of_getLsbD_eq
    intro i hi
    rw [← getLsbD_swab16 x hi, h, hones _ (Nat.mod_lt _ (by decide)), hones i hi]
  · rintro rfl
    decide

/-- The end of a read, from the read of the data on. -/
def readFpData (vpx : Vpx World) (w : World) : U16 :=
  let data : U16 := BitVec.ofInt 16 (tl880I2cReadWordData vpx.port vpx.addr vpxI2cFpdat w).1
  if data = 0xffff then 0xffff else swab16 data

/-- A word that is read is returned in the CPU's byte order; a failed read returns
something else than 0xffff, for no truncated error number is all ones. -/
theorem readFpData_cases (vpx : Vpx World) (w : World) :
    (∃ data w', vpx.port.reply w (.readWordData vpx.addr vpxI2cFpdat) = (.done data, w') ∧
      readFpData vpx w = swab16 data) ∨
    (∃ errno w', vpx.port.reply w (.readWordData vpx.addr vpxI2cFpdat) =
        (.failed errno, w') ∧ readFpData vpx w ≠ 0xffff) := by
  unfold readFpData tl880I2cReadWordData
  rcases i2cRead_cases vpx.port (.readWordData vpx.addr vpxI2cFpdat) BitVec.toNat w with
    ⟨data, w', hreply, hread⟩ | ⟨errno, w', code, hreply, hread, hcode⟩
  · left
    refine ⟨data, w', hreply, ?_⟩
    rw [hread]
    dsimp only
    rw [BitVec.ofInt_natCast, BitVec.ofNat_toNat, BitVec.setWidth_eq]
    split_ifs with hones
    · rw [hones]
      decide
    · rfl
  · right
    refine ⟨errno, w', hreply, ?_⟩
    rw [hread]
    rcases hcode with rfl | rfl
    all_goals
      dsimp only
      decide

/-- A read in terms of the handshake. -/
theorem tl880VpxReadFp_eq (vpx : Vpx World) (fpaddr : U16) (w : World) :
    (tl880VpxReadFp vpx fpaddr w).1 =
      match fpHandshake vpx vpxI2cFprd fpaddr w with
      | none | some (.busy _) => 0xffff
      | some (.ready w) | some (.failed w) => readFpData vpx w := by
  unfold tl880VpxReadFp fpHandshake tl880I2cWriteWordData tl880VpxFpStatus
  rcases i2cWrite_cases vpx.port (.writeWordData vpx.addr vpxI2cFprd (swab16 fpaddr)) w with
    ⟨_, w', hreply, hwrite⟩ | ⟨_, w', code, hreply, hwrite, hcode⟩
  · rw [hreply, hwrite]
    dsimp only
    rw [fpStatusLoop_eq, if_neg (by decide)]
    cases fpPoll vpx vpxTimeoutCount w' with
    | busy w'' => rfl
    | ready w'' =>
        unfold readFpData
        dsimp only
        rw [if_neg (by decide)]
        split_ifs <;> rfl
    | failed w'' =>
        unfold readFpData
        dsimp only
        rw [if_neg (by decide)]
        split_ifs <;> rfl
  · rw [hreply, hwrite]
    dsimp only
    rw [if_pos hcode]

/-- A write in terms of the handshake: it returns 0 exactly when the handshake did not
time out and the data were written. -/
theorem tl880VpxWriteFp_eq_zero_iff (vpx : Vpx World) (fpaddr data : U16) (w : World) :
    (tl880VpxWriteFp vpx fpaddr data w).1 = 0 ↔
      match fpHandshake vpx vpxI2cFpwr fpaddr w with
      | none | some (.busy _) => False
      | some (.ready w) | some (.failed w) =>
          match vpx.port.reply w (.writeWordData vpx.addr vpxI2cFpdat (swab16 data)) with
          | (.failed _, _) => False
          | (.done _, _) => True := by
  -- The write of the data, which both ways out of the polls lead to.
  have hdata (w : World) :
      (if (i2cWrite vpx.port (.writeWordData vpx.addr vpxI2cFpdat (swab16 data)) w).1 < 0
        then ((-1 : Int),
          (i2cWrite vpx.port (.writeWordData vpx.addr vpxI2cFpdat (swab16 data)) w).2)
        else (0, (i2cWrite vpx.port (.writeWordData vpx.addr vpxI2cFpdat (swab16 data)) w).2)
        ).1 = 0 ↔
      match vpx.port.reply w (.writeWordData vpx.addr vpxI2cFpdat (swab16 data)) with
      | (.failed _, _) => False
      | (.done _, _) => True := by
    rcases i2cWrite_cases vpx.port (.writeWordData vpx.addr vpxI2cFpdat (swab16 data)) w with
      ⟨_, w', hreply, hwrite⟩ | ⟨_, w', code, hreply, hwrite, hcode⟩
    · rw [hreply, hwrite]
      simp
    · rw [hreply, hwrite]
      simp [hcode]
  unfold tl880VpxWriteFp fpHandshake tl880I2cWriteWordData tl880VpxFpStatus
  rcases i2cWrite_cases vpx.port (.writeWordData vpx.addr vpxI2cFpwr (swab16 fpaddr)) w with
    ⟨_, w', hreply, hwrite⟩ | ⟨_, w', code, hreply, hwrite, hcode⟩
  · rw [hreply, hwrite]
    dsimp only
    rw [fpStatusLoop_eq, if_neg (by decide)]
    cases fpPoll vpx vpxTimeoutCount w' with
    | busy w'' => simp
    | ready w'' => exact hdata w''
    | failed w'' => exact hdata w''
  · rw [hreply, hwrite]
    dsimp only
    rw [if_pos hcode]
    simp

/-- When FP accesses report failures.  A read returns what it should if and only if
the read of the data, when it is made, succeeds, and reads 0xffff after a failed poll;
a write returns 0 only after the transactions it needs succeeded if and only if, after
a failed poll, the write of the data fails too. -/
theorem vpxFp_reports_iff (vpx : Vpx World) (fpaddr data : U16) (w : World) :
    ((tl880VpxReadFp vpx fpaddr w).1 = fpExpected vpx fpaddr w ↔ FpReadSafe vpx fpaddr w) ∧
      (((tl880VpxWriteFp vpx fpaddr data w).1 = 0 → fpWritten vpx fpaddr data w) ↔
        FpWriteSafe vpx fpaddr data w) := by
  constructor
  · rw [tl880VpxReadFp_eq]
    unfold fpExpected FpReadSafe
    cases fpHandshake vpx vpxI2cFprd fpaddr w with
    | none => simp
    | some poll =>
        cases poll with
        | busy w' => simp
        | ready w' =>
            rcases readFpData_cases vpx w' with ⟨word, _, hreply, hdata⟩ |
              ⟨_, _, hreply, hdata⟩
            · simp [hreply, hdata]
            · simpa [hreply] using hdata
        | failed w' =>
            rcases readFpData_cases vpx w' with ⟨word, _, hreply, hdata⟩ |
              ⟨_, _, hreply, hdata⟩
            · simpa [hreply, hdata] using swab16_eq_ones_iff word
            · simpa [hreply] using hdata
  · rw [tl880VpxWriteFp_eq_zero_iff]
    unfold fpWritten FpWriteSafe
    cases fpHandshake vpx vpxI2cFpwr fpaddr w with
    | none => simp
    | some poll =>
        cases poll with
        | busy w' => simp
        | ready w' => exact iff_of_true id trivial
        | failed w' =>
            dsimp only
            cases hreply : vpx.port.reply w'
                (.writeWordData vpx.addr vpxI2cFpdat (swab16 data)) with
            | mk reply w'' => cases reply <;> simp

/-- A bus on which only the transactions from the `n`-th on fail; the others read
0. -/
def failingFrom (n : Nat) : I2cPort Nat where
  null := false
  xfer count _ := (if n ≤ count then .failed Errno.eio else .done 0, count + 1)

/-- When the read of the data fails, 0xfbff is returned; when a poll fails and the data
are written all the same, 0 is. -/
theorem vpxFp_hides_failure :
    let failedRead : Vpx Nat := ⟨failingFrom 2, 0x43⟩
    let failedPoll : Vpx Nat := ⟨⟨false, fun count _ =>
      (if count = 1 then .failed Errno.eio else .done 0, count + 1)⟩, 0x43⟩
    (tl880VpxReadFp failedRead 0x154 0).1 = 0xfbff ∧
      (tl880VpxReadFp failedRead 0x154 0).1 ≠ fpExpected failedRead 0x154 0 ∧
      ¬ ((tl880VpxWriteFp failedPoll 0x154 0x301 0).1 = 0 →
        fpWritten failedPoll 0x154 0x301 0) := by
  intro failedRead failedPoll
  refine ⟨by decide, by decide, fun h => ?_⟩
  exact h (by decide)

end Tl880
