import Tl880.Lib.AlignUp
import Tl880.Lib.Blocks
import Tl880.MemTools
import Tl880.RegFields

/-!
# Memory dumps and back

`tools/memdump.c` writes a range of the card's mapped memory to a file, `tools/memload.c` reads
a file into it, and `tools/memloadswab.c` does so with the bytes of every word turned round.
The host is little-endian.

The mapping has 16 MB, and an access behind its end fails: the tool ends there, and nothing is
said about what it has copied by then.
-/

namespace Tl880

open Blocks

/-! ## The tools -/

/-- The length a tool that copies takes, clipped with `>`. -/
def copyLen (addr len : U32) : U32 := if addr + len > 0x01000000 then 0x01000000 - addr else len

/-- The file that `memdump` writes. -/
def memdumpFile (addr len : U32) (mem : Nat → U8) : Option (List U8) :=
  let addr := mapAddr addr
  let len := copyLen addr (roundArg len)
  if addr.toNat + len.toNat ≤ 0x01000000 then
    some ((List.range len.toNat).map fun i => mem (addr.toNat + i))
  else none

/-- `len > dumpstat->st_size ? dumpstat->st_size : len` -/
def clipSize (len : U32) (file : List U8) : U32 :=
  if file.length < len.toNat then BitVec.ofNat 32 file.length else len

/-- The bytes of a file. -/
def fileByte (file : List U8) (i : Nat) : U8 := file.getD i 0

/-- `memload` -/
def memload (addr len : U32) (file : List U8) (mem : Nat → U8) : Option (Nat → U8) :=
  let len := roundArg (clipSize len file)
  let addr := mapAddr addr
  let len := copyLen addr len
  if addr.toNat + len.toNat ≤ 0x01000000 then
    some (store addr.toNat len.toNat (fileByte file) mem)
  else none

/-- `fread(&buf, 1, 4, image)` at place `i` of the file.  Bytes that the file does not have stay
as they were. -/
def freadWord (file : List U8) (i : Nat) (buf : U32) : U32 :=
  dwordAt (fun j => (file[i + j]?).getD (byteOf buf j)) 0

/-- The loop of `read_data`.  Its counter is an `int`, which never gets as far as the end of the
mapping. -/
def readDataLoop (start size : Nat) (file : List U8) (i : Nat) (buf : U32) (mem : Nat → U8) :
    Option (Nat → U8) :=
  if i < size then
    if start + i + 4 ≤ 0x01000000 then
      let buf := freadWord file i buf
      readDataLoop start size file (i + 4) buf (store (start + i) 4 (byteOf (swab32 buf)) mem)
    else none
  else some mem
termination_by size - i

/-- `read_data`.  The size of the file becomes an `int`, and is compared with the length as an
unsigned number. -/
def readData (file : List U8) (start : Nat) (len : U32) (mem : Nat → U8) : Option (Nat → U8) :=
  let size := BitVec.ofNat 32 file.length
  let size := if len < size then len else size
  readDataLoop start size.toInt.toNat file 0 0 mem

/-- `memloadswab` -/
def memloadswab (addr len : U32) (file : List U8) (mem : Nat → U8) : Option (Nat → U8) :=
  let len := if roundArg len > 4 then roundArg len else 4
  let addr := mapAddr addr
  let len := copyLen addr len
  readData file addr.toNat len mem

/-! ## Lengths -/

theorem roundArg_toNat (arg : U32) : (roundArg arg).toNat = arg.toNat / 4 * 4 := by
  have hsplit : roundArg arg + (arg &&& 3) = arg := AlignUp.and_not_add_and arg 3
  have hdisjoint : roundArg arg &&& (arg &&& 3) = 0#32 := AlignUp.and_not_disjoint arg 3
  have hlow : (arg &&& 3).toNat = arg.toNat % 4 := by
    rw [BitVec.toNat_and]
    exact Nat.and_two_pow_sub_one_eq_mod arg.toNat 2
  have hsum := BitVec.toNat_add_of_and_eq_zero hdisjoint
  rw [hsplit, hlow] at hsum
  omega

/-- A length is clipped at the end of the mapping, unless the sum wraps. -/
theorem copyLen_toNat {addr len : U32} (haddr : addr.toNat < 0x01000000)
    (hfits : addr.toNat + len.toNat < 2 ^ 32) :
    (copyLen addr len).toNat = min len.toNat (0x01000000 - addr.toNat) := by
  have hsum : (addr + len).toNat = addr.toNat + len.toNat := by
    rw [BitVec.toNat_add, Nat.mod_eq_of_lt hfits]
  have hmap : (0x01000000 : U32).toNat = 0x01000000 := rfl
  unfold copyLen
  split_ifs with hclip
  · rw [gt_iff_lt, BitVec.lt_def, hsum, hmap] at hclip
    rw [BitVec.toNat_sub_of_le (BitVec.le_def.mpr (by omega)), hmap]
    omega
  · rw [gt_iff_lt, BitVec.lt_def, hsum, hmap] at hclip
    omega

theorem copyLen_of_wraps {addr len : U32} (haddr : addr.toNat < 0x01000000)
    (hwraps : ¬ addr.toNat + len.toNat < 2 ^ 32) : copyLen addr len = len := by
  have hlen := len.isLt
  have hsum : (addr + len).toNat = addr.toNat + len.toNat - 2 ^ 32 := by
    rw [BitVec.toNat_add]
    omega
  refine if_neg ?_
  rw [gt_iff_lt, BitVec.lt_def, hsum]
  show ¬ 0x01000000 < _
  omega

/-! ## A dump -/

/-- A dump of a range that fits is the range. -/
theorem memdumpFile_fits {addr len : U32} (hfits : RangeFits addr len) (mem : Nat → U8) :
    memdumpFile addr len mem = some
      ((List.range (rangeEnd addr len - rangeStart addr)).map
        fun i => mem (rangeStart addr + i)) := by
  have haddr : (mapAddr addr).toNat < 0x01000000 := mapAddr_lt addr
  have hlen := copyLen_toNat haddr hfits
  have hrange : (copyLen (mapAddr addr) (roundArg len)).toNat =
      rangeEnd addr len - rangeStart addr := by
    rw [hlen, rangeEnd, rangeStart]
    omega
  unfold memdumpFile
  dsimp only
  rw [if_pos, hrange, rangeStart]
  rw [hlen]
  omega

/-- One that does not fit fails. -/
theorem memdumpFile_wraps {addr len : U32} (hwraps : ¬ RangeFits addr len) (mem : Nat → U8) :
    memdumpFile addr len mem = none := by
  have haddr : (mapAddr addr).toNat < 0x01000000 := mapAddr_lt addr
  unfold memdumpFile
  dsimp only
  rw [copyLen_of_wraps haddr hwraps]
  refine if_neg ?_
  unfold RangeFits at hwraps
  show ¬ _ ≤ 0x01000000
  omega

theorem memdumpFile_length {addr len : U32} {mem : Nat → U8} {file : List U8}
    (h : memdumpFile addr len mem = some file) :
    file.length = rangeEnd addr len - rangeStart addr := by
  by_cases hfits : RangeFits addr len
  · rw [memdumpFile_fits hfits] at h
    rw [← Option.some.inj h, List.length_map, List.length_range]
  · rw [memdumpFile_wraps hfits] at h
    cases h

theorem memdumpFile_byte {addr len : U32} {mem : Nat → U8} {file : List U8}
    (h : memdumpFile addr len mem = some file) {i : Nat} (hi : i < file.length) :
    fileByte file i = mem (rangeStart addr + i) := by
  have hlength := memdumpFile_length h
  by_cases hfits : RangeFits addr len
  · rw [memdumpFile_fits hfits] at h
    obtain rfl := Option.some.inj h
    rw [hlength] at hi
    simp [fileByte, hi]
  · rw [memdumpFile_wraps hfits] at h
    cases h

/-- What a dump reads is what the model of its accesses says. -/
theorem memdumpFile_access {addr len : U32} {mem : Nat → U8} {file : List U8}
    (h : memdumpFile addr len mem = some file) :
    memdump addr len = [.load (rangeStart addr) file.length] := by
  have haddr : (mapAddr addr).toNat < 0x01000000 := mapAddr_lt addr
  by_cases hfits : RangeFits addr len
  · rw [memdumpFile_length h, rangeEnd, memdump]
    have hlen := copyLen_toNat haddr hfits
    unfold copyLen at hlen
    rw [hlen, rangeStart]
    congr 2
    omega
  · rw [memdumpFile_wraps hfits] at h
    cases h

/-! ## A dump loaded -/

/-- A file that is no longer than the mapping is loaded. -/
theorem memload_eq (addr len : U32) {file : List U8} (hfile : file.length ≤ 0x01000000)
    (mem : Nat → U8) :
    memload addr len file mem = some (store (rangeStart addr)
      (min ((min len.toNat file.length) / 4 * 4) (0x01000000 - rangeStart addr)) (fileByte file)
      mem) := by
  have haddr : (mapAddr addr).toNat < 0x01000000 := mapAddr_lt addr
  have hsize : (clipSize len file).toNat = min len.toNat file.length := by
    unfold clipSize
    split_ifs with hclip
    · rw [BitVec.toNat_ofNat]
      omega
    · omega
  have hround : (roundArg (clipSize len file)).toNat = min len.toNat file.length / 4 * 4 := by
    rw [roundArg_toNat, hsize]
  have hlen : (copyLen (mapAddr addr) (roundArg (clipSize len file))).toNat =
      min (roundArg (clipSize len file)).toNat (0x01000000 - (mapAddr addr).toNat) :=
    copyLen_toNat haddr (by omega)
  unfold memload
  dsimp only
  rw [hlen, hround, if_pos (by omega), rangeStart]

/-- A dump of what fits in the 32 bits of a length is always loaded, wherever it goes. -/
theorem memload_memdump (addr len addr' len' : U32) (mem mem' : Nat → U8) :
    (memdumpFile addr len mem = none ↔ ¬ RangeFits addr len) ∧
      ∀ file, memdumpFile addr len mem = some file →
        file.length = rangeEnd addr len - rangeStart addr ∧
          (∀ i < file.length, fileByte file i = mem (rangeStart addr + i)) ∧
          memload addr' len' file mem' = some (store (rangeStart addr')
            (min (min (roundArg len').toNat file.length) (0x01000000 - rangeStart addr'))
            (fun i => mem (rangeStart addr + i)) mem') := by
  constructor
  · constructor
    · intro hnone hfits
      rw [memdumpFile_fits hfits] at hnone
      cases hnone
    · intro hwraps
      exact memdumpFile_wraps hwraps mem
  · intro file hfile
    have hlength := memdumpFile_length hfile
    have hend := rangeEnd_le addr len
    have hwords : 4 ∣ file.length := by
      rw [hlength]
      exact Nat.dvd_sub (rangeEnd_dvd addr len) (mapAddr_dvd addr)
    refine ⟨hlength, fun _ => memdumpFile_byte hfile, ?_⟩
    have hclip : min len'.toNat file.length / 4 * 4 = min (roundArg len').toNat file.length := by
      rw [roundArg_toNat]
      omega
    rw [memload_eq addr' len' (by omega), hclip]
    congr 1
    apply store_congr
    intro i hi
    exact memdumpFile_byte hfile (by omega)

/-! ## Words turned round -/

/-- The bytes of a word that `swab32` turned round. -/
theorem byteOf_swab32 (x : U32) {j : Nat} (hj : j < 4) :
    byteOf (swab32 x) j = byteOf x (3 - j) := by
  apply BitVec.eq_of_getLsbD_eq
  intro i hi
  simp only [byteOf, BitVec.getLsbD_setWidth, BitVec.getLsbD_ushiftRight, hi, decide_true,
    Bool.true_and]
  rw [getLsbD_swab32 x (by omega)]
  congr 1
  omega

/-- What is in a byte of the buffer before it is read: a byte of the word before it, and 0 in the
first word. -/
def staleByte (file : List U8) (i : Nat) : U8 := if 4 ≤ i then fileByte file (i - 4) else 0

/-- Byte `i` as the loop reads it. -/
def freadByte (file : List U8) (i : Nat) : U8 := (file[i]?).getD (staleByte file i)

theorem freadByte_of_lt {file : List U8} {i : Nat} (hi : i < file.length) :
    freadByte file i = fileByte file i := by
  simp [freadByte, fileByte, hi]

/-- A word is read over the one before it. -/
theorem byteOf_freadWord {file : List U8} {i j : Nat} {buf : U32} (hj : j < 4)
    (hbuf : byteOf buf j = staleByte file (i + j)) :
    byteOf (freadWord file i buf) j = freadByte file (i + j) := by
  rw [freadWord, byteOf_dwordAt _ _ hj, Nat.zero_add, hbuf, freadByte]

/-- A word that is stored is turned round. -/
theorem byteOf_swab32_freadWord {file : List U8} {i j : Nat} {buf : U32} (hj : j < 4)
    (hbuf : ∀ j < 4, byteOf buf j = staleByte file (i + j)) :
    byteOf (swab32 (freadWord file i buf)) j = freadByte file (i + mirror 4 j) := by
  rw [byteOf_swab32 _ hj, byteOf_freadWord (by omega) (hbuf _ (by omega)), mirror_of_lt hj]

/-- The loop with `n` rounds to go. -/
theorem readDataLoop_rounds {start size : Nat} {file : List U8} (hsize : size ≤ file.length)
    (n : Nat) {i : Nat} {buf : U32} {mem : Nat → U8} (hdone : size ≤ i + 4 * n)
    (hrounds : ∀ k < n, i + 4 * k < size) (hfits : start + i ≤ 0x01000000)
    (hbuf : 0 < n → ∀ j < 4, byteOf buf j = staleByte file (i + j)) :
    readDataLoop start size file i buf mem =
      if start + i + 4 * n ≤ 0x01000000 then
        some (store (start + i) (4 * n) (fun k => freadByte file (i + mirror 4 k)) mem)
      else none := by
  induction n generalizing i buf mem with
  | zero =>
      rw [readDataLoop, if_neg (by omega), Nat.mul_zero, store_zero, if_pos (by omega)]
  | succ n ih =>
      have hround : i < size := hrounds 0 (by omega)
      have hword := hbuf (by omega)
      have hlater : ∀ k < n, i + 4 + 4 * k < size := by
        intro k hk
        have hnext := hrounds (k + 1) (by omega)
        omega
      -- where another word follows, the file has all of this one
      have hstale : 0 < n → ∀ j < 4,
          byteOf (freadWord file i buf) j = staleByte file (i + 4 + j) := by
        intro hn j hj
        have hnext := hrounds 1 (by omega)
        rw [byteOf_freadWord hj (hword j hj), freadByte_of_lt (by omega), staleByte,
          if_pos (by omega)]
        congr 1
        omega
      rw [readDataLoop, if_pos hround]
      by_cases hmapped : start + i + 4 ≤ 0x01000000
      · rw [if_pos hmapped, ih (by omega) hlater (by omega) hstale]
        by_cases hall : start + i + 4 * (n + 1) ≤ 0x01000000
        · rw [if_pos (by omega), if_pos hall, Nat.mul_succ, Nat.add_comm (4 * n) 4,
            ← store_append, ← Nat.add_assoc]
          congr 2
          · ext k
            rw [mirror_add (by omega), ← Nat.add_assoc]
          · apply store_congr
            intro j hj
            exact byteOf_swab32_freadWord hj hword
        · rw [if_neg (by omega), if_neg hall]
      · rw [if_neg hmapped, if_neg (by omega)]

/-! ## The tool as a whole -/

/-- The number of bytes that are read: of the file, of the length, which is at least 4, and of
the mapping.  Where the range wraps, only the file limits it. -/
def swabSize (addr len : U32) (file : List U8) : Nat :=
  if (mapAddr addr).toNat + (roundArg len).toNat < 2 ^ 32 then
    min file.length (min (max (roundArg len).toNat 4) (0x01000000 - rangeStart addr))
  else file.length

theorem readData_eq {file : List U8} (hfile : file.length < 2 ^ 31) {start : Nat}
    (hstart : start ≤ 0x01000000) (len : U32) (mem : Nat → U8) :
    readData file start len mem =
      if start + 4 * ((min file.length len.toNat + 3) / 4) ≤ 0x01000000 then
        some (store start (4 * ((min file.length len.toNat + 3) / 4))
          (fun k => freadByte file (mirror 4 k)) mem)
      else none := by
  have hlength : (BitVec.ofNat 32 file.length).toNat = file.length := by
    rw [BitVec.toNat_ofNat]
    omega
  have hsize : (if len < BitVec.ofNat 32 file.length then len
      else BitVec.ofNat 32 file.length).toNat = min file.length len.toNat := by
    split_ifs with hclip
    · rw [BitVec.lt_def, hlength] at hclip
      omega
    · rw [BitVec.lt_def, hlength] at hclip
      omega
  have hint : (if len < BitVec.ofNat 32 file.length then len
      else BitVec.ofNat 32 file.length).toInt.toNat = min file.length len.toNat := by
    rw [BitVec.toInt_eq_toNat_of_lt (by omega), hsize, Int.toNat_natCast]
  unfold readData
  dsimp only
  rw [hint, readDataLoop_rounds (Nat.min_le_left _ _) ((min file.length len.toNat + 3) / 4)
    (by omega) (by omega) (by omega)]
  · simp only [Nat.add_zero, Nat.zero_add]
  · intro _ j hj
    have hzero : byteOf 0 j = 0 := by simp [byteOf]
    rw [hzero, staleByte, if_neg (by omega)]

/-- The loop stays inside of the range, and where that wraps the tool fails exactly if the file
does not fit in the mapping.  Of a word the file has a part of, the other bytes are those of the
word before it. -/
theorem memloadswab_bytes (addr len : U32) {file : List U8} (hfile : file.length < 2 ^ 31)
    (mem : Nat → U8) :
    memloadswab addr len file mem =
      if rangeStart addr + swabSize addr len file ≤ 0x01000000 then
        some (store (rangeStart addr) (4 * ((swabSize addr len file + 3) / 4))
          (fun k => freadByte file (mirror 4 k)) mem)
      else none := by
  have haddr : (mapAddr addr).toNat < 0x01000000 := mapAddr_lt addr
  have hwords := mapAddr_dvd addr
  have hround := roundArg_dvd len
  have hlow : (if roundArg len > 4 then roundArg len else 4).toNat =
      max (roundArg len).toNat 4 := by
    have hfour : (4 : U32).toNat = 4 := rfl
    split_ifs with hlong
    · rw [gt_iff_lt, BitVec.lt_def, hfour] at hlong
      omega
    · rw [gt_iff_lt, BitVec.lt_def, hfour] at hlong
      omega
  unfold memloadswab
  dsimp only
  rw [readData_eq hfile (by omega)]
  unfold swabSize rangeStart at *
  by_cases hfits : (mapAddr addr).toNat + (roundArg len).toNat < 2 ^ 32
  · rw [if_pos hfits, copyLen_toNat haddr (by omega), hlow, if_pos (by omega), if_pos (by omega)]
  · have hmin : min file.length (roundArg len).toNat = file.length := by omega
    rw [if_neg hfits, copyLen_of_wraps haddr (by omega), hlow]
    have hmax : max (roundArg len).toNat 4 = (roundArg len).toNat := by omega
    rw [hmax, hmin]
    by_cases hroom : (mapAddr addr).toNat + file.length ≤ 0x01000000
    · rw [if_pos hroom, if_pos (by omega)]
    · rw [if_neg hroom, if_neg (by omega)]

/-- Six bytes to address 8: two bytes of the first word are there twice. -/
theorem memloadswab_bytes_part :
    memloadswab 8 0x100 [1, 2, 3, 4, 5, 6] (fun _ => 0) =
      if rangeStart 8 + swabSize 8 0x100 [1, 2, 3, 4, 5, 6] ≤ 0x01000000 then
        some (store (rangeStart 8) (4 * ((swabSize 8 0x100 [1, 2, 3, 4, 5, 6] + 3) / 4))
          (fun k => freadByte [1, 2, 3, 4, 5, 6] (mirror 4 k)) fun _ => 0)
      else none := memloadswab_bytes 8 0x100 (by simp) _

/-! ## Turned round twice -/

/-- Words that fit are loaded as they are, each turned round. -/
theorem memloadswab_words {addr len : U32} {file : List U8} (hwords : 4 ∣ file.length)
    (hroom : rangeStart addr + file.length ≤ 0x01000000)
    (hlen : file.length ≤ (roundArg len).toNat) (mem : Nat → U8) :
    memloadswab addr len file mem = some (store (rangeStart addr) file.length
      (fun k => fileByte file (mirror 4 k)) mem) := by
  have hsize : swabSize addr len file = file.length := by
    unfold swabSize
    split_ifs
    · omega
    · rfl
  have hround : 4 * ((file.length + 3) / 4) = file.length := by omega
  rw [memloadswab_bytes addr len (by omega), hsize, if_pos hroom, hround]
  congr 1
  apply store_congr
  intro k hk
  exact freadByte_of_lt ((mirror_lt_iff (by omega) hwords k).mpr hk)

/-- A file of whole words that goes through the memory comes out with each of them turned round,
and where the dump is loaded once more the memory gets what the plain tool loads of the file. -/
theorem memloadswab_memdump {addr len : U32} {file : List U8} (hwords : 4 ∣ file.length)
    (hroom : rangeStart addr + file.length ≤ 0x01000000)
    (hlen : file.length ≤ (roundArg len).toNat) (mem : Nat → U8) :
    ∃ loaded swabbed, memloadswab addr len file mem = some loaded ∧
      memdumpFile addr (BitVec.ofNat 32 file.length) loaded = some swabbed ∧
      swabbed.length = file.length ∧
      (∀ k < file.length, fileByte swabbed k = fileByte file (mirror 4 k)) ∧
      ∀ (addr' len' : U32) (mem' : Nat → U8),
        rangeStart addr' + file.length ≤ 0x01000000 → file.length ≤ (roundArg len').toNat →
          memloadswab addr' len' swabbed mem' = memload addr' len' file mem' := by
  have haddr : (mapAddr addr).toNat < 0x01000000 := mapAddr_lt addr
  have hlength : (roundArg (BitVec.ofNat 32 file.length)).toNat = file.length := by
    rw [roundArg_toNat, BitVec.toNat_ofNat]
    omega
  have hfits : RangeFits addr (BitVec.ofNat 32 file.length) := by
    rw [RangeFits, hlength]
    omega
  have hrange : rangeEnd addr (BitVec.ofNat 32 file.length) - rangeStart addr = file.length := by
    rw [rangeEnd, hlength]
    unfold rangeStart at *
    omega
  obtain ⟨swabbed, hdump⟩ : ∃ swabbed, memdumpFile addr (BitVec.ofNat 32 file.length)
      (store (rangeStart addr) file.length (fun k => fileByte file (mirror 4 k)) mem) =
        some swabbed := ⟨_, memdumpFile_fits hfits _⟩
  have hswabbed : swabbed.length = file.length := (memdumpFile_length hdump).trans hrange
  have hbyte : ∀ k < file.length, fileByte swabbed k = fileByte file (mirror 4 k) := by
    intro k hk
    rw [memdumpFile_byte hdump (by omega), store_get hk]
  refine ⟨_, swabbed, memloadswab_words hwords hroom hlen mem, hdump, hswabbed, hbyte, ?_⟩
  intro addr' len' mem' hroom' hlen'
  have hround := roundArg_toNat len'
  have hsame : min (min len'.toNat file.length / 4 * 4) (0x01000000 - rangeStart addr') =
      file.length := by omega
  rw [memload_eq addr' len' (by omega), hsame,
    memloadswab_words (by omega) (by omega) (by omega), hswabbed]
  congr 1
  apply store_congr
  intro k hk
  -- a word that is turned round twice is the word
  rw [hbyte _ ((mirror_lt_iff (by omega) hwords k).mpr hk), mirror_mirror (by omega)]

/-- Two words at address 8. -/
theorem memloadswab_memdump_two :
    ∃ loaded swabbed, memloadswab 8 8 [1, 2, 3, 4, 5, 6, 7, 8] (fun _ => 0) = some loaded ∧
      memdumpFile 8 (BitVec.ofNat 32 8) loaded = some swabbed ∧ swabbed.length = 8 ∧
      (∀ k < 8, fileByte swabbed k = fileByte [1, 2, 3, 4, 5, 6, 7, 8] (mirror 4 k)) ∧
      ∀ (addr' len' : U32) (mem' : Nat → U8),
        rangeStart addr' + 8 ≤ 0x01000000 → 8 ≤ (roundArg len').toNat →
          memloadswab addr' len' swabbed mem' =
            memload addr' len' [1, 2, 3, 4, 5, 6, 7, 8] mem' :=
  memloadswab_memdump (by simp) (Nat.le_of_ble_eq_true rfl) (Nat.le_of_ble_eq_true rfl) fun _ => 0

end Tl880
