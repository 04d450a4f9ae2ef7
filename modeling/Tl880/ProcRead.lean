import Tl880.Registers
import Mathlib.Algebra.Group.Nat.Defs
import Mathlib.Data.List.Induction

/-!
# The listing under /proc

`tl880_proc_read` of `driver/tl880proc.c` writes a line for each card into a page of `count`
bytes.  Each round prints the whole text so far and one more line over the text so far, but
gives `snprintf` only the room that is left behind that text.

The page is the list of its bytes, and the text on it is what stands before the first NUL.  The
text is printed over itself as if it had been read before.
-/

namespace Tl880

/-! ## Texts -/

/-- The end of a text. -/
def nul : Char := '\x00'

/-- The text at the start of some bytes. -/
def textOf (bytes : List Char) : List Char := bytes.takeWhile fun c => c ≠ nul

/-- `strlen` -/
def strlen (bytes : List Char) : Nat := (textOf bytes).length

/-- `%u` -/
def decimal (n : Nat) : List Char := Nat.toDigits 10 n

/-- `%04x` for a width of 4, `%08lx` for a width of 8 -/
def hexadecimal (width n : Nat) : List Char := (Nat.toDigits 16 n).leftpad width '0'

/-! ## The driver -/

/-- The part of `struct tl880_dev` that is listed.  The text in `name[64]` has its NUL there. -/
structure ProcCard where
  id : U32
  name : List Char
  subsysVendorId : U16
  subsysDeviceId : U16
  dmaphys : U64
  nameFits : name.length < 64
  nameText : nul ∉ name

/-- The line of a card, `"%u: %s\t%04x:%04x\tDMA@%08lx\n"`. -/
def ProcCard.line (card : ProcCard) : List Char :=
  decimal card.id.toNat ++ ": ".toList ++ card.name ++ "\t".toList ++
    hexadecimal 4 card.subsysVendorId.toNat ++ ":".toList ++
    hexadecimal 4 card.subsysDeviceId.toNat ++ "\tDMA@".toList ++
    hexadecimal 8 card.dmaphys.toNat ++ "\n".toList

/-- The bytes of the page, and how far it was written. -/
structure ProcPage where
  bytes : List Char
  written : Nat

namespace ProcPage

/-- Bytes are written from the start of the page. -/
def write (page : ProcPage) (out : List Char) : ProcPage where
  bytes := out ++ page.bytes.drop out.length
  written := max page.written out.length

/-- `snprintf` to the start of the page, for the text that the format gives -/
def snprintf (page : ProcPage) (size : U64) (text : List Char) : ProcPage :=
  if size = 0 then page else page.write (text.take (size.toNat - 1) ++ [nul])

/-- `count - strlen(page)`, which is unsigned. -/
def room (page : ProcPage) (count : BitVec 32) : U64 :=
  count.signExtend 64 - BitVec.ofNat 64 (strlen page.bytes)

/-- The body of the loop -/
def printCard (page : ProcPage) (count : BitVec 32) (card : ProcCard) : ProcPage :=
  page.snprintf (page.room count) (textOf page.bytes ++ card.line)

end ProcPage

/-- The loop: the cards that are left, and the page. -/
def procLoop (count : BitVec 32) : List ProcCard → ProcPage → List ProcCard × ProcPage
  | [], page => ([], page)
  | card :: next, page =>
      if page.room count > 0 then
        procLoop count next (page.printCard count card)
      else (card :: next, page)

/-- What a call leaves behind: the page, `*eof` and the value it returns. -/
structure ProcResult where
  page : ProcPage
  eof : Int
  returned : BitVec 32

/-- `tl880_proc_read`, which does not look at `start`, `offset` and `data`. -/
def tl880ProcRead (count : BitVec 32) (cards : List ProcCard) (page : List Char) (eof : Int) :
    ProcResult :=
  let (tl880dev, page) := procLoop count cards (ProcPage.write ⟨page, 0⟩ [nul])
  { page := page
    eof := if tl880dev.isEmpty then 1 else eof
    returned := BitVec.ofNat 32 (strlen page.bytes) }

/-! ## Listings -/

/-- The lines of all cards. -/
def listing (cards : List ProcCard) : List Char := cards.flatMap ProcCard.line

/-- The listing is complete if it fits, and nothing is written behind `count` bytes. -/
def ListsProperly (count : BitVec 32) (cards : List ProcCard) (page : List Char) (eof : Int) :
    Prop :=
  ((listing cards).length + 1 ≤ count.toNat →
    textOf (tl880ProcRead count cards page eof).page.bytes = listing cards ∧
      (tl880ProcRead count cards page eof).eof = 1 ∧
      (tl880ProcRead count cards page eof).returned.toInt = (listing cards).length) ∧
    (tl880ProcRead count cards page eof).page.written ≤ count.toNat

/-- If the listing fits, so does it with the lines of all cards but the last before it. -/
def RewriteFits (count : BitVec 32) (cards : List ProcCard) : Prop :=
  (listing cards).length + 1 ≤ count.toNat →
    (listing cards.dropLast).length + (listing cards).length + 1 ≤ count.toNat

/-! ## Texts have no NUL -/

theorem nul_notMem_textOf (bytes : List Char) : nul ∉ textOf bytes := by
  intro hmem
  have hkept := List.all_takeWhile (p := fun c => decide (c ≠ nul)) (l := bytes)
  simpa using List.all_eq_true.mp hkept nul hmem

theorem textOf_append_nul {text : List Char} (htext : nul ∉ text) (rest : List Char) :
    textOf (text ++ nul :: rest) = text := by
  have hkept : ∀ c ∈ text, decide (c ≠ nul) = true := by
    intro c hc
    simpa using fun heq : c = nul => htext (heq ▸ hc)
  unfold textOf
  rw [List.takeWhile_append_of_pos hkept]
  simp

theorem digitChar_ne_nul (n : Nat) : n.digitChar ≠ nul := Nat.digitChar_ne nul (by decide)

theorem nul_notMem_toDigits (b n : Nat) : nul ∉ Nat.toDigits b n := by
  have hcore : ∀ fuel n ds, nul ∉ ds → nul ∉ Nat.toDigitsCore b fuel n ds := by
    intro fuel
    induction fuel with
    | zero =>
        intro n ds hds
        exact hds
    | succ fuel ih =>
        intro n ds hds
        have hcons : nul ∉ (n % b).digitChar :: ds := by
          simp [hds, (digitChar_ne_nul (n % b)).symm]
        rw [Nat.toDigitsCore]
        split_ifs
        · exact hcons
        · exact ih _ _ hcons
  exact hcore _ _ _ List.not_mem_nil

theorem nul_notMem_hexadecimal (width n : Nat) : nul ∉ hexadecimal width n := by
  unfold hexadecimal List.leftpad
  rw [List.mem_append, List.mem_replicate]
  rintro (⟨-, hzero⟩ | hdigits)
  · revert hzero
    decide
  · exact nul_notMem_toDigits 16 n hdigits

theorem ProcCard.nul_notMem_line (card : ProcCard) : nul ∉ card.line := by
  have hdecimal := nul_notMem_toDigits 10 card.id.toNat
  have hformat : nul ∉ ": ".toList ∧ nul ∉ "\t".toList ∧ nul ∉ ":".toList ∧
      nul ∉ "\tDMA@".toList ∧ nul ∉ "\n".toList := by decide
  obtain ⟨hcolon, htab, hbetween, hdma, hend⟩ := hformat
  simp only [ProcCard.line, decimal, List.mem_append, not_or]
  exact ⟨⟨⟨⟨⟨⟨⟨⟨⟨hdecimal, hcolon⟩, card.nameText⟩, htab⟩, nul_notMem_hexadecimal _ _⟩, hbetween⟩,
    nul_notMem_hexadecimal _ _⟩, hdma⟩, nul_notMem_hexadecimal _ _⟩, hend⟩

/-! ## One round -/

/-- A positive `int` is the same number unsigned. -/
theorem toNat_of_toInt_pos {count : BitVec 32} (hcount : 0 < count.toInt) :
    0 < count.toNat ∧ count.toNat < 2 ^ 31 := by
  have hcond := count.toInt_eq_toNat_cond
  have hlt := count.isLt
  split_ifs at hcond <;> omega

/-- The text after a round, in a page of `n` bytes. -/
def rewriteText (n : Nat) (text : List Char) (card : ProcCard) : List Char :=
  (text ++ card.line).take (n - text.length - 1)

/-- Where the text leaves room in the page. -/
structure ProcPage.Ok (page : ProcPage) (count : BitVec 32) : Prop where
  room : strlen page.bytes < count.toNat
  inside : page.written ≤ count.toNat

/-- Neither the conversion of `count` nor the difference wraps. -/
theorem ProcPage.Ok.room_toNat {page : ProcPage} {count : BitVec 32} (h : page.Ok count)
    (hcount : 0 < count.toInt) :
    (page.room count).toNat = count.toNat - strlen page.bytes := by
  have hroom := h.room
  obtain ⟨-, hsmall⟩ := toNat_of_toInt_pos hcount
  have hwide : (count.signExtend 64).toNat = count.toNat := by
    have hmsb : count.msb = false := by
      rw [BitVec.msb_eq_false_iff_two_mul_lt]
      omega
    rw [BitVec.signExtend_eq_setWidth_of_msb_false hmsb, BitVec.toNat_setWidth]
    omega
  rw [ProcPage.room, BitVec.toNat_sub, hwide, BitVec.toNat_ofNat]
  omega

/-- A text that is printed with room for at least its NUL is cut to the room. -/
theorem ProcPage.snprintf_text (page : ProcPage) {size : U64} (hsize : 0 < size.toNat)
    {text : List Char} (htext : nul ∉ text) :
    textOf (page.snprintf size text).bytes = text.take (size.toNat - 1) ∧
      (page.snprintf size text).written ≤ max page.written size.toNat := by
  have hne : size ≠ 0 := by
    rintro rfl
    simp at hsize
  rw [ProcPage.snprintf, if_neg hne]
  constructor
  · have hcut : nul ∉ text.take (size.toNat - 1) := fun hmem => htext (List.mem_of_mem_take hmem)
    show textOf (_ ++ [nul] ++ _) = _
    rw [List.append_assoc]
    exact textOf_append_nul hcut _
  · show max page.written _ ≤ _
    rw [List.length_append, List.length_take, List.length_singleton]
    omega

/-- A round cuts the text and the next line to the room behind the text. -/
theorem ProcPage.Ok.round {page : ProcPage} {count : BitVec 32} (h : page.Ok count)
    (hcount : 0 < count.toInt) (card : ProcCard) :
    (page.printCard count card).Ok count ∧
      textOf (page.printCard count card).bytes =
        rewriteText count.toNat (textOf page.bytes) card := by
  have hroom := h.room
  have hinside := h.inside
  have hsize := h.room_toNat hcount
  have htext : nul ∉ textOf page.bytes ++ card.line := by
    simp [nul_notMem_textOf, card.nul_notMem_line]
  have hpos : 0 < (page.room count).toNat := by omega
  obtain ⟨hbytes, hwritten⟩ := page.snprintf_text hpos htext
  refine ⟨⟨?_, ?_⟩, ?_⟩
  · rw [strlen, ProcPage.printCard, hbytes, List.length_take]
    omega
  · rw [ProcPage.printCard]
    omega
  · rw [ProcPage.printCard, hbytes, hsize]
    rfl

/-- All cards are listed, each in its round. -/
theorem procLoop_text {count : BitVec 32} (hcount : 0 < count.toInt) (cards : List ProcCard)
    {page : ProcPage} (h : page.Ok count) :
    (procLoop count cards page).1 = [] ∧ (procLoop count cards page).2.Ok count ∧
      textOf (procLoop count cards page).2.bytes =
        cards.foldl (rewriteText count.toNat) (textOf page.bytes) := by
  induction cards generalizing page with
  | nil => exact ⟨rfl, h, rfl⟩
  | cons card next ih =>
      have hroom : page.room count > 0 := by
        rw [gt_iff_lt, BitVec.lt_def, h.room_toNat hcount]
        have := h.room
        simp
        omega
      obtain ⟨hok, htext⟩ := h.round hcount card
      rw [procLoop, if_pos hroom, List.foldl_cons, ← htext]
      exact ih hok

/-! ## All rounds -/

theorem listing_snoc (cards : List ProcCard) (card : ProcCard) :
    listing (cards ++ [card]) = listing cards ++ card.line := by
  simp [listing]

theorem listing_dropLast_le (cards : List ProcCard) :
    (listing cards.dropLast).length ≤ (listing cards).length := by
  induction cards using List.reverseRecOn with
  | nil => exact Nat.le_refl _
  | append_singleton cards card _ =>
      rw [List.dropLast_concat, listing_snoc, List.length_append]
      omega

/-- The text is never longer than the listing. -/
theorem rewriteText_length_le (n : Nat) (cards : List ProcCard) :
    (cards.foldl (rewriteText n) []).length ≤ (listing cards).length := by
  induction cards using List.reverseRecOn with
  | nil => exact Nat.le_refl _
  | append_singleton cards card ih =>
      rw [List.foldl_append, List.foldl_cons, List.foldl_nil, listing_snoc, rewriteText,
        List.length_take, List.length_append, List.length_append]
      omega

/-- The text is the listing exactly when the last round has room for all of it behind the text
of the rounds before. -/
theorem rewriteText_eq_listing_iff {n : Nat} (hn : 0 < n) (cards : List ProcCard) :
    cards.foldl (rewriteText n) [] = listing cards ↔
      (listing cards.dropLast).length + (listing cards).length + 1 ≤ n := by
  induction cards using List.reverseRecOn with
  | nil => simp [listing, Nat.succ_le_of_lt hn]
  | append_singleton cards card ih =>
      have hshort := rewriteText_length_le n cards
      have hlast := listing_dropLast_le cards
      rw [List.foldl_append, List.foldl_cons, List.foldl_nil, List.dropLast_concat, listing_snoc,
        List.length_append]
      constructor
      · intro heq
        have hlength := congrArg List.length heq
        rw [rewriteText, List.length_take, List.length_append, List.length_append] at hlength
        omega
      · intro hfits
        rw [rewriteText, ih.mpr (by omega)]
        apply List.take_of_length_le
        rw [List.length_append]
        omega

/-- After a call the page has the text of all rounds, and the return value and `*eof` say so. -/
theorem tl880ProcRead_text {count : BitVec 32} (hcount : 0 < count.toInt)
    (cards : List ProcCard) (page : List Char) (eof : Int) :
    textOf (tl880ProcRead count cards page eof).page.bytes =
        cards.foldl (rewriteText count.toNat) [] ∧
      (tl880ProcRead count cards page eof).eof = 1 ∧
      (tl880ProcRead count cards page eof).returned.toInt =
        (cards.foldl (rewriteText count.toNat) []).length ∧
      (tl880ProcRead count cards page eof).page.Ok count := by
  obtain ⟨hn, hsmall⟩ := toNat_of_toInt_pos hcount
  have hempty : textOf (ProcPage.write ⟨page, 0⟩ [nul]).bytes = [] :=
    textOf_append_nul List.not_mem_nil _
  have hstart : (ProcPage.write ⟨page, 0⟩ [nul]).Ok count := by
    constructor
    · rw [strlen, hempty]
      exact hn
    · exact hn
  obtain ⟨hdone, hok, htext⟩ := procLoop_text hcount cards hstart
  rw [hempty] at htext
  refine ⟨htext, ?_, ?_, hok⟩
  · show (if _ then (1 : Int) else eof) = 1
    rw [hdone]
    rfl
  · have hroom := hok.room
    rw [strlen, htext] at hroom
    have hlength : (BitVec.ofNat 32 (cards.foldl (rewriteText count.toNat) []).length).toNat =
        (cards.foldl (rewriteText count.toNat) []).length := by
      rw [BitVec.toNat_ofNat]
      omega
    show (BitVec.ofNat 32 (textOf _).length).toInt = _
    rw [htext, BitVec.toInt_eq_toNat_of_lt (by omega), hlength]

/-- A call lists the cards properly exactly when, if the listing fits, there is room for it
behind the lines of all cards but the last. -/
theorem tl880ProcRead_lists_iff {count : BitVec 32} (hcount : 0 < count.toInt)
    (cards : List ProcCard) (page : List Char) (eof : Int) :
    ListsProperly count cards page eof ↔ RewriteFits count cards := by
  obtain ⟨hn, -⟩ := toNat_of_toInt_pos hcount
  obtain ⟨htext, heof, hreturned, hok⟩ := tl880ProcRead_text hcount cards page eof
  unfold ListsProperly RewriteFits
  rw [htext, heof, hreturned]
  constructor
  · rintro ⟨hcomplete, -⟩ hfits
    exact (rewriteText_eq_listing_iff hn cards).mp (hcomplete hfits).1
  · intro hrewrite
    refine ⟨?_, hok.inside⟩
    intro hfits
    have heq := (rewriteText_eq_listing_iff hn cards).mpr (hrewrite hfits)
    exact ⟨heq, rfl, by rw [heq]⟩

/-- A card without a name. -/
def namelessCard (id : U32) : ProcCard :=
  ⟨id, [], 0x1461, 0x0880, 0x7c0000, by decide, List.not_mem_nil⟩

/-- Two of them, in a page. -/
theorem tl880ProcRead_lists_iff_two :
    ListsProperly 0x1000 [namelessCard 0, namelessCard 1] [] 0 ↔
      RewriteFits 0x1000 [namelessCard 0, namelessCard 1] :=
  tl880ProcRead_lists_iff (by decide) _ [] 0

/-- For a reader of 60 bytes the listing of 54 bytes is cut to 32. -/
theorem tl880ProcRead_cut :
    ¬ ∀ (count : BitVec 32) (cards : List ProcCard) (page : List Char) (eof : Int),
      0 < count.toInt → ListsProperly count cards page eof := by
  intro hall
  have hcount : 0 < (60 : BitVec 32).toInt := by decide
  have hlength : (listing [namelessCard 0, namelessCard 1]).length = 54 := by decide
  have hfirst : (listing [namelessCard 0]).length = 27 := by decide
  obtain ⟨hcomplete, -⟩ := hall 60 [namelessCard 0, namelessCard 1] [] 0 hcount
  obtain ⟨htext, -⟩ := hcomplete (by rw [hlength]; decide)
  rw [(tl880ProcRead_text hcount _ [] 0).1] at htext
  have hfits := (rewriteText_eq_listing_iff (by decide) _).mp htext
  rw [List.dropLast_cons_cons, List.dropLast_singleton, hlength, hfirst] at hfits
  revert hfits
  decide

end Tl880
