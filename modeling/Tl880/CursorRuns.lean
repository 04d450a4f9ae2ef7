import Tl880.CursorSurface

/-!
# The registers of the hardware cursor

`tl880_show_cursor` and `tl880_set_cursor_position` of `driver/tl880cursor.c` write fields of the
registers 0x10000, 0x10100, 0x10104 and 0x10108, each of them read, changed and written back.  Seen
bit by bit a call is a list of patches, so after any sequence of calls a field holds what the last
call that is about it has put there, whatever the other calls have done to the same register.
-/

namespace Tl880

open Patch

/-! ## The driver -/

/-- `tl880_set_cursor_position`.  The position is a pair of `int`s. -/
def tl880SetCursorPosition (x y : U32) (r : RegSpace) : RegSpace :=
  let r := tl880WriteRegbits r 0x10104 0xa 0 x
  tl880WriteRegbits r 0x10104 0x1a 0x10 y

/-- A call that writes the registers of the cursor. -/
inductive CursorRegCall
  | showCursor (surface : Option (SOverlaySurface 64)) (state : U8)
  | setPosition (x y : U32)

def cursorRegCall (r : RegSpace) : CursorRegCall → RegSpace
  | .showCursor surface state => tl880ShowCursor surface state r
  | .setPosition x y => tl880SetCursorPosition x y r

/-! ## Fields -/

/-- The fields of the cursor. -/
inductive CursorField
  | x
  | y
  | address
  | scaleX
  | scaleY
  | cutX
  | cutY
  | visible
  deriving DecidableEq

/-- A field of a register. -/
structure RegField where
  reg : U32
  high : Nat
  low : Nat

/-- Where a field is. -/
def CursorField.place : CursorField → RegField
  | x => ⟨0x10104, 0xa, 0⟩
  | y => ⟨0x10104, 0x1a, 0x10⟩
  | address => ⟨0x10100, 0x19, 4⟩
  | scaleX => ⟨0x10108, 9, 8⟩
  | scaleY => ⟨0x10108, 0x19, 0x18⟩
  | cutX => ⟨0x10108, 7, 0⟩
  | cutY => ⟨0x10108, 0x17, 0x10⟩
  | visible => ⟨0x10000, 3, 3⟩

/-- A bit of a register is one of a field. -/
def CursorField.Covers (field : CursorField) (reg : U32) (i : Nat) : Prop :=
  reg = field.place.reg ∧ field.place.low ≤ i ∧ i ≤ field.place.high

instance CursorField.decidableCovers (field : CursorField) (reg : U32) (i : Nat) :
    Decidable (field.Covers reg i) :=
  inferInstanceAs (Decidable (_ ∧ _))

/-- What is put in a field. -/
abbrev FieldPut := CursorField × U32

/-- What is put in the fields for the surface.  A cursor that is hidden needs none. -/
def surfacePuts (surface : Option (SOverlaySurface 64)) (state : U8) : List FieldPut :=
  match surface with
  | some c =>
      if state ≠ 0 then
        [(.address, (c.fieldC / 16).setWidth 32), (.scaleX, c.field3c.setWidth 32),
          (.scaleY, c.field40.setWidth 32), (.cutX, c.field14.setWidth 32),
          (.cutY, c.field18.setWidth 32)]
      else []
  | none => []

/-- What a call puts in the fields. -/
def cursorPuts : CursorRegCall → List FieldPut
  | .setPosition x y => [(.x, x), (.y, y)]
  | .showCursor surface state => surfacePuts surface state ++ [(.visible, state.setWidth 32)]

/-- What a call says about a field. -/
def CursorField.said (field : CursorField) (call : CursorRegCall) : Option U32 :=
  (cursorPuts call).reverse.findSome? fun put => if put.1 = field then some put.2 else none

/-- The registers agree with the calls that were made. -/
structure CursorAgrees (r : RegSpace) (calls : List CursorRegCall) : Prop where
  fields : ∀ (field : CursorField) (reg : U32) (i : Nat), field.Covers reg i →
    (tl880ReadRegister (calls.foldl cursorRegCall r) reg).getLsbD i =
      ((calls.reverse.findSome? field.said).map fun v => v.getLsbD (i - field.place.low)).getD
        ((tl880ReadRegister r reg).getLsbD i)
  others : ∀ (reg : U32) (i : Nat), (∀ field : CursorField, ¬ field.Covers reg i) →
    (tl880ReadRegister (calls.foldl cursorRegCall r) reg).getLsbD i =
      (tl880ReadRegister r reg).getLsbD i

/-! ## Calls as patches -/

/-- The bits of all registers. -/
def RegSpace.bits (r : RegSpace) (place : U32 × Nat) : Bool :=
  (tl880ReadRegister r place.1).getLsbD place.2

def putField (r : RegSpace) (put : FieldPut) : RegSpace :=
  tl880WriteRegbits r put.1.place.reg put.1.place.high put.1.place.low put.2

/-- The bits that are set. -/
def fieldPatch (put : FieldPut) : Patch (U32 × Nat) Bool := fun place =>
  if put.1.Covers place.1 place.2 then some (put.2.getLsbD (place.2 - put.1.place.low)) else none

theorem fieldPatch_covers {put : FieldPut} {place : U32 × Nat}
    (hin : put.1.Covers place.1 place.2) :
    fieldPatch put place = some (put.2.getLsbD (place.2 - put.1.place.low)) := if_pos hin

theorem fieldPatch_elsewhere {put : FieldPut} {place : U32 × Nat}
    (hout : ¬ put.1.Covers place.1 place.2) : fieldPatch put place = none := if_neg hout

/-- Every field is one that `set_bits` can write. -/
theorem CursorField.place_valid (field : CursorField) :
    field.place.reg < 0x100000#32 ∧ field.place.low ≤ field.place.high ∧ field.place.high < 32 ∧
      field.place.high - field.place.low < 31 := by
  cases field <;> decide

/-- Writing a field is the patch of its bits. -/
theorem putField_patched : Patched putField RegSpace.bits fieldPatch
    (fun r => r.mapped = true) fun _ => True where
  keep r put hmapped _ := by
    rw [putField, tl880WriteRegbits_mapped]
    exact hmapped
  shows r put hmapped _ := by
    obtain ⟨hreg, horder, hhigh, hnarrow⟩ := put.1.place_valid
    funext ⟨reg, i⟩
    by_cases hsame : reg = put.1.place.reg
    · have hread : tl880ReadRegister (putField r put) put.1.place.reg =
          setBits (tl880ReadRegister r put.1.place.reg) put.1.place.high put.1.place.low put.2 :=
        tl880ReadRegister_write_self hmapped hreg _
      rw [← hsame] at hread
      show (tl880ReadRegister (putField r put) reg).getLsbD i = _
      rw [hread, getLsbD_setBits horder hhigh hnarrow]
      by_cases hin : put.1.place.low ≤ i ∧ i ≤ put.1.place.high
      · rw [if_pos hin, apply_of_some (fieldPatch_covers ⟨hsame, hin⟩)]
      · rw [if_neg hin, apply_of_none (fieldPatch_elsewhere fun h => hin h.2)]
        rfl
    · rw [apply_of_none (fieldPatch_elsewhere fun h => hsame h.1)]
      show (tl880ReadRegister (putField r put) reg).getLsbD i = _
      rw [putField, tl880ReadRegister_writeRegbits_ne r hsame]
      rfl

theorem cursorRegCall_eq (r : RegSpace) (call : CursorRegCall) :
    cursorRegCall r call = (cursorPuts call).foldl putField r := by
  cases call with
  | setPosition x y => rfl
  | showCursor surface state =>
      cases surface with
      | none => rfl
      | some c =>
          by_cases hstate : state ≠ 0
          · simp only [cursorRegCall, tl880ShowCursor, cursorPuts, surfacePuts, if_pos hstate]
            rfl
          · simp only [cursorRegCall, tl880ShowCursor, cursorPuts, surfacePuts, if_neg hstate]
            rfl

theorem cursorRegCalls_eq (r : RegSpace) (calls : List CursorRegCall) :
    calls.foldl cursorRegCall r = (calls.flatMap cursorPuts).foldl putField r := by
  induction calls generalizing r with
  | nil => rfl
  | cons call calls ih =>
      rw [List.foldl_cons, ih, List.flatMap_cons, List.foldl_append, cursorRegCall_eq]

/-! ## Runs -/

/-- No two fields share a bit. -/
theorem CursorField.Covers.unique {field field' : CursorField} {reg : U32} {i : Nat}
    (h : field.Covers reg i) (h' : field'.Covers reg i) : field = field' := by
  obtain ⟨rfl, hlow, hhigh⟩ := h
  obtain ⟨hreg, hlow', hhigh'⟩ := h'
  revert hreg hlow hhigh hlow' hhigh'
  cases field <;> cases field' <;> simp [CursorField.place] <;> omega

/-- What a call's writes do to a bit of a field. -/
theorem last_cursorPuts (call : CursorRegCall) {field : CursorField} {reg : U32} {i : Nat}
    (hin : field.Covers reg i) :
    last ((cursorPuts call).map fieldPatch) (reg, i) =
      (field.said call).map fun v => v.getLsbD (i - field.place.low) := by
  rw [last_map, CursorField.said, List.map_findSome?]
  congr 1
  funext put
  by_cases hfield : put.1 = field
  · subst hfield
    rw [fieldPatch_covers hin]
    simp
  · rw [fieldPatch_elsewhere fun h => hfield (h.unique hin)]
    simp [hfield]

/-- A bit after some calls. -/
theorem cursorRegCalls_bit {r : RegSpace} (hmapped : r.mapped = true) (calls : List CursorRegCall)
    (reg : U32) (i : Nat) :
    (tl880ReadRegister (calls.foldl cursorRegCall r) reg).getLsbD i =
      (calls.reverse.findSome? fun call => last ((cursorPuts call).map fieldPatch) (reg, i)).getD
        ((tl880ReadRegister r reg).getLsbD i) := by
  have hrun : ((calls.flatMap cursorPuts).foldl putField r).bits (reg, i) =
      (last ((calls.flatMap cursorPuts).map fieldPatch) (reg, i)).getD (r.bits (reg, i)) :=
    putField_patched.view_foldl hmapped (fun _ _ => trivial) (reg, i)
  rw [← cursorRegCalls_eq, List.map_flatMap, last_flatMap] at hrun
  exact hrun

/-- Every field of the cursor holds what the last call that is about it has put there, and no
other bit of any register changes. -/
theorem cursorRegs_agree {r : RegSpace} (hmapped : r.mapped = true) (calls : List CursorRegCall) :
    CursorAgrees r calls where
  fields field reg i hin := by
    rw [cursorRegCalls_bit hmapped, List.map_findSome?]
    congr 2
    funext call
    exact last_cursorPuts call hin
  others reg i hout := by
    rw [cursorRegCalls_bit hmapped, List.findSome?_eq_none_iff.mpr]
    · rfl
    · intro call _
      apply last_eq_none
      intro p hp
      obtain ⟨put, -, rfl⟩ := List.mem_map.mp hp
      exact fieldPatch_elsewhere (hout put.1)

/-- The cursor is hidden and then moved. -/
theorem cursorRegs_agree_moved :
    CursorAgrees blankRegs [.showCursor none 0, .setPosition 100 200] :=
  cursorRegs_agree rfl _

end Tl880
