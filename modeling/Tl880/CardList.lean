import Mathlib.Algebra.Group.Nat.Defs
import Tl880.Lib.LinkedList
import Tl880.Registers

/-!
# The list of cards

The model of `tl880_list`, `n_tl880s` and of the code that reads and changes
them: `find_tl880` and `find_tl880_pci` of `driver/tl880util.c`, the end of
`tl880_configure` and `tl880_remove` of `driver/tl880kern.c`.  A card stands for
one `struct tl880_dev`; `ptr` is its address, and the linked list is the Lean
list of its nodes.  What `tl880_remove` tears down in `tl880_unconfigure` is the
subject of `Tl880.Probe`.
-/

namespace Tl880

open LinkedList

/-- An address region of a card: `memphys` and `memlen`, and so on.  A PCI region
has a last address, so it does not reach beyond the address space. -/
structure Region where
  phys : U64
  len : U64
  fits : phys.toNat + len.toNat ≤ 2 ^ 64
  deriving DecidableEq

/-- The part of `struct pci_dev` the driver reads. -/
structure PciDev where
  ptr : U64
  busId : String
  bar0 : Region
  bar3 : Region
  bar4 : Region
  irq : U32
  deriving DecidableEq

/-- The part of `struct tl880_dev` that identifies a card. -/
structure Tl880Card where
  ptr : U64
  pcidev : PciDev
  id : U32
  minor : U32
  mem : Region
  reg : Region
  unk : Region
  deriving DecidableEq

/-- The three regions of a card: BAR 0, 3 and 4 of the device. -/
inductive MapType
  | mem
  | reg
  | unk
  deriving DecidableEq

/-- `pci_resource_start` and `pci_resource_len` of the BAR of a region. -/
def PciDev.resource (dev : PciDev) : MapType → Region
  | .mem => dev.bar0
  | .reg => dev.bar3
  | .unk => dev.bar4

/-- The region of a card. -/
def Tl880Card.region (card : Tl880Card) : MapType → Region
  | .mem => card.mem
  | .reg => card.reg
  | .unk => card.unk

/-- A region without memory. -/
def noRegion : Region := ⟨0, 0, by decide⟩

/-- A device in slot 0000:02:0a.0. -/
def slotDevice (ptr : U64) : PciDev := ⟨ptr, "0000:02:0a.0", noRegion, noRegion, noRegion, 0⟩

/-- The driver's variables.  `n_tl880s` is an `int`. -/
structure Driver where
  tl880List : List Tl880Card
  nTl880s : BitVec 32
  deriving DecidableEq

/-! ## Lookup -/

/-- `find_tl880`: the first card with this number. -/
def findTl880 (list : List Tl880Card) (tl880Id : U64) : Option Tl880Card :=
  list.find? fun card => card.id.setWidth 64 = tl880Id

/-- What `find_tl880_pci` can do: return a card or NULL, or loop forever. -/
inductive PciLookup
  | returns (card : Option Tl880Card)
  | diverges
  deriving DecidableEq

/-- `find_tl880_pci`.  The second pass never advances: it returns the head when
its bus id differs from the wanted one, and otherwise does not end. -/
def findTl880Pci (list : List Tl880Card) (dev : PciDev) : PciLookup :=
  match list.find? fun card => card.pcidev.ptr = dev.ptr with
  | some card => .returns card
  | none =>
      match list with
      | [] => .returns none
      -- the comparison of the bus ids is the wrong way round
      | head :: _ => if head.pcidev.busId ≠ dev.busId then .returns head else .diverges

/-! ## Insertion and removal -/

/-- The card `tl880_configure` builds for a device, as far as it is identified by
its number and regions. -/
def newCard (ptr : U64) (dev : PciDev) (nTl880s : BitVec 32) : Tl880Card where
  ptr := ptr
  pcidev := dev
  id := nTl880s
  minor := nTl880s * 4
  mem := dev.bar0
  reg := dev.bar3
  unk := dev.bar4

/-- The end of a successful `tl880_configure`: the card is linked behind the last
one and counted. -/
def linkCard (card : Tl880Card) (s : Driver) : Driver where
  tl880List := appendLast card s.tl880List
  nTl880s := s.nTl880s + 1

/-- `tl880_remove`; `none` when the lookup does not return. -/
def tl880Remove (dev : PciDev) (s : Driver) : Option Driver :=
  if s.nTl880s.toInt ≤ 0 then some s
  else
    match s.tl880List with
    | [] => some s
    | head :: rest =>
        match findTl880Pci (head :: rest) dev with
        | .diverges => none
        | .returns none => some s
        | .returns (some card) =>
            if card.ptr = head.ptr then
              -- "Only one card is loaded - delete the linked list"
              some ⟨[], s.nTl880s - 1⟩
            else
              match unlinkNext Tl880Card.ptr card.ptr (head :: rest) with
              | some list => some ⟨list, s.nTl880s - 1⟩
              -- no card is linked before this one
              | none => some s

/-! ## What a removal can do -/

theorem linkCard_list (card : Tl880Card) (s : Driver) :
    (linkCard card s).tl880List = s.tl880List ++ [card] := appendLast_eq card _

/-- A removal only takes cards off the list. -/
theorem tl880Remove_sublist {dev : PciDev} {s s' : Driver}
    (h : tl880Remove dev s = some s') : s'.tl880List.Sublist s.tl880List := by
  obtain ⟨list, n⟩ := s
  unfold tl880Remove at h
  dsimp only at h
  split_ifs at h
  · cases h
    exact List.Sublist.refl _
  · cases list with
    | nil =>
        cases h
        exact List.Sublist.refl _
    | cons head rest =>
        dsimp only at h
        split at h
        · cases h
        · cases h
          exact List.Sublist.refl _
        · split_ifs at h
          · cases h
            exact List.nil_sublist _
          · split at h
            · next hunlink =>
                cases h
                exact unlinkNext_sublist Tl880Card.ptr hunlink
            · cases h
              exact List.Sublist.refl _

/-- A listed device is found by its pointer. -/
theorem findTl880Pci_of_mem {list : List Tl880Card} {card : Tl880Card} {dev : PciDev}
    (hfind : list.find? (fun c => c.pcidev.ptr = dev.ptr) = some card) :
    findTl880Pci list dev = .returns card := by
  unfold findTl880Pci
  rw [hfind]

section Listed

variable {dev : PciDev} {head : Tl880Card} {rest : List Tl880Card} {n : BitVec 32}
  (hcount : 0 < n.toInt)
include hcount

/-- Removing the head drops the whole list. -/
theorem tl880Remove_head (hhead : head.pcidev.ptr = dev.ptr) :
    tl880Remove dev ⟨head :: rest, n⟩ = some ⟨[], n - 1⟩ := by
  have hfind : findTl880Pci (head :: rest) dev = .returns head :=
    findTl880Pci_of_mem (List.find?_cons_of_pos (by simpa using hhead))
  have hnot : ¬ n.toInt ≤ 0 := Int.not_le.mpr hcount
  simp [tl880Remove, hfind, hnot]

/-- Removing a card behind the head takes out that card only. -/
theorem tl880Remove_tail (hptr : ((head :: rest).map Tl880Card.ptr).Nodup)
    (hdev : ((head :: rest).map fun c => c.pcidev.ptr).Nodup)
    (hmem : dev.ptr ∈ rest.map fun c => c.pcidev.ptr) :
    tl880Remove dev ⟨head :: rest, n⟩ =
      some ⟨(head :: rest).filter fun c => c.pcidev.ptr ≠ dev.ptr, n - 1⟩ := by
  obtain ⟨card, hcard, hcarddev⟩ := List.mem_map.mp hmem
  have hcardhead : card.ptr ≠ head.ptr := by
    intro heq
    exact (List.nodup_cons.mp hptr).1 (heq ▸ List.mem_map_of_mem hcard)
  -- Among the listed cards, a device pointer and a card pointer pick the same card.
  have hsame : ∀ c ∈ head :: rest, (c.ptr = card.ptr ↔ c.pcidev.ptr = dev.ptr) := by
    intro c hc
    constructor
    · intro heq
      rw [List.inj_on_of_nodup_map hptr hc (List.mem_cons_of_mem _ hcard) heq]
      exact hcarddev
    · intro heq
      rw [List.inj_on_of_nodup_map hdev hc (List.mem_cons_of_mem _ hcard)
        (heq.trans hcarddev.symm)]
  have hfind : findTl880Pci (head :: rest) dev = .returns card :=
    findTl880Pci_of_mem (find?_key_eq_some (fun c : Tl880Card => c.pcidev.ptr) hdev
      (List.mem_cons_of_mem _ hcard) hcarddev)
  have hunlink : unlinkNext Tl880Card.ptr card.ptr (head :: rest) =
      some ((head :: rest).filter fun c => c.pcidev.ptr ≠ dev.ptr) := by
    rw [unlinkNext_eq_filter Tl880Card.ptr hptr (List.mem_map_of_mem hcard)]
    apply congrArg some
    apply List.filter_congr
    intro c hc
    rw [decide_eq_decide]
    exact not_congr (hsame c hc)
  have hnot : ¬ n.toInt ≤ 0 := Int.not_le.mpr hcount
  simp only [tl880Remove, hnot, hfind, if_false, if_neg hcardhead, hunlink]

end Listed

end Tl880
