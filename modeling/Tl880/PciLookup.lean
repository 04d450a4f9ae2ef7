import Tl880.CardList

/-!
# The card of a PCI device

`find_tl880_pci` of `driver/tl880util.c` loop by loop, and the card that `tl880_remove` of
`driver/tl880kern.c` tears down.  The lookup should prefer the card with the very
`struct pci_dev`, and take the card in the same slot else.  Its second pass has the
comparison of the slots the wrong way round and does not go on in the list, so it is of
use for no list that it is reached with, the empty one apart.
-/

namespace Tl880

open LinkedList

/-! ## The two passes -/

/-- The first pass: the card with this `struct pci_dev`. -/
def firstPass (dev : PciDev) : List Tl880Card → Option Tl880Card
  | [] => none
  | card :: rest => if card.pcidev.ptr = dev.ptr then some card else firstPass dev rest

/-- The second pass, for at most `fuel` rounds; `none` when it is still running. -/
def secondPass (dev : PciDev) : Nat → List Tl880Card → Option (Option Tl880Card)
  | 0, _ => none
  | _ + 1, [] => some none
  | fuel + 1, card :: rest =>
      -- `strcmp` is not 0 for strings that differ
      if card.pcidev.busId ≠ dev.busId then some (some card)
      -- the loop has no `list = list->next`
      else secondPass dev fuel (card :: rest)

/-- `find_tl880_pci`, whose second pass has at most `fuel` rounds. -/
def findTl880PciWithin (fuel : Nat) (list : List Tl880Card) (dev : PciDev) :
    Option (Option Tl880Card) :=
  match firstPass dev list with
  | some card => some (some card)
  | none => secondPass dev fuel list

theorem firstPass_eq_find? (dev : PciDev) (list : List Tl880Card) :
    firstPass dev list = list.find? fun card => card.pcidev.ptr = dev.ptr := by
  induction list with
  | nil => rfl
  | cons card rest ih =>
      rw [firstPass, List.find?_cons, ih]
      by_cases hptr : card.pcidev.ptr = dev.ptr
      · simp [hptr]
      · simp [hptr]

/-- The second pass stays with a head that is in the slot. -/
theorem secondPass_stuck {dev : PciDev} {head : Tl880Card} (rest : List Tl880Card)
    (hslot : head.pcidev.busId = dev.busId) (fuel : Nat) :
    secondPass dev fuel (head :: rest) = none := by
  induction fuel with
  | zero => rfl
  | succ fuel ih =>
      rw [secondPass, if_neg (not_not.mpr hslot)]
      exact ih

/-- A second pass that ends in its first round returns its result, and nothing else. -/
theorem secondPass_ends (dev : PciDev) (list : List Tl880Card) {result : Option Tl880Card}
    (hround : ∀ fuel, secondPass dev (fuel + 1) list = some result) :
    (∀ found, (∃ fuel, secondPass dev fuel list = some found) ↔ result = found) ∧
      ¬ ∀ fuel, secondPass dev fuel list = none := by
  constructor
  · intro found
    constructor
    · rintro ⟨fuel, hfuel⟩
      cases fuel with
      | zero => cases hfuel
      | succ fuel => exact Option.some.inj ((hround fuel).symm.trans hfuel)
    · rintro rfl
      exact ⟨1, hround 0⟩
  · intro hnever
    cases (hround 0).symm.trans (hnever 1)

/-- The loops return what `findTl880Pci` says, and go on forever where it says so. -/
theorem findTl880Pci_loops (list : List Tl880Card) (dev : PciDev) :
    (∀ found, (∃ fuel, findTl880PciWithin fuel list dev = some found) ↔
      findTl880Pci list dev = .returns found) ∧
    ((∀ fuel, findTl880PciWithin fuel list dev = none) ↔ findTl880Pci list dev = .diverges) := by
  unfold findTl880PciWithin findTl880Pci
  rw [firstPass_eq_find?]
  cases list.find? (fun card => card.pcidev.ptr = dev.ptr) with
  | some card => simp
  | none =>
      cases list with
      | nil =>
          obtain ⟨hreturns, hends⟩ := secondPass_ends dev [] fun _ => rfl
          simp [hreturns, hends]
      | cons head rest =>
          dsimp only
          by_cases hslot : head.pcidev.busId = dev.busId
          · simp [secondPass_stuck rest hslot, hslot]
          · obtain ⟨hreturns, hends⟩ := secondPass_ends dev (head :: rest)
              fun _ => if_pos hslot
            simp [hreturns, hends, hslot]

/-! ## What the lookup is for -/

/-- The first card with this `struct pci_dev`, or else the first one in its slot. -/
def wantedCard (list : List Tl880Card) (dev : PciDev) : Option Tl880Card :=
  (list.find? fun card => card.pcidev.ptr = dev.ptr).or
    (list.find? fun card => card.pcidev.busId = dev.busId)

/-- The card that `tl880_remove` gives to `tl880_unconfigure`. -/
def tornDown (dev : PciDev) (s : Driver) : Option Tl880Card :=
  if s.nTl880s.toInt ≤ 0 then none
  else
    match s.tl880List with
    | [] => none
    | head :: rest =>
        match findTl880Pci (head :: rest) dev with
        | .diverges => none
        | .returns none => none
        | .returns (some card) =>
            if card.ptr = head.ptr then some card
            else if (unlinkNext Tl880Card.ptr card.ptr (head :: rest)).isSome then some card
            else none

/-- The card is the device's, or in the slot of the device. -/
def InSlot (dev : PciDev) (card : Tl880Card) : Prop :=
  card.pcidev.ptr = dev.ptr ∨ card.pcidev.busId = dev.busId

/-- The lookup returns the wanted card after finitely many rounds, and a removal tears down
no card of another slot. -/
structure FindsCard (s : Driver) (dev : PciDev) : Prop where
  found : ∃ fuel, findTl880PciWithin fuel s.tl880List dev = some (wantedCard s.tl880List dev)
  slot : ∀ card ∈ tornDown dev s, InSlot dev card

/-- The wanted card is the device's, or in its slot. -/
theorem wantedCard_inSlot {list : List Tl880Card} {dev : PciDev} {card : Tl880Card}
    (h : wantedCard list dev = some card) : InSlot dev card := by
  unfold wantedCard at h
  rcases Option.or_eq_some_iff.mp h with hptr | ⟨-, hslot⟩
  · left
    simpa using List.find?_some hptr
  · right
    simpa using List.find?_some hslot

/-- What is torn down was found. -/
theorem tornDown_found {dev : PciDev} {s : Driver} {card : Tl880Card}
    (h : tornDown dev s = some card) : findTl880Pci s.tl880List dev = .returns (some card) := by
  unfold tornDown at h
  split_ifs at h
  cases hlist : s.tl880List with
  | nil =>
      rw [hlist] at h
      cases h
  | cons head rest =>
      rw [hlist] at h
      dsimp only at h
      cases hfind : findTl880Pci (head :: rest) dev with
      | diverges =>
          rw [hfind] at h
          cases h
      | returns found =>
          rw [hfind] at h
          cases found with
          | none => cases h
          | some other =>
              dsimp only at h
              split_ifs at h
              · rw [← h]
              · rw [← h]

/-- The lookup does its work exactly when a card has this `struct pci_dev`, or there is no
card at all. -/
theorem findsCard_iff (s : Driver) (dev : PciDev) :
    FindsCard s dev ↔
      s.tl880List = [] ∨ ∃ card ∈ s.tl880List, card.pcidev.ptr = dev.ptr := by
  have hloops := (findTl880Pci_loops s.tl880List dev).1
  constructor
  · intro hfinds
    have hfound := (hloops _).mp hfinds.found
    by_contra hnot
    obtain ⟨hnonempty, hother⟩ := not_or.mp hnot
    have hnone : s.tl880List.find? (fun card => card.pcidev.ptr = dev.ptr) = none := by
      rw [List.find?_eq_none]
      intro card hcard hptr
      exact hother ⟨card, hcard, by simpa using hptr⟩
    cases hlist : s.tl880List with
    | nil => exact hnonempty hlist
    | cons head rest =>
        rw [hlist] at hnone
        rw [hlist, findTl880Pci, wantedCard, hnone] at hfound
        dsimp only at hfound
        split_ifs at hfound with hslot
        -- the head, which is in another slot, is returned
        have hwanted := (PciLookup.returns.inj hfound).symm
        rw [Option.none_or] at hwanted
        exact hslot (by simpa using List.find?_some hwanted)
  · intro hlisted
    have hfound : findTl880Pci s.tl880List dev = .returns (wantedCard s.tl880List dev) := by
      rcases hlisted with hempty | ⟨card, hcard, hptr⟩
      · rw [hempty]
        rfl
      · cases hfind : s.tl880List.find? (fun card => card.pcidev.ptr = dev.ptr) with
        | none =>
            rw [List.find?_eq_none] at hfind
            exact absurd (by simpa using hptr) (hfind card hcard)
        | some other =>
            rw [findTl880Pci_of_mem hfind, wantedCard, hfind, Option.some_or]
    constructor
    · exact (hloops _).mpr hfound
    · intro card hcard
      rw [tornDown_found hcard] at hfound
      exact wantedCard_inSlot (PciLookup.returns.inj hfound).symm

/-- The kernel passes another `struct pci_dev` for the slot of the only card: the lookup
does not end. -/
theorem findsCard_stuck : ¬ ∀ (s : Driver) (dev : PciDev), FindsCard s dev := by
  intro h
  obtain ⟨fuel, hfuel⟩ := (h ⟨[newCard 1 (slotDevice 0x1000) 0], 1⟩ (slotDevice 0x2000)).found
  rw [findTl880PciWithin] at hfuel
  have hfirst : firstPass (slotDevice 0x2000) [newCard 1 (slotDevice 0x1000) 0] = none := by decide
  have hslot : (newCard 1 (slotDevice 0x1000) 0).pcidev.busId = (slotDevice 0x2000).busId := rfl
  have hstuck := secondPass_stuck [] hslot fuel
  rw [hfirst, hstuck] at hfuel
  cases hfuel

end Tl880
