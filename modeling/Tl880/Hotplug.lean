import Tl880.Lib.LabelledRun
import Tl880.CardList

/-!
# Hot-plug histories

`Hotplug` is the driver's card list together with the cards that are really
there: those probed and not removed since, in probe order.  A run is any
sequence of successful probes and of removals of present cards.

Two invariants are settled against every run.  The list is `Exact` as long as no
removal meets the head of a longer list, which `tl880_remove` takes for the only
card.  The cards are told apart by number (`UniqueIds`) as long as no probe finds
its number still in use, for `n_tl880s` is decremented whichever card goes.
-/

namespace Tl880

open LabelledRun LinkedList

/-- The driver's variables and the cards that are present. -/
structure Hotplug where
  driver : Driver
  present : List Tl880Card
  deriving DecidableEq

/-- The events of a run: `tl880_configure` succeeds for a device, with its
`struct tl880_dev` at `ptr`, or the kernel removes a device. -/
inductive HotplugEvent
  | probe (ptr : U64) (dev : PciDev)
  | remove (dev : PciDev)

/-- The driver as it is loaded. -/
def Hotplug.empty : Hotplug := ⟨⟨[], 0⟩, []⟩

/-- One event.  A probe is for a device that is not present, and its allocation
does not return the address of a present card; a removal is for a device that is
present. -/
def hotplugStep (s : Hotplug) : HotplugEvent → Option Hotplug
  | .probe ptr dev =>
      if ptr ∈ s.present.map Tl880Card.ptr ∨
          dev.ptr ∈ s.present.map (fun c => c.pcidev.ptr) then none
      else
        let card := newCard ptr dev s.driver.nTl880s
        some ⟨linkCard card s.driver, s.present ++ [card]⟩
  | .remove dev =>
      if dev.ptr ∈ s.present.map (fun c => c.pcidev.ptr) then
        (tl880Remove dev s.driver).map fun driver =>
          ⟨driver, s.present.filter fun c => c.pcidev.ptr ≠ dev.ptr⟩
      else none

/-! ## The list is exact -/

/-- The list holds the present cards, each once and in probe order, and
`n_tl880s` is their number. -/
structure Hotplug.Exact (s : Hotplug) : Prop where
  list : s.driver.tl880List = s.present
  once : s.driver.tl880List.Nodup
  count : s.driver.nTl880s.toInt = s.driver.tl880List.length

/-- `Exact`, with cards and devices told apart by their addresses. -/
structure Hotplug.Listed (s : Hotplug) : Prop where
  list : s.driver.tl880List = s.present
  count : s.driver.nTl880s.toInt = s.driver.tl880List.length
  ptrs : (s.driver.tl880List.map Tl880Card.ptr).Nodup
  devs : (s.driver.tl880List.map fun c => c.pcidev.ptr).Nodup

/-- What an event needs for the list to stay exact: a probe must not overflow the
counter, and a removal must not meet the head of a longer list. -/
def HotplugEvent.KeepsList (s : Hotplug) : HotplugEvent → Prop
  | .probe _ _ => s.driver.tl880List.length + 1 < 2 ^ 31
  | .remove dev => s.driver.tl880List.length = 1 ∨
      ∀ head ∈ s.driver.tl880List.head?, head.pcidev.ptr ≠ dev.ptr

theorem Hotplug.Listed.exact {s : Hotplug} (h : s.Listed) : s.Exact :=
  ⟨h.list, List.Nodup.of_map _ h.ptrs, h.count⟩

theorem Hotplug.empty_listed : Hotplug.empty.Listed :=
  ⟨rfl, rfl, List.nodup_nil, List.nodup_nil⟩

/-- Counting one more card is exact as long as the `int` can hold the number. -/
theorem toInt_succ_iff {n : BitVec 32} {length : Nat} (h : n.toInt = length) :
    (n + 1).toInt = (length + 1 : Nat) ↔ length + 1 < 2 ^ 31 := by
  have hn := BitVec.toInt_eq_toNat_cond n
  have hsucc := BitVec.toInt_eq_toNat_cond (n + 1)
  have hnat : (n + 1).toNat = (n.toNat + 1) % 2 ^ 32 := BitVec.toNat_add n 1
  have hlt : n.toNat < 2 ^ 32 := n.isLt
  omega

/-- Counting one card less is exact when there was one. -/
theorem toInt_pred {n : BitVec 32} {length : Nat} (h : n.toInt = (length + 1 : Nat)) :
    (n - 1).toInt = length := by
  have hn := BitVec.toInt_eq_toNat_cond n
  have hpred := BitVec.toInt_eq_toNat_cond (n - 1)
  have hnat : (n - 1).toNat = (2 ^ 32 - 1 + n.toNat) % 2 ^ 32 := BitVec.toNat_sub n 1
  have hlt : n.toNat < 2 ^ 32 := n.isLt
  omega

/-- A probe lists its card exactly, up to the range of the counter. -/
theorem Hotplug.Listed.probe {s : Hotplug} (h : s.Listed) {ptr : U64} {dev : PciDev}
    (hptr : ptr ∉ s.present.map Tl880Card.ptr)
    (hdev : dev.ptr ∉ s.present.map fun c => c.pcidev.ptr)
    (hroom : s.driver.tl880List.length + 1 < 2 ^ 31) :
    let card := newCard ptr dev s.driver.nTl880s
    (⟨linkCard card s.driver, s.present ++ [card]⟩ : Hotplug).Listed := by
  intro card
  have hlist := linkCard_list card s.driver
  rw [← h.list] at hptr hdev
  refine ⟨?_, ?_, ?_, ?_⟩
  · show (linkCard card s.driver).tl880List = s.present ++ [card]
    rw [hlist, h.list]
  · show (s.driver.nTl880s + 1).toInt = (linkCard card s.driver).tl880List.length
    rw [hlist, List.length_append]
    exact (toInt_succ_iff h.count).mpr hroom
  · show ((linkCard card s.driver).tl880List.map Tl880Card.ptr).Nodup
    rw [hlist, List.map_append]
    exact h.ptrs.append (List.nodup_singleton _) (by simpa [card, newCard] using hptr)
  · show ((linkCard card s.driver).tl880List.map fun c => c.pcidev.ptr).Nodup
    rw [hlist, List.map_append]
    exact h.devs.append (List.nodup_singleton _) (by simpa [card, newCard] using hdev)

/-- The removal of a present card: of the head, which empties the list, or of a
card behind it. -/
theorem Hotplug.Listed.remove_cases {s : Hotplug} (h : s.Listed) {dev : PciDev}
    (hmem : dev.ptr ∈ s.present.map fun c => c.pcidev.ptr) :
    ∃ head rest, s.driver.tl880List = head :: rest ∧
      ((head.pcidev.ptr = dev.ptr ∧
          tl880Remove dev s.driver = some ⟨[], s.driver.nTl880s - 1⟩) ∨
        (head.pcidev.ptr ≠ dev.ptr ∧ dev.ptr ∈ rest.map (fun c => c.pcidev.ptr) ∧
          tl880Remove dev s.driver =
            some ⟨s.present.filter fun c => c.pcidev.ptr ≠ dev.ptr,
              s.driver.nTl880s - 1⟩)) := by
  obtain ⟨⟨list, n⟩, present⟩ := s
  obtain ⟨hlist, hcount, hptrs, hdevs⟩ := h
  change list = present at hlist
  subst hlist
  cases list with
  | nil => cases hmem
  | cons head rest =>
      have hpos : 0 < n.toInt := by
        rw [show n.toInt = (head :: rest).length from hcount, List.length_cons]
        omega
      refine ⟨head, rest, rfl, ?_⟩
      by_cases hhead : head.pcidev.ptr = dev.ptr
      · exact Or.inl ⟨hhead, tl880Remove_head hpos hhead⟩
      · have hrest : dev.ptr ∈ rest.map fun c => c.pcidev.ptr := by
          rcases List.mem_cons.mp hmem with heq | hrest
          · exact absurd heq.symm hhead
          · exact hrest
        exact Or.inr ⟨hhead, hrest, tl880Remove_tail hpos hptrs hdevs hrest⟩

/-- Taking the only card with a device pointer out shortens the list by one. -/
theorem length_filter_key {l : List Tl880Card} {ptr : U64}
    (hdevs : (l.map fun c => c.pcidev.ptr).Nodup)
    (hmem : ptr ∈ l.map fun c => c.pcidev.ptr) :
    l.length = (l.filter fun c => c.pcidev.ptr ≠ ptr).length + 1 := by
  have hcount : (l.map fun c => c.pcidev.ptr).count ptr = 1 :=
    List.count_eq_one_of_mem hdevs hmem
  have hsplit := List.length_eq_length_filter_add (l := l)
    fun c => decide (c.pcidev.ptr = ptr)
  have hone : (l.filter fun c => decide (c.pcidev.ptr = ptr)).length = 1 := by
    rw [← hcount, List.count, List.countP_map, List.countP_eq_length_filter]
    rfl
  have hneg : (l.filter fun c => !decide (c.pcidev.ptr = ptr)) =
      l.filter fun c => c.pcidev.ptr ≠ ptr := by
    apply List.filter_congr
    intro c _
    simp
  rw [hone, hneg] at hsplit
  omega

/-- An event that keeps the list keeps it exact. -/
theorem listed_step (s : Hotplug) (e : HotplugEvent) (s' : Hotplug) (h : s.Listed)
    (hok : e.KeepsList s) (hstep : hotplugStep s e = some s') : s'.Listed := by
  cases e with
  | probe ptr dev =>
      simp only [hotplugStep] at hstep
      split_ifs at hstep with hfresh
      cases hstep
      obtain ⟨hptr, hdev⟩ := not_or.mp hfresh
      exact h.probe hptr hdev hok
  | remove dev =>
      simp only [hotplugStep] at hstep
      split_ifs at hstep with hmem
      obtain ⟨head, rest, hlist, hcases⟩ := h.remove_cases hmem
      rcases hcases with ⟨hhead, hremove⟩ | ⟨-, -, hremove⟩
      · -- The head may go only when it is alone.
        have hrest : rest = [] := by
          rcases hok with hone | hnot
          · rw [hlist] at hone
            exact List.length_eq_zero_iff.mp (Nat.succ.inj hone)
          · exact absurd hhead (hnot head (by rw [hlist]; rfl))
        rw [hremove] at hstep
        cases hstep
        have hpresent : s.present = [head] := by rw [← h.list, hlist, hrest]
        refine ⟨?_, ?_, List.nodup_nil, List.nodup_nil⟩
        · show [] = s.present.filter fun c => c.pcidev.ptr ≠ dev.ptr
          rw [hpresent, List.filter_cons_of_neg (by simpa using hhead)]
          rfl
        · apply toInt_pred
          rw [h.count, hlist, hrest]
          rfl
      · rw [hremove] at hstep
        cases hstep
        refine ⟨rfl, toInt_pred ?_, ?_, ?_⟩
        · rw [← h.list] at hmem
          rw [h.count, ← h.list]
          exact congrArg Nat.cast (length_filter_key h.devs hmem)
        · rw [← h.list]
          exact h.ptrs.sublist (List.Sublist.map _ List.filter_sublist)
        · rw [← h.list]
          exact h.devs.sublist (List.Sublist.map _ List.filter_sublist)

/-- An event after which the list is exact has kept it. -/
theorem keepsList_of_exact (s : Hotplug) (e : HotplugEvent) (s' : Hotplug) (h : s.Listed)
    (hstep : hotplugStep s e = some s') (hgood : s'.Exact) : e.KeepsList s := by
  cases e with
  | probe ptr dev =>
      simp only [hotplugStep] at hstep
      split_ifs at hstep with hfresh
      cases hstep
      have hcount := hgood.count
      rw [linkCard_list, List.length_append] at hcount
      exact (toInt_succ_iff h.count).mp hcount
  | remove dev =>
      simp only [hotplugStep] at hstep
      split_ifs at hstep with hmem
      obtain ⟨head, rest, hlist, hcases⟩ := h.remove_cases hmem
      rcases hcases with ⟨hhead, hremove⟩ | ⟨hhead, -, -⟩
      · left
        rw [hremove] at hstep
        cases hstep
        -- The list is empty now, so no other card may be present.
        have hnone : ([] : List Tl880Card) =
            s.present.filter fun c => c.pcidev.ptr ≠ dev.ptr := hgood.list
        rw [← h.list] at hmem hnone
        rw [length_filter_key h.devs hmem, ← hnone]
        rfl
      · right
        intro head' hhead'
        rw [hlist] at hhead'
        cases hhead'
        exact hhead

/-- The card list is exact in every state of a run if and only if no probe
overflows the counter and no removal meets the head of a list with more cards. -/
theorem cardList_exact_iff (events : List HotplugEvent) :
    AllStates hotplugStep Hotplug.Exact Hotplug.empty events ↔
      AllSteps hotplugStep (fun s e => e.KeepsList s) Hotplug.empty events :=
  allStates_iff_allSteps listed_step (fun _ h => h.exact) keepsList_of_exact
    Hotplug.empty_listed events

/-! ## Numbers are unique -/

/-- The character-device minors of a card. -/
def Tl880Card.minors (card : Tl880Card) : List U32 :=
  [card.minor, card.minor + 1, card.minor + 2]

/-- The listed cards have different numbers and disjoint minors, and each is what
`find_tl880` returns for its number. -/
structure Driver.UniqueIds (s : Driver) : Prop where
  ids : s.tl880List.Pairwise fun c d => c.id ≠ d.id
  minors : s.tl880List.Pairwise fun c d => c.minors.Disjoint d.minors
  find : ∀ d ∈ s.tl880List, findTl880 s.tl880List (d.id.setWidth 64) = some d

/-- The listed cards have different first minors, computed from their numbers. -/
structure Driver.Numbered (s : Driver) : Prop where
  minor : ∀ c ∈ s.tl880List, c.minor = c.id * 4
  firsts : (s.tl880List.map Tl880Card.minor).Nodup

theorem Hotplug.empty_numbered : Hotplug.empty.driver.Numbered :=
  ⟨fun _ hc => (List.not_mem_nil hc).elim, List.nodup_nil⟩

/-- What an event needs for the numbers to stay unique: a probe must not compute
the first minor of a listed card. -/
def HotplugEvent.KeepsIds (s : Hotplug) : HotplugEvent → Prop
  | .probe _ _ => ∀ c ∈ s.driver.tl880List, c.minor ≠ s.driver.nTl880s * 4
  | .remove _ => True

/-- Ranges of three minors starting at different multiples of four are disjoint. -/
theorem minors_disjoint {c d : Tl880Card} (hc : c.minor = c.id * 4)
    (hd : d.minor = d.id * 4) (hne : c.minor ≠ d.minor) :
    c.minors.Disjoint d.minors := by
  rw [hc, hd] at hne
  intro m hm hm'
  simp only [Tl880Card.minors, hc, hd, List.mem_cons, List.not_mem_nil, or_false] at hm hm'
  bv_omega

theorem Driver.Numbered.uniqueIds {s : Driver} (h : s.Numbered) : s.UniqueIds := by
  have hpair : s.tl880List.Pairwise fun c d => c.minor ≠ d.minor :=
    List.pairwise_map.mp h.firsts
  have hids : s.tl880List.Pairwise fun c d => c.id ≠ d.id := by
    refine hpair.imp_of_mem fun {c d} hc hd hne heq => hne ?_
    rw [h.minor c hc, h.minor d hd, heq]
  refine ⟨hids, ?_, fun d hd => ?_⟩
  · exact hpair.imp_of_mem fun hc hd hne => minors_disjoint (h.minor _ hc) (h.minor _ hd) hne
  · refine find?_key_eq_some (fun c : Tl880Card => c.id.setWidth 64) ?_ hd rfl
    refine List.pairwise_map.mpr (hids.imp fun {c d} hne heq => hne ?_)
    have hwidth : c.id.setWidth 64 = d.id.setWidth 64 := heq
    bv_omega

/-- An event that keeps the numbers apart keeps the list numbered. -/
theorem numbered_step (s : Hotplug) (e : HotplugEvent) (s' : Hotplug)
    (h : s.driver.Numbered) (hok : e.KeepsIds s) (hstep : hotplugStep s e = some s') :
    s'.driver.Numbered := by
  cases e with
  | probe ptr dev =>
      simp only [hotplugStep] at hstep
      split_ifs at hstep with hfresh
      cases hstep
      constructor
      · rw [linkCard_list]
        intro c hc
        rcases List.mem_append.mp hc with hc | hc
        · exact h.minor c hc
        · rw [List.mem_singleton.mp hc]
          rfl
      · rw [linkCard_list, List.map_append]
        refine h.firsts.append (List.nodup_singleton _) ?_
        rw [List.map_singleton, List.disjoint_singleton]
        intro hmem
        obtain ⟨c, hc, heq⟩ := List.mem_map.mp hmem
        exact hok c hc heq
  | remove dev =>
      simp only [hotplugStep] at hstep
      split_ifs at hstep with hmem
      obtain ⟨driver, hremove, rfl⟩ := Option.map_eq_some_iff.mp hstep
      have hsub := tl880Remove_sublist hremove
      exact ⟨fun c hc => h.minor c (hsub.subset hc), h.firsts.sublist (hsub.map _)⟩

/-- An event after which the numbers are unique has kept them apart. -/
theorem keepsIds_of_uniqueIds (s : Hotplug) (e : HotplugEvent) (s' : Hotplug)
    (hstep : hotplugStep s e = some s') (hgood : s'.driver.UniqueIds) : e.KeepsIds s := by
  cases e with
  | probe ptr dev =>
      simp only [hotplugStep] at hstep
      split_ifs at hstep with hfresh
      cases hstep
      intro c hc heq
      have hminors := hgood.minors
      rw [linkCard_list, List.pairwise_append] at hminors
      have hdisjoint := hminors.2.2 c hc _ (List.mem_singleton_self _)
      refine hdisjoint (a := c.minor) (List.mem_cons_self) ?_
      rw [heq]
      exact List.mem_cons_self
  | remove dev => trivial

/-- The listed cards are told apart by number in every state of a run if and only
if no probe computes the first minor of a card that is still listed. -/
theorem cardIds_unique_iff (events : List HotplugEvent) :
    AllStates hotplugStep (fun s => s.driver.UniqueIds) Hotplug.empty events ↔
      AllSteps hotplugStep (fun s e => e.KeepsIds s) Hotplug.empty events :=
  allStates_iff_allSteps numbered_step (fun _ h => h.uniqueIds)
    (fun s e s' _ => keepsIds_of_uniqueIds s e s') Hotplug.empty_numbered events

/-- The device of slot `slot` in the examples below. -/
def slotDev (slot : U64) : PciDev where
  ptr := slot
  busId := "0000:00"
  bar0 := ⟨0xe0000000, 0x1000000, by decide⟩
  bar3 := ⟨0xe1000000, 0x100000, by decide⟩
  bar4 := ⟨0xe1100000, 0x10000, by decide⟩
  irq := 11

/-- Two cards, the first of which is removed: the second is present but no longer
listed. -/
theorem cardList_loses_second :
    ¬ AllStates hotplugStep Hotplug.Exact Hotplug.empty
      [.probe 100 (slotDev 1), .probe 200 (slotDev 2), .remove (slotDev 1)] := by
  intro h
  have hlist := (h.last (t := ⟨⟨[], 1⟩, [newCard 200 (slotDev 2) 1]⟩) (by decide)).list
  cases hlist

/-- Three cards, the second of which is replaced: the third and the new one both
have number 2. -/
theorem cardIds_collide :
    ¬ AllStates hotplugStep (fun s => s.driver.UniqueIds) Hotplug.empty
      [.probe 100 (slotDev 1), .probe 200 (slotDev 2), .probe 300 (slotDev 3),
        .remove (slotDev 2), .probe 400 (slotDev 4)] := by
  intro h
  have hids := (h.last (t := ⟨⟨[newCard 100 (slotDev 1) 0, newCard 300 (slotDev 3) 2,
    newCard 400 (slotDev 4) 2], 3⟩, [newCard 100 (slotDev 1) 0,
    newCard 300 (slotDev 3) 2, newCard 400 (slotDev 4) 2]⟩) (by decide)).ids
  exact absurd hids (by decide)

end Tl880
