import Tl880.Hotplug

/-!
# Unloading the driver

`tl880_exit` unregisters the PCI driver, and the kernel then calls `tl880_remove` for every card
that is present, one after the other.  A removal of the head of a longer list empties the list,
and every removal after it returns early: its card keeps its interrupt handler, its character
device and its mappings, although the module is gone.

So the cards up to the one that was probed first are torn down, in the order in which they are
removed, and those that come after it are not.
-/

namespace Tl880

open LabelledRun

/-! ## The driver -/

/-- `tl880_remove` with the card that it hands to `tl880_unconfigure`, if it gets there. -/
def tl880RemoveCard (dev : PciDev) (s : Driver) : Option (Driver × List Tl880Card) :=
  if s.nTl880s.toInt ≤ 0 then some (s, [])
  else
    match s.tl880List with
    | [] => some (s, [])
    | head :: rest =>
        match findTl880Pci (head :: rest) dev with
        | .diverges => none
        | .returns none => some (s, [])
        | .returns (some card) =>
            if card.ptr = head.ptr then some (⟨[], s.nTl880s - 1⟩, [card])
            else
              match LinkedList.unlinkNext Tl880Card.ptr card.ptr (head :: rest) with
              | some list => some (⟨list, s.nTl880s - 1⟩, [card])
              | none => some (s, [])

/-- `pci_unregister_driver` of `tl880_exit`: the driver after the removals, and the cards that
were torn down, in order. -/
def tl880Exit : List PciDev → Driver → Option (Driver × List Tl880Card)
  | [], s => some (s, [])
  | dev :: order, s =>
      (tl880RemoveCard dev s).bind fun (s', cards) =>
        (tl880Exit order s').map fun (t, cards') => (t, cards ++ cards')

/-! ## One removal -/

/-- It is the removal of the model without the cards. -/
theorem tl880RemoveCard_fst (dev : PciDev) (s : Driver) :
    (tl880RemoveCard dev s).map Prod.fst = tl880Remove dev s := by
  unfold tl880RemoveCard tl880Remove
  by_cases hcount : s.nTl880s.toInt ≤ 0
  · rw [if_pos hcount, if_pos hcount]
    rfl
  · rw [if_neg hcount, if_neg hcount]
    cases s.tl880List with
    | nil => rfl
    | cons head rest =>
        dsimp only
        cases findTl880Pci (head :: rest) dev with
        | diverges => rfl
        | returns found =>
            cases found with
            | none => rfl
            | some card =>
                dsimp only
                by_cases hhead : card.ptr = head.ptr
                · rw [if_pos hhead, if_pos hhead]
                  rfl
                · rw [if_neg hhead, if_neg hhead]
                  cases LinkedList.unlinkNext Tl880Card.ptr card.ptr (head :: rest) <;> rfl

/-- A removal that counts tears down the card it has found. -/
theorem tl880RemoveCard_cards {dev : PciDev} {s s' : Driver} {cards : List Tl880Card}
    (h : tl880RemoveCard dev s = some (s', cards)) :
    (s' = s ∧ cards = []) ∨
      (s'.nTl880s = s.nTl880s - 1 ∧
        ∃ card, findTl880Pci s.tl880List dev = .returns (some card) ∧ cards = [card]) := by
  unfold tl880RemoveCard at h
  by_cases hcount : s.nTl880s.toInt ≤ 0
  · rw [if_pos hcount] at h
    cases h
    exact Or.inl ⟨rfl, rfl⟩
  · rw [if_neg hcount] at h
    cases hlist : s.tl880List with
    | nil =>
        rw [hlist] at h
        cases h
        exact Or.inl ⟨rfl, rfl⟩
    | cons head rest =>
        rw [hlist] at h
        dsimp only at h
        cases hfind : findTl880Pci (head :: rest) dev with
        | diverges =>
            rw [hfind] at h
            cases h
        | returns found =>
            rw [hfind] at h
            cases found with
            | none =>
                cases h
                exact Or.inl ⟨rfl, rfl⟩
            | some card =>
                dsimp only at h
                by_cases hhead : card.ptr = head.ptr
                · rw [if_pos hhead] at h
                  cases h
                  exact Or.inr ⟨rfl, card, rfl, rfl⟩
                · rw [if_neg hhead] at h
                  cases hunlink : LinkedList.unlinkNext Tl880Card.ptr card.ptr (head :: rest) with
                  | none =>
                      rw [hunlink] at h
                      cases h
                      exact Or.inl ⟨rfl, rfl⟩
                  | some list =>
                      rw [hunlink] at h
                      cases h
                      exact Or.inr ⟨rfl, card, rfl, rfl⟩

/-- With an empty list nothing happens. -/
theorem tl880Exit_empty (order : List PciDev) (n : BitVec 32) :
    tl880Exit order ⟨[], n⟩ = some (⟨[], n⟩, []) := by
  induction order with
  | nil => rfl
  | cons dev order ih =>
      have hremove : tl880RemoveCard dev ⟨[], n⟩ = some (⟨[], n⟩, []) := by
        unfold tl880RemoveCard
        split_ifs <;> rfl
      rw [tl880Exit, hremove]
      show (tl880Exit order ⟨[], n⟩).map _ = _
      rw [ih]
      rfl

/-- The removal of a present card tears it down. -/
theorem Hotplug.Listed.removeCard {s : Hotplug} (h : s.Listed) {dev : PciDev} {s' : Driver}
    (hmem : dev.ptr ∈ s.present.map fun c => c.pcidev.ptr)
    (hremove : tl880Remove dev s.driver = some s') (hcount : s'.nTl880s = s.driver.nTl880s - 1) :
    ∃ card ∈ s.present, card.pcidev.ptr = dev.ptr ∧
      tl880RemoveCard dev s.driver = some (s', [card]) := by
  have hfst := tl880RemoveCard_fst dev s.driver
  rw [hremove, Option.map_eq_some_iff] at hfst
  obtain ⟨⟨driver, cards⟩, hcard, rfl⟩ := hfst
  rcases tl880RemoveCard_cards hcard with ⟨hsame, -⟩ | ⟨-, card, hfind, rfl⟩
  · -- the counter has changed
    exfalso
    change driver = s.driver at hsame
    rw [hsame] at hcount
    bv_omega
  · obtain ⟨c, hc, hdev⟩ := List.mem_map.mp hmem
    have hfound := findTl880Pci_of_mem (LinkedList.find?_key_eq_some
      (fun c : Tl880Card => c.pcidev.ptr) h.devs (by rw [h.list]; exact hc) hdev)
    rw [hfound] at hfind
    obtain rfl : c = card := by simpa using hfind
    exact ⟨c, hc, hdev, hcard⟩

/-! ## All of them -/

/-- A list up to the first `a`, and with it. -/
def upTo (a : U64) (l : List U64) : List U64 := l.takeWhile (fun x => x ≠ a) ++ [a]

theorem upTo_cons_self (a : U64) (l : List U64) : upTo a (a :: l) = [a] := by simp [upTo]

theorem upTo_cons_of_ne {a x : U64} (hne : x ≠ a) (l : List U64) :
    upTo a (x :: l) = x :: upTo a l := by simp [upTo, hne]

/-- Where nothing is twice in a list, it is cut short unless `a` comes last. -/
theorem mem_upTo_iff {a : U64} {l : List U64} (hnodup : l.Nodup) (hmem : a ∈ l) :
    (∀ x ∈ l, x ∈ upTo a l) ↔ l.getLast? = some a := by
  induction l with
  | nil => cases hmem
  | cons x rest ih =>
      obtain ⟨hx, hrest⟩ := List.nodup_cons.mp hnodup
      by_cases hfirst : x = a
      · subst hfirst
        rw [upTo_cons_self]
        cases rest with
        | nil => simp
        | cons y rest =>
            apply iff_of_false
            · intro hall
              have hy := hall y (by simp)
              rw [List.mem_singleton] at hy
              exact hx (hy ▸ List.mem_cons_self)
            · intro hlast
              rw [List.getLast?_cons_cons] at hlast
              exact hx (List.mem_of_getLast? hlast)
      · have hlater : a ∈ rest := (List.mem_cons.mp hmem).resolve_left (Ne.symm hfirst)
        obtain ⟨y, rest', rfl⟩ := List.exists_cons_of_ne_nil (List.ne_nil_of_mem hlater)
        rw [upTo_cons_of_ne hfirst, List.getLast?_cons_cons, ← ih hrest hlater]
        constructor
        · intro hall z hz
          refine (List.mem_cons.mp (hall z (List.mem_cons_of_mem x hz))).resolve_left ?_
          rintro rfl
          exact hx hz
        · intro hall z hz
          rcases List.mem_cons.mp hz with rfl | hz
          · exact List.mem_cons_self
          · exact List.mem_cons_of_mem x (hall z hz)

/-- What is left of a list without its first entry. -/
theorem perm_filter_ne {a : U64} {l l' : List U64} (hnodup : l'.Nodup) (hperm : (a :: l).Perm l') :
    l.Perm (l'.filter fun x => x ≠ a) := by
  have ha : a ∉ l := (List.nodup_cons.mp (hperm.symm.nodup hnodup)).1
  have hfilter := hperm.filter fun x => x ≠ a
  rw [List.filter_cons_of_neg (by simp), List.filter_eq_self.mpr] at hfilter
  · exact hfilter
  · intro x hx
    have hne : x ≠ a := fun heq => ha (heq ▸ hx)
    simpa using hne

/-- The cards that are torn down, each once and in order: those up to the head of the list. -/
structure TornDown (s : Hotplug) (order : List PciDev) (driver : Driver)
    (cards : List Tl880Card) : Prop where
  list : driver.tl880List = []
  present : ∀ c ∈ cards, c ∈ s.present
  order : ∀ head ∈ s.present.head?,
    cards.map (fun c => c.pcidev.ptr) = upTo head.pcidev.ptr (order.map PciDev.ptr)

/-- Whatever the order of the removals. -/
theorem tl880Exit_tornDown {s : Hotplug} (h : s.Listed) {order : List PciDev}
    (horder : (order.map PciDev.ptr).Perm (s.present.map fun c => c.pcidev.ptr)) :
    ∃ driver cards, tl880Exit order s.driver = some (driver, cards) ∧
      TornDown s order driver cards := by
  induction order generalizing s with
  | nil =>
      have hnone : s.present = [] := by simpa using horder.symm.eq_nil
      refine ⟨s.driver, [], rfl, h.list.trans hnone, by simp, ?_⟩
      rw [hnone]
      simp
  | cons dev order ih =>
      have hmem : dev.ptr ∈ s.present.map fun c => c.pcidev.ptr :=
        horder.subset List.mem_cons_self
      obtain ⟨head, rest, hlist, hcases⟩ := h.remove_cases hmem
      have hpresent : s.present = head :: rest := by rw [← h.list, hlist]
      rcases hcases with ⟨hhead, hremove⟩ | ⟨hhead, hrest, hremove⟩
      · -- the list is empty from now on
        obtain ⟨card, hcard, hdev, hremoveCard⟩ := h.removeCard hmem hremove rfl
        refine ⟨⟨[], s.driver.nTl880s - 1⟩, [card], ?_, rfl, ?_, ?_⟩
        · rw [tl880Exit, hremoveCard]
          show (tl880Exit order ⟨[], _⟩).map _ = _
          rw [tl880Exit_empty]
          rfl
        · intro c hc
          rw [List.mem_singleton.mp hc]
          exact hcard
        · intro head' hhead'
          rw [hpresent] at hhead'
          cases hhead'
          have hcons : List.map PciDev.ptr (dev :: order) = dev.ptr :: order.map PciDev.ptr := rfl
          rw [hcons, hhead, upTo_cons_self, List.map_singleton, hdev]
      · -- the rest of the order, with the other cards
        obtain ⟨card, hcard, hdev, hremoveCard⟩ := h.removeCard hmem hremove rfl
        have hstep : hotplugStep s (.remove dev) = some
            ⟨⟨s.present.filter fun c => c.pcidev.ptr ≠ dev.ptr, s.driver.nTl880s - 1⟩,
              s.present.filter fun c => c.pcidev.ptr ≠ dev.ptr⟩ := by
          rw [hotplugStep, if_pos hmem, hremove]
          rfl
        have hkeeps : (HotplugEvent.remove dev).KeepsList s := by
          right
          intro head' hhead'
          rw [hlist] at hhead'
          cases hhead'
          exact hhead
        have hkeys : (order.map PciDev.ptr).Perm
            ((s.present.filter fun c => c.pcidev.ptr ≠ dev.ptr).map fun c => c.pcidev.ptr) := by
          have hperm := perm_filter_ne (by rw [← h.list]; exact h.devs) horder
          rwa [List.filter_map] at hperm
        obtain ⟨driver, cards, hexit, htorn⟩ := ih (listed_step s _ _ h hkeeps hstep) hkeys
        refine ⟨driver, card :: cards, ?_, htorn.list, ?_, ?_⟩
        · rw [tl880Exit, hremoveCard]
          show (tl880Exit order _).map _ = _
          rw [hexit]
          rfl
        · intro c hc
          rcases List.mem_cons.mp hc with rfl | hc
          · exact hcard
          · exact List.mem_of_mem_filter (htorn.present c hc)
        · intro head' hhead'
          rw [hpresent] at hhead'
          cases hhead'
          -- the head stays where it is
          have hstays := htorn.order head (by
            show head ∈ (s.present.filter _).head?
            rw [hpresent, List.filter_cons_of_pos (by simpa using hhead)]
            rfl)
          have hcons : List.map PciDev.ptr (dev :: order) = dev.ptr :: order.map PciDev.ptr := rfl
          rw [hcons, upTo_cons_of_ne (Ne.symm hhead), ← hstays, List.map_cons, hdev]

/-- A present card is torn down if its device is that of one that is. -/
theorem TornDown.mem_iff {s : Hotplug} (h : s.Listed) {order : List PciDev} {driver : Driver}
    {cards : List Tl880Card} (htorn : TornDown s order driver cards) {c : Tl880Card}
    (hc : c ∈ s.present) :
    c ∈ cards ↔ c.pcidev.ptr ∈ cards.map fun c => c.pcidev.ptr := by
  constructor
  · exact List.mem_map_of_mem
  · intro hkey
    obtain ⟨c', hc', heq⟩ := List.mem_map.mp hkey
    have hdevs : (s.present.map fun c => c.pcidev.ptr).Nodup := by
      rw [← h.list]
      exact h.devs
    rwa [← List.inj_on_of_nodup_map hdevs (htorn.present c' hc') hc heq]

/-- All cards are torn down exactly when the first one goes last. -/
theorem TornDown.all_iff {s : Hotplug} (h : s.Listed) {order : List PciDev}
    (horder : (order.map PciDev.ptr).Perm (s.present.map fun c => c.pcidev.ptr))
    {driver : Driver} {cards : List Tl880Card} (htorn : TornDown s order driver cards) :
    (∀ c ∈ s.present, c ∈ cards) ↔
      ∀ head ∈ s.present.head?, (order.map PciDev.ptr).getLast? = some head.pcidev.ptr := by
  have hdevs : (s.present.map fun c => c.pcidev.ptr).Nodup := by
    rw [← h.list]
    exact h.devs
  cases hpresent : s.present with
  | nil => simp
  | cons head rest =>
      have hhead : head ∈ s.present.head? := by
        rw [hpresent]
        rfl
      have hmem : head.pcidev.ptr ∈ order.map PciDev.ptr := by
        rw [horder.mem_iff, hpresent]
        exact List.mem_cons_self
      have hiff := mem_upTo_iff (horder.symm.nodup hdevs) hmem
      rw [← htorn.order head hhead] at hiff
      rw [← hpresent]
      constructor
      · intro hall head' hhead'
        rw [hpresent] at hhead'
        cases hhead'
        rw [← hiff]
        intro key hkey
        obtain ⟨c, hc, rfl⟩ := List.mem_map.mp (horder.subset hkey)
        exact (htorn.mem_iff h hc).mp (hall c hc)
      · intro hlast c hc
        rw [htorn.mem_iff h hc]
        exact hiff.mpr (hlast head hhead) _ (horder.symm.subset (List.mem_map_of_mem hc))

instance HotplugEvent.decidableKeepsList (s : Hotplug) :
    (e : HotplugEvent) → Decidable (e.KeepsList s)
  | .probe _ _ => inferInstanceAs (Decidable (_ < _))
  | .remove dev =>
      inferInstanceAs (Decidable (_ ∨ ∀ head ∈ s.driver.tl880List.head?, head.pcidev.ptr ≠ dev.ptr))

/-- After any run that has kept the list, the module can be unloaded, and it leaves no card behind
if and only if the kernel removes the card that was probed first after all the others. -/
theorem tl880Exit_leaves_none_iff {events : List HotplugEvent} {s : Hotplug}
    (hkeeps : AllSteps hotplugStep (fun s e => e.KeepsList s) Hotplug.empty events)
    (hrun : run hotplugStep Hotplug.empty events = some s) {order : List PciDev}
    (horder : (order.map PciDev.ptr).Perm (s.present.map fun c => c.pcidev.ptr)) :
    ∃ driver cards, tl880Exit order s.driver = some (driver, cards) ∧
      TornDown s order driver cards ∧
      ((∀ c ∈ s.present, c ∈ cards) ↔
        ∀ head ∈ s.present.head?, (order.map PciDev.ptr).getLast? = some head.pcidev.ptr) := by
  have hlisted := run_invariant listed_step Hotplug.empty_listed hkeeps hrun
  obtain ⟨driver, cards, hexit, htorn⟩ := tl880Exit_tornDown hlisted horder
  exact ⟨driver, cards, hexit, htorn, htorn.all_iff hlisted horder⟩

/-- Two cards, removed in the order in which they were probed. -/
theorem tl880Exit_leaves_none_iff_two :
    ∃ driver cards, tl880Exit [slotDev 1, slotDev 2]
        ⟨[newCard 100 (slotDev 1) 0, newCard 200 (slotDev 2) 1], 2⟩ = some (driver, cards) ∧
      TornDown ⟨⟨[newCard 100 (slotDev 1) 0, newCard 200 (slotDev 2) 1], 2⟩,
        [newCard 100 (slotDev 1) 0, newCard 200 (slotDev 2) 1]⟩ [slotDev 1, slotDev 2] driver
        cards ∧
      ((∀ c ∈ [newCard 100 (slotDev 1) 0, newCard 200 (slotDev 2) 1], c ∈ cards) ↔
        ∀ head ∈ [newCard 100 (slotDev 1) 0, newCard 200 (slotDev 2) 1].head?,
          ([slotDev 1, slotDev 2].map PciDev.ptr).getLast? = some head.pcidev.ptr) := by
  have hkeeps : AllSteps hotplugStep (fun s e => e.KeepsList s) Hotplug.empty
      [.probe 100 (slotDev 1), .probe 200 (slotDev 2)] := by decide
  exact tl880Exit_leaves_none_iff hkeeps rfl (List.Perm.refl _)

end Tl880
