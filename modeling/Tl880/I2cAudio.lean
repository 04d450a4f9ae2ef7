import Tl880.I2cDispatch

/-!
# The stored index of the audio client

`msp_i2cclient` is the index `tl880_msp_write` uses on the slots of bus
`msp_i2cbus`.  An attach of an audio client on any bus overwrites it with the index
of that bus's first free slot, which is 16 when there is none; a detach resets it
for one of the two audio drivers only, whichever client goes.

`audioIndex_valid_iff` characterises the runs in which the index never dangles.
-/

namespace Tl880

open LabelledRun

/-- Slot `k` of the audio bus holds an attached audio client. -/
def I2cSys.AudioAt (s : I2cSys) (k : Nat) : Prop :=
  ∃ client, (s.dev.clients s.dev.mspI2cbus).get k = some client ∧ client.IsAudio ∧
    client ∈ s.attached.map Prod.snd

/-- The stored index is -1, or that of a slot with an attached audio client. -/
def I2cSys.AudioValid (s : I2cSys) : Prop :=
  s.dev.mspI2cclient = -1 ∨
    ∃ k, k < i2cClientsMax ∧ s.dev.mspI2cclient = (k : Int) ∧ s.AudioAt k

/-- What an event needs for the stored index to stay valid.  An audio client must
find a free slot, on the audio bus or at the index of an audio client of that bus.
When a client of the other audio driver detaches, it must not be the one stored. -/
def I2cEvent.KeepsAudio (s : I2cSys) : I2cEvent → Prop
  | .attach busno client => client.IsAudio →
      (s.dev.clients busno).firstFree < i2cClientsMax ∧
        (busno = s.dev.mspI2cbus ∨
          ∃ stored, (s.dev.clients s.dev.mspI2cbus).get (s.dev.clients busno).firstFree =
            some stored ∧ stored.IsAudio ∧
              (stored = client ∨ stored ∈ s.attached.map Prod.snd))
  | .detach _ client =>
      client.driverId = .msp3400 ∨ s.dev.mspI2cclient = -1 ∨
        ∀ k : Nat, s.dev.mspI2cclient = k →
          (s.dev.clients s.dev.mspI2cbus).get k ≠ some client

theorem attach_eq_some {s s' : I2cSys} {busno : Nat} {client : I2cClient}
    (hstep : i2cStep s (.attach busno client) = some s') :
    client ∉ s.attached.map Prod.snd ∧
      ∃ ret, tl880I2cAttachInform s.dev busno client = some (s'.dev, ret) ∧
        s'.attached = if ret = 0 then (busno, client) :: s.attached else s.attached := by
  simp only [i2cStep] at hstep
  split_ifs at hstep with hready
  obtain ⟨⟨dev', ret⟩, hattach, rfl⟩ := Option.map_eq_some_iff.mp hstep
  exact ⟨hready.2, ret, hattach, rfl⟩

/-- An occupied slot of the audio bus keeps its attached client when another client
attaches, rejected or not. -/
theorem audioAt_attach {s s' : I2cSys} {busno : Nat} {client : I2cClient} {k : Nat}
    (h : s.AudioAt k) (hstep : i2cStep s (.attach busno client) = some s') :
    s'.AudioAt k := by
  obtain ⟨hnew, ret, hattach, hattached⟩ := attach_eq_some hstep
  obtain ⟨hothers, -, -, hbus, hcases⟩ := tl880I2cAttachInform_cases hattach
  obtain ⟨stored, hget, haudio, hstored⟩ := h
  have hne : stored ≠ client := by
    rintro rfl
    exact hnew hstored
  have hstored' : stored ∈ s'.attached.map Prod.snd := by
    rw [hattached]
    split_ifs
    · exact List.mem_cons_of_mem _ hstored
    · exact hstored
  refine ⟨stored, ?_, haudio, hstored'⟩
  rw [hbus]
  by_cases hsame : s.dev.mspI2cbus = busno
  · rw [hsame] at hget ⊢
    have hinsert := SlotTable.get_insert_of_some hget client
    rcases hcases with ⟨-, hclients, -⟩ | ⟨-, -, hclients, -⟩
    · rw [hclients, hinsert]
    · have hkept : some stored ≠ some client := fun heq => hne (Option.some.inj heq)
      rw [hclients, SlotTable.get_clear, hinsert, if_neg hkept]
  · rw [hothers _ hsame, hget]

/-- The index an audio client leaves is valid exactly when the attach keeps it. -/
theorem audioAt_attach_audio {s s' : I2cSys} {busno : Nat} {client : I2cClient}
    (haudio : client.IsAudio) (hstep : i2cStep s (.attach busno client) = some s') :
    s'.dev.mspI2cclient = ((s.dev.clients busno).firstFree : Int) ∧
      ((s.dev.clients busno).firstFree < i2cClientsMax →
        (s'.AudioAt (s.dev.clients busno).firstFree ↔
          busno = s.dev.mspI2cbus ∨
            ∃ stored, (s.dev.clients s.dev.mspI2cbus).get (s.dev.clients busno).firstFree =
              some stored ∧ stored.IsAudio ∧
                (stored = client ∨ stored ∈ s.attached.map Prod.snd))) := by
  obtain ⟨hnew, ret, hattach, hattached⟩ := attach_eq_some hstep
  obtain ⟨hothers, -, -, hbus, hcases⟩ := tl880I2cAttachInform_cases hattach
  rcases hcases with ⟨rfl, hclients, hindex⟩ | ⟨-, hnot, -, -⟩
  · rw [if_pos haudio] at hindex
    rw [if_pos rfl] at hattached
    have hmem (stored : I2cClient) : stored ∈ s'.attached.map Prod.snd ↔
        stored = client ∨ stored ∈ s.attached.map Prod.snd := by
      rw [hattached, List.map_cons, List.mem_cons]
    constructor
    · exact hindex
    intro hroom
    unfold I2cSys.AudioAt
    rw [hbus]
    by_cases hsame : busno = s.dev.mspI2cbus
    · refine iff_of_true ⟨client, ?_, haudio, (hmem client).mpr (Or.inl rfl)⟩ (Or.inl hsame)
      rw [← hsame, hclients, SlotTable.get_insert, if_pos ⟨rfl, hroom⟩]
    · rw [hothers _ (Ne.symm hsame)]
      constructor
      · intro hat
        obtain ⟨stored, hget, haudio', hstored⟩ := hat
        exact Or.inr ⟨stored, hget, haudio', (hmem stored).mp hstored⟩
      · intro hkept
        rcases hkept with heq | ⟨stored, hget, haudio', hstored⟩
        · exact absurd heq hsame
        · exact ⟨stored, hget, haudio', (hmem stored).mpr hstored⟩
  · exact absurd haudio hnot

/-- The clients that stay attached when one detaches. -/
theorem mem_filter_attached {attached : List (Nat × I2cClient)}
    (honce : (attached.map Prod.snd).Nodup) {busno : Nat} {client : I2cClient}
    (hmem : (busno, client) ∈ attached) (c : I2cClient) :
    c ∈ (attached.filter fun entry => entry ≠ (busno, client)).map Prod.snd ↔
      c ∈ attached.map Prod.snd ∧ c ≠ client := by
  constructor
  · intro hc
    obtain ⟨⟨b, c⟩, hentry, rfl⟩ := List.mem_map.mp hc
    obtain ⟨hentry, hne⟩ := List.mem_filter.mp hentry
    constructor
    · exact List.mem_map_of_mem hentry
    intro heq
    have hsame := List.inj_on_of_nodup_map honce hentry hmem heq
    exact of_decide_eq_true hne hsame
  · intro hother
    obtain ⟨hc, hne⟩ := hother
    obtain ⟨⟨b, c⟩, hentry, rfl⟩ := List.mem_map.mp hc
    refine List.mem_map_of_mem (List.mem_filter.mpr ⟨hentry, ?_⟩)
    exact decide_eq_true fun heq => hne (congrArg Prod.snd heq)

/-- An attached audio client stays in its slot exactly when it is another one that
detaches. -/
theorem audioAt_detach {s s' : I2cSys} {busno : Nat} {client : I2cClient} {k : Nat}
    (honce : (s.attached.map Prod.snd).Nodup) (h : s.AudioAt k)
    (hstep : i2cStep s (.detach busno client) = some s') :
    s'.AudioAt k ↔ (s.dev.clients s.dev.mspI2cbus).get k ≠ some client := by
  simp only [i2cStep] at hstep
  split_ifs at hstep with hmem
  cases hstep
  obtain ⟨hclear, hothers, -, -, hbus, -⟩ := tl880I2cDetachInform_spec s.dev busno client
  obtain ⟨stored, hget, haudio, hstored⟩ := h
  have hkept := mem_filter_attached honce hmem
  constructor
  · rintro ⟨stored', hget', -, hstored'⟩ heq
    have hne : stored' ≠ client := ((hkept stored').mp hstored').2
    rw [hbus] at hget'
    by_cases hsame : s.dev.mspI2cbus = busno
    · rw [hsame] at hget' heq
      rw [hclear, SlotTable.get_clear, if_pos heq] at hget'
      cases hget'
    · rw [hothers _ hsame, heq] at hget'
      exact hne (Option.some.inj hget').symm
  · intro hne
    have hother : stored ≠ client := by
      rintro rfl
      exact hne hget
    refine ⟨stored, ?_, haudio, (hkept stored).mpr ⟨hstored, hother⟩⟩
    rw [hbus]
    by_cases hsame : s.dev.mspI2cbus = busno
    · rw [hsame] at hget hne ⊢
      rw [hclear, SlotTable.get_clear, if_neg hne, hget]
    · rw [hothers _ hsame, hget]

/-- The stored index is valid and no client is attached twice. -/
structure I2cSys.AudioTracked (s : I2cSys) : Prop where
  valid : s.AudioValid
  once : (s.attached.map Prod.snd).Nodup

theorem once_step {s s' : I2cSys} {e : I2cEvent} (h : (s.attached.map Prod.snd).Nodup)
    (hstep : i2cStep s e = some s') : (s'.attached.map Prod.snd).Nodup := by
  cases e with
  | attach busno client =>
      obtain ⟨hnew, ret, -, hattached⟩ := attach_eq_some hstep
      rw [hattached]
      split_ifs
      · exact List.nodup_cons.mpr ⟨hnew, h⟩
      · exact h
  | detach busno client =>
      simp only [i2cStep] at hstep
      split_ifs at hstep with hmem
      cases hstep
      exact h.sublist (List.filter_sublist.map Prod.snd)

/-- A client that is no audio client leaves the stored index alone. -/
theorem mspI2cclient_attach {s s' : I2cSys} {busno : Nat} {client : I2cClient}
    (haudio : ¬ client.IsAudio) (hstep : i2cStep s (.attach busno client) = some s') :
    s'.dev.mspI2cclient = s.dev.mspI2cclient := by
  obtain ⟨-, ret, hattach, -⟩ := attach_eq_some hstep
  obtain ⟨-, -, -, -, hcases⟩ := tl880I2cAttachInform_cases hattach
  rcases hcases with ⟨-, -, hindex⟩ | ⟨-, -, -, hindex⟩
  · rw [hindex, if_neg haudio]
  · exact hindex

theorem mspI2cclient_detach {s s' : I2cSys} {busno : Nat} {client : I2cClient}
    (hstep : i2cStep s (.detach busno client) = some s') :
    s'.dev.mspI2cclient =
      if client.driverId = .msp3400 then -1 else s.dev.mspI2cclient := by
  simp only [i2cStep] at hstep
  split_ifs at hstep with hmem
  cases hstep
  obtain ⟨-, -, -, -, -, hindex⟩ := tl880I2cDetachInform_spec s.dev busno client
  exact hindex

/-- An event that keeps the audio client keeps the stored index valid. -/
theorem audioTracked_step (s : I2cSys) (e : I2cEvent) (s' : I2cSys) (h : s.AudioTracked)
    (hok : e.KeepsAudio s) (hstep : i2cStep s e = some s') : s'.AudioTracked := by
  refine ⟨?_, once_step h.once hstep⟩
  cases e with
  | attach busno client =>
      by_cases haudio : client.IsAudio
      · obtain ⟨hindex, hiff⟩ := audioAt_attach_audio haudio hstep
        obtain ⟨hroom, hslot⟩ := hok haudio
        exact Or.inr ⟨_, hroom, hindex, (hiff hroom).mpr hslot⟩
      · have hindex := mspI2cclient_attach haudio hstep
        rcases h.valid with hnone | ⟨k, hk, hstored, hat⟩
        · exact Or.inl (hindex.trans hnone)
        · exact Or.inr ⟨k, hk, hindex.trans hstored, audioAt_attach hat hstep⟩
  | detach busno client =>
      have hindex := mspI2cclient_detach hstep
      by_cases hmsp : client.driverId = .msp3400
      · exact Or.inl (hindex.trans (if_pos hmsp))
      · rw [if_neg hmsp] at hindex
        rcases h.valid with hnone | ⟨k, hk, hstored, hat⟩
        · exact Or.inl (hindex.trans hnone)
        · rcases hok with hmsp' | hnone | hother
          · exact absurd hmsp' hmsp
          · exact Or.inl (hindex.trans hnone)
          · exact Or.inr ⟨k, hk, hindex.trans hstored,
              (audioAt_detach h.once hat hstep).mpr (hother k hstored)⟩

/-- An event after which the stored index is valid has kept the audio client. -/
theorem keepsAudio_of_valid (s : I2cSys) (e : I2cEvent) (s' : I2cSys) (h : s.AudioTracked)
    (hstep : i2cStep s e = some s') (hgood : s'.AudioValid) : e.KeepsAudio s := by
  cases e with
  | attach busno client =>
      intro haudio
      obtain ⟨hindex, hiff⟩ := audioAt_attach_audio haudio hstep
      rcases hgood with hnone | ⟨k, hk, hstored, hat⟩
      · rw [hindex] at hnone
        omega
      · have hfirst : (s.dev.clients busno).firstFree = k :=
          Int.ofNat_inj.mp (hindex.symm.trans hstored)
        rw [← hfirst] at hk hat
        exact ⟨hk, (hiff hk).mp hat⟩
  | detach busno client =>
      by_cases hmsp : client.driverId = .msp3400
      · exact Or.inl hmsp
      · have hindex := mspI2cclient_detach hstep
        rw [if_neg hmsp] at hindex
        rcases h.valid with hnone | ⟨k, -, hstored, hat⟩
        · exact Or.inr (Or.inl hnone)
        · refine Or.inr (Or.inr fun k' hk' => ?_)
          rcases hgood with hnone | ⟨k'', -, hstored', hat'⟩
          · rw [hindex, hk'] at hnone
            omega
          · have hk : k = k' := Int.ofNat_inj.mp (hstored.symm.trans hk')
            have hk'' : k'' = k' :=
              Int.ofNat_inj.mp (hstored'.symm.trans (hindex.trans hk'))
            subst hk hk''
            exact (audioAt_detach h.once hat hstep).mp hat'

theorem initBuses_mspI2cclient (d : I2cDev) (buses : List Nat) :
    (initBuses d buses).1.mspI2cclient = d.mspI2cclient := by
  induction buses generalizing d with
  | nil => rfl
  | cons i rest ih => exact ih (initBus d i).1

theorem i2cStart_audioTracked (cardType : U16) (memory : Nat → I2cBus) :
    (i2cStart cardType memory).AudioTracked :=
  ⟨Or.inl (initBuses_mspI2cclient _ _), List.nodup_nil⟩

/-- The stored index never dangles in a run if and only if every event of the run
keeps the audio client. -/
theorem audioIndex_valid_iff (cardType : U16) (memory : Nat → I2cBus)
    (events : List I2cEvent) :
    AllStates i2cStep I2cSys.AudioValid (i2cStart cardType memory) events ↔
      AllSteps i2cStep (fun s e => e.KeepsAudio s) (i2cStart cardType memory) events :=
  allStates_iff_allSteps audioTracked_step (fun _ h => h.valid) keepsAudio_of_valid
    (i2cStart_audioTracked cardType memory) events

/-- A `tvaudio` client that detaches leaves its index behind. -/
theorem audioIndex_dangles :
    let client : I2cClient := ⟨1, 0x40, .tvaudio, true⟩
    ¬ AllStates i2cStep I2cSys.AudioValid
      (i2cStart cardMyhdMdp110 fun _ => ⟨0, 0, SlotTable.empty _ _⟩)
      [.attach 0 client, .detach 0 client] := by
  intro client h
  rcases h.last rfl with hnone | ⟨k, -, hindex, hat⟩
  · exact absurd hnone (by decide)
  · obtain ⟨stored, -, -, hstored⟩ := hat
    cases hstored

end Tl880
