import Mathlib.Data.List.Nodup
import Tl880.Lib.LabelledRun
import Tl880.I2cClients

/-!
# Commands to the I2C clients

`I2cSys` is a card's I2C state together with the clients that are really attached.
A run attaches and detaches clients in any order.  While the tables hold exactly
the attached clients (`Tabled`), `tl880_call_i2c_clients` calls each of them once.

Two things go wrong.  `tl880_init_i2c` and `tl880_call_i2c_clients` index the bus
array by absolute bus id where the array starts with `minbus`, which only cards
whose ids start at 0 hide.  And of the argument of a command only the first
`unsigned long` is restored between two clients.
-/

namespace Tl880

open LabelledRun

/-- A card's I2C state and the attached clients with their buses. -/
structure I2cSys where
  dev : I2cDev
  attached : List (Nat × I2cClient)

/-- The events of a run. -/
inductive I2cEvent
  | attach (busno : Nat) (client : I2cClient)
  | detach (busno : Nat) (client : I2cClient)

/-- One event.  A client attaches to a bus of the card when it is not attached, and
stays unless it is rejected; it detaches from the bus it is attached to. -/
def i2cStep (s : I2cSys) : I2cEvent → Option I2cSys
  | .attach busno client =>
      if busno < s.dev.busCount ∧ client ∉ s.attached.map Prod.snd then
        (tl880I2cAttachInform s.dev busno client).map fun (dev, ret) =>
          ⟨dev, if ret = 0 then (busno, client) :: s.attached else s.attached⟩
      else none
  | .detach busno client =>
      if (busno, client) ∈ s.attached then
        some ⟨tl880I2cDetachInform s.dev busno client,
          s.attached.filter fun entry => entry ≠ (busno, client)⟩
      else none

/-- The clients attached to a bus. -/
def I2cSys.attachedTo (s : I2cSys) (busno : Nat) : List I2cClient :=
  (s.attached.filter fun entry => entry.1 = busno).map Prod.snd

/-- A client attaches to a bus with fewer than `I2C_CLIENTS_MAX` clients. -/
def I2cEvent.HasRoom (s : I2cSys) : I2cEvent → Prop
  | .attach busno _ => (s.attachedTo busno).length < i2cClientsMax
  | .detach _ _ => True

instance (s : I2cSys) : DecidablePred (I2cEvent.HasRoom s)
  | .attach _ _ => inferInstanceAs (Decidable (_ < _))
  | .detach _ _ => isTrue trivial

/-! ## The clients that are called -/

section Calls

variable (command : I2cCommand) (cmd : U32) (oldarg : U64)

/-- The clients of a bus that take commands, in slot order. -/
def I2cDev.commanded (d : I2cDev) (busno : Nat) : List I2cClient :=
  (d.clients busno).occupants.filter fun client => client.hasCommand

/-- The clients of all buses that take commands, in the order they are called. -/
def I2cDev.callees (d : I2cDev) : List I2cClient :=
  (List.range' d.minbus (d.maxbus + 1 - d.minbus)).flatMap d.commanded

/-- The argument after some clients were called with it. -/
def argAfter (arg : Option I2cArg) (clients : List I2cClient) : Option I2cArg :=
  clients.foldl
    (fun arg client => arg.map fun arg => callClient command cmd oldarg arg client) arg

/-- Each client with the argument it is called with. -/
def callAll : List I2cClient → Option I2cArg → List (I2cClient × Option I2cArg)
  | [], _ => []
  | client :: rest, arg => (client, arg) :: callAll rest (argAfter command cmd oldarg arg [client])

theorem callAll_append (clients clients' : List I2cClient) (arg : Option I2cArg) :
    callAll command cmd oldarg (clients ++ clients') arg =
      callAll command cmd oldarg clients arg ++
        callAll command cmd oldarg clients' (argAfter command cmd oldarg arg clients) := by
  induction clients generalizing arg with
  | nil => rfl
  | cons client rest ih =>
      rw [List.cons_append, callAll, callAll, ih]
      rfl

@[simp] theorem callAll_clients (clients : List I2cClient) (arg : Option I2cArg) :
    (callAll command cmd oldarg clients arg).map Prod.fst = clients := by
  induction clients generalizing arg with
  | nil => rfl
  | cons client rest ih => rw [callAll, List.map_cons, ih]

/-- The inner loop over the slots of one bus. -/
theorem foldl_callSlot (j : Nat) (slots : List (Option I2cClient)) (s : I2cCalls) :
    let clients := (slots.filterMap id).filter fun client => client.hasCommand
    slots.foldl (callSlot command cmd oldarg j) s =
      ⟨s.used ++ List.replicate slots.length j,
        s.calls ++ callAll command cmd oldarg clients s.arg,
        argAfter command cmd oldarg s.arg clients⟩ := by
  induction slots generalizing s with
  | nil => simp [callAll, argAfter]
  | cons slot rest ih =>
      intro clients
      rw [List.foldl_cons, ih]
      cases slot with
      | none => simp [clients, callSlot, List.replicate_succ]
      | some client =>
          cases hcommand : client.hasCommand with
          | false => simp [clients, callSlot, hcommand, List.replicate_succ]
          | true =>
              simp [clients, callSlot, hcommand, List.replicate_succ, callAll, argAfter]

/-- The loop over the buses. -/
theorem foldl_callBus (d : I2cDev) (buses : List Nat) (s : I2cCalls) :
    buses.foldl
        (fun s j => (d.i2cbuses j).clients.slots.foldl (callSlot command cmd oldarg j) s) s =
      ⟨s.used ++ buses.flatMap fun j => List.replicate i2cClientsMax j,
        s.calls ++ callAll command cmd oldarg (buses.flatMap d.commanded) s.arg,
        argAfter command cmd oldarg s.arg (buses.flatMap d.commanded)⟩ := by
  induction buses generalizing s with
  | nil => simp [callAll, argAfter]
  | cons j rest ih =>
      have hlength : (d.i2cbuses j).clients.slots.length = i2cClientsMax :=
        (d.i2cbuses j).clients.length_eq
      have hcommanded : ((d.i2cbuses j).clients.slots.filterMap id).filter
          (fun client => client.hasCommand) = d.commanded j := rfl
      rw [List.foldl_cons, foldl_callSlot, ih, hlength, hcommanded, List.flatMap_cons,
        List.flatMap_cons, callAll_append]
      simp [argAfter]

/-- A whole command: the indices used, and the calls. -/
theorem tl880CallI2cClients_eq (d : I2cDev) (arg : Option I2cArg) :
    let r := tl880CallI2cClients command d cmd arg
    r.used = (List.range' d.minbus (d.maxbus + 1 - d.minbus)).flatMap
      (fun j => List.replicate i2cClientsMax j) ∧
    r.calls = callAll command cmd ((arg.map I2cArg.head).getD 0) d.callees arg := by
  intro r
  have hfold := foldl_callBus command cmd ((arg.map I2cArg.head).getD 0) d
    (List.range' d.minbus (d.maxbus + 1 - d.minbus)) ⟨[], [], arg⟩
  have hr : r = _ := hfold
  rw [hr]
  exact ⟨List.nil_append _, List.nil_append _⟩

/-- A call leaves the argument as it was exactly when the client left the bytes
behind the first `unsigned long` as they were. -/
theorem callClient_eq_iff (arg : I2cArg) (client : I2cClient) :
    callClient command cmd arg.head arg client = arg ↔
      (command client cmd arg).rest = arg.rest := by
  have hrestored : callClient command cmd arg.head arg client =
      ⟨arg.head, (command client cmd arg).rest⟩ := by
    unfold callClient
    dsimp only
    split_ifs with hhead
    · rfl
    · rw [← not_not.mp hhead]
  rw [hrestored]
  constructor
  · intro heq
    have hrest : (⟨arg.head, (command client cmd arg).rest⟩ : I2cArg).rest = arg.rest := by
      rw [heq]
    exact hrest
  · intro heq
    rw [heq]

/-- A NULL argument stays NULL. -/
theorem callAll_none (oldarg : U64) (clients : List I2cClient) :
    ∀ call ∈ callAll command cmd oldarg clients none, call.2 = none := by
  induction clients with
  | nil =>
      intro call hcall
      cases hcall
  | cons client rest ih =>
      rw [callAll, List.forall_mem_cons]
      exact ⟨rfl, ih⟩

/-- Every client is called with the caller's argument exactly when every client but
the last one called left the bytes behind the first `unsigned long` as they were. -/
theorem callAll_args_iff (clients : List I2cClient) (arg : I2cArg) :
    (∀ call ∈ callAll command cmd arg.head clients (some arg), call.2 = some arg) ↔
      ∀ client ∈ clients.dropLast, (command client cmd arg).rest = arg.rest := by
  induction clients with
  | nil => simp [callAll]
  | cons client rest ih =>
      cases rest with
      | nil => simp [callAll]
      | cons next rest =>
          have hnext : argAfter command cmd arg.head (some arg) [client] =
              some (callClient command cmd arg.head arg client) := rfl
          rw [callAll, hnext, List.dropLast_cons_cons, List.forall_mem_cons, List.forall_mem_cons]
          constructor
          · intro hall
            obtain ⟨-, hrest⟩ := hall
            have hkept : callClient command cmd arg.head arg client = arg :=
              Option.some.inj (hrest _ List.mem_cons_self)
            rw [hkept] at hrest
            exact ⟨(callClient_eq_iff command cmd arg client).mp hkept, ih.mp hrest⟩
          · intro hall
            obtain ⟨hclient, hrest⟩ := hall
            refine ⟨rfl, ?_⟩
            rw [(callClient_eq_iff command cmd arg client).mpr hclient]
            exact ih.mpr hrest

end Calls

/-! ## The tables hold the attached clients -/

/-- The buses start at 0, each table holds the clients attached to its bus, and no
client is attached twice. -/
structure I2cSys.Tabled (s : I2cSys) : Prop where
  minbus : s.dev.minbus = 0
  occupants : ∀ b, b ≤ s.dev.maxbus →
    (s.dev.clients b).occupants.Perm (s.attachedTo b)
  range : ∀ entry ∈ s.attached, entry.1 ≤ s.dev.maxbus
  once : (s.attached.map Prod.snd).Nodup

theorem I2cSys.mem_attachedTo {s : I2cSys} {b : Nat} {client : I2cClient} :
    client ∈ s.attachedTo b ↔ (b, client) ∈ s.attached := by
  unfold I2cSys.attachedTo
  constructor
  · intro h
    obtain ⟨⟨b', client'⟩, hentry, rfl⟩ := List.mem_map.mp h
    obtain ⟨hmem, hb⟩ := List.mem_filter.mp hentry
    have hb' : b' = b := by simpa using hb
    rw [← hb']
    exact hmem
  · intro h
    exact List.mem_map.mpr ⟨(b, client), List.mem_filter.mpr ⟨h, by simp⟩, rfl⟩

theorem I2cSys.attachedTo_nodup {s : I2cSys} (h : (s.attached.map Prod.snd).Nodup) (b : Nat) :
    (s.attachedTo b).Nodup :=
  h.sublist (List.filter_sublist.map Prod.snd)

/-- The clients of a bus after one more was attached to some bus. -/
theorem attachedTo_cons (attached : List (Nat × I2cClient)) (dev dev' : I2cDev)
    (busno b : Nat) (client : I2cClient) :
    (⟨dev', (busno, client) :: attached⟩ : I2cSys).attachedTo b =
      if busno = b then client :: (⟨dev, attached⟩ : I2cSys).attachedTo b
      else (⟨dev, attached⟩ : I2cSys).attachedTo b := by
  unfold I2cSys.attachedTo
  by_cases hb : busno = b <;> simp [hb]

/-- The clients of a bus after one was detached from it. -/
theorem attachedTo_filter_self (attached : List (Nat × I2cClient)) (dev dev' : I2cDev)
    (busno : Nat) (client : I2cClient) :
    (⟨dev', attached.filter fun entry => entry ≠ (busno, client)⟩ : I2cSys).attachedTo busno =
      ((⟨dev, attached⟩ : I2cSys).attachedTo busno).filter fun c => c ≠ client := by
  show ((attached.filter _).filter _).map Prod.snd = ((attached.filter _).map Prod.snd).filter _
  rw [List.filter_map, List.filter_filter, List.filter_filter]
  apply congrArg (List.map Prod.snd)
  apply List.filter_congr
  intro entry _
  obtain ⟨b, c⟩ := entry
  by_cases hb : b = busno <;> simp [hb]

/-- The clients of a bus after one was detached from another bus. -/
theorem attachedTo_filter_ne (attached : List (Nat × I2cClient)) (dev dev' : I2cDev)
    {busno b : Nat} (hne : b ≠ busno) (client : I2cClient) :
    (⟨dev', attached.filter fun entry => entry ≠ (busno, client)⟩ : I2cSys).attachedTo b =
      (⟨dev, attached⟩ : I2cSys).attachedTo b := by
  show ((attached.filter _).filter _).map Prod.snd = (attached.filter _).map Prod.snd
  rw [List.filter_filter]
  apply congrArg (List.map Prod.snd)
  apply List.filter_congr
  intro entry _
  obtain ⟨b', c⟩ := entry
  by_cases hb : b' = b <;> simp [hb, hne]

namespace I2cSys.Tabled

variable {dev dev' : I2cDev} {attached : List (Nat × I2cClient)} {busno : Nat}
  {client : I2cClient}

/-- A client is added to the occupants of its bus. -/
theorem accept (h : (⟨dev, attached⟩ : I2cSys).Tabled) (hbus : busno ≤ dev.maxbus)
    (hnew : client ∉ attached.map Prod.snd)
    (hothers : ∀ other, other ≠ busno → dev'.clients other = dev.clients other)
    (hmin : dev'.minbus = dev.minbus) (hmax : dev'.maxbus = dev.maxbus)
    (htable : (dev'.clients busno).occupants.Perm
      (client :: (dev.clients busno).occupants)) :
    (⟨dev', (busno, client) :: attached⟩ : I2cSys).Tabled where
  minbus := hmin.trans h.minbus
  occupants := by
    intro b hb
    have hb : b ≤ dev.maxbus := hmax ▸ hb
    rw [attachedTo_cons attached dev dev']
    show (dev'.clients b).occupants.Perm _
    by_cases heq : busno = b
    · subst heq
      rw [if_pos rfl]
      exact htable.trans ((h.occupants busno hb).cons client)
    · rw [if_neg heq, hothers b (Ne.symm heq)]
      exact h.occupants b hb
  range := by
    intro entry hentry
    show entry.1 ≤ dev'.maxbus
    rw [hmax]
    rcases List.mem_cons.mp hentry with rfl | hmem
    · exact hbus
    · exact h.range entry hmem
  once := List.nodup_cons.mpr ⟨hnew, h.once⟩

/-- The tables change, but not what is in them. -/
theorem of_perm (h : (⟨dev, attached⟩ : I2cSys).Tabled)
    (hothers : ∀ other, other ≠ busno → dev'.clients other = dev.clients other)
    (hmin : dev'.minbus = dev.minbus) (hmax : dev'.maxbus = dev.maxbus)
    (htable : (dev'.clients busno).occupants.Perm (dev.clients busno).occupants) :
    (⟨dev', attached⟩ : I2cSys).Tabled where
  minbus := hmin.trans h.minbus
  occupants := by
    intro b hb
    have hb : b ≤ dev.maxbus := hmax ▸ hb
    show (dev'.clients b).occupants.Perm ((⟨dev, attached⟩ : I2cSys).attachedTo b)
    by_cases heq : b = busno
    · subst heq
      exact htable.trans (h.occupants b hb)
    · rw [hothers b heq]
      exact h.occupants b hb
  range := by
    intro entry hentry
    show entry.1 ≤ dev'.maxbus
    rw [hmax]
    exact h.range entry hentry
  once := h.once

/-- A client is taken out of its bus. -/
theorem detach (h : (⟨dev, attached⟩ : I2cSys).Tabled) :
    (⟨tl880I2cDetachInform dev busno client,
      attached.filter fun entry => entry ≠ (busno, client)⟩ : I2cSys).Tabled := by
  obtain ⟨hclear, hothers, hmin, hmax, -, -⟩ := tl880I2cDetachInform_spec dev busno client
  refine ⟨hmin.trans h.minbus, fun b hb => ?_, ?_, ?_⟩
  · by_cases heq : b = busno
    · subst heq
      rw [attachedTo_filter_self attached dev]
      show ((tl880I2cDetachInform dev b client).clients b).occupants.Perm _
      rw [hclear, SlotTable.occupants_clear]
      exact (h.occupants b (hmax ▸ hb)).filter _
    · rw [attachedTo_filter_ne attached dev _ heq]
      show ((tl880I2cDetachInform dev busno client).clients b).occupants.Perm _
      rw [hothers b heq]
      exact h.occupants b (hmax ▸ hb)
  · intro entry hentry
    show entry.1 ≤ (tl880I2cDetachInform dev busno client).maxbus
    rw [hmax]
    exact h.range entry (List.mem_of_mem_filter hentry)
  · exact h.once.sublist (List.filter_sublist.map Prod.snd)

end I2cSys.Tabled

/-- An event on a table with room keeps the tables. -/
theorem tabled_step (s : I2cSys) (e : I2cEvent) (s' : I2cSys) (h : s.Tabled)
    (hroom : e.HasRoom s) (hstep : i2cStep s e = some s') : s'.Tabled := by
  obtain ⟨dev, attached⟩ := s
  cases e with
  | attach busno client =>
      simp only [i2cStep] at hstep
      split_ifs at hstep with hready
      obtain ⟨hbus, hnew⟩ := hready
      obtain ⟨⟨dev', ret⟩, hattach, rfl⟩ := Option.map_eq_some_iff.mp hstep
      have hbus' : busno ≤ dev.maxbus := by
        have hmin : dev.minbus = 0 := h.minbus
        unfold I2cDev.busCount at hbus
        omega
      have htable := h.occupants busno hbus'
      have hfree : (dev.clients busno).firstFree < i2cClientsMax := by
        rw [SlotTable.firstFree_lt_iff, htable.length_eq]
        exact hroom
      obtain ⟨hothers, hmin, hmax, -, hcases⟩ := tl880I2cAttachInform_cases hattach
      rcases hcases with ⟨rfl, hclients, -⟩ | ⟨hret, -, hclients, -⟩
      · rw [if_pos rfl]
        apply h.accept hbus' hnew hothers hmin hmax
        rw [hclients]
        exact (dev.clients busno).occupants_insert_perm client hfree
      · -- A rejected tuner leaves no trace.
        rw [if_neg hret]
        apply h.of_perm hothers hmin hmax
        rw [hclients]
        apply SlotTable.occupants_clear_insert_perm hfree
        intro hclient
        have hattached := I2cSys.mem_attachedTo.mp (htable.mem_iff.mp hclient)
        exact hnew (List.mem_map_of_mem hattached)
  | detach busno client =>
      simp only [i2cStep] at hstep
      split_ifs at hstep with hmem
      cases hstep
      exact h.detach

/-! ## What a command reaches -/

/-- A command is dispatched well: it indexes the driver's own buses only, it calls
exactly the attached clients that take commands, each once, and each with the
argument the caller passed. -/
structure I2cSys.Dispatches (command : I2cCommand) (cmd : U32) (arg : Option I2cArg)
    (s : I2cSys) : Prop where
  used : ∀ j ∈ (tl880CallI2cClients command s.dev cmd arg).used, j < s.dev.busCount
  once : ((tl880CallI2cClients command s.dev cmd arg).calls.map Prod.fst).Nodup
  clients : ∀ client,
    client ∈ (tl880CallI2cClients command s.dev cmd arg).calls.map Prod.fst ↔
      client.hasCommand = true ∧ client ∈ s.attached.map Prod.snd
  args : ∀ call ∈ (tl880CallI2cClients command s.dev cmd arg).calls, call.2 = arg

/-- What a command's argument needs to reach every client unchanged: every client
but the last one called leaves the bytes behind the first `unsigned long` alone. -/
def I2cSys.KeepsArg (command : I2cCommand) (cmd : U32) (arg : Option I2cArg)
    (s : I2cSys) : Prop :=
  ∀ a, arg = some a → ∀ client ∈ s.dev.callees.dropLast, (command client cmd a).rest = a.rest

/-- The buses have been set up: every client slot of every allocated bus is empty,
and only allocated buses were touched. -/
structure I2cInitialized (r : I2cDev × List Nat) : Prop where
  slots : ∀ b < r.1.busCount, ∀ k, (r.1.clients b).get k = none
  used : ∀ j ∈ r.2, j < r.1.busCount

theorem mem_commanded {d : I2cDev} {b : Nat} {client : I2cClient} :
    client ∈ d.commanded b ↔
      client ∈ (d.clients b).occupants ∧ client.hasCommand = true := List.mem_filter

/-- With exact tables, each attached client that takes commands is called once. -/
theorem I2cSys.Tabled.callees {s : I2cSys} (h : s.Tabled) :
    s.dev.callees.Nodup ∧ ∀ client, client ∈ s.dev.callees ↔
      client.hasCommand = true ∧ client ∈ s.attached.map Prod.snd := by
  have hbuses (b : Nat) :
      b ∈ List.range' s.dev.minbus (s.dev.maxbus + 1 - s.dev.minbus) ↔ b ≤ s.dev.maxbus := by
    rw [List.mem_range'_1, h.minbus]
    omega
  have hmem (b : Nat) (hb : b ≤ s.dev.maxbus) (client : I2cClient) :
      client ∈ (s.dev.clients b).occupants ↔ (b, client) ∈ s.attached := by
    rw [(h.occupants b hb).mem_iff]
    exact I2cSys.mem_attachedTo
  constructor
  · refine List.nodup_flatMap.mpr ⟨fun b hb => ?_, ?_⟩
    · have htable := (h.occupants b ((hbuses b).mp hb)).nodup_iff
      exact (htable.mpr (I2cSys.attachedTo_nodup h.once b)).filter _
    · have hrange : (List.range' s.dev.minbus (s.dev.maxbus + 1 - s.dev.minbus)).Nodup :=
        List.nodup_range'
      refine hrange.imp_of_mem fun {b b'} hb hb' hne => ?_
      -- A client of two buses would be attached twice.
      intro client hclient hclient'
      have hentry := (hmem b ((hbuses b).mp hb) client).mp (mem_commanded.mp hclient).1
      have hentry' := (hmem b' ((hbuses b').mp hb') client).mp (mem_commanded.mp hclient').1
      have heq := List.inj_on_of_nodup_map h.once hentry hentry' rfl
      exact hne (congrArg Prod.fst heq)
  · intro client
    unfold I2cDev.callees
    rw [List.mem_flatMap]
    constructor
    · intro hcallee
      obtain ⟨b, hb, hclient⟩ := hcallee
      obtain ⟨hoccupant, hcommand⟩ := mem_commanded.mp hclient
      have hentry := (hmem b ((hbuses b).mp hb) client).mp hoccupant
      exact ⟨hcommand, List.mem_map_of_mem hentry⟩
    · intro hreached
      obtain ⟨hcommand, hattached⟩ := hreached
      obtain ⟨⟨b, c⟩, hentry, rfl⟩ := List.mem_map.mp hattached
      have hb : b ≤ s.dev.maxbus := h.range _ hentry
      exact ⟨b, (hbuses b).mpr hb, mem_commanded.mpr ⟨(hmem b hb c).mpr hentry, hcommand⟩⟩

/-- With exact tables, a command is dispatched well exactly when its argument is
kept. -/
theorem I2cSys.Tabled.dispatches_iff {s : I2cSys} (h : s.Tabled) (command : I2cCommand)
    (cmd : U32) (arg : Option I2cArg) :
    s.Dispatches command cmd arg ↔ s.KeepsArg command cmd arg := by
  obtain ⟨hused, hcalls⟩ := tl880CallI2cClients_eq command cmd s.dev arg
  obtain ⟨hnodup, hmem⟩ := h.callees
  have hargs : (∀ call ∈ (tl880CallI2cClients command s.dev cmd arg).calls, call.2 = arg) ↔
      s.KeepsArg command cmd arg := by
    rw [hcalls]
    cases arg with
    | none =>
        exact iff_of_true (callAll_none command cmd _ s.dev.callees) (fun a ha => by cases ha)
    | some a =>
        have hiff := callAll_args_iff command cmd s.dev.callees a
        constructor
        · rintro hall a' ⟨⟩
          exact hiff.mp hall
        · intro hkept
          exact hiff.mpr (hkept a rfl)
  constructor
  · intro hdispatch
    exact hargs.mp hdispatch.args
  · intro hkept
    refine ⟨?_, ?_, ?_, hargs.mpr hkept⟩
    · rw [hused]
      intro j hj
      obtain ⟨b, hb, hj'⟩ := List.mem_flatMap.mp hj
      have hbus := List.mem_range'_1.mp hb
      rw [List.eq_of_mem_replicate hj']
      rw [h.minbus] at hbus
      unfold I2cDev.busCount
      rw [h.minbus]
      omega
    · rw [hcalls, callAll_clients]
      exact hnodup
    · intro client
      rw [hcalls, callAll_clients]
      exact hmem client

/-! ## Set-up -/

theorem busRange_cases (cardType : U16) :
    (cardType = cardHipix ∧ busRange cardType = (5, 5)) ∨
      (cardType = cardWintvHd ∧ busRange cardType = (3, 4)) ∨
      (cardType ≠ cardHipix ∧ cardType ≠ cardWintvHd ∧ (busRange cardType).1 = 0) := by
  unfold busRange
  split_ifs with hhipix hwintv
  · exact Or.inl ⟨hhipix, rfl⟩
  · exact Or.inr (Or.inl ⟨hwintv, rfl⟩)
  all_goals exact Or.inr (Or.inr ⟨hhipix, hwintv, rfl⟩)

/-- The state after `tl880_init_i2c`, before any client attached. -/
def i2cStart (cardType : U16) (memory : Nat → I2cBus) : I2cSys :=
  ⟨(tl880InitI2c (I2cDev.created cardType memory) memory).1, []⟩

/-- `tl880_init_i2c` by card type. -/
theorem tl880InitI2c_spec (cardType : U16) (memory : Nat → I2cBus) :
    let r := tl880InitI2c (I2cDev.created cardType memory) memory
    r.1.minbus = (busRange cardType).1 ∧ r.1.maxbus = (busRange cardType).2 ∧
      (∀ b, (busRange cardType).1 ≤ b → b ≤ (busRange cardType).2 →
        r.1.clients b = SlotTable.empty _ _) ∧
      ∀ j, j ∈ r.2 ↔ ∃ i, ((busRange cardType).1 ≤ i ∧ i ≤ (busRange cardType).2) ∧
        (j = i ∨ j = i - (busRange cardType).1) := by
  intro r
  obtain ⟨hempty, -, hmin, hmax, hused⟩ := initBuses_spec
    { I2cDev.created cardType memory with
      minbus := (busRange cardType).1, maxbus := (busRange cardType).2, i2cbuses := memory }
    (List.range' (busRange cardType).1 ((busRange cardType).2 + 1 - (busRange cardType).1))
  have hbuses (b : Nat) :
      b ∈ List.range' (busRange cardType).1
          ((busRange cardType).2 + 1 - (busRange cardType).1) ↔
        (busRange cardType).1 ≤ b ∧ b ≤ (busRange cardType).2 := by
    rw [List.mem_range'_1]
    omega
  refine ⟨hmin, hmax, fun b hb hb' => hempty b ((hbuses b).mpr ⟨hb, hb'⟩), fun j => ?_⟩
  refine (hused j).trans (exists_congr fun i => ?_)
  rw [hbuses i]

/-- The buses are set up in bounds exactly on cards whose bus ids start at 0. -/
theorem i2cInitialized_iff (cardType : U16) (memory : Nat → I2cBus) :
    I2cInitialized (tl880InitI2c (I2cDev.created cardType memory) memory) ↔
      cardType ≠ cardHipix ∧ cardType ≠ cardWintvHd := by
  obtain ⟨hmin, hmax, hempty, hused⟩ := tl880InitI2c_spec cardType memory
  rcases busRange_cases cardType with ⟨hcard, hrange⟩ | ⟨hcard, hrange⟩ |
    ⟨hhipix, hwintv, hrange⟩
  · refine iff_of_false (fun h => ?_) (fun h => h.1 hcard)
    have hbound := h.used 5 ((hused 5).mpr ⟨5, by rw [hrange]; decide, Or.inl rfl⟩)
    unfold I2cDev.busCount at hbound
    rw [hmin, hmax, hrange] at hbound
    contradiction
  · refine iff_of_false (fun h => ?_) (fun h => h.2 hcard)
    have hbound := h.used 3 ((hused 3).mpr ⟨3, by rw [hrange]; decide, Or.inl rfl⟩)
    unfold I2cDev.busCount at hbound
    rw [hmin, hmax, hrange] at hbound
    contradiction
  · refine iff_of_true ⟨fun b hb k => ?_, fun j hj => ?_⟩ ⟨hhipix, hwintv⟩
    · unfold I2cDev.busCount at hb
      rw [hmin, hmax, hrange] at hb
      rw [hempty b (by rw [hrange]; omega) (by omega)]
      exact SlotTable.get_empty k
    · obtain ⟨i, ⟨-, hle⟩, hj'⟩ := (hused j).mp hj
      unfold I2cDev.busCount
      rw [hmin, hmax, hrange]
      rw [hrange] at hj'
      omega

/-- A card whose bus ids start at 0 starts with exact tables. -/
theorem i2cStart_tabled {cardType : U16} (hhipix : cardType ≠ cardHipix)
    (hwintv : cardType ≠ cardWintvHd) (memory : Nat → I2cBus) :
    (i2cStart cardType memory).Tabled := by
  obtain ⟨hmin, hmax, hempty, -⟩ := tl880InitI2c_spec cardType memory
  have hzero : (busRange cardType).1 = 0 := by
    rcases busRange_cases cardType with ⟨hcard, -⟩ | ⟨hcard, -⟩ | ⟨-, -, hzero⟩
    · exact absurd hcard hhipix
    · exact absurd hcard hwintv
    · exact hzero
  refine ⟨hmin.trans hzero, fun b hb => ?_, fun entry hentry => ?_, List.nodup_nil⟩
  · change b ≤ (tl880InitI2c (I2cDev.created cardType memory) memory).1.maxbus at hb
    rw [hmax] at hb
    have htable := hempty b (by rw [hzero]; exact Nat.zero_le b) hb
    show ((i2cStart cardType memory).dev.clients b).occupants.Perm []
    rw [show (i2cStart cardType memory).dev.clients b = _ from htable,
      SlotTable.occupants_empty]
  · exact (List.not_mem_nil hentry).elim

/-- When commands reach the I2C clients.  The buses are set up in bounds and, after
any run in which at most `I2C_CLIENTS_MAX` clients are attached to a bus at a time,
a command is dispatched well, if and only if the card's bus ids start at 0 and every
client but the last one called leaves the bytes behind the first `unsigned long` of
the argument alone. -/
theorem i2cDispatch_iff (cardType : U16) (memory : Nat → I2cBus) (events : List I2cEvent)
    (command : I2cCommand) (cmd : U32) (arg : Option I2cArg) :
    (I2cInitialized (tl880InitI2c (I2cDev.created cardType memory) memory) ∧
      ∀ t, AllSteps i2cStep (fun s e => e.HasRoom s) (i2cStart cardType memory) events →
        run i2cStep (i2cStart cardType memory) events = some t →
          t.Dispatches command cmd arg) ↔
    (cardType ≠ cardHipix ∧ cardType ≠ cardWintvHd) ∧
      ∀ t, AllSteps i2cStep (fun s e => e.HasRoom s) (i2cStart cardType memory) events →
        run i2cStep (i2cStart cardType memory) events = some t →
          t.KeepsArg command cmd arg := by
  rw [i2cInitialized_iff]
  refine and_congr_right fun ⟨hhipix, hwintv⟩ => forall_congr' fun t => ?_
  refine forall_congr' fun hroom => forall_congr' fun hrun => ?_
  have htabled : t.Tabled :=
    run_invariant tabled_step (i2cStart_tabled hhipix hwintv memory) hroom hrun
  exact htabled.dispatches_iff command cmd arg

/-- Both ways to fail.  On a WinTV-HD the set-up touches a bus that is not allocated.
On an MDP-110 with two clients, the first of which writes behind the first
`unsigned long`, the second is not called with the caller's argument. -/
theorem i2cDispatch_fails :
    let memory : Nat → I2cBus := fun _ => ⟨0, 0, SlotTable.empty _ _⟩
    let first : I2cClient := ⟨1, 0x61, .tuner, true⟩
    let second : I2cClient := ⟨2, 0x40, .msp3400, true⟩
    let events : List I2cEvent := [.attach 0 first, .attach 0 second]
    let command : I2cCommand := fun _ _ arg => { arg with rest := [1] }
    ¬ I2cInitialized (tl880InitI2c (I2cDev.created cardWintvHd memory) memory) ∧
      ¬ ∀ t, AllSteps i2cStep (fun s e => e.HasRoom s) (i2cStart cardMyhdMdp110 memory) events →
        run i2cStep (i2cStart cardMyhdMdp110 memory) events = some t →
          t.Dispatches command 0 (some ⟨0, [0]⟩) := by
  intro memory first second events command
  refine ⟨fun h => ?_, fun h => ?_⟩
  · exact absurd (h.used 3 (by decide)) (by decide)
  · have hdispatch := h _ (by decide) rfl
    have hsecond := hdispatch.args (second, some ⟨0, [1]⟩) (by decide)
    exact absurd hsecond (by decide)

end Tl880
