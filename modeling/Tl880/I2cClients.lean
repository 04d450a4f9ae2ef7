import Tl880.Lib.SlotTable
import Tl880.Registers

/-!
# I2C buses and their clients

The model of the client tables of `driver/tl880i2c.c`: `tl880_init_i2c`,
`tl880_i2c_attach_inform`, `tl880_i2c_detach_inform` and
`tl880_call_i2c_clients`.

`i2cbuses` points to an array of `maxbus - minbus + 1` buses.  The model keeps the
memory the pointer can be indexed into as a function on all indices, so that an
access outside the array is an access to whatever lies there; `busCount` says how
many of the indices are the driver's own, and the functions that index the array
also return the indices they used.  The levels of the bus lines, the registration
of the adapters and `printk` are left out.
-/

namespace Tl880

/-! ## Data -/

/-- `I2C_CLIENTS_MAX` -/
def i2cClientsMax : Nat := 16

/-- The driver ids the sources compare with. -/
inductive I2cDriverId
  | tuner
  | msp3400
  | tvaudio
  | other (id : Nat)
  deriving DecidableEq

/-- The part of `struct i2c_client` and its driver that is read. -/
structure I2cClient where
  ptr : U64
  addr : U16
  driverId : I2cDriverId
  /-- `driver->command` is not NULL -/
  hasCommand : Bool
  deriving DecidableEq

/-- A client whose index the driver stores. -/
def I2cClient.IsAudio (client : I2cClient) : Prop :=
  client.driverId = .msp3400 ∨ client.driverId = .tvaudio

instance : DecidablePred I2cClient.IsAudio := fun _ => inferInstanceAs (Decidable (_ ∨ _))

/-- `struct tl880_i2c_bus` -/
structure I2cBus where
  busid : Nat
  busno : Nat
  clients : SlotTable I2cClient i2cClientsMax

/-- The part of `struct tl880_dev` the I2C code works on. -/
structure I2cDev where
  cardType : U16
  minbus : Nat
  maxbus : Nat
  i2cbuses : Nat → I2cBus
  mspI2cbus : Nat
  mspI2cclient : Int

/-- The number of buses `i2cbuses` is allocated for. -/
def I2cDev.busCount (d : I2cDev) : Nat := d.maxbus - d.minbus + 1

def cardHipix : U16 := 0x20
def cardWintvHd : U16 := 0x10
def cardMyhdMdp130 : U16 := 6
def cardMyhdMdp120 : U16 := 5
def cardMyhdMdp110 : U16 := 4
def cardMyhdMdp100 : U16 := 3
def cardMyhdMdp100a : U16 := 2

/-- The card types that get the MyHD tuner. -/
def IsMyhd (cardType : U16) : Prop :=
  cardType = cardMyhdMdp100a ∨ cardType = cardMyhdMdp100 ∨ cardType = cardMyhdMdp110 ∨
    cardType = cardMyhdMdp120 ∨ cardType = cardMyhdMdp130

instance : DecidablePred IsMyhd := fun _ => inferInstanceAs (Decidable (_ ∨ _))

/-! ## `tl880_init_i2c` -/

/-- `minbus` and `maxbus` by card type. -/
def busRange (cardType : U16) : Nat × Nat :=
  if cardType = cardHipix then (5, 5)
  else if cardType = cardWintvHd then (3, 4)
  else if cardType = cardMyhdMdp130 ∨ cardType = cardMyhdMdp120 then (0, 0)
  else if cardType = cardMyhdMdp110 then (0, 2)
  else if cardType = cardMyhdMdp100 ∨ cardType = cardMyhdMdp100a then (0, 1)
  else (0, 0)

/-- Change one bus. -/
def I2cDev.setBus (d : I2cDev) (index : Nat) (update : I2cBus → I2cBus) : I2cDev :=
  { d with i2cbuses := Function.update d.i2cbuses index (update (d.i2cbuses index)) }

/-- Change the client table of one bus. -/
def I2cDev.setClients (d : I2cDev) (index : Nat)
    (update : SlotTable I2cClient i2cClientsMax → SlotTable I2cClient i2cClientsMax) :
    I2cDev :=
  d.setBus index fun bus => { bus with clients := update bus.clients }

/-- One pass of the loop of `tl880_init_i2c`: the fields of bus `i - minbus` are
set, and the client slots of bus `i` are emptied. -/
def initBus (d : I2cDev) (i : Nat) : I2cDev × List Nat :=
  let j := i - d.minbus
  let d := d.setBus j fun bus => { bus with busid := i, busno := i - d.minbus }
  let d := d.setClients i fun _ => SlotTable.empty _ _
  (d, j :: List.replicate i2cClientsMax i)

/-- The loop over the buses, with the indices used. -/
def initBuses (d : I2cDev) : List Nat → I2cDev × List Nat
  | [] => (d, [])
  | i :: rest =>
      let (d, used) := initBus d i
      let (d, used') := initBuses d rest
      (d, used ++ used')

/-- `tl880_init_i2c` on a device whose new bus array has the given contents. -/
def tl880InitI2c (d : I2cDev) (memory : Nat → I2cBus) : I2cDev × List Nat :=
  let (minbus, maxbus) := busRange d.cardType
  let d := { d with minbus := minbus, maxbus := maxbus, i2cbuses := memory }
  initBuses d (List.range' minbus (maxbus + 1 - minbus))

/-- The I2C state `tl880_create_dev` leaves, for a card whose type has been
detected. -/
def I2cDev.created (cardType : U16) (memory : Nat → I2cBus) : I2cDev where
  cardType := cardType
  minbus := 0
  maxbus := 0
  i2cbuses := memory
  mspI2cbus := 0
  mspI2cclient := -1

/-! ## Clients come and go -/

/-- `ENODEV` -/
def enodev : Int := 19

/-- `tl880_i2c_detach_inform` for a client of bus `busno`. -/
def tl880I2cDetachInform (d : I2cDev) (busno : Nat) (client : I2cClient) : I2cDev :=
  let d := d.setClients busno fun clients => clients.clear client
  -- the other audio driver's client leaves its index behind
  if client.driverId = .msp3400 then { d with mspI2cclient := -1 } else d

/-- `tl880_i2c_attach_inform` for a client of bus `busno`; `none` when it calls the
command function of a driver that has none.  A rejected tuner is detached again,
which informs the driver once more. -/
def tl880I2cAttachInform (d : I2cDev) (busno : Nat) (client : I2cClient) :
    Option (I2cDev × Int) :=
  -- 16 when every slot is taken
  let clientNo := (d.i2cbuses busno).clients.firstFree
  let d := d.setClients busno fun clients => clients.insert client
  if client.driverId = .tuner then
    if IsMyhd d.cardType ∧ client.hasCommand = false then none
    -- the VPX answers at this address
    else if client.addr = 0x43 then
      some (tl880I2cDetachInform d busno client, -enodev)
    else some (d, 0)
  else if client.IsAudio then
    if client.hasCommand = false then none
    else some ({ d with mspI2cclient := clientNo }, 0)
  else some (d, 0)

/-! ## `tl880_call_i2c_clients` -/

/-- The memory a command's argument points to: its first `unsigned long`, and the
bytes behind it. -/
structure I2cArg where
  head : U64
  rest : List U8
  deriving DecidableEq

/-- What the command functions of the clients do to a command's argument. -/
abbrev I2cCommand := I2cClient → U32 → I2cArg → I2cArg

/-- The loop state: the bus indices used, the clients called with what their
argument then was, and the argument. -/
structure I2cCalls where
  used : List Nat
  calls : List (I2cClient × Option I2cArg)
  arg : Option I2cArg

/-- A call, after which the first `unsigned long` of the argument is restored. -/
def callClient (command : I2cCommand) (cmd : U32) (oldarg : U64) (arg : I2cArg)
    (client : I2cClient) : I2cArg :=
  let arg := command client cmd arg
  if arg.head ≠ oldarg then { arg with head := oldarg } else arg

/-- The body of the inner loop, for a slot of bus `j`. -/
def callSlot (command : I2cCommand) (cmd : U32) (oldarg : U64) (j : Nat) (s : I2cCalls)
    (slot : Option I2cClient) : I2cCalls :=
  let s := { s with used := s.used ++ [j] }
  match slot with
  | none => s
  | some client =>
      if client.hasCommand = false then s
      else
        { s with
          calls := s.calls ++ [(client, s.arg)]
          arg := s.arg.map fun arg => callClient command cmd oldarg arg client }

/-- `tl880_call_i2c_clients`.  It always returns 0: what the clients return is only
printed. -/
def tl880CallI2cClients (command : I2cCommand) (d : I2cDev) (cmd : U32)
    (arg : Option I2cArg) : I2cCalls :=
  let oldarg := (arg.map I2cArg.head).getD 0
  (List.range' d.minbus (d.maxbus + 1 - d.minbus)).foldl
    (fun s j => (d.i2cbuses j).clients.slots.foldl (callSlot command cmd oldarg j) s)
    ⟨[], [], arg⟩

/-! ## Effects on the client tables -/

@[simp] theorem I2cDev.setBus_self (d : I2cDev) (index : Nat) (update : I2cBus → I2cBus) :
    (d.setBus index update).i2cbuses index = update (d.i2cbuses index) :=
  Function.update_self _ _ _

theorem I2cDev.setBus_ne (d : I2cDev) {index other : Nat} (hne : other ≠ index)
    (update : I2cBus → I2cBus) :
    (d.setBus index update).i2cbuses other = d.i2cbuses other :=
  Function.update_of_ne hne _ _

/-- The client table of a bus. -/
def I2cDev.clients (d : I2cDev) (index : Nat) : SlotTable I2cClient i2cClientsMax :=
  (d.i2cbuses index).clients

@[simp] theorem I2cDev.clients_setClients_self (d : I2cDev) (index : Nat)
    (update : SlotTable I2cClient i2cClientsMax → SlotTable I2cClient i2cClientsMax) :
    (d.setClients index update).clients index = update (d.clients index) := by
  simp [I2cDev.setClients, I2cDev.clients]

theorem I2cDev.clients_setClients_ne (d : I2cDev) {index other : Nat}
    (hne : other ≠ index)
    (update : SlotTable I2cClient i2cClientsMax → SlotTable I2cClient i2cClientsMax) :
    (d.setClients index update).clients other = d.clients other := by
  simp [I2cDev.setClients, I2cDev.clients, I2cDev.setBus_ne d hne]

/-- One pass of the initialisation loop empties the slots of the bus it is given, by
absolute number. -/
theorem initBus_spec (d : I2cDev) (i : Nat) :
    (initBus d i).1.clients i = SlotTable.empty _ _ ∧
      (∀ b, b ≠ i → (initBus d i).1.clients b = d.clients b) ∧
      (initBus d i).1.minbus = d.minbus ∧ (initBus d i).1.maxbus = d.maxbus ∧
      ∀ j, j ∈ (initBus d i).2 ↔ j = i ∨ j = i - d.minbus := by
  have hfields : (initBus d i).1 =
      (d.setBus (i - d.minbus) fun bus =>
        { bus with busid := i, busno := i - d.minbus }).setClients i
          fun _ => SlotTable.empty _ _ := rfl
  refine ⟨?_, fun b hb => ?_, rfl, rfl, fun j => ?_⟩
  · rw [hfields, I2cDev.clients_setClients_self]
  · rw [hfields, I2cDev.clients_setClients_ne _ hb]
    by_cases hj : b = i - d.minbus
    · simp [I2cDev.clients, hj]
    · simp [I2cDev.clients, I2cDev.setBus_ne d hj]
  · show j ∈ (i - d.minbus) :: List.replicate i2cClientsMax i ↔ _
    rw [List.mem_cons, List.mem_replicate]
    constructor
    · intro hused
      rcases hused with h | ⟨-, h⟩
      · exact Or.inr h
      · exact Or.inl h
    · intro hout
      rcases hout with h | h
      · exact Or.inr ⟨by decide, h⟩
      · exact Or.inl h

/-- The whole loop. -/
theorem initBuses_spec (d : I2cDev) (buses : List Nat) :
    (∀ b ∈ buses, (initBuses d buses).1.clients b = SlotTable.empty _ _) ∧
      (∀ b, b ∉ buses → (initBuses d buses).1.clients b = d.clients b) ∧
      (initBuses d buses).1.minbus = d.minbus ∧ (initBuses d buses).1.maxbus = d.maxbus ∧
      ∀ j, j ∈ (initBuses d buses).2 ↔ ∃ i ∈ buses, j = i ∨ j = i - d.minbus := by
  induction buses generalizing d with
  | nil => simp [initBuses]
  | cons i rest ih =>
      obtain ⟨hempty, hothers, hmin, hmax, hused⟩ := initBus_spec d i
      obtain ⟨hempty', hothers', hmin', hmax', hused'⟩ := ih (initBus d i).1
      refine ⟨fun b hb => ?_, fun b hb => ?_, hmin'.trans hmin, hmax'.trans hmax, fun j => ?_⟩
      · show (initBuses (initBus d i).1 rest).1.clients b = _
        by_cases hrest : b ∈ rest
        · exact hempty' b hrest
        · rw [hothers' b hrest]
          rcases List.mem_cons.mp hb with rfl | hb
          · exact hempty
          · exact absurd hb hrest
      · show (initBuses (initBus d i).1 rest).1.clients b = _
        rw [List.mem_cons, not_or] at hb
        rw [hothers' b hb.2, hothers b hb.1]
      · show j ∈ (initBus d i).2 ++ (initBuses (initBus d i).1 rest).2 ↔ _
        rw [List.mem_append, hused, hused', hmin]
        simp only [List.mem_cons, exists_eq_or_imp]

/-- Everything a detach does. -/
theorem tl880I2cDetachInform_spec (d : I2cDev) (busno : Nat) (client : I2cClient) :
    let d' := tl880I2cDetachInform d busno client
    d'.clients busno = (d.clients busno).clear client ∧
      (∀ other, other ≠ busno → d'.clients other = d.clients other) ∧
      d'.minbus = d.minbus ∧ d'.maxbus = d.maxbus ∧ d'.mspI2cbus = d.mspI2cbus ∧
      d'.mspI2cclient = if client.driverId = .msp3400 then -1 else d.mspI2cclient := by
  unfold tl880I2cDetachInform
  have hself := d.clients_setClients_self busno fun clients => clients.clear client
  have hother (other : Nat) (hne : other ≠ busno) :=
    d.clients_setClients_ne hne fun clients => clients.clear client
  split_ifs
  · exact ⟨hself, hother, rfl, rfl, rfl, rfl⟩
  · exact ⟨hself, hother, rfl, rfl, rfl, rfl⟩

/-- Everything an attach can do: the client is put into the first free slot of its
bus, and for an audio client the index of that slot is stored; or it was a tuner at
the address of the VPX, which is taken out again. -/
theorem tl880I2cAttachInform_cases {d d' : I2cDev} {busno : Nat} {client : I2cClient}
    {ret : Int} (h : tl880I2cAttachInform d busno client = some (d', ret)) :
    (∀ other, other ≠ busno → d'.clients other = d.clients other) ∧
    d'.minbus = d.minbus ∧ d'.maxbus = d.maxbus ∧ d'.mspI2cbus = d.mspI2cbus ∧
    ((ret = 0 ∧ d'.clients busno = (d.clients busno).insert client ∧
        d'.mspI2cclient =
          if client.IsAudio then ((d.clients busno).firstFree : Int) else d.mspI2cclient) ∨
      (ret ≠ 0 ∧ ¬ client.IsAudio ∧
        d'.clients busno = ((d.clients busno).insert client).clear client ∧
        d'.mspI2cclient = d.mspI2cclient)) := by
  have hself := d.clients_setClients_self busno fun clients => clients.insert client
  have hother (other : Nat) (hne : other ≠ busno) :=
    d.clients_setClients_ne hne fun clients => clients.insert client
  unfold tl880I2cAttachInform at h
  dsimp only at h
  split_ifs at h with htuner hoops haddr haudio hcommand
  · -- A rejected tuner.
    cases h
    obtain ⟨hclear, hothers, hmin, hmax, hbus, hindex⟩ := tl880I2cDetachInform_spec
      (d.setClients busno fun clients => clients.insert client) busno client
    have hnotAudio : ¬ client.IsAudio := by
      rintro (haudio | haudio) <;> rw [htuner] at haudio <;> cases haudio
    refine ⟨fun other hne => (hothers other hne).trans (hother other hne), hmin, hmax, hbus,
      Or.inr ⟨by decide, hnotAudio, ?_, ?_⟩⟩
    · rw [hclear, hself]
    · rw [hindex, if_neg (by rw [htuner]; nofun)]
      rfl
  · cases h
    have hnotAudio : ¬ client.IsAudio := by
      rintro (haudio | haudio) <;> rw [htuner] at haudio <;> cases haudio
    refine ⟨hother, rfl, rfl, rfl, Or.inl ⟨rfl, hself, ?_⟩⟩
    rw [if_neg hnotAudio]
    rfl
  · cases h
    refine ⟨hother, rfl, rfl, rfl, Or.inl ⟨rfl, hself, ?_⟩⟩
    rw [if_pos haudio]
    rfl
  · cases h
    refine ⟨hother, rfl, rfl, rfl, Or.inl ⟨rfl, hself, ?_⟩⟩
    rw [if_neg haudio]
    rfl

end Tl880
