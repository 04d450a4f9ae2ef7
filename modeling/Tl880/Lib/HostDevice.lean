import Mathlib.Data.List.Basic
import Mathlib.Logic.Function.Basic
import Tl880.Lib.LabelledRun

/-!
# A host and a device that share registers

A host is given by its code: what it accesses at each place.  Between two accesses of the host
the device can write any register, so a run is an interleaving of the host's accesses and the
device's writes.  `log` records who wrote what, the newest write first; `Replayed` connects it
with what the registers show.

`Halts` is about a device that is quiet from now on: `halts_iff_of_step` follows the host by one
access, and `not_halts_of_closed` is the rule for a host that waits for ever.
`accesses_add_rank_le` is about a device that goes on writing: what the host still has to do is
paid for by what the device has done.
-/

namespace HostDevice

open LabelledRun

variable {α β π : Type*}

/-- What a host does next. -/
inductive HostMove (α β π : Type*)
  | read (reg : α) (next : β → π)
  | write (reg : α) (value : β) (next : π)
  | halt

inductive Party
  | host
  | device
  deriving DecidableEq

/-- A write, and who made it. -/
structure Write (α β : Type*) where
  party : Party
  reg : α
  value : β

/-- The registers, the place of the host, and the writes so far. -/
structure State (α β π : Type*) where
  cell : α → β
  pc : π
  log : List (Write α β)

/-- The host takes its next access, or the device writes a register. -/
inductive Event (α β : Type*)
  | host
  | device (reg : α) (value : β)

/-- The writes of the host, the newest first. -/
def hostWrites (log : List (Write α β)) : List (α × β) :=
  log.filterMap fun w => if w.party = .host then some (w.reg, w.value) else none

@[simp] theorem hostWrites_nil : hostWrites ([] : List (Write α β)) = [] := rfl

@[simp] theorem hostWrites_host (reg : α) (value : β) (log : List (Write α β)) :
    hostWrites (⟨.host, reg, value⟩ :: log) = (reg, value) :: hostWrites log := rfl

@[simp] theorem hostWrites_device (reg : α) (value : β) (log : List (Write α β)) :
    hostWrites (⟨.device, reg, value⟩ :: log) = hostWrites log := rfl

/-- The newest write of a list that the host writes in order. -/
theorem take_succ_reverse {writes : List (α × β)} {n : Nat} {w : α × β}
    (hw : writes[n]? = some w) : w :: (writes.take n).reverse = (writes.take (n + 1)).reverse := by
  rw [List.take_add_one, hw]
  simp

/-- The writes after the last one with a mark. -/
def since (mark : Write α β → Prop) [DecidablePred mark] (log : List (Write α β)) :
    List (Write α β) :=
  log.takeWhile fun w => ¬ mark w

section Since

variable {mark : Write α β → Prop} [DecidablePred mark]

theorem since_cons_of_not {w : Write α β} (hmark : ¬ mark w) (log : List (Write α β)) :
    since mark (w :: log) = w :: since mark log := by
  simp [since, hmark]

end Since

section Steps

variable [DecidableEq α]

/-- A write reaches the registers. -/
def State.put (s : State α β π) (w : Write α β) : State α β π :=
  { s with cell := Function.update s.cell w.reg w.value, log := w :: s.log }

/-- One event.  A host that has halted takes no more accesses. -/
def step (code : π → HostMove α β π) (s : State α β π) : Event α β → Option (State α β π)
  | .host =>
      match code s.pc with
      | .read reg next => some { s with pc := next (s.cell reg) }
      | .write reg value next => some { s.put ⟨.host, reg, value⟩ with pc := next }
      | .halt => none
  | .device reg value => some (s.put ⟨.device, reg, value⟩)

@[simp] theorem put_cell_self (s : State α β π) (party : Party) (reg : α) (value : β) :
    (s.put ⟨party, reg, value⟩).cell reg = value :=
  Function.update_self _ _ _

theorem put_cell_ne (s : State α β π) {w : Write α β} {reg : α} (hne : reg ≠ w.reg) :
    (s.put w).cell reg = s.cell reg :=
  Function.update_of_ne hne _ _

@[simp] theorem put_log (s : State α β π) (w : Write α β) : (s.put w).log = w :: s.log := rfl

@[simp] theorem put_pc (s : State α β π) (w : Write α β) : (s.put w).pc = s.pc := rfl

variable {code : π → HostMove α β π} {s t : State α β π}

theorem step_read {reg : α} {next : β → π} (hcode : code s.pc = .read reg next) :
    step code s .host = some { s with pc := next (s.cell reg) } := by
  simp only [step, hcode]

theorem step_write {reg : α} {value : β} {next : π} (hcode : code s.pc = .write reg value next) :
    step code s .host = some { s.put ⟨.host, reg, value⟩ with pc := next } := by
  simp only [step, hcode]

/-- What one event does: the host reads or writes as its code says, or the device writes. -/
theorem step_cases {e : Event α β} (hstep : step code s e = some t) :
    (∃ reg next, e = .host ∧ code s.pc = .read reg next ∧
        t = { s with pc := next (s.cell reg) }) ∨
      (∃ reg value next, e = .host ∧ code s.pc = .write reg value next ∧
        t = { s.put ⟨.host, reg, value⟩ with pc := next }) ∨
      ∃ reg value, e = .device reg value ∧ t = s.put ⟨.device, reg, value⟩ := by
  cases e with
  | host =>
      cases hcode : code s.pc with
      | read reg next =>
          rw [step_read hcode] at hstep
          exact Or.inl ⟨reg, next, rfl, rfl, (Option.some.inj hstep).symm⟩
      | write reg value next =>
          rw [step_write hcode] at hstep
          exact Or.inr (Or.inl ⟨reg, value, next, rfl, rfl, (Option.some.inj hstep).symm⟩)
      | halt =>
          simp only [step, hcode] at hstep
          cases hstep
  | device reg value =>
      exact Or.inr (Or.inr ⟨reg, value, rfl, (Option.some.inj hstep).symm⟩)

/-- The registers show the newest write to each of them. -/
def Replayed (init : α → β) (s : State α β π) : Prop :=
  ∀ reg, s.cell reg = ((s.log.find? fun w => w.reg = reg).map Write.value).getD (init reg)

theorem Replayed.put {init : α → β} (h : Replayed init s) (w : Write α β) :
    Replayed init (s.put w) := by
  intro reg
  by_cases hreg : w.reg = reg
  · subst hreg
    simp [State.put]
  · rw [put_cell_ne s (Ne.symm hreg), put_log, List.find?_cons_of_neg (by simpa using hreg)]
    exact h reg

theorem Replayed.step {init : α → β} (h : Replayed init s) {e : Event α β}
    (hstep : step code s e = some t) : Replayed init t := by
  obtain ⟨reg, next, -, -, rfl⟩ | ⟨reg, value, next, -, -, rfl⟩ | ⟨reg, value, -, rfl⟩ :=
    step_cases hstep
  · exact h
  · exact h.put ⟨.host, reg, value⟩
  · exact h.put ⟨.device, reg, value⟩

/-- A register that only the host wrote, and with one value only, shows that value. -/
theorem Replayed.cell_eq {init : α → β} (h : Replayed init s) {reg : α} {value : β}
    (hmem : (reg, value) ∈ hostWrites s.log)
    (honly : ∀ value', (reg, value') ∈ hostWrites s.log → value' = value)
    (hdevice : ∀ w ∈ s.log, w.reg = reg → w.party = .host) : s.cell reg = value := by
  obtain ⟨w, hw, hentry⟩ := List.mem_filterMap.mp hmem
  rw [h reg]
  cases hfind : s.log.find? fun w => w.reg = reg with
  | none =>
      have hnone := List.find?_eq_none.mp hfind w hw
      split_ifs at hentry with hparty
      rw [Option.some.injEq, Prod.mk.injEq] at hentry
      exact absurd hentry.1 (by simpa using hnone)
  | some v =>
      have hv := List.mem_of_find?_eq_some hfind
      have hreg : v.reg = reg := by simpa using List.find?_some hfind
      have hlisted : (reg, v.value) ∈ hostWrites s.log := by
        refine List.mem_filterMap.mpr ⟨v, hv, ?_⟩
        rw [if_pos (hdevice v hv hreg), hreg]
      exact honly v.value hlisted

/-! ## A device that is quiet from now on -/

/-- The host halts by itself. -/
def Halts (code : π → HostMove α β π) (s : State α β π) : Prop :=
  ∃ n t, run (step code) s (List.replicate n .host) = some t ∧ code t.pc = .halt

theorem halts_of_halt (hcode : code s.pc = .halt) : Halts code s := ⟨0, s, rfl, hcode⟩

/-- A host halts if it does after its next access. -/
theorem halts_iff_of_step (hstep : step code s .host = some t) :
    Halts code s ↔ Halts code t := by
  constructor
  · rintro ⟨n, u, hrun, hhalt⟩
    cases n with
    | zero =>
        cases hrun
        simp only [step, hhalt] at hstep
        cases hstep
    | succ n =>
        rw [List.replicate_succ, run_cons, hstep] at hrun
        exact ⟨n, u, hrun, hhalt⟩
  · rintro ⟨n, u, hrun, hhalt⟩
    refine ⟨n + 1, u, ?_, hhalt⟩
    rw [List.replicate_succ, run_cons, hstep]
    exact hrun

theorem halts_read {cell : α → β} {pc : π} {log : List (Write α β)} {reg : α} {next : β → π}
    (hcode : code pc = .read reg next) :
    Halts code ⟨cell, pc, log⟩ ↔ Halts code ⟨cell, next (cell reg), log⟩ :=
  halts_iff_of_step (step_read hcode)

theorem halts_write {cell : α → β} {pc next : π} {log : List (Write α β)} {reg : α} {value : β}
    (hcode : code pc = .write reg value next) :
    Halts code ⟨cell, pc, log⟩ ↔
      Halts code ⟨Function.update cell reg value, next, ⟨.host, reg, value⟩ :: log⟩ :=
  halts_iff_of_step (step_write hcode)

/-- A host that stays within states where it has not halted never halts. -/
theorem not_halts_of_closed (inv : State α β π → Prop) (hrunning : ∀ s, inv s → code s.pc ≠ .halt)
    (hclosed : ∀ s t, inv s → step code s .host = some t → inv t) (hs : inv s) :
    ¬ Halts code s := by
  rintro ⟨n, t, hrun, hhalt⟩
  have ht : inv t := by
    clear hhalt
    induction n generalizing s with
    | zero =>
        cases hrun
        exact hs
    | succ n ih =>
        obtain ⟨u, hstep, hrest⟩ := (run_cons_eq_some_iff (step code)).mp hrun
        exact ih (hclosed s u hs hstep) hrest
  exact hrunning t ht hhalt

/-! ## A device that disturbs the host -/

/-- How many accesses of the host an event is. -/
def Event.accesses : Event α β → Nat
  | .host => 1
  | .device _ _ => 0

/-- The sum of a count over the events of a run. -/
def total (count : Event α β → Nat) : List (Event α β) → Nat
  | [] => 0
  | e :: events => count e + total count events

/-- How many accesses of the host are in a run. -/
def accesses (events : List (Event α β)) : Nat := total Event.accesses events

/-- If each access of the host lowers a rank, and the device can raise it only at a cost, the
host takes no more accesses than the rank and the costs pay for. -/
theorem accesses_add_rank_le (rank : State α β π → Nat) (cost : Event α β → Nat) (price : Nat)
    (hstep : ∀ s e t, step code s e = some t → e.accesses + rank t ≤ rank s + price * cost e)
    {events : List (Event α β)} (hrun : run (step code) s events = some t) :
    accesses events + rank t ≤ rank s + price * total cost events := by
  induction events generalizing s with
  | nil =>
      cases hrun
      simp [accesses, total]
  | cons e events ih =>
      obtain ⟨u, he, hrest⟩ := (run_cons_eq_some_iff (step code)).mp hrun
      have hfirst := hstep s e u he
      have hothers := ih hrest
      simp only [accesses, total, Nat.mul_add] at hothers ⊢
      omega

end Steps

end HostDevice
