import Mathlib.Logic.Function.Basic
import Mathlib.Tactic.Common

/-!
# Programs that access a chip

A program reads and writes registers of a chip it knows nothing about: a read is
answered with a reply and a write with an acknowledgement, and what the program does
next depends on them.  `run` is the program's trace for given replies and
acknowledgements, `exec` the trace it has against a chip with a state.

`DependsOn` compares runs: a write depends on a reply if another possible reply to
that read, with all else equal, would have made it another write.
-/

namespace AccessProgram

/-- A program over registers `α`. -/
inductive Program (α ρ δ κ ε : Type*)
  | done (result : ε)
  | read (reg : α) (next : ρ → Program α ρ δ κ ε)
  | write (reg : α) (data : δ) (next : κ → Program α ρ δ κ ε)

variable {α ρ δ κ ε σ : Type*}

/-- The reply to each read and the acknowledgement of each write, in order. -/
structure Outcomes (ρ κ : Type*) where
  replies : Nat → ρ
  acks : Nat → κ

/-- One reply is another one. -/
def Outcomes.setReply (o : Outcomes ρ κ) (m : Nat) (reply : ρ) : Outcomes ρ κ :=
  { o with replies := Function.update o.replies m reply }

/-- One acknowledgement is another one. -/
def Outcomes.setAck (o : Outcomes ρ κ) (n : Nat) (ack : κ) : Outcomes ρ κ :=
  { o with acks := Function.update o.acks n ack }

/-- What a program did: how many reads, which writes, and what it returned. -/
structure Trace (α δ ε : Type*) where
  reads : Nat
  writes : List (α × δ)
  result : ε

/-- A trace after one more read. -/
def Trace.afterRead (t : Trace α δ ε) : Trace α δ ε := { t with reads := t.reads + 1 }

/-- A trace after one more write. -/
def Trace.afterWrite (reg : α) (data : δ) (t : Trace α δ ε) : Trace α δ ε :=
  { t with writes := (reg, data) :: t.writes }

namespace Program

/-- The trace of a program that is at its `m`-th read and its `n`-th write. -/
def runFrom (o : Outcomes ρ κ) : Nat → Nat → Program α ρ δ κ ε → Trace α δ ε
  | _, _, done result => ⟨0, [], result⟩
  | m, n, read _ next => (runFrom o (m + 1) n (next (o.replies m))).afterRead
  | m, n, write reg data next =>
      (runFrom o m (n + 1) (next (o.acks n))).afterWrite reg data

/-- The trace of a program. -/
def run (o : Outcomes ρ κ) (p : Program α ρ δ κ ε) : Trace α δ ε := runFrom o 0 0 p

/-- The trace of a program against a chip, and the chip afterwards. -/
def exec (reply : α → σ → ρ × σ) (ack : α → δ → σ → κ × σ) :
    Program α ρ δ κ ε → σ → Trace α δ ε × σ
  | done result, s => (⟨0, [], result⟩, s)
  | read reg next, s =>
      let (r, s) := reply reg s
      let (t, s) := exec reply ack (next r) s
      (t.afterRead, s)
  | write reg data next, s =>
      let (k, s) := ack reg data s
      let (t, s) := exec reply ack (next k) s
      (t.afterWrite reg data, s)

@[simp] theorem runFrom_done (o : Outcomes ρ κ) (m n : Nat) (result : ε) :
    runFrom o m n (done result : Program α ρ δ κ ε) = ⟨0, [], result⟩ := rfl

@[simp] theorem runFrom_read (o : Outcomes ρ κ) (m n : Nat) (reg : α)
    (next : ρ → Program α ρ δ κ ε) :
    runFrom o m n (read reg next) =
      (runFrom o (m + 1) n (next (o.replies m))).afterRead := rfl

@[simp] theorem runFrom_write (o : Outcomes ρ κ) (m n : Nat) (reg : α) (data : δ)
    (next : κ → Program α ρ δ κ ε) :
    runFrom o m n (write reg data next) =
      (runFrom o m (n + 1) (next (o.acks n))).afterWrite reg data := rfl

/-- The replies and acknowledgements of the past do not matter. -/
theorem runFrom_congr {o o' : Outcomes ρ κ} (p : Program α ρ δ κ ε) {m n : Nat}
    (hreplies : ∀ i, m ≤ i → o.replies i = o'.replies i)
    (hacks : ∀ i, n ≤ i → o.acks i = o'.acks i) : runFrom o m n p = runFrom o' m n p := by
  induction p generalizing m n with
  | done result => rfl
  | read reg next ih =>
      rw [runFrom_read, runFrom_read, hreplies m (Nat.le_refl m),
        ih (o'.replies m) (fun i hi => hreplies i (by omega)) hacks]
  | write reg data next ih =>
      rw [runFrom_write, runFrom_write, hacks n (Nat.le_refl n),
        ih (o'.acks n) hreplies (fun i hi => hacks i (by omega))]

/-- What a program does against a chip is one of its runs. -/
theorem exec_eq_runFrom [Nonempty ρ] [Nonempty κ] (reply : α → σ → ρ × σ)
    (ack : α → δ → σ → κ × σ) (p : Program α ρ δ κ ε) (s : σ) (m n : Nat) :
    ∃ o, (exec reply ack p s).1 = runFrom o m n p := by
  induction p generalizing s m n with
  | done result =>
      obtain ⟨⟨r⟩, ⟨k⟩⟩ := ‹Nonempty ρ›, ‹Nonempty κ›
      exact ⟨⟨fun _ => r, fun _ => k⟩, rfl⟩
  | read reg next ih =>
      obtain ⟨o, ho⟩ := ih (reply reg s).1 (reply reg s).2 (m + 1) n
      refine ⟨o.setReply m (reply reg s).1, ?_⟩
      have hrest : runFrom (o.setReply m (reply reg s).1) (m + 1) n (next (reply reg s).1) =
          runFrom o (m + 1) n (next (reply reg s).1) :=
        runFrom_congr _ (fun i hi => Function.update_of_ne (by omega) _ _) (fun _ _ => rfl)
      have hreply : (o.setReply m (reply reg s).1).replies m = (reply reg s).1 :=
        Function.update_self _ _ _
      rw [runFrom_read, hreply, hrest, ← ho]
      rfl
  | write reg data next ih =>
      obtain ⟨o, ho⟩ := ih (ack reg data s).1 (ack reg data s).2 m (n + 1)
      refine ⟨o.setAck n (ack reg data s).1, ?_⟩
      have hrest : runFrom (o.setAck n (ack reg data s).1) m (n + 1) (next (ack reg data s).1) =
          runFrom o m (n + 1) (next (ack reg data s).1) :=
        runFrom_congr _ (fun _ _ => rfl) (fun i hi => Function.update_of_ne (by omega) _ _)
      have hack : (o.setAck n (ack reg data s).1).acks n = (ack reg data s).1 :=
        Function.update_self _ _ _
      rw [runFrom_write, hack, hrest, ← ho]
      rfl

/-- A chip that another one simulates leads to the same trace. -/
theorem exec_simulates {τ : Type*} {reply : α → σ → ρ × σ} {ack : α → δ → σ → κ × σ}
    {reply' : α → τ → ρ × τ} {ack' : α → δ → τ → κ × τ} (view : σ → τ)
    (hreply : ∀ reg s, reply' reg (view s) = ((reply reg s).1, view (reply reg s).2))
    (hack : ∀ reg data s, ack' reg data (view s) = ((ack reg data s).1, view (ack reg data s).2))
    (p : Program α ρ δ κ ε) (s : σ) :
    exec reply' ack' p (view s) = ((exec reply ack p s).1, view (exec reply ack p s).2) := by
  induction p generalizing s with
  | done result => rfl
  | read reg next ih =>
      rw [exec, hreply]
      dsimp only
      rw [ih]
      rfl
  | write reg data next ih =>
      rw [exec, hack]
      dsimp only
      rw [ih]
      rfl

/-- The `n`-th write of the run depends on the reply to the `m`-th read. -/
def DependsOn (possible : ρ → Prop) (p : Program α ρ δ κ ε) (o : Outcomes ρ κ) (m n : Nat) :
    Prop :=
  ∃ w, (p.run o).writes[n]? = some w ∧
    ∃ r, possible r ∧ (p.run (o.setReply m r)).writes[n]? ≠ some w

end Program

end AccessProgram
