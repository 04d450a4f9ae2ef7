import Tl880.Lib.LabelledRun
import Tl880.AlsaPcm

/-!
# The polling timer

The race between the trigger callback and the timer function.  The kernel takes a
pending timer off its list before it calls the timer function, so any number of calls
can be in flight while the timer is armed again.  A call waits for the stream's lock,
arms the timer, reads the position and releases the lock.  A trigger command waits for
the same lock, starts or stops the timer and releases the lock; the PCM core makes one
trigger call at a time.

What the timer function and the trigger do to the stream's registers and positions
does not touch the timer; it is the subject of `Tl880.AlsaPcm`.
-/

namespace Tl880

open LabelledRun

/-! ## States -/

/-- Where a call of the timer function stands. -/
inductive CallbackStage
  | idle
  | waiting
  | locked
  | armed
  | unlocked
  | finished
  deriving DecidableEq

namespace CallbackStage

/-- The call holds the lock. -/
def HoldsLock (stage : CallbackStage) : Prop := stage = .locked ∨ stage = .armed

/-- The call has been dequeued and has yet to arm the timer. -/
def Unarmed (stage : CallbackStage) : Prop := stage = .waiting ∨ stage = .locked

/-- The call has been dequeued and has not finished. -/
def InFlight (stage : CallbackStage) : Prop := stage ≠ .idle ∧ stage ≠ .finished

instance (stage : CallbackStage) : Decidable stage.InFlight :=
  inferInstanceAs (Decidable (_ ∧ _))

end CallbackStage

/-- Where the trigger callback stands. -/
inductive TriggerStage
  | idle
  | called (cmd : TriggerCmd)
  | locked (cmd : TriggerCmd)
  | switched (cmd : TriggerCmd)
  | unlocked (cmd : TriggerCmd)
  deriving DecidableEq

/-- The command that the trigger callback carries out. -/
def TriggerStage.cmd : TriggerStage → Option TriggerCmd
  | .idle => none
  | .called cmd | .locked cmd | .switched cmd | .unlocked cmd => some cmd

/-- Who holds the stream's lock. -/
inductive LockHolder
  | trigger
  | callback (n : Nat)
  deriving DecidableEq

/-- The timer, the lock, and everyone who uses them. -/
structure TimerSystem where
  pending : Bool
  lock : Option LockHolder
  trigger : TriggerStage
  callback : Nat → CallbackStage
  /-- The number of calls so far; calls are numbered from zero. -/
  expired : Nat
  /-- Since a STOP or SUSPEND has returned, and until the next START or RESUME: the
  calls that were in flight then. -/
  stopped : Option (List Nat)
  /-- `add_timer` has been called on a pending timer. -/
  addedPending : Bool

namespace TimerSystem

/-- Call `n` moves on. -/
def moveTo (s : TimerSystem) (n : Nat) (stage : CallbackStage) : TimerSystem :=
  { s with callback := Function.update s.callback n stage }

/-- The calls in flight. -/
def inFlight (s : TimerSystem) : List Nat :=
  (List.range s.expired).filter fun n => (s.callback n).InFlight

end TimerSystem

/-! ## Steps -/

/-- `snd_card_tl880_pcm_timer_start` -/
def sndCardTl880PcmTimerStart (s : TimerSystem) : TimerSystem :=
  { s with pending := true, addedPending := s.addedPending || s.pending }

/-- `snd_card_tl880_pcm_timer_stop` -/
def sndCardTl880PcmTimerStop (s : TimerSystem) : TimerSystem :=
  { s with pending := false }

/-- What a command does to the timer. -/
def switchTimer (cmd : TriggerCmd) (s : TimerSystem) : TimerSystem :=
  match triggerTimer cmd with
  | some .addTimer => sndCardTl880PcmTimerStart s
  | some .delTimer => sndCardTl880PcmTimerStop s
  | none => s

@[simp] theorem switchTimer_lock (cmd : TriggerCmd) (s : TimerSystem) :
    (switchTimer cmd s).lock = s.lock := by
  cases cmd <;> rfl

@[simp] theorem switchTimer_trigger (cmd : TriggerCmd) (s : TimerSystem) :
    (switchTimer cmd s).trigger = s.trigger := by
  cases cmd <;> rfl

@[simp] theorem switchTimer_callback (cmd : TriggerCmd) (s : TimerSystem) :
    (switchTimer cmd s).callback = s.callback := by
  cases cmd <;> rfl

@[simp] theorem switchTimer_expired (cmd : TriggerCmd) (s : TimerSystem) :
    (switchTimer cmd s).expired = s.expired := by
  cases cmd <;> rfl

/-- The steps: of the kernel's timer list, of call `n` of the timer function, and of
the trigger callback. -/
inductive TimerEvent
  | expire
  | lock (n : Nat)
  | arm (n : Nat)
  | unlock (n : Nat)
  | finish (n : Nat)
  | call (cmd : TriggerCmd)
  | triggerLock (cmd : TriggerCmd)
  | switch (cmd : TriggerCmd)
  | triggerUnlock (cmd : TriggerCmd)
  | triggerReturn (cmd : TriggerCmd)

/-- One step of the system. -/
def timerStep (s : TimerSystem) : TimerEvent → Option TimerSystem
  | .expire =>
      -- the timer is dequeued before its function is called
      if s.pending = true then
        some { s.moveTo s.expired .waiting with pending := false, expired := s.expired + 1 }
      else none
  | .lock n =>
      if s.callback n = .waiting ∧ s.lock = none then
        some { s.moveTo n .locked with lock := some (.callback n) }
      else none
  | .arm n =>
      -- the function does not look whether the stream has been stopped
      if s.callback n = .locked then some (sndCardTl880PcmTimerStart (s.moveTo n .armed))
      else none
  | .unlock n =>
      if s.callback n = .armed then some { s.moveTo n .unlocked with lock := none }
      else none
  | .finish n =>
      if s.callback n = .unlocked then some (s.moveTo n .finished) else none
  | .call cmd =>
      if s.trigger = .idle then
        some { s with
          trigger := .called cmd
          stopped := if triggerTimer cmd = some .addTimer then none else s.stopped }
      else none
  | .triggerLock cmd =>
      if s.trigger = .called cmd ∧ s.lock = none then
        some { s with trigger := .locked cmd, lock := some .trigger }
      else none
  | .switch cmd =>
      if s.trigger = .locked cmd then
        some (switchTimer cmd { s with trigger := .switched cmd })
      else none
  | .triggerUnlock cmd =>
      if s.trigger = .switched cmd then
        some { s with trigger := .unlocked cmd, lock := none }
      else none
  | .triggerReturn cmd =>
      if s.trigger = .unlocked cmd then
        -- an earlier STOP promises as much, with fewer calls to wait for
        some { s with
          trigger := .idle
          stopped := if triggerTimer cmd = some .delTimer then
            s.stopped <|> some s.inFlight else s.stopped }
      else none

/-- A step is taken when its condition is met. -/
theorem eq_of_ite_eq_some {p : Prop} [Decidable p] {s t : TimerSystem}
    (h : (if p then some s else none) = some t) : p ∧ s = t := by
  split_ifs at h with hp
  exact ⟨hp, Option.some.inj h⟩

/-- A new stream. -/
def TimerSystem.opened : TimerSystem :=
  ⟨false, none, .idle, fun _ => .idle, 0, none, false⟩

namespace TimerSystem

@[simp] theorem moveTo_self (s : TimerSystem) (n : Nat) (stage : CallbackStage) :
    (s.moveTo n stage).callback n = stage := by
  simp [moveTo]

theorem moveTo_of_ne (s : TimerSystem) {n m : Nat} (hne : m ≠ n) (stage : CallbackStage) :
    (s.moveTo n stage).callback m = s.callback m := by
  simp [moveTo, hne]

/-- A property that a call's new stage has only if its old one had it. -/
theorem of_moveTo_stage {p : CallbackStage → Prop} {s : TimerSystem} {n : Nat}
    {stage : CallbackStage} (hstage : p stage → p (s.callback n)) {m : Nat}
    (h : p ((s.moveTo n stage).callback m)) : p (s.callback m) := by
  by_cases hm : m = n
  · subst hm
    rw [moveTo_self] at h
    exact hstage h
  · rwa [moveTo_of_ne s hm] at h

theorem mem_inFlight {s : TimerSystem} {n : Nat} :
    n ∈ s.inFlight ↔ n < s.expired ∧ (s.callback n).InFlight := by
  simp [inFlight]

end TimerSystem

/-! ## Mutual exclusion -/

/-- Whoever is between taking and releasing the lock holds it. -/
structure TimerSystem.Locking (s : TimerSystem) : Prop where
  fresh : ∀ n, s.expired ≤ n → s.callback n = .idle
  callback : ∀ n, (s.callback n).HoldsLock → s.lock = some (.callback n)
  trigger : ∀ cmd, s.trigger = .locked cmd ∨ s.trigger = .switched cmd →
    s.lock = some .trigger

namespace TimerSystem.Locking

variable {s s' : TimerSystem}

theorem opened : TimerSystem.opened.Locking where
  fresh := fun _ _ => rfl
  callback := fun n h => by rcases h with h | h <;> cases h
  trigger := fun cmd h => by rcases h with h | h <;> cases h

/-- A call that has been dequeued is one of those counted. -/
theorem lt_expired (h : s.Locking) {n : Nat} (hn : s.callback n ≠ .idle) :
    n < s.expired := by
  by_contra hge
  exact hn (h.fresh n (Nat.le_of_not_lt hge))

/-- No call holds the lock while the trigger does. -/
theorem not_holdsLock (h : s.Locking) {cmd : TriggerCmd} (hcmd : s.trigger = .locked cmd)
    (n : Nat) : ¬ (s.callback n).HoldsLock := by
  intro hn
  have hsame := (h.callback n hn).symm.trans (h.trigger cmd (Or.inl hcmd))
  cases hsame

/-- Taking the free lock or releasing one's own leaves the lock with another holder. -/
theorem lock_of_other {old lock : Option LockHolder} {self other : LockHolder}
    (hlock : lock = old ∨ old = none ∨ old = some self) (hold : old = some other)
    (hne : other ≠ self) : lock = some other := by
  rcases hlock with hsame | hfree | hown
  · exact hsame.trans hold
  · rw [hfree] at hold
    cases hold
  · rw [hown] at hold
    exact absurd (Option.some.inj hold).symm hne

/-- A call moves on, and may take the free lock or release its own. -/
theorem of_moveTo (h : s.Locking) {n : Nat} (hn : s.callback n ≠ .idle)
    {stage : CallbackStage} {lock : Option LockHolder}
    (hstage : stage.HoldsLock → lock = some (.callback n))
    (hlock : lock = s.lock ∨ s.lock = none ∨ s.lock = some (.callback n)) :
    { s.moveTo n stage with lock := lock }.Locking where
  fresh := by
    intro m hm
    have hlt := h.lt_expired hn
    have hne : m ≠ n := by
      rintro rfl
      exact absurd hlt (Nat.not_lt.mpr hm)
    exact (s.moveTo_of_ne hne stage).trans (h.fresh m hm)
  callback := by
    intro m hm
    -- Another call that holds the lock leaves it neither free nor to call `n`.
    by_cases hne : m = n
    · subst hne
      exact hstage (by simpa using hm)
    · have hold := h.callback m (by simpa [s.moveTo_of_ne hne] using hm)
      exact lock_of_other hlock hold (by simpa using hne)
  trigger := by
    intro cmd hcmd
    exact lock_of_other hlock (h.trigger cmd hcmd) (by simp)

/-- The trigger moves on, and may take the free lock or release its own. -/
theorem of_trigger (h : s.Locking) {trigger : TriggerStage} {lock : Option LockHolder}
    (hstage : ∀ cmd, trigger = .locked cmd ∨ trigger = .switched cmd →
      lock = some .trigger)
    (hlock : lock = s.lock ∨ s.lock = none ∨ s.lock = some .trigger) :
    { s with trigger := trigger, lock := lock }.Locking where
  fresh := h.fresh
  callback := by
    intro m hm
    exact lock_of_other hlock (h.callback m hm) (by simp)
  trigger := hstage

/-- Mutual exclusion does not depend on the timer. -/
theorem of_eq (h : s.Locking) (hexpired : s'.expired = s.expired)
    (hcallback : s'.callback = s.callback) (hlock : s'.lock = s.lock)
    (htrigger : s'.trigger = s.trigger) : s'.Locking := by
  refine ⟨?_, ?_, ?_⟩
  · rw [hexpired, hcallback]
    exact h.fresh
  · rw [hcallback, hlock]
    exact h.callback
  · rw [htrigger, hlock]
    exact h.trigger

/-- A new call waits for the lock. -/
theorem of_expire (h : s.Locking) :
    { s.moveTo s.expired .waiting with pending := false, expired := s.expired + 1 }.Locking
    where
  fresh := by
    intro m hm
    have hm : s.expired + 1 ≤ m := hm
    have hne : m ≠ s.expired := by omega
    exact (s.moveTo_of_ne hne .waiting).trans (h.fresh m (by omega))
  callback := by
    intro m hm
    have hwaiting : ¬ CallbackStage.waiting.HoldsLock := by simp [CallbackStage.HoldsLock]
    exact h.callback m (of_moveTo_stage (fun h => absurd h hwaiting) hm)
  trigger := h.trigger

/-- Every step keeps mutual exclusion. -/
theorem step (h : s.Locking) {event : TimerEvent} (hstep : timerStep s event = some s') :
    s'.Locking := by
  cases event with
  | expire =>
      obtain ⟨hpending, rfl⟩ := eq_of_ite_eq_some hstep
      exact h.of_expire
  | lock n =>
      obtain ⟨hready, rfl⟩ := eq_of_ite_eq_some hstep
      obtain ⟨hwaiting, hfree⟩ := hready
      exact h.of_moveTo (by simp [hwaiting]) (fun _ => rfl) (Or.inr (Or.inl hfree))
  | arm n =>
      obtain ⟨hlocked, rfl⟩ := eq_of_ite_eq_some hstep
      have hown := h.callback n (Or.inl hlocked)
      exact (h.of_moveTo (by simp [hlocked]) (fun _ => hown) (Or.inl rfl)).of_eq rfl rfl rfl rfl
  | unlock n =>
      obtain ⟨harmed, rfl⟩ := eq_of_ite_eq_some hstep
      have hown := h.callback n (Or.inr harmed)
      exact h.of_moveTo (by simp [harmed]) (by simp [CallbackStage.HoldsLock])
        (Or.inr (Or.inr hown))
  | finish n =>
      obtain ⟨hunlocked, rfl⟩ := eq_of_ite_eq_some hstep
      exact h.of_moveTo (by simp [hunlocked]) (by simp [CallbackStage.HoldsLock]) (Or.inl rfl)
  | call cmd =>
      obtain ⟨hidle, rfl⟩ := eq_of_ite_eq_some hstep
      exact (h.of_trigger (by simp) (Or.inl rfl)).of_eq rfl rfl rfl rfl
  | triggerLock cmd =>
      obtain ⟨hready, rfl⟩ := eq_of_ite_eq_some hstep
      exact h.of_trigger (fun _ _ => rfl) (Or.inr (Or.inl hready.2))
  | switch cmd =>
      obtain ⟨hlocked, rfl⟩ := eq_of_ite_eq_some hstep
      have hown := h.trigger cmd (Or.inl hlocked)
      have hmoved : { s with trigger := .switched cmd, lock := s.lock }.Locking :=
        h.of_trigger (fun _ _ => hown) (Or.inl rfl)
      exact hmoved.of_eq (by simp) (by simp) (by simp) (by simp)
  | triggerUnlock cmd =>
      obtain ⟨hswitched, rfl⟩ := eq_of_ite_eq_some hstep
      have hown := h.trigger cmd (Or.inr hswitched)
      exact h.of_trigger (by simp) (Or.inr (Or.inr hown))
  | triggerReturn cmd =>
      obtain ⟨hunlocked, rfl⟩ := eq_of_ite_eq_some hstep
      exact (h.of_trigger (by simp) (Or.inl rfl)).of_eq rfl rfl rfl rfl

end TimerSystem.Locking

end Tl880
