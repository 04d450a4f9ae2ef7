import Tl880.AlsaTimer

/-!
# A stopped stream stops ticking

`del_timer` does not wait for a call of the timer function in flight.  When STOP meets
a call that has been dequeued but has not got the lock yet, that call arms the timer
again afterwards; and when a START follows, the timer is added twice.
`stoppedTimer_quiet` is the condition under which neither happens.
-/

namespace Tl880

open LabelledRun

/-- No pending timer has been added again; and once the stream has been stopped and the
calls in flight have finished, the timer is not pending and no call is in flight. -/
def TimerSystem.Quiet (s : TimerSystem) : Prop :=
  s.addedPending = false ∧
    ∀ calls ∈ s.stopped, (∀ n ∈ calls, s.callback n = .finished) →
      s.pending = false ∧ ∀ n < s.expired, ¬ (s.callback n).InFlight

/-- What a step needs: a command that starts or stops the timer finds no call waiting
for the lock, and one that starts it finds it not pending. -/
def TimerSystem.SwitchesAlone (s : TimerSystem) : TimerEvent → Prop
  | .switch cmd =>
      (triggerTimer cmd = some .addTimer → s.pending = false) ∧
        (triggerTimer cmd ≠ none → ∀ n < s.expired, s.callback n ≠ .waiting)
  | _ => True

/-! ## One tick at a time -/

/-- The timer is not pending, and no call will arm it again. -/
def TimerSystem.Still (s : TimerSystem) : Prop :=
  s.pending = false ∧ ∀ n, ¬ (s.callback n).Unarmed

/-- STOP or SUSPEND has stopped the timer. -/
def TimerSystem.Stopping (s : TimerSystem) : Prop :=
  s.stopped ≠ none ∨ ∃ cmd, triggerTimer cmd = some .delTimer ∧
    (s.trigger = .switched cmd ∨ s.trigger = .unlocked cmd)

/-- The timer is pending, or one call is about to arm it, or neither; and neither when
the stream has been stopped. -/
structure TimerSystem.Orderly (s : TimerSystem) : Prop where
  addedPending : s.addedPending = false
  pending : s.pending = true → ∀ n, ¬ (s.callback n).Unarmed
  unique : ∀ m n, (s.callback m).Unarmed → (s.callback n).Unarmed → m = n
  still : s.Stopping → s.Still
  calls : ∀ calls ∈ s.stopped, ∀ n, (s.callback n).InFlight → n ∈ calls
  starting : ∀ cmd, s.trigger.cmd = some cmd → triggerTimer cmd = some .addTimer →
    s.stopped = none

namespace TimerSystem.Orderly

variable {s s' : TimerSystem}

theorem opened : TimerSystem.opened.Orderly where
  addedPending := rfl
  pending := fun hpending => by cases hpending
  unique := fun m n hm => by rcases hm with hm | hm <;> cases hm
  still := fun _ => ⟨rfl, fun n hn => by rcases hn with hn | hn <;> cases hn⟩
  calls := fun calls hcalls => by cases hcalls
  starting := fun _ _ _ => rfl

/-- While a call has yet to arm the timer, the timer is not pending and the stream has
not been stopped. -/
theorem of_unarmed (h : s.Orderly) {n : Nat} (hn : (s.callback n).Unarmed) :
    s.pending = false ∧ ¬ s.Stopping := by
  constructor
  · by_contra hpending
    exact h.pending (by simpa using hpending) n hn
  · intro hstopping
    exact (h.still hstopping).2 n hn

/-- While the timer is pending the stream has not been stopped. -/
theorem not_stopping (h : s.Orderly) (hpending : s.pending = true) : ¬ s.Stopping := by
  intro hstopping
  rw [(h.still hstopping).1] at hpending
  cases hpending

/-- A stream that has not been stopped waits for no calls. -/
theorem stopped_eq_none (h : ¬ s.Stopping) : s.stopped = none := by
  by_contra hstopped
  exact h (Or.inl hstopped)

/-- A call moves on without arming the timer. -/
theorem of_moveTo (h : s.Orderly) {n : Nat} {stage : CallbackStage}
    (lock : Option LockHolder) (hunarmed : stage.Unarmed → (s.callback n).Unarmed)
    (hflight : stage.InFlight → (s.callback n).InFlight) :
    { s.moveTo n stage with lock := lock }.Orderly where
  addedPending := h.addedPending
  pending := fun hpending m hm => h.pending hpending m (of_moveTo_stage hunarmed hm)
  unique := fun m k hm hk =>
    h.unique m k (of_moveTo_stage hunarmed hm) (of_moveTo_stage hunarmed hk)
  still := fun hstopping => ⟨(h.still hstopping).1, fun m hm =>
    (h.still hstopping).2 m (of_moveTo_stage hunarmed hm)⟩
  calls := fun calls hcalls m hm => h.calls calls hcalls m (of_moveTo_stage hflight hm)
  starting := h.starting

/-- An expired timer is no longer pending, and its call is the one to arm it. -/
theorem of_expire (h : s.Orderly) (hpending : s.pending = true) :
    { s.moveTo s.expired .waiting with pending := false, expired := s.expired + 1 }.Orderly
    where
  addedPending := h.addedPending
  pending := fun hfalse => by cases hfalse
  unique := by
    have honly : ∀ m, ((s.moveTo s.expired .waiting).callback m).Unarmed →
        m = s.expired := by
      intro m hm
      by_contra hne
      rw [s.moveTo_of_ne hne] at hm
      exact h.pending hpending m hm
    intro m k hm hk
    exact (honly m hm).trans (honly k hk).symm
  still := fun hstopping => absurd hstopping (h.not_stopping hpending)
  calls := by
    intro calls hcalls
    have hnone := stopped_eq_none (h.not_stopping hpending)
    have hcalls : calls ∈ s.stopped := hcalls
    rw [hnone] at hcalls
    cases hcalls
  starting := h.starting

/-- The call that has yet to arm the timer arms it. -/
theorem of_arm (h : s.Orderly) {n : Nat} (hn : s.callback n = .locked) :
    (sndCardTl880PcmTimerStart (s.moveTo n .armed)).Orderly := by
  have hunarmed : (s.callback n).Unarmed := Or.inr hn
  obtain ⟨hpending, hstopping⟩ := h.of_unarmed hunarmed
  have hnone := stopped_eq_none hstopping
  have harmed : ∀ m, ¬ ((s.moveTo n .armed).callback m).Unarmed := by
    intro m hm
    by_cases hne : m = n
    · subst hne
      simp [CallbackStage.Unarmed] at hm
    · rw [s.moveTo_of_ne hne] at hm
      exact hne (h.unique m n hm hunarmed)
  refine ⟨?_, fun _ => harmed, fun m k hm => absurd hm (harmed m),
    fun hstill => absurd hstill hstopping, ?_, h.starting⟩
  · show (s.addedPending || s.pending) = false
    rw [h.addedPending, hpending]
    rfl
  · intro calls hcalls
    have hcalls : calls ∈ s.stopped := hcalls
    rw [hnone] at hcalls
    cases hcalls

/-- The trigger moves on without touching the timer. -/
theorem of_trigger (h : s.Orderly) {trigger : TriggerStage} {stopped : Option (List Nat)}
    (lock : Option LockHolder)
    (hstopping : { s with trigger := trigger, lock := lock, stopped := stopped }.Stopping →
      s.Stopping)
    (hcalls : ∀ calls ∈ stopped, ∀ n, (s.callback n).InFlight → n ∈ calls)
    (hstarting : ∀ cmd, trigger.cmd = some cmd → triggerTimer cmd = some .addTimer →
      stopped = none) :
    { s with trigger := trigger, lock := lock, stopped := stopped }.Orderly where
  addedPending := h.addedPending
  pending := h.pending
  unique := h.unique
  still := fun hs => h.still (hstopping hs)
  calls := hcalls
  starting := hstarting

/-- A command is called. -/
theorem of_call (h : s.Orderly) (cmd : TriggerCmd) :
    { s with
      trigger := .called cmd
      stopped := if triggerTimer cmd = some TimerOp.addTimer then none
        else s.stopped }.Orderly := by
  apply h.of_trigger s.lock
  · intro hstopping
    rcases hstopping with hstopped | ⟨cmd', -, hstage | hstage⟩
    · left
      intro hnone
      apply hstopped
      show (if _ then none else s.stopped) = none
      rw [hnone, ite_self]
    · cases hstage
    · cases hstage
  · intro calls hcalls
    split_ifs at hcalls
    · cases hcalls
    · exact h.calls calls hcalls
  · intro cmd' hcmd hadd
    cases hcmd
    rw [if_pos hadd]

/-- The trigger gets the lock. -/
theorem of_triggerLock (h : s.Orderly) {cmd : TriggerCmd} (hcmd : s.trigger = .called cmd) :
    { s with trigger := .locked cmd, lock := some .trigger }.Orderly := by
  refine h.of_trigger _ ?_ h.calls ?_
  · intro hstopping
    rcases hstopping with hstopped | ⟨cmd', -, hstage | hstage⟩
    · exact Or.inl hstopped
    · cases hstage
    · cases hstage
  · intro cmd' hcmd' hadd
    exact h.starting cmd' (by rw [hcmd]; exact hcmd') hadd

/-- The trigger releases the lock. -/
theorem of_triggerUnlock (h : s.Orderly) {cmd : TriggerCmd}
    (hcmd : s.trigger = .switched cmd) :
    { s with trigger := .unlocked cmd, lock := none }.Orderly := by
  refine h.of_trigger _ ?_ h.calls ?_
  · intro hstopping
    rcases hstopping with hstopped | ⟨cmd', hdel, hstage | hstage⟩
    · exact Or.inl hstopped
    · cases hstage
    · cases hstage
      exact Or.inr ⟨cmd, hdel, Or.inl hcmd⟩
  · intro cmd' hcmd' hadd
    exact h.starting cmd' (by rw [hcmd]; exact hcmd') hadd

/-- The trigger returns. -/
theorem of_triggerReturn (h : s.Orderly) (hlocking : s.Locking) {cmd : TriggerCmd}
    (hcmd : s.trigger = .unlocked cmd) :
    { s with
      trigger := .idle
      stopped := if triggerTimer cmd = some TimerOp.delTimer then
        s.stopped <|> some s.inFlight else s.stopped }.Orderly := by
  apply h.of_trigger s.lock
  · intro hstopping
    rcases hstopping with hstopped | ⟨cmd', -, hstage | hstage⟩
    · by_cases hdel : triggerTimer cmd = some .delTimer
      · exact Or.inr ⟨cmd, hdel, Or.inr hcmd⟩
      · left
        simpa [hdel] using hstopped
    · cases hstage
    · cases hstage
  · intro calls hcalls n hn
    have hcounted : n ∈ s.inFlight :=
      mem_inFlight.mpr ⟨hlocking.lt_expired hn.1, hn⟩
    split_ifs at hcalls with hdel
    · cases hstopped : s.stopped with
      | none =>
          rw [hstopped] at hcalls
          cases hcalls
          exact hcounted
      | some earlier =>
          rw [hstopped] at hcalls
          cases hcalls
          exact h.calls calls hstopped n hn
    · exact h.calls calls hcalls n hn
  · intro cmd' hcmd'
    cases hcmd'

/-- A command that leaves the timer alone. -/
theorem of_switch_none (h : s.Orderly) {cmd : TriggerCmd} (hcmd : s.trigger = .locked cmd)
    (htimer : triggerTimer cmd = none) :
    { s with trigger := .switched cmd }.Orderly := by
  refine h.of_trigger s.lock ?_ h.calls ?_
  · intro hstopping
    rcases hstopping with hstopped | ⟨cmd', hdel, hstage | hstage⟩
    · exact Or.inl hstopped
    · cases hstage
      rw [htimer] at hdel
      cases hdel
    · cases hstage
  · intro cmd' hcmd' hadd
    exact h.starting cmd' (by rw [hcmd]; exact hcmd') hadd

/-- START or RESUME adds a timer that is not pending and that no call will arm. -/
theorem of_switch_add (h : s.Orderly) {cmd : TriggerCmd} (hcmd : s.trigger = .locked cmd)
    (htimer : triggerTimer cmd = some .addTimer) (hstill : s.Still) :
    (sndCardTl880PcmTimerStart { s with trigger := .switched cmd }).Orderly := by
  obtain ⟨hpending, hunarmed⟩ := hstill
  have hnone : s.stopped = none := h.starting cmd (by rw [hcmd]; rfl) htimer
  refine ⟨?_, fun _ => hunarmed, h.unique, ?_, h.calls, fun _ _ _ => hnone⟩
  · show (s.addedPending || s.pending) = false
    rw [h.addedPending, hpending]
    rfl
  · intro hstopping
    rcases hstopping with hstopped | ⟨cmd', hdel, hstage | hstage⟩
    · exact absurd hnone hstopped
    · cases hstage
      rw [htimer] at hdel
      cases hdel
    · cases hstage

/-- STOP or SUSPEND removes a timer that no call will arm. -/
theorem of_switch_del (h : s.Orderly) {cmd : TriggerCmd}
    (htimer : triggerTimer cmd = some .delTimer) (hunarmed : ∀ n, ¬ (s.callback n).Unarmed) :
    (sndCardTl880PcmTimerStop { s with trigger := .switched cmd }).Orderly := by
  refine ⟨h.addedPending, fun hfalse => absurd hfalse Bool.false_ne_true, h.unique,
    fun _ => ⟨rfl, hunarmed⟩, h.calls, ?_⟩
  intro cmd' hcmd' hadd
  cases hcmd'
  rw [htimer] at hadd
  cases hadd

/-- The trigger starts or stops the timer, alone. -/
theorem of_switch (h : s.Orderly) (hlocking : s.Locking) {cmd : TriggerCmd}
    (hcmd : s.trigger = .locked cmd) (halone : s.SwitchesAlone (.switch cmd)) :
    (switchTimer cmd { s with trigger := .switched cmd }).Orderly := by
  obtain ⟨hpending, hwaiting⟩ := halone
  -- a call between taking the lock and arming the timer would hold the lock
  have hunarmed : triggerTimer cmd ≠ none → ∀ n, ¬ (s.callback n).Unarmed := by
    rintro htimer n (hn | hn)
    · exact hwaiting htimer n (hlocking.lt_expired (by simp [hn])) hn
    · exact hlocking.not_holdsLock hcmd n (Or.inl hn)
  cases htimer : triggerTimer cmd with
  | none =>
      rw [switchTimer, htimer]
      exact h.of_switch_none hcmd htimer
  | some op =>
      have hunarmed := hunarmed (by simp [htimer])
      rw [switchTimer, htimer]
      cases op with
      | addTimer => exact h.of_switch_add hcmd htimer ⟨hpending htimer, hunarmed⟩
      | delTimer => exact h.of_switch_del htimer hunarmed

/-- A step that switches the timer alone keeps the order. -/
theorem step (h : s.Orderly) (hlocking : s.Locking) {event : TimerEvent}
    (halone : s.SwitchesAlone event) (hstep : timerStep s event = some s') :
    s'.Orderly := by
  cases event with
  | expire =>
      obtain ⟨hpending, rfl⟩ := eq_of_ite_eq_some hstep
      exact h.of_expire hpending
  | lock n =>
      obtain ⟨hready, rfl⟩ := eq_of_ite_eq_some hstep
      exact h.of_moveTo _ (fun _ => Or.inl hready.1)
        (fun _ => by simp [hready.1, CallbackStage.InFlight])
  | arm n =>
      obtain ⟨hlocked, rfl⟩ := eq_of_ite_eq_some hstep
      exact h.of_arm hlocked
  | unlock n =>
      obtain ⟨harmed, rfl⟩ := eq_of_ite_eq_some hstep
      exact h.of_moveTo _ (by simp [CallbackStage.Unarmed])
        (fun _ => by simp [harmed, CallbackStage.InFlight])
  | finish n =>
      obtain ⟨hunlocked, rfl⟩ := eq_of_ite_eq_some hstep
      exact h.of_moveTo s.lock (by simp [CallbackStage.Unarmed])
        (by simp [CallbackStage.InFlight])
  | call cmd =>
      obtain ⟨hidle, rfl⟩ := eq_of_ite_eq_some hstep
      exact h.of_call cmd
  | triggerLock cmd =>
      obtain ⟨hready, rfl⟩ := eq_of_ite_eq_some hstep
      exact h.of_triggerLock hready.1
  | switch cmd =>
      obtain ⟨hlocked, rfl⟩ := eq_of_ite_eq_some hstep
      exact h.of_switch hlocking hlocked halone
  | triggerUnlock cmd =>
      obtain ⟨hswitched, rfl⟩ := eq_of_ite_eq_some hstep
      exact h.of_triggerUnlock hswitched
  | triggerReturn cmd =>
      obtain ⟨hunlocked, rfl⟩ := eq_of_ite_eq_some hstep
      exact h.of_triggerReturn hlocking hunlocked

/-- An orderly stream is quiet. -/
theorem quiet (h : s.Orderly) : s.Quiet := by
  constructor
  · exact h.addedPending
  intro calls hcalls hfinished
  have hstopping : s.Stopping := by
    left
    rw [hcalls]
    exact Option.some_ne_none calls
  constructor
  · exact (h.still hstopping).1
  intro n _ hn
  exact hn.2 (hfinished n (h.calls calls hcalls n hn))

/-- Both invariants are kept together. -/
theorem locking_step (t : TimerSystem) (event : TimerEvent) (t' : TimerSystem)
    (h : t.Locking ∧ t.Orderly) (halone : t.SwitchesAlone event)
    (hstep : timerStep t event = some t') : t'.Locking ∧ t'.Orderly :=
  ⟨h.1.step hstep, h.2.step h.1 halone hstep⟩

/-- A run that switches the timer alone goes through quiet states only. -/
theorem allStates_quiet (h : s.Orderly) (hlocking : s.Locking) {events : List TimerEvent}
    (halone : AllSteps timerStep TimerSystem.SwitchesAlone s events) :
    AllStates timerStep TimerSystem.Quiet s events := by
  have hinv := allStates_of_allSteps locking_step ⟨hlocking, h⟩ halone
  exact hinv.imp fun t ht => ht.2.quiet

end TimerSystem.Orderly

/-! ## The condition -/

/-- In a run that switches the timer alone, every state is quiet. -/
theorem stoppedTimer_quiet (events : List TimerEvent) :
    AllSteps timerStep TimerSystem.SwitchesAlone .opened events →
      AllStates timerStep TimerSystem.Quiet .opened events := by
  intro halone
  exact TimerSystem.Orderly.opened.allStates_quiet .opened halone

instance (s : TimerSystem) : ∀ event, Decidable (s.SwitchesAlone event)
  | .switch _ => inferInstanceAs (Decidable (_ ∧ _))
  | .expire | .lock _ | .arm _ | .unlock _ | .finish _ | .call _ | .triggerLock _
  | .triggerUnlock _ | .triggerReturn _ => isTrue trivial

instance (s : TimerSystem) : Decidable s.Quiet :=
  inferInstanceAs (Decidable (_ ∧ _))

/-- A stream that is started, ticks once, and is stopped after the tick. -/
theorem stoppedTimer_quiet_afterTick :
    AllStates timerStep TimerSystem.Quiet .opened
      [.call .start, .triggerLock .start, .switch .start, .triggerUnlock .start,
        .triggerReturn .start, .expire, .lock 0, .arm 0, .unlock 0,
        .call .stop, .triggerLock .stop, .switch .stop, .triggerUnlock .stop,
        .triggerReturn .stop, .finish 0] :=
  stoppedTimer_quiet _ (by decide)

/-- STOP gets the lock before a call that has been dequeued: that call arms the timer
after STOP has returned. -/
theorem stoppedTimer_rearmed :
    ¬ AllStates timerStep TimerSystem.Quiet .opened
      [.call .start, .triggerLock .start, .switch .start, .triggerUnlock .start,
        .triggerReturn .start, .expire,
        .call .stop, .triggerLock .stop, .switch .stop, .triggerUnlock .stop,
        .triggerReturn .stop, .lock 0, .arm 0, .unlock 0, .finish 0] := by
  decide

/-! ## The condition is exact -/

/-- A call that has been dequeued runs to its end and leaves the timer pending. -/
theorem run_callback {s : TimerSystem} {n : Nat} (hn : s.callback n = .waiting)
    (hlock : s.lock = none) :
    run timerStep s [.lock n, .arm n, .unlock n, .finish n] =
      some { s.moveTo n .finished with
        pending := true, addedPending := s.addedPending || s.pending } := by
  simp [run_cons, timerStep, hn, hlock, sndCardTl880PcmTimerStart, TimerSystem.moveTo]

/-- Calls that have released the lock run to their ends. -/
theorem run_finish {s : TimerSystem} {calls : List Nat} (hnodup : calls.Nodup)
    (hcalls : ∀ n ∈ calls, s.callback n = .unlocked) :
    run timerStep s (calls.map .finish) =
      some { s with callback := fun n => if n ∈ calls then .finished else s.callback n } := by
  induction calls generalizing s with
  | nil => simp
  | cons n calls ih =>
      obtain ⟨hnot, hnodup⟩ := List.nodup_cons.mp hnodup
      have hn : s.callback n = .unlocked := hcalls n List.mem_cons_self
      have hrest : ∀ m ∈ calls, (s.moveTo n .finished).callback m = .unlocked := by
        intro m hm
        have hne : m ≠ n := by
          rintro rfl
          exact hnot hm
        rw [s.moveTo_of_ne hne]
        exact hcalls m (List.mem_cons_of_mem n hm)
      have hstep : timerStep s (.finish n) = some (s.moveTo n .finished) := by
        simp [timerStep, hn]
      rw [List.map_cons, run_cons, hstep, Option.bind_some, ih hnodup hrest]
      congr 2
      funext m
      by_cases hm : m = n
      · subst hm
        simp [hnot]
      · simp [hm, s.moveTo_of_ne hm]

namespace TimerSystem

/-- Steps that all switch the timer alone can lead to a state that is not quiet. -/
def CanFail (s : TimerSystem) : Prop :=
  ∃ events, AllSteps timerStep SwitchesAlone s events ∧ ¬ AllStates timerStep Quiet s events

theorem CanFail.of_run {s t : TimerSystem} {events : List TimerEvent}
    (hrun : run timerStep s events = some t)
    (hevents : ∀ event ∈ events, ∀ u : TimerSystem, u.SwitchesAlone event)
    (hnot : ¬ t.Quiet) : s.CanFail :=
  ⟨events, .of_forall hevents s, fun hquiet => hnot (hquiet.last hrun)⟩

/-- STOP returns, and the calls that are past the lock finish. -/
def returned (s : TimerSystem) (calls : List Nat) : TimerSystem :=
  { s with
    pending := false
    lock := none
    trigger := .idle
    callback := fun n => if n ∈ calls then .finished else s.callback n
    stopped := some s.inFlight }

/-- While the trigger holds the lock, the calls in flight other than the one that has yet
to arm the timer have released it. -/
theorem Orderly.unlocked {s : TimerSystem} (h : s.Orderly) (hlocking : s.Locking)
    {cmd : TriggerCmd} (hcmd : s.trigger = .locked cmd) {n : Nat}
    (hn : (s.callback n).Unarmed) {m : Nat} (hm : m ∈ s.inFlight) (hne : m ≠ n) :
    s.callback m = .unlocked := by
  obtain ⟨-, hidle, hfinished⟩ := mem_inFlight.mp hm
  have hholds := hlocking.not_holdsLock hcmd m
  cases hstage : s.callback m with
  | idle => exact absurd hstage hidle
  | waiting => exact absurd (h.unique m n (Or.inl hstage) hn) hne
  | locked => exact absurd (Or.inl hstage) hholds
  | armed => exact absurd (Or.inr hstage) hholds
  | unlocked => rfl
  | finished => exact absurd hstage hfinished

/-- STOP or SUSPEND meets a call that waits for the lock: once every call has run to its
end, the timer is pending. -/
theorem canFail_rearmed {s : TimerSystem} (hlocking : s.Locking) (horderly : s.Orderly)
    {cmd : TriggerCmd} (hcmd : s.trigger = .locked cmd)
    (hdel : triggerTimer cmd = some .delTimer) {n : Nat} (hn : s.callback n = .waiting) :
    (switchTimer cmd { s with trigger := .switched cmd }).CanFail := by
  -- The call that waits is the only one left that can arm the timer.
  have hunarmed : (s.callback n).Unarmed := Or.inl hn
  have hnone := Orderly.stopped_eq_none (horderly.of_unarmed hunarmed).2
  let others := s.inFlight.filter (· ≠ n)
  have hnodup : others.Nodup := (List.nodup_range.filter _).filter _
  have hothers : ∀ m ∈ others, s.callback m = .unlocked := by
    intro m hm
    obtain ⟨hflight, hne⟩ := List.mem_filter.mp hm
    exact horderly.unlocked hlocking hcmd hunarmed hflight (by simpa using hne)
  have hreturn : run timerStep (switchTimer cmd { s with trigger := .switched cmd })
      [.triggerUnlock cmd, .triggerReturn cmd] = some (s.returned []) := by
    simp [run_cons, timerStep, switchTimer, hdel, sndCardTl880PcmTimerStop, hnone,
      returned, inFlight]
  have hfinish : run timerStep (s.returned []) (others.map .finish) =
      some (s.returned others) := by
    rw [run_finish hnodup (by simpa [returned] using hothers)]
    simp [returned]
  have hwaiting : (s.returned others).callback n = .waiting := by
    simp [returned, others, hn]
  have hrun : run timerStep (switchTimer cmd { s with trigger := .switched cmd })
      ([.triggerUnlock cmd, .triggerReturn cmd] ++ (others.map .finish ++
        [.lock n, .arm n, .unlock n, .finish n])) =
      some { (s.returned others).moveTo n .finished with
        pending := true, addedPending := s.addedPending || false } := by
    rw [run_append, hreturn, Option.bind_some, run_append, hfinish, Option.bind_some]
    exact run_callback hwaiting rfl
  apply CanFail.of_run hrun
  · intro event hevent u
    simp only [List.mem_append, List.mem_cons, List.mem_map, List.not_mem_nil] at hevent
    rcases hevent with (rfl | rfl | h) | ⟨m, -, rfl⟩ | rfl | rfl | rfl | rfl | h
    all_goals trivial
  · intro hquiet
    obtain ⟨-, hquiet⟩ := hquiet
    have hfinished : ∀ m ∈ s.inFlight,
        ((s.returned others).moveTo n .finished).callback m = .finished := by
      intro m hm
      by_cases hne : m = n
      · rw [hne, moveTo_self]
      · rw [moveTo_of_ne _ hne]
        have hother : m ∈ others := List.mem_filter.mpr ⟨hm, by simpa using hne⟩
        simp [returned, hother]
    have hpending := (hquiet s.inFlight rfl hfinished).1
    cases hpending

/-- START or RESUME meets a call that waits for the lock: the timer is pending when that
call adds it. -/
theorem canFail_added {s : TimerSystem} {cmd : TriggerCmd}
    (hadd : triggerTimer cmd = some .addTimer) {n : Nat} (hn : s.callback n = .waiting) :
    (switchTimer cmd { s with trigger := .switched cmd }).CanFail := by
  have hrun : run timerStep (switchTimer cmd { s with trigger := .switched cmd })
      [.triggerUnlock cmd, .lock n, .arm n] =
      some { s.moveTo n .armed with
        pending := true, lock := some (.callback n), trigger := .unlocked cmd,
        addedPending := true } := by
    simp [run_cons, timerStep, switchTimer, hadd, hn, sndCardTl880PcmTimerStart, moveTo]
  apply CanFail.of_run hrun
  · intro event hevent u
    simp only [List.mem_cons, List.not_mem_nil] at hevent
    rcases hevent with rfl | rfl | rfl | h
    all_goals trivial
  · intro hquiet
    obtain ⟨hadded, -⟩ := hquiet
    cases hadded

/-- START or RESUME adds a timer that is pending. -/
theorem canFail_pending {s : TimerSystem} {cmd : TriggerCmd}
    (hadd : triggerTimer cmd = some .addTimer) (hpending : s.pending = true) :
    (switchTimer cmd { s with trigger := .switched cmd }).CanFail := by
  apply CanFail.of_run rfl (List.forall_mem_nil _)
  intro hquiet
  obtain ⟨hadded, -⟩ := hquiet
  simp [switchTimer, hadd, sndCardTl880PcmTimerStart, hpending] at hadded

/-- A step that does not switch the timer alone can be followed by steps that do and
that lead to a state that is not quiet. -/
theorem Orderly.canFail {s s' : TimerSystem} (h : s.Orderly) (hlocking : s.Locking)
    {event : TimerEvent} (hstep : timerStep s event = some s')
    (halone : ¬ s.SwitchesAlone event) : s'.CanFail := by
  cases event with
  | switch cmd =>
      obtain ⟨hcmd, rfl⟩ := eq_of_ite_eq_some hstep
      -- A call waits for the lock, or the timer that is to be added is pending.
      by_cases hwaiting : ∃ n < s.expired, s.callback n = .waiting
      · obtain ⟨n, -, hn⟩ := hwaiting
        cases htimer : triggerTimer cmd with
        | none => simp [SwitchesAlone, htimer] at halone
        | some op =>
            cases op with
            | addTimer => exact canFail_added htimer hn
            | delTimer => exact canFail_rearmed hlocking h hcmd htimer hn
      · have hnot : ∀ n < s.expired, s.callback n ≠ .waiting :=
          fun n hlt hn => hwaiting ⟨n, hlt, hn⟩
        have hpending : ¬ (triggerTimer cmd = some .addTimer → s.pending = false) :=
          fun hfree => halone ⟨hfree, fun _ => hnot⟩
        push Not at hpending
        exact canFail_pending hpending.1 (by simpa using hpending.2)
  | expire | lock | arm | unlock | finish | call | triggerLock | triggerUnlock
  | triggerReturn => exact absurd trivial halone

/-- A state in which the invariants hold cannot fail. -/
theorem Orderly.not_canFail {s : TimerSystem} (h : s.Orderly) (hlocking : s.Locking) :
    ¬ s.CanFail := by
  intro hfail
  obtain ⟨events, halone, hnot⟩ := hfail
  exact hnot (h.allStates_quiet hlocking halone)

end TimerSystem

/-- A run switches the timer alone exactly when none of its states can fail. -/
theorem timer_switchesAlone_iff (events : List TimerEvent) :
    AllStates timerStep (fun s => ¬ s.CanFail) .opened events ↔
      AllSteps timerStep TimerSystem.SwitchesAlone .opened events := by
  apply allStates_iff_allSteps TimerSystem.Orderly.locking_step
  · rintro s ⟨hlocking, horderly⟩
    exact horderly.not_canFail hlocking
  · rintro s event s' ⟨hlocking, horderly⟩ hstep hsafe
    by_contra halone
    exact hsafe (horderly.canFail hlocking hstep halone)
  · exact ⟨.opened, .opened⟩

end Tl880
