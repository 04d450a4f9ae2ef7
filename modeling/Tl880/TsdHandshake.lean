import Tl880.Demux
import Tl880.Lib.HostDevice

/-!
# Starting the transport stream processor

The end of `tl880_demux_init` in `driver/tl880demux.c`.  The processor of the TSD runs by itself,
so the code is the host of a `HostDevice` system: between any two of its accesses the processor
can write any register.

The handshake clears register `0x26804`, gives the command 6 in `0x26800`, and waits for an
answer; an answer of 1 ends it, and any other one makes it start again.
-/

namespace Tl880

open HostDevice LabelledRun

/-! ## The handshake -/

/-- The register of the answer. -/
def tsdAnswer : U32 := 0x26804

/-- The register of the command. -/
def tsdCommand : U32 := 0x26800

/-- Where the code stands, with `tsd_last_queued_interrupt` once it is known. -/
inductive DemuxPc
  /-- before the next of the registers to be set up -/
  | setUp (done : Nat)
  /-- before the answer is cleared -/
  | clear (queued : U32)
  /-- before the command is given -/
  | kick (queued : U32)
  /-- before the first read in the condition of the inner loop -/
  | wait (queued : U32)
  /-- before the second one -/
  | waitCommand (queued : U32)
  /-- before the read in the condition of the outer loop -/
  | check (queued : U32)
  /-- before the last write -/
  | finish (queued : U32)
  | returned (queued : U32)

/-- The accesses of `tl880_demux_init` to a card whose registers are mapped. -/
def demuxCode (writes : List (U32 × U32)) : DemuxPc → HostMove U32 U32 DemuxPc
  | .setUp n =>
      match writes[n]? with
      | some (reg, value) => .write reg value (.setUp (n + 1))
      | none => .read 0x27814 fun value => .clear (value &&& 0xf)
  | .clear queued => .write tsdAnswer 0 (.kick queued)
  | .kick queued => .write tsdCommand 6 (.wait queued)
  | .wait queued =>
      .read tsdAnswer fun value => if value = 0 then .waitCommand queued else .check queued
  | .waitCommand queued =>
      .read tsdCommand fun value => if value ≠ 5 then .wait queued else .check queued
  | .check queued =>
      .read tsdAnswer fun value => if value ≠ 1 then .clear queued else .finish queued
  | .finish queued => .write tsdCommand 0 (.returned queued)
  | .returned _ => .halt

/-- `tl880_demux_init`: the globals as it leaves them, and what it accesses. -/
def tl880DemuxInit (fuel : Nat) (g : DemuxGlobals) :
    Option (DemuxGlobals × (DemuxPc → HostMove U32 U32 DemuxPc)) :=
  (demuxSetUp fuel g).map fun (g, writes) => (g, demuxCode writes)

/-- A card and its TSD, before `tl880_demux_init`. -/
def demuxStart (cell : U32 → U32) : State U32 U32 DemuxPc :=
  { cell := cell, pc := .setUp 0, log := [] }

/-- The host clears the answer. -/
def ClearsAnswer (w : Write U32 U32) : Prop := w.party = .host ∧ w.reg = tsdAnswer

instance : DecidablePred ClearsAnswer := fun w =>
  inferInstanceAs (Decidable (w.party = .host ∧ w.reg = tsdAnswer))

/-- The TSD has written one of the registers of the handshake. -/
def Acted (log : List (Write U32 U32)) : Prop :=
  ∃ w ∈ log, w.party = .device ∧ (w.reg = tsdAnswer ∨ w.reg = tsdCommand)

/-- The answer is cleared again only when the TSD has acted since it was cleared before. -/
def Prompted : List (Write U32 U32) → Prop
  | [] => True
  | w :: log =>
      Prompted log ∧
        (ClearsAnswer w → (∀ v ∈ log, ¬ ClearsAnswer v) ∨ Acted (since ClearsAnswer log))

/-- The TSD has answered 1 since the answer was last cleared. -/
def Answered (log : List (Write U32 U32)) : Prop :=
  ⟨.device, tsdAnswer, 1⟩ ∈ since ClearsAnswer log

/-- The writes of the first `k` rounds of the handshake, the newest first. -/
def kicks : Nat → List (U32 × U32)
  | 0 => []
  | k + 1 => (tsdCommand, 6) :: (tsdAnswer, 0) :: kicks k

/-- What holds whatever the TSD does: nothing but the set-up and the kicks is written, no kick
comes before the TSD has reacted to the one before, and the code returns only after an answer
of 1 to its last kick.  Then each register of the set-up that the TSD left alone is set up. -/
structure HandshakeSafe (s : State U32 U32 DemuxPc) : Prop where
  prompted : Prompted s.log
  writes : ∃ k, hostWrites s.log <:+ (tsdCommand, 0) :: kicks k ++ demuxWrites.reverse
  answered : ∀ queued, s.pc = .returned queued → Answered s.log
  kicked : ∀ queued, s.pc = .returned queued →
    ∃ k, 0 < k ∧ hostWrites s.log = (tsdCommand, 0) :: kicks k ++ demuxWrites.reverse
  image : ∀ queued, s.pc = .returned queued → ∀ reg value, (reg, value) ∈ demuxWrites →
    (∀ w ∈ s.log, w.reg = reg → w.party = .host) → s.cell reg = value

/-! ## The registers of the handshake -/

/-- The set-up leaves the registers of the handshake alone. -/
theorem demuxWrites_ne {w : U32 × U32} (h : w ∈ demuxWrites) :
    w.1 ≠ tsdAnswer ∧ w.1 ≠ tsdCommand := by
  have hinside := demuxWrites_inside h
  have hanswer : tsdAnswer.toNat = 0x26804 := rfl
  have hcommand : tsdCommand.toNat = 0x26800 := rfl
  constructor
  · intro heq
    rw [heq] at hinside
    omega
  · intro heq
    rw [heq] at hinside
    omega

/-! ## One event -/

/-- The answer is what the code has cleared it to, or what the TSD has written since. -/
def AnswerShown (s : State U32 U32 DemuxPc) : Prop :=
  s.cell tsdAnswer = 0 ∨ ⟨.device, tsdAnswer, s.cell tsdAnswer⟩ ∈ since ClearsAnswer s.log

/-- The command is still there, or the TSD has acted since the answer was cleared. -/
def CommandShown (s : State U32 U32 DemuxPc) : Prop :=
  s.cell tsdCommand = 6 ∨ Acted (since ClearsAnswer s.log)

/-- The invariant at each place of the code. -/
def DemuxInv (s : State U32 U32 DemuxPc) : Prop :=
  match s.pc with
  | .setUp n => n ≤ demuxWrites.length ∧ hostWrites s.log = (demuxWrites.take n).reverse
  | .clear _ => ∃ k, hostWrites s.log = kicks k ++ demuxWrites.reverse ∧
      (k = 0 ∨ Acted (since ClearsAnswer s.log))
  | .kick _ => AnswerShown s ∧
      ∃ k, hostWrites s.log = (tsdAnswer, 0) :: kicks k ++ demuxWrites.reverse
  | .wait _ => AnswerShown s ∧ CommandShown s ∧
      ∃ k, hostWrites s.log = kicks (k + 1) ++ demuxWrites.reverse
  | .waitCommand _ => AnswerShown s ∧ CommandShown s ∧
      ∃ k, hostWrites s.log = kicks (k + 1) ++ demuxWrites.reverse
  | .check _ => AnswerShown s ∧ Acted (since ClearsAnswer s.log) ∧
      ∃ k, hostWrites s.log = kicks (k + 1) ++ demuxWrites.reverse
  | .finish _ => Answered s.log ∧
      ∃ k, hostWrites s.log = kicks (k + 1) ++ demuxWrites.reverse
  | .returned _ => Answered s.log ∧
      ∃ k, hostWrites s.log = (tsdCommand, 0) :: kicks (k + 1) ++ demuxWrites.reverse

variable {s t : State U32 U32 DemuxPc}

/-- A write that does not clear the answer is one more write since it was cleared. -/
theorem Acted.cons {log : List (Write U32 U32)} (h : Acted log) (w : Write U32 U32) :
    Acted (w :: log) := by
  obtain ⟨v, hv, hacted⟩ := h
  exact ⟨v, List.mem_cons_of_mem w hv, hacted⟩

theorem since_device (reg value : U32) (log : List (Write U32 U32)) :
    since ClearsAnswer (⟨.device, reg, value⟩ :: log) =
      ⟨.device, reg, value⟩ :: since ClearsAnswer log :=
  since_cons_of_not (fun h => nomatch h.1) log

theorem since_host {reg : U32} (hne : reg ≠ tsdAnswer) (value : U32)
    (log : List (Write U32 U32)) :
    since ClearsAnswer (⟨.host, reg, value⟩ :: log) =
      ⟨.host, reg, value⟩ :: since ClearsAnswer log :=
  since_cons_of_not (fun h => hne h.2) log

theorem AnswerShown.device (h : AnswerShown s) (reg value : U32) :
    AnswerShown (s.put ⟨.device, reg, value⟩) := by
  rw [AnswerShown, put_log, since_device]
  by_cases hreg : reg = tsdAnswer
  · subst hreg
    right
    rw [put_cell_self]
    exact List.mem_cons_self
  · rw [put_cell_ne s (Ne.symm hreg)]
    exact h.imp id fun hmem => List.mem_cons_of_mem _ hmem

theorem CommandShown.device (h : CommandShown s) (reg value : U32) :
    CommandShown (s.put ⟨.device, reg, value⟩) := by
  rw [CommandShown, put_log, since_device]
  by_cases hreg : reg = tsdCommand
  · exact Or.inr ⟨_, List.mem_cons_self, rfl, Or.inr hreg⟩
  · rw [put_cell_ne s (Ne.symm hreg)]
    exact h.imp id fun hacted => hacted.cons _

theorem Answered.device {log : List (Write U32 U32)} (h : Answered log) (reg value : U32) :
    Answered (⟨.device, reg, value⟩ :: log) := by
  rw [Answered, since_device]
  exact List.mem_cons_of_mem _ h

/-- A write of the TSD keeps the invariant. -/
theorem DemuxInv.device (h : DemuxInv s) (reg value : U32) :
    DemuxInv (s.put ⟨.device, reg, value⟩) := by
  have hacted : Acted (since ClearsAnswer s.log) →
      Acted (since ClearsAnswer (⟨.device, reg, value⟩ :: s.log)) := by
    intro h
    rw [since_device]
    exact h.cons _
  unfold DemuxInv at h ⊢
  rw [put_pc, put_log, hostWrites_device]
  cases hpc : s.pc with
  | setUp n =>
      rw [hpc] at h
      exact h
  | clear queued =>
      rw [hpc] at h
      obtain ⟨k, hwrites, hk⟩ := h
      exact ⟨k, hwrites, hk.imp id hacted⟩
  | kick queued =>
      rw [hpc] at h
      exact ⟨h.1.device reg value, h.2⟩
  | wait queued =>
      rw [hpc] at h
      exact ⟨h.1.device reg value, h.2.1.device reg value, h.2.2⟩
  | waitCommand queued =>
      rw [hpc] at h
      exact ⟨h.1.device reg value, h.2.1.device reg value, h.2.2⟩
  | check queued =>
      rw [hpc] at h
      exact ⟨h.1.device reg value, hacted h.2.1, h.2.2⟩
  | finish queued =>
      rw [hpc] at h
      exact ⟨h.1.device reg value, h.2⟩
  | returned queued =>
      rw [hpc] at h
      exact ⟨h.1.device reg value, h.2⟩

/-- An access of the code keeps the invariant. -/
theorem DemuxInv.host (h : DemuxInv s) (hstep : step (demuxCode demuxWrites) s .host = some t) :
    DemuxInv t := by
  obtain ⟨cell, pc, log⟩ := s
  cases pc with
  | setUp n =>
      obtain ⟨hn, hwrites⟩ := h
      cases hw : demuxWrites[n]? with
      | some w =>
          have hcode : demuxCode demuxWrites (.setUp n) = .write w.1 w.2 (.setUp (n + 1)) := by
            simp only [demuxCode, hw]
          obtain ⟨hlt, -⟩ := List.getElem?_eq_some_iff.mp hw
          rw [step_write hcode] at hstep
          cases hstep
          refine ⟨by omega, ?_⟩
          rw [put_log, hostWrites_host, hwrites]
          exact take_succ_reverse hw
      | none =>
          have hcode : demuxCode demuxWrites (.setUp n) =
              .read 0x27814 fun value => .clear (value &&& 0xf) := by
            simp only [demuxCode, hw]
          have hall := List.getElem?_eq_none_iff.mp hw
          rw [step_read hcode] at hstep
          cases hstep
          refine ⟨0, ?_, Or.inl rfl⟩
          rw [hwrites, List.take_of_length_le hall]
          rfl
  | clear queued =>
      obtain ⟨k, hwrites, -⟩ := h
      cases hstep
      refine ⟨Or.inl (Function.update_self tsdAnswer 0 cell), k, ?_⟩
      exact congrArg (List.cons (tsdAnswer, 0)) hwrites
  | kick queued =>
      obtain ⟨hshown, k, hwrites⟩ := h
      have hne : tsdCommand ≠ tsdAnswer := by decide
      cases hstep
      refine ⟨?_, Or.inl (Function.update_self tsdCommand 6 cell), k, ?_⟩
      · rw [AnswerShown, put_log, since_host hne, put_cell_ne _ (Ne.symm hne)]
        exact hshown.imp id fun hmem => List.mem_cons_of_mem _ hmem
      · exact congrArg (List.cons (tsdCommand, 6)) hwrites
  | wait queued =>
      obtain ⟨hshown, hcommand, hwrites⟩ := h
      cases hstep
      by_cases hzero : cell tsdAnswer = 0
      · simp only [hzero, if_true]
        exact ⟨hshown, hcommand, hwrites⟩
      · simp only [hzero, if_false]
        exact ⟨hshown, ⟨_, hshown.resolve_left hzero, rfl, Or.inl rfl⟩, hwrites⟩
  | waitCommand queued =>
      obtain ⟨hshown, hcommand, hwrites⟩ := h
      cases hstep
      by_cases hdone : cell tsdCommand = 5
      · have hacted : Acted (since ClearsAnswer log) := hcommand.resolve_left fun hsix =>
          absurd (hsix.symm.trans hdone) (by decide)
        simp only [hdone, ne_eq, not_true, if_false]
        exact ⟨hshown, hacted, hwrites⟩
      · simp only [hdone, ne_eq, not_false_iff, if_true]
        exact ⟨hshown, hcommand, hwrites⟩
  | check queued =>
      obtain ⟨hshown, hacted, k, hwrites⟩ := h
      cases hstep
      by_cases hone : cell tsdAnswer = 1
      · have hanswer := hshown.resolve_left fun hzero =>
          absurd (hzero.symm.trans hone) (by decide)
        simp only [hone, ne_eq, not_true, if_false] at hanswer ⊢
        exact ⟨hanswer, k, hwrites⟩
      · simp only [hone, ne_eq, not_false_iff, if_true]
        exact ⟨k + 1, hwrites, Or.inr hacted⟩
  | finish queued =>
      obtain ⟨hanswered, k, hwrites⟩ := h
      cases hstep
      refine ⟨?_, k, ?_⟩
      · rw [put_log, Answered, since_host (by decide)]
        exact List.mem_cons_of_mem _ hanswered
      · exact congrArg (List.cons (tsdCommand, 0)) hwrites
  | returned queued => cases hstep

/-- An event keeps the invariant. -/
theorem DemuxInv.step (h : DemuxInv s) {e : Event U32 U32}
    (hstep : step (demuxCode demuxWrites) s e = some t) : DemuxInv t := by
  cases e with
  | host => exact h.host hstep
  | device reg value =>
      cases hstep
      exact h.device reg value

/-- The code clears the answer in one place only. -/
theorem demuxCode_clears {pc next : DemuxPc} {value : U32}
    (hcode : demuxCode demuxWrites pc = .write tsdAnswer value next) :
    ∃ queued, pc = .clear queued := by
  cases pc with
  | setUp n =>
      cases hw : demuxWrites[n]? with
      | some w =>
          simp only [demuxCode, hw, HostMove.write.injEq] at hcode
          exact absurd hcode.1 (demuxWrites_ne (List.mem_of_getElem? hw)).1
      | none => simp [demuxCode, hw] at hcode
  | clear queued => exact ⟨queued, rfl⟩
  | kick queued => simp [demuxCode, tsdCommand, tsdAnswer] at hcode
  | wait queued => simp [demuxCode] at hcode
  | waitCommand queued => simp [demuxCode] at hcode
  | check queued => simp [demuxCode] at hcode
  | finish queued => simp [demuxCode, tsdCommand, tsdAnswer] at hcode
  | returned queued => simp [demuxCode] at hcode

/-- A clear comes first, or after the TSD has acted. -/
theorem DemuxInv.prompted (h : DemuxInv s) (hlog : Prompted s.log) {e : Event U32 U32}
    (hstep : HostDevice.step (demuxCode demuxWrites) s e = some t) : Prompted t.log := by
  obtain ⟨reg, next, -, -, rfl⟩ | ⟨reg, value, next, -, hcode, rfl⟩ | ⟨reg, value, -, rfl⟩ :=
    step_cases hstep
  · exact hlog
  · refine ⟨hlog, ?_⟩
    rintro ⟨-, hreg⟩
    rw [show reg = tsdAnswer from hreg] at hcode
    obtain ⟨queued, hpc⟩ := demuxCode_clears hcode
    rw [DemuxInv, hpc] at h
    obtain ⟨k, hwrites, hfirst | hacted⟩ := h
    · left
      rintro v hv ⟨hparty, hvreg⟩
      have hlisted : (v.reg, v.value) ∈ hostWrites s.log :=
        List.mem_filterMap.mpr ⟨v, hv, if_pos hparty⟩
      rw [hwrites, hfirst] at hlisted
      exact (demuxWrites_ne (List.mem_reverse.mp hlisted)).1 hvreg
    · exact Or.inr hacted
  · exact ⟨hlog, fun hclears => nomatch hclears.1⟩

/-! ## Whole runs -/

/-- The kicks and the last write only touch the registers of the handshake. -/
theorem mem_kicks {k : Nat} {w : U32 × U32} (h : w ∈ kicks k) :
    w.1 = tsdAnswer ∨ w.1 = tsdCommand := by
  induction k with
  | zero => cases h
  | succ k ih =>
      rcases List.mem_cons.mp h with rfl | h
      · exact Or.inr rfl
      · rcases List.mem_cons.mp h with rfl | h
        · exact Or.inl rfl
        · exact ih h

/-- The invariant says what is safe. -/
theorem DemuxInv.safe {cell : U32 → U32} (h : DemuxInv s) (hprompted : Prompted s.log)
    (hreplayed : Replayed cell s) : HandshakeSafe s := by
  have hreturned (queued : U32) (hpc : s.pc = .returned queued) : Answered s.log ∧
      ∃ k, hostWrites s.log = (tsdCommand, 0) :: kicks (k + 1) ++ demuxWrites.reverse := by
    rw [DemuxInv, hpc] at h
    exact h
  refine ⟨hprompted, ?_, fun queued hpc => (hreturned queued hpc).1, ?_, ?_⟩
  · clear hreturned hreplayed hprompted
    obtain ⟨cell', pc, log⟩ := s
    cases pc with
    | setUp n =>
        refine ⟨0, h.2 ▸ ?_⟩
        exact (List.reverse_suffix.mpr (List.take_prefix n demuxWrites)).trans
          (List.suffix_append _ _)
    | clear queued =>
        obtain ⟨k, hwrites, -⟩ := h
        exact ⟨k, hwrites ▸ List.suffix_cons _ _⟩
    | kick queued =>
        obtain ⟨-, k, hwrites⟩ := h
        exact ⟨k + 1, hwrites ▸ (List.suffix_cons _ _).trans (List.suffix_cons _ _)⟩
    | wait queued =>
        obtain ⟨-, -, k, hwrites⟩ := h
        exact ⟨k + 1, hwrites ▸ List.suffix_cons _ _⟩
    | waitCommand queued =>
        obtain ⟨-, -, k, hwrites⟩ := h
        exact ⟨k + 1, hwrites ▸ List.suffix_cons _ _⟩
    | check queued =>
        obtain ⟨-, -, k, hwrites⟩ := h
        exact ⟨k + 1, hwrites ▸ List.suffix_cons _ _⟩
    | finish queued =>
        obtain ⟨-, k, hwrites⟩ := h
        exact ⟨k + 1, hwrites ▸ List.suffix_cons _ _⟩
    | returned queued =>
        obtain ⟨-, k, hwrites⟩ := h
        exact ⟨k + 1, hwrites ▸ List.suffix_rfl⟩
  · intro queued hpc
    obtain ⟨-, k, hwrites⟩ := hreturned queued hpc
    exact ⟨k + 1, Nat.succ_pos k, hwrites⟩
  · intro queued hpc reg value hmem hdevice
    obtain ⟨-, k, hwrites⟩ := hreturned queued hpc
    have hne := demuxWrites_ne hmem
    refine hreplayed.cell_eq ?_ ?_ hdevice
    · rw [hwrites]
      exact List.mem_append_right _ (List.mem_reverse.mpr hmem)
    · intro value' hmem'
      rw [hwrites] at hmem'
      rcases List.mem_append.mp hmem' with hkick | hset
      · exfalso
        rcases List.mem_cons.mp hkick with hlast | hkick
        · exact hne.2 (Prod.mk.inj hlast).1
        · exact (mem_kicks hkick).elim hne.1 hne.2
      · exact demuxWrites_unique (List.mem_reverse.mp hset) hmem

/-- The code waits for an answer that it has not looked at. -/
def DemuxPc.Waiting : DemuxPc → Prop
  | .kick _ => True
  | .wait _ => True
  | .waitCommand _ => True
  | .check _ => True
  | _ => False

/-- The code has seen its answer. -/
def DemuxPc.Ending : DemuxPc → Prop
  | .finish _ => True
  | .returned _ => True
  | _ => False

/-- The answer that ends the handshake is there and will be looked at. -/
def Ends (s : State U32 U32 DemuxPc) : Prop :=
  s.pc.Ending ∨ (s.pc.Waiting ∧ s.cell tsdAnswer = 1)

theorem halts_finish (cell : U32 → U32) (queued : U32) (log : List (Write U32 U32)) :
    Halts (demuxCode demuxWrites) ⟨cell, .finish queued, log⟩ := by
  have hcode : demuxCode demuxWrites (.finish queued) =
      .write tsdCommand 0 (.returned queued) := rfl
  rw [halts_write hcode]
  exact halts_of_halt rfl

/-- With an answer of 1 the code goes on from the check to the end. -/
theorem halts_check {cell : U32 → U32} (hone : cell tsdAnswer = 1) (queued : U32)
    (log : List (Write U32 U32)) :
    Halts (demuxCode demuxWrites) ⟨cell, .check queued, log⟩ := by
  have hcode : demuxCode demuxWrites (.check queued) = .read tsdAnswer fun value =>
      if value ≠ 1 then .clear queued else .finish queued := rfl
  rw [halts_read hcode, if_neg (not_not.mpr hone)]
  exact halts_finish cell queued log

theorem halts_wait {cell : U32 → U32} (hone : cell tsdAnswer = 1) (queued : U32)
    (log : List (Write U32 U32)) :
    Halts (demuxCode demuxWrites) ⟨cell, .wait queued, log⟩ := by
  have hcode : demuxCode demuxWrites (.wait queued) = .read tsdAnswer fun value =>
      if value = 0 then .waitCommand queued else .check queued := rfl
  rw [halts_read hcode, hone, if_neg (by decide)]
  exact halts_check hone queued log

/-- An access of the code brings no answer. -/
theorem not_ends_host (h : ¬ Ends s) (hstep : step (demuxCode demuxWrites) s .host = some t) :
    ¬ Ends t := by
  obtain ⟨cell, pc, log⟩ := s
  cases pc with
  | setUp n =>
      cases hw : demuxWrites[n]? with
      | some w =>
          have hcode : demuxCode demuxWrites (.setUp n) = .write w.1 w.2 (.setUp (n + 1)) := by
            simp only [demuxCode, hw]
          rw [step_write hcode] at hstep
          cases hstep
          simp [Ends, DemuxPc.Ending, DemuxPc.Waiting]
      | none =>
          have hcode : demuxCode demuxWrites (.setUp n) =
              .read 0x27814 fun value => .clear (value &&& 0xf) := by
            simp only [demuxCode, hw]
          rw [step_read hcode] at hstep
          cases hstep
          simp [Ends, DemuxPc.Ending, DemuxPc.Waiting]
  | clear queued =>
      cases hstep
      simp [Ends, DemuxPc.Ending, State.put]
  | kick queued =>
      cases hstep
      have hsame : Function.update cell tsdCommand 6 tsdAnswer = cell tsdAnswer :=
        Function.update_of_ne (by decide) _ _
      simp only [Ends, DemuxPc.Ending, DemuxPc.Waiting, State.put, hsame, true_and,
        false_or] at h ⊢
      exact h
  | wait queued =>
      cases hstep
      simp only [Ends, DemuxPc.Ending, DemuxPc.Waiting, true_and, false_or] at h ⊢
      split_ifs <;> simpa using h
  | waitCommand queued =>
      cases hstep
      simp only [Ends, DemuxPc.Ending, DemuxPc.Waiting, true_and, false_or] at h ⊢
      split_ifs <;> simpa using h
  | check queued =>
      cases hstep
      simp only [Ends, DemuxPc.Ending, DemuxPc.Waiting, true_and, false_or] at h
      dsimp only
      rw [if_pos h]
      simp [Ends, DemuxPc.Ending, DemuxPc.Waiting]
  | finish queued => exact absurd (Or.inl trivial) h
  | returned queued => cases hstep

/-- When the TSD does not write any more, the code returns from exactly those states where it
has seen an answer of 1, or will look at one before it clears it. -/
theorem tl880DemuxInit_quiet (s : State U32 U32 DemuxPc) :
    Halts (demuxCode demuxWrites) s ↔ Ends s := by
  constructor
  · intro hhalts
    by_contra hends
    refine not_halts_of_closed (fun s => ¬ Ends s) ?_ ?_ hends hhalts
    · rintro ⟨cell, pc, log⟩ hends hhalt
      cases pc with
      | returned queued => exact hends (Or.inl trivial)
      | setUp n =>
          cases hw : demuxWrites[n]? <;> simp [demuxCode, hw] at hhalt
      | _ => cases hhalt
    · exact fun s t h hstep => not_ends_host h hstep
  · obtain ⟨cell, pc, log⟩ := s
    rintro (hending | ⟨hwaiting, hone⟩)
    · cases pc with
      | finish queued => exact halts_finish cell queued log
      | returned queued => exact halts_of_halt rfl
      | _ => cases hending
    · cases pc with
      | kick queued =>
          have hcode : demuxCode demuxWrites (.kick queued) =
              .write tsdCommand 6 (.wait queued) := rfl
          rw [halts_write hcode]
          refine halts_wait ?_ queued _
          exact (Function.update_of_ne (by decide) _ _).trans hone
      | wait queued => exact halts_wait hone queued log
      | waitCommand queued =>
          have hcode : demuxCode demuxWrites (.waitCommand queued) =
              .read tsdCommand fun value =>
                if value ≠ 5 then .wait queued else .check queued := rfl
          rw [halts_read hcode]
          split_ifs
          · exact halts_wait hone queued log
          · exact halts_check hone queued log
      | check queued => exact halts_check hone queued log
      | _ => cases hwaiting

end Tl880
