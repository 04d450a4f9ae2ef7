import Tl880.Lib.HostDevice
import Tl880.Registers

/-!
# Resetting the overlay

`aux_reset` of `tl880fb/tl880fb.c`, which `tools/dpc/dpcsync.c` has as well, clears the
descriptor mailbox of the overlay until it reads as empty and then its line count until that
reads as 0.  The card may set either of them again at any time.

The code cannot be held up for nothing: each time the card sets one of the two registers to
something else than 0 costs it at most two accesses more (`auxReset_returns`).
-/

namespace Tl880

open HostDevice LabelledRun

/-! ## The code -/

/-- The registers of `aux_reset`. -/
def auxMailbox : U32 := 0x25728
def auxLineCount : U32 := 0x2573c
def auxResetReg : U32 := 0x25744

/-- `test_aux_dscr_mbox_empty`, of what it reads -/
def testAuxDscrMboxEmpty (value : U32) : U32 := if value ≠ 0 then 0 else 1

/-- Where `aux_reset` stands. -/
inductive AuxResetPc
  | testMailbox
  | clearMailbox
  | testLineCount
  | clearLineCount
  | reset
  | returned
  deriving DecidableEq

/-- The accesses of `aux_reset` to a card whose registers are mapped. -/
def auxReset : AuxResetPc → HostMove U32 U32 AuxResetPc
  | .testMailbox => .read auxMailbox fun value =>
      if testAuxDscrMboxEmpty value = 0 then .clearMailbox else .testLineCount
  | .clearMailbox => .write auxMailbox 0 .testMailbox
  | .testLineCount => .read auxLineCount fun value =>
      if value ≠ 0 then .clearLineCount else .reset
  | .clearLineCount => .write auxLineCount 0 .testLineCount
  | .reset => .write auxResetReg 1 .returned
  | .returned => .halt

/-- A card before the reset. -/
def auxResetStart (cell : U32 → U32) : State U32 U32 AuxResetPc := ⟨cell, .testMailbox, []⟩

/-- The card sets the mailbox or the line count. -/
def auxStir : Event U32 U32 → Nat
  | .host => 0
  | .device reg value => if (reg = auxMailbox ∨ reg = auxLineCount) ∧ value ≠ 0 then 1 else 0

/-- How often it does so in a run. -/
def auxStirs (events : List (Event U32 U32)) : Nat := total auxStir events

/-- What the code has written at a place: zeros to the mailbox, then zeros to the line count,
and last of all the reset. -/
def AuxResetPc.Written (writes : List (U32 × U32)) : AuxResetPc → Prop
  | .testMailbox | .clearMailbox => ∃ j, writes = List.replicate j (auxMailbox, 0)
  | .testLineCount | .clearLineCount | .reset =>
      ∃ j k, writes = List.replicate k (auxLineCount, 0) ++ List.replicate j (auxMailbox, 0)
  | .returned =>
      ∃ j k, writes = (auxResetReg, 1) ::
        (List.replicate k (auxLineCount, 0) ++ List.replicate j (auxMailbox, 0))

/-- What a run of the code and the card comes to. -/
structure AuxResetRun (events : List (Event U32 U32)) (s : State U32 U32 AuxResetPc) : Prop where
  written : s.pc.Written (hostWrites s.log)
  returns : 7 + 2 * auxStirs events ≤ accesses events → s.pc = .returned

/-! ## What is still to be done -/

/-- The accesses of a loop that clears a register. -/
def clearRank (cell : U32 → U32) (reg : U32) : Nat := if cell reg = 0 then 1 else 3

/-- The accesses up to the end, if the card sets nothing any more. -/
def auxRank (s : State U32 U32 AuxResetPc) : Nat :=
  match s.pc with
  | .testMailbox => clearRank s.cell auxMailbox + clearRank s.cell auxLineCount + 1
  | .clearMailbox => 2 + clearRank s.cell auxLineCount + 1
  | .testLineCount => clearRank s.cell auxLineCount + 1
  | .clearLineCount => 3
  | .reset => 1
  | .returned => 0

theorem clearRank_le (cell : U32 → U32) (reg : U32) : clearRank cell reg ≤ 3 := by
  unfold clearRank
  split_ifs <;> omega

theorem clearRank_zero {cell : U32 → U32} {reg : U32} (h : cell reg = 0) :
    clearRank cell reg = 1 := if_pos h

theorem clearRank_set {cell : U32 → U32} {reg : U32} (h : cell reg ≠ 0) :
    clearRank cell reg = 3 := if_neg h

/-- The card raises the rank of a loop by 2 when it sets the register, and not otherwise. -/
theorem clearRank_update (cell : U32 → U32) (reg reg' value : U32) :
    clearRank (Function.update cell reg' value) reg ≤
      clearRank cell reg + if reg' = reg ∧ value ≠ 0 then 2 else 0 := by
  by_cases hreg : reg' = reg
  · subst hreg
    unfold clearRank
    rw [Function.update_self]
    split_ifs <;> simp_all
  · rw [clearRank, Function.update_of_ne (Ne.symm hreg)]
    exact Nat.le_add_right _ _

theorem auxRank_start (cell : U32 → U32) : auxRank (auxResetStart cell) ≤ 7 := by
  have hmailbox := clearRank_le cell auxMailbox
  have hline := clearRank_le cell auxLineCount
  show clearRank cell auxMailbox + clearRank cell auxLineCount + 1 ≤ 7
  omega

/-- Only at the end nothing is left to be done. -/
theorem returned_of_auxRank {s : State U32 U32 AuxResetPc} (h : auxRank s = 0) :
    s.pc = .returned := by
  unfold auxRank at h
  split at h
  all_goals first | assumption | omega

/-- The first loop goes on while the mailbox is set. -/
theorem testAuxDscrMboxEmpty_eq_zero (value : U32) :
    testAuxDscrMboxEmpty value = 0 ↔ value ≠ 0 := by
  unfold testAuxDscrMboxEmpty
  by_cases h : value = 0 <;> simp [h]

/-- An access of the code lowers the rank. -/
theorem auxRank_host {s t : State U32 U32 AuxResetPc}
    (hstep : HostDevice.step auxReset s .host = some t) : 1 + auxRank t ≤ auxRank s := by
  obtain ⟨cell, pc, log⟩ := s
  cases pc with
  | testMailbox =>
      cases hstep
      dsimp only
      by_cases hzero : cell auxMailbox = 0
      · rw [if_neg (fun h => (testAuxDscrMboxEmpty_eq_zero _).mp h hzero)]
        simp only [auxRank, clearRank_zero hzero]
        omega
      · rw [if_pos ((testAuxDscrMboxEmpty_eq_zero _).mpr hzero)]
        simp only [auxRank, clearRank_set hzero]
        omega
  | clearMailbox =>
      cases hstep
      have hzero : clearRank (Function.update cell auxMailbox 0) auxMailbox = 1 :=
        clearRank_zero (Function.update_self _ _ _)
      have hline : clearRank (Function.update cell auxMailbox 0) auxLineCount =
          clearRank cell auxLineCount := by
        rw [clearRank, Function.update_of_ne (by decide)]
        rfl
      simp only [auxRank, State.put, hzero, hline]
      omega
  | testLineCount =>
      cases hstep
      dsimp only
      by_cases hzero : cell auxLineCount = 0
      · rw [if_neg (not_not.mpr hzero)]
        simp only [auxRank, clearRank_zero hzero]
        omega
      · rw [if_pos hzero]
        simp only [auxRank, clearRank_set hzero]
        omega
  | clearLineCount =>
      cases hstep
      have hzero : clearRank (Function.update cell auxLineCount 0) auxLineCount = 1 :=
        clearRank_zero (Function.update_self _ _ _)
      simp only [auxRank, State.put, hzero]
      omega
  | reset =>
      cases hstep
      exact Nat.le_refl 1
  | returned => cases hstep

/-- A write of the card raises it by 2 if it sets one of the two registers. -/
theorem auxRank_device (s : State U32 U32 AuxResetPc) (reg value : U32) :
    auxRank (s.put ⟨.device, reg, value⟩) ≤ auxRank s + 2 * auxStir (.device reg value) := by
  obtain ⟨cell, pc, log⟩ := s
  have hne : auxMailbox ≠ auxLineCount := by decide
  have hmailbox := clearRank_update cell auxMailbox reg value
  have hline := clearRank_update cell auxLineCount reg value
  have hboth : (if reg = auxMailbox ∧ value ≠ 0 then 2 else 0) +
      (if reg = auxLineCount ∧ value ≠ 0 then 2 else 0) = 2 * auxStir (.device reg value) := by
    unfold auxStir
    by_cases hzero : value = 0
    · simp [hzero]
    by_cases hreg : reg = auxMailbox
    · simp [hreg, hne]
    · by_cases hreg' : reg = auxLineCount <;> simp [hreg, hreg', hne.symm]
  cases pc with
  | testMailbox | clearMailbox | testLineCount =>
      simp only [auxRank, State.put]
      omega
  | clearLineCount | reset | returned =>
      simp only [auxRank, State.put]
      omega

/-- One event, with what it costs the card. -/
theorem auxRank_step {s t : State U32 U32 AuxResetPc} {e : Event U32 U32}
    (hstep : HostDevice.step auxReset s e = some t) :
    e.accesses + auxRank t ≤ auxRank s + 2 * auxStir e := by
  cases e with
  | host => exact auxRank_host hstep
  | device reg value =>
      cases hstep
      show 0 + auxRank _ ≤ _
      rw [Nat.zero_add]
      exact auxRank_device s reg value

/-! ## Whole runs -/

/-- One event keeps to the order of the writes. -/
theorem auxReset_written {s t : State U32 U32 AuxResetPc} {e : Event U32 U32}
    (h : s.pc.Written (hostWrites s.log)) (hstep : HostDevice.step auxReset s e = some t) :
    t.pc.Written (hostWrites t.log) := by
  cases e with
  | device reg value =>
      cases hstep
      exact h
  | host =>
      obtain ⟨cell, pc, log⟩ := s
      cases pc with
      | testMailbox =>
          obtain ⟨j, hj⟩ := h
          cases hstep
          dsimp only
          split_ifs
          · exact ⟨j, hj⟩
          · exact ⟨j, 0, hj⟩
      | clearMailbox =>
          obtain ⟨j, hj⟩ := h
          cases hstep
          refine ⟨j + 1, ?_⟩
          show (auxMailbox, 0) :: hostWrites log = _
          rw [hj, List.replicate_succ]
      | testLineCount =>
          obtain ⟨j, k, hjk⟩ := h
          cases hstep
          dsimp only
          split_ifs
          · exact ⟨j, k, hjk⟩
          · exact ⟨j, k, hjk⟩
      | clearLineCount =>
          obtain ⟨j, k, hjk⟩ := h
          cases hstep
          refine ⟨j, k + 1, ?_⟩
          show (auxLineCount, 0) :: hostWrites log = _
          rw [hjk, List.replicate_succ, List.cons_append]
      | reset =>
          obtain ⟨j, k, hjk⟩ := h
          cases hstep
          refine ⟨j, k, ?_⟩
          show (auxResetReg, 1) :: hostWrites log = _
          rw [hjk]
      | returned => cases hstep

/-- A card that sets the mailbox each time the code has cleared it. -/
def busyCard : Nat → List (Event U32 U32)
  | 0 => [.host, .host, .host, .host, .host, .host]
  | n + 1 => .host :: .host :: .device auxMailbox 1 :: busyCard n

theorem busyCard_counts (n : Nat) :
    accesses (busyCard n) = 6 + 2 * n ∧ auxStirs (busyCard n) = n := by
  induction n with
  | zero => exact ⟨rfl, rfl⟩
  | succ n ih =>
      obtain ⟨haccesses, hstirs⟩ := ih
      unfold accesses at haccesses
      unfold auxStirs at hstirs
      constructor
      · simp only [accesses, busyCard, total, haccesses, Event.accesses]
        omega
      · simp only [auxStirs, busyCard, total, hstirs]
        simp [auxStir]
        omega

/-- The code has not returned then. -/
theorem busyCard_run (n : Nat) (log : List (Write U32 U32)) :
    ∃ t, run (HostDevice.step auxReset) ⟨fun _ => 1, .testMailbox, log⟩ (busyCard n) = some t ∧
      t.pc = .reset := by
  induction n generalizing log with
  | zero => exact ⟨_, rfl, rfl⟩
  | succ n ih =>
      obtain ⟨t, hrun, hpc⟩ := ih
        (⟨.device, auxMailbox, 1⟩ :: ⟨.host, auxMailbox, 0⟩ :: log)
      refine ⟨t, ?_, hpc⟩
      rw [← hrun]
      have hcell : Function.update (Function.update (fun _ : U32 => (1 : U32)) auxMailbox 0)
          auxMailbox 1 = fun _ => 1 := by
        rw [Function.update_idem]
        exact Function.update_eq_self auxMailbox _
      show run (HostDevice.step auxReset)
        ⟨Function.update (Function.update (fun _ => 1) auxMailbox 0) auxMailbox 1, .testMailbox,
          ⟨.device, auxMailbox, 1⟩ :: ⟨.host, auxMailbox, 0⟩ :: log⟩ (busyCard n) = _
      rw [hcell]

/-- In every run with a card the code has returned after 7 accesses and 2 for each time the card
has set the mailbox or the line count, having written what it should.  No smaller number does. -/
theorem auxReset_returns :
    (∀ cell events t, run (HostDevice.step auxReset) (auxResetStart cell) events = some t →
      AuxResetRun events t) ∧
    ∀ n, ∃ cell events t, run (HostDevice.step auxReset) (auxResetStart cell) events = some t ∧
      auxStirs events = n ∧ accesses events = 6 + 2 * n ∧ t.pc ≠ .returned := by
  constructor
  · intro cell events t hrun
    have hwritten : (auxResetStart cell).pc.Written (hostWrites (auxResetStart cell).log) :=
      ⟨0, rfl⟩
    refine ⟨run_preserves (fun s e u h hstep => auxReset_written h hstep) hwritten hrun, ?_⟩
    intro hmany
    have hpaid := accesses_add_rank_le auxRank auxStir 2 (fun s e u => auxRank_step) hrun
    have hstart := auxRank_start cell
    unfold auxStirs at hmany
    exact returned_of_auxRank (by omega)
  · intro n
    obtain ⟨t, hrun, hpc⟩ := busyCard_run n []
    obtain ⟨haccesses, hstirs⟩ := busyCard_counts n
    exact ⟨_, busyCard n, t, hrun, hstirs, haccesses, by rw [hpc]; decide⟩

end Tl880
