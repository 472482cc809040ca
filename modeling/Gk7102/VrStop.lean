import Gk7102.VrLogic

/-!
# Stopping the voice logic thread

`ray_vr_stop` clears the working flag and sets the stop flag of both stages, but each
stage clears its own stop flag when it starts. A stage that the logic thread had already
chosen when the stop came takes the request back.
-/

namespace Gk7102.VrStop

open StepRuns VrLogic

set_option autoImplicit false

/-- The logic thread has begun a record loop iteration with the loop's stop flag cleared. -/
def RecordsUnstopped (vr : Vr) : Prop :=
  (vr.pc = .aecRecord ∧ vr.aecStopFlag = false) ∨ (vr.pc = .asrRecord ∧ vr.asrStopFlag = false)

def StopKept (vr : Vr) : Prop := vr.stopped → ¬ RecordsUnstopped vr

/-- A stop that no start has followed has set `aec_stop_flag`. -/
def AecAsked (vr : Vr) : Prop := vr.control = .aecSet ∨ vr.stopped

/-- A stop that no start has followed has set `asr_stop_flag`. -/
def AsrAsked (vr : Vr) : Prop := vr.stopped

/-- No stage clears its stop flag after a stop has set it. -/
def ResetsInTime (vr : Vr) : Op → Prop
  | .logic _ _ => (vr.pc = .aecReset → ¬ AecAsked vr) ∧ (vr.pc = .asrResetStop → ¬ AsrAsked vr)
  | _ => True

structure FlagsKept (vr : Vr) : Prop where
  aec : AecAsked vr → vr.aecStopFlag
  asr : AsrAsked vr → vr.asrStopFlag

theorem flags_kept_logic {vr : Vr} (kept : FlagsKept vr) {opened : Bool} {reply : VrTarget}
    (inTime : ResetsInTime vr (.logic opened reply)) :
    FlagsKept (vr.logicStep opened reply) := by
  obtain ⟨sameControl, sameStopped, -⟩ := vr.logic_step_frame opened reply
  constructor
  · intro asked
    rw [AecAsked, sameControl, sameStopped] at asked
    have elsewhere : vr.pc ≠ .aecReset := fun here => inTime.1 here asked
    rw [Vr.logic_step_aec_stop_flag vr opened reply elsewhere]
    exact kept.aec asked
  · intro asked
    rw [AsrAsked, sameStopped] at asked
    have elsewhere : vr.pc ≠ .asrResetStop := fun here => inTime.2 here asked
    rw [Vr.logic_step_asr_stop_flag vr opened reply elsewhere]
    exact kept.asr asked

theorem flags_kept_post {vr : Vr} (kept : FlagsKept vr) (reply : VrTarget) :
    FlagsKept (vr.callbackFromVr reply) := by
  have aec := kept.aec
  have asr := kept.asr
  constructor <;> unfold Vr.callbackFromVr <;> grind [AecAsked, AsrAsked]

theorem flags_kept_control {vr : Vr} (kept : FlagsKept vr) : FlagsKept vr.controlStep := by
  have aec := kept.aec
  have asr := kept.asr
  constructor <;> unfold Vr.controlStep <;> grind [AecAsked, AsrAsked]

theorem flags_kept_step (vr : Vr) (op : Op) (kept : FlagsKept vr) (inTime : ResetsInTime vr op) :
    FlagsKept (step vr op) := by
  have aec := kept.aec
  have asr := kept.asr
  cases op with
  | logic opened reply => exact flags_kept_logic kept inTime
  | store info => exact ⟨aec, asr⟩
  | post reply => exact flags_kept_post kept reply
  | start => constructor <;> unfold step Vr.startCall <;> grind [AecAsked, AsrAsked]
  | stop => constructor <;> unfold step Vr.stopCall <;> grind [AecAsked, AsrAsked]
  | control => exact flags_kept_control kept
  | uninit => exact ⟨aec, asr⟩

theorem stop_kept_of_flags_kept (vr : Vr) (kept : FlagsKept vr) : StopKept vr := by
  rintro stopped (⟨-, cleared⟩ | ⟨-, cleared⟩)
  · rw [kept.aec (.inr stopped)] at cleared
    cases cleared
  · rw [kept.asr stopped] at cleared
    cases cleared

theorem flags_kept_initial (callback : Bool) : FlagsKept (Vr.initial callback) := by
  constructor
  · rintro (setting | stopped)
    · cases setting
    · cases stopped
  · intro stopped
    cases stopped

/-- A stop is never lost in a run in which no stage clears its stop flag late. -/
theorem stop_kept_of_resets_in_time (callback : Bool) (ops : List Op)
    (inTime : EveryStep step ResetsInTime (Vr.initial callback) ops) :
    AlongRun step StopKept (Vr.initial callback) ops :=
  along_run_of_every_step stop_kept_of_flags_kept flags_kept_step _
    (flags_kept_initial callback) ops inTime

/-- From the head of a stage whose request to stop has been made, the device opens, no
event comes and the record loop is entered. -/
theorem aec_records_after_reset {vr : Vr} (head : vr.pc = .aecReset) (stopped : vr.stopped)
    (opened : Bool) (reply : VrTarget) :
    ¬ StopKept (run step vr [.logic opened reply, .logic true reply, .logic true reply]) := by
  intro kept
  apply kept
  · simp [run, step, Vr.logicStep, Vr.goto, head, stopped]
  · left
    simp [run, step, Vr.logicStep, Vr.goto, head]

theorem asr_records_after_reset {vr : Vr} (head : vr.pc = .asrResetStop) (stopped : vr.stopped)
    (opened : Bool) (reply : VrTarget) :
    ¬ StopKept (run step vr [.logic opened reply, .logic true reply, .logic true reply,
      .logic true reply, .logic true reply, .logic true reply]) := by
  intro kept
  apply kept
  · simp [run, step, Vr.logicStep, Vr.goto, head, stopped]
  · right
    simp [run, step, Vr.logicStep, Vr.goto, head]

theorem aec_records_after_half_stop {vr : Vr} (head : vr.pc = .aecReset)
    (setting : vr.control = .aecSet) (opened : Bool) (reply : VrTarget) :
    ¬ StopKept (run step vr [.logic opened reply, .control, .logic true reply,
      .logic true reply]) := by
  intro kept
  apply kept
  · simp [run, step, Vr.logicStep, Vr.controlStep, Vr.goto, head, setting]
  · left
    simp [run, step, Vr.logicStep, Vr.controlStep, Vr.goto, head, setting]

/-- Every late reset can lose the stop. -/
theorem stop_can_be_lost_of_late_reset (vr : Vr) (op : Op) (late : ¬ ResetsInTime vr op) :
    ∃ later, ¬ StopKept (run step vr (op :: later)) := by
  cases op with
  | logic opened reply =>
      rw [ResetsInTime, not_and_or] at late
      rcases late with aec | asr
      · obtain ⟨head, setting | stopped⟩ : vr.pc = .aecReset ∧ AecAsked vr := by
          simpa only [Classical.not_imp, not_not] using aec
        · exact ⟨_, aec_records_after_half_stop head setting opened reply⟩
        · exact ⟨_, aec_records_after_reset head stopped opened reply⟩
      · obtain ⟨head, stopped⟩ : vr.pc = .asrResetStop ∧ AsrAsked vr := by
          simpa only [Classical.not_imp, not_not] using asr
        exact ⟨_, asr_records_after_reset head stopped opened reply⟩
  | store | post | start | stop | control | uninit => exact absurd trivial late

/-- A stop that comes while the AEC stage records is obeyed at the next test. -/
theorem stop_kept_while_recording : AlongRun step StopKept (Vr.initial true)
    [.start, .control, .logic true .toAec, .logic true .toAec, .logic true .toAec,
      .logic true .toAec, .logic true .toAec, .logic true .toAec,
      .stop, .control, .control, .control, .logic true .toAec, .logic true .toAec] := by
  apply stop_kept_of_resets_in_time
  simp [EveryStep, ResetsInTime, AecAsked, AsrAsked, step, Vr.initial, Vr.startCall,
    Vr.stopCall, Vr.controlStep, Vr.logicStep, Vr.dispatch, Vr.goto]

/-- The controller starts, and stops when the logic thread has chosen the AEC stage but
has not yet cleared its stop flag. -/
def stopBeforeReset : List Op :=
  [.start, .control, .logic true .toAec, .logic true .toAec, .logic true .toAec,
    .stop, .control, .control, .control,
    .logic true .toAec, .logic true .toAec, .logic true .toAec]

theorem stop_lost : ¬ ∀ callback ops, AlongRun step StopKept (Vr.initial callback) ops := by
  intro every
  have reached := along_run_iff_prefixes _ _ |>.mp (every true stopBeforeReset) stopBeforeReset
    (List.prefix_refl _)
  exact reached rfl (.inl ⟨rfl, rfl⟩)

end Gk7102.VrStop
