import Mathlib.Data.List.Induction
import Gk7102.StepRuns

/-!
# Motion reports of the camera

`getMotionResult` works on the number of pixels that changed since the last processed
frame. A count above the upper threshold arms the detector, one below the lower
threshold then asks for a report, and a timer holds reports back. All values stay
within the integer ranges.
-/

namespace Gk7102.MotionDetect

open StepRuns

set_option autoImplicit false

structure MotionDetection where
  minThr : Int
  maxThr : Int
  numberOfChanges : Int
  /-- 0: before the upper threshold, 1: above it, 2 and more: below the lower one. -/
  state : Nat
  sendState : Nat
  serverWaitTime : Int
  lastSend : Bool
  compareTimer : Int
  lastTimer : Int
  lastMdTimer : Int
deriving DecidableEq, Repr

/-- A frame by the count `imageCompare` comes to and the clock when it arrives. -/
structure Frame where
  changes : Int
  now : Int
deriving DecidableEq, Repr

/-- The arguments of `initMotionDetection` that what follows depends on. -/
structure Settings where
  minThr : Int
  maxThr : Int
  cropRate : Int
  serverWaitTime : Int
  timer : Int
deriving DecidableEq, Repr

def initMotionDetection (settings : Settings) (nowTime : Int) : MotionDetection where
  minThr := (settings.minThr * (100 - settings.cropRate)).tdiv 100
  maxThr := (settings.maxThr * (100 - settings.cropRate)).tdiv 100
  numberOfChanges := 0
  state := 0
  sendState := 2
  serverWaitTime := settings.serverWaitTime
  lastSend := false
  compareTimer := settings.timer
  lastTimer := nowTime + settings.timer
  lastMdTimer := nowTime + settings.serverWaitTime

/-- The state a frame is judged in: a sent report is reset by the next frame. -/
def resetState (md : MotionDetection) : Nat :=
  if md.sendState ≤ md.state ∧ md.lastSend then 0 else md.state

def updateState (md : MotionDetection) : MotionDetection :=
  let state := resetState md
  if state = 0 ∧ md.maxThr < md.numberOfChanges then { md with state := 1 }
  else if state = 1 ∧ md.numberOfChanges < md.minThr then { md with state := 2 }
  else if 2 ≤ state then
    { md with state := if md.numberOfChanges < md.minThr then state + 1 else 1 }
  else { md with state := state }

def getResult (md : MotionDetection) : Bool := decide (md.sendState ≤ md.state)

/-- The image part of `setInputImage` leaves the count and calls `updateState`. -/
def setInputImage (md : MotionDetection) (changes : Int) : MotionDetection :=
  updateState { md with numberOfChanges := changes }

def getMotionResult (md : MotionDetection) (frame : Frame) : Int × MotionDetection :=
  if frame.now - md.lastTimer < md.compareTimer then (-1, md)
  else
    let md := setInputImage { md with lastTimer := frame.now } frame.changes
    if getResult md ∧ md.serverWaitTime ≤ frame.now - md.lastMdTimer then
      (1, { md with lastMdTimer := frame.now, lastSend := true })
    else (0, { md with lastSend := false })

def watch (md : MotionDetection) (frame : Frame) : MotionDetection := (getMotionResult md frame).2

def trace (md : MotionDetection) : List Frame → List (Frame × Int)
  | [] => []
  | frame :: rest => (frame, (getMotionResult md frame).1) :: trace (watch md frame) rest

/-! ## What the detector remembers -/

/-- A processed frame since the last report had a count above the threshold. -/
def Armed (maxThr : Int) (history : List (Frame × Int)) : Prop :=
  ∃ earlier entry later, history = earlier ++ entry :: later ∧ entry.2 ≠ -1 ∧
    maxThr < entry.1.changes ∧ ∀ other ∈ entry :: later, other.2 ≠ 1

/-- The clock of the last report, or the given one if there is none. -/
def lastReport (first : Int) (history : List (Frame × Int)) : Int :=
  history.foldl (fun last entry => if entry.2 = 1 then entry.1.now else last) first

theorem not_armed_nil (maxThr : Int) : ¬ Armed maxThr [] := by
  rintro ⟨earlier, entry, later, split, -⟩
  cases earlier <;> cases split

theorem armed_append (maxThr : Int) (history : List (Frame × Int)) (entry : Frame × Int) :
    Armed maxThr (history ++ [entry]) ↔
      entry.2 ≠ 1 ∧ (Armed maxThr history ∨ (entry.2 ≠ -1 ∧ maxThr < entry.1.changes)) := by
  constructor
  · rintro ⟨earlier, found, later, split, processed, above, silent⟩
    cases later using List.reverseRecOn with
    | nil =>
        obtain ⟨-, rfl⟩ := List.append_singleton_inj.mp split
        exact ⟨silent _ (by simp), .inr ⟨processed, above⟩⟩
    | append_singleton others last =>
        rw [← List.cons_append, ← List.append_assoc] at split
        obtain ⟨rfl, rfl⟩ := List.append_singleton_inj.mp split
        refine ⟨silent _ (by simp), .inl ⟨earlier, found, others, rfl, processed, above, ?_⟩⟩
        exact fun other member => silent other (by
          rw [← List.cons_append]
          exact List.mem_append_left _ member)
  · rintro ⟨silent, ⟨earlier, found, later, rfl, processed, above, before⟩ | ⟨processed, above⟩⟩
    · refine ⟨earlier, found, later ++ [entry], by simp, processed, above, ?_⟩
      intro other member
      rw [← List.cons_append] at member
      rcases List.mem_append.mp member with old | new
      · exact before other old
      · rw [List.mem_singleton.mp new]
        exact silent
    · refine ⟨history, entry, [], rfl, processed, above, ?_⟩
      intro other member
      rw [List.mem_singleton.mp member]
      exact silent

theorem last_report_append (first : Int) (history : List (Frame × Int)) (entry : Frame × Int) :
    lastReport first (history ++ [entry]) =
      if entry.2 = 1 then entry.1.now else lastReport first history := by
  simp only [lastReport, List.foldl_append, List.foldl_cons, List.foldl_nil]

theorem last_report_silent (first : Int) (history : List (Frame × Int))
    (silent : ∀ entry ∈ history, entry.2 ≠ 1) : lastReport first history = first := by
  induction history using List.reverseRecOn with
  | nil => rfl
  | append_singleton history entry ih =>
      rw [last_report_append, if_neg (silent entry (by simp)), ih]
      exact fun other member => silent other (List.mem_append_left _ member)

theorem last_report_split (first : Int) (earlier between : List (Frame × Int))
    {report : Frame × Int} (reported : report.2 = 1)
    (silent : ∀ entry ∈ between, entry.2 ≠ 1) :
    lastReport first (earlier ++ report :: between) = report.1.now := by
  rw [lastReport, List.foldl_append, List.foldl_cons, if_pos reported]
  exact last_report_silent report.1.now between silent

/-! ## One frame -/

section UpdateState

variable {md : MotionDetection}

theorem update_state_frame (md : MotionDetection) :
    (updateState md).minThr = md.minThr ∧ (updateState md).maxThr = md.maxThr ∧
      (updateState md).sendState = md.sendState ∧
      (updateState md).serverWaitTime = md.serverWaitTime ∧
      (updateState md).lastMdTimer = md.lastMdTimer := by
  unfold updateState
  grind

theorem update_state_moves (sends : md.sendState = 2) :
    getResult (updateState md) ↔ 1 ≤ resetState md ∧ md.numberOfChanges < md.minThr := by
  unfold getResult updateState
  grind

theorem update_state_armed :
    1 ≤ (updateState md).state ↔ 1 ≤ resetState md ∨ md.maxThr < md.numberOfChanges := by
  unfold updateState
  grind

end UpdateState

def judged (md : MotionDetection) (frame : Frame) : MotionDetection :=
  updateState { md with lastTimer := frame.now, numberOfChanges := frame.changes }

theorem judged_moves {md : MotionDetection} (sends : md.sendState = 2) (frame : Frame) :
    getResult (judged md frame) ↔ 1 ≤ resetState md ∧ frame.changes < md.minThr :=
  update_state_moves sends

/-- The detector was armed, the count is below the lower threshold and the timer has run out. -/
def Reports (md : MotionDetection) (frame : Frame) : Prop :=
  1 ≤ resetState md ∧ frame.changes < md.minThr ∧
    md.serverWaitTime ≤ frame.now - md.lastMdTimer

theorem motion_result_cases {md : MotionDetection} (sends : md.sendState = 2) (frame : Frame) :
    getMotionResult md frame = (-1, md) ∨
      (Reports md frame ∧ getMotionResult md frame =
        (1, { judged md frame with lastMdTimer := frame.now, lastSend := true })) ∨
      (¬ Reports md frame ∧ getMotionResult md frame =
        (0, { judged md frame with lastSend := false })) := by
  by_cases skipped : frame.now - md.lastTimer < md.compareTimer
  · left
    rw [getMotionResult, if_pos skipped]
  right
  obtain ⟨-, -, -, waits, timer⟩ := update_state_frame
    { md with lastTimer := frame.now, numberOfChanges := frame.changes }
  have reports : Reports md frame ↔ getResult (judged md frame) ∧
      (judged md frame).serverWaitTime ≤ frame.now - (judged md frame).lastMdTimer := by
    rw [judged_moves sends, judged, waits, timer, Reports, and_assoc]
  have result : getMotionResult md frame =
      if getResult (judged md frame) ∧
          (judged md frame).serverWaitTime ≤ frame.now - (judged md frame).lastMdTimer then
        (1, { judged md frame with lastMdTimer := frame.now, lastSend := true })
      else (0, { judged md frame with lastSend := false }) := by
    rw [getMotionResult, if_neg skipped]
    rfl
  by_cases report : Reports md frame
  · left
    exact ⟨report, result.trans (if_pos (reports.mp report))⟩
  · right
    exact ⟨report, result.trans (if_neg fun holds => report (reports.mpr holds))⟩

/-! ## Whole runs -/

/-- What the settings and the history so far make of the detector. -/
structure Remembers (settings : Settings) (start : Int) (md : MotionDetection)
    (history : List (Frame × Int)) : Prop where
  min_thr : md.minThr = (initMotionDetection settings start).minThr
  max_thr : md.maxThr = (initMotionDetection settings start).maxThr
  sends : md.sendState = 2
  wait_time : md.serverWaitTime = settings.serverWaitTime
  armed : 1 ≤ resetState md ↔ Armed md.maxThr history
  timer : md.lastMdTimer = lastReport (start + settings.serverWaitTime) history

theorem remembers_init (settings : Settings) (start : Int) :
    Remembers settings start (initMotionDetection settings start) [] where
  min_thr := rfl
  max_thr := rfl
  sends := rfl
  wait_time := rfl
  armed := ⟨fun reset => absurd reset (Nat.not_succ_le_zero 0),
    fun armed => absurd armed (not_armed_nil _)⟩
  timer := rfl

section MotionResult

variable {settings : Settings} {start : Int} {md : MotionDetection}
  {history : List (Frame × Int)} (remembers : Remembers settings start md history)

include remembers

/-- A processed frame is reported exactly when the detector was armed before it, its count is
below the lower threshold and the timer has run out. -/
theorem reported_iff {frame : Frame} (processed : (getMotionResult md frame).1 ≠ -1) :
    (getMotionResult md frame).1 = 1 ↔ frame.changes < md.minThr ∧ Armed md.maxThr history ∧
      md.serverWaitTime ≤ frame.now - md.lastMdTimer := by
  rw [← remembers.armed]
  rcases motion_result_cases remembers.sends frame with skipped | ⟨reports, result⟩ | ⟨silent, result⟩
  · rw [skipped] at processed
    exact absurd rfl processed
  · rw [result]
    exact ⟨fun _ => ⟨reports.2.1, reports.1, reports.2.2⟩, fun _ => rfl⟩
  · rw [result]
    exact ⟨fun same => absurd same Int.zero_ne_one,
      fun ⟨below, armed, waited⟩ => absurd ⟨armed, below, waited⟩ silent⟩

theorem remembers_watch (frame : Frame) :
    Remembers settings start (watch md frame)
      (history ++ [(frame, (getMotionResult md frame).1)]) := by
  obtain ⟨minThr, maxThr, sends, waits, timer⟩ := update_state_frame
    { md with lastTimer := frame.now, numberOfChanges := frame.changes }
  have armed : 1 ≤ (judged md frame).state ↔ 1 ≤ resetState md ∨ md.maxThr < frame.changes :=
    update_state_armed
  rw [watch]
  rcases motion_result_cases remembers.sends frame with result | ⟨reports, result⟩ | ⟨silent, result⟩
  · rw [result]
    refine ⟨remembers.min_thr, remembers.max_thr, remembers.sends, remembers.wait_time, ?_, ?_⟩
    · rw [armed_append, remembers.armed]
      simp
    · rw [last_report_append, if_neg (by simp), remembers.timer]
  · rw [result]
    refine ⟨minThr.trans remembers.min_thr, maxThr.trans remembers.max_thr,
      sends.trans remembers.sends, waits.trans remembers.wait_time, ?_, ?_⟩
    · have moved : getResult (judged md frame) :=
        (judged_moves remembers.sends frame).mpr ⟨reports.1, reports.2.1⟩
      have sent : resetState { judged md frame with
          lastMdTimer := frame.now, lastSend := true } = 0 := by
        rw [getResult, decide_eq_true_iff] at moved
        exact if_pos ⟨moved, rfl⟩
      rw [armed_append, sent]
      simp
    · rw [last_report_append, if_pos rfl]
  · rw [result]
    refine ⟨minThr.trans remembers.min_thr, maxThr.trans remembers.max_thr,
      sends.trans remembers.sends, waits.trans remembers.wait_time, ?_, ?_⟩
    · have unsent : resetState { judged md frame with lastSend := false } =
          (judged md frame).state := by
        simp [resetState]
      have same : (judged md frame).maxThr = md.maxThr := maxThr
      rw [armed_append, unsent, armed, remembers.armed, same]
      simp
    · rw [last_report_append, if_neg (by simp)]
      exact timer.trans remembers.timer

end MotionResult

theorem trace_append (md : MotionDetection) (before : List Frame) (frame : Frame) :
    trace md (before ++ [frame]) =
      trace md before ++ [(frame, (getMotionResult (run watch md before) frame).1)] := by
  induction before generalizing md with
  | nil => rfl
  | cons first rest ih =>
      simp only [List.cons_append, trace, run_cons]
      rw [ih]

section Runs

variable (settings : Settings) (start : Int) (before : List Frame)

def detectorAfter : MotionDetection := run watch (initMotionDetection settings start) before

def historyAfter : List (Frame × Int) := trace (initMotionDetection settings start) before

def resultAfter (frame : Frame) : Int :=
  (getMotionResult (detectorAfter settings start before) frame).1

theorem remembers_run :
    Remembers settings start (detectorAfter settings start before)
      (historyAfter settings start before) := by
  induction before using List.reverseRecOn with
  | nil => exact remembers_init settings start
  | append_singleton before frame ih =>
      rw [detectorAfter, historyAfter, trace_append, run_append]
      exact remembers_watch ih frame

/-- The exact frames at which a run reports, how far apart its reports are, and how early
the first can come. -/
theorem motion_reports (frame : Frame) :
    (resultAfter settings start before frame ≠ -1 →
      (resultAfter settings start before frame = 1 ↔
        frame.changes < (initMotionDetection settings start).minThr ∧
        Armed (initMotionDetection settings start).maxThr (historyAfter settings start before) ∧
        settings.serverWaitTime ≤
          frame.now - (detectorAfter settings start before).lastMdTimer)) ∧
    (∀ earlier report between,
      historyAfter settings start before = earlier ++ report :: between → report.2 = 1 →
      (∀ entry ∈ between, entry.2 ≠ 1) → resultAfter settings start before frame = 1 →
      settings.serverWaitTime ≤ frame.now - report.1.now) ∧
    ((∀ entry ∈ historyAfter settings start before, entry.2 ≠ 1) →
      resultAfter settings start before frame = 1 →
      start + 2 * settings.serverWaitTime ≤ frame.now) := by
  have remembers := remembers_run settings start before
  have exact_frames : resultAfter settings start before frame ≠ -1 → _ :=
    reported_iff remembers
  rw [remembers.min_thr, remembers.max_thr, remembers.wait_time] at exact_frames
  have waited : resultAfter settings start before frame = 1 → settings.serverWaitTime ≤
      frame.now - lastReport (start + settings.serverWaitTime)
        (historyAfter settings start before) := by
    intro reported
    rw [← remembers.timer]
    exact ((exact_frames (by rw [reported]; decide)).mp reported).2.2
  refine ⟨exact_frames, ?_, ?_⟩
  · intro earlier report between split sent silent reported
    have timer := waited reported
    rwa [split, last_report_split _ _ _ sent silent] at timer
  · intro silent reported
    have timer := waited reported
    rw [last_report_silent _ _ silent] at timer
    omega

/-- Movement at 10, rest at 20 but too early, rest again at 40. -/
theorem motion_reports_at_rest :
    let settings : Settings := ⟨10, 100, 0, 15, 1⟩
    let before : List Frame := [⟨200, 10⟩, ⟨5, 20⟩]
    (historyAfter settings 0 before).map Prod.snd = [0, 0] ∧
      resultAfter settings 0 before ⟨5, 40⟩ = 1 ∧
      Armed (initMotionDetection settings 0).maxThr (historyAfter settings 0 before) ∧
      0 + 2 * settings.serverWaitTime ≤ 40 := by
  intro settings before
  have reported : resultAfter settings 0 before ⟨5, 40⟩ = 1 := by decide
  have silent : ∀ entry ∈ historyAfter settings 0 before, entry.2 ≠ 1 := by decide
  have reports := motion_reports settings 0 before ⟨5, 40⟩
  have exact_frames := reports.1 (by rw [reported]; decide)
  exact ⟨by decide, reported, (exact_frames.mp reported).2.1, reports.2.2 silent reported⟩

end Runs

end Gk7102.MotionDetect
