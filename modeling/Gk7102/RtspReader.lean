import Mathlib.Data.List.Basic
import Gk7102.StepRuns

/-!
# Starting and stopping the video reader

`rtsp_server_start` and `rtsp_server_stop` are called one after the other; the
`read_video_data` threads run in between, one step of any thread at a time.
`rtsp_start`, `rtsp_exit` and the creation of threads succeed. A stop clears
`read_video_loop` first and then tests it to decide whether to wait for the reader.
-/

namespace Gk7102.RtspReader

open Gk7102.StepRuns

set_option autoImplicit false

/-- What a reader does next. A reader that finds `read_video_loop` cleared at the head of
its loop has ended. -/
inductive ReaderPhase where
  | loopTest
  | handleTest
  | flagTest
  | handleSleep
  | query
  | getStream
  | captureTest
  | capture
  | idleSleep
  | ended
deriving DecidableEq, Repr

/-- What the calls of a reader come to: whether there is an encoder handle, whether a stream
is being encoded, and whether a frame was read. -/
structure Answers where
  vencHandle : Bool
  encodingState : Bool
  frameRead : Bool
deriving DecidableEq, Repr

/-- The control state of the caller. The calls of a start and a stop in progress are numbered
by the statement that comes next. -/
inductive CallerPhase where
  | idle
  | startSetLoop
  | startCreate
  | startSetStarted
  | started
  | stopClearLoop
  | stopExit
  | stopTestLoop
  | stopClearAgain
  | stopWait
  | stopClearStarted
  | stopped
deriving DecidableEq, Repr

structure Rtsp where
  gRtspStart : Bool
  readVideoLoop : Bool
  readVideoDataPid : Option Nat
  readers : List ReaderPhase
  caller : CallerPhase
deriving DecidableEq, Repr

def Rtsp.initial : Rtsp where
  gRtspStart := false
  readVideoLoop := false
  readVideoDataPid := none
  readers := []
  caller := .idle

/-- One step of `read_video_data`, which sees `read_video_loop` as it is now. -/
def readVideoData (readVideoLoop : Bool) (answers : Answers) : ReaderPhase → ReaderPhase
  | .loopTest => if readVideoLoop then .handleTest else .ended
  | .handleTest => if answers.vencHandle then .query else .flagTest
  | .flagTest => if readVideoLoop then .handleSleep else .query
  | .handleSleep => .handleTest
  | .query => if answers.encodingState then .getStream else .idleSleep
  | .getStream => if answers.frameRead then .captureTest else .loopTest
  | .captureTest => if readVideoLoop then .capture else .loopTest
  | .capture => .loopTest
  | .idleSleep => .loopTest
  | .ended => .ended

def Rtsp.CallerFree (rtsp : Rtsp) : Prop :=
  rtsp.caller = .idle ∨ rtsp.caller = .started ∨ rtsp.caller = .stopped

instance (rtsp : Rtsp) : Decidable rtsp.CallerFree :=
  inferInstanceAs (Decidable (_ ∨ _ ∨ _))

/-- A start while the server is started returns at once. -/
def rtspServerStart (rtsp : Rtsp) : Rtsp :=
  if rtsp.gRtspStart then { rtsp with caller := .started }
  else { rtsp with caller := .startSetLoop }

/-- So does a stop while it is not. -/
def rtspServerStop (rtsp : Rtsp) : Rtsp :=
  if rtsp.gRtspStart = false then { rtsp with caller := .stopped }
  else { rtsp with caller := .stopClearLoop }

/-- `gadi_sys_wait_end_thread` goes on once this thread has ended. -/
def Rtsp.hasEnded (rtsp : Rtsp) (pid : Option Nat) : Bool :=
  match pid with
  | none => true
  | some thread => rtsp.readers[thread]? = some .ended

/-- The next statement of the call in progress. -/
def callerStep (rtsp : Rtsp) : Rtsp :=
  match rtsp.caller with
  | .startSetLoop => { rtsp with readVideoLoop := true, caller := .startCreate }
  | .startCreate => { rtsp with
      readers := rtsp.readers ++ [.loopTest]
      readVideoDataPid := some rtsp.readers.length
      caller := .startSetStarted }
  | .startSetStarted => { rtsp with gRtspStart := true, caller := .started }
  | .stopClearLoop => { rtsp with readVideoLoop := false, caller := .stopExit }
  | .stopExit => { rtsp with caller := .stopTestLoop }
  | .stopTestLoop =>
      if rtsp.readVideoLoop then { rtsp with caller := .stopClearAgain }
      else { rtsp with caller := .stopClearStarted }
  | .stopClearAgain => { rtsp with readVideoLoop := false, caller := .stopWait }
  | .stopWait =>
      if rtsp.hasEnded rtsp.readVideoDataPid then { rtsp with caller := .stopClearStarted }
      else rtsp
  | .stopClearStarted => { rtsp with gRtspStart := false, caller := .stopped }
  | _ => rtsp

inductive Op where
  | start
  | stop
  | caller
  | reader (thread : Nat) (answers : Answers)
deriving DecidableEq, Repr

/-- A call begins when the last one has returned. A thread that is not there does nothing. -/
def step (rtsp : Rtsp) : Op → Rtsp
  | .start => if rtsp.CallerFree then rtspServerStart rtsp else rtsp
  | .stop => if rtsp.CallerFree then rtspServerStop rtsp else rtsp
  | .caller => callerStep rtsp
  | .reader thread answers =>
      match rtsp.readers[thread]? with
      | none => rtsp
      | some phase => { rtsp with
          readers := rtsp.readers.set thread (readVideoData rtsp.readVideoLoop answers phase) }

def isAlive (phase : ReaderPhase) : Bool := phase != .ended

/-- The number of readers that have not ended. -/
def Rtsp.alive (rtsp : Rtsp) : Nat := rtsp.readers.countP isAlive

/-- At most one reader, and none once a stop has returned. -/
structure ReaderUnique (rtsp : Rtsp) : Prop where
  single : rtsp.alive ≤ 1
  gone : rtsp.caller = .stopped → rtsp.alive = 0

/-! ## The schedule -/

def Rtsp.living (rtsp : Rtsp) : List Nat :=
  (List.range rtsp.readers.length).filter fun thread => rtsp.readers[thread]? ≠ some .ended

/-- A run, with the readers that have not made the test at the head of their loop since a stop
cleared `read_video_loop`. -/
structure Watch where
  rtsp : Rtsp
  untested : List Nat
deriving DecidableEq, Repr

def Watch.initial : Watch := ⟨.initial, []⟩

/-- Every living reader has to make its test once the flag is cleared, and has made it when it
takes a step from the head of its loop. -/
def stillUntested (watch : Watch) : Op → List Nat
  | .caller =>
      if watch.rtsp.caller = .stopClearLoop then watch.rtsp.living else watch.untested
  | .reader thread _ =>
      if watch.rtsp.readers[thread]? = some .loopTest then
        watch.untested.filter (· ≠ thread)
      else watch.untested
  | _ => watch.untested

def watchStep (watch : Watch) (op : Op) : Watch :=
  ⟨step watch.rtsp op, stillUntested watch op⟩

/-- When a stop comes to its last statement, every reader that lived when it cleared
`read_video_loop` has made its test. -/
def TestsInTime (watch : Watch) (op : Op) : Prop :=
  op = .caller → watch.rtsp.caller = .stopClearStarted → watch.untested = []

/-- Statements of a stop that has found the server started. -/
def InStop (phase : CallerPhase) : Prop :=
  phase = .stopClearLoop ∨ phase = .stopExit ∨ phase = .stopTestLoop ∨
    phase = .stopClearAgain ∨ phase = .stopWait ∨ phase = .stopClearStarted

/-- The inductive form: without a started server, and without one being started, there is no
reader. -/
structure ReaderLaw (rtsp : Rtsp) : Prop where
  single : rtsp.alive ≤ 1
  unstarted : rtsp.gRtspStart = false → rtsp.caller ≠ .startSetStarted → rtsp.alive = 0
  starting : rtsp.caller = .startSetLoop ∨ rtsp.caller = .startCreate ∨
    rtsp.caller = .startSetStarted → rtsp.gRtspStart = false
  stopping : InStop rtsp.caller → rtsp.gRtspStart = true
  returned : rtsp.caller = .stopped → rtsp.gRtspStart = false

section Readers

theorem reader_stays_ended (loop : Bool) (answers : Answers) (phase : ReaderPhase)
    (alive : isAlive (readVideoData loop answers phase) = true) : isAlive phase = true := by
  cases phase with
  | ended => exact alive
  | _ => rfl

theorem reader_step_alive (rtsp : Rtsp) (thread : Nat) (answers : Answers) :
    (step rtsp (.reader thread answers)).alive ≤ rtsp.alive := by
  simp only [step]
  cases found : rtsp.readers[thread]? with
  | none => exact Nat.le_refl _
  | some phase =>
      rcases List.getElem?_eq_some_iff.mp found with ⟨within, here⟩
      simp only [Rtsp.alive, List.countP_set within, here]
      cases alive : isAlive phase with
      | true =>
          have counted : 0 < rtsp.readers.countP isAlive :=
            List.countP_pos_iff.mpr ⟨phase, List.mem_of_getElem? found, alive⟩
          rw [if_pos rfl]
          split <;> omega
      | false =>
          have dead : isAlive (readVideoData rtsp.readVideoLoop answers phase) = false := by
            by_contra back
            have stays := reader_stays_ended rtsp.readVideoLoop answers phase (by simpa using back)
            rw [alive] at stays
            exact absurd stays (by decide)
          rw [dead]
          exact Nat.le_refl _

theorem reader_step_frame (rtsp : Rtsp) (thread : Nat) (answers : Answers) :
    (step rtsp (.reader thread answers)).gRtspStart = rtsp.gRtspStart ∧
      (step rtsp (.reader thread answers)).readVideoLoop = rtsp.readVideoLoop ∧
      (step rtsp (.reader thread answers)).caller = rtsp.caller := by
  simp only [step]
  split <;> exact ⟨rfl, rfl, rfl⟩

end Readers

theorem law_unique (rtsp : Rtsp) (law : ReaderLaw rtsp) : ReaderUnique rtsp where
  single := law.single
  gone stopped := law.unstarted (law.returned stopped) (by rw [stopped]; decide)

theorem initial_law : ReaderLaw Rtsp.initial where
  single := by decide
  unstarted := by decide
  starting := by decide
  stopping stop := by simp [InStop, Rtsp.initial] at stop
  returned := by decide

/-- While the server is started, a caller that is neither starting it nor back from a stop has
only the number of readers to keep. -/
theorem started_law (rtsp : Rtsp) (single : rtsp.alive ≤ 1) (present : rtsp.gRtspStart = true)
    (elsewhere : rtsp.caller ∉
      [CallerPhase.startSetLoop, .startCreate, .startSetStarted, .stopped]) :
    ReaderLaw rtsp := by
  simp only [List.mem_cons, List.not_mem_nil, or_false, not_or] at elsewhere
  constructor
  · exact single
  · intro unstarted
    rw [present] at unstarted
    cases unstarted
  · intro starting
    simp [elsewhere] at starting
  · intro stopping
    exact present
  · intro returned
    exact absurd returned elsewhere.2.2.2

theorem reader_law_step (rtsp : Rtsp) (thread : Nat) (answers : Answers) (law : ReaderLaw rtsp) :
    ReaderLaw (step rtsp (.reader thread answers)) := by
  have fewer := reader_step_alive rtsp thread answers
  rcases reader_step_frame rtsp thread answers with ⟨sameStart, -, sameCaller⟩
  constructor
  · exact Nat.le_trans fewer law.single
  · rw [sameStart, sameCaller]
    intro unstarted elsewhere
    have none_left := law.unstarted unstarted elsewhere
    omega
  · rw [sameStart, sameCaller]
    exact law.starting
  · rw [sameStart, sameCaller]
    exact law.stopping
  · rw [sameStart, sameCaller]
    exact law.returned

theorem start_law (rtsp : Rtsp) (law : ReaderLaw rtsp) (free : rtsp.CallerFree) :
    ReaderLaw (rtspServerStart rtsp) := by
  have elsewhere : rtsp.caller ≠ .startSetStarted := by
    rcases free with here | here | here <;> rw [here] <;> decide
  unfold rtspServerStart
  split
  · rename_i already
    exact started_law _ law.single already (by simp)
  · rename_i unstarted
    have cleared : rtsp.gRtspStart = false := by simpa using unstarted
    exact ⟨law.single, fun _ _ => law.unstarted cleared elsewhere, fun _ => cleared,
      by simp [InStop], by simp⟩

theorem stop_law (rtsp : Rtsp) (law : ReaderLaw rtsp) (free : rtsp.CallerFree) :
    ReaderLaw (rtspServerStop rtsp) := by
  have elsewhere : rtsp.caller ≠ .startSetStarted := by
    rcases free with here | here | here <;> rw [here] <;> decide
  unfold rtspServerStop
  split
  · rename_i cleared
    exact ⟨law.single, fun _ _ => law.unstarted cleared elsewhere, by simp, by simp [InStop],
      fun _ => cleared⟩
  · rename_i present
    have already : rtsp.gRtspStart = true := by simpa using present
    exact started_law _ law.single already (by simp)

/-- The only statement of a call that can break the law is the last one of a stop. -/
theorem caller_law (rtsp : Rtsp) (law : ReaderLaw rtsp)
    (nobody : rtsp.caller = .stopClearStarted → rtsp.alive = 0) :
    ReaderLaw (callerStep rtsp) := by
  have single := law.single
  unfold callerStep
  cases here : rtsp.caller with
  | startSetLoop =>
      have cleared := law.starting (Or.inl here)
      have nobody := law.unstarted cleared (by rw [here]; decide)
      exact ⟨single, fun _ _ => nobody, fun _ => cleared, by simp [InStop], by simp⟩
  | startCreate =>
      have cleared := law.starting (Or.inr (Or.inl here))
      have nobody := law.unstarted cleared (by rw [here]; decide)
      refine ⟨?_, by simp, fun _ => cleared, by simp [InStop], by simp⟩
      simp only [Rtsp.alive] at nobody ⊢
      rw [List.countP_append, nobody]
      decide
  | startSetStarted => exact ⟨single, by simp, by simp, by simp [InStop], by simp⟩
  | stopClearStarted =>
      exact ⟨single, fun _ _ => nobody here, by simp, by simp [InStop], fun _ => rfl⟩
  | stopTestLoop =>
      have present := law.stopping (by simp [InStop, here])
      dsimp only
      split
      · exact started_law _ single present (by simp)
      · exact started_law _ single present (by simp)
  | stopWait =>
      have present := law.stopping (by simp [InStop, here])
      dsimp only
      split
      · exact started_law _ single present (by simp)
      · exact law
  | stopClearLoop | stopExit | stopClearAgain =>
      have present := law.stopping (by simp [InStop, here])
      exact started_law _ single present (by simp)
  | idle | started | stopped => exact law

theorem step_law (rtsp : Rtsp) (op : Op) (law : ReaderLaw rtsp)
    (nobody : op = .caller → rtsp.caller = .stopClearStarted → rtsp.alive = 0) :
    ReaderLaw (step rtsp op) := by
  cases op with
  | start =>
      rw [step]
      split
      · exact start_law rtsp law ‹_›
      · exact law
  | stop =>
      rw [step]
      split
      · exact stop_law rtsp law ‹_›
      · exact law
  | caller => exact caller_law rtsp law (nobody rfl)
  | reader thread answers => exact reader_law_step rtsp thread answers law

section Schedule

def Cleared (phase : CallerPhase) : Prop :=
  phase = .stopExit ∨ phase = .stopTestLoop ∨ phase = .stopClearAgain ∨ phase = .stopWait ∨
    phase = .stopClearStarted

theorem mem_living (rtsp : Rtsp) (thread : Nat) :
    thread ∈ rtsp.living ↔
      ∃ phase, rtsp.readers[thread]? = some phase ∧ isAlive phase = true := by
  rw [Rtsp.living, List.mem_filter, List.mem_range]
  constructor
  · intro both
    rcases both with ⟨within, alive⟩
    refine ⟨rtsp.readers[thread], List.getElem?_eq_getElem within, ?_⟩
    rw [List.getElem?_eq_getElem within] at alive
    simpa [isAlive] using alive
  · intro there
    rcases there with ⟨phase, found, alive⟩
    refine ⟨(List.getElem?_eq_some_iff.mp found).1, ?_⟩
    rw [found]
    simpa [isAlive] using alive

theorem alive_zero_iff (rtsp : Rtsp) : rtsp.alive = 0 ↔ rtsp.living = [] := by
  rw [Rtsp.alive, List.countP_eq_zero, List.eq_nil_iff_forall_not_mem]
  constructor
  · intro every thread member
    rcases (mem_living rtsp thread).mp member with ⟨phase, found, alive⟩
    exact every phase (List.mem_of_getElem? found) alive
  · intro nobody phase member alive
    rcases List.getElem?_of_mem member with ⟨thread, found⟩
    exact nobody thread ((mem_living rtsp thread).mpr ⟨phase, found, alive⟩)

theorem cleared_reader_alive (answers : Answers) (phase : ReaderPhase) :
    isAlive (readVideoData false answers phase) = true ↔
      isAlive phase = true ∧ phase ≠ .loopTest := by
  rcases answers with ⟨handle, encoding, read⟩
  cases phase <;> cases handle <;> cases encoding <;> cases read <;> decide

/-- From the statement that clears the flag on, the readers that live are those that have not
made their test. -/
structure Watch.Sound (watch : Watch) : Prop where
  clear : Cleared watch.rtsp.caller → watch.rtsp.readVideoLoop = false
  untested : Cleared watch.rtsp.caller →
    ∀ thread, thread ∈ watch.untested ↔ thread ∈ watch.rtsp.living

theorem Watch.Sound.of_not_cleared {watch : Watch} (elsewhere : ¬ Cleared watch.rtsp.caller) :
    watch.Sound :=
  ⟨fun cleared => absurd cleared elsewhere, fun cleared => absurd cleared elsewhere⟩

theorem reader_living {rtsp : Rtsp} {thread : Nat} {phase : ReaderPhase} (answers : Answers)
    (found : rtsp.readers[thread]? = some phase) (clear : rtsp.readVideoLoop = false)
    (other : Nat) :
    other ∈ (step rtsp (.reader thread answers)).living ↔
      other ∈ rtsp.living ∧ (other = thread → phase ≠ .loopTest) := by
  rcases List.getElem?_eq_some_iff.mp found with ⟨within, -⟩
  have stepped : (step rtsp (.reader thread answers)).readers =
      rtsp.readers.set thread (readVideoData false answers phase) := by
    rw [step, found, ← clear]
  rw [mem_living, mem_living, stepped]
  by_cases same : other = thread
  · rw [same, List.getElem?_set_self within, found]
    simp only [Option.some.injEq, exists_eq_left', forall_true_left]
    exact cleared_reader_alive answers phase
  · rw [List.getElem?_set_ne (Ne.symm same)]
    exact (and_iff_left fun this => absurd this same).symm

theorem reader_sound {watch : Watch} (sound : watch.Sound) (thread : Nat) (answers : Answers) :
    (watchStep watch (.reader thread answers)).Sound := by
  rcases reader_step_frame watch.rtsp thread answers with ⟨-, sameLoop, sameCaller⟩
  cases found : watch.rtsp.readers[thread]? with
  | none =>
      have same : watchStep watch (.reader thread answers) = watch := by
        rw [watchStep, stillUntested, step, found, if_neg (by simp)]
      rw [same]
      exact sound
  | some phase =>
      constructor
      · rw [watchStep, sameLoop, sameCaller]
        exact sound.clear
      · intro cleared other
        rw [watchStep, sameCaller] at cleared
        rw [watchStep, reader_living answers found (sound.clear cleared),
          ← sound.untested cleared, stillUntested, found]
        by_cases test : phase = .loopTest
        · rw [if_pos (by rw [test]), List.mem_filter, decide_eq_true_iff, test]
          simp
        · rw [if_neg fun same => test (Option.some.inj same)]
          exact (and_iff_left fun _ => test).symm

theorem caller_sound {watch : Watch} (sound : watch.Sound) :
    (watchStep watch .caller).Sound := by
  dsimp only [watchStep, stillUntested, step]
  by_cases first : watch.rtsp.caller = .stopClearLoop
  · simp only [callerStep, first, if_true]
    exact ⟨fun _ => rfl, fun _ _ => Iff.rfl⟩
  · rw [if_neg first, callerStep]
    cases here : watch.rtsp.caller with
    | stopClearLoop => exact absurd here first
    | stopExit | stopTestLoop | stopClearAgain | stopWait =>
        have cleared : Cleared watch.rtsp.caller := by simp [Cleared, here]
        have clear := sound.clear cleared
        have untested := sound.untested cleared
        dsimp only
        first
          | exact ⟨fun _ => clear, fun _ => untested⟩
          | exact ⟨fun _ => rfl, fun _ => untested⟩
          | split <;> exact ⟨fun _ => clear, fun _ => untested⟩
    | _ => exact .of_not_cleared (by simp [Cleared, here])

theorem watch_sound_step (watch : Watch) (op : Op) (sound : watch.Sound) :
    (watchStep watch op).Sound := by
  cases op with
  | start =>
      dsimp only [watchStep, stillUntested, step]
      rw [rtspServerStart]
      split
      · split <;> exact .of_not_cleared (by simp [Cleared])
      · exact sound
  | stop =>
      dsimp only [watchStep, stillUntested, step]
      rw [rtspServerStop]
      split
      · split <;> exact .of_not_cleared (by simp [Cleared])
      · exact sound
  | caller => exact caller_sound sound
  | reader thread answers => exact reader_sound sound thread answers

/-- At the last statement of a stop all readers have ended exactly when all have made their
test. -/
theorem Watch.Sound.all_ended {watch : Watch} (sound : watch.Sound)
    (here : watch.rtsp.caller = .stopClearStarted) :
    watch.rtsp.alive = 0 ↔ watch.untested = [] := by
  have same := sound.untested (by simp [Cleared, here])
  rw [alive_zero_iff, List.eq_nil_iff_forall_not_mem, List.eq_nil_iff_forall_not_mem]
  exact forall_congr' fun thread => not_congr (same thread).symm

end Schedule

theorem late_test_leaves_reader (watch : Watch) (op : Op) (sound : watch.Sound)
    (late : ¬ TestsInTime watch op) : ¬ ReaderUnique (watchStep watch op).rtsp := by
  rw [TestsInTime, not_forall] at late
  rcases late with ⟨rfl, late⟩
  rw [not_forall] at late
  rcases late with ⟨here, untested⟩
  intro unique
  have returned : (watchStep watch .caller).rtsp.caller = .stopped := by
    simp only [watchStep, step, callerStep, here]
  have nobody := unique.gone returned
  have same : (watchStep watch .caller).rtsp.alive = watch.rtsp.alive := by
    simp only [watchStep, step, callerStep, here, Rtsp.alive]
  rw [same] at nobody
  exact untested ((sound.all_ended here).mp nobody)

/-- In every run there is at most one reader, and none once a stop has returned, exactly when
between the statement of a stop that clears `read_video_loop` and its last one every living
reader makes the test at the head of its loop. -/
theorem reader_unique_along_run (ops : List Op) :
    AlongRun step ReaderUnique Rtsp.initial ops ↔
      EveryStep watchStep TestsInTime Watch.initial ops := by
  have view := @along_run_of_view _ _ watchStep _ step Watch.rtsp ReaderUnique
    (fun _ _ => rfl) Watch.initial ops
  rw [← show Watch.initial.rtsp = Rtsp.initial from rfl, ← view]
  apply along_run_iff_every_step fun watch => ReaderLaw watch.rtsp ∧ watch.Sound
  · exact fun watch inv => law_unique watch.rtsp inv.1
  · intro watch op inv inTime
    refine ⟨step_law watch.rtsp op inv.1 ?_, watch_sound_step watch op inv.2⟩
    intro caller here
    exact (inv.2.all_ended here).mpr (inTime caller here)
  · exact fun watch op inv late => late_test_leaves_reader watch op inv.2 late
  · exact ⟨initial_law, .of_not_cleared (by simp [Cleared, Watch.initial, Rtsp.initial])⟩

section Waiting

/-- The flag is clear between the statement that clears it and the test of it. -/
def TestedClear (rtsp : Rtsp) : Prop :=
  (rtsp.caller = .stopExit ∨ rtsp.caller = .stopTestLoop → rtsp.readVideoLoop = false) ∧
    rtsp.caller ≠ .stopClearAgain ∧ rtsp.caller ≠ .stopWait

theorem tested_clear_step (rtsp : Rtsp) (op : Op) (clear : TestedClear rtsp) :
    TestedClear (step rtsp op) := by
  rcases clear with ⟨flag, notAgain, notWaiting⟩
  cases op with
  | start =>
      rw [step, rtspServerStart]
      split
      · split <;> simp [TestedClear]
      · exact ⟨flag, notAgain, notWaiting⟩
  | stop =>
      rw [step, rtspServerStop]
      split
      · split <;> simp [TestedClear]
      · exact ⟨flag, notAgain, notWaiting⟩
  | caller =>
      rw [step, callerStep]
      cases here : rtsp.caller with
      | stopTestLoop =>
          have cleared := flag (Or.inr here)
          simp [TestedClear, cleared]
      | stopExit =>
          have cleared := flag (Or.inl here)
          simp [TestedClear, cleared]
      | stopClearAgain => exact absurd here notAgain
      | stopWait => exact absurd here notWaiting
      | _ => simp [TestedClear, here]
  | reader thread answers =>
      rcases reader_step_frame rtsp thread answers with ⟨-, sameLoop, sameCaller⟩
      rw [TestedClear, sameLoop, sameCaller]
      exact ⟨flag, notAgain, notWaiting⟩

/-- No run comes to the wait for the reader. -/
theorem stop_never_waits (ops : List Op) :
    (run step Rtsp.initial ops).caller ≠ .stopWait :=
  (invariant_of_run tested_clear_step Rtsp.initial (by simp [TestedClear, Rtsp.initial]) ops).2.2

end Waiting

/-- A reader in the middle of its loop does not see a stop that is followed by a start. -/
def stopAndRestart : List Op :=
  [.start, .caller, .caller, .caller, .reader 0 ⟨true, true, true⟩,
    .stop, .caller, .caller, .caller, .caller, .start, .caller, .caller]

/-- After a start, a stop and a second start two readers are alive. -/
theorem restart_doubles_reader : ¬ ∀ ops, AlongRun step ReaderUnique Rtsp.initial ops := by
  intro always
  have unique := (along_run_iff_prefixes _ _).mp (always stopAndRestart) stopAndRestart
    (List.prefix_refl _)
  exact absurd unique.single (by decide)

end Gk7102.RtspReader
