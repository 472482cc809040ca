import Gk7102.StepRuns

/-!
# The voice logic thread

`vr_logic_func` with the record loops of `aec_run` and `asr_run`, one atomic step for
each access to shared data. Beside it step a controller that calls `ray_vr_start` and
`ray_vr_stop` one after the other, and the engines. An engine stores its event in the one
global `ai_vr_info`, to which `info` points, and calls `callback_from_vr` later.
-/

namespace Gk7102.VrLogic

set_option autoImplicit false

inductive VrStatus where
  | idle | aec | asr
deriving DecidableEq, Repr

inductive VrTarget where
  | toNull | toAec | toAsr | toAsrSds | toWait
deriving DecidableEq, Repr

inductive VrFrom where
  | aec | asr | content
deriving DecidableEq, Repr

/-- `vr_info_t`. The states of the three sources share the first word of a union; the
wake-up flag is its lowest byte. -/
structure VrInfo where
  source : VrFrom
  state : Nat
deriving DecidableEq, Repr

def asrSpeakEnd : Nat := 2
def asrSuccess : Nat := 3
def asrFail : Nat := 4
def asrBreak : Nat := 5

/-- The states that end the wait for an ASR result. -/
def Settled (state : Nat) : Prop := state = asrSuccess ∨ state = asrFail ∨ state = asrBreak

instance (state : Nat) : Decidable (Settled state) :=
  inferInstanceAs (Decidable (state = asrSuccess ∨ state = asrFail ∨ state = asrBreak))

/-- `static bool fast_aec_wakeup_mode` is zero and never set. -/
def fastAecWakeupMode : Bool := false

def cnt1000 : Nat := 1000

/-- What the logic thread does next. `faulted` is a read through a NULL `info`. -/
inductive Pc where
  | outer | inner | dispatch
  | aecReset | aecOpen | aecTest | aecRecord
  | asrResetStop | asrResetBreak | asrResetStopped | asrOpen
  | asrTestStop | asrTestBreak | asrRecord | asrEnd
  | waitTest
  | stageDone | readSource | readSourceAgain
  | waiting (cnt : Nat) | judging (cnt : Nat) | replied (next : VrTarget)
  | exited | faulted
deriving DecidableEq, Repr

/-- Where the controller is: `ray_vr_start` after its first write, `ray_vr_stop` before
its first write and after its first and second. -/
inductive Control where
  | idle | starting | stopping | workingCleared | aecSet
deriving DecidableEq, Repr

structure Vr where
  initFlag : Bool
  workingFlag : Bool
  status : VrStatus
  next : VrTarget
  /-- `info` is not NULL, so it points to `ai_vr_info`. -/
  infoSet : Bool
  aiVrInfo : VrInfo
  /-- `callback_to_mozart` is not NULL. -/
  callback : Bool
  aecStopFlag : Bool
  asrStopFlag : Bool
  asrBreakFlag : Bool
  asrStopped : Bool
  pc : Pc
  control : Control
  /-- Bookkeeping: a stop has made all its writes and no start has begun since. -/
  stopped : Bool
  /-- Bookkeeping: how many events were posted through `callback_from_vr`. -/
  posted : Nat
  /-- Bookkeeping: an engine has stored to `ai_vr_info` since the last of them. -/
  stored : Bool
  /-- Bookkeeping: the number of each event the logic thread passed to
  `callback_to_mozart`, with what it was. -/
  handled : List (Nat × VrInfo)

namespace Vr

/-- The state `ray_vr_init` leaves, with the thread created. -/
def initial (callback : Bool) : Vr where
  initFlag := true
  workingFlag := false
  status := .idle
  next := .toNull
  infoSet := false
  aiVrInfo := ⟨.aec, 0⟩
  callback := callback
  aecStopFlag := false
  asrStopFlag := false
  asrBreakFlag := false
  asrStopped := false
  pc := .outer
  control := .idle
  stopped := false
  posted := 0
  stored := false
  handled := []

def goto (vr : Vr) (pc : Pc) : Vr := { vr with pc := pc }

/-- A read through `info`. -/
def withInfo (vr : Vr) (use : VrInfo → Vr) : Vr :=
  if vr.infoSet then use vr.aiVrInfo else vr.goto .faulted

/-- The number of the event that is in `ai_vr_info`: the last one posted, and after a store
the one that the next call posts. -/
def event (vr : Vr) : Nat := if vr.stored then vr.posted + 1 else vr.posted

def handle (vr : Vr) : Vr :=
  { vr with handled := vr.handled ++ [(vr.event, vr.aiVrInfo)] }

/-- `switch (vr_next)`. A target without a case goes on like one whose stage is done. -/
def dispatch (vr : Vr) : Vr :=
  match vr.next with
  | .toAec => { vr with status := .aec, pc := .aecReset }
  | .toAsr | .toAsrSds => { vr with status := .asr, pc := .asrResetStop }
  | .toWait => vr.goto .waitTest
  | .toNull => vr.goto .stageDone

/-- The condition of the wait for an ASR result; `cnt++` runs only if no state settles it. -/
def waitStep (vr : Vr) (cnt : Nat) : Vr :=
  vr.withInfo fun info =>
    if Settled info.state then vr.goto (.judging cnt)
    else if cnt < cnt1000 then vr.goto (.waiting (cnt + 1))
    else vr.goto (.judging (cnt + 1))

def judgeStep (vr : Vr) (cnt : Nat) (reply : VrTarget) : Vr :=
  vr.withInfo fun info =>
    if info.state = asrBreak ∨ cnt = cnt1000 then { vr with next := .toAec, pc := .inner }
    else if vr.callback then vr.handle.goto (.replied reply)
    else { vr with next := .toAec, pc := .inner }

def wakeupStep (vr : Vr) (reply : VrTarget) : Vr :=
  vr.withInfo fun info =>
    if info.source = .aec ∧ fastAecWakeupMode = false then
      if vr.callback then { vr.handle with next := reply, pc := .inner }
      else { vr with next := .toAec, pc := .inner }
    else vr.goto .inner

/-- One step of `vr_logic_func`: `opened` is whether the capture device, and for ASR the
record file, opens, and `reply` what `callback_to_mozart` returns. -/
def logicStep (vr : Vr) (opened : Bool) (reply : VrTarget) : Vr :=
  match vr.pc with
  | .outer => vr.goto (if vr.initFlag then .inner else .exited)
  | .inner => vr.goto (if vr.workingFlag then .dispatch else .outer)
  | .dispatch => vr.dispatch
  | .aecReset => { vr with aecStopFlag := false, pc := .aecOpen }
  | .aecOpen => vr.goto (if opened then .aecTest else .stageDone)
  | .aecTest => vr.goto (if vr.aecStopFlag then .stageDone else .aecRecord)
  | .aecRecord => vr.goto .aecTest
  | .asrResetStop => { vr with asrStopFlag := false, pc := .asrResetBreak }
  | .asrResetBreak => { vr with asrBreakFlag := false, pc := .asrResetStopped }
  | .asrResetStopped => { vr with asrStopped := false, pc := .asrOpen }
  | .asrOpen => vr.goto (if opened then .asrTestStop else .stageDone)
  | .asrTestStop => vr.goto (if vr.asrStopFlag then .asrEnd else .asrTestBreak)
  | .asrTestBreak => vr.goto (if vr.asrBreakFlag then .asrEnd else .asrRecord)
  | .asrRecord => vr.goto .asrTestStop
  | .asrEnd => { vr with asrStopped := true, pc := .stageDone }
  | .waitTest => vr.goto (if vr.workingFlag then .inner else .stageDone)
  | .stageDone =>
      if vr.workingFlag then vr.goto .readSource else { vr with status := .idle, pc := .inner }
  | .readSource =>
      vr.withInfo fun info =>
        vr.goto (if info.source = .asr then .waiting 0 else .readSourceAgain)
  | .waiting cnt => vr.waitStep cnt
  | .judging cnt => vr.judgeStep cnt reply
  | .replied next =>
      { vr with next := if vr.asrBreakFlag then .toAec else next, pc := .inner }
  | .readSourceAgain => vr.wakeupStep reply
  | .exited | .faulted => vr

/-- A store of an engine to `ai_vr_info`. The logic thread reads it without `ai_mutex`,
and most engines take that only for the call. -/
def store (vr : Vr) (info : VrInfo) : Vr := { vr with aiVrInfo := info, stored := true }

def callbackFromVr (vr : Vr) (reply : VrTarget) : Vr :=
  let vr := { vr with posted := vr.posted + 1, stored := false }
  match vr.aiVrInfo.source with
  | .aec =>
      let vr :=
        if fastAecWakeupMode then { vr with next := if vr.callback then reply else .toAec }
        else vr
      { vr with infoSet := true, aecStopFlag := true }
  | .asr =>
      let vr :=
        if vr.aiVrInfo.state = asrSpeakEnd then { vr with asrStopFlag := true }
        else if vr.aiVrInfo.state = asrBreak then { vr with asrBreakFlag := true }
        else vr
      { vr with infoSet := true }
  | .content => vr

def startCall (vr : Vr) : Vr :=
  if vr.control = .idle ∧ vr.initFlag then
    { vr with workingFlag := true, control := .starting, stopped := false }
  else vr

def stopCall (vr : Vr) : Vr :=
  if vr.control = .idle ∧ vr.initFlag ∧ vr.workingFlag then { vr with control := .stopping }
  else vr

/-- The remaining writes of the call the controller is in, one at a time. -/
def controlStep (vr : Vr) : Vr :=
  match vr.control with
  | .idle => vr
  | .starting => { vr with next := .toAec, control := .idle }
  | .stopping => { vr with workingFlag := false, control := .workingCleared }
  | .workingCleared => { vr with aecStopFlag := true, control := .aecSet }
  | .aecSet => { vr with asrStopFlag := true, control := .idle, stopped := true }

section Frame

variable (vr : Vr) (opened : Bool) (reply : VrTarget)

/-- The logic thread leaves the calls of the controller alone. -/
theorem logic_step_frame : (vr.logicStep opened reply).control = vr.control ∧
    (vr.logicStep opened reply).stopped = vr.stopped ∧
    (vr.logicStep opened reply).posted = vr.posted ∧
    (vr.logicStep opened reply).stored = vr.stored ∧
    (vr.logicStep opened reply).infoSet = vr.infoSet := by
  unfold logicStep dispatch waitStep judgeStep wakeupStep withInfo handle goto
  grind

theorem logic_step_aec_stop_flag (elsewhere : vr.pc ≠ .aecReset) :
    (vr.logicStep opened reply).aecStopFlag = vr.aecStopFlag := by
  unfold logicStep dispatch waitStep judgeStep wakeupStep withInfo handle goto
  grind

theorem logic_step_asr_stop_flag (elsewhere : vr.pc ≠ .asrResetStop) :
    (vr.logicStep opened reply).asrStopFlag = vr.asrStopFlag := by
  unfold logicStep dispatch waitStep judgeStep wakeupStep withInfo handle goto
  grind

end Frame

end Vr

inductive Op where
  | logic (opened : Bool) (reply : VrTarget)
  | store (info : VrInfo)
  | post (reply : VrTarget)
  | start
  | stop
  | control
  /-- `ray_vr_uninit` between its stop and its join. -/
  | uninit
deriving DecidableEq, Repr

def step (vr : Vr) : Op → Vr
  | .logic opened reply => vr.logicStep opened reply
  | .store info => vr.store info
  | .post reply => vr.callbackFromVr reply
  | .start => vr.startCall
  | .stop => vr.stopCall
  | .control => vr.controlStep
  | .uninit => { vr with initFlag := false }

end Gk7102.VrLogic
