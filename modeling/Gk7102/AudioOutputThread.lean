import Gk7102.ByteBlocks
import Gk7102.StepRuns

/-!
# Progress callbacks of the audio output thread

`AudioOutputThreadProc` stands in for an audio device: it tells the SDK how much has been
played, in one branch for every recorded frame it pops, in the other by the clock, every 40
milliseconds. The queue is shared with the functions that open and feed it. `unsigned int` is
a word of 32 bits, and so is `long`.
-/

namespace Gk7102.AudioOutputThread

open ByteBlocks StepRuns

set_option autoImplicit false

abbrev Word := BitVec 32

/-! ## The clock -/

structure Timeval where
  tvSec : Word
  tvUsec : Word
deriving DecidableEq, Repr

/-- The true time is counted in microseconds. -/
def gettimeofday (micros : Nat) : Timeval where
  tvSec := BitVec.ofNat 32 (micros / 1000000)
  tvUsec := BitVec.ofNat 32 (micros % 1000000)

def getTimestamp (stTime : Timeval) : Word := stTime.tvSec * 1000#32 + stTime.tvUsec.sdiv 1000#32

/-! ## The thread -/

/-- 40ms per frame. -/
def frameInterval : Word := 40#32

/-- The fields of `PG_DEV_CALLBACK_AUDIO_QUEUE_S` that the thread reads. -/
structure AudioQueue where
  iDevIDIn : Int
  iDevIDOut : Int
  iCvtIDIn : Int
  uFormatIn : Word
  uDelayIn : Word
  uPlayCount : Word
  uFrameSizeOut : Word
deriving DecidableEq, Repr

/-- The variables of `AudioOutputThreadProc`. -/
structure Locals where
  uPlayedSize : Word
  uStampStart : Word
  uCallbackCount : Word
deriving DecidableEq, Repr

inductive DeviceCall where
  | audioOutPlayed (devID : Int) (playedSize : Word)
  | audioInRecord (devID : Int) (data : List Byte) (format delay : Word)
deriving DecidableEq, Repr

structure Round where
  locals : Locals
  calls : List DeviceCall
deriving DecidableEq, Repr

/-- The loop that pops the recorded frames and reports each. -/
def popLoop (queue : AudioQueue) : List (List Byte) → Locals → Round
  | [], locals => ⟨locals, []⟩
  | dataPop :: later, locals =>
      let uPlayedSize := locals.uPlayedSize + queue.uFrameSizeOut
      let rest := popLoop queue later { locals with uPlayedSize := uPlayedSize }
      { rest with
        calls := .audioOutPlayed queue.iDevIDOut uPlayedSize ::
          .audioInRecord queue.iDevIDIn dataPop queue.uFormatIn queue.uDelayIn :: rest.calls }

def recordRound (queue : AudioQueue) (popped : List (List Byte)) (locals : Locals) : Round :=
  let round := popLoop queue popped locals
  { round with locals := { round.locals with uCallbackCount := 0#32 } }

def deltaReal (uStamp uStampStart : Word) : Word :=
  if uStamp < uStampStart then 0xffffffff#32 - uStampStart + uStamp else uStamp - uStampStart

/-- One pass of the branch without a record. The first reading is made for the start stamp. -/
def timerRound (queue : AudioQueue) (first second : Word) (locals : Locals) : Round :=
  if queue.uPlayCount ≤ locals.uCallbackCount then ⟨locals, []⟩
  else
    let uStampStart := if locals.uCallbackCount = 0#32 then first else locals.uStampStart
    let uDeltaReal := deltaReal second uStampStart
    let uDeltaCalc := frameInterval * locals.uCallbackCount
    if uDeltaReal < uDeltaCalc ∨ uDeltaReal - uDeltaCalc < frameInterval then
      ⟨{ locals with uStampStart := uStampStart }, []⟩
    else
      let uPlayedSize := locals.uPlayedSize + queue.uFrameSizeOut
      ⟨⟨uPlayedSize, uStampStart, locals.uCallbackCount + 1⟩,
        [.audioOutPlayed queue.iDevIDOut uPlayedSize]⟩

/-! ## The functions around it -/

/-- What `pgDevAudioQueuePlayOpen` does once the thread is there. -/
def playOpen (queue : AudioQueue) (devID : Int) : AudioQueue :=
  { queue with uPlayCount := 0#32, iDevIDOut := devID }

def playPush (queue : AudioQueue) (iRet : Int) (uDataSize : Word) : AudioQueue :=
  { queue with
    uFrameSizeOut := uDataSize
    uPlayCount := if 0 < iRet then queue.uPlayCount + 1 else queue.uPlayCount }

def recordOpen (queue : AudioQueue) (iCvtIDIn devID : Int) (uPopFormat uDelayMs : Word) :
    AudioQueue :=
  if 0 < iCvtIDIn then
    { queue with
      uFormatIn := uPopFormat
      uDelayIn := if uDelayMs ≠ 0#32 then uDelayMs else 160#32
      iCvtIDIn := iCvtIDIn
      iDevIDIn := devID }
  else queue

def recordClose (queue : AudioQueue) : AudioQueue :=
  { queue with
    iCvtIDIn := if 0 < queue.iCvtIDIn then -1 else queue.iCvtIDIn
    iDevIDIn := -1 }

/-- The queue and its thread, with the true time. Since the thread was started or last found a
record: the true time in milliseconds when the timer branch first found a frame, that of the
reading in `uStampStart`, and the callbacks. -/
structure System where
  queue : AudioQueue
  locals : Locals
  calls : List DeviceCall
  micros : Nat
  start : Option Nat
  stamped : Nat
  callbacks : Nat
deriving DecidableEq, Repr

/-- A pass of the thread makes its two readings of the clock after so many microseconds each. -/
inductive Event where
  | playOpen (devID : Int)
  | playPush (iRet : Int) (uDataSize : Word)
  | recordOpen (iCvtIDIn devID : Int) (uPopFormat uDelayMs : Word)
  | recordClose
  | pass (before between : Nat) (popped : List (List Byte))
deriving DecidableEq, Repr

def System.recordPass (system : System) (after : Nat) (popped : List (List Byte)) : System :=
  let round := recordRound system.queue popped system.locals
  { system with
    locals := round.locals
    calls := system.calls ++ round.calls
    micros := system.micros + after
    start := none
    callbacks := 0 }

/-- The start stamp of the pacing: the first pass that finds a frame sets it. -/
def System.startTime (system : System) (before : Nat) : Nat :=
  system.start.getD ((system.micros + before) / 1000)

/-- The true time of the reading that a pass has in `uStampStart`, taken anew before the first
callback. -/
def System.stampTime (system : System) (before : Nat) : Nat :=
  if system.callbacks = 0 then (system.micros + before) / 1000 else system.stamped

def System.timerPass (system : System) (before between : Nat) : System :=
  let round := timerRound system.queue (getTimestamp (gettimeofday (system.micros + before)))
    (getTimestamp (gettimeofday (system.micros + before + between))) system.locals
  { system with
    locals := round.locals
    calls := system.calls ++ round.calls
    micros := system.micros + before + between
    start :=
      if system.queue.uPlayCount ≤ system.locals.uCallbackCount then system.start
      else some (system.startTime before)
    stamped :=
      if system.queue.uPlayCount ≤ system.locals.uCallbackCount then system.stamped
      else system.stampTime before
    callbacks := system.callbacks + round.calls.length }

def step (system : System) : Event → System
  | .playOpen devID => { system with queue := playOpen system.queue devID }
  | .playPush iRet uDataSize => { system with queue := playPush system.queue iRet uDataSize }
  | .recordOpen iCvtIDIn devID uPopFormat uDelayMs =>
      { system with queue := recordOpen system.queue iCvtIDIn devID uPopFormat uDelayMs }
  | .recordClose => { system with queue := recordClose system.queue }
  | .pass before between popped =>
      if 0 < system.queue.iCvtIDIn then system.recordPass (before + between) popped
      else system.timerPass before between

theorem get_timestamp_counts (micros : Nat) :
    (getTimestamp (gettimeofday micros)).toNat = micros / 1000 % 4294967296 := by
  have small : (BitVec.ofNat 32 (micros % 1000000)).toNat = micros % 1000000 := by
    rw [BitVec.toNat_ofNat]
    omega
  have positive : (BitVec.ofNat 32 (micros % 1000000)).msb = false := by
    rw [BitVec.msb_eq_false_iff_two_mul_lt, small]
    omega
  have millis : ((BitVec.ofNat 32 (micros % 1000000)).sdiv 1000#32).toNat =
      micros % 1000000 / 1000 := by
    rw [BitVec.sdiv_eq, positive, show (1000#32).msb = false from rfl]
    change (BitVec.ofNat 32 (micros % 1000000) / 1000#32).toNat = _
    rw [BitVec.toNat_udiv, small]
    rfl
  rw [getTimestamp, gettimeofday, BitVec.toNat_add, millis, BitVec.toNat_mul, BitVec.toNat_ofNat]
  change (micros / 1000000 % 4294967296 * 1000 % 4294967296 + micros % 1000000 / 1000) %
    4294967296 = micros / 1000 % 4294967296
  omega

/-- What the subtraction takes off when the counter has wrapped: it misses the step to zero. -/
def lostStep (start now : Nat) : Nat :=
  if now % 4294967296 < start % 4294967296 then 1 else 0

theorem delta_real_counts {start now : Nat} (past : start ≤ now) {uStamp uStampStart : Word}
    (stamp : uStamp.toNat = now % 4294967296) (first : uStampStart.toNat = start % 4294967296) :
    (deltaReal uStamp uStampStart).toNat = (now - start) % 4294967296 - lostStep start now := by
  have order : uStamp < uStampStart ↔ now % 4294967296 < start % 4294967296 := by
    rw [BitVec.lt_def, stamp, first]
  rw [deltaReal, lostStep]
  by_cases wrapped : now % 4294967296 < start % 4294967296
  · rw [if_pos wrapped, if_pos (order.mpr wrapped), BitVec.toNat_add, BitVec.toNat_sub, stamp,
      first]
    change ((4294967296 - start % 4294967296 + 4294967295) % 4294967296 +
      now % 4294967296) % 4294967296 = _
    omega
  · rw [if_neg wrapped, if_neg (mt order.mp wrapped), BitVec.toNat_sub, stamp, first]
    omega

/-- As long as the product fits, the two comparisons are one. -/
theorem interval_over_iff (uDeltaReal : Word) {uCallbackCount : Word} {callbacks : Nat}
    (count : uCallbackCount.toNat = callbacks) (fits : 40 * callbacks < 4294967296) :
    ¬ (uDeltaReal < frameInterval * uCallbackCount ∨
        uDeltaReal - frameInterval * uCallbackCount < frameInterval) ↔
      40 * (callbacks + 1) ≤ uDeltaReal.toNat := by
  have calc_ : (frameInterval * uCallbackCount).toNat = 40 * callbacks := by
    rw [BitVec.toNat_mul, count]
    exact Nat.mod_eq_of_lt fits
  have below := uDeltaReal.isLt
  rw [not_or, BitVec.not_lt, BitVec.not_lt, BitVec.le_def, BitVec.le_def, BitVec.toNat_sub, calc_]
  change 40 * callbacks ≤ uDeltaReal.toNat ∧
    40 ≤ (4294967296 - 40 * callbacks + uDeltaReal.toNat) % 4294967296 ↔ _
  omega

/-! ## The pacing -/

/-- The true time that lies between the two readings a pass compares, in milliseconds. -/
def System.sinceStamp (system : System) (before between : Nat) : Nat :=
  (system.micros + before + between) / 1000 - system.stampTime before

/-- The callbacks made never exceed the frames counted. -/
def Bounded (system : System) : Prop := system.callbacks ≤ system.queue.uPlayCount.toNat

/-- What the variables of the thread know of the callbacks and of the stamps. -/
structure System.Counted (system : System) : Prop where
  count : system.locals.uCallbackCount.toNat = system.callbacks
  fits : 40 * system.callbacks < 4294967296
  stamp : 0 < system.callbacks →
    system.locals.uStampStart.toNat = system.stamped % 4294967296
  past : 0 < system.callbacks → system.stamped * 1000 ≤ system.micros
  begun : ∀ start ∈ system.start, start * 1000 ≤ system.micros
  first : 0 < system.callbacks → ∃ start ∈ system.start, start ≤ system.stamped

section Pass

variable {system : System} (before between : Nat)

theorem System.Counted.stamp_reading (counted : system.Counted) :
    (if system.locals.uCallbackCount = 0#32 then
        getTimestamp (gettimeofday (system.micros + before))
      else system.locals.uStampStart).toNat = system.stampTime before % 4294967296 := by
  rw [System.stampTime]
  by_cases first : system.callbacks = 0
  · have zero : system.locals.uCallbackCount = 0#32 :=
      BitVec.eq_of_toNat_eq (counted.count.trans first)
    rw [if_pos first, if_pos zero]
    exact get_timestamp_counts _
  · have counting : system.locals.uCallbackCount ≠ 0#32 := fun zero =>
      first (counted.count.symm.trans (congrArg BitVec.toNat zero))
    rw [if_neg first, if_neg counting]
    exact counted.stamp (Nat.pos_of_ne_zero first)

theorem System.Counted.stamp_past (counted : system.Counted) :
    system.stampTime before ≤ (system.micros + before + between) / 1000 := by
  rw [System.stampTime]
  split
  · omega
  · have past := counted.past (by omega)
    omega

/-- The start stamp is not later than the reading that stands for it. -/
theorem System.Counted.start_first (counted : system.Counted) :
    system.startTime before ≤ system.stampTime before := by
  rw [System.startTime, System.stampTime]
  cases begun : system.start with
  | none =>
      split
      · exact Nat.le_refl _
      · rcases counted.first (by omega) with ⟨start, there, -⟩
        rw [begun] at there
        exact absurd there (Option.not_mem_none _)
  | some start =>
      rw [Option.getD_some]
      split
      · have past := counted.begun start begun
        omega
      · rcases counted.first (by omega) with ⟨other, there, early⟩
        rw [begun] at there
        exact Option.some.inj there ▸ early

/-- The readings of a pass make the next callback due. -/
def System.Due (system : System) (before between : Nat) : Prop :=
  40 * (system.callbacks + 1) ≤ system.sinceStamp before between % 4294967296 -
    lostStep (system.stampTime before) ((system.micros + before + between) / 1000)

theorem System.Counted.timer_pass_cases (counted : system.Counted) :
    (system.queue.uPlayCount.toNat ≤ system.callbacks ∧
      system.timerPass before between =
        { system with micros := system.micros + before + between }) ∨
    (system.callbacks < system.queue.uPlayCount.toNat ∧
      ∃ uStampStart : Word, uStampStart.toNat = system.stampTime before % 4294967296 ∧
        ((¬ system.Due before between ∧
          system.timerPass before between =
            { system with
              locals := { system.locals with uStampStart := uStampStart }
              micros := system.micros + before + between
              start := some (system.startTime before)
              stamped := system.stampTime before }) ∨
        (system.Due before between ∧ ∃ uPlayedSize : Word,
          system.timerPass before between =
            { system with
              locals := ⟨uPlayedSize, uStampStart, system.locals.uCallbackCount + 1⟩
              calls := system.calls ++ [.audioOutPlayed system.queue.iDevIDOut uPlayedSize]
              micros := system.micros + before + between
              start := some (system.startTime before)
              stamped := system.stampTime before
              callbacks := system.callbacks + 1 }))) := by
  have stamp := counted.stamp_reading before
  have due_iff := interval_over_iff
    (deltaReal (getTimestamp (gettimeofday (system.micros + before + between)))
      (if system.locals.uCallbackCount = 0#32 then
        getTimestamp (gettimeofday (system.micros + before)) else system.locals.uStampStart))
    counted.count counted.fits
  rw [delta_real_counts (counted.stamp_past before between) (get_timestamp_counts _) stamp]
    at due_iff
  rw [System.timerPass, timerRound]
  by_cases none : system.queue.uPlayCount ≤ system.locals.uCallbackCount
  · left
    have few : system.queue.uPlayCount.toNat ≤ system.callbacks := counted.count ▸ none
    simp only [if_pos none, List.append_nil, List.length_nil, Nat.add_zero]
    exact ⟨few, trivial⟩
  · right
    have more : system.callbacks < system.queue.uPlayCount.toNat :=
      counted.count ▸ Nat.lt_of_not_le none
    refine ⟨more, _, stamp, ?_⟩
    simp only [if_neg none]
    by_cases due : system.Due before between
    · right
      refine ⟨due, system.locals.uPlayedSize + system.queue.uFrameSizeOut, ?_⟩
      rw [if_neg (due_iff.mpr due)]
      rfl
    · left
      refine ⟨due, ?_⟩
      rw [if_pos (Decidable.not_not.mp (mt due_iff.mp due)), List.append_nil]
      rfl

end Pass

section Steps

variable {system : System}

theorem System.Counted.timer_pass (counted : system.Counted) (before between : Nat) :
    (system.timerPass before between).Counted := by
  have past := counted.stamp_past before between
  have first := counted.start_first before
  rcases counted.timer_pass_cases before between with
    ⟨-, same⟩ | ⟨-, uStampStart, reading, ⟨-, waits⟩ | ⟨due, uPlayedSize, fires⟩⟩
  · rw [same]
    have later : system.micros ≤ system.micros + before + between := by omega
    exact ⟨counted.count, counted.fits, counted.stamp,
      fun positive => Nat.le_trans (counted.past positive) later,
      fun start begun => Nat.le_trans (counted.begun start begun) later, counted.first⟩
  · rw [waits]
    refine ⟨counted.count, counted.fits, fun _ => reading, fun _ => ?_, ?_, ?_⟩
    · change system.stampTime before * 1000 ≤ system.micros + before + between
      omega
    · intro start begun
      rw [← Option.some.inj begun]
      change system.startTime before * 1000 ≤ system.micros + before + between
      omega
    · exact fun _ => ⟨_, rfl, first⟩
  · rw [fires]
    have counting := counted.count
    unfold System.Due at due
    refine ⟨?_, ?_, fun _ => reading, fun _ => ?_, ?_, fun _ => ⟨_, rfl, first⟩⟩
    · change (system.locals.uCallbackCount + 1#32).toNat = system.callbacks + 1
      rw [BitVec.toNat_add, counting]
      change (system.callbacks + 1) % 4294967296 = _
      omega
    · change 40 * (system.callbacks + 1) < 4294967296
      omega
    · change system.stampTime before * 1000 ≤ system.micros + before + between
      omega
    · intro start begun
      rw [← Option.some.inj begun]
      change system.startTime before * 1000 ≤ system.micros + before + between
      omega

theorem System.Counted.after_step (counted : system.Counted) (event : Event) :
    (step system event).Counted := by
  cases event with
  | playOpen _ | playPush _ _ | recordOpen _ _ _ _ | recordClose =>
      exact ⟨counted.count, counted.fits, counted.stamp, counted.past, counted.begun,
        counted.first⟩
  | pass before between popped =>
      rw [step]
      split
      · exact ⟨rfl, Nat.succ_pos _, fun positive => absurd positive (Nat.lt_irrefl 0),
          fun positive => absurd positive (Nat.lt_irrefl 0),
          fun _ begun => absurd begun (Option.not_mem_none _),
          fun positive => absurd positive (Nat.lt_irrefl 0)⟩
      · exact counted.timer_pass before between

theorem due_iff (before between : Nat) :
    system.Due before between ↔
      40 * (system.callbacks + 1) +
          lostStep (system.stampTime before) ((system.micros + before + between) / 1000) ≤
        system.sinceStamp before between % 4294967296 := by
  unfold System.Due
  omega

end Steps

def Event.LeavesTimer : Event → Prop
  | .recordOpen iCvtIDIn _ _ _ => iCvtIDIn ≤ 0
  | _ => True

section Quiet

variable {system : System}

theorem timer_kept {event : Event} (timer : system.queue.iCvtIDIn ≤ 0)
    (leaves : event.LeavesTimer) : (step system event).queue.iCvtIDIn ≤ 0 := by
  cases event with
  | playOpen _ | playPush _ _ => exact timer
  | recordOpen iCvtIDIn devID uPopFormat uDelayMs =>
      change (recordOpen system.queue iCvtIDIn devID uPopFormat uDelayMs).iCvtIDIn ≤ 0
      rw [recordOpen, if_neg (Int.not_lt.mpr leaves)]
      exact timer
  | recordClose =>
      change (if 0 < system.queue.iCvtIDIn then -1 else system.queue.iCvtIDIn) ≤ 0
      rw [if_neg (Int.not_lt.mpr timer)]
      exact timer
  | pass before between popped =>
      rw [step, if_neg (Int.not_lt.mpr timer)]
      exact timer

theorem System.Counted.quiet_step (counted : system.Counted)
    (timer : system.queue.iCvtIDIn ≤ 0) (event : Event)
    (never : ∀ before between popped, event = .pass before between popped →
      ¬ system.Due before between) :
    (step system event).calls = system.calls ∧
      (step system event).callbacks = system.callbacks := by
  cases event with
  | playOpen _ | playPush _ _ | recordOpen _ _ _ _ | recordClose => exact ⟨rfl, rfl⟩
  | pass before between popped =>
      rw [step, if_neg (Int.not_lt.mpr timer)]
      rcases counted.timer_pass_cases before between with
        ⟨-, same⟩ | ⟨-, uStampStart, -, ⟨-, waits⟩ | ⟨due, -⟩⟩
      · rw [same]
        exact ⟨rfl, rfl⟩
      · rw [waits]
        exact ⟨rfl, rfl⟩
      · exact absurd due (never before between popped rfl)

end Quiet

/-- After 107374182 callbacks the next one would be due beyond the last value of the counter: the
thread makes no other callback while it stays in its timer branch. -/
theorem last_callback {system : System} (counted : system.Counted)
    (last : system.callbacks = 107374182) (timer : system.queue.iCvtIDIn ≤ 0)
    (events : List Event) (leaves : ∀ event ∈ events, event.LeavesTimer) :
    (run step system events).calls = system.calls := by
  induction events generalizing system with
  | nil => rfl
  | cons event rest ih =>
      obtain ⟨here, later⟩ := List.forall_mem_cons.mp leaves
      have quiet := counted.quiet_step timer event (by
        intro before between _ _ due
        unfold System.Due at due
        omega)
      rw [run_cons, ih (counted.after_step event) (quiet.2.trans last) (timer_kept timer here)
        later]
      exact quiet.1

/-- Events whose two readings of the clock lie at most 39 milliseconds apart. -/
def Event.Prompt : Event → Prop
  | .pass _ between _ => between ≤ 39000
  | _ => True

/-- Before the first callback the start stamp is taken anew in every pass: a thread that is never
held up between its two readings makes none. -/
theorem no_first_callback {system : System} (counted : system.Counted)
    (first : system.callbacks = 0) (timer : system.queue.iCvtIDIn ≤ 0) (events : List Event)
    (prompt : ∀ event ∈ events, event.LeavesTimer ∧ event.Prompt) :
    (run step system events).calls = system.calls := by
  induction events generalizing system with
  | nil => rfl
  | cons event rest ih =>
      obtain ⟨here, later⟩ := List.forall_mem_cons.mp prompt
      have quiet := counted.quiet_step timer event (by
        rintro before between popped rfl due
        have close : between ≤ 39000 := here.2
        unfold System.Due System.sinceStamp System.stampTime at due
        rw [if_pos first, first] at due
        omega)
      rw [run_cons, ih (counted.after_step event) (quiet.2.trans first) (timer_kept timer here.1)
        later]
      exact quiet.1

end Gk7102.AudioOutputThread
