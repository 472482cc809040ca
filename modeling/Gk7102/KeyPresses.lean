import Gk7102.MusicPlayer
import Gk7102.StepRuns
import Mathlib.Logic.Function.Basic

/-!
# The keys of the device

`key_callback_func` reads key messages, lets a timer thread hold off presses that come too
close together, and acts when a key is released. The timer threads share two variables with
it, read and written one at a time.
-/

namespace Gk7102.KeyPresses

open Gk7102.MusicPlayer (PlayerStatus)

set_option autoImplicit false

section Source

/-- The pairs of press and release times, by the numbers in their names. -/
inductive Button where
  | five | ten | thirteen | seventeen | twentyOne | twentyFour
deriving DecidableEq, Repr

/-- The pair that a GPIO number uses. Three keys share one. -/
def buttonOf (id : Nat) : Option Button :=
  match id with
  | 22 => some .five
  | 5 => some .ten
  | 20 => some .thirteen
  | 14 | 15 | 23 => some .seventeen
  | 21 => some .twentyOne
  | 13 => some .twentyFour
  | _ => none

inductive Module where
  | gpio | other
deriving DecidableEq, Repr

/-- What the device answers while a message is handled. -/
structure Answers where
  vrAsr : Bool
  status : PlayerStatus
deriving DecidableEq, Repr

structure Message where
  module : Module
  id : Nat
  val : Nat
  time : Int
  answers : Answers
deriving DecidableEq, Repr

/-- A release that something was done for. -/
structure Act where
  button : Button
  long : Bool
  answers : Answers
deriving DecidableEq, Repr

inductive Effect where
  | asrBreak | quit | playPause | volumeDown | volumeUp | previousSong | nextSong | keyWakeup
  | waitPaused | tone (name : String) | system (command : String) | stopall | createSaoma
  | createWaitWifi
deriving DecidableEq, Repr

/-- `if (status == PLAYER_PLAYING) mozart_musicplayer_play_pause` -/
def pausePlaying (answers : Answers) : List Effect :=
  if answers.status = .playing then [.playPause] else []

def effectsOf (act : Act) : List Effect :=
  match act.button, act.long with
  | .five, false =>
      if act.answers.vrAsr then [.asrBreak, .quit]
      else if act.answers.status = .playing then [.playPause, .waitPaused, .tone "pause"]
      else [.playPause]
  | .five, true =>
      pausePlaying act.answers ++
        [.system "killall wpa_supplicant", .tone "enter_network_config", .stopall, .createSaoma,
          .createWaitWifi]
  | .ten, false => [.volumeDown]
  | .ten, true => pausePlaying act.answers ++ [.waitPaused, .tone "prev", .previousSong]
  | .twentyOne, false => [.keyWakeup]
  | .twentyFour, false => [.volumeUp]
  | .twentyFour, true => pausePlaying act.answers ++ [.waitPaused, .tone "next", .nextSong]
  | _, _ => []

/-- Where a thread in `timeout_func` stands. `storing` holds the value that `time_cnt1--` has
read. -/
inductive Timer where
  | created | armed | testing | counting | storing (value : Int) | clearing | ended
deriving DecidableEq, Repr

/-- `pressTime` is 0 for a key that has not been pressed. `extending` says that the key thread
has found `KEY_ALL` set and not yet written `time_cnt1`. -/
structure Keys where
  keyAll : Bool
  timeCnt : Int
  timers : List Timer
  extending : Bool
  pressTime : Button → Int
  acts : List Act

def timeoutFunc (keys : Keys) : Timer → Timer × Keys
  | .created => (.armed, { keys with timeCnt := 3 })
  | .armed => (.testing, { keys with keyAll := true })
  | .testing => (if keys.timeCnt ≠ 0 then .counting else .clearing, keys)
  | .counting => (.storing keys.timeCnt, keys)
  | .storing value => (.testing, { keys with timeCnt := value - 1 })
  | .clearing => (.ended, { keys with keyAll := false })
  | .ended => (.ended, keys)

def Keys.press (keys : Keys) (button : Button) (time : Int) : Keys :=
  { keys with pressTime := Function.update keys.pressTime button time }

/-- A release acts by the time since the press, and forgets it. -/
def Keys.release (keys : Keys) (button : Button) (time : Int) (answers : Answers) : Keys :=
  let pressed := keys.pressTime button
  { keys with
    pressTime := Function.update keys.pressTime button 0
    acts :=
      if time - pressed ≤ 1 ∧ pressed > 0 then keys.acts ++ [⟨button, false, answers⟩]
      else if time - pressed > 1 ∧ pressed > 0 then keys.acts ++ [⟨button, true, answers⟩]
      else keys.acts }

def Keys.handle (keys : Keys) (message : Message) : Keys :=
  match message.module, buttonOf message.id with
  | .gpio, some button =>
      if message.val = 0 then keys.press button message.time
      else if message.val = 1 then keys.release button message.time message.answers
      else keys
  | _, _ => keys

def Keys.pressTimeout (keys : Keys) (threadCreated : Bool) : Keys :=
  { keys with timers := if threadCreated then keys.timers ++ [.created] else keys.timers }

/-- A press of any GPIO key starts a timer thread, where one can be created, and is passed
over while `KEY_ALL` is set. -/
def keyCallbackFunc (keys : Keys) (message : Message) (threadCreated : Bool) : Keys :=
  if message.module = .gpio ∧ message.val = 0 then
    if keys.keyAll then { keys with extending := true }
    else (keys.pressTimeout threadCreated).handle message
  else keys.handle message

inductive Op where
  /-- The key thread takes the next message. -/
  | message (message : Message) (threadCreated : Bool)
  /-- The key thread writes `time_cnt1 = 10`. -/
  | extend
  /-- A timer thread takes its next step. -/
  | timer (index : Nat)
deriving DecidableEq, Repr

def step (keys : Keys) : Op → Keys
  | .message message threadCreated =>
      if keys.extending then keys else keyCallbackFunc keys message threadCreated
  | .extend =>
      if keys.extending then { keys with timeCnt := 10, extending := false } else keys
  | .timer index =>
      match keys.timers[index]? with
      | none => keys
      | some timer =>
          { (timeoutFunc keys timer).2 with
            timers := keys.timers.set index (timeoutFunc keys timer).1 }

end Source

/-! ## What a release does -/

section Acts

/-- What the key thread has taken in. -/
inductive Heard where
  | press (button : Button) (time : Int)
  | release (button : Button) (time : Int) (answers : Answers)
deriving DecidableEq, Repr

def Heard.button : Heard → Button
  | .press button _ => button
  | .release button _ _ => button

def Heard.pressTime : Heard → Option Int
  | .press _ time => some time
  | .release _ _ _ => none

/-- The message as the switch over the keys sees it. -/
def heardOf (message : Message) : List Heard :=
  match message.module, buttonOf message.id with
  | .gpio, some button =>
      if message.val = 0 then [.press button message.time]
      else if message.val = 1 then [.release button message.time message.answers]
      else []
  | _, _ => []

/-- A press is passed over while `KEY_ALL` is set. -/
def taken (keys : Keys) : Op → List Heard
  | .message message _ =>
      if keys.extending then []
      else if message.module = .gpio ∧ message.val = 0 ∧ keys.keyAll = true then []
      else heardOf message
  | _ => []

def takenAlong (keys : Keys) : List Op → List Heard
  | [] => []
  | op :: rest => taken keys op ++ takenAlong (step keys op) rest

def pressedAt (button : Button) (heard : List Heard) : Option Int :=
  (heard.filter (·.button = button)).getLast?.bind Heard.pressTime

/-- A release acts for a press that is the last that was heard of its key, and is long when
more than a second has gone by. -/
def actFor (before : List Heard) : Heard → List Act
  | .press _ _ => []
  | .release button time answers =>
      match pressedAt button before with
      | some pressed => if pressed > 0 then [⟨button, decide (time - pressed > 1), answers⟩] else []
      | none => []

def actsFor (before : List Heard) : List Heard → List Act
  | [] => []
  | heard :: rest => actFor before heard ++ actsFor (before ++ [heard]) rest

/-- The press times are those of the history. -/
def Remembers (keys : Keys) (before : List Heard) : Prop :=
  ∀ button, keys.pressTime button = (pressedAt button before).getD 0

variable {keys : Keys} {before : List Heard}

theorem last_heard (before : List Heard) (heard : Heard) (other : Button) :
    ((before ++ [heard]).filter (·.button = other)).getLast? =
      if heard.button = other then some heard
      else (before.filter (·.button = other)).getLast? := by
  rw [List.filter_append]
  by_cases same : heard.button = other
  · simp [same]
  · simp [same]

theorem pressed_at_press (before : List Heard) (button other : Button) (time : Int) :
    pressedAt other (before ++ [.press button time]) =
      if button = other then some time else pressedAt other before := by
  rw [pressedAt, last_heard]
  by_cases same : button = other
  · rw [if_pos same, if_pos (show (Heard.press button time).button = other from same)]
    rfl
  · rw [if_neg same, if_neg (show ¬ (Heard.press button time).button = other from same)]
    rfl

theorem pressed_at_release (before : List Heard) (button other : Button) (time : Int)
    (answers : Answers) :
    pressedAt other (before ++ [.release button time answers]) =
      if button = other then none else pressedAt other before := by
  rw [pressedAt, last_heard]
  by_cases same : button = other
  · rw [if_pos same, if_pos (show (Heard.release button time answers).button = other from same)]
    rfl
  · rw [if_neg same, if_neg (show ¬ (Heard.release button time answers).button = other from same)]
    rfl

theorem press_remembers (remembers : Remembers keys before) (button : Button) (time : Int) :
    Remembers (keys.press button time) (before ++ [.press button time]) := by
  intro other
  rw [pressed_at_press, Keys.press]
  by_cases same : button = other
  · rw [if_pos same, ← same]
    exact Function.update_self button time keys.pressTime
  · rw [if_neg same, ← remembers other]
    exact Function.update_of_ne (Ne.symm same) time keys.pressTime

theorem release_remembers (remembers : Remembers keys before) (button : Button) (time : Int)
    (answers : Answers) :
    Remembers (keys.release button time answers) (before ++ [.release button time answers]) := by
  intro other
  rw [pressed_at_release, Keys.release]
  by_cases same : button = other
  · rw [if_pos same, ← same]
    exact Function.update_self button 0 keys.pressTime
  · rw [if_neg same, ← remembers other]
    exact Function.update_of_ne (Ne.symm same) 0 keys.pressTime

theorem release_acts (remembers : Remembers keys before) (button : Button) (time : Int)
    (answers : Answers) :
    (keys.release button time answers).acts =
      keys.acts ++ actFor before (.release button time answers) := by
  have known := remembers button
  rw [Keys.release, actFor]
  dsimp only
  cases pressed : pressedAt button before with
  | none =>
      rw [pressed, Option.getD_none] at known
      rw [known, List.append_nil, if_neg (by omega), if_neg (by omega)]
  | some since =>
      rw [pressed, Option.getD_some] at known
      rw [known]
      by_cases given : since > 0
      · by_cases long : time - since > 1
        · rw [if_neg (by omega), if_pos ⟨long, given⟩]
          simp [given, long]
        · rw [if_pos ⟨by omega, given⟩]
          simp [given, long]
      · rw [if_neg fun both => given both.2, if_neg fun both => given both.2]
        simp [given]

theorem handle_heard (remembers : Remembers keys before) (message : Message) :
    Remembers (keys.handle message) (before ++ heardOf message) ∧
      (keys.handle message).acts = keys.acts ++ actsFor before (heardOf message) := by
  rw [Keys.handle, heardOf]
  split
  next button _ _ =>
      split
      · exact ⟨press_remembers remembers button _, (List.append_nil _).symm⟩
      split
      · refine ⟨release_remembers remembers button _ _, ?_⟩
        rw [release_acts remembers, actsFor, actsFor, List.append_nil]
      · rw [List.append_nil]
        exact ⟨remembers, (List.append_nil _).symm⟩
  next =>
      rw [List.append_nil]
      exact ⟨remembers, (List.append_nil _).symm⟩

theorem step_heard (remembers : Remembers keys before) (op : Op) :
    Remembers (step keys op) (before ++ taken keys op) ∧
      (step keys op).acts = keys.acts ++ actsFor before (taken keys op) := by
  have still : Remembers keys (before ++ []) ∧ keys.acts = keys.acts ++ actsFor before [] := by
    rw [List.append_nil]
    exact ⟨remembers, (List.append_nil _).symm⟩
  cases op with
  | message message threadCreated =>
      rw [step, taken]
      split
      · exact still
      · rw [keyCallbackFunc]
        by_cases press : message.module = .gpio ∧ message.val = 0
        · rw [if_pos press]
          by_cases held : keys.keyAll = true
          · rw [if_pos held, if_pos ⟨press.1, press.2, held⟩]
            exact still
          · rw [if_neg held, if_neg fun all => held all.2.2]
            have started : Remembers (keys.pressTimeout threadCreated) before := remembers
            exact handle_heard started message
        · rw [if_neg press, if_neg fun all => press ⟨all.1, all.2.1⟩]
          exact handle_heard remembers message
  | extend =>
      rw [step]
      split
      · exact still
      · exact still
  | timer index =>
      rw [step]
      cases keys.timers[index]? with
      | none => exact still
      | some timer =>
          cases timer with
          | created | armed | testing | counting | storing _ | clearing | ended => exact still

theorem acts_for_append (before front back : List Heard) :
    actsFor before (front ++ back) = actsFor before front ++ actsFor (before ++ front) back := by
  induction front generalizing before with
  | nil => rw [List.append_nil]; rfl
  | cons heard front induction =>
      rw [List.cons_append, actsFor, actsFor, induction, List.append_assoc, List.append_assoc,
        List.singleton_append]

theorem run_heard (remembers : Remembers keys before) (ops : List Op) :
    (StepRuns.run step keys ops).acts = keys.acts ++ actsFor before (takenAlong keys ops) := by
  induction ops generalizing keys before with
  | nil => exact (List.append_nil _).symm
  | cons op rest induction =>
      have now := step_heard remembers op
      rw [StepRuns.run_cons, induction now.1, now.2, takenAlong, acts_for_append,
        List.append_assoc]

def done (keys : Keys) : List Effect := keys.acts.flatMap effectsOf

theorem run_done (remembers : Remembers keys before) (ops : List Op) :
    done (StepRuns.run step keys ops) =
      done keys ++ (actsFor before (takenAlong keys ops)).flatMap effectsOf := by
  rw [done, run_heard remembers, List.flatMap_append, done]

theorem tone_pauses {act : Act} {name : String} (tone : .tone name ∈ effectsOf act)
    (playing : act.answers.status = .playing) : (effectsOf act).head? = some .playPause := by
  rcases act with ⟨button, long, answers⟩
  dsimp only at playing
  cases button <;> cases long <;> simp [effectsOf, pausePlaying, playing] at tone ⊢
  split at tone
  · simp at tone
  next recording => simp [recording]

theorem run_tones_pause (remembers : Remembers keys before) (none : done keys = [])
    (ops : List Op) {name : String} (tone : .tone name ∈ done (StepRuns.run step keys ops)) :
    ∃ act ∈ actsFor before (takenAlong keys ops), .tone name ∈ effectsOf act ∧
      (act.answers.status = .playing → (effectsOf act).head? = some .playPause) := by
  rw [run_done remembers, none, List.nil_append] at tone
  rcases List.mem_flatMap.mp tone with ⟨act, member, played⟩
  exact ⟨act, member, played, tone_pauses played⟩

end Acts

/-! ## The timer threads -/

section Timers

/-- How a timer and the variables stand to each other while it is the only one. -/
def Sound (keys : Keys) : Timer → Prop
  | .created => keys.keyAll = false ∧ keys.extending = false
  | .armed => keys.keyAll = false ∧ keys.extending = false ∧ keys.timeCnt = 3
  | .testing => keys.keyAll = true
  | .counting => keys.keyAll = true ∧ 0 < keys.timeCnt
  | .storing value => keys.keyAll = true ∧ 0 < value ∧ value ≤ 10
  | .clearing => keys.keyAll = true
  | .ended => keys.keyAll = false

def LastOnly (keys : Keys) : Prop :=
  (keys.timers = [] ∧ keys.keyAll = false) ∨
    ∃ front timer, keys.timers = front ++ [timer] ∧ (∀ other ∈ front, other = .ended) ∧
      Sound keys timer

structure OneTimer (keys : Keys) : Prop where
  nonneg : 0 ≤ keys.timeCnt
  most : keys.timeCnt ≤ 10
  last : LastOnly keys

def Timer.left (timeCnt : Int) : Timer → Nat
  | .created => 13
  | .armed => 12
  | .testing => 3 * timeCnt.toNat + 2
  | .counting => 3 * timeCnt.toNat + 1
  | .storing value => 3 * value.toNat
  | .clearing => 1
  | .ended => 0

/-- A press comes when the timer of the one before it has set `KEY_ALL`. -/
def Prompt (keys : Keys) : Op → Prop
  | .message message _ => message.module = .gpio ∧ message.val = 0 →
      ∀ timer ∈ keys.timers, timer ≠ .created ∧ timer ≠ .armed
  | _ => True

variable {keys : Keys}

theorem timer_func_sound (nonneg : 0 ≤ keys.timeCnt) (most : keys.timeCnt ≤ 10) {timer : Timer}
    (sound : Sound keys timer) :
    0 ≤ (timeoutFunc keys timer).2.timeCnt ∧ (timeoutFunc keys timer).2.timeCnt ≤ 10 ∧
      Sound (timeoutFunc keys timer).2 (timeoutFunc keys timer).1 ∧
      (timeoutFunc keys timer).1.left (timeoutFunc keys timer).2.timeCnt =
        timer.left keys.timeCnt - 1 := by
  cases timer with
  | created =>
      have small : (0 : Int) ≤ 3 ∧ (3 : Int) ≤ 10 := by decide
      exact ⟨small.1, small.2, ⟨sound.1, sound.2, rfl⟩, rfl⟩
  | armed =>
      refine ⟨nonneg, most, rfl, ?_⟩
      rw [timeoutFunc, Timer.left, Timer.left, sound.2.2]
      rfl
  | testing =>
      rw [timeoutFunc]
      by_cases zero : keys.timeCnt = 0
      · rw [if_neg (not_not.mpr zero)]
        refine ⟨nonneg, most, sound, ?_⟩
        rw [Timer.left, Timer.left, zero]
        rfl
      · rw [if_pos zero]
        exact ⟨nonneg, most, ⟨sound, by dsimp only; omega⟩, rfl⟩
  | counting => exact ⟨nonneg, most, ⟨sound.1, sound.2, most⟩, rfl⟩
  | storing value =>
      rcases sound with ⟨held, positive, small⟩
      rw [timeoutFunc]
      refine ⟨by dsimp only; omega, by dsimp only; omega, held, ?_⟩
      rw [Timer.left, Timer.left]
      dsimp only
      omega
  | clearing => exact ⟨nonneg, most, rfl, rfl⟩
  | ended => exact ⟨nonneg, most, sound, rfl⟩

/-- What the sharing of the variables comes to for a timer. -/
theorem sound_congr {other : Keys} (all : other.keyAll = keys.keyAll)
    (count : other.timeCnt = keys.timeCnt) (extending : other.extending = keys.extending)
    {timer : Timer} (sound : Sound keys timer) : Sound other timer := by
  cases timer <;> simpa only [Sound, all, count, extending] using sound

theorem timer_step_last {front : List Timer} {timer : Timer}
    (timers : keys.timers = front ++ [timer]) :
    step keys (.timer front.length) =
      { (timeoutFunc keys timer).2 with timers := front ++ [(timeoutFunc keys timer).1] } := by
  have found : keys.timers[front.length]? = some timer := by
    rw [timers, List.getElem?_append_right (Nat.le_refl _), Nat.sub_self]
    rfl
  have set : keys.timers.set front.length (timeoutFunc keys timer).1 =
      front ++ [(timeoutFunc keys timer).1] := by
    rw [timers, List.set_append_right _ _ (Nat.le_refl _), Nat.sub_self]
    rfl
  rw [step, found]
  dsimp only
  rw [set]

theorem timer_step_ended {index : Nat} (ended : keys.timers[index]? = some .ended) :
    step keys (.timer index) = keys := by
  have same : keys.timers.set index .ended = keys.timers := by
    apply List.ext_getElem?
    intro other
    rw [List.getElem?_set]
    split
    next here =>
        rw [← here, ended]
        split
        · rfl
        next outside =>
            rw [List.getElem?_eq_none (by omega)] at ended
            exact absurd ended (by simp)
    next => rfl
  rw [step, ended]
  dsimp only [timeoutFunc]
  rw [same]

theorem timer_step_one (one : OneTimer keys) (index : Nat) :
    OneTimer (step keys (.timer index)) := by
  cases found : keys.timers[index]? with
  | none =>
      rw [step, found]
      exact one
  | some timer =>
      rcases one.last with ⟨none, _⟩ | ⟨front, last, timers, ended, sound⟩
      · rw [none] at found
        exact absurd found (by simp)
      · by_cases before : index < front.length
        · have other : front[index]? = some timer := by
            rw [timers, List.getElem?_append_left before] at found
            exact found
          have finished := ended timer (List.mem_of_getElem? other)
          rw [finished] at found
          rw [timer_step_ended found]
          exact one
        · have inside : index < keys.timers.length := by
            by_contra outside
            rw [List.getElem?_eq_none (by omega)] at found
            exact absurd found (by simp)
          have here : index = front.length := by
            rw [timers, List.length_append, List.length_singleton] at inside
            omega
          rw [here, timer_step_last timers]
          rcases timer_func_sound one.nonneg one.most sound with ⟨nonneg, most, still, _⟩
          exact ⟨nonneg, most, Or.inr ⟨front, _, rfl, ended, sound_congr rfl rfl rfl still⟩⟩

theorem handle_timers (keys : Keys) (message : Message) :
    (keys.handle message).timers = keys.timers ∧ (keys.handle message).keyAll = keys.keyAll ∧
      (keys.handle message).timeCnt = keys.timeCnt ∧
      (keys.handle message).extending = keys.extending := by
  rw [Keys.handle]
  split
  · split
    · exact ⟨rfl, rfl, rfl, rfl⟩
    split
    · exact ⟨rfl, rfl, rfl, rfl⟩
    · exact ⟨rfl, rfl, rfl, rfl⟩
  · exact ⟨rfl, rfl, rfl, rfl⟩

theorem handle_one (one : OneTimer keys) (message : Message) : OneTimer (keys.handle message) := by
  rcases handle_timers keys message with ⟨timers, all, count, extending⟩
  refine ⟨by rw [count]; exact one.nonneg, by rw [count]; exact one.most, ?_⟩
  rw [LastOnly, timers, all]
  rcases one.last with none | ⟨front, timer, split, ended, sound⟩
  · exact Or.inl none
  · exact Or.inr ⟨front, timer, split, ended, sound_congr all count extending sound⟩

/-- Where no timer has still to set `KEY_ALL`, the first press finds none at work. -/
theorem press_timeout_one (one : OneTimer keys) (free : keys.keyAll = false)
    (idle : keys.extending = false)
    (prompt : ∀ timer ∈ keys.timers, timer ≠ .created ∧ timer ≠ .armed) (threadCreated : Bool) :
    OneTimer (keys.pressTimeout threadCreated) := by
  refine ⟨one.nonneg, one.most, ?_⟩
  rw [Keys.pressTimeout, LastOnly]
  cases threadCreated with
  | false => exact one.last
  | true =>
      right
      refine ⟨keys.timers, .created, rfl, ?_, free, idle⟩
      rcases one.last with ⟨none, _⟩ | ⟨front, timer, timers, ended, sound⟩
      · rw [none]
        exact fun other member => absurd member List.not_mem_nil
      · have finished : timer = .ended := by
          have begun := prompt timer (by rw [timers]; simp)
          cases timer with
          | created => exact absurd rfl begun.1
          | armed => exact absurd rfl begun.2
          | testing => exact absurd (free.symm.trans sound) Bool.false_ne_true
          | counting => exact absurd (free.symm.trans sound.1) Bool.false_ne_true
          | storing value => exact absurd (free.symm.trans sound.1) Bool.false_ne_true
          | clearing => exact absurd (free.symm.trans sound) Bool.false_ne_true
          | ended => rfl
        rw [timers, finished]
        intro other member
        rcases List.mem_append.mp member with front | last
        · exact ended other front
        · exact List.mem_singleton.mp last

/-- `time_cnt1` may be set back at any point while `KEY_ALL` is set, and later. -/
theorem sound_extended {timer : Timer} (sound : Sound keys timer)
    (extending : keys.extending = true) :
    Sound { keys with timeCnt := 10, extending := false } timer := by
  cases timer with
  | created => exact absurd (sound.2.symm.trans extending) Bool.false_ne_true
  | armed => exact absurd (sound.2.1.symm.trans extending) Bool.false_ne_true
  | testing => exact sound
  | counting =>
      have positive : (0 : Int) < 10 := by decide
      exact ⟨sound.1, positive⟩
  | storing value => exact sound
  | clearing => exact sound
  | ended => exact sound

theorem sound_held {timer : Timer} (sound : Sound keys timer) (held : keys.keyAll = true) :
    Sound { keys with extending := true } timer := by
  cases timer with
  | created => exact absurd (sound.1.symm.trans held) Bool.false_ne_true
  | armed => exact absurd (sound.1.symm.trans held) Bool.false_ne_true
  | testing => exact sound
  | counting => exact sound
  | storing value => exact sound
  | clearing => exact sound
  | ended => exact sound

theorem step_one (keys : Keys) (op : Op) (one : OneTimer keys) (prompt : Prompt keys op) :
    OneTimer (step keys op) := by
  cases op with
  | message message threadCreated =>
      rw [step]
      split
      · exact one
      next idle =>
      rw [keyCallbackFunc]
      split
      next press =>
          split
          next held =>
              refine ⟨one.nonneg, one.most, ?_⟩
              rcases one.last with none | ⟨front, timer, timers, ended, sound⟩
              · exact Or.inl none
              · exact Or.inr ⟨front, timer, timers, ended, sound_held sound held⟩
          next free =>
              apply handle_one
              exact press_timeout_one one (Bool.eq_false_iff.mpr free) (Bool.eq_false_iff.mpr idle)
                (prompt press) threadCreated
      next => exact handle_one one message
  | extend =>
      rw [step]
      split
      next extending =>
          have small : (0 : Int) ≤ 10 ∧ (10 : Int) ≤ 10 := by decide
          refine ⟨small.1, small.2, ?_⟩
          rcases one.last with none | ⟨front, timer, timers, ended, sound⟩
          · exact Or.inl none
          · exact Or.inr ⟨front, timer, timers, ended, sound_extended sound extending⟩
      next => exact one
  | timer index => exact timer_step_one one index

theorem last_timer_ends (left : Nat) (one : OneTimer keys) {front : List Timer} {timer : Timer}
    (timers : keys.timers = front ++ [timer]) (ended : ∀ other ∈ front, other = .ended)
    (sound : Sound keys timer) (enough : timer.left keys.timeCnt ≤ left) :
    let after := StepRuns.run step keys (List.replicate left (.timer front.length))
    (∀ other ∈ after.timers, other = .ended) ∧ after.keyAll = false := by
  induction left generalizing keys timer with
  | zero =>
      have finished : timer = .ended := by
        cases timer with
        | storing value =>
            rcases sound with ⟨_, positive, _⟩
            rw [Timer.left] at enough
            omega
        | created | armed | testing | counting | clearing =>
            rw [Timer.left] at enough
            omega
        | ended => rfl
      rw [finished] at sound timers
      refine ⟨?_, sound⟩
      rw [List.replicate_zero, StepRuns.run_nil, timers]
      intro other member
      rcases List.mem_append.mp member with front | last
      · exact ended other front
      · exact List.mem_singleton.mp last
  | succ left induction =>
      rcases timer_func_sound one.nonneg one.most sound with ⟨_, _, still, fewer⟩
      have next := timer_step_one one front.length
      rw [List.replicate_succ]
      dsimp only
      rw [StepRuns.run_cons]
      rw [timer_step_last timers] at next ⊢
      exact induction next rfl (sound_congr rfl rfl rfl still) (by dsimp only; omega)

end Timers

section Results

/-- No key has been pressed and no timer runs. -/
structure AtRest (keys : Keys) : Prop where
  free : keys.keyAll = false
  count : keys.timeCnt = 0
  timers : keys.timers = []
  extending : keys.extending = false
  pressTime : ∀ button, keys.pressTime button = 0
  acts : keys.acts = []

/-- Whatever the timers do meanwhile, a release acts when the last message taken in for its
key is a press, and then once: short within a second, else long. -/
theorem releases_act_once (start : Keys) (ops : List Op) (rest : AtRest start) :
    (StepRuns.run step start ops).acts = actsFor [] (takenAlong start ops) := by
  have remembers : Remembers start [] := by
    intro button
    rw [rest.pressTime]
    rfl
  rw [run_heard remembers, rest.acts]
  rfl

def restingKeys : Keys := ⟨false, 0, [], false, fun _ => 0, []⟩

theorem resting_at_rest : AtRest restingKeys := ⟨rfl, rfl, rfl, rfl, fun _ => rfl, rfl⟩

def key (id val : Nat) (time : Int) : Op :=
  .message ⟨.gpio, id, val, time, ⟨false, .stopped⟩⟩ true

/-- A long press of one key, with a press of another that is passed over. -/
theorem releases_act_once_long :
    let ops := [key 5 0 100, .timer 0, .timer 0, key 21 0 101, .extend, key 5 1 103, key 21 1 103]
    (StepRuns.run step restingKeys ops).acts = actsFor [] (takenAlong restingKeys ops) :=
  releases_act_once restingKeys _ resting_at_rest

/-- The keys never stay held off: at any time, when no press comes, the timer thread ends
within 32 steps of its own and `KEY_ALL` is clear. -/
theorem keys_come_back (start : Keys) (ops : List Op) (rest : AtRest start)
    (prompt : StepRuns.EveryStep step Prompt start ops) :
    StepRuns.AlongRun step (fun keys => ∃ turns ≤ 32,
      let after := StepRuns.run step keys (List.replicate turns (.timer (keys.timers.length - 1)))
      (∀ timer ∈ after.timers, timer = .ended) ∧ after.keyAll = false) start ops := by
  have begins : OneTimer start := by
    have count := rest.count
    exact ⟨by omega, by omega, Or.inl ⟨rest.timers, rest.free⟩⟩
  apply StepRuns.along_run_of_every_step _ step_one start begins ops prompt
  intro keys one
  rcases one.last with ⟨none, free⟩ | ⟨front, timer, timers, ended, sound⟩
  · refine ⟨0, Nat.zero_le _, ?_, free⟩
    rw [List.replicate_zero, StepRuns.run_nil, none]
    exact fun timer member => absurd member List.not_mem_nil
  · have place : keys.timers.length - 1 = front.length := by
      rw [timers, List.length_append, List.length_singleton]
      rfl
    have small : timer.left keys.timeCnt ≤ 32 := by
      have most := one.most
      cases timer with
      | storing value =>
          rcases sound with ⟨_, _, within⟩
          rw [Timer.left]
          omega
      | created | armed | testing | counting | clearing | ended =>
          rw [Timer.left]
          omega
    refine ⟨32, Nat.le_refl _, ?_⟩
    rw [place]
    exact last_timer_ends 32 one timers ended sound small

theorem keys_come_back_held :
    StepRuns.AlongRun step (fun keys => ∃ turns ≤ 32,
      let after := StepRuns.run step keys (List.replicate turns (.timer (keys.timers.length - 1)))
      (∀ timer ∈ after.timers, timer = .ended) ∧ after.keyAll = false) restingKeys
      [key 5 0 100, .timer 0, .timer 0, key 21 0 101, .extend] := by
  apply keys_come_back restingKeys _ resting_at_rest
  refine ⟨fun _ => by decide, trivial, trivial, fun _ => by decide, trivial, trivial⟩

/-- Two presses in a row start two timers, which may count past 0 together. -/
example :
    (StepRuns.run step restingKeys
      [key 5 0 100, key 5 0 100, .timer 0, .timer 0, .timer 1, .timer 1, .timer 0, .timer 0,
        .timer 0, .timer 0, .timer 0, .timer 0, .timer 0, .timer 1, .timer 0, .timer 0, .timer 1,
        .timer 1]).timeCnt = -1 := by decide

end Results

end Gk7102.KeyPresses
