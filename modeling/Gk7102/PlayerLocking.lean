import Mathlib.Logic.Function.Basic
import Gk7102.PlayPermission

/-!
# The mutex of the music player and its polls

Any number of API threads, the event thread and the player callback thread step
over `musicplayer_mutex`, the `MUSICPLAYER_DOMAIN` cell and `musicplayer_status`.
A thread works through a list of tasks; a call that takes the lock goes through
phases. All threads use the one handler of the program, so the owner is a flag.
What a step learns from outside (the active domain, a command that could be
created, the status of the player) is its `Luck`.
-/

namespace Gk7102.PlayerLocking

open Gk7102.StepRuns
open Gk7102.MusicPlayer
open Gk7102.PlayPermission

set_option autoImplicit false

inductive ThreadId where
  | api (number : Nat)
  | event
  | callback
deriving DecidableEq, Repr

/-- What a call does once it has the lock: a `query` stands for every call that
neither polls nor writes what is modelled here. -/
inductive Job where
  | query
  | start
  | play
  | stop
deriving DecidableEq, Repr

/-- `requesting` lies between writing WAIT_RESPONSE and the first poll. -/
inductive Phase where
  | running
  | spinning (job : Job)
  | inside (job : Job)
  | requesting
  | pollingResponse (rounds : Nat)
  | pollingStopped (rounds : Nat)
deriving DecidableEq, Repr

inductive Task where
  | writeStatus (status : PlayerStatus)
  | writeCell (status : ModuleStatus)
  | clearAutoplay
  | stopSettled
  | call (job : Job)
  | nextIfAutoplay
  | moduleStop (respond : Bool)
deriving DecidableEq, Repr

structure Thread where
  phase : Phase
  todo : List Task
deriving DecidableEq, Repr

structure System where
  lock : Option ThreadId
  cell : ModuleStatus
  playerStatus : PlayerStatus
  inMusicplayer : Bool
  autoplay : Bool
  owned : Bool
  pendingEvents : Nat
  audioOss : Bool
  threads : ThreadId → Thread

/-- What `share_mem_get_active_domain` reports; `failed` also covers a domain
`mozart_module_stop` does not support. -/
inductive ActiveDomain where
  | failed
  | musicplayer
  | other
deriving DecidableEq, Repr

structure Luck where
  domain : ActiveDomain
  commandOk : Bool
  songSelected : Bool
  alreadyStopped : Bool
  stoppedInTime : Bool
  eventDelivered : Bool
deriving DecidableEq, Repr

inductive ApiCall where
  | query
  | start
  | play
  | stop
  | stopPlayback
  | moduleStop
deriving DecidableEq, Repr

def apiTasks : ApiCall → List Task
  | .query => [.call .query]
  | .start => [.call .start]
  | .play => [.call .play]
  | .stop => [.call .stop]
  | .stopPlayback => [.clearAutoplay, .stopSettled]
  | .moduleStop => [.moduleStop false]

/-- `mozart_ingenicplayer_notify_song_info` asks five locked queries, and a sixth
when there is a song. -/
def notifySongInfo (song : Bool) : List Task :=
  List.replicate (if song then 6 else 5) (.call .query)

def callbackTasks (own : Bool) (status : PlayerStatus) (song : Bool) : List Task :=
  if own = false then [.writeCell .running, .writeStatus .stopped]
  else
    .writeStatus status ::
      match status with
      | .transport => .writeCell .playing :: notifySongInfo song
      | .playing => .writeCell .playing :: notifySongInfo song
      | .paused => .writeCell .pause :: notifySongInfo song
      | .stopped => [.writeCell .running, .nextIfAutoplay]
      | .unknown => [.writeStatus .stopped, .writeCell .running]
      | .aoswitchFail => [.writeStatus .stopped]

def System.setThread (system : System) (thread : ThreadId) (value : Thread) : System :=
  { system with threads := Function.update system.threads thread value }

@[simp] theorem set_thread_self (system : System) (thread : ThreadId) (value : Thread) :
    (system.setThread thread value).threads thread = value := by
  simp [System.setThread]

theorem set_thread_other (system : System) (value : Thread) {thread other : ThreadId}
    (distinct : other ≠ thread) :
    (system.setThread thread value).threads other = system.threads other := by
  simp [System.setThread, distinct]

def System.unlock (system : System) (thread : ThreadId) : System :=
  { system with
    lock := none
    threads := Function.update system.threads thread
      { phase := .running, todo := (system.threads thread).todo } }

def System.setPhase (system : System) (thread : ThreadId) (phase : Phase) : System :=
  system.setThread thread { phase := phase, todo := (system.threads thread).todo }

def runTask (system : System) (thread : ThreadId) (luck : Luck) (task : Task)
    (rest : List Task) : System :=
  let continued := system.setThread thread { phase := .running, todo := rest }
  match task with
  | .writeStatus status => { continued with playerStatus := status }
  | .writeCell status => { continued with cell := status }
  | .clearAutoplay => { continued with autoplay := false }
  | .stopSettled =>
      if luck.commandOk ∧ (system.audioOss = false ∨ luck.stoppedInTime) then
        system.setThread thread { phase := .running, todo := .writeCell .running :: rest }
      else continued
  | .call job => system.setThread thread { phase := .spinning job, todo := rest }
  | .nextIfAutoplay =>
      if system.autoplay then
        system.setThread thread { phase := .spinning .play, todo := rest }
      else continued
  | .moduleStop respond =>
      let answer := fun response => if respond then [Task.writeCell response] else []
      match luck.domain with
      | .failed =>
          system.setThread thread
            { phase := .running, todo := answer .responseCancel ++ rest }
      | .musicplayer =>
          system.setThread thread
            { phase := .running, todo := .call .stop :: answer .responseDone ++ rest }
      | .other =>
          system.setThread thread { phase := .running, todo := answer .responseDone ++ rest }

/-- The body of a call under the lock, up to its end or to its poll. -/
def runJob (system : System) (thread : ThreadId) (luck : Luck) : Job → System
  | .query => system.unlock thread
  | .start => { system with owned := true }.unlock thread
  | .play =>
      if system.owned = false ∨ luck.songSelected = false then system.unlock thread
      else if system.inMusicplayer then
        { system with autoplay := system.autoplay || luck.commandOk }.unlock thread
      else { system with cell := .waitResponse }.setPhase thread .requesting
  | .stop =>
      let left := { system with inMusicplayer := false }
      if left.owned = false then left.unlock thread
      else if luck.alreadyStopped then { left with owned := false }.unlock thread
      else if luck.commandOk = false then
        { left with autoplay := false, owned := false }.unlock thread
      else if left.audioOss then { left with autoplay := false }.setPhase thread (.pollingStopped 0)
      else { left with autoplay := false, cell := .running, owned := false }.unlock thread

/-- A poll that saw a permission plays the song, if a command can be created. -/
def permissionSeen (system : System) (thread : ThreadId) (luck : Luck) : System :=
  if system.cell = .responseCancel ∨ luck.commandOk = false then system.unlock thread
  else { system with inMusicplayer := true, autoplay := true }.unlock thread

def stopPollLimit : Nat := 500

def advance (system : System) (thread : ThreadId) (luck : Luck) : System :=
  match (system.threads thread).phase with
  | .running =>
      match (system.threads thread).todo with
      | [] => system
      | task :: rest => runTask system thread luck task rest
  | .spinning job =>
      if system.lock = none then
        { system with lock := some thread }.setPhase thread (.inside job)
      else system
  | .inside job => runJob system thread luck job
  | .requesting =>
      { system with
        pendingEvents := system.pendingEvents + if luck.eventDelivered then 1 else 0 }.setPhase
        thread (.pollingResponse 0)
  | .pollingResponse rounds =>
      if isResponse system.cell then permissionSeen system thread luck
      else if rounds + 1 = pollLimit then system.unlock thread
      else system.setPhase thread (.pollingResponse (rounds + 1))
  | .pollingStopped rounds =>
      if system.playerStatus = .stopped then
        { system with cell := .running, owned := false }.unlock thread
      else if rounds + 1 = stopPollLimit then { system with owned := false }.unlock thread
      else system.setPhase thread (.pollingStopped (rounds + 1))

inductive LockOp where
  | apiCall (number : Nat) (call : ApiCall)
  | deliverEvent
  | deliverSnapshot (own : Bool) (status : PlayerStatus) (song : Bool)
  | advance (thread : ThreadId) (luck : Luck)
deriving DecidableEq, Repr

/-- A thread without work takes up the tasks. -/
def System.assign (system : System) (thread : ThreadId) (tasks : List Task) : System :=
  if system.threads thread = { phase := .running, todo := [] } then
    system.setThread thread { phase := .running, todo := tasks }
  else system

def lockStep (system : System) : LockOp → System
  | .apiCall number call => system.assign (.api number) (apiTasks call)
  | .deliverEvent =>
      if system.pendingEvents = 0 ∨ system.threads .event ≠ { phase := .running, todo := [] } then
        system
      else
        { system with pendingEvents := system.pendingEvents - 1 }.assign .event [.moduleStop true]
  | .deliverSnapshot own status song => system.assign .callback (callbackTasks own status song)
  | .advance thread luck => advance system thread luck

def systemStart (audioOss : Bool) : System where
  lock := none
  cell := .running
  playerStatus := .unknown
  inMusicplayer := false
  autoplay := false
  owned := false
  pendingEvents := 0
  audioOss := audioOss
  threads := fun _ => { phase := .running, todo := [] }

/-- The two things a thread polls for while it holds the lock. -/
inductive Wait where
  | response
  | stopped
deriving DecidableEq, Repr

def waitOf : Phase → Option Wait
  | .pollingResponse _ => some .response
  | .pollingStopped _ => some .stopped
  | _ => none

def ender : Wait → ThreadId
  | .response => .event
  | .stopped => .callback

def ended (system : System) : Wait → Bool
  | .response => isResponse system.cell
  | .stopped => decide (system.playerStatus = .stopped)

def isSpinning : Phase → Bool
  | .spinning _ => true
  | _ => false

def HolderWaits (system : System) (wait : Wait) : Prop :=
  (∃ holder, system.lock = some holder ∧
    waitOf (system.threads holder).phase = some wait) ∧ ended system wait = false

def CircularWait (system : System) : Prop :=
  ∃ wait, HolderWaits system wait ∧ isSpinning (system.threads (ender wait)).phase = true

def EntersLock (system : System) (thread : ThreadId) : Prop :=
  (system.threads thread).phase = .running ∧
    ∃ rest, (∃ job, (system.threads thread).todo = .call job :: rest) ∨
      ((system.threads thread).todo = .nextIfAutoplay :: rest ∧ system.autoplay = true)

def BeginsPoll (system : System) (thread : ThreadId) (luck : Luck) : Wait → Prop
  | .response => (system.threads thread).phase = .requesting
  | .stopped => (system.threads thread).phase = .inside .stop ∧ system.owned = true ∧
      luck.alreadyStopped = false ∧ luck.commandOk = true ∧ system.audioOss = true

def OverwritesResponse (system : System) (thread : ThreadId) : Prop :=
  (system.threads thread).phase = .running ∧ isResponse system.cell = true ∧
    ∃ status rest, (system.threads thread).todo = .writeCell status :: rest ∧
      isResponse status = false

/-- The three ways into a circular wait: the thread that should end the poll
walks into the lock, a poll begins while that thread is already spinning, or the
response such a thread left behind is overwritten before it is read. -/
inductive Hazard (system : System) (thread : ThreadId) (luck : Luck) : Prop where
  | walksIn (wait : Wait) (waiting : HolderWaits system wait) (mine : thread = ender wait)
      (enters : EntersLock system thread)
  | begins (wait : Wait) (holds : system.lock = some thread)
      (begins : BeginsPoll system thread luck wait) (open_wait : ended system wait = false)
      (spins : isSpinning (system.threads (ender wait)).phase = true)
  | overwrites (holder : ThreadId) (holds : system.lock = some holder)
      (polls : waitOf (system.threads holder).phase = some .response)
      (spins : isSpinning (system.threads .event).phase = true)
      (writes : OverwritesResponse system thread)

def HazardousStep (system : System) : LockOp → Prop
  | .advance thread luck => Hazard system thread luck
  | _ => False

/-- The phases that come between taking the lock and giving it back. -/
def holdsLock : Phase → Bool
  | .running => false
  | .spinning _ => false
  | _ => true

/-- A thread in the middle of a locked call is the one the mutex belongs to. -/
def LockLaw (system : System) : Prop :=
  ∀ thread, holdsLock (system.threads thread).phase = true → system.lock = some thread

def StatusLaw (system : System) : Prop :=
  ∀ thread, thread ≠ .callback →
    ∀ status, Task.writeStatus status ∉ (system.threads thread).todo

/-- One thread gets a new phase and task list; it takes on no status writes. -/
structure Touches (system next : System) (thread : ThreadId) (value : Thread) : Prop where
  threads : next.threads = Function.update system.threads thread value
  todo : ∀ status, Task.writeStatus status ∈ value.todo →
    Task.writeStatus status ∈ (system.threads thread).todo

structure SameShared (system next : System) : Prop where
  lock : next.lock = system.lock
  cell : next.cell = system.cell
  playerStatus : next.playerStatus = system.playerStatus

/-- What one step of a thread can do to the lock, the cell, the status and the
thread itself. -/
inductive Move (system : System) (thread : ThreadId) (luck : Luck) (next : System) : Prop where
  | frees (value : Thread) (touches : Touches system next thread value)
      (held : holdsLock (system.threads thread).phase = true) (free : next.lock = none)
      (left : holdsLock value.phase = false)
  | works (value : Thread) (touches : Touches system next thread value)
      (mine : next.lock = some thread)
      (before : system.lock = none ∨ holdsLock (system.threads thread).phase = true)
      (busy : waitOf value.phase = none)
  | goesOn (value : Thread) (touches : Touches system next thread value)
      (same : SameShared system next)
      (waits : waitOf value.phase = waitOf (system.threads thread).phase)
      (spins : isSpinning value.phase = isSpinning (system.threads thread).phase)
      (holds : holdsLock value.phase = holdsLock (system.threads thread).phase)
  | spins (value : Thread) (touches : Touches system next thread value)
      (same : SameShared system next) (enters : EntersLock system thread)
      (spinning : isSpinning value.phase = true)
  | writesStatus (status : PlayerStatus) (value : Thread)
      (touches : Touches system next thread value)
      (running : (system.threads thread).phase = .running) (still : value.phase = .running)
      (writes : Task.writeStatus status ∈ (system.threads thread).todo)
      (lock : next.lock = system.lock) (cell : next.cell = system.cell)
  | writesCell (status : ModuleStatus) (rest : List Task)
      (running : (system.threads thread).phase = .running)
      (first : (system.threads thread).todo = .writeCell status :: rest)
      (touches : Touches system next thread { phase := .running, todo := rest })
      (lock : next.lock = system.lock) (cell : next.cell = status)
      (playerStatus : next.playerStatus = system.playerStatus)
  | polls (wait : Wait) (value : Thread) (touches : Touches system next thread value)
      (same : SameShared system next) (begins : BeginsPoll system thread luck wait)
      (waits : waitOf value.phase = some wait)

section Moves

variable (system : System) (thread : ThreadId) (luck : Luck)

theorem running_move (next : System) (tasks : List Task)
    (running : (system.threads thread).phase = .running)
    (threads : next.threads =
      Function.update system.threads thread { phase := .running, todo := tasks })
    (same : SameShared system next)
    (kept : ∀ status, Task.writeStatus status ∈ tasks →
      Task.writeStatus status ∈ (system.threads thread).todo) :
    Move system thread luck next :=
  Move.goesOn { phase := .running, todo := tasks } ⟨threads, kept⟩ same
    (by rw [running]) (by rw [running]) (by rw [running])

theorem run_task_move (task : Task) (rest : List Task)
    (running : (system.threads thread).phase = .running)
    (first : (system.threads thread).todo = task :: rest) :
    Move system thread luck (runTask system thread luck task rest) := by
  have tail : ∀ status, Task.writeStatus status ∈ rest →
      Task.writeStatus status ∈ (system.threads thread).todo := by
    intro status member
    rw [first]
    exact List.mem_cons_of_mem task member
  have advances : ∀ next : System,
      next.threads = Function.update system.threads thread { phase := .running, todo := rest } →
      SameShared system next → Move system thread luck next := by
    intro next threads same
    exact running_move system thread luck next rest running threads same tail
  cases task with
  | writeStatus status =>
      exact Move.writesStatus status { phase := .running, todo := rest } ⟨rfl, tail⟩ running rfl
        (by rw [first]; exact List.mem_cons_self) rfl rfl
  | writeCell status =>
      exact Move.writesCell status rest running first ⟨rfl, tail⟩ rfl rfl rfl
  | clearAutoplay => exact advances _ rfl ⟨rfl, rfl, rfl⟩
  | stopSettled =>
      simp only [runTask]
      split
      · exact running_move system thread luck _ (.writeCell .running :: rest) running rfl
          ⟨rfl, rfl, rfl⟩ (fun status member => tail status (by simpa using member))
      · exact advances _ rfl ⟨rfl, rfl, rfl⟩
  | call job =>
      exact Move.spins { phase := .spinning job, todo := rest } ⟨rfl, tail⟩ ⟨rfl, rfl, rfl⟩
        ⟨running, rest, Or.inl ⟨job, first⟩⟩ rfl
  | nextIfAutoplay =>
      simp only [runTask]
      split
      · rename_i on
        exact Move.spins { phase := .spinning .play, todo := rest } ⟨rfl, tail⟩ ⟨rfl, rfl, rfl⟩
          ⟨running, rest, Or.inr ⟨first, on⟩⟩ rfl
      · exact advances _ rfl ⟨rfl, rfl, rfl⟩
  | moduleStop respond =>
      have answers : ∀ tasks : List Task,
          (∀ status, Task.writeStatus status ∈ tasks → Task.writeStatus status ∈ rest) →
          Move system thread luck
            (system.setThread thread { phase := .running, todo := tasks }) := by
        intro tasks kept
        exact running_move system thread luck _ tasks running rfl ⟨rfl, rfl, rfl⟩
          (fun status member => tail status (kept status member))
      simp only [runTask]
      cases luck.domain with
      | failed =>
          apply answers
          cases respond <;> simp
      | musicplayer =>
          apply answers
          cases respond <;> simp
      | other =>
          apply answers
          cases respond <;> simp

theorem unlock_move (next : System) (held : holdsLock (system.threads thread).phase = true)
    (threads : next.threads = system.threads) :
    Move system thread luck (next.unlock thread) := by
  exact Move.frees { phase := .running, todo := (system.threads thread).todo }
    ⟨by simp only [System.unlock, threads], fun _ member => member⟩ held rfl rfl

theorem run_job_move (job : Job) (inside : (system.threads thread).phase = .inside job)
    (holds : system.lock = some thread) :
    Move system thread luck (runJob system thread luck job) := by
  have held : holdsLock (system.threads thread).phase = true := by rw [inside]; rfl
  have leaves := fun next threads => unlock_move system thread luck next held threads
  cases job with
  | query => exact leaves system rfl
  | start => exact leaves _ rfl
  | play =>
      simp only [runJob]
      split
      · exact leaves system rfl
      · split
        · exact leaves _ rfl
        · exact Move.works { phase := .requesting, todo := (system.threads thread).todo }
            ⟨rfl, fun _ member => member⟩ holds (Or.inr held) rfl
  | stop =>
      simp only [runJob]
      split
      · exact leaves _ rfl
      · rename_i owned
        split
        · exact leaves _ rfl
        · rename_i active
          split
          · exact leaves _ rfl
          · rename_i created
            split
            · rename_i oss
              exact Move.polls .stopped
                { phase := .pollingStopped 0, todo := (system.threads thread).todo }
                ⟨rfl, fun _ member => member⟩ ⟨rfl, rfl, rfl⟩
                ⟨inside, by simpa using owned, by simpa using active, by simpa using created, oss⟩
                rfl
            · exact leaves _ rfl

theorem advance_move (law : LockLaw system) :
    Move system thread luck (advance system thread luck) := by
  have still : Move system thread luck system :=
    Move.goesOn (system.threads thread) ⟨by simp, fun _ member => member⟩ ⟨rfl, rfl, rfl⟩
      rfl rfl rfl
  cases phase : (system.threads thread).phase with
  | running =>
      simp only [advance, phase]
      split
      · exact still
      · rename_i task rest first
        exact run_task_move system thread luck task rest phase first
  | spinning job =>
      simp only [advance, phase]
      split
      · rename_i free
        exact Move.works { phase := .inside job, todo := (system.threads thread).todo }
          ⟨rfl, fun _ member => member⟩ rfl (Or.inl free) rfl
      · exact still
  | inside job =>
      simp only [advance, phase]
      have holds := law thread (by rw [phase]; rfl)
      exact run_job_move system thread luck job phase holds
  | requesting =>
      simp only [advance, phase]
      exact Move.polls .response
        { phase := .pollingResponse 0, todo := (system.threads thread).todo }
        ⟨rfl, fun _ member => member⟩ ⟨rfl, rfl, rfl⟩ phase rfl
  | pollingResponse rounds =>
      have held : holdsLock (system.threads thread).phase = true := by rw [phase]; rfl
      simp only [advance, phase]
      split
      · unfold permissionSeen
        split
        · exact unlock_move system thread luck _ held rfl
        · exact unlock_move system thread luck _ held rfl
      · split
        · exact unlock_move system thread luck _ held rfl
        · exact Move.goesOn
            { phase := .pollingResponse (rounds + 1), todo := (system.threads thread).todo }
            ⟨rfl, fun _ member => member⟩ ⟨rfl, rfl, rfl⟩
            (by rw [phase]; rfl) (by rw [phase]; rfl) (by rw [phase]; rfl)
  | pollingStopped rounds =>
      have held : holdsLock (system.threads thread).phase = true := by rw [phase]; rfl
      simp only [advance, phase]
      split
      · exact unlock_move system thread luck _ held rfl
      · split
        · exact unlock_move system thread luck _ held rfl
        · exact Move.goesOn
            { phase := .pollingStopped (rounds + 1), todo := (system.threads thread).todo }
            ⟨rfl, fun _ member => member⟩ ⟨rfl, rfl, rfl⟩
            (by rw [phase]; rfl) (by rw [phase]; rfl) (by rw [phase]; rfl)

end Moves

theorem spinning_not_holding {phase : Phase} (spinning : isSpinning phase = true) :
    holdsLock phase = false ∧ waitOf phase = none := by
  cases phase <;> simp [isSpinning, holdsLock, waitOf] at spinning ⊢

theorem begins_poll_holding {system : System} {thread : ThreadId} {luck : Luck} {wait : Wait}
    (begins : BeginsPoll system thread luck wait) :
    holdsLock (system.threads thread).phase = true ∧
      isSpinning (system.threads thread).phase = false := by
  cases wait with
  | response =>
      have phase : (system.threads thread).phase = .requesting := begins
      rw [phase]
      exact ⟨rfl, rfl⟩
  | stopped =>
      rw [begins.1]
      exact ⟨rfl, rfl⟩

section Preservation

variable {system next : System} {thread : ThreadId} {luck : Luck} {value : Thread}

theorem touched_thread (touches : Touches system next thread value) :
    next.threads thread = value := by
  rw [touches.threads, Function.update_self]

theorem untouched_thread (touches : Touches system next thread value) {other : ThreadId}
    (distinct : other ≠ thread) : next.threads other = system.threads other := by
  rw [touches.threads, Function.update_of_ne distinct]

theorem lock_law_unique (law : LockLaw system) {first second : ThreadId}
    (one : holdsLock (system.threads first).phase = true)
    (two : holdsLock (system.threads second).phase = true) : first = second := by
  have lock := law first one
  rw [law second two] at lock
  exact (Option.some.inj lock).symm

/-- A step that leaves the mutex to its holder keeps the law if a thread that
holds afterwards held before. -/
theorem lock_law_of_touch (law : LockLaw system) (touches : Touches system next thread value)
    (lock : next.lock = system.lock)
    (held : holdsLock value.phase = true → holdsLock (system.threads thread).phase = true) :
    LockLaw next := by
  intro other holding
  rw [lock]
  by_cases same : other = thread
  · subst same
    rw [touched_thread touches] at holding
    exact law other (held holding)
  · rw [untouched_thread touches same] at holding
    exact law other holding

theorem move_lock_law (law : LockLaw system) (move : Move system thread luck next) :
    LockLaw next := by
  cases move with
  | frees value touches held free left =>
      intro other holding
      by_cases same : other = thread
      · rw [same, touched_thread touches, left] at holding
        simp at holding
      · rw [untouched_thread touches same] at holding
        exact absurd (lock_law_unique law holding held) same
  | works value touches mine before busy =>
      intro other holding
      by_cases same : other = thread
      · rw [same, mine]
      · rw [untouched_thread touches same] at holding
        rcases before with free | held
        · have lock := law other holding
          simp [free] at lock
        · exact absurd (lock_law_unique law holding held) same
  | goesOn value touches same waits spins holds =>
      apply lock_law_of_touch law touches same.lock
      rw [holds]
      exact id
  | spins value touches same enters spinning =>
      apply lock_law_of_touch law touches same.lock
      simp [(spinning_not_holding spinning).1]
  | writesStatus status value touches running still writes lock cell =>
      apply lock_law_of_touch law touches lock
      simp [still, holdsLock]
  | writesCell status rest running first touches lock cell playerStatus =>
      apply lock_law_of_touch law touches lock
      simp [holdsLock]
  | polls wait value touches same begins waits =>
      apply lock_law_of_touch law touches same.lock
      intro _
      exact (begins_poll_holding begins).1

theorem status_law_of_touch (law : StatusLaw system) (touches : Touches system next thread value) :
    StatusLaw next := by
  intro other distinct status
  by_cases same : other = thread
  · subst same
    rw [touched_thread touches]
    intro member
    exact law other distinct status (touches.todo status member)
  · rw [untouched_thread touches same]
    exact law other distinct status

theorem move_status_law (law : StatusLaw system) (move : Move system thread luck next) :
    StatusLaw next := by
  cases move with
  | frees value touches => exact status_law_of_touch law touches
  | works value touches => exact status_law_of_touch law touches
  | goesOn value touches => exact status_law_of_touch law touches
  | spins value touches => exact status_law_of_touch law touches
  | writesStatus status value touches => exact status_law_of_touch law touches
  | writesCell status rest running first touches => exact status_law_of_touch law touches
  | polls wait value touches => exact status_law_of_touch law touches

theorem circular_before (touches : Touches system next thread value)
    (lock : next.lock = system.lock) {wait : Wait} {holder : ThreadId}
    (owns : next.lock = some holder) (waits : waitOf (next.threads holder).phase = some wait)
    (spins : isSpinning (next.threads (ender wait)).phase = true)
    (unserved : ended system wait = false) (apart : holder ≠ thread)
    (away : ender wait ≠ thread) : CircularWait system := by
  rw [untouched_thread touches apart] at waits
  rw [untouched_thread touches away] at spins
  rw [lock] at owns
  exact ⟨wait, ⟨⟨holder, owns, waits⟩, unserved⟩, spins⟩

theorem ended_congr (same : SameShared system next) (wait : Wait) :
    ended next wait = ended system wait := by
  cases wait with
  | response => simp only [ended, same.cell]
  | stopped => simp only [ended, same.playerStatus]

theorem shown_kept {Shown : Type} (view : Phase → Shown) (touches : Touches system next thread value)
    (same : view value.phase = view (system.threads thread).phase) (other : ThreadId) :
    view (next.threads other).phase = view (system.threads other).phase := by
  by_cases mine : other = thread
  · rw [mine, touched_thread touches, same]
  · rw [untouched_thread touches mine]

theorem waiter_apart (touches : Touches system next thread value)
    (idle : waitOf value.phase = none) {holder : ThreadId} {wait : Wait}
    (waits : waitOf (next.threads holder).phase = some wait) : holder ≠ thread := by
  intro mine
  rw [mine, touched_thread touches, idle] at waits
  cases waits

theorem spinner_apart (touches : Touches system next thread value)
    (idle : isSpinning value.phase = false) {other : ThreadId}
    (spins : isSpinning (next.threads other).phase = true) : other ≠ thread := by
  intro mine
  rw [mine, touched_thread touches, idle] at spins
  cases spins

theorem move_keeps_clear (statuses : StatusLaw system) (move : Move system thread luck next)
    (clear : ¬ CircularWait system) (safe : ¬ Hazard system thread luck) :
    ¬ CircularWait next := by
  rintro ⟨wait, ⟨⟨holder, owns, waits⟩, unserved⟩, spins⟩
  cases move with
  | frees value touches held free left =>
      rw [free] at owns
      cases owns
  | works value touches mine before busy =>
      rw [mine] at owns
      exact waiter_apart touches busy waits (Option.some.inj owns).symm
  | goesOn value touches same waiting spinning holds =>
      rw [ended_congr same] at unserved
      rw [same.lock] at owns
      rw [shown_kept waitOf touches waiting] at waits
      rw [shown_kept isSpinning touches spinning] at spins
      exact clear ⟨wait, ⟨⟨holder, owns, waits⟩, unserved⟩, spins⟩
  | spins value touches same enters spinning =>
      have apart := waiter_apart touches (spinning_not_holding spinning).2 waits
      rw [ended_congr same] at unserved
      by_cases mine : ender wait = thread
      · apply safe
        rw [untouched_thread touches apart] at waits
        rw [same.lock] at owns
        exact Hazard.walksIn wait ⟨⟨holder, owns, waits⟩, unserved⟩ mine.symm enters
      · exact clear (circular_before touches same.lock owns waits spins unserved apart mine)
  | writesStatus status value touches running still writes lock cell =>
      have callback : thread = .callback := by
        by_contra other
        exact statuses thread other status writes
      have apart := waiter_apart touches (by rw [still]; rfl) waits
      have away := spinner_apart touches (by rw [still]; rfl) spins
      cases wait with
      | response =>
          have before : ended system .response = false := by
            simpa only [ended, cell] using unserved
          exact clear (circular_before touches lock owns waits spins before apart away)
      | stopped => exact away (by rw [callback]; rfl)
  | writesCell status rest running first touches lock cell playerStatus =>
      have apart := waiter_apart touches rfl waits
      have away := spinner_apart touches rfl spins
      cases wait with
      | response =>
          cases response : isResponse system.cell with
          | true =>
              apply safe
              rw [untouched_thread touches apart] at waits
              rw [untouched_thread touches away] at spins
              rw [lock] at owns
              simp only [ended, cell] at unserved
              exact Hazard.overwrites holder owns waits spins
                ⟨running, response, status, rest, first, unserved⟩
          | false =>
              exact clear (circular_before touches lock owns waits spins response apart away)
      | stopped =>
          have before : ended system .stopped = false := by
            simpa only [ended, playerStatus] using unserved
          exact clear (circular_before touches lock owns waits spins before apart away)
  | polls began value touches same begins waiting =>
      have idle : isSpinning value.phase = false := by
        cases phase : isSpinning value.phase with
        | false => rfl
        | true =>
            rw [(spinning_not_holding phase).2] at waiting
            cases waiting
      have away := spinner_apart touches idle spins
      rw [ended_congr same] at unserved
      by_cases mine : holder = thread
      · apply safe
        rw [mine, touched_thread touches, waiting] at waits
        have which := Option.some.inj waits
        subst which
        rw [untouched_thread touches away] at spins
        rw [same.lock, mine] at owns
        exact Hazard.begins began owns begins unserved spins
      · exact clear (circular_before touches same.lock owns waits spins unserved mine away)

end Preservation

section Hazards

variable {system : System} {thread : ThreadId} {luck : Luck}

theorem phase_apart {Seen : Type*} (observe : Phase → Seen) {other : ThreadId} {seen : Seen}
    (shown : observe (system.threads other).phase = seen)
    (differs : observe (system.threads thread).phase ≠ seen) : other ≠ thread := by
  intro same
  rw [same] at shown
  exact differs shown

theorem walks_in_circular {wait : Wait} (waiting : HolderWaits system wait)
    (mine : thread = ender wait) (enters : EntersLock system thread) :
    CircularWait (advance system thread luck) := by
  rcases waiting with ⟨⟨holder, owns, waits⟩, unserved⟩
  rcases enters with ⟨running, rest, first⟩
  have apart : holder ≠ thread := phase_apart waitOf waits (by simp [running, waitOf])
  have entered : ∃ job, advance system thread luck =
      system.setThread thread { phase := .spinning job, todo := rest } := by
    rcases first with ⟨job, first⟩ | ⟨first, on⟩
    · exact ⟨job, by simp [advance, running, first, runTask]⟩
    · exact ⟨.play, by simp [advance, running, first, runTask, on]⟩
  rcases entered with ⟨job, spun⟩
  rw [spun]
  refine ⟨wait, ⟨⟨holder, owns, ?_⟩, ?_⟩, ?_⟩
  · simpa [System.setThread, apart] using waits
  · cases wait <;> exact unserved
  · simp [System.setThread, ← mine, isSpinning]

theorem begins_circular {wait : Wait} (holds : system.lock = some thread)
    (begins : BeginsPoll system thread luck wait) (open_wait : ended system wait = false)
    (spins : isSpinning (system.threads (ender wait)).phase = true) :
    CircularWait (advance system thread luck) := by
  have away : ender wait ≠ thread :=
    phase_apart isSpinning spins (by simp [(begins_poll_holding begins).2])
  cases wait with
  | response =>
      have requesting : (system.threads thread).phase = .requesting := begins
      have polled : advance system thread luck =
          { system with
            pendingEvents :=
              system.pendingEvents + if luck.eventDelivered then 1 else 0 }.setPhase
            thread (.pollingResponse 0) := by
        simp only [advance, requesting]
      rw [polled]
      refine ⟨.response, ⟨⟨thread, holds, ?_⟩, open_wait⟩, ?_⟩
      · simp [System.setPhase, System.setThread, waitOf]
      · simpa [System.setPhase, System.setThread, away] using spins
  | stopped =>
      rcases begins with ⟨inside, owned, active, created, oss⟩
      have polled : advance system thread luck =
          { system with inMusicplayer := false, autoplay := false }.setPhase thread
            (.pollingStopped 0) := by
        simp [advance, inside, runJob, owned, active, created, oss]
      rw [polled]
      refine ⟨.stopped, ⟨⟨thread, holds, ?_⟩, open_wait⟩, ?_⟩
      · simp [System.setPhase, System.setThread, waitOf]
      · simpa [System.setPhase, System.setThread, away] using spins

theorem overwrites_circular {holder : ThreadId} (holds : system.lock = some holder)
    (polls : waitOf (system.threads holder).phase = some .response)
    (spins : isSpinning (system.threads .event).phase = true)
    (writes : OverwritesResponse system thread) :
    CircularWait (advance system thread luck) := by
  rcases writes with ⟨running, _, status, rest, first, blank⟩
  have apart : holder ≠ thread := phase_apart waitOf polls (by simp [running, waitOf])
  have away : ThreadId.event ≠ thread :=
    phase_apart isSpinning spins (by simp [running, isSpinning])
  have written : advance system thread luck =
      { system.setThread thread { phase := .running, todo := rest } with cell := status } := by
    simp [advance, running, first, runTask]
  rw [written]
  refine ⟨.response, ⟨⟨holder, holds, ?_⟩, blank⟩, ?_⟩
  · simpa [System.setThread, apart] using polls
  · simpa [System.setThread, ender, away] using spins

end Hazards

/-- A hazardous step does bring a circular wait about. -/
theorem hazard_circular (system : System) (thread : ThreadId) (luck : Luck)
    (hazard : Hazard system thread luck) : CircularWait (advance system thread luck) := by
  cases hazard with
  | walksIn wait waiting mine enters => exact walks_in_circular waiting mine enters
  | begins wait holds begins open_wait spins => exact begins_circular holds begins open_wait spins
  | overwrites holder holds polls spins writes =>
      exact overwrites_circular holds polls spins writes

/-- What safe steps keep. -/
structure CalmLaw (system : System) : Prop where
  lock : LockLaw system
  status : StatusLaw system
  clear : ¬ CircularWait system

section Assigning

variable (system : System) (thread : ThreadId) (tasks : List Task)

theorem assign_phase (other : ThreadId) :
    ((system.assign thread tasks).threads other).phase = (system.threads other).phase := by
  unfold System.assign
  split
  · rename_i idle
    by_cases same : other = thread
    · rw [same, set_thread_self, idle]
    · rw [set_thread_other system _ same]
  · rfl

theorem assign_shared : SameShared system (system.assign thread tasks) := by
  unfold System.assign
  split
  · exact ⟨rfl, rfl, rfl⟩
  · exact ⟨rfl, rfl, rfl⟩

theorem assign_calm (law : CalmLaw system)
    (own : thread ≠ .callback → ∀ status, Task.writeStatus status ∉ tasks) :
    CalmLaw (system.assign thread tasks) := by
  have same := assign_shared system thread tasks
  constructor
  · intro other holding
    rw [assign_phase] at holding
    rw [same.lock]
    exact law.lock other holding
  · intro other distinct status
    unfold System.assign
    split
    · by_cases mine : other = thread
      · subst mine
        rw [set_thread_self]
        exact own distinct status
      · rw [set_thread_other system _ mine]
        exact law.status other distinct status
    · exact law.status other distinct status
  · rintro ⟨wait, ⟨⟨holder, owns, waits⟩, unserved⟩, spins⟩
    rw [assign_phase] at waits spins
    rw [ended_congr same] at unserved
    rw [same.lock] at owns
    exact law.clear ⟨wait, ⟨⟨holder, owns, waits⟩, unserved⟩, spins⟩

end Assigning

theorem api_tasks_write_no_status (call : ApiCall) (status : PlayerStatus) :
    Task.writeStatus status ∉ apiTasks call := by
  cases call <;> simp [apiTasks]

theorem start_calm (audioOss : Bool) : CalmLaw (systemStart audioOss) := by
  constructor
  · intro thread holding
    simp [systemStart, holdsLock] at holding
  · intro thread _ status
    simp [systemStart]
  · rintro ⟨wait, ⟨⟨holder, owns, _⟩, _⟩, _⟩
    simp [systemStart] at owns

theorem safe_step_calm (system : System) (op : LockOp) (law : CalmLaw system)
    (safe : ¬ HazardousStep system op) : CalmLaw (lockStep system op) := by
  cases op with
  | apiCall number call =>
      apply assign_calm system _ _ law
      intro _ status
      exact api_tasks_write_no_status call status
  | deliverEvent =>
      simp only [lockStep]
      split
      · exact law
      · apply assign_calm
        · exact ⟨law.lock, law.status, law.clear⟩
        · simp
  | deliverSnapshot own status song =>
      apply assign_calm system _ _ law
      simp
  | advance thread luck =>
      have move := advance_move system thread luck law.lock
      exact ⟨move_lock_law law.lock move, move_status_law law.status move,
        move_keeps_clear law.status move law.clear safe⟩

/-- In a run from startup no state has a circular wait exactly when no step of
the run is hazardous. -/
theorem no_circular_wait_along_run (audioOss : Bool) (ops : List LockOp) :
    AlongRun lockStep (fun system => ¬ CircularWait system) (systemStart audioOss) ops ↔
      EveryStep lockStep (fun system op => ¬ HazardousStep system op) (systemStart audioOss)
        ops := by
  apply along_run_iff_every_step CalmLaw
  · intro system law
    exact law.clear
  · intro system op law safe
    exact safe_step_calm system op law safe
  · intro system op _ hazardous calm
    have hazard := not_not.mp hazardous
    cases op with
    | advance thread luck => exact calm (hazard_circular system thread luck hazard)
    | _ => exact hazard
  · exact start_calm audioOss

def plainLuck (domain : ActiveDomain) : Luck where
  domain := domain
  commandOk := true
  songSelected := true
  alreadyStopped := false
  stoppedInTime := true
  eventDelivered := true

def requestAgainstItself : List LockOp :=
  [.apiCall 0 .start] ++ List.replicate 3 (.advance (.api 0) (plainLuck .other)) ++
    [.apiCall 0 .play] ++ List.replicate 4 (.advance (.api 0) (plainLuck .other)) ++
    [.deliverSnapshot true .playing true] ++
    List.replicate 2 (.advance .callback (plainLuck .other)) ++
    [.deliverEvent] ++ List.replicate 2 (.advance .event (plainLuck .musicplayer))

theorem play_request_waits_in_a_circle :
    ¬ ∀ audioOss ops,
      AlongRun lockStep (fun system => ¬ CircularWait system) (systemStart audioOss) ops := by
  intro always
  have clear := (along_run_iff_prefixes _ _).mp (always false requestAgainstItself) _
    (List.prefix_refl _)
  apply clear
  refine ⟨.response, ⟨⟨.api 0, ?_, ?_⟩, ?_⟩, ?_⟩ <;> decide

end Gk7102.PlayerLocking
