import Gk7102.MusicPlayer
import Gk7102.MusicQueueNavigation
import Mathlib.Logic.Function.Basic

/-!
# What the player reports

The callback for the snapshots of the player, and the statuses that the processes share. The
callback keeps the entry of the music player up to date and plays the next song behind one
that has ended.
-/

namespace Gk7102.PlayerSnapshots

open Gk7102.MusicQueue
open Gk7102.MusicQueueNavigation
open Gk7102.MusicPlayer

set_option autoImplicit false

section Source

inductive Domain where
  | unknown | sdcard | udisk | render | airplay | atalk | localplayer | vr | btHs | btAvk
  | lapsule | tone | musicplayer | custom
deriving DecidableEq, Repr

abbrev Board := Domain → ModuleStatus

/-- `share_mem_set`, which writes nothing when it does not get the lock. -/
def shareMemSet (locked : Bool) (board : Board) (domain : Domain) (status : ModuleStatus) : Board :=
  if locked then Function.update board domain status else board

/-- `STATUS_PLAYING == status || STATUS_PAUSE == status` -/
def isActive (status : ModuleStatus) : Bool := status = .playing || status = .pause

def askedDomains : List Domain :=
  [.btHs, .btAvk, .airplay, .atalk, .render, .localplayer, .vr, .lapsule, .custom, .musicplayer]

/-- The last active domain and how many there are. The first one that cannot be read ends it. -/
def askDomains (locked : Domain → Bool) (board : Board) :
    List Domain → Domain → Nat → Int × Domain
  | [], domain, count => (if count > 1 then -1 else 0, domain)
  | asked :: rest, domain, count =>
      if locked asked = false then (-1, domain)
      else if isActive (board asked) then askDomains locked board rest asked (count + 1)
      else askDomains locked board rest domain count

def shareMemGetActiveDomain (locked : Domain → Bool) (board : Board) : Int × Domain :=
  askDomains locked board askedDomains .unknown 0

/-- The static variables of the player with `musicplayer_status`, the shared memory, and all
that has been sent. -/
structure System where
  player : PlayerState
  status : PlayerStatus
  board : Board
  effects : List Effect

def permissionStatus : Permission → ModuleStatus
  | .done => .responseDone
  | .pause => .responsePause
  | .cancel => .responseCancel

/-- What an effect does to the board. The event thread answers a play event there. -/
def onBoard (locked : Bool) (world : World) (board : Board) : Effect → Board
  | .sendCmd _ _ => board
  | .shareMemSet status => shareMemSet locked board .musicplayer status
  | .eventSend type =>
      match world.permission with
      | some permission =>
          if type = "play" then Function.update board .musicplayer (permissionStatus permission)
          else board
      | none => board

def System.finish (system : System) (locked : Bool) (world : World) (outcome : Outcome) : System :=
  { system with
    player := outcome.state
    board := outcome.effects.foldl (onBoard locked world) system.board
    effects := system.effects ++ outcome.effects }

structure Snapshot where
  uuid : String
  status : PlayerStatus
deriving DecidableEq, Repr

/-- The status is stored, and its domain entry where there is one. -/
def System.show (system : System) (locked : Bool) (status : PlayerStatus) (entry : ModuleStatus) :
    System :=
  { system with
    status := status
    board := shareMemSet locked system.board .musicplayer entry }

def musicplayerStatusChangeCallback (own : PlayerHandler) (snapshot : Snapshot) (locked : Bool)
    (world : World) (system : System) : System :=
  if own.uuid ≠ snapshot.uuid then system.show locked .stopped .running
  else
    match snapshot.status with
    | .transport => system.show locked .transport .playing
    | .playing => system.show locked .playing .playing
    | .paused => system.show locked .paused .pause
    | .stopped =>
        let rested := system.show locked .stopped .running
        if rested.player.autoplayFlag then
          rested.finish locked world
            (mozartMusicplayerNextMusicFalse world (some ⟨some own⟩) rested.player)
        else rested
    | .unknown => system.show locked .stopped .running
    -- an unsupported status leaves the entry as it was
    | .aoswitchFail => { system with status := .stopped }

inductive Op where
  | request (request : Request) (locked : Bool)
  | snapshot (snapshot : Snapshot) (locked : Bool) (world : World)

def step (own : PlayerHandler) (system : System) : Op → System
  | .request request locked =>
      match perform system.player request with
      | none => system
      | some outcome => system.finish locked request.world outcome
  | .snapshot snapshot locked world =>
      musicplayerStatusChangeCallback own snapshot locked world system

end Source

section Domains

variable {locked : Domain → Bool} {board : Board}

theorem ask_domains_active (domains : List Domain) {domain found : Domain} {count : Nat}
    {ret : Int} (asked : askDomains locked board domains domain count = (ret, found)) :
    found = domain ∨ isActive (board found) = true := by
  induction domains generalizing domain count with
  | nil => exact Or.inl (Prod.mk.inj asked).2.symm
  | cons first rest induction =>
      rw [askDomains] at asked
      split at asked
      · exact Or.inl (Prod.mk.inj asked).2.symm
      split at asked
      next active =>
          rcases induction asked with same | further
          · rw [same]
            exact Or.inr active
          · exact Or.inr further
      next => exact induction asked

theorem active_domain_active {found : Domain} {ret : Int}
    (asked : shareMemGetActiveDomain locked board = (ret, found)) (some : found ≠ .unknown) :
    isActive (board found) = true := by
  rcases ask_domains_active askedDomains asked with none | active
  · exact absurd none some
  · exact active

end Domains

section Marks

/-- The entries that the effects of a call write. -/
def marks (effects : List Effect) : List ModuleStatus :=
  effects.filterMap fun effect =>
    match effect with
    | .shareMemSet status => some status
    | _ => none

@[simp] theorem marks_nil : marks [] = [] := rfl

@[simp] theorem marks_append (front back : List Effect) :
    marks (front ++ back) = marks front ++ marks back := List.filterMap_append

@[simp] theorem marks_event (type : String) (effects : List Effect) :
    marks (.eventSend type :: effects) = marks effects := rfl

@[simp] theorem marks_set (status : ModuleStatus) (effects : List Effect) :
    marks (.shareMemSet status :: effects) = status :: marks effects := rfl

@[simp] theorem marks_command (world : World) (handler : Option PlayerHandler)
    (command : Option PlayerCommand) : marks (sendPlayerCommand world handler command).2 = [] := by
  cases handler with
  | none => rfl
  | some player =>
      cases command with
      | none => rfl
      | some command =>
          rw [sendPlayerCommand]
          split
          · rfl
          · rfl

@[simp] theorem marks_getstatus (world : World) (handler : Option PlayerHandler) :
    marks (mozartPlayerGetstatus world handler).2 = [] :=
  marks_command world handler (some .getSnapshot)

/-- A call writes no entry that makes the domain active. -/
def Inactive (effects : List Effect) : Prop := ∀ status ∈ marks effects, isActive status = false

variable {world : World} {handler : Option MusicplayerHandler} {state : PlayerState}

theorem inactive_of_none {effects : List Effect} (none : marks effects = []) :
    Inactive effects := by
  intro status member
  rw [none] at member
  exact absurd member List.not_mem_nil

theorem inactive_append {front back : List Effect} (first : Inactive front)
    (second : Inactive back) : Inactive (front ++ back) := by
  intro status member
  rw [marks_append] at member
  rcases List.mem_append.mp member with before | behind
  · exact first status before
  · exact second status behind

theorem guarded_inactive (refused : Int) {body : Outcome} (inactive : Inactive body.effects) :
    Inactive (guarded refused handler state body).effects := by
  rw [guarded]
  split
  · exact inactive_of_none rfl
  · exact inactive

theorem after_url_command_inactive {effects : List Effect} (failed started : PlayerState)
    {command : Int × List Effect} (inactive : Inactive effects) (silent : marks command.2 = []) :
    Inactive (afterUrlCommand effects failed started command).effects := by
  have sent := inactive_append inactive (inactive_of_none silent)
  rw [afterUrlCommand]
  split
  · exact sent
  · exact inactive_append sent (inactive_of_none rfl)

theorem play_locked_inactive (world : World) (player : Option PlayerHandler) (info : MusicInfo)
    (state : PlayerState) :
    Inactive (mozartMusicplayerPlayMusicInfoLocked world player info state).effects := by
  have request : Inactive [.shareMemSet .waitResponse, .eventSend "play"] := by
    intro status member
    have same : status = .waitResponse := List.mem_singleton.mp member
    rw [same]
    rfl
  rw [mozartMusicplayerPlayMusicInfoLocked]
  split
  · exact after_url_command_inactive _ _ (inactive_of_none rfl) (marks_command _ _ _)
  · dsimp only
    split
    · exact request
    · exact request
    · exact after_url_command_inactive _ _ request (marks_command _ _ _)
    · exact after_url_command_inactive _ _ request (marks_command _ _ _)

theorem play_selected_inactive (selection : Option MusicInfo × Option MusicList) :
    Inactive (playSelected world handler state selection).effects := by
  rw [playSelected]
  split
  · exact inactive_of_none rfl
  · exact play_locked_inactive _ _ _ _

theorem stop_playback_inactive {outcome : Outcome}
    (stopped : mozartMusicplayerStopPlayback world handler state = some outcome) :
    Inactive outcome.effects := by
  rcases Option.map_eq_some_iff.mp stopped with ⟨musicplayer, _, rfl⟩
  have sent : Inactive (mozartPlayerStop world musicplayer.playerHandler).2 :=
    inactive_of_none (marks_command _ _ _)
  dsimp only
  split
  · exact sent
  split
  · exact sent
  · apply inactive_append sent
    intro status member
    have same : status = .running := List.mem_singleton.mp member
    rw [same]
    rfl

theorem stop_inactive {outcome : Outcome}
    (stopped : mozartMusicplayerStop world handler state = some outcome) :
    Inactive outcome.effects := by
  have asks : ∀ player, Inactive (mozartPlayerGetstatus world (some player)).2 :=
    fun player => inactive_of_none (marks_getstatus _ _)
  rw [mozartMusicplayerStop] at stopped
  dsimp only at stopped
  split at stopped
  · rw [← Option.some.inj stopped]
    exact inactive_of_none rfl
  split at stopped
  · exact absurd stopped (by simp)
  next player _ =>
  split at stopped
  · rw [← Option.some.inj stopped]
    exact inactive_of_none rfl
  split at stopped
  · rcases Option.map_eq_some_iff.mp stopped with ⟨rested, silenced, rfl⟩
    exact inactive_append (asks player) (stop_playback_inactive silenced)
  · rw [← Option.some.inj stopped]
    exact asks player

theorem play_pause_inactive :
    Inactive (mozartMusicplayerPlayPause world handler state).effects := by
  have command : ∀ player sent, Inactive (sendPlayerCommand world player sent).2 :=
    fun player sent => inactive_of_none (marks_command _ _ _)
  have event : ∀ type, Inactive [.eventSend type] := fun type => inactive_of_none rfl
  rw [mozartMusicplayerPlayPause]
  split
  · exact inactive_of_none rfl
  dsimp only
  split
  · exact command _ _
  split
  · exact inactive_append (inactive_append (command _ _) (command _ _)) (event _)
  · exact inactive_append (inactive_append (command _ _) (command _ _)) (event _)
  · exact inactive_append (command _ _) (event _)

theorem perform_inactive {request : Request} {outcome : Outcome}
    (done : perform state request = some outcome) : Inactive outcome.effects := by
  have selected : ∀ selection,
      Inactive (playSelected request.world request.handler state selection).effects :=
    play_selected_inactive
  cases called : request.call with
  | musiclistInsert info | musiclistDeleteIndex index | musiclistClean
  | musiclistSetPlayMode mode =>
      simp only [perform, called] at done
      rw [← Option.some.inj done]
      exact guarded_inactive _ (inactive_of_none rfl)
  | playIndex index =>
      simp only [perform, called] at done
      rw [← Option.some.inj done]
      exact guarded_inactive _ (selected _)
  | prevMusic =>
      simp only [perform, called] at done
      rw [← Option.some.inj done]
      exact guarded_inactive _ (selected _)
  | nextMusic =>
      simp only [perform, called] at done
      rw [← Option.some.inj done]
      exact guarded_inactive _ (selected _)
  | nextMusicFalse =>
      simp only [perform, called] at done
      rw [← Option.some.inj done]
      exact guarded_inactive _ (selected _)
  | playPause =>
      simp only [perform, called] at done
      rw [← Option.some.inj done]
      exact play_pause_inactive
  | playMusicInfo info =>
      simp only [perform, called] at done
      rw [← Option.some.inj done]
      exact guarded_inactive _ (play_locked_inactive _ _ _ _)
  | setSeek seek =>
      simp only [perform, called] at done
      rw [← Option.some.inj done]
      exact guarded_inactive _ (inactive_of_none (marks_command _ _ _))
  | setVolume volume =>
      simp only [perform, called] at done
      rw [← Option.some.inj done]
      exact guarded_inactive _ (inactive_of_none (marks_command _ _ _))
  | stopPlayback =>
      simp only [perform, called] at done
      exact stop_playback_inactive done
  | start =>
      simp only [perform, called] at done
      rw [← Option.some.inj done, mozartMusicplayerStart]
      split
      · exact inactive_of_none rfl
      split
      · exact inactive_of_none rfl
      · exact inactive_of_none rfl
  | stop =>
      simp only [perform, called] at done
      exact stop_inactive done

end Marks

section Entry

variable {own : PlayerHandler} {system : System} {locked : Bool} {world : World}

theorem on_board_entry {effect : Effect} {board : Board}
    (inactive : ∀ status ∈ marks [effect], isActive status = false)
    (active : isActive (onBoard locked world board effect .musicplayer) = true) :
    onBoard locked world board effect .musicplayer = board .musicplayer := by
  cases effect with
  | sendCmd uuid command => rfl
  | shareMemSet status =>
      have other := inactive status List.mem_cons_self
      rw [onBoard, shareMemSet] at active ⊢
      split
      next set =>
          rw [if_pos set, Function.update_self, other] at active
          exact absurd active Bool.false_ne_true
      next => rfl
  | eventSend type =>
      rw [onBoard] at active ⊢
      cases permitted : world.permission with
      | none => rfl
      | some permission =>
          rw [permitted] at active
          dsimp only at active ⊢
          split
          next asked =>
              rw [if_pos asked, Function.update_self] at active
              cases permission with
              | done => exact absurd active Bool.false_ne_true
              | pause => exact absurd active Bool.false_ne_true
              | cancel => exact absurd active Bool.false_ne_true
          next => rfl

theorem effects_entry {effects : List Effect} {board : Board} (inactive : Inactive effects)
    (active : isActive (effects.foldl (onBoard locked world) board .musicplayer) = true) :
    effects.foldl (onBoard locked world) board .musicplayer = board .musicplayer := by
  induction effects generalizing board with
  | nil => rfl
  | cons first rest induction =>
      have now : ∀ status ∈ marks [first], isActive status = false := by
        intro status member
        apply inactive status
        rw [← List.singleton_append, marks_append]
        exact List.mem_append_left _ member
      have later : Inactive rest := by
        intro status member
        apply inactive status
        rw [← List.singleton_append, marks_append]
        exact List.mem_append_right _ member
      rw [List.foldl_cons] at active ⊢
      have same := induction later active
      rw [same] at active
      rw [same]
      exact on_board_entry now active

/-- What the entry says of the music player is what the player has last reported. -/
structure Shown (system : System) : Prop where
  playing : system.board .musicplayer = .playing →
    system.status = .transport ∨ system.status = .playing
  paused : system.board .musicplayer = .pause → system.status = .paused

theorem shown_of_inactive (inactive : isActive (system.board .musicplayer) = false) :
    Shown system := by
  constructor
  · intro playing
    rw [playing] at inactive
    exact absurd inactive.symm Bool.false_ne_true
  · intro paused
    rw [paused] at inactive
    exact absurd inactive.symm Bool.false_ne_true

theorem finish_shown (shown : Shown system) {outcome : Outcome}
    (inactive : Inactive outcome.effects) : Shown (system.finish locked world outcome) := by
  constructor
  · intro playing
    apply shown.playing
    have active : isActive (outcome.effects.foldl (onBoard locked world) system.board
        .musicplayer) = true := by
      rw [show outcome.effects.foldl (onBoard locked world) system.board .musicplayer = .playing
        from playing]
      rfl
    exact (effects_entry inactive active).symm.trans playing
  · intro paused
    apply shown.paused
    have active : isActive (outcome.effects.foldl (onBoard locked world) system.board
        .musicplayer) = true := by
      rw [show outcome.effects.foldl (onBoard locked world) system.board .musicplayer = .pause
        from paused]
      rfl
    exact (effects_entry inactive active).symm.trans paused

theorem show_entry (system : System) (status : PlayerStatus) (entry : ModuleStatus) :
    (system.show true status entry).board .musicplayer = entry := by
  rw [System.show, shareMemSet, if_pos rfl]
  exact Function.update_self Domain.musicplayer entry system.board

theorem show_running_shown (system : System) : Shown (system.show true .stopped .running) :=
  shown_of_inactive (by rw [show_entry]; rfl)

/-- The callback gets the lock, and no snapshot of its own has an unsupported status. -/
def Told (own : PlayerHandler) : Op → Prop
  | .request _ _ => True
  | .snapshot snapshot locked _ =>
      locked = true ∧ (snapshot.uuid = own.uuid → snapshot.status ≠ .aoswitchFail)

theorem callback_shown {snapshot : Snapshot}
    (known : snapshot.uuid = own.uuid → snapshot.status ≠ .aoswitchFail) :
    Shown (musicplayerStatusChangeCallback own snapshot true world system) := by
  rw [musicplayerStatusChangeCallback]
  split
  · exact show_running_shown system
  next same =>
  split
  · constructor
    · exact fun _ => Or.inl rfl
    · intro paused
      rw [show_entry] at paused
      exact absurd paused (by decide)
  · constructor
    · exact fun _ => Or.inr rfl
    · intro paused
      rw [show_entry] at paused
      exact absurd paused (by decide)
  · constructor
    · intro playing
      rw [show_entry] at playing
      exact absurd playing (by decide)
    · exact fun _ => rfl
  · dsimp only
    split
    · apply finish_shown (show_running_shown system)
      exact guarded_inactive _ (play_selected_inactive _)
    · exact show_running_shown system
  · exact show_running_shown system
  next unsupported => exact absurd unsupported (known (not_not.mp same).symm)

theorem step_shown (shown : Shown system) {op : Op} (told : Told own op) :
    Shown (step own system op) := by
  cases op with
  | request request locked =>
      rw [step]
      cases done : perform system.player request with
      | none => exact shown
      | some outcome => exact finish_shown shown (perform_inactive done)
  | snapshot snapshot locked world =>
      rcases told with ⟨rfl, known⟩
      exact callback_shown known

theorem shown_active (shown : Shown system) (active : isActive (system.board .musicplayer) = true) :
    system.status ∈ [.transport, .playing, .paused] := by
  rw [isActive, Bool.or_eq_true, decide_eq_true_iff, decide_eq_true_iff] at active
  rcases active with playing | paused
  · rcases shown.playing playing with transport | status
    · simp [transport]
    · simp [status]
  · simp [shown.paused paused]

end Entry

section Autoplay

variable {own : PlayerHandler} {queue : MusicList}

/-- Where the cursor is after so many songs that were not asked for. -/
def position (queue : MusicList) (count : Nat) : Int :=
  if queue.mode = .single then queue.currentIndex else stepsAhead queue count

def atPosition (queue : MusicList) (count : Nat) : MusicList :=
  { queue with currentIndex := position queue count }

def urlAt (queue : MusicList) (index : Int) : Option String :=
  (listGetElement queue.list index).bind MusicInfo.musicUrl

theorem position_zero (valid : ValidCursor queue) : position queue 0 = queue.currentIndex := by
  rw [position, steps_ahead_zero valid, ite_self]

theorem set_next_position (valid : ValidCursor queue)
    (mode : queue.mode = .order ∨ queue.mode = .single) (random count : Nat) :
    mozartMusiclistSetNext random (some (atPosition queue count)) false =
      (listGetElement queue.list (position queue (count + 1)),
        some (atPosition queue (count + 1))) := by
  rcases mode with order | single
  · have other : queue.mode ≠ .single := by rw [order]; decide
    rw [atPosition, atPosition, position, if_neg other, position, if_neg other,
      set_next_advances (moved_valid valid count) random (Or.inl order), steps_ahead_add]
  · rw [atPosition, atPosition, position, if_pos single, position, if_pos single]
    exact set_next_stays valid single random

theorem position_in_range (valid : ValidCursor queue) (count : Nat) :
    0 ≤ position queue count ∧ position queue count < queue.list.length := by
  rw [position]
  split
  · exact valid
  · exact steps_ahead_in_range valid count

/-- The player of the queue: it owns the player, plays on by itself, and is in its domain. -/
structure Playing (own : PlayerHandler) (queue : MusicList) (player : PlayerState) : Prop where
  owner : player.currentUuid = own.uuid
  autoplay : player.autoplayFlag = true
  entered : player.inMusicplayer ≠ 0
  list : player.musicplayerList = some queue

/-- The songs of the queue can be played. -/
structure Playable (queue : MusicList) : Prop where
  cursor : ValidCursor queue
  mode : queue.mode = .order ∨ queue.mode = .single
  urls : ∀ info ∈ queue.list, info.musicUrl ≠ none

theorem owner_passes {player : PlayerState} (owner : player.currentUuid = own.uuid) :
    ¬ checkHandlerUuid player (some ⟨some own⟩) < 0 := by
  rw [checkHandlerUuid]
  change ¬ (if player.currentUuid ≠ own.uuid then (-1 : Int) else 0) < 0
  rw [if_neg (not_not.mpr owner)]
  decide

theorem next_song_sent (playable : Playable queue) {player : PlayerState} {count : Nat}
    (playing : Playing own (atPosition queue count) player) {world : World}
    (created : ∀ command, world.commandAllocated command = true) :
    ∃ url, urlAt queue (position queue (count + 1)) = some url ∧
      urlsSent (mozartMusicplayerNextMusicFalse world (some ⟨some own⟩) player).effects = [url] ∧
      Playing own (atPosition queue (count + 1))
        (mozartMusicplayerNextMusicFalse world (some ⟨some own⟩) player).state := by
  have range := position_in_range playable.cursor (count + 1)
  have found := list_get_element_in_range queue.list _ range.1 range.2
  rcases Option.isSome_iff_exists.mp found with ⟨info, element⟩
  have member : info ∈ queue.list := List.mem_of_getElem? element
  rcases Option.ne_none_iff_exists'.mp (playable.urls info member) with ⟨url, named⟩
  have called : mozartMusicplayerNextMusicFalse world (some ⟨some own⟩) player =
      mozartMusicplayerPlayMusicInfoLocked world (some own) info
        { player with musicplayerList := some (atPosition queue (count + 1)) } := by
    rw [mozartMusicplayerNextMusicFalse, guarded, if_neg (owner_passes playing.owner),
      mozartMusicplayerNextMusicLocked, playing.list,
      set_next_position playable.cursor playable.mode, playSelected, element]
    rfl
  have sent : mozartMusicplayerPlayMusicInfoLocked world (some own) info
        { player with musicplayerList := some (atPosition queue (count + 1)) } =
      playStarted [.sendCmd own.uuid (.playUrl url)]
        { player with musicplayerList := some (atPosition queue (count + 1)) } := by
    rw [mozartMusicplayerPlayMusicInfoLocked, if_pos playing.entered, mozartPlayerPlayurl, named,
      Option.map_some, sendPlayerCommand, if_pos (created _)]
    rfl
  rw [called, sent]
  refine ⟨url, ?_, rfl, playing.owner, rfl, playing.entered, rfl⟩
  rw [urlAt, element]
  exact named

/-- The player has been heard of, but nothing was asked of it. -/
def Reported : Op → Prop
  | .request _ _ => False
  | .snapshot _ _ world => ∀ command, world.commandAllocated command = true

def ends (own : PlayerHandler) : Op → Bool
  | .request _ _ => false
  | .snapshot snapshot _ _ => snapshot.uuid = own.uuid && snapshot.status = .stopped

theorem urls_sent_append (front back : List Effect) :
    urlsSent (front ++ back) = urlsSent front ++ urlsSent back := List.filterMap_append

def songsAhead (queue : MusicList) (first count : Nat) : List (Option String) :=
  (List.range count).map fun index => urlAt queue (position queue (first + index + 1))

theorem songs_ahead_succ (queue : MusicList) (first count : Nat) :
    songsAhead queue first (count + 1) =
      urlAt queue (position queue (first + 1)) :: songsAhead queue (first + 1) count := by
  rw [songsAhead, List.range_succ_eq_map, List.map_cons, List.map_map, songsAhead]
  congr 1
  apply List.map_congr_left
  intro index _
  change urlAt queue (position queue (first + (index + 1) + 1)) = _
  congr 2
  omega

theorem snapshot_plays_on (playable : Playable queue) {system : System} {count : Nat}
    (playing : Playing own (atPosition queue count) system.player)
    {op : Op} (reported : Reported op) :
    (urlsSent (step own system op).effects).map some =
        (urlsSent system.effects).map some ++
          songsAhead queue count (if ends own op then 1 else 0) ∧
      Playing own (atPosition queue (count + if ends own op then 1 else 0))
        (step own system op).player := by
  cases op with
  | request request locked => exact absurd reported id
  | snapshot snapshot locked world =>
      have quiet : (urlsSent system.effects).map some =
          (urlsSent system.effects).map some ++ songsAhead queue count 0 :=
        (List.append_nil _).symm
      rw [step, musicplayerStatusChangeCallback, ends]
      by_cases same : own.uuid = snapshot.uuid
      · rw [if_neg (not_not.mpr same), decide_eq_true same.symm, Bool.true_and]
        cases status : snapshot.status with
        | transport => exact ⟨quiet, playing⟩
        | playing => exact ⟨quiet, playing⟩
        | paused => exact ⟨quiet, playing⟩
        | unknown => exact ⟨quiet, playing⟩
        | aoswitchFail => exact ⟨quiet, playing⟩
        | stopped =>
            have flag : (system.show locked .stopped .running).player.autoplayFlag = true :=
              playing.autoplay
            have shown : Playing own (atPosition queue count)
                (system.show locked .stopped .running).player := playing
            rcases next_song_sent playable shown reported with ⟨url, named, sent, after⟩
            dsimp only
            rw [if_pos flag]
            refine ⟨?_, after⟩
            change (urlsSent (system.effects ++ _)).map some = _
            rw [urls_sent_append, List.map_append, sent, if_pos (decide_eq_true rfl),
              songs_ahead_succ, named]
            rfl
      · rw [if_pos same, decide_eq_false fun equal => same equal.symm, Bool.false_and]
        exact ⟨quiet, playing⟩

theorem songs_ahead_add (queue : MusicList) (first count later : Nat) :
    songsAhead queue first (count + later) =
      songsAhead queue first count ++ songsAhead queue (first + count) later := by
  induction count generalizing first with
  | zero => rw [Nat.zero_add]; rfl
  | succ count induction =>
      have more : count + 1 + later = count + later + 1 := by omega
      have behind : first + 1 + count = first + (count + 1) := by omega
      rw [more, songs_ahead_succ, songs_ahead_succ, induction, List.cons_append, behind]

theorem run_plays_on (playable : Playable queue) {system : System} {count : Nat}
    (playing : Playing own (atPosition queue count) system.player)
    (ops : List Op) (reported : ∀ op ∈ ops, Reported op) :
    (urlsSent (StepRuns.run (step own) system ops).effects).map some =
        (urlsSent system.effects).map some ++ songsAhead queue count (ops.countP (ends own)) ∧
      Playing own (atPosition queue (count + ops.countP (ends own)))
        (StepRuns.run (step own) system ops).player := by
  induction ops generalizing system count with
  | nil => exact ⟨(List.append_nil _).symm, playing⟩
  | cons op rest induction =>
      rw [List.forall_mem_cons] at reported
      have now := snapshot_plays_on playable playing reported.1
      have later := induction now.2 reported.2
      rw [StepRuns.run_cons, List.countP_cons, Nat.add_comm (rest.countP (ends own)),
        songs_ahead_add, ← List.append_assoc, ← now.1, ← Nat.add_assoc]
      exact later

end Autoplay

section Silence

variable {own : PlayerHandler} {state : PlayerState} {world : World}
  {handler : Option MusicplayerHandler}

def asksToPlay : Call → Bool
  | .playIndex _ | .prevMusic | .nextMusic | .nextMusicFalse | .playMusicInfo _ => true
  | _ => false

/-- Nothing plays on by itself, and no song has been started. -/
def Silent (outcome : Outcome) : Prop :=
  outcome.state.autoplayFlag = false ∧ urlsSent outcome.effects = []

theorem urls_of_command (world : World) (player : Option PlayerHandler) {command : PlayerCommand}
    (other : ∀ uuid, urlsSent [.sendCmd uuid command] = []) :
    urlsSent (sendPlayerCommand world player (some command)).2 = [] := by
  cases player with
  | none => rfl
  | some player =>
      rw [sendPlayerCommand]
      split
      · exact other player.uuid
      · rfl

theorem guarded_silent (refused : Int) {body : Outcome} (off : state.autoplayFlag = false)
    (silent : Silent body) : Silent (guarded refused handler state body) := by
  rw [guarded]
  split
  · exact ⟨off, rfl⟩
  · exact silent

theorem stop_playback_silent {outcome : Outcome}
    (stopped : mozartMusicplayerStopPlayback world handler state = some outcome) :
    Silent outcome := by
  rcases Option.map_eq_some_iff.mp stopped with ⟨musicplayer, _, rfl⟩
  have sent : urlsSent (mozartPlayerStop world musicplayer.playerHandler).2 = [] :=
    urls_of_command world musicplayer.playerHandler fun _ => rfl
  dsimp only
  split
  · exact ⟨rfl, sent⟩
  split
  · exact ⟨rfl, sent⟩
  · refine ⟨rfl, ?_⟩
    rw [urls_sent_append, sent]
    rfl

theorem stop_silent (off : state.autoplayFlag = false) {outcome : Outcome}
    (stopped : mozartMusicplayerStop world handler state = some outcome) : Silent outcome := by
  have asks : ∀ player, urlsSent (mozartPlayerGetstatus world (some player)).2 = [] :=
    fun player => urls_of_command world (some player) fun _ => rfl
  rw [mozartMusicplayerStop] at stopped
  dsimp only at stopped
  split at stopped
  · rw [← Option.some.inj stopped]
    exact ⟨off, rfl⟩
  split at stopped
  · exact absurd stopped (by simp)
  next player _ =>
  split at stopped
  · rw [← Option.some.inj stopped]
    exact ⟨off, rfl⟩
  split at stopped
  · rcases Option.map_eq_some_iff.mp stopped with ⟨rested, silenced, rfl⟩
    have quiet := stop_playback_silent silenced
    refine ⟨quiet.1, ?_⟩
    dsimp only
    rw [urls_sent_append, asks, quiet.2]
    rfl
  · rw [← Option.some.inj stopped]
    exact ⟨off, asks player⟩

theorem play_pause_silent (off : state.autoplayFlag = false) :
    Silent (mozartMusicplayerPlayPause world handler state) := by
  have asked : urlsSent (mozartPlayerGetstatus world (playerHandlerOf handler)).2 = [] :=
    urls_of_command world _ fun _ => rfl
  have pauses : urlsSent (mozartPlayerPause world (playerHandlerOf handler)).2 = [] :=
    urls_of_command world _ fun _ => rfl
  have resumes : urlsSent (mozartPlayerResume world (playerHandlerOf handler)).2 = [] :=
    urls_of_command world _ fun _ => rfl
  rw [mozartMusicplayerPlayPause]
  split
  · exact ⟨off, rfl⟩
  dsimp only
  split
  · exact ⟨off, asked⟩
  split
  · refine ⟨off, ?_⟩
    rw [urls_sent_append, urls_sent_append, asked, pauses]
    rfl
  · refine ⟨off, ?_⟩
    rw [urls_sent_append, urls_sent_append, asked, resumes]
    rfl
  · refine ⟨off, ?_⟩
    rw [urls_sent_append, asked]
    rfl

theorem perform_silent {request : Request} (off : state.autoplayFlag = false)
    (other : asksToPlay request.call = false) {outcome : Outcome}
    (done : perform state request = some outcome) : Silent outcome := by
  cases called : request.call with
  | musiclistInsert info | musiclistDeleteIndex index | musiclistClean
  | musiclistSetPlayMode mode =>
      simp only [perform, called] at done
      rw [← Option.some.inj done]
      exact guarded_silent _ off ⟨off, rfl⟩
  | playIndex index | prevMusic | nextMusic | nextMusicFalse | playMusicInfo info =>
      rw [called] at other
      exact absurd other.symm Bool.false_ne_true
  | playPause =>
      simp only [perform, called] at done
      rw [← Option.some.inj done]
      exact play_pause_silent off
  | setSeek seek =>
      simp only [perform, called] at done
      rw [← Option.some.inj done]
      exact guarded_silent _ off ⟨off, urls_of_command _ _ fun _ => rfl⟩
  | setVolume volume =>
      simp only [perform, called] at done
      rw [← Option.some.inj done]
      exact guarded_silent _ off ⟨off, urls_of_command _ _ fun _ => rfl⟩
  | stopPlayback =>
      simp only [perform, called] at done
      exact stop_playback_silent done
  | start =>
      simp only [perform, called] at done
      rw [← Option.some.inj done, mozartMusicplayerStart]
      split
      · exact ⟨off, rfl⟩
      split
      · exact ⟨off, rfl⟩
      · exact ⟨off, rfl⟩
  | stop =>
      simp only [perform, called] at done
      exact stop_silent off done

def Unasked : Op → Prop
  | .request request _ => asksToPlay request.call = false
  | .snapshot _ _ _ => True

theorem step_silent {system : System} (off : system.player.autoplayFlag = false) {op : Op}
    (unasked : Unasked op) :
    (step own system op).player.autoplayFlag = false ∧
      urlsSent (step own system op).effects = urlsSent system.effects := by
  cases op with
  | request request locked =>
      rw [step]
      cases done : perform system.player request with
      | none => exact ⟨off, rfl⟩
      | some outcome =>
          have silent := perform_silent off unasked done
          refine ⟨silent.1, ?_⟩
          change urlsSent (system.effects ++ outcome.effects) = _
          rw [urls_sent_append, silent.2, List.append_nil]
  | snapshot snapshot locked world =>
      have rested : (system.show locked .stopped .running).player.autoplayFlag = false := off
      rw [step, musicplayerStatusChangeCallback]
      split
      · exact ⟨off, rfl⟩
      split
      · exact ⟨off, rfl⟩
      · exact ⟨off, rfl⟩
      · exact ⟨off, rfl⟩
      · dsimp only
        rw [if_neg (by rw [rested]; exact Bool.false_ne_true)]
        exact ⟨off, rfl⟩
      · exact ⟨off, rfl⟩
      · exact ⟨off, rfl⟩

end Silence

section Results

variable (own : PlayerHandler)

/-- Whatever is asked of the player and whatever it reports: the domain that the keys act on
is the music player only while the player has last reported that it prepares, plays or
pauses a song. -/
theorem board_shows_status (start : System) (ops : List Op)
    (begins : isActive (start.board .musicplayer) = false) (told : ∀ op ∈ ops, Told own op) :
    StepRuns.AlongRun (step own)
      (fun system => Shown system ∧ ∀ locked ret,
        shareMemGetActiveDomain locked system.board = (ret, .musicplayer) →
          system.status ∈ [.transport, .playing, .paused]) start ops := by
  have every : StepRuns.EveryStep (step own) (fun _ op => Told own op) start ops :=
    StepRuns.every_step_of_all start told
  have kept : ∀ system op, Shown system → Told own op → Shown (step own system op) :=
    fun _ _ shown told => step_shown shown told
  apply StepRuns.along_run_of_every_step _ kept start (shown_of_inactive begins) ops every
  intro system shown
  refine ⟨shown, ?_⟩
  intro locked ret asked
  exact shown_active shown (active_domain_active asked (by decide))

def startedSystem (player : PlayerState) : System where
  player := player
  status := .unknown
  board := Function.update (fun _ => .shutdown) .musicplayer .running
  effects := []

/-- A player that takes every command and gets every permission. -/
def willingWorld : World where
  random := 0
  commandAllocated := fun _ => true
  feadback := true
  snapshotStatus := some .playing
  permission := some .done
  audioOss := false
  stoppedInTime := true

def ownPlayer : PlayerHandler := ⟨"musicplayer"⟩

def report (status : PlayerStatus) : Op := .snapshot ⟨"musicplayer", status⟩ true willingWorld

theorem board_shows_status_played :
    let start := startedSystem (mozartMusicplayerStartup true)
    let handler : MusicplayerHandler := ⟨some ownPlayer⟩
    let ops : List Op := [.request ⟨some handler, .start, willingWorld⟩ true, report .playing,
      .request ⟨some handler, .stopPlayback, willingWorld⟩ true, report .stopped]
    StepRuns.AlongRun (step ownPlayer)
      (fun system => Shown system ∧ ∀ locked ret,
        shareMemGetActiveDomain locked system.board = (ret, .musicplayer) →
          system.status ∈ [.transport, .playing, .paused]) start ops := by
  apply board_shows_status _ _ _ rfl
  simp [Told, report]

/-- Left to itself the player goes through the queue: whatever else it reports, each song
that ends is followed by the one at the next position, round after round, and in single mode
by itself. -/
theorem queue_plays_on (start : System) (queue : MusicList) (ops : List Op)
    (playing : Playing own queue start.player) (playable : Playable queue)
    (reported : ∀ op ∈ ops, Reported op) :
    (urlsSent (StepRuns.run (step own) start ops).effects).map some =
        (urlsSent start.effects).map some ++
          (List.range (ops.countP (ends own))).map (fun index =>
            urlAt queue (position queue (index + 1))) ∧
      (StepRuns.run (step own) start ops).player.musicplayerList =
        some (atPosition queue (ops.countP (ends own))) := by
  have begins : Playing own (atPosition queue 0) start.player := by
    rw [atPosition, position_zero playable.cursor]
    exact playing
  have played := run_plays_on playable begins ops reported
  simp only [songsAhead, Nat.zero_add] at played
  exact ⟨played.1, played.2.list⟩

def song (url : String) : MusicInfo := ⟨0, none, some url, none, none, none, none⟩

def twoSongs : MusicList := ⟨[song "a", song "b"], -1, 1, .order, true⟩

def playingTwo : PlayerState := ⟨"musicplayer", 1, true, some twoSongs, "playing"⟩

theorem queue_plays_on_two :
    let ops := [report .playing, report .stopped, report .transport, report .stopped]
    (urlsSent (StepRuns.run (step ownPlayer) (startedSystem playingTwo) ops).effects).map some =
        [] ++ (List.range (ops.countP (ends ownPlayer))).map (fun index =>
          urlAt twoSongs (position twoSongs (index + 1))) ∧
      (StepRuns.run (step ownPlayer) (startedSystem playingTwo) ops).player.musicplayerList =
        some (atPosition twoSongs (ops.countP (ends ownPlayer))) := by
  apply queue_plays_on
  · exact ⟨rfl, rfl, by decide, rfl⟩
  · exact ⟨⟨by decide, by decide⟩, Or.inl rfl, by decide⟩
  · simp [Reported, report, willingWorld]

/-- Once nothing is to play on by itself, as after `mozart_musicplayer_stop_playback`, no song
starts before somebody asks for one. -/
theorem silent_until_asked (start : System) (ops : List Op)
    (off : start.player.autoplayFlag = false) (unasked : ∀ op ∈ ops, Unasked op) :
    StepRuns.AlongRun (step own)
      (fun system => urlsSent system.effects = urlsSent start.effects) start ops := by
  have every : StepRuns.EveryStep (step own) (fun _ op => Unasked op) start ops :=
    StepRuns.every_step_of_all start unasked
  have kept : ∀ (system : System) op,
      system.player.autoplayFlag = false ∧ urlsSent system.effects = urlsSent start.effects →
        Unasked op → (step own system op).player.autoplayFlag = false ∧
          urlsSent (step own system op).effects = urlsSent start.effects := by
    intro system op holds unasked
    obtain ⟨off, silent⟩ : (step own system op).player.autoplayFlag = false ∧
        urlsSent (step own system op).effects = urlsSent system.effects :=
      step_silent holds.1 unasked
    exact ⟨off, silent.trans holds.2⟩
  exact StepRuns.along_run_of_every_step (fun _ holds => holds.2) kept start ⟨off, rfl⟩ ops every

theorem silent_until_asked_stopped :
    let start := startedSystem { playingTwo with autoplayFlag := false }
    let ops : List Op := [report .stopped,
      .request ⟨some ⟨some ownPlayer⟩, .playPause, willingWorld⟩ true, report .stopped]
    StepRuns.AlongRun (step ownPlayer)
      (fun system => urlsSent system.effects = urlsSent start.effects) start ops := by
  apply silent_until_asked
  · rfl
  · simp [Unasked, report, asksToPlay]

end Results

end Gk7102.PlayerSnapshots
