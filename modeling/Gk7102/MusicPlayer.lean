import Gk7102.MusicQueue

/-!
# The music player and its owner

The handler-taking calls of `mozart_musicplayer.c`, each one a step on the
static variables of that file. Every call runs alone here; the mutex itself is
the subject of the locking module. What a call learns from outside (an
allocation, an answer of the player, the outcome of a poll) is its `World`, and
what it does to the outside is its list of effects. A call that dereferences a
NULL handler has no outcome.
-/

namespace Gk7102.MusicPlayer

open Gk7102.StepRuns
open Gk7102.MusicQueue

set_option autoImplicit false

structure PlayerHandler where
  uuid : String
deriving DecidableEq, Repr

structure MusicplayerHandler where
  playerHandler : Option PlayerHandler
deriving DecidableEq, Repr

inductive PlayerStatus where
  | unknown
  | transport
  | playing
  | paused
  | stopped
  | aoswitchFail
deriving DecidableEq, Repr

/-- `PLAYER_PAUSED` as the `int` that the refused calls return. -/
def playerPaused : Int := 3

inductive ModuleStatus where
  | statusError
  | shutdown
  | running
  | extract
  | insert
  | playing
  | pause
  | waitResponse
  | responseDone
  | responsePause
  | responseCancel
deriving DecidableEq, Repr

inductive PlayerCommand where
  | playUrl (url : String)
  | cacheUrl (url : String)
  | doResume
  | doPause
  | doStop
  | doSeek (pos : Int)
  | setVolume (val : Int)
  | getSnapshot
deriving DecidableEq, Repr

inductive Effect where
  | sendCmd (uuid : String) (command : PlayerCommand)
  | eventSend (type : String)
  | shareMemSet (status : ModuleStatus)
deriving DecidableEq, Repr

/-- The three answers that end the wait for a play permission. -/
inductive Permission where
  | done
  | pause
  | cancel
deriving DecidableEq, Repr

structure World where
  random : Nat
  commandAllocated : PlayerCommand → Bool
  feadback : Bool
  snapshotStatus : Option PlayerStatus
  permission : Option Permission
  audioOss : Bool
  stoppedInTime : Bool

/-- The static variables of the file. `eventType` is the `type` text left in
`mozart_musicplayer_event` by the last call that wrote it. -/
structure PlayerState where
  currentUuid : String
  inMusicplayer : Int
  autoplayFlag : Bool
  musicplayerList : Option MusicList
  eventType : String
deriving DecidableEq, Repr

structure Outcome where
  ret : Int
  state : PlayerState
  effects : List Effect
deriving DecidableEq, Repr

/-- Creates a command and hands it to `send_cmd`, which answers 0 for every
command it is given, delivered or not. A missing url creates no command. -/
def sendPlayerCommand (world : World) (handler : Option PlayerHandler)
    (command : Option PlayerCommand) : Int × List Effect :=
  match handler, command with
  | some player, some command =>
      if world.commandAllocated command then (0, [.sendCmd player.uuid command]) else (-1, [])
  | _, _ => (-1, [])

def mozartPlayerPlayurl (world : World) (handler : Option PlayerHandler) (url : Option String) :
    Int × List Effect :=
  sendPlayerCommand world handler (url.map .playUrl)

def mozartPlayerCacheurl (world : World) (handler : Option PlayerHandler) (url : Option String) :
    Int × List Effect :=
  sendPlayerCommand world handler (url.map .cacheUrl)

def mozartPlayerResume (world : World) (handler : Option PlayerHandler) : Int × List Effect :=
  sendPlayerCommand world handler (some .doResume)

def mozartPlayerPause (world : World) (handler : Option PlayerHandler) : Int × List Effect :=
  sendPlayerCommand world handler (some .doPause)

def mozartPlayerStop (world : World) (handler : Option PlayerHandler) : Int × List Effect :=
  sendPlayerCommand world handler (some .doStop)

def mozartPlayerSeek (world : World) (handler : Option PlayerHandler) (position : Int) :
    Int × List Effect :=
  sendPlayerCommand world handler (some (.doSeek position))

def mozartPlayerVolset (world : World) (handler : Option PlayerHandler) (volume : Int) :
    Int × List Effect :=
  let (rs, effects) := sendPlayerCommand world handler (some (.setVolume volume))
  (if rs = 0 ∧ world.feadback then 0 else -1, effects)

def mozartPlayerGetstatus (world : World) (handler : Option PlayerHandler) :
    PlayerStatus × List Effect :=
  let (ret, effects) := sendPlayerCommand world handler (some .getSnapshot)
  (if ret = 0 then world.snapshotStatus.getD .unknown else .unknown, effects)

def playerHandlerOf (handler : Option MusicplayerHandler) : Option PlayerHandler :=
  handler.bind MusicplayerHandler.playerHandler

def checkHandlerUuid (state : PlayerState) (handler : Option MusicplayerHandler) : Int :=
  match playerHandlerOf handler with
  | none => -1
  | some player => if state.currentUuid ≠ player.uuid then -1 else 0

/-- The shape most entry points share: the uuid is checked under the lock, and a
handler that fails the check gets the refusal value and nothing else. -/
def guarded (refused : Int) (handler : Option MusicplayerHandler) (state : PlayerState)
    (body : Outcome) : Outcome :=
  if checkHandlerUuid state handler < 0 then ⟨refused, state, []⟩ else body

def mozartMusicplayerMusiclistInsert (handler : Option MusicplayerHandler)
    (info : Option MusicInfo) (state : PlayerState) : Outcome :=
  guarded (-1) handler state
    (let (ret, list) := mozartMusiclistInsert state.musicplayerList info
     ⟨ret, { state with musicplayerList := list }, []⟩)

def mozartMusicplayerMusiclistDeleteIndex (handler : Option MusicplayerHandler) (index : Int)
    (state : PlayerState) : Outcome :=
  guarded (-1) handler state
    (let (ret, list) := mozartMusiclistDeleteIndex state.musicplayerList index
     ⟨ret, { state with musicplayerList := list }, []⟩)

def mozartMusicplayerMusiclistSetPlayMode (handler : Option MusicplayerHandler) (mode : PlayMode)
    (state : PlayerState) : Outcome :=
  guarded (-1) handler state
    (let (ret, list) := mozartMusiclistSetPlayMode state.musicplayerList mode
     ⟨ret, { state with musicplayerList := list }, []⟩)

def mozartMusicplayerMusiclistClean (handler : Option MusicplayerHandler) (state : PlayerState) :
    Outcome :=
  guarded (-1) handler state
    ⟨0, { state with musicplayerList := (mozartMusiclistClean state.musicplayerList).2 }, []⟩

/-- The queries check the uuid too, and answer -1 to everybody but the owner. -/
def mozartMusicplayerMusiclistGetLength (handler : Option MusicplayerHandler)
    (state : PlayerState) : Int :=
  if checkHandlerUuid state handler < 0 then -1
  else mozartMusiclistGetLength state.musicplayerList

def mozartMusicplayerMusiclistGetCurrentIndex (handler : Option MusicplayerHandler)
    (state : PlayerState) : Int :=
  if checkHandlerUuid state handler < 0 then -1
  else mozartMusiclistGetCurrentIndex state.musicplayerList

/-- The end of a successful play request. -/
def playStarted (effects : List Effect) (state : PlayerState) : Outcome :=
  ⟨0, { state with autoplayFlag := true, eventType := "playing" },
    effects ++ [.eventSend "playing"]⟩

/-- A play or cache command decides between failure and a started song. -/
def afterUrlCommand (effects : List Effect) (failed started : PlayerState)
    (command : Int × List Effect) : Outcome :=
  if command.1 ≠ 0 then ⟨-1, failed, effects ++ command.2⟩
  else playStarted (effects ++ command.2) started

/-- The double-underscored `__mozart_musicplayer_play_music_info`, run under the
lock. Outside the player domain it first asks the event thread for permission;
the poll of at most a thousand rounds is its `permission`. -/
def mozartMusicplayerPlayMusicInfoLocked (world : World) (handler : Option PlayerHandler)
    (info : MusicInfo) (state : PlayerState) : Outcome :=
  if state.inMusicplayer ≠ 0 then
    afterUrlCommand [] state state (mozartPlayerPlayurl world handler info.musicUrl)
  else
    let asked := { state with eventType := "play" }
    let entered := { asked with inMusicplayer := 1 }
    let request := [.shareMemSet .waitResponse, .eventSend "play"]
    match world.permission with
    | none => ⟨-1, asked, request⟩
    | some .cancel => ⟨-1, asked, request⟩
    | some .done =>
        afterUrlCommand request asked entered (mozartPlayerPlayurl world handler info.musicUrl)
    | some .pause =>
        afterUrlCommand request asked entered (mozartPlayerCacheurl world handler info.musicUrl)

/-- The selection is stored before the song is handed to the player. -/
def playSelected (world : World) (handler : Option MusicplayerHandler) (state : PlayerState)
    (selection : Option MusicInfo × Option MusicList) : Outcome :=
  let selected := { state with musicplayerList := selection.2 }
  match selection.1 with
  | none => ⟨-1, selected, []⟩
  | some info =>
      mozartMusicplayerPlayMusicInfoLocked world (playerHandlerOf handler) info selected

def mozartMusicplayerPlayIndex (world : World) (handler : Option MusicplayerHandler) (index : Int)
    (state : PlayerState) : Outcome :=
  guarded (-1) handler state
    (playSelected world handler state (mozartMusiclistSetIndex state.musicplayerList index))

def mozartMusicplayerPrevMusic (world : World) (handler : Option MusicplayerHandler)
    (state : PlayerState) : Outcome :=
  guarded (-1) handler state
    (playSelected world handler state (mozartMusiclistSetPrev world.random state.musicplayerList))

/-- The double-underscored `__mozart_musicplayer_next_music`. -/
def mozartMusicplayerNextMusicLocked (world : World) (handler : Option MusicplayerHandler)
    (force : Bool) (state : PlayerState) : Outcome :=
  playSelected world handler state
    (mozartMusiclistSetNext world.random state.musicplayerList force)

def mozartMusicplayerNextMusicFalse (world : World) (handler : Option MusicplayerHandler)
    (state : PlayerState) : Outcome :=
  guarded (-1) handler state (mozartMusicplayerNextMusicLocked world handler false state)

def mozartMusicplayerNextMusic (world : World) (handler : Option MusicplayerHandler)
    (state : PlayerState) : Outcome :=
  guarded (-1) handler state (mozartMusicplayerNextMusicLocked world handler true state)

def mozartMusicplayerPlayMusicInfo (world : World) (handler : Option MusicplayerHandler)
    (info : MusicInfo) (state : PlayerState) : Outcome :=
  guarded (-1) handler state
    (mozartMusicplayerPlayMusicInfoLocked world (playerHandlerOf handler) info state)

def mozartMusicplayerSetSeek (world : World) (handler : Option MusicplayerHandler) (seek : Int)
    (state : PlayerState) : Outcome :=
  guarded playerPaused handler state
    (let (ret, sent) := mozartPlayerSeek world (playerHandlerOf handler) seek
     ⟨ret, state, sent⟩)

def mozartMusicplayerSetVolume (world : World) (handler : Option MusicplayerHandler)
    (volume : Int) (state : PlayerState) : Outcome :=
  guarded (-1) handler state
    (let (ret, sent) := mozartPlayerVolset world (playerHandlerOf handler) volume
     ⟨ret, state, sent⟩)

/-- Asks the player for its status before the lock is taken and the uuid is
checked. A player that is neither playing nor paused gets no command, and the
event goes out with whatever type the last call left in it. -/
def mozartMusicplayerPlayPause (world : World) (handler : Option MusicplayerHandler)
    (state : PlayerState) : Outcome :=
  if handler = none then ⟨-1, state, []⟩
  else
    let (status, asked) := mozartPlayerGetstatus world (playerHandlerOf handler)
    if checkHandlerUuid state handler < 0 then ⟨playerPaused, state, asked⟩
    else
      match status with
      | .playing =>
          let (ret, sent) := mozartPlayerPause world (playerHandlerOf handler)
          ⟨ret, { state with eventType := "pause" }, asked ++ sent ++ [.eventSend "pause"]⟩
      | .paused =>
          let (ret, sent) := mozartPlayerResume world (playerHandlerOf handler)
          ⟨ret, { state with eventType := "resume" }, asked ++ sent ++ [.eventSend "resume"]⟩
      | _ => ⟨-1, state, asked ++ [.eventSend state.eventType]⟩

/-- Neither locks nor checks: the flag is cleared and the player stopped for
whatever handler is passed. -/
def mozartMusicplayerStopPlayback (world : World) (handler : Option MusicplayerHandler)
    (state : PlayerState) : Option Outcome :=
  handler.map fun musicplayer =>
    let silenced := { state with autoplayFlag := false }
    let (rs, sent) := mozartPlayerStop world musicplayer.playerHandler
    if rs ≠ 0 then ⟨-1, silenced, sent⟩
    else if world.audioOss ∧ world.stoppedInTime = false then ⟨-1, silenced, sent⟩
    else ⟨0, silenced, sent ++ [.shareMemSet .running]⟩

def mozartMusicplayerStart (handler : Option MusicplayerHandler) (state : PlayerState) : Outcome :=
  match playerHandlerOf handler with
  | none => ⟨-1, state, []⟩
  | some player =>
      if state.currentUuid ≠ "invalid" then ⟨-1, state, []⟩
      else ⟨0, { state with currentUuid := player.uuid }, []⟩

def ownerReleased (state : PlayerState) : PlayerState :=
  { state with
    musicplayerList := (mozartMusiclistClean state.musicplayerList).2
    currentUuid := "invalid" }

/-- `in_musicplayer` is cleared before the owner is looked at. -/
def mozartMusicplayerStop (world : World) (handler : Option MusicplayerHandler)
    (state : PlayerState) : Option Outcome :=
  let left := { state with inMusicplayer := 0 }
  if left.currentUuid = "invalid" then some ⟨0, left, []⟩
  else
    match playerHandlerOf handler with
    | none => none
    | some player =>
        if left.currentUuid ≠ player.uuid then some ⟨-1, left, []⟩
        else
          let (status, asked) := mozartPlayerGetstatus world (some player)
          if status ≠ .stopped then
            (mozartMusicplayerStopPlayback world handler left).map fun stopped =>
              ⟨0, ownerReleased stopped.state, asked ++ stopped.effects⟩
          else some ⟨0, ownerReleased left, asked⟩

/-- The state a successful `mozart_musicplayer_startup` leaves. -/
def mozartMusicplayerStartup (callocated : Bool) : PlayerState where
  currentUuid := "invalid"
  inMusicplayer := 0
  autoplayFlag := false
  musicplayerList := mozartMusiclistCreate callocated true
  eventType := ""

inductive Call where
  | musiclistInsert (info : Option MusicInfo)
  | musiclistDeleteIndex (index : Int)
  | musiclistClean
  | musiclistSetPlayMode (mode : PlayMode)
  | playIndex (index : Int)
  | prevMusic
  | nextMusic
  | nextMusicFalse
  | playPause
  | playMusicInfo (info : MusicInfo)
  | setSeek (seek : Int)
  | setVolume (volume : Int)
  | stopPlayback
  | start
  | stop
deriving DecidableEq, Repr

structure Request where
  handler : Option MusicplayerHandler
  call : Call
  world : World

def perform (state : PlayerState) (request : Request) : Option Outcome :=
  let handler := request.handler
  let world := request.world
  match request.call with
  | .musiclistInsert info => some (mozartMusicplayerMusiclistInsert handler info state)
  | .musiclistDeleteIndex index => some (mozartMusicplayerMusiclistDeleteIndex handler index state)
  | .musiclistClean => some (mozartMusicplayerMusiclistClean handler state)
  | .musiclistSetPlayMode mode => some (mozartMusicplayerMusiclistSetPlayMode handler mode state)
  | .playIndex index => some (mozartMusicplayerPlayIndex world handler index state)
  | .prevMusic => some (mozartMusicplayerPrevMusic world handler state)
  | .nextMusic => some (mozartMusicplayerNextMusic world handler state)
  | .nextMusicFalse => some (mozartMusicplayerNextMusicFalse world handler state)
  | .playPause => some (mozartMusicplayerPlayPause world handler state)
  | .playMusicInfo info => some (mozartMusicplayerPlayMusicInfo world handler info state)
  | .setSeek seek => some (mozartMusicplayerSetSeek world handler seek state)
  | .setVolume volume => some (mozartMusicplayerSetVolume world handler volume state)
  | .stopPlayback => mozartMusicplayerStopPlayback world handler state
  | .start => some (mozartMusicplayerStart handler state)
  | .stop => mozartMusicplayerStop world handler state

/-- A call without an outcome ends the process; the state is left as it was. -/
def playerStep (state : PlayerState) (request : Request) : PlayerState :=
  match perform state request with
  | none => state
  | some outcome => outcome.state

def urlsSent (effects : List Effect) : List String :=
  effects.filterMap fun effect =>
    match effect with
    | .sendCmd _ (.playUrl url) => some url
    | .sendCmd _ (.cacheUrl url) => some url
    | _ => none

section Playing

variable (world : World) (handler : Option PlayerHandler) (info : MusicInfo) (state : PlayerState)

theorem url_command_success (wrap : String → PlayerCommand) (url : Option String)
    (success : (sendPlayerCommand world handler (url.map wrap)).1 = 0) :
    ∃ player text, handler = some player ∧ url = some text ∧
      (sendPlayerCommand world handler (url.map wrap)).2 = [.sendCmd player.uuid (wrap text)] := by
  cases handler with
  | none => simp [sendPlayerCommand] at success
  | some player =>
      cases url with
      | none => simp [sendPlayerCommand] at success
      | some text =>
          refine ⟨player, text, rfl, rfl, ?_⟩
          simp only [sendPlayerCommand, Option.map_some] at success ⊢
          split at success
          · rename_i allocated
            rw [if_pos allocated]
          · simp at success

theorem after_url_command_keeps (effects : List Effect) (failed started : PlayerState)
    (command : Int × List Effect) (queue : started.musicplayerList = failed.musicplayerList)
    (owner : started.currentUuid = failed.currentUuid) :
    (afterUrlCommand effects failed started command).state.musicplayerList =
        failed.musicplayerList ∧
      (afterUrlCommand effects failed started command).state.currentUuid =
        failed.currentUuid := by
  unfold afterUrlCommand
  split
  · exact ⟨rfl, rfl⟩
  · exact ⟨queue, owner⟩

theorem after_url_command_success (effects : List Effect) (failed started : PlayerState)
    (wrap : String → PlayerCommand) (url : Option String)
    (hands : ∀ uuid text, urlsSent [.sendCmd uuid (wrap text)] = [text])
    (silent : urlsSent effects = [])
    (success : (afterUrlCommand effects failed started
      (sendPlayerCommand world handler (url.map wrap))).ret = 0) :
    ∃ text, url = some text ∧
      urlsSent (afterUrlCommand effects failed started
        (sendPlayerCommand world handler (url.map wrap))).effects = [text] := by
  by_cases sent : (sendPlayerCommand world handler (url.map wrap)).1 = 0
  · rcases url_command_success world handler wrap url sent with ⟨player, text, -, named, handed⟩
    refine ⟨text, named, ?_⟩
    simp only [afterUrlCommand, playStarted, sent, handed, ne_eq, not_true_eq_false, if_false,
      urlsSent, List.filterMap_append, List.filterMap_cons, List.filterMap_nil,
      List.append_nil] at silent hands ⊢
    rw [silent, hands]
    rfl
  · simp [afterUrlCommand, sent] at success

theorem play_locked_keeps :
    (mozartMusicplayerPlayMusicInfoLocked world handler info state).state.musicplayerList =
        state.musicplayerList ∧
      (mozartMusicplayerPlayMusicInfoLocked world handler info state).state.currentUuid =
        state.currentUuid := by
  unfold mozartMusicplayerPlayMusicInfoLocked
  split
  · exact after_url_command_keeps _ _ _ _ rfl rfl
  · dsimp only
    cases world.permission with
    | none => exact ⟨rfl, rfl⟩
    | some permission =>
        cases permission with
        | cancel => exact ⟨rfl, rfl⟩
        | done => exact after_url_command_keeps _ _ _ _ rfl rfl
        | pause => exact after_url_command_keeps _ _ _ _ rfl rfl

theorem play_locked_success
    (success : (mozartMusicplayerPlayMusicInfoLocked world handler info state).ret = 0) :
    ∃ url, info.musicUrl = some url ∧
      urlsSent (mozartMusicplayerPlayMusicInfoLocked world handler info state).effects = [url] := by
  unfold mozartMusicplayerPlayMusicInfoLocked at success ⊢
  by_cases inside : state.inMusicplayer ≠ 0
  · rw [if_pos inside] at success ⊢
    apply after_url_command_success world handler _ _ _ .playUrl _ _ _ success
    · intro uuid text
      rfl
    · rfl
  · rw [if_neg inside] at success ⊢
    dsimp only at success ⊢
    cases asked : world.permission with
    | none => simp [asked] at success
    | some permission =>
        rw [asked] at success
        cases permission with
        | cancel => simp at success
        | done =>
            apply after_url_command_success world handler _ _ _ .playUrl _ _ _ success
            · intro uuid text
              rfl
            · rfl
        | pause =>
            apply after_url_command_success world handler _ _ _ .cacheUrl _ _ _ success
            · intro uuid text
              rfl
            · rfl

/-- The player takes the commands it is sent, and the event thread grants the
permission where one is asked for. -/
structure PlayerAccepts (world : World) (state : PlayerState) : Prop where
  created : ∀ command, world.commandAllocated command = true
  permitted : state.inMusicplayer ≠ 0 ∨ world.permission = some .done ∨
    world.permission = some .pause

theorem play_locked_accepted (player : PlayerHandler) (url : String)
    (named : info.musicUrl = some url) (accepts : PlayerAccepts world state) :
    urlsSent (mozartMusicplayerPlayMusicInfoLocked world (some player) info state).effects =
      [url] := by
  have created := accepts.created
  unfold mozartMusicplayerPlayMusicInfoLocked
  by_cases inside : state.inMusicplayer ≠ 0
  · simp [inside, afterUrlCommand, mozartPlayerPlayurl, sendPlayerCommand, named, created,
      playStarted, urlsSent]
  · rcases accepts.permitted with present | done | pause
    · exact absurd present inside
    · simp [inside, done, afterUrlCommand, mozartPlayerPlayurl, sendPlayerCommand, named, created,
        playStarted, urlsSent]
    · simp [inside, pause, afterUrlCommand, mozartPlayerCacheurl, sendPlayerCommand, named,
        created, playStarted, urlsSent]

end Playing

/-- Only the owner's name decides the check. -/
theorem check_handler_uuid_congr {state other : PlayerState}
    (owner : other.currentUuid = state.currentUuid) (handler : Option MusicplayerHandler) :
    checkHandlerUuid other handler = checkHandlerUuid state handler := by
  rw [checkHandlerUuid, checkHandlerUuid, owner]

section Frames

variable (handler : Option MusicplayerHandler) (state : PlayerState)

theorem clean_keeps_owner :
    (mozartMusicplayerMusiclistClean handler state).state.currentUuid = state.currentUuid := by
  unfold mozartMusicplayerMusiclistClean guarded
  split <;> rfl

theorem insert_keeps_owner (info : Option MusicInfo) :
    (mozartMusicplayerMusiclistInsert handler info state).state.currentUuid =
      state.currentUuid := by
  unfold mozartMusicplayerMusiclistInsert guarded
  split <;> rfl

/-- What a successful `play_index` did: the index was in range and selected, and
the url of that song, and no other, went to the player. -/
theorem play_index_success (world : World) (index : Int)
    (success : (mozartMusicplayerPlayIndex world handler index state).ret = 0) :
    ¬ checkHandlerUuid state handler < 0 ∧
      ∃ queue info url, state.musicplayerList = some queue ∧
        0 ≤ index ∧ index < queue.list.length ∧
        listGetElement queue.list index = some info ∧ info.musicUrl = some url ∧
        (mozartMusicplayerPlayIndex world handler index state).state.musicplayerList =
          some { queue with currentIndex := index } ∧
        urlsSent (mozartMusicplayerPlayIndex world handler index state).effects = [url] := by
  by_cases refused : checkHandlerUuid state handler < 0
  · simp [mozartMusicplayerPlayIndex, guarded, refused] at success
  · refine ⟨refused, ?_⟩
    simp only [mozartMusicplayerPlayIndex, guarded, if_neg refused] at success ⊢
    cases present : state.musicplayerList with
    | none => simp [present, mozartMusiclistSetIndex, playSelected] at success
    | some queue =>
        by_cases outside : index ≥ queue.list.length ∨ index < 0
        · simp [present, set_index_outside queue index outside, playSelected] at success
        · have inside : 0 ≤ index ∧ index < queue.list.length := by omega
          rw [present, set_index_inside queue index inside.1 inside.2] at success
          have found := list_get_element_in_range queue.list index inside.1 inside.2
          rcases Option.isSome_iff_exists.mp found with ⟨info, element⟩
          simp only [playSelected, element] at success
          rcases play_locked_success _ _ _ _ success with ⟨url, song, sent⟩
          refine ⟨queue, info, url, rfl, inside.1, inside.2, element, song, ?_, ?_⟩
          · rw [set_index_inside queue index inside.1 inside.2]
            simp only [playSelected, element]
            exact (play_locked_keeps _ _ _ _).1
          · rw [set_index_inside queue index inside.1 inside.2]
            simp only [playSelected, element]
            exact sent

theorem play_index_keeps_songs (world : World) (index : Int) (queue : MusicList)
    (present : state.musicplayerList = some queue) :
    ∃ moved, (mozartMusicplayerPlayIndex world handler index state).state.musicplayerList =
        some moved ∧ moved.list = queue.list := by
  unfold mozartMusicplayerPlayIndex guarded
  split
  · exact ⟨queue, present, rfl⟩
  · rw [present]
    by_cases outside : index ≥ queue.list.length ∨ index < 0
    · rw [set_index_outside queue index outside]
      exact ⟨queue, rfl, rfl⟩
    · rw [set_index_inside queue index (by omega) (by omega)]
      unfold playSelected
      split
      · exact ⟨_, rfl, rfl⟩
      · exact ⟨_, (play_locked_keeps _ _ _ _).1, rfl⟩

theorem stop_playback_keeps_queue (world : World) (outcome : Outcome)
    (performed : mozartMusicplayerStopPlayback world handler state = some outcome) :
    outcome.state.musicplayerList = state.musicplayerList := by
  unfold mozartMusicplayerStopPlayback at performed
  rcases Option.map_eq_some_iff.mp performed with ⟨musicplayer, -, result⟩
  subst result
  dsimp only
  split
  · rfl
  · split <;> rfl

end Frames

/-- Another handler than the owner's, at a time when there is an owner. -/
def Foreign (state : PlayerState) (handler : Option MusicplayerHandler) : Prop :=
  state.currentUuid ≠ "invalid" ∧
    ∃ player, playerHandlerOf handler = some player ∧ player.uuid ≠ state.currentUuid

/-- Asking for a snapshot is the one command that changes nothing in the player. -/
def StateChanging (command : PlayerCommand) : Prop :=
  command ≠ .getSnapshot

structure Undisturbed (before : PlayerState) (outcome : Outcome) : Prop where
  owner : outcome.state.currentUuid = before.currentUuid
  domain : outcome.state.inMusicplayer = before.inMusicplayer
  autoplay : outcome.state.autoplayFlag = before.autoplayFlag
  queue : outcome.state.musicplayerList = before.musicplayerList
  quiet : ∀ uuid command, Effect.sendCmd uuid command ∈ outcome.effects → ¬ StateChanging command

def ForeignCallHarmless (state : PlayerState) (request : Request) : Prop :=
  Foreign state request.handler →
    ∃ outcome, perform state request = some outcome ∧ Undisturbed state outcome

/-- The two entry points that act before they know who is calling, in the
states and surroundings where the action shows. -/
def Trespass (state : PlayerState) (request : Request) : Prop :=
  Foreign state request.handler ∧
    (request.call = .stopPlayback ∧
        (state.autoplayFlag = true ∨ request.world.commandAllocated .doStop = true) ∨
      request.call = .stop ∧ state.inMusicplayer ≠ 0)

theorem foreign_check_fails {state : PlayerState} {handler : Option MusicplayerHandler}
    (foreign : Foreign state handler) : checkHandlerUuid state handler < 0 := by
  rcases foreign with ⟨_, player, present, other⟩
  rw [checkHandlerUuid, present]
  simp only [ne_eq, other.symm, not_false_eq_true, if_true]
  decide

theorem guarded_foreign {state : PlayerState} {handler : Option MusicplayerHandler}
    (foreign : Foreign state handler) (refused : Int) (body : Outcome) :
    guarded refused handler state body = ⟨refused, state, []⟩ :=
  if_pos (foreign_check_fails foreign)

theorem refusal_undisturbed (refused : Int) (state : PlayerState) :
    Undisturbed state ⟨refused, state, []⟩ where
  owner := rfl
  domain := rfl
  autoplay := rfl
  queue := rfl
  quiet := by simp

theorem guarded_undisturbed {state : PlayerState} {handler : Option MusicplayerHandler}
    (foreign : Foreign state handler) (refused : Int) (body : Outcome) :
    Undisturbed state (guarded refused handler state body) := by
  rw [guarded_foreign foreign]
  exact refusal_undisturbed refused state

theorem sent_command_eq (world : World) (handler : Option PlayerHandler)
    (command : Option PlayerCommand) (uuid : String) (sent : PlayerCommand)
    (member : Effect.sendCmd uuid sent ∈ (sendPlayerCommand world handler command).2) :
    command = some sent := by
  unfold sendPlayerCommand at member
  split at member
  · split at member
    · simp only [List.mem_singleton, Effect.sendCmd.injEq] at member
      rw [member.2]
    · simp at member
  · simp at member

theorem play_pause_undisturbed {state : PlayerState} {handler : Option MusicplayerHandler}
    (foreign : Foreign state handler) (world : World) :
    Undisturbed state (mozartMusicplayerPlayPause world handler state) := by
  have refused := foreign_check_fails foreign
  have present : handler ≠ none := by
    rcases foreign with ⟨_, player, present, _⟩
    rintro rfl
    simp [playerHandlerOf] at present
  rw [mozartMusicplayerPlayPause, if_neg present]
  simp only [if_pos refused]
  refine ⟨rfl, rfl, rfl, rfl, ?_⟩
  intro uuid command member
  have asked := sent_command_eq world _ _ uuid command member
  simp only [Option.some.injEq] at asked
  simp [StateChanging, ← asked]

theorem start_undisturbed {state : PlayerState} {handler : Option MusicplayerHandler}
    (foreign : Foreign state handler) :
    Undisturbed state (mozartMusicplayerStart handler state) := by
  rcases foreign with ⟨owned, player, present, _⟩
  rw [mozartMusicplayerStart, present]
  simp only [if_pos owned]
  exact refusal_undisturbed (-1) state

theorem stop_foreign {state : PlayerState} {handler : Option MusicplayerHandler}
    (foreign : Foreign state handler) (world : World) :
    mozartMusicplayerStop world handler state =
      some ⟨-1, { state with inMusicplayer := 0 }, []⟩ := by
  rcases foreign with ⟨owned, player, present, other⟩
  simp only [mozartMusicplayerStop, present, if_neg owned]
  exact if_pos other.symm

/-- A foreign stop is harmless when the player domain was already left. -/
theorem stop_undisturbed_iff {state : PlayerState} {handler : Option MusicplayerHandler}
    (foreign : Foreign state handler) (world : World) :
    (∃ outcome, mozartMusicplayerStop world handler state = some outcome ∧
        Undisturbed state outcome) ↔ state.inMusicplayer = 0 := by
  rw [stop_foreign foreign]
  constructor
  · rintro ⟨outcome, performed, calm⟩
    rcases Option.some.inj performed with rfl
    exact calm.domain.symm
  · intro outside
    exact ⟨_, rfl, ⟨rfl, outside.symm, rfl, rfl, by simp⟩⟩

/-- A foreign stop of the playback is harmless when autoplay was off and no stop
command could be created. -/
theorem stop_playback_undisturbed_iff {state : PlayerState} {handler : Option MusicplayerHandler}
    (foreign : Foreign state handler) (world : World) :
    (∃ outcome, mozartMusicplayerStopPlayback world handler state = some outcome ∧
        Undisturbed state outcome) ↔
      state.autoplayFlag = false ∧ world.commandAllocated .doStop = false := by
  rcases foreign with ⟨_, player, present, _⟩
  rcases Option.bind_eq_some_iff.mp present with ⟨musicplayer, rfl, held⟩
  cases allocated : world.commandAllocated .doStop with
  | false =>
      simp only [mozartMusicplayerStopPlayback, mozartPlayerStop, sendPlayerCommand, held,
        allocated, Option.map_some, Option.some.injEq, exists_eq_left']
      constructor
      · intro calm
        exact ⟨calm.autoplay.symm, trivial⟩
      · rintro ⟨off, -⟩
        exact ⟨rfl, rfl, off.symm, rfl, by simp⟩
  | true =>
      simp only [Bool.true_eq_false, and_false, iff_false]
      rintro ⟨outcome, performed, calm⟩
      have sent : Effect.sendCmd player.uuid .doStop ∈ outcome.effects := by
        simp only [mozartMusicplayerStopPlayback, mozartPlayerStop, sendPlayerCommand, held,
          allocated, Option.map_some, Option.some.injEq] at performed
        subst performed
        simp only [if_true, ne_eq, not_true_eq_false, if_false]
        split <;> simp
      exact calm.quiet player.uuid .doStop sent (by simp [StateChanging])

theorem foreign_call_harmless_iff (state : PlayerState) (request : Request) :
    ForeignCallHarmless state request ↔ ¬ Trespass state request := by
  rcases request with ⟨handler, call, world⟩
  by_cases foreign : Foreign state handler
  · simp only [ForeignCallHarmless, Trespass, foreign, true_imp_iff, true_and]
    cases call with
    | playPause => simpa [perform] using play_pause_undisturbed foreign world
    | start => simpa [perform] using start_undisturbed foreign
    | stop => simpa [perform] using stop_undisturbed_iff foreign world
    | stopPlayback =>
        simpa [perform] using stop_playback_undisturbed_iff foreign world
    | _ =>
        simp only [perform, reduceCtorEq, false_and, or_self, not_false_eq_true, iff_true]
        exact ⟨_, rfl, guarded_undisturbed foreign _ _⟩
  · simp [ForeignCallHarmless, Trespass, foreign]

/-- Along every run from startup, the calls of foreign handlers are all harmless
exactly when no step of the run is a trespass. -/
theorem foreign_calls_harmless_along_run (callocated : Bool) (requests : List Request) :
    EveryStep playerStep ForeignCallHarmless (mozartMusicplayerStartup callocated) requests ↔
      EveryStep playerStep (fun state request => ¬ Trespass state request)
        (mozartMusicplayerStartup callocated) requests :=
  every_step_congr foreign_call_harmless_iff _ requests

def quietWorld : World where
  random := 0
  commandAllocated := fun _ => true
  feadback := true
  snapshotStatus := some .stopped
  permission := some .done
  audioOss := false
  stoppedInTime := true

def handlerNamed (uuid : String) : Option MusicplayerHandler :=
  some { playerHandler := some { uuid := uuid } }

/-- The owner starts, then another handler stops the playback. -/
theorem foreign_stop_playback_reaches_player :
    ¬ ∀ callocated requests,
      EveryStep playerStep ForeignCallHarmless (mozartMusicplayerStartup callocated) requests := by
  intro always
  have harmless := (always true
    [⟨handlerNamed "musicplayer", .start, quietWorld⟩,
      ⟨handlerNamed "other", .stopPlayback, quietWorld⟩]).2.1
  have foreign : Foreign (playerStep (mozartMusicplayerStartup true)
      ⟨handlerNamed "musicplayer", .start, quietWorld⟩) (handlerNamed "other") :=
    ⟨by decide, { uuid := "other" }, rfl, by decide⟩
  rcases harmless foreign with ⟨outcome, performed, calm⟩
  rcases Option.some.inj performed with rfl
  exact calm.quiet "other" .doStop (by decide) (by simp [StateChanging])

end Gk7102.MusicPlayer
