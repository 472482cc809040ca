import Gk7102.MusicPlayer

/-!
# Selecting a song and playing it

The four calls that pick a song and play it move the cursor first. A playback that
fails leaves `in_musicplayer` and `autoplay_flag` as they were, since both are set
after the player took the command, and the cursor where the call put it.
-/

namespace Gk7102.PlaySelection

open Gk7102.MusicQueue
open Gk7102.MusicPlayer

set_option autoImplicit false

/-- `nextMusicFalse` is the call the status callback makes for autoplay. -/
inductive PlayCall where
  | playIndex (index : Int)
  | prevMusic
  | nextMusic
  | nextMusicFalse
deriving DecidableEq, Repr

def PlayCall.toCall : PlayCall → Call
  | .playIndex index => .playIndex index
  | .prevMusic => .prevMusic
  | .nextMusic => .nextMusic
  | .nextMusicFalse => .nextMusicFalse

def select (call : PlayCall) (random : Nat) (list : Option MusicList) :
    Option MusicInfo × Option MusicList :=
  match call with
  | .playIndex index => mozartMusiclistSetIndex list index
  | .prevMusic => mozartMusiclistSetPrev random list
  | .nextMusic => mozartMusiclistSetNext random list true
  | .nextMusicFalse => mozartMusiclistSetNext random list false

/-- Where the call moves the cursor, if it moves it. -/
def target (call : PlayCall) (random : Nat) (queue : MusicList) : Option Int :=
  match call with
  | .playIndex index => if index ≥ queue.list.length ∨ index < 0 then none else some index
  | .prevMusic => if queue.list = [] then none else some (prevIndex random queue)
  | .nextMusic => if queue.list = [] then none else some (nextIndex random queue true)
  | .nextMusicFalse => if queue.list = [] then none else some (nextIndex random queue false)

/-- The player can be sent this command about this url. -/
def CommandCreated (world : World) (player : Option PlayerHandler)
    (wrap : String → MusicPlayer.PlayerCommand) (url : Option String) : Prop :=
  ∃ handler text, player = some handler ∧ url = some text ∧
    world.commandAllocated (wrap text) = true

/-- What makes a playback fail: no permission in time, a cancelled one, or a command that
cannot be created. -/
def PlayRefused (world : World) (player : Option PlayerHandler) (info : MusicInfo)
    (state : PlayerState) : Prop :=
  if state.inMusicplayer ≠ 0 then ¬ CommandCreated world player .playUrl info.musicUrl
  else
    match world.permission with
    | none => True
    | some .cancel => True
    | some .done => ¬ CommandCreated world player .playUrl info.musicUrl
    | some .pause => ¬ CommandCreated world player .cacheUrl info.musicUrl

structure SelectionRestored (before after : PlayerState) : Prop where
  cursor : mozartMusiclistGetCurrentIndex after.musicplayerList =
    mozartMusiclistGetCurrentIndex before.musicplayerList
  domain : after.inMusicplayer = before.inMusicplayer
  autoplay : after.autoplayFlag = before.autoplayFlag

/-- A call that returns an error restores the selection. -/
def FailureRestores (state : PlayerState) (handler : Option MusicplayerHandler) (world : World)
    (call : PlayCall) : Prop :=
  ∀ outcome, perform state ⟨handler, call.toCall, world⟩ = some outcome → outcome.ret ≠ 0 →
    SelectionRestored state outcome.state

/-- The owner's call moves the cursor to another song, or to none, and then fails to play it. -/
def MovesThenFails (state : PlayerState) (handler : Option MusicplayerHandler) (world : World)
    (call : PlayCall) : Prop :=
  ¬ checkHandlerUuid state handler < 0 ∧
    ∃ queue index, state.musicplayerList = some queue ∧
      target call world.random queue = some index ∧ index ≠ queue.currentIndex ∧
      ∀ info, listGetElement queue.list index = some info →
        PlayRefused world (playerHandlerOf handler) info state

section Playing

variable (world : World) (player : Option PlayerHandler) (info : MusicInfo) (state : PlayerState)

theorem url_command_fails_iff (wrap : String → MusicPlayer.PlayerCommand) (url : Option String) :
    (sendPlayerCommand world player (url.map wrap)).1 ≠ 0 ↔
      ¬ CommandCreated world player wrap url := by
  cases player with
  | none => simp [sendPlayerCommand, CommandCreated]
  | some handler =>
      cases url with
      | none => simp [sendPlayerCommand, CommandCreated]
      | some text =>
          cases allocated : world.commandAllocated (wrap text) <;>
            simp [sendPlayerCommand, CommandCreated, allocated]

theorem after_url_command_fails_iff (effects : List Effect) (failed started : PlayerState)
    (command : Int × List Effect) :
    (afterUrlCommand effects failed started command).ret ≠ 0 ↔ command.1 ≠ 0 := by
  unfold afterUrlCommand
  split
  · rename_i refused
    exact iff_of_true (by simp) refused
  · rename_i accepted
    exact iff_of_false (fun ret => ret rfl) accepted

theorem play_locked_fails_iff :
    (mozartMusicplayerPlayMusicInfoLocked world player info state).ret ≠ 0 ↔
      PlayRefused world player info state := by
  unfold mozartMusicplayerPlayMusicInfoLocked PlayRefused
  split
  · rw [after_url_command_fails_iff]
    exact url_command_fails_iff world player .playUrl info.musicUrl
  · dsimp only
    cases world.permission with
    | none => simp
    | some permission =>
        cases permission with
        | cancel => simp
        | done =>
            rw [after_url_command_fails_iff]
            exact url_command_fails_iff world player .playUrl info.musicUrl
        | pause =>
            rw [after_url_command_fails_iff]
            exact url_command_fails_iff world player .cacheUrl info.musicUrl

theorem after_url_command_failure (effects : List Effect) (failed started : PlayerState)
    (command : Int × List Effect)
    (failure : (afterUrlCommand effects failed started command).ret ≠ 0) :
    (afterUrlCommand effects failed started command).state = failed := by
  have refused := (after_url_command_fails_iff effects failed started command).mp failure
  rw [afterUrlCommand, if_pos refused]

theorem play_locked_failure_keeps
    (failure : (mozartMusicplayerPlayMusicInfoLocked world player info state).ret ≠ 0) :
    (mozartMusicplayerPlayMusicInfoLocked world player info state).state.inMusicplayer =
        state.inMusicplayer ∧
      (mozartMusicplayerPlayMusicInfoLocked world player info state).state.autoplayFlag =
        state.autoplayFlag := by
  unfold mozartMusicplayerPlayMusicInfoLocked at failure ⊢
  split
  · rename_i inside
    rw [if_pos inside] at failure
    rw [after_url_command_failure _ _ _ _ failure]
    exact ⟨rfl, rfl⟩
  · rename_i outside
    rw [if_neg outside] at failure
    dsimp only at failure ⊢
    cases asked : world.permission with
    | none => exact ⟨rfl, rfl⟩
    | some permission =>
        rw [asked] at failure
        cases permission with
        | cancel => exact ⟨rfl, rfl⟩
        | done =>
            rw [after_url_command_failure _ _ _ _ failure]
            exact ⟨rfl, rfl⟩
        | pause =>
            rw [after_url_command_failure _ _ _ _ failure]
            exact ⟨rfl, rfl⟩

end Playing

section Selecting

variable (call : PlayCall) (random : Nat) (queue : MusicList)

theorem select_eq : select call random (some queue) =
    match target call random queue with
    | none => (none, some queue)
    | some index =>
        (listGetElement queue.list index, some { queue with currentIndex := index }) := by
  cases call with
  | playIndex index =>
      by_cases outside : index ≥ queue.list.length ∨ index < 0
      · simp only [select, target, if_pos outside]
        exact set_index_outside queue index outside
      · simp only [select, target, if_neg outside]
        exact set_index_inside queue index (by omega) (by omega)
  | prevMusic =>
      by_cases empty : queue.list = []
      · simp only [select, target, if_pos empty]
        exact set_prev_empty queue random empty
      · simp only [select, target, if_neg empty]
        exact set_prev_filled queue random empty
  | nextMusic =>
      by_cases empty : queue.list = []
      · simp only [select, target, if_pos empty]
        exact set_next_empty queue random true empty
      · simp only [select, target, if_neg empty]
        exact set_next_filled queue random true empty
  | nextMusicFalse =>
      by_cases empty : queue.list = []
      · simp only [select, target, if_pos empty]
        exact set_next_empty queue random false empty
      · simp only [select, target, if_neg empty]
        exact set_next_filled queue random false empty

theorem select_null : select call random none = (none, none) := by
  cases call <;> rfl

end Selecting

section Calls

variable (state : PlayerState) (handler : Option MusicplayerHandler) (world : World)
  (call : PlayCall)

theorem perform_play_call :
    perform state ⟨handler, call.toCall, world⟩ =
      some (guarded (-1) handler state
        (playSelected world handler state
          (select call world.random state.musicplayerList))) := by
  cases call <;> rfl

theorem unmoved_restores : SelectionRestored state state := ⟨rfl, rfl, rfl⟩

/-- A call that stores a queue with the cursor at `index` and then fails has moved the
cursor there and changed neither flag. -/
theorem play_selected_failure (queue : MusicList) (song : Option MusicInfo)
    (failure : (playSelected world handler state (song, some queue)).ret ≠ 0) :
    mozartMusiclistGetCurrentIndex
        (playSelected world handler state (song, some queue)).state.musicplayerList =
          queue.currentIndex ∧
      (playSelected world handler state (song, some queue)).state.inMusicplayer =
        state.inMusicplayer ∧
      (playSelected world handler state (song, some queue)).state.autoplayFlag =
        state.autoplayFlag := by
  cases song with
  | none => exact ⟨rfl, rfl, rfl⟩
  | some info =>
      simp only [playSelected] at failure ⊢
      have flags := play_locked_failure_keeps world _ info _ failure
      refine ⟨?_, flags.1, flags.2⟩
      rw [(play_locked_keeps _ _ _ _).1]
      rfl

theorem play_selected_fails_iff (list : Option MusicList) (song : Option MusicInfo) :
    (playSelected world handler state (song, list)).ret ≠ 0 ↔
      ∀ info, song = some info → PlayRefused world (playerHandlerOf handler) info state := by
  cases song with
  | none => exact iff_of_true (by simp [playSelected]) (by simp)
  | some info =>
      simp only [playSelected, Option.some.injEq, forall_eq']
      exact play_locked_fails_iff world _ info _

/-- A failing call restores the selection unless it has moved the cursor by then. -/
theorem failure_restores_iff :
    FailureRestores state handler world call ↔ ¬ MovesThenFails state handler world call := by
  simp only [FailureRestores, perform_play_call, Option.some.injEq, forall_eq']
  by_cases refused : checkHandlerUuid state handler < 0
  · rw [guarded, if_pos refused]
    exact iff_of_true (fun _ => unmoved_restores state) (fun moves => moves.1 refused)
  · rw [guarded, if_neg refused]
    cases present : state.musicplayerList with
    | none =>
        have still : ¬ MovesThenFails state handler world call := by
          rintro ⟨-, queue, index, held, -⟩
          rw [present] at held
          exact absurd held (by simp)
        refine iff_of_true (fun _ => ?_) still
        rw [select_null]
        exact ⟨by rw [present]; rfl, rfl, rfl⟩
    | some queue =>
        rw [select_eq]
        cases moved : target call world.random queue with
        | none =>
            have still : ¬ MovesThenFails state handler world call := by
              rintro ⟨-, other, index, held, at_index, -⟩
              rw [present] at held
              rcases Option.some.inj held with rfl
              rw [moved] at at_index
              exact absurd at_index (by simp)
            refine iff_of_true (fun _ => ?_) still
            exact ⟨by rw [present]; rfl, rfl, rfl⟩
        | some index =>
            constructor
            · rintro restores ⟨-, other, there, held, at_index, elsewhere, fails⟩
              rw [present] at held
              rcases Option.some.inj held with rfl
              rw [moved] at at_index
              rcases Option.some.inj at_index with rfl
              have failure := (play_selected_fails_iff state handler world
                (some { queue with currentIndex := index }) (listGetElement queue.list index)).mpr
                fails
              have cursor := (restores failure).cursor
              rw [(play_selected_failure state handler world _ _ failure).1, present] at cursor
              exact elsewhere cursor
            · intro safe failure
              have result := play_selected_failure state handler world _ _ failure
              refine ⟨?_, result.2.1, result.2.2⟩
              rw [result.1, present]
              by_contra elsewhere
              apply safe
              refine ⟨refused, queue, index, present, moved, elsewhere, ?_⟩
              exact (play_selected_fails_iff state handler world _ _).mp failure

end Calls

def playerWithTwoSongs : PlayerState where
  currentUuid := "musicplayer"
  inMusicplayer := 0
  autoplayFlag := false
  musicplayerList := some ⟨[untitledSong 1, untitledSong 2], -1, 0, .order, true⟩
  eventType := ""

/-- Nobody answers the request for permission to play the second song. -/
theorem unanswered_play_moves_cursor :
    ¬ ∀ state handler world call, FailureRestores state handler world call := by
  intro always
  have restored := always playerWithTwoSongs (handlerNamed "musicplayer")
    { quietWorld with permission := none } (.playIndex 1) _ rfl (by decide)
  exact absurd restored.cursor (by decide)

end Gk7102.PlaySelection
