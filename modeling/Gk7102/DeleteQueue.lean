import Gk7102.JsonC
import Gk7102.PlaySelection

/-!
# The app command that deletes from the queue

`ingenicplayer_delete_queue` deletes a song and then decides from the cursor and
the length it reads back whether to play, to stop or to do nothing. The cursor it
reads was shifted by the deletion, while the index it is compared with was not.
The reply of `ingenicplayer_get_queue` is built and dropped in between.
-/

namespace Gk7102.DeleteQueue

open Gk7102.JsonC
open Gk7102.MusicQueue
open Gk7102.MusicPlayer
open Gk7102.PlaySelection

set_option autoImplicit false

/-- A text that is no JSON is parsed to NULL, which has no members. -/
def getObjectInt (library : JsonLibrary) (object : String) (command : JsonObject) : Int :=
  match jsonObjectObjectGetEx command object with
  | none => -1
  | some tmp => jsonObjectGetInt library tmp

def deletedState (handler : Option MusicplayerHandler) (idx : Int) (state : PlayerState) :
    PlayerState :=
  if idx ≥ 0 then (mozartMusicplayerMusiclistDeleteIndex handler idx state).state else state

def ingenicplayerDeleteQueue (library : JsonLibrary) (world : World)
    (handler : Option MusicplayerHandler) (command : JsonObject) (state : PlayerState) :
    Option (PlayerState × List Effect) :=
  let idx := getObjectInt library "index" command
  let deleted := deletedState handler idx state
  let index := mozartMusicplayerMusiclistGetCurrentIndex handler deleted
  let length := mozartMusicplayerMusiclistGetLength handler deleted
  if index = idx ∧ length > 0 then
    let played := mozartMusicplayerPlayIndex world handler index deleted
    some (played.state, played.effects)
  else if length ≤ 0 then do
    let stopped ← mozartMusicplayerStopPlayback world handler deleted
    some (stopped.state, stopped.effects)
  else some (deleted, [])

def asResult (outcome : Outcome) : PlayerState × List Effect := (outcome.state, outcome.effects)

/-- What the deletion of song `idx` should mean for the playback, when the caller owns the
player: the song selected next is played, or the playback stops with the last song, or
nothing is sent. A caller that deletes nothing should send nothing either. -/
structure PlaybackFollows (world : World) (handler : Option MusicplayerHandler)
    (state : PlayerState) (queue : MusicList) (idx : Int)
    (result : Option (PlayerState × List Effect)) : Prop where
  plays : ¬ checkHandlerUuid state handler < 0 → idx = queue.currentIndex →
    2 ≤ queue.list.length →
      ∃ song, mozartMusiclistGetCurrent (deletedState handler idx state).musicplayerList =
          some song ∧
        result = some (asResult
          (mozartMusicplayerPlayMusicInfo world handler song (deletedState handler idx state)))
  stops : ¬ checkHandlerUuid state handler < 0 → queue.list.length = 1 →
    result = (mozartMusicplayerStopPlayback world handler (deletedState handler idx state)).map
      asResult
  silent : checkHandlerUuid state handler < 0 ∨
      (idx ≠ queue.currentIndex ∧ 2 ≤ queue.list.length) →
    ∃ after, result = some (after, [])

/-- The selected song is the last of several and is deleted: no song is selected then. -/
def DeletesSelectedTail (queue : MusicList) (idx : Int) : Prop :=
  idx = queue.currentIndex ∧ queue.currentIndex = queue.list.length - 1 ∧ 2 ≤ queue.list.length

/-- Nothing leaves the process when this song is to be played: the player is in use already,
and no command can be created for the song. -/
def SilentlyRefused (world : World) (handler : Option MusicplayerHandler) (state : PlayerState)
    (song : MusicInfo) : Prop :=
  state.inMusicplayer ≠ 0 ∧ ¬ CommandCreated world (playerHandlerOf handler) .playUrl song.musicUrl

/-- The song right before the selected one is deleted: the cursor moves onto its index, and
the selected song is played from the start. -/
def RestartsSelected (world : World) (handler : Option MusicplayerHandler) (state : PlayerState)
    (queue : MusicList) (idx : Int) : Prop :=
  idx + 1 = queue.currentIndex ∧
    ∀ song, mozartMusiclistGetCurrent (some queue) = some song →
      ¬ SilentlyRefused world handler state song

/-- A caller that does not own the player is told a length of -1, and stops the playback. -/
def StopsForeign (world : World) (handler : Option MusicplayerHandler) : Prop :=
  handler = none ∨ (mozartPlayerStop world (playerHandlerOf handler)).1 = 0

def Mistaken (world : World) (handler : Option MusicplayerHandler) (state : PlayerState)
    (queue : MusicList) (idx : Int) : Prop :=
  if checkHandlerUuid state handler < 0 then StopsForeign world handler
  else DeletesSelectedTail queue idx ∨ RestartsSelected world handler state queue idx

section Playing

variable (world : World) (handler : Option MusicplayerHandler) (state : PlayerState)

theorem refused_command_unsent (player : Option PlayerHandler)
    (command : Option MusicPlayer.PlayerCommand)
    (refused : (sendPlayerCommand world player command).1 ≠ 0) :
    (sendPlayerCommand world player command).2 = [] := by
  cases player with
  | none => rfl
  | some handler =>
      cases command with
      | none => rfl
      | some sent =>
          cases allocated : world.commandAllocated sent with
          | true => simp [sendPlayerCommand, allocated] at refused
          | false => simp [sendPlayerCommand, allocated]

theorem url_command_silent_iff (player : Option PlayerHandler)
    (wrap : String → MusicPlayer.PlayerCommand) (url : Option String)
    (failed started : PlayerState) :
    (afterUrlCommand [] failed started
        (sendPlayerCommand world player (url.map wrap))).effects = [] ↔
      ¬ CommandCreated world player wrap url := by
  rw [← url_command_fails_iff]
  constructor
  · intro silent accepted
    rw [afterUrlCommand, if_neg (by rw [accepted]; simp)] at silent
    simp [playStarted] at silent
  · intro refused
    rw [afterUrlCommand, if_pos refused, List.nil_append]
    exact refused_command_unsent world player _ refused

theorem play_silent_iff (song : MusicInfo) :
    (mozartMusicplayerPlayMusicInfoLocked world (playerHandlerOf handler) song state).effects =
        [] ↔
      SilentlyRefused world handler state song := by
  unfold mozartMusicplayerPlayMusicInfoLocked SilentlyRefused
  by_cases inside : state.inMusicplayer ≠ 0
  · rw [if_pos inside, mozartPlayerPlayurl, url_command_silent_iff]
    exact ⟨fun refused => ⟨inside, refused⟩, fun silently => silently.2⟩
  · rw [if_neg inside]
    refine iff_of_false ?_ (fun refused => inside refused.1)
    dsimp only
    split
    · simp
    · simp
    · unfold afterUrlCommand
      split <;> simp [playStarted]
    · unfold afterUrlCommand
      split <;> simp [playStarted]

end Playing

section Deciding

variable (library : JsonLibrary) (world : World) (handler : Option MusicplayerHandler)
  (command : JsonObject) (state : PlayerState) (queue : MusicList) (idx : Int)

/-- The queue the owner's deletion leaves. -/
def shortened (queue : MusicList) (idx : Int) : MusicList :=
  { queue with
    list := listDeleteAtIndex queue.list idx
    currentIndex :=
      if idx < queue.currentIndex then queue.currentIndex - 1 else queue.currentIndex }

theorem deleted_by_foreign (foreign : checkHandlerUuid state handler < 0) :
    deletedState handler idx state = state := by
  rw [deletedState, mozartMusicplayerMusiclistDeleteIndex, guarded, if_pos foreign, ite_self]

theorem foreign_delete_stops (foreign : checkHandlerUuid state handler < 0)
    (requested : 0 ≤ getObjectInt library "index" command) :
    ingenicplayerDeleteQueue library world handler command state =
      (mozartMusicplayerStopPlayback world handler state).map asResult := by
  have index : mozartMusicplayerMusiclistGetCurrentIndex handler state = -1 := if_pos foreign
  have length : mozartMusicplayerMusiclistGetLength handler state = -1 := if_pos foreign
  simp only [ingenicplayerDeleteQueue, deleted_by_foreign handler state _ foreign, index, length]
  rw [if_neg (by omega), if_pos (by omega)]
  cases mozartMusicplayerStopPlayback world handler state <;> rfl

theorem stop_silent_iff :
    (∃ after, (mozartMusicplayerStopPlayback world handler state).map asResult =
        some (after, [])) ↔ ¬ StopsForeign world handler := by
  cases handler with
  | none => simp [mozartMusicplayerStopPlayback, StopsForeign]
  | some musicplayer =>
      simp only [mozartMusicplayerStopPlayback, StopsForeign, playerHandlerOf, Option.map_some,
        Option.bind_some, reduceCtorEq, false_or, asResult, Option.some.injEq, Prod.mk.injEq]
      cases player : musicplayer.playerHandler with
      | none => simp [mozartPlayerStop, sendPlayerCommand]
      | some held =>
          cases allocated : world.commandAllocated .doStop with
          | false => simp [mozartPlayerStop, sendPlayerCommand, allocated]
          | true =>
              simp only [mozartPlayerStop, sendPlayerCommand, allocated, if_true]
              refine iff_of_false ?_ (fun accepted => accepted trivial)
              rintro ⟨after, -, silent⟩
              simp only [ne_eq, not_true_eq_false, if_false] at silent
              split at silent <;> simp at silent

end Deciding

/-- The owner of the player asks for the deletion of a song of the queue. -/
structure OwnerDeletes (library : JsonLibrary) (handler : Option MusicplayerHandler)
    (command : JsonObject) (state : PlayerState) (queue : MusicList) (idx : Int) : Prop where
  owner : ¬ checkHandlerUuid state handler < 0
  present : state.musicplayerList = some queue
  selected : 0 ≤ queue.currentIndex ∧ queue.currentIndex < queue.list.length
  lower : 0 ≤ idx
  upper : idx < queue.list.length
  requested : getObjectInt library "index" command = idx

section Owner

variable {library : JsonLibrary} {world : World} {handler : Option MusicplayerHandler}
  {command : JsonObject} {state : PlayerState} {queue : MusicList} {idx : Int}

theorem deleted_by_owner (asked : OwnerDeletes library handler command state queue idx) :
    deletedState handler idx state =
      { state with musicplayerList := some (shortened queue idx) } := by
  rw [deletedState, if_pos asked.lower, mozartMusicplayerMusiclistDeleteIndex, guarded,
    if_neg asked.owner, asked.present, delete_index_inside queue idx asked.lower asked.upper]
  rfl

theorem shortened_length (asked : OwnerDeletes library handler command state queue idx) :
    (shortened queue idx).list.length = queue.list.length - 1 := by
  have inside := asked.upper
  have lower := asked.lower
  exact List.length_eraseIdx_of_lt (by omega)

theorem shortened_cursor (queue : MusicList) (idx : Int) :
    (shortened queue idx).currentIndex =
      if idx < queue.currentIndex then queue.currentIndex - 1 else queue.currentIndex := rfl

theorem owner_delete_eq (asked : OwnerDeletes library handler command state queue idx) :
    ingenicplayerDeleteQueue library world handler command state =
      if (shortened queue idx).currentIndex = idx ∧ 0 < (shortened queue idx).list.length then
        some (asResult (mozartMusicplayerPlayIndex world handler idx
          (deletedState handler idx state)))
      else if (shortened queue idx).list.length = 0 then
        (mozartMusicplayerStopPlayback world handler (deletedState handler idx state)).map asResult
      else some (deletedState handler idx state, []) := by
  have still : ¬ checkHandlerUuid (deletedState handler idx state) handler < 0 := by
    rw [deleted_by_owner asked]
    exact asked.owner
  have index : mozartMusicplayerMusiclistGetCurrentIndex handler (deletedState handler idx state) =
      (shortened queue idx).currentIndex := by
    rw [mozartMusicplayerMusiclistGetCurrentIndex, if_neg still, deleted_by_owner asked]
    rfl
  have length : mozartMusicplayerMusiclistGetLength handler (deletedState handler idx state) =
      (shortened queue idx).list.length := by
    rw [mozartMusicplayerMusiclistGetLength, if_neg still, deleted_by_owner asked]
    rfl
  simp only [ingenicplayerDeleteQueue, asked.requested, index, length]
  by_cases selected : (shortened queue idx).currentIndex = idx ∧
      0 < (shortened queue idx).list.length
  · rw [if_pos (by omega), if_pos selected, selected.1]
    rfl
  · rw [if_neg (by omega), if_neg selected]
    by_cases empty : (shortened queue idx).list.length = 0
    · rw [if_pos (by omega), if_pos empty]
      cases mozartMusicplayerStopPlayback world handler (deletedState handler idx state) <;> rfl
    · rw [if_neg (by omega), if_neg empty]

theorem current_of_filled (filled : queue.list ≠ []) :
    mozartMusiclistGetCurrent (some queue) = listGetElement queue.list queue.currentIndex := by
  simp [mozartMusiclistGetCurrent, mozartMusiclistGetLength, filled]

theorem shortened_current (asked : OwnerDeletes library handler command state queue idx)
    (several : 2 ≤ queue.list.length) (here : (shortened queue idx).currentIndex = idx) :
    mozartMusiclistGetCurrent (deletedState handler idx state).musicplayerList =
      listGetElement (shortened queue idx).list idx := by
  have length := shortened_length asked
  rw [deleted_by_owner asked,
    current_of_filled (List.length_pos_iff.mp (by rw [length]; omega)), here]

theorem play_selected_index (asked : OwnerDeletes library handler command state queue idx)
    (here : (shortened queue idx).currentIndex = idx) {song : MusicInfo}
    (found : listGetElement (shortened queue idx).list idx = some song) :
    mozartMusicplayerPlayIndex world handler idx (deletedState handler idx state) =
      mozartMusicplayerPlayMusicInfo world handler song (deletedState handler idx state) := by
  have inside : idx < (shortened queue idx).list.length := by
    have bound := (List.getElem?_eq_some_iff.mp found).1
    have lower := asked.lower
    omega
  have picked := set_index_inside (shortened queue idx) idx asked.lower inside
  have unmoved : ∀ other : MusicList, other.currentIndex = idx →
      ({ other with currentIndex := idx } : MusicList) = other := by
    rintro other rfl
    rfl
  rw [found, unmoved _ here] at picked
  rw [deleted_by_owner asked, mozartMusicplayerPlayIndex, mozartMusicplayerPlayMusicInfo, picked]
  rfl

theorem delete_selected_follows (asked : OwnerDeletes library handler command state queue idx)
    (here : idx = queue.currentIndex) (inner : queue.currentIndex + 1 < queue.list.length) :
    PlaybackFollows world handler state queue idx
      (ingenicplayerDeleteQueue library world handler command state) := by
  have length := shortened_length asked
  have lower := asked.lower
  have cursor : (shortened queue idx).currentIndex = idx := by
    rw [shortened_cursor, if_neg (by omega), here]
  have inside : idx.toNat < (shortened queue idx).list.length := by omega
  have found : listGetElement (shortened queue idx).list idx =
      some (shortened queue idx).list[idx.toNat] := List.getElem?_eq_getElem inside
  rw [owner_delete_eq asked, if_pos ⟨cursor, by omega⟩, play_selected_index asked cursor found]
  refine ⟨fun _ _ several => ⟨_, ?_, rfl⟩, fun _ alone => by omega, fun other => ?_⟩
  · rw [shortened_current asked several cursor]
    exact found
  · rcases other with foreign | elsewhere
    · exact absurd foreign asked.owner
    · exact absurd here elsewhere.1

theorem delete_tail_does_not_follow
    (asked : OwnerDeletes library handler command state queue idx)
    (tail : DeletesSelectedTail queue idx) (result : Option (PlayerState × List Effect)) :
    ¬ PlaybackFollows world handler state queue idx result := by
  intro follows
  rcases tail with ⟨here, last, several⟩
  have length := shortened_length asked
  have cursor : (shortened queue idx).currentIndex = idx := by
    rw [shortened_cursor, if_neg (by omega), here]
  rcases follows.plays asked.owner here several with ⟨song, current, -⟩
  have beyond : listGetElement (shortened queue idx).list idx = none :=
    List.getElem?_eq_none (by omega)
  rw [shortened_current asked several cursor, beyond] at current
  exact absurd current (by simp)

theorem delete_before_follows_iff (asked : OwnerDeletes library handler command state queue idx)
    (before : idx + 1 = queue.currentIndex) :
    PlaybackFollows world handler state queue idx
        (ingenicplayerDeleteQueue library world handler command state) ↔
      ¬ RestartsSelected world handler state queue idx := by
  have length := shortened_length asked
  have lower := asked.lower
  have upper := asked.selected.2
  have cursor : (shortened queue idx).currentIndex = idx := by
    rw [shortened_cursor, if_pos (by omega)]
    omega
  -- the selected song has moved to the deleted index
  have moved : listGetElement (shortened queue idx).list idx =
      mozartMusiclistGetCurrent (some queue) := by
    rw [current_of_filled (List.length_pos_iff.mp (by omega)), listGetElement, listGetElement,
      shortened, listDeleteAtIndex, List.getElem?_eraseIdx_of_ge (Nat.le_refl _)]
    apply congrArg (queue.list[·]?)
    omega
  have inside : queue.currentIndex.toNat < queue.list.length := by omega
  have found : mozartMusiclistGetCurrent (some queue) =
      some queue.list[queue.currentIndex.toNat] := by
    rw [current_of_filled (List.length_pos_iff.mp (by omega))]
    exact List.getElem?_eq_getElem inside
  rw [found] at moved
  rw [owner_delete_eq asked, if_pos ⟨cursor, by omega⟩, play_selected_index asked cursor moved,
    deleted_by_owner asked, mozartMusicplayerPlayMusicInfo, guarded,
    if_neg (show ¬ checkHandlerUuid { state with
      musicplayerList := some (shortened queue idx) } handler < 0 from asked.owner)]
  have silent := play_silent_iff world handler
    { state with musicplayerList := some (shortened queue idx) }
    queue.list[queue.currentIndex.toNat]
  constructor
  · intro follows again
    rcases follows.silent (Or.inr ⟨by omega, by omega⟩) with ⟨after, quiet⟩
    exact again.2 _ found (silent.mp (congrArg Prod.snd (Option.some.inj quiet)))
  · intro safe
    have refused : SilentlyRefused world handler state queue.list[queue.currentIndex.toNat] := by
      by_contra asks
      apply safe
      refine ⟨before, fun song current => ?_⟩
      rw [found] at current
      rcases Option.some.inj current with rfl
      exact asks
    refine ⟨fun _ here => by omega, fun _ alone => by omega, fun _ => ?_⟩
    rw [asResult, silent.mpr refused]
    exact ⟨_, rfl⟩

theorem delete_elsewhere_follows (asked : OwnerDeletes library handler command state queue idx)
    (several : 2 ≤ queue.list.length) (other : idx ≠ queue.currentIndex)
    (apart : idx + 1 ≠ queue.currentIndex) :
    PlaybackFollows world handler state queue idx
      (ingenicplayerDeleteQueue library world handler command state) := by
  have length := shortened_length asked
  have elsewhere : (shortened queue idx).currentIndex ≠ idx := by
    rw [shortened_cursor]
    split <;> omega
  rw [owner_delete_eq asked, if_neg (fun both => elsewhere both.1), if_neg (by omega)]
  exact ⟨fun _ here => absurd here other, fun _ alone => by omega, fun _ => ⟨_, rfl⟩⟩

theorem delete_only_song_follows (asked : OwnerDeletes library handler command state queue idx)
    (alone : queue.list.length = 1) :
    PlaybackFollows world handler state queue idx
      (ingenicplayerDeleteQueue library world handler command state) := by
  have length := shortened_length asked
  rw [owner_delete_eq asked, if_neg (by omega), if_pos (by omega)]
  refine ⟨fun _ _ several => by omega, fun _ _ => rfl, fun other => ?_⟩
  rcases other with foreign | elsewhere
  · exact absurd foreign asked.owner
  · omega

theorem owner_playback_follows_iff
    (asked : OwnerDeletes library handler command state queue idx) :
    PlaybackFollows world handler state queue idx
        (ingenicplayerDeleteQueue library world handler command state) ↔
      ¬ (DeletesSelectedTail queue idx ∨ RestartsSelected world handler state queue idx) := by
  have first := asked.selected.1
  have last := asked.selected.2
  by_cases before : idx + 1 = queue.currentIndex
  · have notTail : ¬ DeletesSelectedTail queue idx := fun tail => by
      have here := tail.1
      omega
    rw [delete_before_follows_iff asked before, or_iff_right notTail]
  · have calm : ¬ RestartsSelected world handler state queue idx := fun again => before again.1
    rw [or_iff_left calm]
    by_cases tail : DeletesSelectedTail queue idx
    · exact iff_of_false (delete_tail_does_not_follow asked tail _) (fun safe => safe tail)
    · refine iff_of_true ?_ tail
      by_cases several : 2 ≤ queue.list.length
      · by_cases here : idx = queue.currentIndex
        · apply delete_selected_follows asked here
          by_contra atEnd
          exact tail ⟨here, by omega, several⟩
        · exact delete_elsewhere_follows asked several here before
      · exact delete_only_song_follows asked (by omega)

end Owner

/-- The playback follows the deletion unless the deleted song stood right before the selected
one or was the selected one at the end, or the caller does not own the player. -/
theorem playback_follows_iff (library : JsonLibrary) (world : World)
    (handler : Option MusicplayerHandler) (command : JsonObject) (state : PlayerState)
    (queue : MusicList) (idx : Int) (present : state.musicplayerList = some queue)
    (selected : 0 ≤ queue.currentIndex ∧ queue.currentIndex < queue.list.length)
    (lower : 0 ≤ idx) (upper : idx < queue.list.length)
    (requested : getObjectInt library "index" command = idx) :
    PlaybackFollows world handler state queue idx
        (ingenicplayerDeleteQueue library world handler command state) ↔
      ¬ Mistaken world handler state queue idx := by
  by_cases foreign : checkHandlerUuid state handler < 0
  · rw [Mistaken, if_pos foreign, ← stop_silent_iff world handler state,
      foreign_delete_stops library world handler command state foreign (by omega)]
    constructor
    · intro follows
      exact follows.silent (Or.inl foreign)
    · intro silent
      exact ⟨fun owner => absurd foreign owner, fun owner => absurd foreign owner, fun _ => silent⟩
  · rw [Mistaken, if_neg foreign]
    exact owner_playback_follows_iff ⟨foreign, present, selected, lower, upper, requested⟩

def deleteCommand (idx : Int) : JsonObject := .object [("index", .int idx)]

def playingSecondOfThree : PlayerState where
  currentUuid := "musicplayer"
  inMusicplayer := 1
  autoplayFlag := true
  musicplayerList := some ⟨[untitledSong 1, untitledSong 2, untitledSong 3], -1, 1, .order, true⟩
  eventType := "playing"

theorem deletion_of_third_followed :
    PlaybackFollows quietWorld (handlerNamed "musicplayer") playingSecondOfThree
        ⟨[untitledSong 1, untitledSong 2, untitledSong 3], -1, 1, .order, true⟩ 2
        (ingenicplayerDeleteQueue plainLibrary quietWorld (handlerNamed "musicplayer")
          (deleteCommand 2) playingSecondOfThree) ↔
      ¬ Mistaken quietWorld (handlerNamed "musicplayer") playingSecondOfThree
        ⟨[untitledSong 1, untitledSong 2, untitledSong 3], -1, 1, .order, true⟩ 2 :=
  playback_follows_iff plainLibrary quietWorld (handlerNamed "musicplayer") (deleteCommand 2)
    playingSecondOfThree _ 2 rfl ⟨by decide, by decide⟩ (by decide) (by decide) (by decide)

def playingSecondOfTwo : PlayerState :=
  { playingSecondOfThree with
    musicplayerList := some ⟨[untitledSong 1, untitledSong 2], -1, 1, .order, true⟩ }

/-- Two songs, the second one selected and deleted: no song is selected then. -/
theorem deleted_tail_plays_nothing :
    ¬ ∀ (library : JsonLibrary) (world : World) (handler : Option MusicplayerHandler)
        (command : JsonObject) (state : PlayerState) (queue : MusicList) (idx : Int),
      ¬ checkHandlerUuid state handler < 0 → state.musicplayerList = some queue →
      0 ≤ queue.currentIndex ∧ queue.currentIndex < queue.list.length → 0 ≤ idx →
      idx < queue.list.length → getObjectInt library "index" command = idx →
      PlaybackFollows world handler state queue idx
        (ingenicplayerDeleteQueue library world handler command state) := by
  intro always
  have follows := always plainLibrary quietWorld (handlerNamed "musicplayer") (deleteCommand 1)
    playingSecondOfTwo _ 1 (by decide) rfl ⟨by decide, by decide⟩ (by decide) (by decide)
    (by decide)
  rcases follows.plays (by decide) rfl (by decide) with ⟨song, current, -⟩
  have nobody : mozartMusiclistGetCurrent
      (deletedState (handlerNamed "musicplayer") 1 playingSecondOfTwo).musicplayerList = none := by
    decide
  rw [nobody] at current
  exact absurd current (by simp)

end Gk7102.DeleteQueue
