import Gk7102.MusicPlayer

/-!
# Playing the songs of a voice result

`speech_cloudmusic_playmusic` takes the player, empties the queue, fills it with
the songs of the voice result and plays one of them. Each of these calls locks
and checks by itself, and all return values but the last are dropped.
-/

namespace Gk7102.SpeechMusic

open Gk7102.MusicQueue
open Gk7102.MusicPlayer

set_option autoImplicit false

structure CloudSong where
  url : Option String
  title : Option String
  artist : Option String
deriving DecidableEq, Repr

/-- The songs of a voice result, with a `number` that counts them. -/
structure SdsMusic where
  number : Int
  data : List CloudSong
  counted : number = data.length

def cloudSongInfo (allocated : Bool) (song : CloudSong) : Option MusicInfo :=
  mozartMusiclistGetInfo allocated (-1) song.title song.url none none song.artist none

/-- The insertion loop. An entry without memory for its info is skipped, and the
result of each insertion is ignored. -/
def insertCloudSongs (infoAllocated : CloudSong → Bool) (handler : Option MusicplayerHandler) :
    List CloudSong → PlayerState → PlayerState
  | [], state => state
  | song :: rest, state =>
      match cloudSongInfo (infoAllocated song) song with
      | none => insertCloudSongs infoAllocated handler rest state
      | some info =>
          insertCloudSongs infoAllocated handler rest
            (mozartMusicplayerMusiclistInsert handler (some info) state).state

/-- `music` is read before it is compared with NULL, so the pointer is valid. -/
def speechCloudmusicPlaymusic (infoAllocated : CloudSong → Bool) (world : World)
    (handler : Option MusicplayerHandler) (music : SdsMusic) (index : Int) (state : PlayerState) :
    Outcome :=
  let started := (mozartMusicplayerStart handler state).state
  let cleaned := (mozartMusicplayerMusiclistClean handler started).state
  let filled :=
    insertCloudSongs infoAllocated handler (music.data.take music.number.toNat) cleaned
  mozartMusicplayerPlayIndex world handler index filled

/-- The song an entry becomes: title, url and artist. -/
def songOf (song : CloudSong) : MusicInfo where
  id := -1
  musicName := song.title
  musicUrl := song.url
  musicPicture := none
  albumsName := none
  artistsName := song.artist
  data := none

/-- Somebody owns the player and this handler does not pass for the owner. -/
def OwnedByAnother (state : PlayerState) (handler : Option MusicplayerHandler) : Prop :=
  state.currentUuid ≠ "invalid" ∧ checkHandlerUuid state handler < 0

section Steps

variable (handler : Option MusicplayerHandler) (state : PlayerState)

theorem insert_songs_keeps_owner (infoAllocated : CloudSong → Bool) (songs : List CloudSong) :
    (insertCloudSongs infoAllocated handler songs state).currentUuid = state.currentUuid := by
  induction songs generalizing state with
  | nil => rfl
  | cons song rest ih =>
      rw [insertCloudSongs]
      split
      · exact ih state
      · rw [ih]
        apply insert_keeps_owner

theorem insert_songs_refused (infoAllocated : CloudSong → Bool) (songs : List CloudSong)
    (refused : checkHandlerUuid state handler < 0) :
    insertCloudSongs infoAllocated handler songs state = state := by
  induction songs with
  | nil => rfl
  | cons song rest ih =>
      rw [insertCloudSongs]
      split
      · exact ih
      · rw [mozartMusicplayerMusiclistInsert, guarded, if_pos refused]
        exact ih

theorem insert_songs_append (infoAllocated : CloudSong → Bool) (songs : List CloudSong)
    (allocated : ∀ song, infoAllocated song = true) (queue : MusicList)
    (allowed : ¬ checkHandlerUuid state handler < 0)
    (present : state.musicplayerList = some queue) (unbounded : queue.maxIndex < 0) :
    ∃ filled, (insertCloudSongs infoAllocated handler songs state).musicplayerList = some filled ∧
      filled.list = queue.list ++ songs.map songOf := by
  induction songs generalizing state queue with
  | nil => exact ⟨queue, present, by simp⟩
  | cons song rest ih =>
      have info : cloudSongInfo (infoAllocated song) song = some (songOf song) := by
        rw [allocated song]
        rfl
      have inserted :
          (mozartMusicplayerMusiclistInsert handler (some (songOf song)) state).state =
            { state with musicplayerList := some (appendSong queue (songOf song)) } := by
        rw [mozartMusicplayerMusiclistInsert, guarded, if_neg allowed, present,
          insert_with_room queue _ (by simp [songOf]) (Or.inl unbounded)]
      have later := ih
        { state with musicplayerList := some (appendSong queue (songOf song)) }
        (appendSong queue (songOf song)) allowed rfl unbounded
      rcases later with ⟨filled, reached, songs⟩
      refine ⟨filled, ?_, ?_⟩
      · simp only [insertCloudSongs, info, inserted]
        exact reached
      · rw [songs]
        simp [appendSong, listInsertAtTail]

theorem insert_songs_without_queue (infoAllocated : CloudSong → Bool) (songs : List CloudSong)
    (missing : state.musicplayerList = none) :
    (insertCloudSongs infoAllocated handler songs state).musicplayerList = none := by
  induction songs generalizing state with
  | nil => exact missing
  | cons song rest ih =>
      rw [insertCloudSongs]
      split
      · exact ih state missing
      · apply ih
        unfold mozartMusicplayerMusiclistInsert guarded
        rw [missing]
        split <;> first | exact missing | rfl

end Steps

/-- What the caller hopes for when the call returns 0. -/
structure PlaysCloudMusic (music : SdsMusic) (index : Int) (outcome : Outcome) : Prop where
  lower : 0 ≤ index
  upper : index < music.number
  queue : ∃ queue, outcome.state.musicplayerList = some queue ∧
    queue.list = music.data.map songOf ∧ queue.currentIndex = index
  url : ∃ song url, music.data[index.toNat]? = some song ∧ song.url = some url ∧
    urlsSent outcome.effects = [url]

/-- Emptying an owned queue also removes its bound. -/
theorem clean_allowed (handler : Option MusicplayerHandler) (state : PlayerState)
    (queue : MusicList) (allowed : ¬ checkHandlerUuid state handler < 0)
    (present : state.musicplayerList = some queue) :
    ∃ emptied,
      (mozartMusicplayerMusiclistClean handler state).state.musicplayerList = some emptied ∧
        emptied.list = [] ∧ emptied.maxIndex < 0 := by
  rw [mozartMusicplayerMusiclistClean, guarded, if_neg allowed, present]
  exact ⟨_, rfl, delete_heads_all queue.list, by simp⟩

theorem filled_queue (infoAllocated : CloudSong → Bool)
    (allocated : ∀ song, infoAllocated song = true) (handler : Option MusicplayerHandler)
    (songs : List CloudSong) (state : PlayerState) (queue : MusicList)
    (allowed : ¬ checkHandlerUuid state handler < 0)
    (present : (insertCloudSongs infoAllocated handler songs
      (mozartMusicplayerMusiclistClean handler state).state).musicplayerList = some queue) :
    queue.list = songs.map songOf := by
  have still : ¬ checkHandlerUuid (mozartMusicplayerMusiclistClean handler state).state
      handler < 0 := by
    rw [check_handler_uuid_congr (clean_keeps_owner handler state)]
    exact allowed
  cases before : state.musicplayerList with
  | none =>
      have missing :
          (mozartMusicplayerMusiclistClean handler state).state.musicplayerList = none := by
        rw [mozartMusicplayerMusiclistClean, guarded, if_neg allowed, before]
        rfl
      rw [insert_songs_without_queue handler _ infoAllocated songs missing] at present
      simp at present
  | some older =>
      rcases clean_allowed handler state older allowed before with ⟨emptied, cleaned, empty, free⟩
      rcases insert_songs_append handler _ infoAllocated songs allocated emptied still cleaned free
        with ⟨filled, reached, appended⟩
      rw [present] at reached
      rw [Option.some.inj reached, appended, empty, List.nil_append]

/-- The queue a successful call leaves holds the songs of the result and nothing
else, whatever the queue, its bound, its cursor and the owner were before; and a
player owned by somebody else is left as it was. -/
theorem cloudmusic_playmusic_correct (infoAllocated : CloudSong → Bool)
    (allocated : ∀ song, infoAllocated song = true) (world : World)
    (handler : Option MusicplayerHandler) (music : SdsMusic) (index : Int) (state : PlayerState) :
    ((speechCloudmusicPlaymusic infoAllocated world handler music index state).ret = 0 →
        PlaysCloudMusic music index
          (speechCloudmusicPlaymusic infoAllocated world handler music index state)) ∧
      (OwnedByAnother state handler →
        (speechCloudmusicPlaymusic infoAllocated world handler music index state).ret ≠ 0 ∧
        (speechCloudmusicPlaymusic infoAllocated world handler music index state).state = state) := by
  have complete : music.data.take music.number.toNat = music.data := by
    apply List.take_of_length_le
    rw [music.counted]
    simp
  constructor
  · intro success
    rcases play_index_success _ _ _ _ success with
      ⟨allowed, queue, info, url, present, lower, upper, selected, named, stored, sent⟩
    rw [check_handler_uuid_congr (insert_songs_keeps_owner handler _ infoAllocated _),
      check_handler_uuid_congr (clean_keeps_owner handler _)] at allowed
    have songs := filled_queue infoAllocated allocated handler _ _ queue allowed present
    rw [complete] at songs
    have counted := music.counted
    rw [songs, List.length_map] at upper
    simp only [listGetElement, songs, List.getElem?_map, Option.map_eq_some_iff] at selected
    rcases selected with ⟨song, entry, rfl⟩
    exact ⟨lower, by omega, ⟨_, stored, songs, rfl⟩, ⟨song, url, entry, named, sent⟩⟩
  · rintro ⟨owned, refused⟩
    have started : (mozartMusicplayerStart handler state).state = state := by
      unfold mozartMusicplayerStart
      split
      · rfl
      · rw [if_pos owned]
    have cleaned : (mozartMusicplayerMusiclistClean handler state).state = state := by
      rw [mozartMusicplayerMusiclistClean, guarded, if_pos refused]
    rw [speechCloudmusicPlaymusic]
    simp only [started, cleaned, insert_songs_refused handler state infoAllocated _ refused]
    rw [mozartMusicplayerPlayIndex, guarded, if_pos refused]
    exact ⟨by simp, rfl⟩

def twoCloudSongs : SdsMusic where
  number := 2
  data := [⟨some "http://a", some "first", some "one"⟩, ⟨some "http://b", some "second", none⟩]
  counted := rfl

/-- The second of two songs, started on a player nobody owns. -/
theorem cloudmusic_playmusic_second_song :
    PlaysCloudMusic twoCloudSongs 1
        (speechCloudmusicPlaymusic (fun _ => true) quietWorld (handlerNamed "musicplayer")
          twoCloudSongs 1 (mozartMusicplayerStartup true)) :=
  (cloudmusic_playmusic_correct (fun _ => true) (fun _ => rfl) quietWorld
    (handlerNamed "musicplayer") twoCloudSongs 1 (mozartMusicplayerStartup true)).1 (by decide)

end Gk7102.SpeechMusic
