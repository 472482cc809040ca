import Gk7102.BoundedQueue
import Gk7102.JsonC
import Gk7102.MusicPlayer

/-!
# The app command that replaces the queue

`ingenicplayer_replace_queue` reads songs from a JSON command, inserts them one
by one and plays the requested one. The model starts from the parsed command and
ends before the reply text is built, which changes neither queue nor player.
`strdup` of NULL is a fault, and a faulting call has no result.
-/

namespace Gk7102.IngenicPlayer

open Gk7102.JsonC
open Gk7102.MusicQueue
open Gk7102.MusicPlayer

set_option autoImplicit false

/-- An absent field is left NULL; a present one is copied, and JSON null makes
`strdup` follow NULL. -/
def strdupField (library : JsonLibrary) (allocated : String → Bool) (object : JsonObject)
    (key : String) : Option (Option String) :=
  match jsonObjectObjectGetEx object key with
  | none => some none
  | some value =>
      match jsonObjectGetString library value with
      | none => none
      | some text => some (if allocated key then some text else none)

/-- `allocated` says for each field, and for the `info` itself, whether memory
for it can be had. -/
def createMusicInfoByJson (library : JsonLibrary) (allocated : String → Bool)
    (object : JsonObject) : Option (Option MusicInfo) :=
  if object.isNull then some none
  else do
    let id :=
      match jsonObjectObjectGetEx object "song_id" with
      | none => 0
      | some value => jsonObjectGetInt library value
    let musicName ← strdupField library allocated object "song_name"
    let musicUrl ← strdupField library allocated object "songurl"
    let musicPicture ← strdupField library allocated object "picture"
    let albumsName ← strdupField library allocated object "albumsname"
    let artistsName ← strdupField library allocated object "artists_name"
    let data ← strdupField library allocated object "data"
    some (mozartMusiclistGetInfo (allocated "info") id musicName musicUrl musicPicture
      albumsName artistsName data)

def ingenicplayerInsertSong (library : JsonLibrary) (allocated : String → Bool)
    (handler : Option MusicplayerHandler) (array : JsonObject) (state : PlayerState) :
    Option (Int × PlayerState) :=
  if array.isNull then some (-1, state)
  else do
    let info ← createMusicInfoByJson library allocated array
    match info with
    | none => some (-1, state)
    | some song =>
        let outcome := mozartMusicplayerMusiclistInsert handler (some song) state
        some (outcome.ret, outcome.state)

/-- The loop over the `songs` array. -/
def insertSongs (library : JsonLibrary) (allocated : String → Bool)
    (handler : Option MusicplayerHandler) :
    List JsonObject → PlayerState → Option PlayerState
  | [], state => some state
  | array :: rest, state => do
      let inserted ← ingenicplayerInsertSong library allocated handler array state
      insertSongs library allocated handler rest inserted.2

/-- A negative or missing index means the first song. -/
def requestedIndex (library : JsonLibrary) (command : JsonObject) : Int :=
  match jsonObjectObjectGetEx command "index" with
  | none => 0
  | some value =>
      if jsonObjectGetInt library value ≥ 0 then jsonObjectGetInt library value else 0

/-- A command without a `songs` member leaves the length at -1, so the loop does
not run; a member that is not an array is followed as one. -/
def songElements (command : JsonObject) : Option (List JsonObject) :=
  match jsonObjectObjectGetEx command "songs" with
  | none => some []
  | some (.array elements) => some elements
  | some _ => none

/-- The end of the command, once its songs are in the queue. -/
def finishReplace (world : World) (handler : Option MusicplayerHandler) (index : Int)
    (state : PlayerState) : Option (PlayerState × List Effect) :=
  if mozartMusicplayerMusiclistGetLength handler state ≤ 0 then do
    let stopped ← mozartMusicplayerStopPlayback world handler state
    some (stopped.state, stopped.effects)
  else
    let played := mozartMusicplayerPlayIndex world handler index state
    some (played.state, played.effects)

def ingenicplayerReplaceQueue (library : JsonLibrary) (allocated : String → Bool) (world : World)
    (handler : Option MusicplayerHandler) (command : JsonObject) (state : PlayerState) :
    Option (PlayerState × List Effect) :=
  if command.isNull then some (state, [])
  else do
    let elements ← songElements command
    let inserted ← insertSongs library allocated handler elements state
    finishReplace world handler (requestedIndex library command) inserted

def Legible (object : JsonObject) : Prop :=
  ∀ key ∈ ["song_name", "songurl", "picture", "albumsname", "artists_name", "data"],
    ∀ value, jsonObjectObjectGetEx object key = some value → value.isNull = false

def songOfElement (library : JsonLibrary) (object : JsonObject) : MusicInfo where
  id :=
    match jsonObjectObjectGetEx object "song_id" with
    | none => 0
    | some value => jsonObjectGetInt library value
  musicName := (jsonObjectObjectGetEx object "song_name").bind (jsonObjectGetString library)
  musicUrl := (jsonObjectObjectGetEx object "songurl").bind (jsonObjectGetString library)
  musicPicture := (jsonObjectObjectGetEx object "picture").bind (jsonObjectGetString library)
  albumsName := (jsonObjectObjectGetEx object "albumsname").bind (jsonObjectGetString library)
  artistsName := (jsonObjectObjectGetEx object "artists_name").bind (jsonObjectGetString library)
  data := (jsonObjectObjectGetEx object "data").bind (jsonObjectGetString library)

/-- The songs of a command; a null element is none. -/
def commandSongs (library : JsonLibrary) (elements : List JsonObject) : List MusicInfo :=
  (elements.filter fun element => !element.isNull).map (songOfElement library)

/-- What the sender of the command wants to see afterwards. -/
def QueueReplaced (songs : List MusicInfo) (index : Int)
    (result : Option (PlayerState × List Effect)) : Prop :=
  ∃ state effects queue, result = some (state, effects) ∧
    state.musicplayerList = some queue ∧ queue.list = songs ∧
    ∃ song url, songs[index.toNat]? = some song ∧ song.musicUrl = some url ∧
      urlsSent effects = [url]

/-- The queues that `incoming` songs replace: an empty unbounded one, a full one
of exactly that many songs, and one with room whose bound cuts off the old songs
and no new one. -/
def LeavesOnly (maxIndex : Int) (held incoming : Nat) : Prop :=
  (maxIndex < 0 ∧ held = 0) ∨
    (0 ≤ maxIndex ∧ maxIndex ≤ held ∧ held = incoming) ∨
    (0 ≤ maxIndex ∧ held < maxIndex ∧ (held = 0 ∧ incoming ≤ maxIndex ∨ incoming = maxIndex))

theorem leaves_only_iff_settled (maxIndex : Int) (held incoming : Nat) :
    LeavesOnly maxIndex held incoming ↔
      BoundedQueue.settledLength (boundOf maxIndex) held incoming = incoming := by
  unfold LeavesOnly boundOf
  by_cases unbounded : maxIndex < 0
  · rw [if_pos unbounded]
    simp only [BoundedQueue.settledLength]
    omega
  · rw [if_neg unbounded]
    simp only [BoundedQueue.settledLength]
    split_ifs <;> omega

section Reading

variable (library : JsonLibrary) (allocated : String → Bool)

theorem strdup_field_legible (all : ∀ key, allocated key = true) (object : JsonObject)
    (key : String)
    (present : ∀ value, jsonObjectObjectGetEx object key = some value → value.isNull = false) :
    strdupField library allocated object key =
      some ((jsonObjectObjectGetEx object key).bind (jsonObjectGetString library)) := by
  unfold strdupField
  cases found : jsonObjectObjectGetEx object key with
  | none => rfl
  | some value =>
      have named := present value found
      cases value with
      | null => simp [JsonObject.isNull] at named
      | _ => simp [jsonObjectGetString, all]

theorem strdup_field_null (object : JsonObject) (key : String) (value : JsonObject)
    (found : jsonObjectObjectGetEx object key = some value) (null : value.isNull = true) :
    strdupField library allocated object key = none := by
  cases value with
  | null => simp [strdupField, found, jsonObjectGetString]
  | _ => simp [JsonObject.isNull] at null

theorem create_music_info_legible (all : ∀ key, allocated key = true) (object : JsonObject)
    (present : object.isNull = false) (legible : Legible object) :
    createMusicInfoByJson library allocated object =
      some (some (songOfElement library object)) := by
  have field := fun key member =>
    strdup_field_legible library allocated all object key (legible key member)
  have name := field "song_name" (by simp)
  have url := field "songurl" (by simp)
  have picture := field "picture" (by simp)
  have album := field "albumsname" (by simp)
  have artist := field "artists_name" (by simp)
  have data := field "data" (by simp)
  simp only [createMusicInfoByJson, present, name, url, picture, album, artist, data,
    mozartMusiclistGetInfo, all]
  rfl

/-- One null field is enough to lose the whole command. -/
theorem create_music_info_illegible (object : JsonObject) (illegible : ¬ Legible object) :
    createMusicInfoByJson library allocated object = none := by
  unfold Legible at illegible
  push Not at illegible
  rcases illegible with ⟨key, member, value, found, null⟩
  have lost := strdup_field_null library allocated object key value found (by simpa using null)
  have object_present : object.isNull = false := by
    cases object with
    | null => simp [jsonObjectObjectGetEx] at found
    | _ => rfl
  simp only [createMusicInfoByJson, object_present]
  simp only [List.mem_cons, List.not_mem_nil, or_false] at member
  rcases member with rfl | rfl | rfl | rfl | rfl | rfl <;> simp [lost]

end Reading

section Inserting

variable (library : JsonLibrary) (allocated : String → Bool) (handler : Option MusicplayerHandler)

theorem insert_songs_refines (all : ∀ key, allocated key = true) (elements : List JsonObject)
    (legible : ∀ element ∈ elements, Legible element)
    (plain : ∀ element ∈ elements, jsonObjectObjectGetEx element "data" = none)
    (state : PlayerState) (queue : MusicList) (allowed : ¬ checkHandlerUuid state handler < 0)
    (present : state.musicplayerList = some queue) :
    ∃ filled,
      insertSongs library allocated handler elements state =
          some { state with musicplayerList := some filled } ∧
        filled.list = BoundedQueue.pushAll (boundOf queue.maxIndex) queue.list
          (commandSongs library elements) := by
  induction elements generalizing state queue with
  | nil =>
      refine ⟨queue, ?_, rfl⟩
      rw [insertSongs, ← present]
  | cons element rest ih =>
      have later := ih (fun other member => legible other (List.mem_cons_of_mem element member))
        (fun other member => plain other (List.mem_cons_of_mem element member))
      cases missing : element.isNull with
      | true =>
          rcases later state queue allowed present with ⟨filled, reached, songs⟩
          refine ⟨filled, ?_, ?_⟩
          · simp only [insertSongs, ingenicplayerInsertSong, missing, if_true]
            exact reached
          · rw [songs]
            simp [commandSongs, missing]
      | false =>
          have created := create_music_info_legible library allocated all element missing
            (legible element List.mem_cons_self)
          have unowned : (songOfElement library element).data = none := by
            simp [songOfElement, plain element List.mem_cons_self]
          rcases insert_refines_push queue (songOfElement library element) (by simp [unowned]) with
            ⟨longer, inserted, pushed, bound, -⟩
          have performed :
              (mozartMusicplayerMusiclistInsert handler (some (songOfElement library element))
                state).state = { state with musicplayerList := some longer } := by
            rw [mozartMusicplayerMusiclistInsert, guarded, if_neg allowed, present]
            simp only [inserted]
          rcases later { state with musicplayerList := some longer } longer allowed rfl with
            ⟨filled, reached, songs⟩
          refine ⟨filled, ?_, ?_⟩
          · simp only [insertSongs, ingenicplayerInsertSong, missing, created]
            simp only [Bool.false_eq_true, if_false, Option.bind_eq_bind, Option.bind_some,
              performed]
            exact reached
          · rw [songs, bound, pushed]
            simp [commandSongs, missing, BoundedQueue.pushAll]

theorem insert_songs_illegible (elements : List JsonObject) (state : PlayerState)
    (illegible : ¬ ∀ element ∈ elements, Legible element) :
    insertSongs library allocated handler elements state = none := by
  induction elements generalizing state with
  | nil => simp at illegible
  | cons element rest ih =>
      by_cases first : Legible element
      · have later : ¬ ∀ other ∈ rest, Legible other := by
          intro every
          apply illegible
          simpa [first] using every
        rw [insertSongs]
        cases ingenicplayerInsertSong library allocated handler element state with
        | none => rfl
        | some inserted => exact ih inserted.2 later
      · have present : element.isNull = false := by
          cases element with
          | null => simp [Legible, jsonObjectObjectGetEx] at first
          | _ => rfl
        simp only [insertSongs, ingenicplayerInsertSong, present,
          create_music_info_illegible library allocated element first]
        rfl

end Inserting

theorem requested_index_nonneg (library : JsonLibrary) (command : JsonObject) :
    0 ≤ requestedIndex library command := by
  unfold requestedIndex
  split
  · decide
  · split
    · assumption
    · decide

section Finishing

variable (world : World) (handler : Option MusicplayerHandler) (state : PlayerState)
  (filled : MusicList)

/-- Neither end of the command changes the songs of the queue. -/
theorem finish_keeps_songs (index : Int) (present : state.musicplayerList = some filled)
    (after : PlayerState) (effects : List Effect)
    (result : finishReplace world handler index state = some (after, effects)) :
    ∃ queue, after.musicplayerList = some queue ∧ queue.list = filled.list := by
  unfold finishReplace at result
  split at result
  · rcases Option.bind_eq_some_iff.mp result with ⟨stopped, performed, pair⟩
    simp only [Option.some.injEq, Prod.mk.injEq] at pair
    rcases pair with ⟨rfl, -⟩
    have kept := stop_playback_keeps_queue handler state world stopped performed
    exact ⟨filled, by rw [kept, present], rfl⟩
  · simp only [Option.some.injEq, Prod.mk.injEq] at result
    rcases result with ⟨rfl, -⟩
    exact play_index_keeps_songs handler state world index filled present

theorem finish_plays_index (index : Int) (lower : 0 ≤ index)
    (owner : ¬ checkHandlerUuid state handler < 0)
    (present : state.musicplayerList = some filled) (song : MusicInfo)
    (selected : filled.list[index.toNat]? = some song) (url : String)
    (named : song.musicUrl = some url) (accepts : PlayerAccepts world state) :
    ∃ after effects queue, finishReplace world handler index state = some (after, effects) ∧
      after.musicplayerList = some queue ∧ queue.list = filled.list ∧
      urlsSent effects = [url] := by
  have upper : index < filled.list.length := by
    have bound := (List.getElem?_eq_some_iff.mp selected).1
    omega
  have nonempty : ¬ mozartMusicplayerMusiclistGetLength handler state ≤ 0 := by
    rw [mozartMusicplayerMusiclistGetLength, if_neg owner, present]
    simp only [mozartMusiclistGetLength]
    omega
  rcases play_index_keeps_songs handler state world index filled present with
    ⟨queue, stored, songs⟩
  refine ⟨_, _, queue, by rw [finishReplace, if_neg nonempty], stored, songs, ?_⟩
  have held : ∃ player, playerHandlerOf handler = some player := by
    cases found : playerHandlerOf handler with
    | none => simp [checkHandlerUuid, found] at owner
    | some player => exact ⟨player, rfl⟩
  rcases held with ⟨player, found⟩
  rw [mozartMusicplayerPlayIndex, guarded, if_neg owner, present,
    set_index_inside filled index lower upper]
  simp only [playSelected, listGetElement, selected, found]
  apply play_locked_accepted
  · exact named
  · exact ⟨accepts.created, accepts.permitted⟩

end Finishing

/-- The command replaces the queue exactly when its songs can be read and are as
many as the queue they were inserted into settles at. -/
theorem replace_queue_replaces_iff (library : JsonLibrary) (allocated : String → Bool)
    (all : ∀ key, allocated key = true) (world : World) (handler : Option MusicplayerHandler)
    (command : JsonObject) (elements : List JsonObject)
    (songs : jsonObjectObjectGetEx command "songs" = some (.array elements))
    (plain : ∀ element ∈ elements, jsonObjectObjectGetEx element "data" = none)
    (state : PlayerState) (queue : MusicList) (owner : ¬ checkHandlerUuid state handler < 0)
    (present : state.musicplayerList = some queue)
    (requested : MusicInfo)
    (inside : (commandSongs library elements)[(requestedIndex library command).toNat]? =
      some requested)
    (playable : requested.musicUrl.isSome) (accepts : PlayerAccepts world state) :
    QueueReplaced (commandSongs library elements) (requestedIndex library command)
        (ingenicplayerReplaceQueue library allocated world handler command state) ↔
      (∀ element ∈ elements, Legible element) ∧
        LeavesOnly queue.maxIndex queue.list.length (commandSongs library elements).length := by
  have parsed : command.isNull = false := by
    cases command with
    | null => simp [jsonObjectObjectGetEx] at songs
    | _ => rfl
  have array : songElements command = some elements := by simp [songElements, songs]
  by_cases legible : ∀ element ∈ elements, Legible element
  · rcases insert_songs_refines library allocated handler all elements legible plain state queue
      owner present with ⟨filled, inserted, pushed⟩
    have performed :
        ingenicplayerReplaceQueue library allocated world handler command state =
          finishReplace world handler (requestedIndex library command)
            { state with musicplayerList := some filled } := by
      simp only [ingenicplayerReplaceQueue, parsed, array, inserted, Bool.false_eq_true, if_false,
        Option.bind_eq_bind, Option.bind_some]
    rw [performed, leaves_only_iff_settled, ← BoundedQueue.push_all_eq_arriving_iff, ← pushed]
    constructor
    · rintro ⟨after, effects, queue', result, held, same, -⟩
      rcases finish_keeps_songs world handler _ filled _ rfl after effects result with
        ⟨kept, stored, songs⟩
      rw [held] at stored
      rw [← songs, ← Option.some.inj stored]
      exact ⟨legible, same⟩
    · rintro ⟨-, same⟩
      rcases Option.isSome_iff_exists.mp playable with ⟨url, named⟩
      rcases finish_plays_index world handler { state with musicplayerList := some filled } filled
        (requestedIndex library command) (requested_index_nonneg library command) owner rfl
        requested (by rw [same]; exact inside) url named ⟨accepts.created, accepts.permitted⟩ with
        ⟨after, effects, kept, result, stored, songs, sent⟩
      exact ⟨after, effects, kept, result, stored, songs.trans same,
        ⟨requested, url, inside, named, sent⟩⟩
  · have lost : ingenicplayerReplaceQueue library allocated world handler command state = none := by
      simp only [ingenicplayerReplaceQueue, parsed, array,
        insert_songs_illegible library allocated handler elements state legible,
        Bool.false_eq_true, if_false, Option.bind_eq_bind, Option.bind_some, Option.bind_none]
    rw [lost]
    constructor
    · rintro ⟨after, effects, queue', result, -⟩
      simp at result
    · rintro ⟨every, -⟩
      exact absurd every legible

def songElement (name url : String) : JsonObject :=
  .object [("song_name", .string name), ("songurl", .string url)]

def oneSongCommand : JsonObject :=
  .object [("songs", .array [songElement "new" "http://new"])]

def playerWithOneSong : PlayerState where
  currentUuid := "musicplayer"
  inMusicplayer := 0
  autoplayFlag := false
  musicplayerList := some ⟨[untitledSong 1], -1, 0, .order, true⟩
  eventType := ""

def playerWithoutSongs : PlayerState where
  currentUuid := "musicplayer"
  inMusicplayer := 0
  autoplayFlag := false
  musicplayerList := some ⟨[], -1, -1, .order, true⟩
  eventType := ""

theorem replace_queue_replaces_empty :
    QueueReplaced (commandSongs plainLibrary [songElement "new" "http://new"])
        (requestedIndex plainLibrary oneSongCommand)
        (ingenicplayerReplaceQueue plainLibrary (fun _ => true) quietWorld
          (handlerNamed "musicplayer") oneSongCommand playerWithoutSongs) := by
  apply (replace_queue_replaces_iff plainLibrary (fun _ => true) (fun _ => rfl) quietWorld
    (handlerNamed "musicplayer") oneSongCommand [songElement "new" "http://new"] rfl
    (by simp [songElement, jsonObjectObjectGetEx]) playerWithoutSongs
    ⟨[], -1, -1, .order, true⟩ (by decide) rfl
    (songOfElement plainLibrary (songElement "new" "http://new")) rfl rfl
    ⟨fun _ => rfl, Or.inr (Or.inl rfl)⟩).mpr
  constructor
  · simp [Legible, songElement, jsonObjectObjectGetEx, List.lookup_cons, JsonObject.isNull]
  · exact Or.inl ⟨by decide, rfl⟩

/-- One song sent to a player that already has one: both are in the queue. -/
theorem replace_queue_keeps_old_song :
    ¬ ∀ (library : JsonLibrary) (world : World) (handler : Option MusicplayerHandler)
        (command : JsonObject) (elements : List JsonObject) (state : PlayerState)
        (requested : MusicInfo),
      jsonObjectObjectGetEx command "songs" = some (.array elements) →
      (∀ element ∈ elements, jsonObjectObjectGetEx element "data" = none) →
      ¬ checkHandlerUuid state handler < 0 → state.musicplayerList.isSome →
      (commandSongs library elements)[(requestedIndex library command).toNat]? = some requested →
      requested.musicUrl.isSome → PlayerAccepts world state →
      QueueReplaced (commandSongs library elements) (requestedIndex library command)
        (ingenicplayerReplaceQueue library (fun _ => true) world handler command state) := by
  intro always
  have replaced := always plainLibrary quietWorld (handlerNamed "musicplayer") oneSongCommand
    [songElement "new" "http://new"] playerWithOneSong
    (songOfElement plainLibrary (songElement "new" "http://new")) rfl
    (by simp [songElement, jsonObjectObjectGetEx]) (by decide) rfl rfl rfl
    ⟨fun _ => rfl, Or.inr (Or.inl rfl)⟩
  have computed :
      (ingenicplayerReplaceQueue plainLibrary (fun _ => true) quietWorld
        (handlerNamed "musicplayer") oneSongCommand playerWithOneSong).map
          (fun result => result.1.musicplayerList.map fun queue => queue.list.length) =
        some (some 2) := by
    decide
  rcases replaced with ⟨after, effects, queue, result, stored, songs, -⟩
  rw [result, Option.map_some, stored, Option.map_some, songs] at computed
  exact absurd computed (by decide)

end Gk7102.IngenicPlayer
