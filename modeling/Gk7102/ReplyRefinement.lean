import Gk7102.ReplyCalls

/-!
# The replies as the client publishes them

With memory for everything, the calls of `ReplyCalls` leave the device and publish the
replies that `handleCommand` says, and are stopped exactly where it has no result.
-/

namespace Gk7102.ReplyCalls

open Gk7102.DeleteQueue
open Gk7102.IngenicPlayer
open Gk7102.JsonC
open Gk7102.MusicPlayer
open Gk7102.MusicQueue
open Gk7102.RecordedCalls
open Gk7102.SubClient
open Gk7102.VolumeKeys

set_option autoImplicit false

section Builders

variable (library : JsonLibrary) (answers : Answers) (player : PlayerState)

theorem new_string_result (argument : Pointer) :
    (newStringCall argument).result = argument.content.map JsonObject.string := by
  unfold newStringCall
  rw [bind_result]
  cases argument.content <;> rfl

theorem strdup_result (copied : Bool) (argument : Pointer) :
    (strdupCall copied argument).result =
      argument.content.map fun text => if copied then .text text else .null := by
  unfold strdupCall
  rw [bind_result]
  cases argument.content with
  | none => rfl
  | some text => cases copied <;> rfl

theorem del_blank_result (reply : Pointer) :
    (delBlankCall plentyForReply reply).result =
      reply.content.map fun text => .text (delBlank text) := by
  cases reply with
  | null | errorCode | text => rfl
  | unsupplied content => cases content <;> rfl

theorem without_blanks_result {reply : Recorded Event Pointer} {text : Option String}
    (built : reply.result = text.map Pointer.text) :
    (withoutBlanks plentyForReply reply).result = text.map fun text => .text (delBlank text) := by
  rw [withoutBlanks, bind_result, built]
  cases text <;> rfl

theorem song_info_result (command timestamp : Pointer) {name : String}
    (named : command.content = some name) :
    (songInfoCall library answers plentyForReply player command timestamp).result =
      (ingenicplayerGetSongInfo library answers player name timestamp.content).map
        Pointer.text := by
  have status := (add_members_done (getPlayerStatus answers player)).2
  have songs := (add_members_done (currentSongMembers answers player)).2
  simp only [songInfoCall, plentyForReply, if_true, bind_result, new_string_result, status, songs,
    Option.bind_some, strdup_result, printed, ingenicplayerGetSongInfo, named]
  cases timestamp.content <;> rfl

theorem position_result (command : String) (timestamp : Pointer) :
    (positionCall library answers plentyForReply player (.text command) timestamp).result =
      (ingenicplayerGetPosition library answers player command timestamp.content).map
        Pointer.text := by
  simp only [positionCall, plentyForReply, if_true, bind_result, new_string_result,
    strdup_result, printed, ingenicplayerGetPosition]
  cases timestamp.content <;> rfl

theorem volume_result (musicVol : Int) (command : String) (timestamp : Pointer) :
    (volumeCall library plentyForReply musicVol (.text command) timestamp).result =
      (ingenicplayerGetVolume library musicVol command timestamp.content).map Pointer.text := by
  simp only [volumeCall, plentyForReply, if_true, bind_result, new_string_result,
    strdup_result, printed, ingenicplayerGetVolume]
  cases timestamp.content <;> rfl

theorem add_songs_result (indexes : List Nat) :
    (addSongs answers plentyForReply player indexes).result = some true := by
  induction indexes with
  | nil => rfl
  | cons index rest ih =>
      have allocated : plentyForReply.songObject index = true := rfl
      rw [addSongs, if_pos allocated]
      split
      · exact ih
      · rename_i info _
        rw [bind_result, (add_members_done (getSongJsonObject info)).2]
        exact ih

theorem queue_result (timestamp : Pointer) :
    (queueCall library answers plentyForReply player timestamp).result =
      (h5GetQueue library answers player timestamp.content).map Pointer.text := by
  have loop := add_songs_result answers player (queueIndexes answers player)
  have object : plentyForReply.object = true := rfl
  have array : plentyForReply.array = true := rfl
  rw [queueCall, if_pos object]
  have first : (newStringCall (.text "get_song_queue")).result =
      some (.string "get_song_queue") := rfl
  simp only [bind_result, first, new_string_result timestamp, Option.bind_some, if_pos array, loop]
  cases timestamp.content <;> rfl

theorem inline_result {first : Recorded Event (String × JsonObject)} {member : String × JsonObject}
    (given : first.result = some member) (middle : List (String × JsonObject))
    (timestamp : Pointer) :
    (inlineReply library plentyForReply first middle timestamp).result =
      (timestamp.content.map fun stamp => library.toJsonString
        (.object (member :: middle ++ [("timestamp", .string stamp)]))).map Pointer.text := by
  have object : plentyForReply.object = true := rfl
  rw [inlineReply, bind_result, given]
  simp only [Option.bind_some, if_pos object, bind_result, new_string_result, strdup_result]
  cases timestamp.content <;> rfl

end Builders

section Queues

variable (library : JsonLibrary) (answers : Answers)

theorem pointer_of_content (text : Option String) : (pointerOf text).content = text := by
  cases text <;> rfl

theorem copy_field_result (object : JsonObject) (key : String) :
    (copyFieldCall library answers object key).result =
      strdupField library answers.allocated object key := by
  unfold copyFieldCall strdupField
  cases jsonObjectObjectGetEx object key with
  | none => rfl
  | some value =>
      simp only [bind_result, strdup_result, pointer_of_content]
      cases jsonObjectGetString library value with
      | none => rfl
      | some text => cases answers.allocated key <;> rfl

theorem create_song_result (object : JsonObject) :
    (createSongCall library answers object).result =
      createMusicInfoByJson library answers.allocated object := by
  unfold createSongCall createMusicInfoByJson
  split
  · rfl
  · simp only [bind_result, copy_field_result]
    rfl

theorem insert_song_result (array : JsonObject) (player : PlayerState) :
    (insertSongCall library answers array player).result =
      ingenicplayerInsertSong library answers.allocated answers.handler array player := by
  unfold insertSongCall ingenicplayerInsertSong
  split
  · rfl
  · rw [bind_result, create_song_result]
    congr 1
    funext info
    cases info <;> rfl

theorem insert_songs_result (elements : List JsonObject) (player : PlayerState) :
    (insertSongsCall library answers elements player).result =
      insertSongs library answers.allocated answers.handler elements player := by
  induction elements generalizing player with
  | nil => rfl
  | cons array rest ih =>
      rw [insertSongsCall, insertSongs, bind_result, insert_song_result]
      congr 1
      funext inserted
      exact ih inserted.2

variable (received : Received) (player : PlayerState)

structure ReadFrom : Prop where
  named : jsonObjectObjectGetEx received.object "command" = some (.string received.command)
  readable : Readable received.object "timestamp"
  stamped : received.timestamp = (heldPointer library true "timestamp" received.object).content

theorem get_object_string_result {key : String} {object : JsonObject}
    (readable : Readable object key) :
    (getObjectStringCall library true key object).result =
      some (heldPointer library true key object) := by
  unfold getObjectStringCall heldPointer
  cases found : jsonObjectObjectGetEx object key with
  | none => rfl
  | some value =>
      have present := readable value found
      cases value <;> first | rfl | simp [JsonObject.isNull] at present

theorem own_command_result (read : ReadFrom library received) :
    ∃ command, (getObjectStringCall library true "command" received.object).result =
        some command ∧ command.content = some received.command := by
  have readable : Readable received.object "command" := by
    simp [Readable, read.named, JsonObject.isNull]
  refine ⟨_, get_object_string_result library readable, ?_⟩
  simp [heldPointer, read.named, jsonObjectGetString, pointerOf, Pointer.content]

theorem own_timestamp_result (read : ReadFrom library received) :
    ∃ timestamp, (getObjectStringCall library true "timestamp" received.object).result =
        some timestamp ∧ timestamp.content = received.timestamp :=
  ⟨_, get_object_string_result library read.readable, read.stamped.symm⟩

theorem song_info_of_null (memory : ReplyMemory) (allocated : memory.object = true)
    (command : Pointer) :
    (songInfoCall library answers memory player command .null).result = none := by
  rw [songInfoCall, if_pos allocated, bind_result]
  cases (newStringCall command).result with
  | none => rfl
  | some _ =>
      simp only [Option.bind_some, bind_result, (add_members_done _).2]
      rfl

theorem add_queue_result (read : ReadFrom library received) :
    (addQueueCall library answers plenty received player).result =
      ingenicplayerAddQueue library answers player received := by
  obtain ⟨command, ownCommand, name⟩ := own_command_result library received read
  obtain ⟨timestamp, ownTimestamp, stamp⟩ := own_timestamp_result library received read
  have plentyAgain : plenty.commandAgain = true ∧ plenty.timestampAgain = true := ⟨rfl, rfl⟩
  have dropped : plenty.dropped = plentyForReply := rfl
  rw [addQueueCall, ingenicplayerAddQueue, plentyAgain.1, plentyAgain.2, bind_result, ownCommand,
    Option.bind_some, bind_result, ownTimestamp, Option.bind_some, bind_result]
  unfold songElementsCall
  cases songElements received.object with
  | none => rfl
  | some elements =>
      cases elements with
      | nil =>
          simp only [dropped, bind_result, pure_result, Option.bind_some,
            song_info_result library answers _ _ _ name, stamp, Option.bind_eq_bind]
          cases ingenicplayerGetSongInfo library answers _ _ received.timestamp <;> rfl
      | cons array rest =>
          simp only [dropped, bind_result, pure_result, Option.bind_some, insert_song_result,
            song_info_result library answers _ _ _ name, stamp, Option.bind_eq_bind]
          congr 1
          funext inserted
          cases ingenicplayerGetSongInfo library answers _ _ received.timestamp <;> rfl

theorem play_queue_result (read : ReadFrom library received) :
    (playQueueCall library answers plenty received player).result =
      (ingenicplayerGetSongInfo library answers
        (ingenicplayerPlayQueue library answers player received.object) received.command
        received.timestamp).map fun reply =>
          (ingenicplayerPlayQueue library answers player received.object, .text reply) := by
  obtain ⟨command, ownCommand, name⟩ := own_command_result library received read
  obtain ⟨timestamp, ownTimestamp, stamp⟩ := own_timestamp_result library received read
  have plentyAgain : plenty.commandAgain = true ∧ plenty.timestampAgain = true := ⟨rfl, rfl⟩
  have reply : plenty.reply = plentyForReply := rfl
  rw [playQueueCall, plentyAgain.1, plentyAgain.2, bind_result, ownCommand, Option.bind_some,
    bind_result, ownTimestamp, Option.bind_some]
  simp only [bind_result, reply, song_info_result library answers _ _ _ name, stamp]
  cases ingenicplayerGetSongInfo library answers _ _ received.timestamp <;> rfl

/-- The reply is built with a NULL timestamp, and an emptied queue yields NULL. -/
theorem replace_queue_result (device : Device) :
    (replaceQueueCall library answers plenty received player >>= fun result =>
      oneReply (device.withPlayer result.1) (delBlankCall plentyForReply result.2)).result =
        none := by
  apply Option.eq_none_iff_forall_ne_some.mpr
  intro done reached
  rw [bind_result] at reached
  obtain ⟨result, replaced, replied⟩ := Option.bind_eq_some_iff.mp reached
  rw [replaceQueueCall, bind_result] at replaced
  obtain ⟨elements, -, replaced⟩ := Option.bind_eq_some_iff.mp replaced
  rw [bind_result] at replaced
  obtain ⟨inserted, -, replaced⟩ := Option.bind_eq_some_iff.mp replaced
  unfold playInsertedCall at replaced
  split at replaced
  · rw [bind_result] at replaced
    obtain ⟨-, -, replaced⟩ := Option.bind_eq_some_iff.mp replaced
    split at replaced
    · cases replaced
    · cases replaced
      cases replied
  · rw [bind_result, song_info_of_null library answers _ plenty.reply rfl] at replaced
    cases replaced

end Queues

/-! ## The branches and their tail -/

/-- The variables as a branch leaves them when it has these replies. -/
def localsOf : List String → ReplyLocals
  | [] => noReply
  | [reply] => ⟨1, .text reply, .null⟩
  | reply :: queue :: _ => ⟨2, .text reply, .text queue⟩

def publishedTexts (events : List Event) : List String :=
  events.filterMap fun event =>
    match event with
    | .published reply => some reply
    | _ => none

section Branches

variable (library : JsonLibrary) (answers : Answers) (received : Received) (device : Device)
  (again : Option MemoryDomain)

theorem one_reply_result {reply : Recorded Event Pointer} {text : Option String}
    (built : reply.result = text.map Pointer.text) :
    (oneReply device reply).result = text.map fun reply => (device, localsOf [reply]) := by
  rw [oneReply, bind_result, built]
  cases text <;> rfl

theorem one_compact_result {reply : Recorded Event Pointer} {text : Option String}
    (built : reply.result = text.map Pointer.text) :
    (oneReply device (withoutBlanks plentyForReply reply)).result =
      text.map fun reply => (device, localsOf [delBlank reply]) := by
  rw [oneReply, bind_result, without_blanks_result built]
  cases text <;> rfl

/-- The device and the variables that the modelled command leaves, if it has replies. -/
def performedLocals (command : Command) : Option (Device × ReplyLocals) :=
  (performCommand library answers received device command).bind fun performed =>
    (commandReplies library answers received performed command).map fun replies =>
      (performed, localsOf replies)

/-- A branch leaves the replies to the tail. Those that set the flag without a reply are
stopped there. -/
theorem branch_refines (read : ReadFrom library received) (command : Command)
    (replies : command ∉ [.increaseVolume, .decreaseVolume, .getDeviceInfo, .getSdMusic]) :
    (branchCalls library answers plenty received device again command).result =
      performedLocals library answers received device command := by
  have stamp := pointer_of_content received.timestamp
  have own : (Pointer.text received.command).content = some received.command := rfl
  have reply : plenty.reply = plentyForReply := rfl
  have queue : plenty.queue = plentyForReply := rfl
  cases command with
  | ping =>
      apply (one_reply_result device (inline_result library rfl _ _)).trans
      rw [stamp]
      cases h : received.timestamp <;>
        simp [performedLocals, performCommand, commandReplies, h]
  | previous | skip | toggle =>
      apply (one_compact_result _ (song_info_result library answers _ _ _ own)).trans
      rw [stamp]
      cases h : received.timestamp <;>
        simp [performedLocals, performCommand, commandReplies, ingenicplayerGetSongInfo, h]
  | getVolume =>
      apply (one_compact_result _ (volume_result library _ _ _)).trans
      rw [stamp]
      cases h : received.timestamp <;>
        simp [performedLocals, performCommand, commandReplies, ingenicplayerGetVolume, h]
  | getPosition =>
      apply (one_compact_result _ (position_result library answers _ _ _)).trans
      rw [stamp]
      cases h : received.timestamp <;>
        simp [performedLocals, performCommand, commandReplies, ingenicplayerGetPosition, h]
  | getSongQueue =>
      apply (one_compact_result _ (queue_result library answers _ _)).trans
      rw [stamp]
      cases h : received.timestamp <;>
        simp [performedLocals, performCommand, commandReplies, h5GetQueue, h]
  | deleteFromQueue =>
      apply (one_compact_result _ (queue_result library answers _ _)).trans
      cases h : answers.strayTimestamp <;>
        simp [performedLocals, performCommand, commandReplies, h5GetQueue, h, Pointer.content,
          Device.withPlayer]
  | setVolume | getStatus | setSeek =>
      apply (one_compact_result _ (inline_result library rfl _ _)).trans
      rw [stamp]
      cases h : received.timestamp <;>
        simp [performedLocals, performCommand, commandReplies, h]
  | increaseVolume | decreaseVolume | getDeviceInfo | getSdMusic => simp at replies
  | upgradeOta | setQueueMode => rfl
  | getSongInfo =>
      rw [branchCalls, reply, queue, bind_result,
        without_blanks_result (song_info_result library answers device.player _ _ own)]
      simp only [bind_result, without_blanks_result (queue_result library answers device.player _),
        stamp]
      cases h : received.timestamp <;>
        simp [performedLocals, performCommand, commandReplies, ingenicplayerGetSongInfo,
          h5GetQueue, h, localsOf]
  | addQueueToTail =>
      rw [branchCalls, reply, bind_result, add_queue_result library answers received _ read]
      unfold performedLocals
      rw [performCommand]
      cases ingenicplayerAddQueue library answers device.player received with
      | none => rfl
      | some player =>
          apply (one_compact_result _ (queue_result library answers _ _)).trans
          cases h : answers.strayTimestamp <;>
            simp [commandReplies, h5GetQueue, h, Pointer.content, Device.withPlayer]
  | addQueueToPlay =>
      apply (replace_queue_result library answers received device.player device).trans
      symm
      apply Option.eq_none_iff_forall_ne_some.mpr
      intro done reached
      obtain ⟨performed, -, replied⟩ := Option.bind_eq_some_iff.mp reached
      simp [commandReplies, ingenicplayerGetSongInfo] at replied
  | playFromQueue =>
      rw [branchCalls, reply, bind_result, play_queue_result library answers received _ read]
      cases h : received.timestamp <;>
        simp [performedLocals, performCommand, commandReplies, ingenicplayerGetSongInfo, h,
          Device.withPlayer, del_blank_result, oneReply, localsOf, Pointer.content, noReply]

theorem command_replies_length {command : Command} {performed : Device} {replies : List String}
    (replied : commandReplies library answers received performed command = some replies) :
    replies.length ≤ 2 := by
  cases command with
  | upgradeOta | setQueueMode =>
      cases replied
      simp
  | increaseVolume | decreaseVolume | getDeviceInfo | getSdMusic => cases replied
  | addQueueToPlay => simp [commandReplies, ingenicplayerGetSongInfo] at replied
  | getSongInfo =>
      obtain ⟨reply, -, rest⟩ := Option.bind_eq_some_iff.mp replied
      obtain ⟨queue, -, both⟩ := Option.bind_eq_some_iff.mp rest
      cases both
      simp
  | ping | previous | skip | toggle | playFromQueue | getVolume | setVolume | getStatus
  | getPosition | getSongQueue | addQueueToTail | deleteFromQueue | setSeek =>
      obtain ⟨text, -, rfl⟩ := Option.map_eq_some_iff.mp replied
      simp

theorem publish_calls_of_replies {replies : List String} (few : replies.length ≤ 2) :
    (publishCalls plenty (localsOf replies)).result = some () ∧
      publishedTexts (publishCalls plenty (localsOf replies)).events = replies := by
  match replies, few with
  | [], _ => exact ⟨rfl, rfl⟩
  | [_], _ => exact ⟨rfl, rfl⟩
  | [_, _], _ => exact ⟨rfl, rfl⟩

/-- With memory for everything a known command leaves the device that `handleCommand` says,
and stops where that has none. -/
theorem handle_calls_refines (read : ReadFrom library received) {command : Command}
    (known : commandNames.lookup received.command = some command) :
    (handleCalls library answers plenty received device again command).result =
      (handleCommand library answers received device).map Prod.fst := by
  have unfolded : (handleCommand library answers received device).map Prod.fst =
      (performCommand library answers received device command).bind fun performed =>
        (commandReplies library answers received performed command).map fun _ => performed := by
    rw [handleCommand, known]
    simp only [Option.bind_eq_bind, Option.map_bind]
    congr 1
    funext performed
    cases h : commandReplies library answers received performed command <;> simp [h]
  rw [unfolded, handleCalls, bind_result]
  by_cases flagOnly :
      command ∈ [Command.increaseVolume, .decreaseVolume, .getDeviceInfo, .getSdMusic]
  · simp only [List.mem_cons, List.not_mem_nil, or_false] at flagOnly
    rcases flagOnly with rfl | rfl | rfl | rfl <;> rfl
  · rw [branch_refines library answers received device again read command flagOnly,
      performedLocals, Option.bind_assoc]
    congr 1
    funext performed
    cases replied : commandReplies library answers received performed command with
    | none => rfl
    | some replies =>
        have few := command_replies_length library answers received replied
        have sent := (publish_calls_of_replies few).1
        simp only [Option.map_some, Option.bind_some, bind_result, sent]
        rfl

theorem remote_key_pressed (memory : Memory) {command : Command} {key : VolumeKeys.VolumeKey}
    (known : commandNames.lookup received.command = some command)
    (named : VolumeKeys.remoteKey library received = some key) {left : Device × ReplyLocals}
    (leaves : (branchCalls library answers memory received device again command).result =
      some left) :
    left.1 =
      (VolumeKeys.press device.musicVol ⟨key, device.player, answers, again⟩).device := by
  rw [VolumeKeys.remoteKey, known] at named
  cases command with
  | setVolume =>
      cases named
      rw [branchCalls, oneReply, bind_result] at leaves
      obtain ⟨reply, -, done⟩ := Option.bind_eq_some_iff.mp leaves
      cases done
      rfl
  | increaseVolume =>
      cases named
      cases leaves
      rfl
  | decreaseVolume =>
      cases named
      cases leaves
      rfl
  | _ => cases named

end Branches

end Gk7102.ReplyCalls
