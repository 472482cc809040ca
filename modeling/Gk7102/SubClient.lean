import Gk7102.DeleteQueue
import Gk7102.IngenicPlayer
import Gk7102.JsonText
import Gk7102.ShellWords

/-!
# Remote commands and the shell that publishes their replies

`sub_message_callback` reads a command from an MQTT message, carries it out on
the player and hands the reply to `system` inside a `mosquitto_pub` command,
between single quotes and otherwise as it is. The JSON allocations succeed.
`strdup`, `strlen` and `json_object_new_string` follow NULL: such a message ends
the process, and the callback has no result.
-/

namespace Gk7102.SubClient

open Gk7102.DeleteQueue
open Gk7102.IngenicPlayer
open Gk7102.JsonC
open Gk7102.MusicPlayer
open Gk7102.MusicQueue
open Gk7102.ShellWords

set_option autoImplicit false

/-- The domains the volume and song keys tell apart. -/
inductive MemoryDomain where
  | musicplayer
  | other
deriving DecidableEq, Repr

/-- What the rest of the device answers while one message is handled. `positions`
are the successive answers of the player, and `strayTimestamp` is what stands in
the argument that two calls of `h5_get_queue` leave out. -/
structure Answers where
  handler : Option MusicplayerHandler
  domain : Option MemoryDomain
  world : World
  allocated : String → Bool
  status : PlayerStatus
  duration : Int
  positions : Nat → Int
  strayTimestamp : Option String

structure Device where
  player : PlayerState
  musicVol : Int

def Device.withPlayer (device : Device) (player : PlayerState) : Device :=
  { device with player := player }

/-- The payload as the callback reads it. -/
structure Received where
  command : String
  timestamp : Option String
  object : JsonObject

section Keys

variable (answers : Answers) (device : Device)

def mozartPreviousSong : Device :=
  match answers.domain with
  | some .musicplayer =>
      device.withPlayer
        (mozartMusicplayerPrevMusic answers.world answers.handler device.player).state
  | _ => device

def mozartNextSong : Device :=
  match answers.domain with
  | some .musicplayer =>
      device.withPlayer
        (mozartMusicplayerNextMusic answers.world answers.handler device.player).state
  | _ => device

def mozartPlayPause : Device :=
  match answers.domain with
  | some .musicplayer =>
      device.withPlayer
        (mozartMusicplayerPlayPause answers.world answers.handler device.player).state
  | _ => device

def mozartVolumeSet (setVol : Int) : Device :=
  match answers.domain with
  | none => device
  | some .musicplayer =>
      { player :=
          (mozartMusicplayerSetVolume answers.world answers.handler setVol device.player).state
        musicVol := setVol }
  | some .other => { device with musicVol := setVol }

end Keys

section Replies

variable (library : JsonLibrary) (answers : Answers) (player : PlayerState)

def mozartMusicplayerGetStatus : PlayerStatus :=
  if checkHandlerUuid player answers.handler < 0 then .paused else answers.status

def mozartMusicplayerGetDuration : Int :=
  if checkHandlerUuid player answers.handler < 0 then playerPaused else answers.duration

def mozartMusicplayerGetPos (attempt : Nat) : Int :=
  if checkHandlerUuid player answers.handler < 0 then playerPaused else answers.positions attempt

def mozartMusicplayerMusiclistGetPlayMode : PlayMode :=
  if checkHandlerUuid player answers.handler < 0 then .order
  else mozartMusiclistGetPlayMode player.musicplayerList

def mozartMusicplayerMusiclistGetCurrentInfo : Option MusicInfo :=
  if checkHandlerUuid player answers.handler < 0 then none
  else mozartMusiclistGetCurrent player.musicplayerList

def mozartMusicplayerMusiclistGetIndexInfo (index : Int) : Option MusicInfo :=
  if checkHandlerUuid player answers.handler < 0 then none
  else mozartMusiclistGetIndex player.musicplayerList index

def playModeInt : PlayMode → Int
  | .order => 0
  | .single => 1
  | .random => 2
  | .other value => value

/-- A NULL text gets no member. -/
def textMember (key : String) (text : Option String) : List (String × JsonObject) :=
  match text with
  | none => []
  | some text => [(key, .string text)]

def getSongJsonObject (info : MusicInfo) : List (String × JsonObject) :=
  (if info.id ≠ 0 then [("song_id", .int info.id)] else []) ++
    textMember "song_name" info.musicName ++
    textMember "songurl" info.musicUrl ++
    textMember "picture" info.musicPicture ++
    textMember "albumsname" info.albumsName ++
    textMember "artists_name" info.artistsName ++
    textMember "data" info.data

def getPlayerStatus : List (String × JsonObject) :=
  match mozartMusicplayerGetStatus answers player with
  | .playing => [("status", .string "play")]
  | .paused => [("status", .string "pause")]
  | .transport => [("status", .string "pause")]
  | .stopped => [("status", .string "stop")]
  | _ => []

def currentSongMembers : List (String × JsonObject) :=
  match mozartMusicplayerMusiclistGetCurrentInfo answers player with
  | none => []
  | some info =>
      getSongJsonObject info ++ [("duration", .int (mozartMusicplayerGetDuration answers player))]

def ingenicplayerGetSongInfo (command : String) (timestamp : Option String) : Option String :=
  timestamp.map fun timestamp =>
    library.toJsonString (.object (
      [("command", .string command)] ++ getPlayerStatus answers player ++
        currentSongMembers answers player ++
        [("queue_mode", .int (playModeInt (mozartMusicplayerMusiclistGetPlayMode answers player))),
         ("queue_index", .int (mozartMusicplayerMusiclistGetCurrentIndex answers.handler player)),
         ("queue_num", .int (mozartMusicplayerMusiclistGetLength answers.handler player)),
         ("timestamp", .string timestamp)]))

/-- Asks again, a round later, as long as the position is -1 or 0. -/
def pollPosition (pos : Int) (attempt : Nat) : (rounds : Nat) → Int
  | 0 => pos
  | rounds + 1 =>
      let answered := mozartMusicplayerGetPos answers player attempt
      if answered ≠ -1 ∧ answered ≠ 0 then answered
      else pollPosition answered (attempt + 1) rounds

def ingenicplayerGetPosition (command : String) (timestamp : Option String) : Option String :=
  timestamp.map fun timestamp =>
    library.toJsonString (.object
      [("command", .string command), ("timestamp", .string timestamp),
       ("get_current_position", .int (pollPosition answers player 0 0 30)),
       ("get_duration", .int (mozartMusicplayerGetDuration answers player))])

def ingenicplayerGetVolume (musicVol : Int) (command : String) (timestamp : Option String) :
    Option String :=
  timestamp.map fun timestamp =>
    library.toJsonString (.object
      [("command", .string command), ("volume", .int musicVol), ("timestamp", .string timestamp)])

def queueSongs : List MusicInfo :=
  (List.range (mozartMusicplayerMusiclistGetLength answers.handler player).toNat).filterMap
    fun index => mozartMusicplayerMusiclistGetIndexInfo answers player index

def h5GetQueue (timestamp : Option String) : Option String :=
  timestamp.map fun timestamp =>
    library.toJsonString (.object
      [("command", .string "get_song_queue"), ("timestamp", .string timestamp),
       ("index", .int (mozartMusicplayerMusiclistGetCurrentIndex answers.handler player)),
       ("songs", .array
          ((queueSongs answers player).map fun info => .object (getSongJsonObject info)))])

end Replies

section QueueCommands

variable (library : JsonLibrary) (answers : Answers) (player : PlayerState)

def h5MusiclistDeleteIndex (data : JsonObject) : PlayerState :=
  (mozartMusicplayerMusiclistDeleteIndex answers.handler (getObjectInt library "index" data)
    player).state

/-- Inserts the first song only. The reply it builds is dropped by the caller. -/
def ingenicplayerAddQueue (received : Received) : Option PlayerState := do
  let elements ← songElements received.object
  let inserted ←
    match elements with
    | [] => some (-1, player)
    | array :: _ =>
        ingenicplayerInsertSong library answers.allocated answers.handler array player
  let played := mozartMusicplayerPlayIndex answers.world answers.handler inserted.1 inserted.2
  let _ ← ingenicplayerGetSongInfo library answers played.state received.command received.timestamp
  some played.state

def ingenicplayerPlayQueue (data : JsonObject) : PlayerState :=
  let index := getObjectInt library "index" data
  if index ≥ 0 then
    (mozartMusicplayerPlayIndex answers.world answers.handler index player).state
  else player

end QueueCommands

inductive Command where
  | ping
  | previous
  | skip
  | toggle
  | getVolume
  | setVolume
  | increaseVolume
  | decreaseVolume
  | getDeviceInfo
  | upgradeOta
  | getStatus
  | getSdMusic
  | getSongInfo
  | getPosition
  | getSongQueue
  | addQueueToTail
  | deleteFromQueue
  | addQueueToPlay
  | playFromQueue
  | setQueueMode
  | setSeek
deriving DecidableEq, Repr

def commandNames : List (String × Command) :=
  [("ping", .ping), ("prefix", .previous), ("skip", .skip), ("toggle", .toggle),
   ("get_volume", .getVolume), ("set_volume", .setVolume),
   ("increase_volume", .increaseVolume), ("decrease_volume", .decreaseVolume),
   ("get_device_info", .getDeviceInfo), ("upgrade_ota", .upgradeOta),
   ("get_status", .getStatus), ("get_sd_music", .getSdMusic), ("get_song_info", .getSongInfo),
   ("get_position", .getPosition), ("get_song_queue", .getSongQueue),
   ("add_queue_to_tail", .addQueueToTail), ("delete_from_queue", .deleteFromQueue),
   ("add_queue_to_play", .addQueueToPlay), ("play_from_queue", .playFromQueue),
   ("set_queue_mode", .setQueueMode), ("set_seek", .setSeek)]

def delBlank (text : String) : String := String.ofList (text.toList.filter (· ≠ ' '))

section Callback

variable (library : JsonLibrary) (answers : Answers) (received : Received)

/-- What the command does before its reply is built. The volume keys are left out:
their branches end the process. -/
def performCommand (device : Device) : Command → Option Device
  | .previous => some (mozartPreviousSong answers device)
  | .skip => some (mozartNextSong answers device)
  | .toggle => some (mozartPlayPause answers device)
  | .setVolume =>
      some (mozartVolumeSet answers device (getObjectInt library "volume" received.object))
  | .addQueueToTail =>
      (ingenicplayerAddQueue library answers device.player received).map device.withPlayer
  | .deleteFromQueue =>
      some (device.withPlayer
        (h5MusiclistDeleteIndex library answers device.player received.object))
  | .addQueueToPlay =>
      (ingenicplayerReplaceQueue library answers.allocated answers.world answers.handler
        received.object device.player).map fun replaced => device.withPlayer replaced.1
  | .playFromQueue =>
      some (device.withPlayer
        (ingenicplayerPlayQueue library answers device.player received.object))
  | .setSeek =>
      some (device.withPlayer
        (mozartMusicplayerSetSeek answers.world answers.handler
          (getObjectInt library "value" received.object) device.player).state)
  | _ => some device

def commandReplies (device : Device) : Command → Option (List String)
  | .ping =>
      received.timestamp.map fun timestamp =>
        [library.toJsonString (.object
          [("command", .string received.command), ("timestamp", .string timestamp)])]
  | .previous | .skip | .toggle | .playFromQueue =>
      (ingenicplayerGetSongInfo library answers device.player received.command
        received.timestamp).map fun reply => [delBlank reply]
  | .getVolume =>
      (ingenicplayerGetVolume library device.musicVol received.command
        received.timestamp).map fun reply => [delBlank reply]
  | .setVolume =>
      received.timestamp.map fun timestamp =>
        [delBlank (library.toJsonString (.object
          [("command", .string received.command),
           ("volume", .int (getObjectInt library "volume" received.object)),
           ("timestamp", .string timestamp)]))]
  | .getStatus =>
      received.timestamp.map fun timestamp =>
        [delBlank (library.toJsonString (.object
          [("status", .int 1), ("timestamp", .string timestamp)]))]
  | .getSongInfo => do
      let reply ← ingenicplayerGetSongInfo library answers device.player received.command
        received.timestamp
      let queue ← h5GetQueue library answers device.player received.timestamp
      some [delBlank reply, delBlank queue]
  | .getPosition =>
      (ingenicplayerGetPosition library answers device.player received.command
        received.timestamp).map fun reply => [delBlank reply]
  | .getSongQueue =>
      (h5GetQueue library answers device.player received.timestamp).map fun reply =>
        [delBlank reply]
  | .addQueueToTail | .deleteFromQueue =>
      (h5GetQueue library answers device.player answers.strayTimestamp).map fun reply =>
        [delBlank reply]
  | .addQueueToPlay =>
      -- an emptied queue yields NULL, which `del_blank` follows
      if mozartMusicplayerMusiclistGetLength answers.handler device.player ≤ 0 then none
      else
        (ingenicplayerGetSongInfo library answers device.player "add_queue_to_play" none).map
          fun reply => [delBlank reply]
  | .setSeek =>
      received.timestamp.map fun timestamp =>
        [delBlank (library.toJsonString (.object
          [("command", .string received.command),
           ("value", .int (getObjectInt library "value" received.object)),
           ("timestamp", .string timestamp)]))]
  | .upgradeOta | .setQueueMode => some []
  -- a reply is to be sent, but `reply_json` is still NULL
  | .increaseVolume | .decreaseVolume | .getDeviceInfo | .getSdMusic => none

def handleCommand (device : Device) : Option (Device × List String) :=
  match commandNames.lookup received.command with
  | none => some (device, [])
  | some command => do
      let performed ← performCommand library answers received device command
      let replies ← commandReplies library answers received performed command
      some (performed, replies)

end Callback

/-- A reply and the text `system` is called with to publish it. -/
structure Publication where
  reply : String
  systemText : String
deriving DecidableEq, Repr

def publishText : String :=
  "mosquitto_pub -h 119.23.207.229 -p 1883 -u leden -P ray123456 -t /app/RSPythonTest -m '"

def publish (reply : String) : Publication where
  reply := reply
  systemText := publishText ++ reply ++ "'"

def rayAppserverNotify (allocated : Bool) (data : String) : Int × List Publication :=
  if allocated then (0, [publish data]) else (-1, [])

structure MosqConfig where
  noRetain : Bool
  filterOuts : List String
  msgCount : Int

/-- libmosquitto delivers an empty payload as NULL. -/
structure MosquittoMessage where
  topic : String
  payload : Option String
  retain : Bool

/-- The variables of `sub_client.c`, and the device. -/
structure ClientState where
  processMessages : Bool
  msgCount : Int
  device : Device

def getObjectString (library : JsonLibrary) (object : String) (command : JsonObject) :
    Option (Option String) :=
  match jsonObjectObjectGetEx command object with
  | none => some none
  | some tmp => (jsonObjectGetString library tmp).map some

section Messages

variable (library : JsonLibrary) (tokenerParse : String → JsonObject)
  (topicMatchesSub : String → String → Bool) (cfg : MosqConfig) (answers : Answers)
  (message : MosquittoMessage)

def accepted (client : ClientState) : Bool :=
  client.processMessages && !(message.retain && cfg.noRetain) &&
    !cfg.filterOuts.any fun filterOut => topicMatchesSub filterOut message.topic

def countMessage (client : ClientState) : ClientState :=
  if cfg.msgCount > 0 then
    { client with
      msgCount := client.msgCount + 1
      processMessages := client.processMessages && decide (cfg.msgCount ≠ client.msgCount + 1) }
  else client

/-- `some none` stands for a payload without a command. -/
def receive : Option (Option Received) := do
  let payload ← message.payload
  let object := tokenerParse payload
  let timestamp ← getObjectString library "timestamp" object
  let command ← getObjectString library "command" object
  some (command.map fun command => ⟨command, timestamp, object⟩)

def subMessageCallback (client : ClientState) : Option (ClientState × List Publication) :=
  if accepted topicMatchesSub cfg message client then
    match receive library tokenerParse message with
    | none => none
    | some none => some (countMessage cfg client, [])
    | some (some received) =>
        (handleCommand library answers received client.device).map fun handled =>
          ({ countMessage cfg client with device := handled.1 }, handled.2.map publish)
  else some (client, [])

end Messages

def publishArguments : List Word :=
  ["mosquitto_pub", "-h", "119.23.207.229", "-p", "1883", "-u", "leden", "-P", "ray123456",
    "-t", "/app/RSPythonTest", "-m"].map String.toList

/-- The shell runs one `mosquitto_pub`, with the reply as its message. -/
def PublishesReply (publication : Publication) : Prop :=
  simpleCommand publication.systemText.toList =
    some (publishArguments ++ [publication.reply.toList])

def songTexts (info : MusicInfo) : List String :=
  info.musicName.toList ++ info.musicUrl.toList ++ info.musicPicture.toList ++
    info.albumsName.toList ++ info.artistsName.toList ++ info.data.toList

/-- The timestamp a reply shows, when there is a reply. -/
def shownTimestamp (answers : Answers) (received : Received) : Command → Option String
  | .addQueueToTail | .deleteFromQueue => answers.strayTimestamp
  | .increaseVolume | .decreaseVolume | .getDeviceInfo | .getSdMusic | .upgradeOta
  | .setQueueMode | .addQueueToPlay => none
  | _ => received.timestamp

def shownSongs (answers : Answers) (player : PlayerState) : Command → List MusicInfo
  | .previous | .skip | .toggle | .playFromQueue =>
      (mozartMusicplayerMusiclistGetCurrentInfo answers player).toList
  | .getSongInfo =>
      (mozartMusicplayerMusiclistGetCurrentInfo answers player).toList ++ queueSongs answers player
  | .getSongQueue | .addQueueToTail | .deleteFromQueue => queueSongs answers player
  | _ => []

def shownTexts (answers : Answers) (received : Received) (player : PlayerState)
    (command : Command) : List String :=
  match shownTimestamp answers received command with
  | none => []
  | some timestamp =>
      timestamp :: (shownSongs answers player command).flatMap songTexts

/-- An accepted message asks for texts of which one holds an apostrophe. The player
is looked at as the command leaves it. -/
def ShowsApostrophe (library : JsonLibrary) (tokenerParse : String → JsonObject)
    (topicMatchesSub : String → String → Bool) (cfg : MosqConfig) (answers : Answers)
    (message : MosquittoMessage) (client : ClientState) : Prop :=
  accepted topicMatchesSub cfg message client = true ∧
    ∃ received command performed,
      receive library tokenerParse message = some (some received) ∧
      commandNames.lookup received.command = some command ∧
      performCommand library answers received client.device command = some performed ∧
      HoldApostrophe (shownTexts answers received performed.player command)

section Publishing

theorem publish_opens_quote :
    run .start publishText.toList = some ⟨.single, some [], publishArguments⟩ := by
  decide

theorem publish_publishes_iff (reply : String) :
    PublishesReply (publish reply) ↔ '\'' ∉ reply.toList := by
  rw [PublishesReply, publish, String.toList_append, String.toList_append]
  exact single_quoted_argument_iff publish_opens_quote reply.toList

theorem all_publish_iff (replies : List String) :
    (∀ reply ∈ replies, PublishesReply (publish reply)) ↔ ¬ HoldApostrophe replies := by
  simp only [publish_publishes_iff, HoldApostrophe, not_exists, not_and]

theorem command_name_plain {text : String} {command : Command}
    (named : commandNames.lookup text = some command) : '\'' ∉ text.toList := by
  obtain ⟨before, after, split, -⟩ := List.lookup_eq_some_iff.mp named
  have listed : (text, command) ∈ commandNames := by
    rw [split]
    exact List.mem_append_right before List.mem_cons_self
  have plain : ∀ name ∈ commandNames, '\'' ∉ name.1.toList := by decide
  exact plain _ listed

theorem callback_received {library : JsonLibrary} {answers : Answers}
    {tokenerParse : String → JsonObject}
    {topicMatchesSub : String → String → Bool} {cfg : MosqConfig} {message : MosquittoMessage}
    {client : ClientState} {received : Received}
    (ok : accepted topicMatchesSub cfg message client = true)
    (read : receive library tokenerParse message = some (some received)) :
    subMessageCallback library tokenerParse topicMatchesSub cfg answers message client =
      (handleCommand library answers received client.device).map fun handled =>
        ({ countMessage cfg client with device := handled.1 }, handled.2.map publish) := by
  rw [subMessageCallback, if_pos ok, read]

end Publishing

section Texts

@[simp] theorem del_blank_apostrophe (text : String) :
    '\'' ∈ (delBlank text).toList ↔ '\'' ∈ text.toList := by
  simp [delBlank]

theorem text_member_holds (key : String) (text : Option String)
    (plain : '\'' ∉ key.toList) :
    HoldApostrophe (memberTexts (textMember key text)) ↔ HoldApostrophe text.toList := by
  cases text with
  | none => simp [textMember, memberTexts]
  | some text => simp [textMember, memberTexts, JsonObject.texts, plain]

theorem song_members_hold (info : MusicInfo) :
    HoldApostrophe (memberTexts (getSongJsonObject info)) ↔ HoldApostrophe (songTexts info) := by
  have number : ¬ HoldApostrophe
      (memberTexts (if info.id ≠ 0 then [("song_id", .int info.id)] else [])) := by
    split
    · simp [memberTexts, JsonObject.texts]
    · simp [memberTexts]
  simp (disch := decide) only [getSongJsonObject, songTexts, member_texts_append,
    hold_apostrophe_append, text_member_holds, number, false_or]

theorem song_objects_hold (songs : List MusicInfo) :
    HoldApostrophe (elementTexts (songs.map fun info => .object (getSongJsonObject info))) ↔
      HoldApostrophe (songs.flatMap songTexts) := by
  induction songs with
  | nil => rfl
  | cons info rest ih =>
      simp [elementTexts, JsonObject.texts, song_members_hold, ih]

variable {library : JsonLibrary} (verbatim : KeepsApostrophes library) (answers : Answers)
  (player : PlayerState)

theorem player_status_plain : ¬ HoldApostrophe (memberTexts (getPlayerStatus answers player)) := by
  unfold getPlayerStatus
  split
  all_goals simp [memberTexts, JsonObject.texts]

theorem current_song_members_hold :
    HoldApostrophe (memberTexts (currentSongMembers answers player)) ↔
      HoldApostrophe
        ((mozartMusicplayerMusiclistGetCurrentInfo answers player).toList.flatMap songTexts) := by
  unfold currentSongMembers
  split
  · rename_i absent
    simp [absent, memberTexts]
  · rename_i info present
    simp [present, member_texts_append, memberTexts, JsonObject.texts, song_members_hold]

include verbatim

theorem song_info_holds {command : String} (plain : '\'' ∉ command.toList)
    (timestamp : String) :
    ∃ reply, ingenicplayerGetSongInfo library answers player command (some timestamp) =
        some reply ∧
      ('\'' ∈ reply.toList ↔ HoldApostrophe (timestamp ::
        (mozartMusicplayerMusiclistGetCurrentInfo answers player).toList.flatMap songTexts)) := by
  refine ⟨_, rfl, ?_⟩
  rw [verbatim]
  simp [JsonObject.texts, member_texts_append, memberTexts, plain, player_status_plain,
    current_song_members_hold, or_comm]

theorem queue_reply_holds (timestamp : String) :
    ∃ reply, h5GetQueue library answers player (some timestamp) = some reply ∧
      ('\'' ∈ reply.toList ↔
        HoldApostrophe (timestamp :: (queueSongs answers player).flatMap songTexts)) := by
  refine ⟨_, rfl, ?_⟩
  rw [verbatim]
  simp [JsonObject.texts, memberTexts, song_objects_hold]

/-- What the reply texts show is what their command is said to show. -/
theorem command_replies_hold (received : Received) (plain : '\'' ∉ received.command.toList)
    (device : Device) (command : Command) :
    HoldApostrophe ((commandReplies library answers received device command).getD []) ↔
      HoldApostrophe (shownTexts answers received device.player command) := by
  have printed : ∀ object : JsonObject,
    '\'' ∈ (library.toJsonString object).toList ↔ HoldApostrophe object.texts := verbatim
  have info := song_info_holds verbatim answers device.player plain
  have queue := queue_reply_holds verbatim answers device.player
  cases command with
  | ping | getVolume | setVolume | getStatus | getPosition | setSeek =>
      cases stamp : received.timestamp with
      | none =>
          simp [commandReplies, ingenicplayerGetVolume, ingenicplayerGetPosition, shownTexts,
            shownTimestamp, stamp]
      | some timestamp =>
          simp [commandReplies, ingenicplayerGetVolume, ingenicplayerGetPosition, shownTexts,
            shownTimestamp, shownSongs, stamp, printed, JsonObject.texts, memberTexts, plain]
  | previous | skip | toggle | playFromQueue =>
      cases stamp : received.timestamp with
      | none => simp [commandReplies, ingenicplayerGetSongInfo, shownTexts, shownTimestamp, stamp]
      | some timestamp =>
          obtain ⟨reply, built, holds⟩ := info timestamp
          simp [commandReplies, shownTexts, shownTimestamp, shownSongs, stamp, built, holds]
  | getSongInfo =>
      cases stamp : received.timestamp with
      | none => simp [commandReplies, ingenicplayerGetSongInfo, shownTexts, shownTimestamp, stamp]
      | some timestamp =>
          obtain ⟨reply, built, holds⟩ := info timestamp
          obtain ⟨listed, queued, held⟩ := queue timestamp
          simp [commandReplies, shownTexts, shownTimestamp, shownSongs, stamp, built, holds,
            queued, held]
          tauto
  | getSongQueue =>
      cases stamp : received.timestamp with
      | none => simp [commandReplies, h5GetQueue, shownTexts, shownTimestamp, stamp]
      | some timestamp =>
          obtain ⟨listed, queued, held⟩ := queue timestamp
          simp [commandReplies, shownTexts, shownTimestamp, shownSongs, stamp, queued, held]
  | addQueueToTail | deleteFromQueue =>
      cases stamp : answers.strayTimestamp with
      | none => simp [commandReplies, h5GetQueue, shownTexts, shownTimestamp, stamp]
      | some timestamp =>
          obtain ⟨listed, queued, held⟩ := queue timestamp
          simp [commandReplies, shownTexts, shownTimestamp, shownSongs, stamp, queued, held]
  | addQueueToPlay =>
      simp [commandReplies, ingenicplayerGetSongInfo, shownTexts, shownTimestamp]
  | increaseVolume | decreaseVolume | getDeviceInfo | getSdMusic | upgradeOta
  | setQueueMode => rfl

theorem handled_publishes_iff (received : Received) (device : Device) :
    (∀ handled, handleCommand library answers received device = some handled →
        ∀ reply ∈ handled.2, PublishesReply (publish reply)) ↔
      ¬ ∃ command performed,
        commandNames.lookup received.command = some command ∧
        performCommand library answers received device command = some performed ∧
        HoldApostrophe (shownTexts answers received performed.player command) := by
  cases named : commandNames.lookup received.command with
  | none => simp [handleCommand, named]
  | some command =>
      cases done : performCommand library answers received device command with
      | none => simp [handleCommand, named, done]
      | some performed =>
          have shown := command_replies_hold verbatim answers received
            (command_name_plain named) performed command
          cases replied : commandReplies library answers received performed command with
          | none =>
              rw [replied] at shown
              simp [handleCommand, named, done, replied, ← shown]
          | some replies =>
              rw [replied, Option.getD_some] at shown
              simp [handleCommand, named, done, replied, ← shown, all_publish_iff]

end Texts

/-- A reply is published as it is exactly when nothing it shows holds an apostrophe; the
same goes for whatever text `ray_appserver_notify` is given. -/
theorem replies_published_iff {library : JsonLibrary} (verbatim : KeepsApostrophes library)
    (tokenerParse : String → JsonObject) (topicMatchesSub : String → String → Bool)
    (cfg : MosqConfig) (answers : Answers) (message : MosquittoMessage) (client : ClientState) :
    ((∀ outcome,
        subMessageCallback library tokenerParse topicMatchesSub cfg answers message client =
          some outcome →
        ∀ publication ∈ outcome.2, PublishesReply publication) ↔
      ¬ ShowsApostrophe library tokenerParse topicMatchesSub cfg answers message client) ∧
    ∀ allocated data,
      (∀ publication ∈ (rayAppserverNotify allocated data).2, PublishesReply publication) ↔
        ¬ (allocated = true ∧ '\'' ∈ data.toList) := by
  constructor
  · cases ok : accepted topicMatchesSub cfg message client with
    | false => simp [subMessageCallback, ShowsApostrophe, ok]
    | true =>
        cases read : receive library tokenerParse message with
        | none => simp [subMessageCallback, ShowsApostrophe, ok, read]
        | some content =>
            cases content with
            | none => simp [subMessageCallback, ShowsApostrophe, ok, read]
            | some received =>
                have handled := handled_publishes_iff verbatim answers received client.device
                rw [callback_received ok read]
                constructor
                · rintro published ⟨-, same, command, performed, found, named, done, holds⟩
                  obtain rfl := Option.some.inj (Option.some.inj (read.symm.trans found))
                  apply handled.mp _ ⟨command, performed, named, done, holds⟩
                  intro result carried reply sent
                  apply published _ (by rw [carried]; rfl)
                  exact List.mem_map_of_mem sent
                · intro silent outcome returned
                  obtain ⟨result, carried, rfl⟩ := Option.map_eq_some_iff.mp returned
                  have clean := handled.mpr fun ⟨command, performed, rest⟩ =>
                    silent ⟨ok, received, command, performed, read, rest⟩
                  exact List.forall_mem_map.mpr (clean result carried)
  · intro allocated data
    cases allocated with
    | false => simp [rayAppserverNotify]
    | true => simp [rayAppserverNotify, publish_publishes_iff]

def titledSong (id : Int) (name : String) : MusicInfo :=
  { untitledSong id with musicName := some name }

/-- The owner has two titled songs in its queue. -/
def clientWithTwoSongs : ClientState where
  processMessages := true
  msgCount := 0
  device :=
    { player :=
        { currentUuid := "musicplayer"
          inMusicplayer := 1
          autoplayFlag := true
          musicplayerList :=
            some ⟨[titledSong 1 "Air", titledSong 2 "Largo"], -1, 1, .order, true⟩
          eventType := "playing" }
      musicVol := 60 }

def quietAnswers : Answers where
  handler := handlerNamed "musicplayer"
  domain := some .musicplayer
  world := quietWorld
  allocated := fun _ => true
  status := .playing
  duration := 200
  positions := fun _ => 0
  strayTimestamp := none

def everyMessage : MosqConfig := ⟨false, [], 0⟩

def remoteCommand (command timestamp : String) : JsonObject :=
  .object [("command", .string command), ("timestamp", .string timestamp)]

def messageOf (payload : String) : MosquittoMessage := ⟨"/app/RSPythonTest", some payload, false⟩

def songInfoMessage : MosquittoMessage :=
  messageOf "\x7b\"command\":\"get_song_info\",\"timestamp\":\"17\"\x7d"

theorem song_info_published :
    ∃ outcome,
      subMessageCallback spacedLibrary (fun _ => remoteCommand "get_song_info" "17")
        (fun _ _ => false) everyMessage quietAnswers songInfoMessage clientWithTwoSongs =
          some outcome ∧
      outcome.2.length = 2 ∧ ∀ publication ∈ outcome.2, PublishesReply publication := by
  refine ⟨_, rfl, rfl, ?_⟩
  apply (replies_published_iff spaced_keeps_apostrophes
    (fun _ => remoteCommand "get_song_info" "17") (fun _ _ => false) everyMessage quietAnswers
    songInfoMessage clientWithTwoSongs).1.mpr _ _ rfl
  rintro ⟨-, received, command, performed, read, named, done, holds⟩
  obtain rfl := Option.some.inj (Option.some.inj read)
  obtain rfl := Option.some.inj named
  obtain rfl := Option.some.inj done
  revert holds
  unfold HoldApostrophe
  decide

def rebootMessage : MosquittoMessage :=
  messageOf "\x7b\"command\":\"ping\",\"timestamp\":\"';reboot;'\"\x7d"

/-- The timestamp of a ping closes the quote, and what follows it is a command of its own. -/
theorem timestamp_reaches_shell :
    ¬ ∀ (library : JsonLibrary) (tokenerParse : String → JsonObject)
        (topicMatchesSub : String → String → Bool) (cfg : MosqConfig) (answers : Answers)
        (message : MosquittoMessage) (client : ClientState)
        (outcome : ClientState × List Publication),
      KeepsApostrophes library →
      subMessageCallback library tokenerParse topicMatchesSub cfg answers message client =
        some outcome →
      ∀ publication ∈ outcome.2, PublishesReply publication := by
  intro always
  have published := always spacedLibrary (fun _ => remoteCommand "ping" "';reboot;'")
    (fun _ _ => false) everyMessage quietAnswers rebootMessage clientWithTwoSongs _
    spaced_keeps_apostrophes rfl _ List.mem_cons_self
  exact absurd ((publish_publishes_iff _).mp published) (by decide)

end Gk7102.SubClient
