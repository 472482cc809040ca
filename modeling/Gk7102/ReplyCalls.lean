import Gk7102.RecordedCalls
import Gk7102.VolumeKeys

/-!
# The texts that the replies are made of

`sub_message_callback` and the functions that build its replies, with every text they
hand to `strlen`, `strdup`, `del_blank` and `json_object_new_string`. A text may be NULL,
an error code that stands for one, or what happens to stand where a call leaves its
argument out. A call that follows anything but a text stops there. The small JSON values
can be had; every other allocation of a reply has its own answer.
-/

namespace Gk7102.ReplyCalls

open Gk7102.DeleteQueue
open Gk7102.IngenicPlayer
open Gk7102.JsonC
open Gk7102.MusicPlayer
open Gk7102.MusicQueue
open Gk7102.RecordedCalls
open Gk7102.SubClient
open Gk7102.VolumeKeys

set_option autoImplicit false

/-- What is passed where a text is expected. -/
inductive Pointer where
  | null
  | errorCode
  | unsupplied (content : Option String)
  | text (text : String)
deriving DecidableEq, Repr

def Pointer.content : Pointer → Option String
  | .null => none
  | .errorCode => none
  | .unsupplied content => content
  | .text content => some content

def Pointer.IsText (pointer : Pointer) : Prop := ∃ text, pointer = .text text

def pointerOf : Option String → Pointer
  | none => .null
  | some text => .text text

inductive TextFunction where
  | strlen
  | strdup
  | delBlank
  | jsonObjectNewString
deriving DecidableEq, Repr

/-- A text that is passed, one that `strdup` or `del_blank` returns, and one that goes out. -/
inductive Event where
  | passed (function : TextFunction) (argument : Pointer)
  | yielded (text : String)
  | published (reply : String)
deriving DecidableEq, Repr

/-- The allocations of one reply: its object, its array and the objects in it, the printed
text, the `calloc` and the `strdup` of it, and the two buffers of `del_blank`. -/
structure ReplyMemory where
  object : Bool
  array : Bool
  songObject : Nat → Bool
  printed : Bool
  counted : Bool
  copied : Bool
  compacted : Bool
  result : Bool

/-- `again` are the copies that a queue command takes of its own, and `dropped` is the
reply it builds for nobody. -/
structure Memory where
  timestamp : Bool
  command : Bool
  timestampAgain : Bool
  commandAgain : Bool
  reply : ReplyMemory
  queue : ReplyMemory
  dropped : ReplyMemory
  publish : Bool
  publishQueue : Bool

section Calls

def strlenCall (argument : Pointer) : Recorded Event Unit := do
  record (.passed .strlen argument)
  match argument.content with
  | none => fault
  | some _ => pure ()

def strdupCall (copied : Bool) (argument : Pointer) : Recorded Event Pointer := do
  record (.passed .strdup argument)
  match argument.content with
  | none => fault
  | some text =>
      if copied then do
        record (.yielded text)
        pure (.text text)
      else pure .null

def newStringCall (argument : Pointer) : Recorded Event JsonObject := do
  record (.passed .jsonObjectNewString argument)
  match argument.content with
  | none => fault
  | some text => pure (.string text)

def delBlankCall (memory : ReplyMemory) (ptr : Pointer) : Recorded Event Pointer := do
  record (.passed .delBlank ptr)
  strlenCall ptr
  if memory.compacted then do
    strlenCall ptr
    if memory.result then
      match ptr.content with
      | none => fault
      | some text =>
          record (.yielded (delBlank text))
          pure (.text (delBlank text))
    else pure .null
  else pure .null

def addMembers : List (String × JsonObject) → Recorded Event Unit
  | [] => pure ()
  | (_, .string text) :: rest => do
      let _ ← newStringCall (.text text)
      addMembers rest
  | _ :: rest => addMembers rest

/-- `json_object_get_string(reply_object)` -/
def printed (library : JsonLibrary) (memory : ReplyMemory) (members : List (String × JsonObject)) :
    Pointer :=
  if memory.printed then .text (library.toJsonString (.object members)) else .null

def getObjectStringCall (library : JsonLibrary) (copied : Bool) (object : String)
    (command : JsonObject) : Recorded Event Pointer :=
  match jsonObjectObjectGetEx command object with
  | none => pure .null
  | some tmp => strdupCall copied (pointerOf (jsonObjectGetString library tmp))

end Calls

section Builders

variable (library : JsonLibrary) (answers : Answers) (memory : ReplyMemory) (player : PlayerState)

def songInfoCall (command timestamp : Pointer) : Recorded Event Pointer :=
  if memory.object then do
    let command ← newStringCall command
    addMembers (getPlayerStatus answers player)
    addMembers (currentSongMembers answers player)
    let timestamp ← newStringCall timestamp
    strdupCall memory.copied (printed library memory (
      [("command", command)] ++ getPlayerStatus answers player ++
        currentSongMembers answers player ++
        [("queue_mode", .int (playModeInt (mozartMusicplayerMusiclistGetPlayMode answers player))),
         ("queue_index", .int (mozartMusicplayerMusiclistGetCurrentIndex answers.handler player)),
         ("queue_num", .int (mozartMusicplayerMusiclistGetLength answers.handler player)),
         ("timestamp", timestamp)]))
  else pure .null

def positionCall (command timestamp : Pointer) : Recorded Event Pointer :=
  if memory.object then do
    let command ← newStringCall command
    let timestamp ← newStringCall timestamp
    strdupCall memory.copied (printed library memory
      [("command", command), ("timestamp", timestamp),
       ("get_current_position", .int (pollPosition answers player 0 0 30)),
       ("get_duration", .int (mozartMusicplayerGetDuration answers player))])
  else pure .null

def volumeCall (musicVol : Int) (command timestamp : Pointer) : Recorded Event Pointer :=
  if memory.object then do
    let command ← newStringCall command
    let timestamp ← newStringCall timestamp
    strdupCall memory.copied (printed library memory
      [("command", command), ("volume", .int musicVol), ("timestamp", timestamp)])
  else pure .null

/-- The loop over the queue: whether it got to the end, as it does when every song has an
object. -/
def addSongs : List Nat → Recorded Event Bool
  | [] => pure true
  | index :: rest =>
      if memory.songObject index then
        match mozartMusicplayerMusiclistGetIndexInfo answers player index with
        | none => addSongs rest
        | some info => do
            addMembers (getSongJsonObject info)
            addSongs rest
      else pure false

def queueIndexes : List Nat :=
  List.range (mozartMusicplayerMusiclistGetLength answers.handler player).toNat

/-- `h5_get_queue`; its error label returns −1. -/
def queueCall (timestamp : Pointer) : Recorded Event Pointer :=
  if memory.object then do
    let command ← newStringCall (.text "get_song_queue")
    let timestamp ← newStringCall timestamp
    if memory.array then
      let complete ← addSongs answers memory player (queueIndexes answers player)
      if complete then
        let reply := printed library memory
          [("command", command), ("timestamp", timestamp),
           ("index", .int (mozartMusicplayerMusiclistGetCurrentIndex answers.handler player)),
           ("songs", .array
              ((queueSongs answers player).map fun info => .object (getSongJsonObject info)))]
        strlenCall reply
        if memory.counted then strdupCall memory.copied reply
        else pure .errorCode
      else pure .errorCode
    else pure .errorCode
  else pure .errorCode

/-- `ingenicplayer_get_queue`, whose reply goes nowhere. -/
def droppedQueueCall : Recorded Event Unit :=
  if memory.object ∧ memory.array then do
    let complete ← addSongs answers memory player (queueIndexes answers player)
    if complete then
      strlenCall (printed library memory
        [("index", .int (mozartMusicplayerMusiclistGetCurrentIndex answers.handler player)),
         ("songs", .array
            ((queueSongs answers player).map fun info => .object (getSongJsonObject info)))])
    else pure ()
  else pure ()

/-- The replies that the callback builds itself: nothing checks the object, and
`json_object_object_add` follows it once the first member is there. -/
def inlineReply (first : Recorded Event (String × JsonObject))
    (middle : List (String × JsonObject)) (timestamp : Pointer) : Recorded Event Pointer := do
  let first ← first
  if memory.object then
    let timestamp ← newStringCall timestamp
    strdupCall memory.copied (printed library memory
      (first :: middle ++ [("timestamp", timestamp)]))
  else fault

def commandMember (command : Pointer) : Recorded Event (String × JsonObject) := do
  let command ← newStringCall command
  pure ("command", command)

end Builders

section QueueCommands

variable (library : JsonLibrary) (answers : Answers)

def copyFieldCall (object : JsonObject) (key : String) : Recorded Event (Option String) :=
  match jsonObjectObjectGetEx object key with
  | none => pure none
  | some value => do
      let copy ← strdupCall (answers.allocated key) (pointerOf (jsonObjectGetString library value))
      pure copy.content

def createSongCall (object : JsonObject) : Recorded Event (Option MusicInfo) :=
  if object.isNull then pure none
  else do
    let id :=
      match jsonObjectObjectGetEx object "song_id" with
      | none => 0
      | some value => jsonObjectGetInt library value
    let musicName ← copyFieldCall library answers object "song_name"
    let musicUrl ← copyFieldCall library answers object "songurl"
    let musicPicture ← copyFieldCall library answers object "picture"
    let albumsName ← copyFieldCall library answers object "albumsname"
    let artistsName ← copyFieldCall library answers object "artists_name"
    let data ← copyFieldCall library answers object "data"
    pure (mozartMusiclistGetInfo (answers.allocated "info") id musicName musicUrl musicPicture
      albumsName artistsName data)

def insertSongCall (array : JsonObject) (player : PlayerState) :
    Recorded Event (Int × PlayerState) :=
  if array.isNull then pure (-1, player)
  else do
    let info ← createSongCall library answers array
    match info with
    | none => pure (-1, player)
    | some song =>
        let outcome := mozartMusicplayerMusiclistInsert answers.handler (some song) player
        pure (outcome.ret, outcome.state)

def insertSongsCall : List JsonObject → PlayerState → Recorded Event PlayerState
  | [], player => pure player
  | array :: rest, player => do
      let inserted ← insertSongCall library answers array player
      insertSongsCall rest inserted.2

/-- A `songs` member that is not an array is followed as one. -/
def songElementsCall (command : JsonObject) : Recorded Event (List JsonObject) :=
  match songElements command with
  | none => fault
  | some elements => pure elements

variable (memory : Memory) (received : Received) (player : PlayerState)

def addQueueCall : Recorded Event PlayerState := do
  let command ← getObjectStringCall library memory.commandAgain "command" received.object
  let timestamp ← getObjectStringCall library memory.timestampAgain "timestamp" received.object
  let elements ← songElementsCall received.object
  let inserted ←
    match elements with
    | [] => pure (-1, player)
    | array :: _ => insertSongCall library answers array player
  let played := mozartMusicplayerPlayIndex answers.world answers.handler inserted.1 inserted.2
  let _ ← songInfoCall library answers memory.dropped played.state command timestamp
  pure played.state

/-- What `ingenicplayer_replace_queue` does with its songs in the queue. An empty queue stops the
player, which follows a NULL handler, and yields NULL. -/
def playInsertedCall : Recorded Event (PlayerState × Pointer) := do
  if mozartMusicplayerMusiclistGetLength answers.handler player ≤ 0 then
    droppedQueueCall library answers memory.dropped player
    match mozartMusicplayerStopPlayback answers.world answers.handler player with
    | none => fault
    | some stopped => pure (stopped.state, .null)
  else
    let played := mozartMusicplayerPlayIndex answers.world answers.handler
      (requestedIndex library received.object) player
    let reply ← songInfoCall library answers memory.reply played.state
      (.text "add_queue_to_play") .null
    pure (played.state, reply)

def replaceQueueCall : Recorded Event (PlayerState × Pointer) := do
  let elements ← songElementsCall received.object
  let inserted ← insertSongsCall library answers elements player
  playInsertedCall library answers memory received inserted

def playQueueCall : Recorded Event (PlayerState × Pointer) := do
  let command ← getObjectStringCall library memory.commandAgain "command" received.object
  let timestamp ← getObjectStringCall library memory.timestampAgain "timestamp" received.object
  let played := ingenicplayerPlayQueue library answers player received.object
  let reply ← songInfoCall library answers memory.reply played command timestamp
  pure (played, reply)

end QueueCommands

/-- The local variables of the callback. -/
structure ReplyLocals where
  sendFlag : Nat
  replyJson : Pointer
  replyJsonX : Pointer
deriving DecidableEq, Repr

section Callback

variable (library : JsonLibrary) (answers : Answers) (memory : Memory) (received : Received)
  (device : Device)

def noReply : ReplyLocals := ⟨0, .null, .null⟩

/-- A branch that sets `reply_json` and a `send_flag` of 1. -/
def oneReply (device : Device) (reply : Recorded Event Pointer) :
    Recorded Event (Device × ReplyLocals) := do
  let reply ← reply
  pure (device, { noReply with sendFlag := 1, replyJson := reply })

def withoutBlanks (memory : ReplyMemory) (reply : Recorded Event Pointer) :
    Recorded Event Pointer := do
  let reply ← reply
  delBlankCall memory reply

/-- The branch of the command, up to the shared tail. `again` is the second domain that a
volume key is told. -/
def branchCalls (again : Option MemoryDomain) :
    Command → Recorded Event (Device × ReplyLocals)
  | .ping =>
      oneReply device (inlineReply library memory.reply (commandMember (.text received.command))
        [] (pointerOf received.timestamp))
  | .previous =>
      let device := mozartPreviousSong answers device
      oneReply device (withoutBlanks memory.reply (songInfoCall library answers memory.reply
        device.player (.text received.command) (pointerOf received.timestamp)))
  | .skip =>
      let device := mozartNextSong answers device
      oneReply device (withoutBlanks memory.reply (songInfoCall library answers memory.reply
        device.player (.text received.command) (pointerOf received.timestamp)))
  | .toggle =>
      let device := mozartPlayPause answers device
      oneReply device (withoutBlanks memory.reply (songInfoCall library answers memory.reply
        device.player (.text received.command) (pointerOf received.timestamp)))
  | .getVolume =>
      oneReply device (withoutBlanks memory.reply (volumeCall library memory.reply
        device.musicVol (.text received.command) (pointerOf received.timestamp)))
  | .setVolume =>
      let volume := getObjectInt library "volume" received.object
      oneReply (mozartVolumeSet answers device volume) (withoutBlanks memory.reply
        (inlineReply library memory.reply (commandMember (.text received.command))
          [("volume", .int volume)] (pointerOf received.timestamp)))
  | .increaseVolume =>
      pure ((mozartVolumeUp answers again device).device, { noReply with sendFlag := 1 })
  | .decreaseVolume =>
      pure ((mozartVolumeDown answers again device).device, { noReply with sendFlag := 1 })
  | .getDeviceInfo => pure (device, { noReply with sendFlag := 1 })
  | .upgradeOta => pure (device, noReply)
  | .getStatus =>
      oneReply device (withoutBlanks memory.reply
        (inlineReply library memory.reply (pure ("status", .int 1)) []
          (pointerOf received.timestamp)))
  | .getSdMusic => pure (device, { noReply with sendFlag := 1 })
  | .getSongInfo => do
      let reply ← withoutBlanks memory.reply (songInfoCall library answers memory.reply
        device.player (.text received.command) (pointerOf received.timestamp))
      let queue ← withoutBlanks memory.queue
        (queueCall library answers memory.queue device.player (pointerOf received.timestamp))
      pure (device, ⟨2, reply, queue⟩)
  | .getPosition =>
      oneReply device (withoutBlanks memory.reply (positionCall library answers memory.reply
        device.player (.text received.command) (pointerOf received.timestamp)))
  | .getSongQueue =>
      oneReply device (withoutBlanks memory.reply
        (queueCall library answers memory.reply device.player (pointerOf received.timestamp)))
  | .addQueueToTail => do
      let player ← addQueueCall library answers memory received device.player
      oneReply (device.withPlayer player) (withoutBlanks memory.reply
        (queueCall library answers memory.reply player (.unsupplied answers.strayTimestamp)))
  | .deleteFromQueue =>
      let player := h5MusiclistDeleteIndex library answers device.player received.object
      oneReply (device.withPlayer player) (withoutBlanks memory.reply
        (queueCall library answers memory.reply player (.unsupplied answers.strayTimestamp)))
  | .addQueueToPlay => do
      let (player, tmp) ← replaceQueueCall library answers memory received device.player
      oneReply (device.withPlayer player) (delBlankCall memory.reply tmp)
  | .playFromQueue => do
      let (player, tmp) ← playQueueCall library answers memory received device.player
      oneReply (device.withPlayer player) (delBlankCall memory.reply tmp)
  | .setQueueMode => pure (device, noReply)
  | .setSeek =>
      let value := getObjectInt library "value" received.object
      let player :=
        (mozartMusicplayerSetSeek answers.world answers.handler value device.player).state
      oneReply (device.withPlayer player) (withoutBlanks memory.reply
        (inlineReply library memory.reply (commandMember (.text received.command))
          [("value", .int value)] (pointerOf received.timestamp)))

/-- One reply is measured and goes out; without a buffer `sprintf` writes to NULL. -/
def publishCall (allocated : Bool) (reply : Pointer) : Recorded Event Unit := do
  strlenCall reply
  match reply.content with
  | none => fault
  | some text => if allocated then record (.published text) else fault

/-- The tail that the branches share. -/
def publishCalls (locals : ReplyLocals) : Recorded Event Unit :=
  if locals.sendFlag = 0 then pure ()
  else do
    publishCall memory.publish locals.replyJson
    if locals.sendFlag = 2 then publishCall memory.publishQueue locals.replyJsonX else pure ()

def handleCalls (again : Option MemoryDomain) (command : Command) : Recorded Event Device := do
  let (device, locals) ← branchCalls library answers memory received device again command
  publishCalls memory locals
  pure device

end Callback

section Messages

variable (library : JsonLibrary) (tokenerParse : String → JsonObject)
  (topicMatchesSub : String → String → Bool) (cfg : MosqConfig) (answers : Answers)
  (memory : Memory) (message : MosquittoMessage)

/-- The payload is parsed as often as it is read; a command that is not copied ends the
callback. -/
def receiveCalls : Recorded Event (Option Received) :=
  match message.payload with
  | none => fault
  | some payload => do
      let object := tokenerParse payload
      let timestamp ← getObjectStringCall library memory.timestamp "timestamp" object
      let command ← getObjectStringCall library memory.command "command" object
      pure (command.content.map fun command => ⟨command, timestamp.content, object⟩)

def messageCalls (again : Option MemoryDomain) (client : ClientState) : Recorded Event Device :=
  if accepted topicMatchesSub cfg message client then do
    let received ← receiveCalls library tokenerParse memory message
    match received with
    | none => pure client.device
    | some received =>
        match commandNames.lookup received.command with
        | none => pure client.device
        | some command =>
            handleCalls library answers memory received client.device again command
  else pure client.device

end Messages

/-! ## What is passed -/

/-- Where a text is expected, a text is passed. -/
def Allowed : Event → Prop
  | .passed _ argument => argument.IsText
  | _ => True

def TextAnd (ok : Prop) (pointer : Pointer) : Prop := pointer.IsText ∧ ok

section Pointers

variable {ok : Prop}

@[simp] theorem text_is_text (text : String) : (Pointer.text text).IsText := ⟨text, rfl⟩

@[simp] theorem null_not_text : ¬ Pointer.null.IsText := by simp [Pointer.IsText]

@[simp] theorem error_code_not_text : ¬ Pointer.errorCode.IsText := by simp [Pointer.IsText]

@[simp] theorem unsupplied_not_text (content : Option String) :
    ¬ (Pointer.unsupplied content).IsText := by simp [Pointer.IsText]

@[simp] theorem pointer_of_is_text (text : Option String) :
    (pointerOf text).IsText ↔ text.isSome := by
  cases text <;> simp [pointerOf]

@[simp] theorem printed_is_text (library : JsonLibrary) (memory : ReplyMemory)
    (members : List (String × JsonObject)) :
    (printed library memory members).IsText ↔ memory.printed := by
  unfold printed
  split <;> simp_all

end Pointers

section Primitives

variable (argument : Pointer) (memory : ReplyMemory) {ok : Prop}

theorem strlen_meets {good : Unit → Prop} :
    Meets Allowed good (strlenCall argument) ↔ argument.IsText ∧ good () := by
  unfold strlenCall
  rw [meets_bind, meets_record]
  apply and_congr_right
  rintro ⟨text, rfl⟩
  exact meets_pure ()

theorem new_string_meets {good : JsonObject → Prop} :
    Meets Allowed good (newStringCall argument) ↔
      ∃ text, argument = .text text ∧ good (.string text) := by
  unfold newStringCall
  rw [meets_bind, meets_record]
  constructor
  · rintro ⟨⟨text, rfl⟩, made⟩
    exact ⟨text, rfl, (meets_pure _).mp made⟩
  · rintro ⟨text, rfl, made⟩
    exact ⟨text_is_text text, (meets_pure _).mpr made⟩

theorem strdup_meets (copied : Bool) {good : Pointer → Prop} :
    Meets Allowed good (strdupCall copied argument) ↔
      ∃ text, argument = .text text ∧ good (if copied then .text text else .null) := by
  unfold strdupCall
  rw [meets_bind, meets_record]
  constructor
  · rintro ⟨⟨text, rfl⟩, made⟩
    refine ⟨text, rfl, ?_⟩
    cases copied <;> simpa [Pointer.content, meets_bind, Allowed] using made
  · rintro ⟨text, rfl, made⟩
    refine ⟨text_is_text text, ?_⟩
    cases copied <;> simpa [Pointer.content, meets_bind, Allowed] using made

theorem strdup_text_and (copied : Bool) :
    Meets Allowed (TextAnd ok) (strdupCall copied argument) ↔
      argument.IsText ∧ copied ∧ ok := by
  rw [strdup_meets]
  cases copied <;> simp [TextAnd, Pointer.IsText]

/-- Both buffers of `del_blank` can be had. -/
def Compacted : Prop := memory.compacted ∧ memory.result

theorem del_blank_text_and :
    Meets Allowed (TextAnd ok) (delBlankCall memory argument) ↔
      argument.IsText ∧ Compacted memory ∧ ok := by
  unfold delBlankCall Compacted
  rw [meets_bind, meets_record]
  apply and_congr_right
  rintro ⟨text, rfl⟩
  rw [meets_bind, strlen_meets]
  cases memory.compacted with
  | false => simp [TextAnd]
  | true =>
      cases memory.result <;>
        simp [TextAnd, meets_bind, strlen_meets, Pointer.content, Allowed]

theorem without_blanks_text_and (reply : Recorded Event Pointer) :
    Meets Allowed (TextAnd ok) (withoutBlanks memory reply) ↔
      Meets Allowed (TextAnd (Compacted memory ∧ ok)) reply := by
  rw [withoutBlanks, meets_bind]
  exact meets_congr fun pointer => del_blank_text_and pointer memory

theorem add_members_done (members : List (String × JsonObject)) :
    Meets Allowed (fun _ => True) (addMembers members) ∧
      (addMembers members).result = some () := by
  induction members using addMembers.induct with
  | case1 => exact ⟨(meets_pure ()).mpr trivial, rfl⟩
  | case2 key text rest ih =>
      constructor
      · rw [addMembers, meets_bind, new_string_meets]
        exact ⟨text, rfl, ih.1⟩
      · exact ih.2
  | case3 head rest notText ih =>
      rw [addMembers]
      · exact ih
      · exact notText

end Primitives

section Builders

variable (library : JsonLibrary) (answers : Answers) (memory : ReplyMemory) (player : PlayerState)
  {ok : Prop}

/-- The object of a reply, its text and the copy of it can be had. -/
def Made : Prop := memory.object ∧ memory.printed ∧ memory.copied

/-- So can the array of the songs, the object of each and the `calloc`. -/
def QueueMade : Prop :=
  Made memory ∧ memory.array ∧ (∀ index ∈ queueIndexes answers player, memory.songObject index) ∧
    memory.counted

theorem exists_text_iff {pointer : Pointer} {holds : Prop} :
    (∃ text, pointer = .text text ∧ holds) ↔ pointer.IsText ∧ holds := by
  simp [Pointer.IsText]

theorem add_members_meets (members : List (String × JsonObject)) {good : Unit → Prop} :
    Meets Allowed good (addMembers members) ↔ good () :=
  meets_done (add_members_done members).1 (add_members_done members).2

theorem song_info_text_and (command timestamp : Pointer) :
    Meets Allowed (TextAnd ok) (songInfoCall library answers memory player command timestamp) ↔
      command.IsText ∧ timestamp.IsText ∧ Made memory ∧ ok := by
  unfold songInfoCall Made
  cases memory.object with
  | false => simp [TextAnd]
  | true =>
      simp only [if_true, meets_bind, new_string_meets, add_members_meets, strdup_text_and,
        printed_is_text, exists_text_iff, true_and, and_assoc]

theorem position_text_and (command timestamp : Pointer) :
    Meets Allowed (TextAnd ok) (positionCall library answers memory player command timestamp) ↔
      command.IsText ∧ timestamp.IsText ∧ Made memory ∧ ok := by
  unfold positionCall Made
  cases memory.object with
  | false => simp [TextAnd]
  | true =>
      simp only [if_true, meets_bind, new_string_meets, strdup_text_and, printed_is_text,
        exists_text_iff, true_and, and_assoc]

theorem volume_text_and (musicVol : Int) (command timestamp : Pointer) :
    Meets Allowed (TextAnd ok) (volumeCall library memory musicVol command timestamp) ↔
      command.IsText ∧ timestamp.IsText ∧ Made memory ∧ ok := by
  unfold volumeCall Made
  cases memory.object with
  | false => simp [TextAnd]
  | true =>
      simp only [if_true, meets_bind, new_string_meets, strdup_text_and, printed_is_text,
        exists_text_iff, true_and, and_assoc]

theorem add_songs_meets (indexes : List Nat) {good : Bool → Prop} :
    Meets Allowed good (addSongs answers memory player indexes) ↔
      good (indexes.all memory.songObject) := by
  induction indexes with
  | nil => exact meets_pure true
  | cons index rest ih =>
      rw [addSongs, List.all_cons]
      cases memory.songObject index with
      | false => exact meets_pure false
      | true =>
          rw [if_pos rfl, Bool.true_and]
          split
          · exact ih
          · rw [meets_bind, add_members_meets, ih]

theorem queue_text_and (timestamp : Pointer) :
    Meets Allowed (TextAnd ok) (queueCall library answers memory player timestamp) ↔
      timestamp.IsText ∧ QueueMade answers memory player ∧ ok := by
  unfold queueCall QueueMade Made
  rw [← List.all_eq_true]
  cases memory.object with
  | false => simp [TextAnd]
  | true =>
      simp only [if_true, meets_bind, new_string_meets]
      cases memory.array with
      | false => simp [TextAnd]
      | true =>
          simp only [if_true, meets_bind, add_songs_meets]
          cases (queueIndexes answers player).all memory.songObject with
          | false => simp [TextAnd]
          | true =>
              simp only [if_true, meets_bind, strlen_meets, printed_is_text]
              cases memory.counted with
              | false => simp [TextAnd]
              | true =>
                  simp only [if_true, strdup_text_and, printed_is_text, exists_text_iff,
                    text_is_text, true_and, and_self_left, and_assoc]

/-- Without an object, `json_object_object_add` stops the process before anything is wrong. -/
theorem inline_text_and {first : Recorded Event (String × JsonObject)}
    {member : String × JsonObject}
    (given : ∀ {good : String × JsonObject → Prop}, Meets Allowed good first ↔ good member)
    (middle : List (String × JsonObject)) (timestamp : Pointer) :
    Meets Allowed (TextAnd ok) (inlineReply library memory first middle timestamp) ↔
      (memory.object → timestamp.IsText ∧ Made memory ∧ ok) := by
  rw [inlineReply, meets_bind, given]
  unfold Made
  cases memory.object with
  | false => simp
  | true =>
      simp only [if_true, meets_bind, new_string_meets, strdup_text_and, printed_is_text,
        exists_text_iff, true_and, true_implies, and_assoc]

theorem command_member_meets (command : String) {good : String × JsonObject → Prop} :
    Meets Allowed good (commandMember (.text command)) ↔ good ("command", .string command) := by
  rw [commandMember, meets_bind, new_string_meets]
  simp

/-- Whether the emptied queue is announced without following NULL. -/
theorem dropped_queue_meets {good : Unit → Prop}
    (empty : mozartMusicplayerMusiclistGetLength answers.handler player ≤ 0) :
    Meets Allowed good (droppedQueueCall library answers memory player) ↔
      (memory.object ∧ memory.array → memory.printed) ∧ good () := by
  have indexes : queueIndexes answers player = [] := by
    rw [queueIndexes, Int.toNat_of_nonpos empty, List.range_zero]
  unfold droppedQueueCall
  split
  · rename_i allocated
    rw [indexes, addSongs, meets_bind, meets_pure, if_pos rfl, strlen_meets, printed_is_text]
    simp [allocated]
  · rename_i missing
    simp [missing]

end Builders

section Queues

variable (library : JsonLibrary) (answers : Answers)

theorem strdup_ends (copied : Bool) (argument : Pointer) :
    Ends Allowed (strdupCall copied argument) := by
  rw [Ends, strdup_meets]
  simp

theorem copy_field_ends (object : JsonObject) (key : String) :
    Ends Allowed (copyFieldCall library answers object key) := by
  unfold copyFieldCall
  split
  · exact ends_pure _
  · exact ends_bind (strdup_ends _ _) fun copy => ends_pure _

theorem create_song_ends (object : JsonObject) :
    Ends Allowed (createSongCall library answers object) := by
  unfold createSongCall
  split
  · exact ends_pure _
  · iterate 6
      apply ends_bind (copy_field_ends library answers object _)
      intro _
    exact ends_pure _

theorem insert_song_ends (array : JsonObject) (player : PlayerState) :
    Ends Allowed (insertSongCall library answers array player) := by
  unfold insertSongCall
  split
  · exact ends_pure _
  · apply ends_bind (create_song_ends library answers array)
    intro info
    cases info <;> exact ends_pure _

theorem insert_songs_ends (elements : List JsonObject) (player : PlayerState) :
    Ends Allowed (insertSongsCall library answers elements player) := by
  induction elements generalizing player with
  | nil => exact ends_pure _
  | cons array rest ih =>
      exact ends_bind (insert_song_ends library answers array player) fun inserted => ih _

theorem song_info_ends (memory : ReplyMemory) (player : PlayerState)
    (command timestamp : Pointer) :
    Ends Allowed (songInfoCall library answers memory player command timestamp) := by
  intro meets
  have wrong : Meets Allowed (TextAnd False)
      (songInfoCall library answers memory player command timestamp) :=
    meets_mono (fun _ => False.elim) meets
  exact ((song_info_text_and library answers memory player command timestamp).mp wrong).2.2.2

def Readable (object : JsonObject) (key : String) : Prop :=
  ∀ value, jsonObjectObjectGetEx object key = some value → value.isNull = false

def heldPointer (copied : Bool) (key : String) (object : JsonObject) : Pointer :=
  match jsonObjectObjectGetEx object key with
  | none => .null
  | some value => if copied then pointerOf (jsonObjectGetString library value) else .null

theorem get_object_string_meets (copied : Bool) (key : String) (object : JsonObject)
    {good : Pointer → Prop} :
    Meets Allowed good (getObjectStringCall library copied key object) ↔
      Readable object key ∧ good (heldPointer library copied key object) := by
  unfold getObjectStringCall heldPointer Readable
  cases found : jsonObjectObjectGetEx object key with
  | none => simp
  | some value =>
      simp only [strdup_meets, Option.some.injEq, forall_eq']
      cases value <;> simp [jsonObjectGetString, pointerOf, JsonObject.isNull]

theorem copy_field_meets (object : JsonObject) (key : String) {good : Option String → Prop} :
    Meets Allowed good (copyFieldCall library answers object key) ↔
      Readable object key ∧
        good (heldPointer library (answers.allocated key) key object).content := by
  unfold copyFieldCall heldPointer Readable
  cases found : jsonObjectObjectGetEx object key with
  | none => simp [Pointer.content]
  | some value =>
      simp only [meets_bind, strdup_meets, Option.some.injEq, forall_eq', meets_pure]
      cases value <;> simp [jsonObjectGetString, pointerOf, JsonObject.isNull]

theorem legible_iff (object : JsonObject) :
    Legible object ↔ Readable object "song_name" ∧ Readable object "songurl" ∧
      Readable object "picture" ∧ Readable object "albumsname" ∧
      Readable object "artists_name" ∧ Readable object "data" := by
  simp [Legible, Readable]

theorem create_song_allowed_iff (object : JsonObject) :
    Meets Allowed (fun _ => True) (createSongCall library answers object) ↔ Legible object := by
  rw [legible_iff]
  unfold createSongCall
  split
  · rename_i null
    cases object with
    | null => simp [Readable, jsonObjectObjectGetEx]
    | _ => simp [JsonObject.isNull] at null
  · simp only [meets_bind, copy_field_meets, meets_pure, and_true]

theorem insert_song_allowed_iff (array : JsonObject) (player : PlayerState) :
    Meets Allowed (fun _ => True) (insertSongCall library answers array player) ↔
      Legible array := by
  unfold insertSongCall
  split
  · rename_i null
    cases array with
    | null => simp [Legible, jsonObjectObjectGetEx]
    | _ => simp [JsonObject.isNull] at null
  · rw [← create_song_allowed_iff library answers array, meets_bind]
    apply meets_congr
    intro info
    cases info <;> simp

theorem insert_song_refused (refused : answers.handler = none) (array : JsonObject)
    (player : PlayerState) {good : Int × PlayerState → Prop} (kept : ∀ ret, good (ret, player)) :
    Meets Allowed good (insertSongCall library answers array player) ↔ Legible array := by
  rw [← insert_song_allowed_iff library answers array player]
  constructor
  · exact meets_mono fun _ _ => trivial
  · intro allowed
    unfold insertSongCall at *
    split
    · exact (meets_pure _).mpr (kept _)
    · rename_i present
      rw [if_neg present, meets_bind] at allowed
      rw [meets_bind]
      apply meets_mono _ allowed
      intro info _
      cases info with
      | none => exact (meets_pure _).mpr (kept _)
      | some song =>
          apply (meets_pure _).mpr
          simp only [mozartMusicplayerMusiclistInsert, guarded, checkHandlerUuid,
            playerHandlerOf, refused, Option.bind_none]
          exact kept _

theorem insert_songs_refused (refused : answers.handler = none) (elements : List JsonObject)
    (player : PlayerState) {good : PlayerState → Prop} (kept : good player) :
    Meets Allowed good (insertSongsCall library answers elements player) ↔
      ∀ element ∈ elements, Legible element := by
  induction elements with
  | nil => simp [insertSongsCall, kept]
  | cons array rest ih =>
      rw [insertSongsCall, meets_bind, List.forall_mem_cons, ← ih]
      constructor
      · intro meets
        have first := (insert_song_allowed_iff library answers array player).mp
          (meets_mono (fun _ _ => trivial) meets)
        have same : Meets Allowed (fun inserted => inserted.2 = player)
            (insertSongCall library answers array player) :=
          (insert_song_refused library answers refused array player fun _ => rfl).mpr first
        obtain ⟨inserted, later, unchanged⟩ :=
          exists_of_meets (insert_song_ends library answers array player) meets same
        exact ⟨first, unchanged ▸ later⟩
      · rintro ⟨first, later⟩
        exact (insert_song_refused library answers refused array player fun _ => later).mpr first

end Queues

/-! ## The branches -/

/-- What the tail follows is a text. -/
def SafeLocals (done : Device × ReplyLocals) : Prop :=
  (done.2.sendFlag ≠ 0 → done.2.replyJson.IsText) ∧
    (done.2.sendFlag = 2 → done.2.replyJsonX.IsText)

section Branches

variable (library : JsonLibrary) (answers : Answers) (memory : Memory) (received : Received)
  (device : Device) (again : Option MemoryDomain)

/-- When a branch passes only texts and leaves the tail a text. A branch that builds its
reply object itself may also be stopped for want of it; three of the queue commands pass
what is no text as soon as they get to their reply. -/
def Answered : Command → Prop
  | .ping => memory.reply.object → received.timestamp.isSome ∧ Made memory.reply
  | .previous | .skip | .toggle | .getVolume | .getPosition =>
      received.timestamp.isSome ∧ Made memory.reply ∧ Compacted memory.reply
  | .setVolume | .getStatus | .setSeek =>
      memory.reply.object →
        received.timestamp.isSome ∧ Made memory.reply ∧ Compacted memory.reply
  | .getSongInfo =>
      received.timestamp.isSome ∧ Made memory.reply ∧ Compacted memory.reply ∧
        QueueMade answers memory.queue device.player ∧ Compacted memory.queue
  | .getSongQueue =>
      received.timestamp.isSome ∧ QueueMade answers memory.reply device.player ∧
        Compacted memory.reply
  | .playFromQueue =>
      (jsonObjectObjectGetEx received.object "timestamp").isSome ∧ memory.timestampAgain ∧
        memory.commandAgain ∧ Made memory.reply ∧ Compacted memory.reply
  | .upgradeOta | .setQueueMode => True
  | .increaseVolume | .decreaseVolume | .getDeviceInfo | .getSdMusic | .deleteFromQueue => False
  | .addQueueToTail => songElements received.object = none
  | .addQueueToPlay =>
      ∀ elements, songElements received.object = some elements →
        answers.handler = none ∧ (∀ element ∈ elements, Legible element) ∧
          (memory.dropped.object ∧ memory.dropped.array → memory.dropped.printed)

theorem one_reply_meets (reply : Recorded Event Pointer) :
    Meets Allowed SafeLocals (oneReply device reply) ↔ Meets Allowed (TextAnd True) reply := by
  rw [oneReply, meets_bind]
  apply meets_congr
  intro pointer
  simp [SafeLocals, TextAnd]

theorem add_queue_meets (player : PlayerState) (command : Readable received.object "command")
    (timestamp : Readable received.object "timestamp") :
    Meets Allowed (fun _ => False) (addQueueCall library answers memory received player) ↔
      songElements received.object = none := by
  unfold addQueueCall songElementsCall
  simp only [meets_bind, get_object_string_meets, command, timestamp, true_and]
  cases songElements received.object with
  | none => simp
  | some elements =>
      simp only [meets_pure, reduceCtorEq, iff_false]
      have reply : ∀ inserted : Int × PlayerState, Ends Allowed (do
          let _ ← songInfoCall library answers memory.dropped
            (mozartMusicplayerPlayIndex answers.world answers.handler inserted.1 inserted.2).state
            (heldPointer library memory.commandAgain "command" received.object)
            (heldPointer library memory.timestampAgain "timestamp" received.object)
          pure (mozartMusicplayerPlayIndex answers.world answers.handler inserted.1
            inserted.2).state) :=
        fun inserted => ends_bind (song_info_ends library answers memory.dropped _ _ _)
          fun _ => ends_pure _
      cases elements with
      | nil => exact ends_bind (ends_pure _) reply
      | cons array rest => exact ends_bind (insert_song_ends library answers array player) reply

theorem held_is_text (copied : Bool) (key : String) (object : JsonObject)
    (readable : Readable object key) :
    (heldPointer library copied key object).IsText ↔
      (jsonObjectObjectGetEx object key).isSome ∧ copied := by
  unfold heldPointer Readable at *
  cases found : jsonObjectObjectGetEx object key with
  | none => simp
  | some value =>
      have present := readable value found
      cases copied with
      | false => simp
      | true => cases value <;> simp_all [jsonObjectGetString, JsonObject.isNull]

theorem play_queue_meets (player : PlayerState) {ok : Prop}
    (named : jsonObjectObjectGetEx received.object "command" = some (.string received.command))
    (timestamp : Readable received.object "timestamp") :
    Meets Allowed (fun result => TextAnd ok result.2)
        (playQueueCall library answers memory received player) ↔
      (jsonObjectObjectGetEx received.object "timestamp").isSome ∧ memory.timestampAgain ∧
        memory.commandAgain ∧ Made memory.reply ∧ ok := by
  have command : Readable received.object "command" := by simp [Readable, named, JsonObject.isNull]
  unfold playQueueCall
  simp only [meets_bind, get_object_string_meets, command, timestamp, true_and, meets_pure]
  apply (song_info_text_and library answers memory.reply _ _ _).trans
  rw [held_is_text _ _ _ _ command, held_is_text _ _ _ _ timestamp, named]
  simp only [Option.isSome_some, true_and]
  tauto

theorem inserted_meets_iff {player : PlayerState} {ok : Prop} :
    Meets Allowed (fun result => TextAnd ok result.2)
        (playInsertedCall library answers memory received player) ↔
      answers.handler = none ∧
        (memory.dropped.object ∧ memory.dropped.array → memory.dropped.printed) := by
  unfold playInsertedCall
  split
  · rename_i empty
    rw [meets_bind, dropped_queue_meets library answers memory.dropped player empty, and_comm]
    apply and_congr_left
    intro _
    cases answers.handler with
    | none => simp [mozartMusicplayerStopPlayback]
    | some handler => simp [mozartMusicplayerStopPlayback, TextAnd]
  · rename_i filled
    have present : answers.handler ≠ none := by
      rintro absent
      simp [mozartMusicplayerMusiclistGetLength, checkHandlerUuid, playerHandlerOf, absent] at filled
    simp only [meets_bind, meets_pure]
    apply iff_of_false
    · intro meets
      have wrong := (song_info_text_and library answers memory.reply _ _ _).mp meets
      exact null_not_text wrong.2.1
    · exact fun both => present both.1

theorem replace_queue_meets (player : PlayerState) {ok : Prop} :
    Meets Allowed (fun result => TextAnd ok result.2)
        (replaceQueueCall library answers memory received player) ↔
      ∀ elements, songElements received.object = some elements →
        answers.handler = none ∧ (∀ element ∈ elements, Legible element) ∧
          (memory.dropped.object ∧ memory.dropped.array → memory.dropped.printed) := by
  unfold replaceQueueCall songElementsCall
  rw [meets_bind]
  cases songElements received.object with
  | none => simp
  | some elements =>
      rw [meets_pure, meets_bind, meets_congr fun inserted =>
        inserted_meets_iff library answers memory received]
      simp only [Option.some.injEq, forall_eq']
      constructor
      · intro meets
        obtain ⟨inserted, ⟨refused, announced⟩, -⟩ :=
          exists_of_meets (insert_songs_ends library answers elements player) meets meets
        refine ⟨refused, ?_, announced⟩
        exact (insert_songs_refused library answers refused elements player trivial).mp
          (meets_mono (fun _ _ => trivial) meets)
      · rintro ⟨refused, legible, announced⟩
        exact (insert_songs_refused library answers refused elements player
          ⟨refused, announced⟩).mpr legible

/-- The queue is sent behind the song. -/
theorem queue_behind_meets (reply : Pointer) :
    Meets Allowed SafeLocals (do
      let queue ← withoutBlanks memory.queue (queueCall library answers memory.queue
        device.player (pointerOf received.timestamp))
      pure (device, ⟨2, reply, queue⟩)) ↔
    TextAnd (received.timestamp.isSome ∧ QueueMade answers memory.queue device.player ∧
      Compacted memory.queue) reply := by
  have both : ∀ queue : Pointer,
      Meets Allowed SafeLocals (pure (device, ⟨2, reply, queue⟩)) ↔
        TextAnd reply.IsText queue := by
    simp [SafeLocals, TextAnd, and_comm]
  rw [meets_bind, meets_congr both]
  apply (without_blanks_text_and memory.queue _).trans
  rw [queue_text_and, pointer_of_is_text, TextAnd]
  tauto

theorem branch_meets_iff
    (named : jsonObjectObjectGetEx received.object "command" = some (.string received.command))
    (timestamp : Readable received.object "timestamp") (command : Command) :
    Meets Allowed SafeLocals (branchCalls library answers memory received device again command) ↔
      Answered answers memory received device command := by
  have given : ∀ {good : String × JsonObject → Prop},
      Meets Allowed good (commandMember (.text received.command)) ↔
        good ("command", .string received.command) := command_member_meets received.command
  have text : (Pointer.text received.command).IsText := text_is_text received.command
  have delivered : ∀ (reply : ReplyMemory) (result : PlayerState × Pointer),
      Meets Allowed SafeLocals
          (oneReply (device.withPlayer result.1) (delBlankCall reply result.2)) ↔
        TextAnd (Compacted reply ∧ True) result.2 :=
    fun reply result => (one_reply_meets _ _).trans (del_blank_text_and result.2 reply)
  cases command with
  | ping =>
      rw [branchCalls, one_reply_meets, inline_text_and library memory.reply given]
      simp [Answered]
  | previous | skip | toggle =>
      simp only [branchCalls, one_reply_meets, without_blanks_text_and, song_info_text_and,
        pointer_of_is_text, text, true_and, and_true, Answered]
  | getVolume =>
      simp only [branchCalls, one_reply_meets, without_blanks_text_and, volume_text_and,
        pointer_of_is_text, text, true_and, and_true, Answered]
  | getPosition =>
      simp only [branchCalls, one_reply_meets, without_blanks_text_and, position_text_and,
        pointer_of_is_text, text, true_and, and_true, Answered]
  | setVolume | setSeek =>
      simp only [branchCalls, one_reply_meets, without_blanks_text_and,
        inline_text_and library memory.reply given, pointer_of_is_text, and_true, Answered]
  | getStatus =>
      simp only [branchCalls, one_reply_meets, without_blanks_text_and,
        inline_text_and library memory.reply (meets_pure _), pointer_of_is_text, and_true,
        Answered]
  | increaseVolume | decreaseVolume | getDeviceInfo | getSdMusic =>
      simp [branchCalls, SafeLocals, Answered, noReply]
  | upgradeOta | setQueueMode => simp [branchCalls, SafeLocals, Answered, noReply]
  | getSongInfo =>
      rw [branchCalls, meets_bind,
        meets_congr (queue_behind_meets library answers memory received device)]
      apply (without_blanks_text_and memory.reply _).trans
      rw [song_info_text_and, pointer_of_is_text, Answered]
      tauto
  | getSongQueue =>
      simp only [branchCalls, one_reply_meets, without_blanks_text_and, queue_text_and,
        pointer_of_is_text, and_true, Answered]
  | addQueueToTail =>
      have never : ∀ player : PlayerState,
          Meets Allowed SafeLocals (oneReply (device.withPlayer player)
            (withoutBlanks memory.reply (queueCall library answers memory.reply player
              (.unsupplied answers.strayTimestamp)))) ↔ False := by
        simp [one_reply_meets, without_blanks_text_and, queue_text_and]
      rw [branchCalls, meets_bind, meets_congr never]
      apply add_queue_meets
      · simp [Readable, named, JsonObject.isNull]
      · exact timestamp
  | deleteFromQueue =>
      simp [branchCalls, one_reply_meets, without_blanks_text_and, queue_text_and, Answered]
  | addQueueToPlay =>
      rw [branchCalls, meets_bind, meets_congr (delivered memory.reply)]
      exact replace_queue_meets library answers memory received device.player
  | playFromQueue =>
      rw [branchCalls, meets_bind, meets_congr (delivered memory.reply)]
      apply (play_queue_meets library answers memory received device.player named timestamp).trans
      rw [and_true, Answered]

end Branches

/-! ## Where a reply comes from -/

/-- The text is one that `strdup` or `del_blank` returned to the branch. -/
def Produced (branch : Recorded Event (Device × ReplyLocals)) (reply : Pointer) : Prop :=
  ∃ text, reply = .text text ∧ .yielded text ∈ branch.events

/-- A text that a call returns was made by it. -/
def Yields (reply : Recorded Event Pointer) : Prop :=
  ∀ text, reply.result = some (.text text) → .yielded text ∈ reply.events

def YieldsLocals (branch : Recorded Event (Device × ReplyLocals)) : Prop :=
  ∀ done, branch.result = some done → ∀ text,
    done.2.replyJson = .text text ∨ done.2.replyJsonX = .text text → .yielded text ∈ branch.events

section Origin

theorem yields_bind {α : Type} {call : Recorded Event α} {later : α → Recorded Event Pointer}
    (last : ∀ value, Yields (later value)) : Yields (call >>= later) := by
  intro text returned
  rw [bind_result] at returned
  obtain ⟨value, reached, ended⟩ := Option.bind_eq_some_iff.mp returned
  exact mem_bind_events.mpr (.inr ⟨value, reached, last value text ended⟩)

theorem yields_locals_bind {α : Type} {call : Recorded Event α}
    {later : α → Recorded Event (Device × ReplyLocals)}
    (last : ∀ value, YieldsLocals (later value)) : YieldsLocals (call >>= later) := by
  intro done returned text held
  rw [bind_result] at returned
  obtain ⟨value, reached, ended⟩ := Option.bind_eq_some_iff.mp returned
  exact mem_bind_events.mpr (.inr ⟨value, reached, last value done ended text held⟩)

theorem yields_fault : Yields fault := by simp [Yields]

theorem yields_null : Yields (pure .null) := by simp [Yields]

theorem yields_strdup (copied : Bool) (argument : Pointer) : Yields (strdupCall copied argument) := by
  apply yields_bind
  intro _
  cases argument.content with
  | none => exact yields_fault
  | some text =>
      cases copied with
      | false => exact yields_null
      | true =>
          intro returned same
          obtain rfl := Pointer.text.inj (Option.some.inj same)
          exact mem_bind_events.mpr (.inl List.mem_cons_self)

theorem yields_del_blank (memory : ReplyMemory) (ptr : Pointer) :
    Yields (delBlankCall memory ptr) := by
  apply yields_bind
  intro _
  apply yields_bind
  intro _
  cases memory.compacted with
  | false => exact yields_null
  | true =>
      apply yields_bind
      intro _
      cases memory.result with
      | false => exact yields_null
      | true =>
          cases ptr.content with
          | none => exact yields_fault
          | some text =>
              intro returned same
              obtain rfl := Pointer.text.inj (Option.some.inj same)
              exact mem_bind_events.mpr (.inl List.mem_cons_self)

theorem yields_without_blanks (memory : ReplyMemory) (reply : Recorded Event Pointer) :
    Yields (withoutBlanks memory reply) :=
  yields_bind (yields_del_blank memory)

theorem yields_inline (library : JsonLibrary) (memory : ReplyMemory)
    (first : Recorded Event (String × JsonObject)) (middle : List (String × JsonObject))
    (timestamp : Pointer) : Yields (inlineReply library memory first middle timestamp) := by
  apply yields_bind
  intro member
  split
  · exact yields_bind fun stamp => yields_strdup memory.copied _
  · exact yields_fault

theorem yields_one_reply (device : Device) {reply : Recorded Event Pointer} (yields : Yields reply) :
    YieldsLocals (oneReply device reply) := by
  intro done returned text held
  rw [oneReply, bind_result] at returned
  obtain ⟨pointer, reached, ended⟩ := Option.bind_eq_some_iff.mp returned
  obtain rfl := Option.some.inj ended
  have same : pointer = .text text := by simpa [noReply] using held
  rw [same] at reached
  exact mem_bind_events.mpr (.inl (yields text reached))

theorem yields_no_text (device : Device) (sendFlag : Nat) :
    YieldsLocals (pure (device, { noReply with sendFlag := sendFlag })) := by
  intro done returned text held
  obtain rfl := Option.some.inj returned
  simp [noReply] at held

variable (library : JsonLibrary) (answers : Answers) (memory : Memory) (received : Received)
  (device : Device) (again : Option MemoryDomain)

theorem branch_yields (command : Command) :
    YieldsLocals (branchCalls library answers memory received device again command) := by
  cases command with
  | ping => exact yields_one_reply _ (yields_inline library memory.reply _ _ _)
  | previous | skip | toggle | getVolume | getPosition | getSongQueue | deleteFromQueue
  | setVolume | getStatus | setSeek => exact yields_one_reply _ (yields_without_blanks _ _)
  | increaseVolume | decreaseVolume | getDeviceInfo | getSdMusic => exact yields_no_text _ 1
  | upgradeOta | setQueueMode => exact yields_no_text _ 0
  | addQueueToTail =>
      exact yields_locals_bind fun player => yields_one_reply _ (yields_without_blanks _ _)
  | addQueueToPlay | playFromQueue =>
      exact yields_locals_bind fun result => yields_one_reply _ (yields_del_blank _ _)
  | getSongInfo =>
      intro done returned text held
      rw [branchCalls, bind_result] at returned
      obtain ⟨reply, replied, rest⟩ := Option.bind_eq_some_iff.mp returned
      rw [bind_result] at rest
      obtain ⟨queue, queued, ended⟩ := Option.bind_eq_some_iff.mp rest
      obtain rfl := Option.some.inj ended
      rcases held with same | same
      · obtain rfl : reply = .text text := same
        exact mem_bind_events.mpr (.inl (yields_without_blanks _ _ text replied))
      · obtain rfl : queue = .text text := same
        refine mem_bind_events.mpr (.inr ⟨reply, replied, ?_⟩)
        exact mem_bind_events.mpr (.inl (yields_without_blanks _ _ text queued))

end Origin

/-! ## Whole messages -/

section Tail

variable (library : JsonLibrary) (answers : Answers) (memory : Memory) (received : Received)
  (device : Device) (again : Option MemoryDomain)

theorem publish_meets {reply : Pointer} (text : reply.IsText) (allocated : Bool) :
    Meets Allowed (fun _ => True) (publishCall allocated reply) := by
  obtain ⟨content, rfl⟩ := text
  rw [publishCall, meets_bind, strlen_meets]
  cases allocated <;> simp [Pointer.content, Allowed]

theorem tail_meets {done : Device × ReplyLocals} (safe : SafeLocals done) :
    Meets Allowed (fun _ => True) (publishCalls memory done.2) := by
  unfold publishCalls
  split
  · simp
  · rename_i flagged
    rw [meets_bind]
    apply meets_mono _ (publish_meets (safe.1 flagged) memory.publish)
    intro _ _
    split
    · rename_i twice
      exact publish_meets (safe.2 twice) memory.publishQueue
    · simp

theorem handle_meets_of_branch {command : Command}
    (safe : Meets Allowed SafeLocals
      (branchCalls library answers memory received device again command)) :
    Meets Allowed (fun _ => True)
      (handleCalls library answers memory received device again command) := by
  rw [handleCalls, meets_bind]
  apply meets_mono _ safe
  intro done safeLocals
  rw [meets_bind]
  exact meets_mono (fun _ _ => (meets_pure _).mpr trivial) (tail_meets memory safeLocals)

end Tail

section Sound

variable (library : JsonLibrary) (tokenerParse : String → JsonObject)
  (topicMatchesSub : String → String → Bool) (cfg : MosqConfig) (answers : Answers)
  (memory : Memory) (message : MosquittoMessage) (again : Option MemoryDomain)
  (client : ClientState)

/-- Nothing but texts is passed while the message is handled, and what the tail is to publish
was made by the branch of its command. -/
structure RepliesSound : Prop where
  passed : ∀ function argument,
    .passed function argument ∈
        (messageCalls library tokenerParse topicMatchesSub cfg answers memory message again
          client).events →
      argument.IsText
  produced : accepted topicMatchesSub cfg message client = true → ∀ received command done,
    (receiveCalls library tokenerParse memory message).result = some (some received) →
    commandNames.lookup received.command = some command →
    (branchCalls library answers memory received client.device again command).result =
      some done →
    (done.2.sendFlag ≠ 0 →
        Produced (branchCalls library answers memory received client.device again command)
          done.2.replyJson) ∧
      (done.2.sendFlag = 2 →
        Produced (branchCalls library answers memory received client.device again command)
          done.2.replyJsonX)

/-- The command as the callback holds it. -/
def heldCommand (object : JsonObject) (command : String) : Received :=
  ⟨command, (heldPointer library memory.timestamp "timestamp" object).content, object⟩

theorem passed_iff_meets {α : Type} (call : Recorded Event α) :
    (∀ function argument, .passed function argument ∈ call.events → argument.IsText) ↔
      Meets Allowed (fun _ => True) call := by
  constructor
  · intro every
    refine ⟨fun event inside => ?_, fun _ _ => trivial⟩
    cases event with
    | passed function argument => exact every function argument inside
    | yielded text => trivial
    | published reply => trivial
  · exact fun meets function argument inside => meets.1 _ inside

variable {payload command : String} (given : message.payload = some payload)
  (named : jsonObjectObjectGetEx (tokenerParse payload) "command" = some (.string command))

include given named

theorem receive_meets {good : Option Received → Prop} :
    Meets Allowed good (receiveCalls library tokenerParse memory message) ↔
      Readable (tokenerParse payload) "timestamp" ∧
        good (if memory.command then some (heldCommand library memory (tokenerParse payload) command)
          else none) := by
  have readable : Readable (tokenerParse payload) "command" := by
    simp [Readable, named, JsonObject.isNull]
  unfold receiveCalls
  simp only [given, meets_bind, get_object_string_meets, readable, meets_pure, true_and]
  simp only [heldPointer, named, heldCommand, jsonObjectGetString, pointerOf]
  cases memory.command <;> simp [Pointer.content]

theorem receive_result (readable : Readable (tokenerParse payload) "timestamp") :
    (receiveCalls library tokenerParse memory message).result =
      some (if memory.command then some (heldCommand library memory (tokenerParse payload) command)
        else none) := by
  have ends : Ends Allowed (receiveCalls library tokenerParse memory message) := by
    rw [Ends, receive_meets library tokenerParse memory message given named]
    simp
  obtain ⟨received, reached, same⟩ := ends_with ends
    ((receive_meets library tokenerParse memory message given named).mpr ⟨readable, rfl⟩)
  rw [reached, same]

theorem message_meets (ok : accepted topicMatchesSub cfg message client = true) :
    Meets Allowed (fun _ => True)
        (messageCalls library tokenerParse topicMatchesSub cfg answers memory message again
          client) ↔
      Readable (tokenerParse payload) "timestamp" ∧ (memory.command = true → ∀ branch,
        commandNames.lookup command = some branch →
        Meets Allowed (fun _ => True) (handleCalls library answers memory
          (heldCommand library memory (tokenerParse payload) command) client.device again
          branch)) := by
  rw [messageCalls, if_pos ok, meets_bind,
    receive_meets library tokenerParse memory message given named]
  apply and_congr_right
  intro _
  cases memory.command with
  | false => simp
  | true =>
      simp only [if_true, true_implies, heldCommand]
      cases commandNames.lookup command with
      | none => simp
      | some branch => simp

end Sound

/-- The texts of a message are in order exactly when its timestamp is not the JSON null and
its command, if it is copied and known, is answered. -/
theorem replies_sound_iff (library : JsonLibrary) (tokenerParse : String → JsonObject)
    (topicMatchesSub : String → String → Bool) (cfg : MosqConfig) (answers : Answers)
    (memory : Memory) (message : MosquittoMessage) (again : Option MemoryDomain)
    (client : ClientState) (payload command : String) (given : message.payload = some payload)
    (named : jsonObjectObjectGetEx (tokenerParse payload) "command" = some (.string command)) :
    RepliesSound library tokenerParse topicMatchesSub cfg answers memory message again client ↔
      (accepted topicMatchesSub cfg message client = true →
        Readable (tokenerParse payload) "timestamp" ∧
          (memory.command = true → ∀ branch, commandNames.lookup command = some branch →
            Answered answers memory (heldCommand library memory (tokenerParse payload) command)
              client.device branch)) := by
  have held := receive_result library tokenerParse memory message given named
  have passed := message_meets library tokenerParse topicMatchesSub cfg answers memory message
    again client given named
  have answered := branch_meets_iff library answers memory
    (heldCommand library memory (tokenerParse payload) command) client.device again named
  have yields := branch_yields library answers memory
    (heldCommand library memory (tokenerParse payload) command) client.device again
  constructor
  · intro sound ok
    obtain ⟨readable, handled⟩ := (passed ok).mp ((passed_iff_meets _).mp sound.passed)
    refine ⟨readable, fun copied branch known => (answered readable branch).mp ?_⟩
    have meets := handled copied branch known
    rw [handleCalls, meets_bind] at meets
    refine ⟨meets.1, fun done reached => ?_⟩
    have read := held readable
    rw [if_pos copied] at read
    obtain ⟨first, second⟩ := sound.produced ok _ branch done read known reached
    constructor
    · intro flagged
      obtain ⟨text, same, -⟩ := first flagged
      exact ⟨text, same⟩
    · intro twice
      obtain ⟨text, same, -⟩ := second twice
      exact ⟨text, same⟩
  · intro condition
    constructor
    · rw [passed_iff_meets]
      by_cases ok : accepted topicMatchesSub cfg message client = true
      · obtain ⟨readable, every⟩ := condition ok
        refine (passed ok).mpr ⟨readable, fun copied branch known => ?_⟩
        exact handle_meets_of_branch library answers memory _ client.device again
          ((answered readable branch).mpr (every copied branch known))
      · rw [messageCalls, if_neg ok]
        simp
    · intro ok received branch done read known reached
      obtain ⟨readable, every⟩ := condition ok
      cases copied : memory.command with
      | false =>
          rw [held readable, copied] at read
          cases read
      | true =>
          rw [held readable, if_pos copied] at read
          obtain rfl := Option.some.inj (Option.some.inj read)
          have safe := ((answered readable branch).mpr (every copied branch known)).2 done reached
          constructor
          · intro flagged
            obtain ⟨text, same⟩ := safe.1 flagged
            exact ⟨text, same, yields branch done reached text (.inl same)⟩
          · intro twice
            obtain ⟨text, same⟩ := safe.2 twice
            exact ⟨text, same, yields branch done reached text (.inr same)⟩

def plentyForReply : ReplyMemory := ⟨true, true, fun _ => true, true, true, true, true, true⟩

def plenty : Memory :=
  ⟨true, true, true, true, plentyForReply, plentyForReply, plentyForReply, true, true⟩

/-- With memory for everything, a question for the song and the queue is answered. -/
theorem song_info_replies_sound :
    RepliesSound spacedLibrary (fun _ => remoteCommand "get_song_info" "17") (fun _ _ => false)
      everyMessage quietAnswers plenty songInfoMessage (some .musicplayer) clientWithTwoSongs := by
  apply (replies_sound_iff spacedLibrary (fun _ => remoteCommand "get_song_info" "17")
    (fun _ _ => false) everyMessage quietAnswers plenty songInfoMessage (some .musicplayer)
    clientWithTwoSongs _ "get_song_info" rfl rfl).mpr
  intro _
  constructor
  · intro value found
    obtain rfl := Option.some.inj found
    rfl
  · intro _ branch known
    obtain rfl := Option.some.inj known
    have made : Made plentyForReply := ⟨rfl, rfl, rfl⟩
    have compacted : Compacted plentyForReply := ⟨rfl, rfl⟩
    exact ⟨rfl, made, compacted, ⟨made, rfl, fun _ _ => rfl, rfl⟩, compacted⟩

def pingMessage : MosquittoMessage := messageOf "\x7b\"command\":\"ping\"\x7d"

/-- A ping without a timestamp makes a text of NULL. -/
theorem ping_passes_null :
    ¬ ∀ (library : JsonLibrary) (tokenerParse : String → JsonObject)
        (topicMatchesSub : String → String → Bool) (cfg : MosqConfig) (answers : Answers)
        (memory : Memory) (message : MosquittoMessage) (again : Option MemoryDomain)
        (client : ClientState) (payload command : String),
      message.payload = some payload →
      jsonObjectObjectGetEx (tokenerParse payload) "command" = some (.string command) →
      RepliesSound library tokenerParse topicMatchesSub cfg answers memory message again
        client := by
  intro always
  have sound := always spacedLibrary (fun _ => .object [("command", .string "ping")])
    (fun _ _ => false) everyMessage quietAnswers plenty pingMessage (some .musicplayer)
    clientWithTwoSongs _ "ping" rfl rfl
  apply null_not_text
  apply sound.passed .jsonObjectNewString
  decide

end Gk7102.ReplyCalls
