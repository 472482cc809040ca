import Mathlib.Algebra.Group.Nat.Defs
import Mathlib.Data.List.Forall2
import Gk7102.ByteBlocks

/-!
# Commands to the player server

A `player_command` is one memory block: the header fields at fixed offsets, then
the parameter union, whose string member runs to the end of the allocation.
`send_cmd` writes as many bytes of the block as its own `total_size` says, and
`recv_cmd` trusts that prefix. Allocations succeed.
-/

namespace Gk7102.PlayerCommand

open ByteBlocks

set_option autoImplicit false

inductive CmdType where
  | playUrl | cacheUrl | aoSwitch | startCh | stopCh | doResume | doPause | doStop | doSeek
  | setVolume | doStopall | doPauseall | doResumeall | getStatus | getUrl | getPos | getDuration
  | getUuid | getSnapshot | killMplayer | waitRelease
deriving DecidableEq, Repr

/-- The enumerators count from `PLAY_URL = 1`. -/
def CmdType.all : List CmdType :=
  [.playUrl, .cacheUrl, .aoSwitch, .startCh, .stopCh, .doResume, .doPause, .doStop, .doSeek,
    .setVolume, .doStopall, .doPauseall, .doResumeall, .getStatus, .getUrl, .getPos,
    .getDuration, .getUuid, .getSnapshot, .killMplayer, .waitRelease]

def CmdType.code (type : CmdType) : BitVec 32 := BitVec.ofNat 32 (CmdType.all.idxOf type + 1)

def CmdType.ofCode (code : BitVec 32) : Option CmdType :=
  if code = 0 then none else CmdType.all[code.toNat - 1]?

@[simp] theorem of_code_code (type : CmdType) : CmdType.ofCode type.code = some type := by
  cases type <;> rfl

/-- The member of the parameter union that a type of command uses. -/
inductive ParamKind where
  | none | text | needFeadback | word
deriving DecidableEq, Repr

def CmdType.paramKind : CmdType → ParamKind
  | .playUrl | .cacheUrl | .aoSwitch => .text
  | .startCh | .doResume | .doPause | .doStop | .getStatus | .getUrl | .getPos | .getDuration
  | .getUuid | .getSnapshot | .killMplayer => .none
  | .stopCh | .doStopall | .doPauseall | .doResumeall => .needFeadback
  | .doSeek | .setVolume | .waitRelease => .word

/-- The labels of the switch; none of them is its default branch. -/
def paramKindOf (code : BitVec 32) : Option ParamKind := (CmdType.ofCode code).map CmdType.paramKind

/-- A `void *` argument: the word itself, and the C string at that address, which
is read only where the command takes a string. -/
structure Arg where
  word : BitVec 32
  text : CString

/-- What `create_player_command` is called with. A NULL uuid is `none`. -/
structure Request where
  uuid : Option CString
  ch : BitVec 32
  type : BitVec 32
  arg : Arg

def sizeofPlayerCommand : Nat := 48

def totalSizeAt : Nat := 0
def uuidAt : Nat := 4
def chNumAt : Nat := 36
def typeAt : Nat := 40
def paramAt : Nat := 44

def calloc (size : Nat) : List Byte := List.replicate size 0

/-- The four assignments every case of the switch makes. -/
def fillHeader (cmd : List Byte) (uuid : CString) (ch totalSize type : BitVec 32) : List Byte :=
  let cmd := store cmd uuidAt (strncpy uuid 31)
  let cmd := store cmd chNumAt (encodeWord ch)
  let cmd := store cmd totalSizeAt (encodeWord totalSize)
  store cmd typeAt (encodeWord type)

/-- The cases with a string parameter, copied with its NUL byte. -/
def textCommand (uuid : CString) (ch type : BitVec 32) (text : CString) : List Byte :=
  let totalSize := BitVec.ofNat 32 (sizeofPlayerCommand + text.bytes.length + 1)
  store (fillHeader (calloc totalSize.toNat) uuid ch totalSize type) paramAt (text.bytes ++ [0])

def plainCommand (uuid : CString) (ch type : BitVec 32) : List Byte :=
  fillHeader (calloc sizeofPlayerCommand) uuid ch (BitVec.ofNat 32 sizeofPlayerCommand) type

def flagCommand (uuid : CString) (ch type : BitVec 32) (needFeadback : Bool) : List Byte :=
  store (plainCommand uuid ch type) paramAt [if needFeadback then 1 else 0]

def valueCommand (uuid : CString) (ch type value : BitVec 32) : List Byte :=
  store (plainCommand uuid ch type) paramAt (encodeWord value)

def commandBlock (uuid : CString) (request : Request) : Option (List Byte) :=
  match paramKindOf request.type with
  | some .text =>
      if request.arg.word = 0 then none
      else some (textCommand uuid request.ch request.type request.arg.text)
  | some .none => some (plainCommand uuid request.ch request.type)
  | some .needFeadback =>
      some (flagCommand uuid request.ch request.type (decide (request.arg.word ≠ 0)))
  | some .word => some (valueCommand uuid request.ch request.type request.arg.word)
  -- an unsupported type leaves the zeroed block as it is
  | none => some (calloc sizeofPlayerCommand)

/-- NULL is `none`. -/
def createPlayerCommand (request : Request) : Option (List Byte) :=
  request.uuid.bind fun uuid => commandBlock uuid request

section Fields

variable (cmd : List Byte)

def commandTotalSize : BitVec 32 := decodeWord (load cmd totalSizeAt 4)

def commandUuid : List Byte := cString (load cmd uuidAt 32)

def commandChNum : BitVec 32 := decodeWord (load cmd chNumAt 4)

def commandType : BitVec 32 := decodeWord (load cmd typeAt 4)

def paramText : List Byte := cString (cmd.drop paramAt)

def paramNeedFeadback : Bool := decide (load cmd paramAt 1 ≠ [0])

def paramVal : BitVec 32 := decodeWord (load cmd paramAt 4)

end Fields

/-- The bytes `send_cmd` puts on the socket. -/
def sendCmd (cmd : List Byte) : List Byte := cmd.take (commandTotalSize cmd).toNat

/-- Both reads must return what they asked for. -/
def recvCmd (stream : List Byte) : Option (List Byte × List Byte) :=
  (recv 4 stream).bind fun (size, later) =>
    (recv (decodeWord size - 4).toNat later).map fun (body, rest) => (size ++ body, rest)

/-! ## The layout of a built command -/

/-- Header and parameter one after the other. Byte 35 ends the truncated uuid. -/
def layout (uuid : CString) (ch totalSize type : BitVec 32) (param : List Byte) : List Byte :=
  encodeWord totalSize ++ (strncpy uuid 31 ++ ([0] ++ (encodeWord ch ++ (encodeWord type ++
    param))))

section Layout

variable (owner : CString) (ch size kind : BitVec 32)

theorem layout_length (param : List Byte) :
    (layout owner ch size kind param).length = paramAt + param.length := by
  simp only [layout, List.length_append, encode_word_length, strncpy_length, List.length_singleton,
    paramAt]
  omega

theorem fill_header_layout (count : Nat) :
    fillHeader (calloc (paramAt + count)) owner ch size kind =
      layout owner ch size kind (List.replicate count 0) := by
  have zeroed : calloc (paramAt + count) = List.replicate 4 0 ++ (List.replicate 31 0 ++ ([0] ++
      (List.replicate 4 0 ++ (List.replicate 4 0 ++ List.replicate count 0)))) := by
    rw [calloc, paramAt, List.replicate_add]
    rfl
  simp only [fillHeader, zeroed, layout, uuidAt, chNumAt, totalSizeAt, typeAt, store_past,
    store_front, strncpy_length, encode_word_length, List.length_replicate, List.length_singleton,
    Nat.reduceLeDiff, Nat.reduceSub]

theorem store_param_layout {old items : List Byte} (after : List Byte)
    (fits : items.length = old.length) :
    store (layout owner ch size kind (old ++ after)) paramAt items =
      layout owner ch size kind (items ++ after) := by
  simp only [layout, paramAt, store_past, store_front after fits, strncpy_length,
    encode_word_length, List.length_singleton, Nat.reduceLeDiff, Nat.reduceSub]

theorem total_size_layout (param : List Byte) :
    commandTotalSize (layout owner ch size kind param) = size := by
  rw [commandTotalSize, totalSizeAt, layout, load_front _ (encode_word_length size), decode_word_encode]

theorem uuid_layout (param : List Byte) :
    commandUuid (layout owner ch size kind param) = owner.bytes.take 31 := by
  have field : load (layout owner ch size kind param) uuidAt 32 = strncpy owner 31 ++ 0 :: [] := by
    rw [layout, uuidAt, load_past _ _ (by simp), ← List.append_assoc (strncpy owner 31)]
    exact load_front _ (by simp [strncpy_length])
  rw [commandUuid, field, cstring_strncpy]

theorem ch_num_layout (param : List Byte) : commandChNum (layout owner ch size kind param) = ch := by
  simp only [commandChNum, layout, chNumAt, load_past, load_front, strncpy_length, encode_word_length,
    List.length_singleton, Nat.reduceLeDiff, Nat.reduceSub, decode_word_encode]

theorem type_layout (param : List Byte) : commandType (layout owner ch size kind param) = kind := by
  simp only [commandType, layout, typeAt, load_past, load_front, strncpy_length, encode_word_length,
    List.length_singleton, Nat.reduceLeDiff, Nat.reduceSub, decode_word_encode]

theorem param_layout (param : List Byte) :
    (layout owner ch size kind param).drop paramAt = param := by
  have header := layout_length owner ch size kind []
  rw [List.length_nil, Nat.add_zero] at header
  have split : layout owner ch size kind param = layout owner ch size kind [] ++ param := by
    simp only [layout, List.append_assoc, List.nil_append]
  rw [split, List.drop_left' header]

end Layout

/-! ## Built commands on the stream -/

namespace Request

variable (request : Request)

/-- The bytes the command needs, before they are rounded to an `int`. -/
def size : Nat :=
  sizeofPlayerCommand +
    if paramKindOf request.type = some .text then request.arg.text.bytes.length + 1 else 0

/-- The parameter the receiver finds in the command is the one that was passed. -/
def ParamCarried (cmd : List Byte) : Prop :=
  match paramKindOf request.type with
  | some .text => paramText cmd = request.arg.text.bytes
  | some .needFeadback => paramNeedFeadback cmd = decide (request.arg.word ≠ 0)
  | some .word => paramVal cmd = request.arg.word
  | _ => True

/-- The command asks for what the call asked for. -/
structure Carried (cmd : List Byte) : Prop where
  type_kept : commandType cmd = request.type
  channel_kept : commandChNum cmd = request.ch
  param_kept : request.ParamCarried cmd
  uuid_truncated : ∀ owner, request.uuid = some owner → commandUuid cmd = owner.bytes.take 31

end Request

section Built

variable {owner : CString} {request : Request}

theorem text_command_layout
    (fits : sizeofPlayerCommand + (request.arg.text.bytes.length + 1) < 2 ^ 31) :
    textCommand owner request.ch request.type request.arg.text =
      layout owner request.ch
        (BitVec.ofNat 32 (sizeofPlayerCommand + (request.arg.text.bytes.length + 1))) request.type
        (request.arg.text.bytes ++ 0 :: List.replicate 4 0) := by
  have room : (BitVec.ofNat 32 (sizeofPlayerCommand + (request.arg.text.bytes.length + 1))).toNat =
      paramAt + ((request.arg.text.bytes ++ [0]).length + 4) := by
    rw [BitVec.toNat_ofNat, Nat.mod_eq_of_lt (by omega)]
    simp only [sizeofPlayerCommand, paramAt, List.length_append, List.length_singleton]
    omega
  rw [textCommand, Nat.add_assoc]
  simp only [room]
  rw [fill_header_layout, List.replicate_add, store_param_layout _ _ _ _ _ (by simp),
    List.append_assoc, List.singleton_append]

theorem plain_command_layout : plainCommand owner request.ch request.type =
    layout owner request.ch (BitVec.ofNat 32 sizeofPlayerCommand) request.type
      (List.replicate 4 0) :=
  fill_header_layout owner request.ch _ request.type 4

theorem flag_command_layout (flag : Bool) :
    flagCommand owner request.ch request.type flag =
      layout owner request.ch (BitVec.ofNat 32 sizeofPlayerCommand) request.type
        ([if flag then 1 else 0] ++ List.replicate 3 0) := by
  have split : List.replicate 4 (0 : Byte) = [0] ++ List.replicate 3 0 := rfl
  rw [flagCommand, plain_command_layout, split, store_param_layout]
  rfl

theorem value_command_layout (value : BitVec 32) :
    valueCommand owner request.ch request.type value =
      layout owner request.ch (BitVec.ofNat 32 sizeofPlayerCommand) request.type
        (encodeWord value) := by
  rw [valueCommand, plain_command_layout, ← List.append_nil (List.replicate 4 (0 : Byte)),
    store_param_layout _ _ _ _ _ (by simp), List.append_nil]

theorem command_block_layout {cmd : List Byte}
    (supported : (paramKindOf request.type).isSome) (fits : request.size < 2 ^ 31)
    (built : commandBlock owner request = some cmd) :
    ∃ param : List Byte, request.size = paramAt + param.length ∧
      cmd = layout owner request.ch (BitVec.ofNat 32 request.size) request.type param ∧
      request.ParamCarried cmd := by
  obtain ⟨kind, known⟩ := Option.isSome_iff_exists.mp supported
  rw [commandBlock, known] at built
  cases kind with
  | none =>
      obtain rfl := Option.some.inj built
      refine ⟨List.replicate 4 0, ?_, ?_, ?_⟩
      · simp [Request.size, known, sizeofPlayerCommand, paramAt]
      · simp [Request.size, known, plain_command_layout]
      · simp [Request.ParamCarried, known]
  | text =>
      obtain ⟨-, rfl⟩ := by simpa only [ite_eq_iff, reduceCtorEq, and_false, false_or,
        Option.some.injEq] using built
      have size : request.size =
          sizeofPlayerCommand + (request.arg.text.bytes.length + 1) := by
        simp [Request.size, known]
      rw [size] at fits
      have laid := @text_command_layout owner request fits
      refine ⟨request.arg.text.bytes ++ 0 :: List.replicate 4 0, ?_, ?_, ?_⟩
      · simp only [size, sizeofPlayerCommand, paramAt, List.length_append, List.length_cons,
          List.length_replicate]
        omega
      · rw [size, laid]
      · simp only [Request.ParamCarried, known]
        rw [paramText, laid, param_layout, cstring_of_terminated request.arg.text.no_nul]
  | needFeadback =>
      obtain rfl := Option.some.inj built
      have size : request.size = sizeofPlayerCommand := by simp [Request.size, known]
      refine ⟨_, ?_, size ▸ flag_command_layout _, ?_⟩
      · simp [size, sizeofPlayerCommand, paramAt]
      · simp only [Request.ParamCarried, known]
        rw [paramNeedFeadback, flag_command_layout, load, param_layout]
        cases decide (request.arg.word ≠ 0) <;> rfl
  | word =>
      obtain rfl := Option.some.inj built
      have size : request.size = sizeofPlayerCommand := by simp [Request.size, known]
      refine ⟨_, ?_, size ▸ value_command_layout _, ?_⟩
      · simp [size, sizeofPlayerCommand, paramAt]
      · simp only [Request.ParamCarried, known]
        rw [paramVal, value_command_layout, load, param_layout]
        exact decode_word_encode _

theorem recv_cmd_layout (owner : CString) {size : Nat} {param : List Byte} (rounded : size = paramAt + param.length)
    (fits : size < 2 ^ 31) (ch kind : BitVec 32) (later : List Byte) :
    sendCmd (layout owner ch (BitVec.ofNat 32 size) kind param) =
        layout owner ch (BitVec.ofNat 32 size) kind param ∧
      recvCmd (layout owner ch (BitVec.ofNat 32 size) kind param ++ later) =
        some (layout owner ch (BitVec.ofNat 32 size) kind param, later) := by
  have length := layout_length owner ch (BitVec.ofNat 32 size) kind param
  have total : (BitVec.ofNat 32 size).toNat = size := by
    rw [BitVec.toNat_ofNat, Nat.mod_eq_of_lt (by omega)]
  have rest : (BitVec.ofNat 32 size - 4).toNat = size - 4 := by
    simp only [paramAt] at rounded
    rw [BitVec.toNat_sub, total, show (4 : BitVec 32).toNat = 4 from rfl]
    omega
  constructor
  · rw [sendCmd, total_size_layout, total]
    exact List.take_of_length_le (by omega)
  · obtain ⟨body, split⟩ : ∃ body, layout owner ch (BitVec.ofNat 32 size) kind param =
        encodeWord (BitVec.ofNat 32 size) ++ body := ⟨_, rfl⟩
    rw [split, List.length_append, encode_word_length] at length
    have bodySize : body.length = size - 4 := by omega
    rw [split, recvCmd, List.append_assoc, recv_append (encode_word_length _)]
    simp only [Option.bind_some, decode_word_encode, rest, recv_append bodySize, Option.map_some]

/-- Every supported command whose size fits in an `int` carries its request, is sent
whole, and is received whole from any stream it leads. -/
theorem command_delivered {cmd : List Byte} (supported : (paramKindOf request.type).isSome)
    (fits : request.size < 2 ^ 31) (built : createPlayerCommand request = some cmd) :
    request.Carried cmd ∧
      ∀ later, recvCmd (sendCmd cmd ++ later) = some (cmd, later) := by
  obtain ⟨owner, named, block⟩ := Option.bind_eq_some_iff.mp built
  obtain ⟨param, size, rfl, carried⟩ := command_block_layout supported fits block
  refine ⟨⟨type_layout .., ch_num_layout .., carried, ?_⟩, ?_⟩
  · intro other same
    obtain rfl := Option.some.inj (named.symm.trans same)
    exact uuid_layout ..
  · intro later
    have received := recv_cmd_layout owner size fits request.ch request.type later
    rw [received.1]
    exact received.2

end Built

/-- Commands sent one after the other are read back as the same commands, each as
its request asked for, and the stream is left empty. -/
theorem commands_read_back (requests : List Request) (commands : List (List Byte))
    (built : List.Forall₂ (fun request cmd => createPlayerCommand request = some cmd)
      requests commands)
    (supported : ∀ request ∈ requests, (paramKindOf request.type).isSome)
    (fits : ∀ request ∈ requests, request.size < 2 ^ 31) :
    recvMany recvCmd commands.length (commands.flatMap sendCmd) = some (commands, []) ∧
      List.Forall₂ Request.Carried requests commands := by
  have allowed : ∀ request ∈ requests,
      (paramKindOf request.type).isSome ∧ request.size < 2 ^ 31 :=
    fun request member => ⟨supported request member, fits request member⟩
  have each := ((List.forall₂_and_left requests commands).mpr ⟨allowed, built⟩).imp
    fun _ _ both => command_delivered both.1.1 both.1.2 both.2
  constructor
  · have delivered : ∀ cmd ∈ commands, ∀ later,
        recvCmd (sendCmd cmd ++ later) = some (cmd, later) := by
      clear built supported fits allowed
      induction each with
      | nil => simp
      | cons first rest ih => exact List.forall_mem_cons.mpr ⟨first.2, ih⟩
    simpa only [List.append_nil] using recv_many_of_each commands [] delivered
  · exact each.imp fun _ _ delivered => delivered.1

def playThenVolume : List Request :=
  [{ uuid := some ⟨[109], by decide⟩, ch := 0, type := CmdType.playUrl.code,
      arg := ⟨1, ⟨[117], by decide⟩⟩ },
    { uuid := some ⟨[109], by decide⟩, ch := 0, type := CmdType.setVolume.code,
      arg := ⟨50, ⟨[], by decide⟩⟩ }]

theorem commands_read_back_play_then_volume :
    recvMany recvCmd 2 ((playThenVolume.filterMap createPlayerCommand).flatMap sendCmd) =
        some (playThenVolume.filterMap createPlayerCommand, []) ∧
      List.Forall₂ Request.Carried playThenVolume
        (playThenVolume.filterMap createPlayerCommand) :=
  commands_read_back playThenVolume _ (.cons rfl (.cons rfl .nil)) (by decide) (by decide)

end Gk7102.PlayerCommand
