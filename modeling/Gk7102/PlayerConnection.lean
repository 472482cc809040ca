import Gk7102.PlayerCommand

/-!
# The connection to the player server

What each entry point of the player API sends and what it waits for, and the two
directions of the synchronous connection. Replies carry no request id. Each command
gets a ticket when it is sent, and each byte of a reply the ticket of the command it
answers: tickets are only bookkeeping, no step of the program reads them.
-/

namespace Gk7102.PlayerConnection

open ByteBlocks PlayerCommand

set_option autoImplicit false

def sizeofPlayerSnapshot : Nat := 56

inductive ReplyKind where
  | feadback | snapshot | url
deriving DecidableEq, Repr

/-- A command with a flag is answered when the flag is set. -/
def feadbackIf (flag : Bool) : Option ReplyKind := if flag then some .feadback else none

/-- A reply of the server. A url travels behind its length, an `int`. -/
inductive Reply where
  | feadback (done : Byte)
  | snapshot (bytes : List Byte) (size : bytes.length = sizeofPlayerSnapshot)
  | url (bytes : List Byte) (fits : bytes.length < 2 ^ 31)

def Reply.kind : Reply → ReplyKind
  | .feadback _ => .feadback
  | .snapshot _ _ => .snapshot
  | .url _ _ => .url

def Reply.bytes : Reply → List Byte
  | .feadback done => [done]
  | .snapshot bytes _ => bytes
  | .url bytes _ => encodeWord (BitVec.ofNat 32 bytes.length) ++ bytes

/-! ## The entry points -/

structure Handler where
  uuid : CString
  chNum : BitVec 32

inductive ApiCall where
  | startNewchannel
  | stopNewchannel
  | playurl (url : Arg)
  | cacheurl (url : Arg)
  | aoswitch (ao : Arg)
  | getsnapshot
  | geturl
  | resume
  | pause
  | stopWaitRelease (val : BitVec 32)
  | stop
  | forcestop
  | seek (position : BitVec 32)
  | volset (volume : BitVec 32)
  | stopall (isSync : Bool)
  | pauseall (isSync : Bool)
  | resumeall (isSync : Bool)

def Arg.ofWord (word : BitVec 32) : Arg := ⟨word, ⟨[], nil_no_nul⟩⟩

def Arg.ofBool (flag : Bool) : Arg := Arg.ofWord (if flag then 1 else 0)

/-- What an entry point passes to `create_player_command`, whether it takes the
mutex, and what it receives before it gives the mutex back. -/
structure Entry where
  type : CmdType
  arg : Arg
  locks : Bool
  awaits : Option ReplyKind

def sendOnly (type : CmdType) (arg : Arg) : Entry := ⟨type, arg, false, none⟩

def sendAndReceive (type : CmdType) (arg : Arg) (kind : ReplyKind) : Entry :=
  ⟨type, arg, true, some kind⟩

/-- The entries with an `is_sync` flag lock in either case. -/
def sendAndMaybeReceive (type : CmdType) (isSync : Bool) : Entry :=
  ⟨type, Arg.ofBool isSync, true, feadbackIf isSync⟩

def ApiCall.entry : ApiCall → Entry
  | .startNewchannel => sendOnly .startCh (Arg.ofWord 0)
  | .stopNewchannel => sendAndMaybeReceive .stopCh true
  | .playurl url => sendOnly .playUrl url
  | .cacheurl url => sendOnly .cacheUrl url
  | .aoswitch ao => sendOnly .aoSwitch ao
  | .getsnapshot => sendAndReceive .getSnapshot (Arg.ofWord 0) .snapshot
  | .geturl => sendAndReceive .getUrl (Arg.ofWord 0) .url
  | .resume => sendOnly .doResume (Arg.ofWord 0)
  | .pause => sendOnly .doPause (Arg.ofWord 0)
  | .stopWaitRelease val => sendOnly .waitRelease (Arg.ofWord val)
  | .stop => sendOnly .doStop (Arg.ofWord 0)
  | .forcestop => sendOnly .killMplayer (Arg.ofWord 0)
  | .seek position => sendOnly .doSeek (Arg.ofWord position)
  | .volset volume => sendAndReceive .setVolume (Arg.ofWord volume) .feadback
  | .stopall isSync => sendAndMaybeReceive .doStopall isSync
  | .pauseall isSync => sendAndMaybeReceive .doPauseall isSync
  | .resumeall isSync => sendAndMaybeReceive .doResumeall isSync

def Handler.request (handler : Handler) (call : ApiCall) : Request :=
  ⟨some handler.uuid, handler.chNum, call.entry.type.code, call.entry.arg⟩

/-- A call whose command fits in an `int`; a longer string does not fit in memory. -/
structure Handler.Call (handler : Handler) where
  call : ApiCall
  fits : (handler.request call).size < 2 ^ 31

/-- What the server answers to a command. It decides by the command alone. -/
def answerKind (cmd : List Byte) : Option ReplyKind :=
  match CmdType.ofCode (commandType cmd) with
  | some .getSnapshot => some .snapshot
  | some .getUrl => some .url
  | some .setVolume => some .feadback
  | some .stopCh | some .doStopall | some .doPauseall | some .doResumeall =>
      feadbackIf (paramNeedFeadback cmd)
  | _ => none

theorem param_of_sync_entry (type : CmdType) (isSync : Bool) :
    decide ((sendAndMaybeReceive type isSync).arg.word ≠ 0) = isSync := by
  cases isSync <;> rfl

/-- Every entry point awaits what the server answers to the command it sends. -/
theorem answer_kind_of_call {handler : Handler} (request : handler.Call) {cmd : List Byte}
    (built : createPlayerCommand (handler.request request.call) = some cmd) :
    answerKind cmd = request.call.entry.awaits := by
  obtain ⟨call, fits⟩ := request
  have known : CmdType.ofCode (handler.request call).type = some call.entry.type :=
    of_code_code call.entry.type
  have supported : (paramKindOf (handler.request call).type).isSome := by
    rw [paramKindOf, known]
    rfl
  have carried := (command_delivered supported fits built).1
  have param := carried.param_kept
  rw [Request.ParamCarried, paramKindOf, known] at param
  rw [answerKind, carried.type_kept, known]
  cases call with
  | stopNewchannel => exact congrArg feadbackIf (param.trans (param_of_sync_entry .stopCh true))
  | stopall isSync => exact congrArg feadbackIf (param.trans (param_of_sync_entry .doStopall isSync))
  | pauseall isSync => exact congrArg feadbackIf (param.trans (param_of_sync_entry .doPauseall isSync))
  | resumeall isSync => exact congrArg feadbackIf (param.trans (param_of_sync_entry .doResumeall isSync))
  | _ => rfl

/-! ## The connection -/

structure TaggedByte where
  ticket : Nat
  byte : Byte

def Reply.tagged (reply : Reply) (ticket : Nat) : List TaggedByte :=
  reply.bytes.map fun byte => ⟨ticket, byte⟩

/-- Commands on their way to the server, reply bytes the server has written and those
that have arrived, and which ticket has been answered with what. -/
structure Lane where
  commands : List (Nat × List Byte)
  outgoing : List TaggedByte
  stream : List TaggedByte
  answers : List (Nat × Reply)
  nextTicket : Nat

namespace Lane

/-- `send_cmd` delivers the command whole. -/
def send (lane : Lane) (cmd : List Byte) : Lane :=
  { lane with
    commands := lane.commands ++ [(lane.nextTicket, cmd)]
    nextTicket := lane.nextTicket + 1 }

/-- The server takes the next command and answers with a reply of its type, if any. -/
def serve (lane : Lane) (reply : Reply) : Lane :=
  match lane.commands with
  | [] => lane
  | (ticket, cmd) :: rest =>
      match answerKind cmd with
      | none => { lane with commands := rest }
      | some kind =>
          if reply.kind = kind then
            { lane with
              commands := rest
              outgoing := lane.outgoing ++ reply.tagged ticket
              answers := lane.answers ++ [(ticket, reply)] }
          else lane

/-- Reply bytes arrive in order, in pieces of any size. -/
def deliver (lane : Lane) (count : Nat) : Lane :=
  { lane with
    outgoing := lane.outgoing.drop count
    stream := lane.stream ++ lane.outgoing.take count }

/-- All tickets in use: the answered ones, then those still on their way. -/
def tickets (lane : Lane) : List Nat :=
  lane.answers.map Prod.fst ++ lane.commands.map Prod.fst

/-- No ticket is used twice. -/
structure WellFormed (lane : Lane) : Prop where
  nodup : lane.tickets.Nodup
  fresh : ∀ ticket ∈ lane.tickets, ticket < lane.nextTicket

def Silent (commands : List (Nat × List Byte)) : Prop :=
  ∀ command ∈ commands, answerKind command.2 = none

/-- Nothing is owed: no byte is left and no command in flight will be answered. -/
def Quiet (lane : Lane) : Prop :=
  Silent lane.commands ∧ lane.stream ++ lane.outgoing = []

/-- One command that will be answered is in flight, and no byte is on the way. -/
def Asked (lane : Lane) (ticket : Nat) (kind : ReplyKind) : Prop :=
  lane.stream ++ lane.outgoing = [] ∧
    ∃ before cmd after, lane.commands = before ++ (ticket, cmd) :: after ∧
      Silent before ∧ answerKind cmd = some kind ∧ Silent after

/-- The bytes on the way are the rest of the reply of which `got` has been read. -/
def Answered (lane : Lane) (ticket : Nat) (kind : ReplyKind) (got : List TaggedByte) : Prop :=
  Silent lane.commands ∧ ∃ reply, (ticket, reply) ∈ lane.answers ∧ reply.kind = kind ∧
    got ++ (lane.stream ++ lane.outgoing) = reply.tagged ticket

/-- The connection as the thread that waits for the reply to `ticket` sees it. -/
def Owes (lane : Lane) (ticket : Nat) (kind : ReplyKind) (got : List TaggedByte) : Prop :=
  (got = [] ∧ lane.Asked ticket kind) ∨ lane.Answered ticket kind got

theorem silent_append {before after : List (Nat × List Byte)} :
    Silent (before ++ after) ↔ Silent before ∧ Silent after :=
  List.forall_mem_append

theorem send_well_formed {lane : Lane} (well : lane.WellFormed) (cmd : List Byte) :
    (lane.send cmd).WellFormed := by
  have tickets : (lane.send cmd).tickets = lane.tickets ++ [lane.nextTicket] := by
    simp [send, Lane.tickets]
  constructor
  · rw [tickets]
    apply List.nodup_append.mpr
    refine ⟨well.nodup, List.pairwise_singleton _ _, ?_⟩
    intro ticket used other only same
    have below := well.fresh ticket used
    rw [List.mem_singleton] at only
    omega
  · intro ticket used
    rw [tickets, List.mem_append, List.mem_singleton] at used
    have next : (lane.send cmd).nextTicket = lane.nextTicket + 1 := rfl
    rcases used with earlier | rfl
    · have below := well.fresh ticket earlier
      omega
    · omega

theorem deliver_well_formed {lane : Lane} (well : lane.WellFormed) (count : Nat) :
    (lane.deliver count).WellFormed :=
  ⟨well.nodup, well.fresh⟩

theorem serve_cases (lane : Lane) (reply : Reply) :
    lane.serve reply = lane ∨
      ∃ ticket cmd rest, lane.commands = (ticket, cmd) :: rest ∧
        ((answerKind cmd = none ∧ lane.serve reply = { lane with commands := rest }) ∨
          (answerKind cmd = some reply.kind ∧ lane.serve reply = { lane with
            commands := rest
            outgoing := lane.outgoing ++ reply.tagged ticket
            answers := lane.answers ++ [(ticket, reply)] })) := by
  cases inFlight : lane.commands with
  | nil =>
      left
      rw [serve, inFlight]
  | cons command rest =>
      obtain ⟨ticket, cmd⟩ := command
      cases answer : answerKind cmd with
      | none =>
          right
          refine ⟨ticket, cmd, rest, rfl, .inl ⟨answer, ?_⟩⟩
          rw [serve, inFlight]
          simp only [answer]
      | some kind =>
          by_cases fitting : reply.kind = kind
          · right
            subst fitting
            refine ⟨ticket, cmd, rest, rfl, .inr ⟨answer, ?_⟩⟩
            rw [serve, inFlight]
            simp only [answer, if_true]
          · left
            rw [serve, inFlight]
            simp only [answer, if_neg fitting]

theorem serve_well_formed {lane : Lane} (well : lane.WellFormed) (reply : Reply) :
    (lane.serve reply).WellFormed := by
  rcases lane.serve_cases reply with same | ⟨ticket, cmd, rest, inFlight, taken | answered⟩
  · rw [same]
    exact well
  · rw [taken.2]
    have shorter : lane.tickets = lane.answers.map Prod.fst ++ ticket :: rest.map Prod.fst := by
      rw [Lane.tickets, inFlight, List.map_cons]
    have sublist : (lane.answers.map Prod.fst ++ rest.map Prod.fst).Sublist lane.tickets := by
      rw [shorter]
      exact (List.Sublist.refl _).append (List.sublist_cons_self _ _)
    exact ⟨well.nodup.sublist sublist, fun other used => well.fresh other (sublist.subset used)⟩
  · rw [answered.2]
    have same : Lane.tickets { lane with
        commands := rest
        outgoing := lane.outgoing ++ reply.tagged ticket
        answers := lane.answers ++ [(ticket, reply)] } = lane.tickets := by
      simp [Lane.tickets, inFlight]
    exact ⟨same ▸ well.nodup, fun other used => well.fresh other (same ▸ used)⟩

section Send

variable {lane : Lane} {cmd : List Byte}

theorem quiet_send_silent (quiet : lane.Quiet) (silent : answerKind cmd = none) :
    (lane.send cmd).Quiet := by
  refine ⟨silent_append.mpr ⟨quiet.1, ?_⟩, quiet.2⟩
  intro command only
  rw [List.mem_singleton.mp only]
  exact silent

theorem asked_send (quiet : lane.Quiet) {kind : ReplyKind} (answer : answerKind cmd = some kind) :
    (lane.send cmd).Asked lane.nextTicket kind :=
  ⟨quiet.2, lane.commands, cmd, [], rfl, quiet.1, answer, fun _ none => absurd none (by simp)⟩

/-- A command nobody waits for may be sent while a reply is owed to someone else. -/
theorem owes_send_silent {ticket : Nat} {kind : ReplyKind} {got : List TaggedByte}
    (owes : lane.Owes ticket kind got) (silent : answerKind cmd = none) :
    (lane.send cmd).Owes ticket kind got := by
  have last : Silent [(lane.nextTicket, cmd)] := by
    intro command only
    rw [List.mem_singleton.mp only]
    exact silent
  rcases owes with ⟨unread, empty, before, asked, after, inFlight, quiet, answer, later⟩ |
    ⟨quiet, answered⟩
  · left
    refine ⟨unread, empty, before, asked, after ++ [(lane.nextTicket, cmd)], ?_, quiet, answer,
      silent_append.mpr ⟨later, last⟩⟩
    simp only [send, inFlight, List.append_assoc, List.cons_append]
  · right
    exact ⟨silent_append.mpr ⟨quiet, last⟩, answered⟩

end Send

section Serve

variable {lane : Lane} {reply : Reply}

theorem quiet_serve (quiet : lane.Quiet) : (lane.serve reply).Quiet := by
  rcases lane.serve_cases reply with same | ⟨ticket, cmd, rest, inFlight, taken | answered⟩
  · rw [same]
    exact quiet
  · rw [taken.2]
    refine ⟨fun command member => quiet.1 command ?_, quiet.2⟩
    rw [inFlight]
    exact List.mem_cons_of_mem _ member
  · have silent := quiet.1 (ticket, cmd) (by simp [inFlight])
    simp [silent] at answered

/-- Silent commands in front are taken without an answer; the one that is owed an
answer gets it when its turn comes. -/
theorem asked_serve {ticket : Nat} {kind : ReplyKind} (asked : lane.Asked ticket kind) :
    (lane.serve reply).Owes ticket kind [] := by
  obtain ⟨empty, before, cmd, after, split, quiet, answer, later⟩ := asked
  rcases lane.serve_cases reply with same | ⟨first, head, rest, inFlight, turn⟩
  · rw [same]
    exact .inl ⟨rfl, empty, before, cmd, after, split, quiet, answer, later⟩
  rw [inFlight] at split
  cases before with
  | nil =>
      obtain ⟨⟨rfl, rfl⟩, rfl⟩ : (first = ticket ∧ head = cmd) ∧ rest = after := by
        simpa only [List.nil_append, List.cons.injEq, Prod.mk.injEq] using split
      rcases turn with ⟨silent, -⟩ | ⟨kinds, served⟩
      · simp [silent] at answer
      · right
        rw [served]
        refine ⟨later, reply, by simp, Option.some.inj (kinds.symm.trans answer), ?_⟩
        rw [← List.append_assoc lane.stream, empty, List.nil_append, List.nil_append]
  | cons earlier others =>
      obtain ⟨rfl, rfl⟩ : (first, head) = earlier ∧ rest = others ++ (ticket, cmd) :: after := by
        simpa only [List.cons_append, List.cons.injEq] using split
      have silent : answerKind head = none := quiet (first, head) (by simp)
      rcases turn with ⟨-, served⟩ | ⟨kinds, -⟩
      · left
        rw [served]
        exact ⟨rfl, empty, others, cmd, after, rfl, fun command member =>
          quiet command (by simp [member]), answer, later⟩
      · simp [silent] at kinds

theorem answered_serve {ticket : Nat} {kind : ReplyKind} {got : List TaggedByte}
    (answered : lane.Answered ticket kind got) :
    (lane.serve reply).Answered ticket kind got := by
  obtain ⟨quiet, done⟩ := answered
  rcases lane.serve_cases reply with same | ⟨first, head, rest, inFlight, turn⟩
  · rw [same]
    exact ⟨quiet, done⟩
  have silent : answerKind head = none := quiet (first, head) (by simp [inFlight])
  rcases turn with ⟨-, served⟩ | ⟨kinds, -⟩
  · rw [served]
    refine ⟨fun command member => quiet command ?_, done⟩
    rw [inFlight]
    exact List.mem_cons_of_mem _ member
  · simp [silent] at kinds

theorem ticket_of_owes {ticket first : Nat} {kind : ReplyKind} {got : List TaggedByte}
    {head : List Byte} {rest : List (Nat × List Byte)} (owes : lane.Owes ticket kind got)
    (inFlight : lane.commands = (first, head) :: rest) (answered : answerKind head ≠ none) :
    first = ticket := by
  rcases owes with ⟨-, -, before, cmd, after, split, quiet, -⟩ | ⟨quiet, -⟩
  · rw [inFlight] at split
    cases before with
    | nil => exact congrArg Prod.fst (List.cons.inj split).1
    | cons earlier others =>
        obtain ⟨rfl, -⟩ := List.cons.inj split
        exact absurd (quiet (first, head) (by simp)) answered
  · exact absurd (quiet (first, head) (by simp [inFlight])) answered

theorem owes_serve {ticket : Nat} {kind : ReplyKind} {got : List TaggedByte}
    (owes : lane.Owes ticket kind got) : (lane.serve reply).Owes ticket kind got := by
  rcases owes with ⟨rfl, asked⟩ | answered
  · exact asked_serve asked
  · exact .inr (answered_serve answered)

end Serve

section Deliver

variable {lane : Lane} (count : Nat)

theorem deliver_bytes :
    (lane.deliver count).stream ++ (lane.deliver count).outgoing =
      lane.stream ++ lane.outgoing := by
  simp only [deliver, List.append_assoc, List.take_append_drop]

theorem quiet_deliver (quiet : lane.Quiet) : (lane.deliver count).Quiet :=
  ⟨quiet.1, (deliver_bytes count).trans quiet.2⟩

theorem owes_deliver {ticket : Nat} {kind : ReplyKind} {got : List TaggedByte}
    (owes : lane.Owes ticket kind got) : (lane.deliver count).Owes ticket kind got := by
  rcases owes with ⟨unread, empty, asked⟩ | ⟨quiet, reply, known, fitting, bytes⟩
  · exact .inl ⟨unread, (deliver_bytes count).trans empty, asked⟩
  · refine .inr ⟨quiet, reply, known, fitting, ?_⟩
    rw [deliver_bytes]
    exact bytes

end Deliver

section Read

variable {lane : Lane} {ticket : Nat} {kind : ReplyKind} {got bytes rest : List TaggedByte}
  {count : Nat}

theorem answered_of_read (owes : lane.Owes ticket kind got)
    (read : recv count lane.stream = some (bytes, rest)) (some_read : got ++ bytes ≠ []) :
    Lane.Answered { lane with stream := rest } ticket kind (got ++ bytes) := by
  have split := (recv_split read).1
  rcases owes with ⟨rfl, empty, -⟩ | ⟨quiet, reply, known, fitting, whole⟩
  · rw [split, List.append_eq_nil_iff, List.append_eq_nil_iff] at empty
    rw [empty.1.1] at some_read
    exact absurd rfl some_read
  · refine ⟨quiet, reply, known, fitting, ?_⟩
    rw [split] at whole
    simpa only [List.append_assoc] using whole

end Read

end Lane

/-! ## Receiving a reply -/

/-- The size of the first receive; for a url it is that of the length. -/
def firstRecv : ReplyKind → Nat
  | .feadback => 1
  | .snapshot => sizeofPlayerSnapshot
  | .url => 4

def wordOf (bytes : List TaggedByte) : BitVec 32 := decodeWord (bytes.map TaggedByte.byte)

/-- The receives that end a reply: one of the fixed size, or the length and as many bytes
as it says. -/
def Complete (kind : ReplyKind) (consumed : List TaggedByte) : Prop :=
  match kind with
  | .feadback => consumed.length = 1
  | .snapshot => consumed.length = sizeofPlayerSnapshot
  | .url => consumed.length = 4 + (wordOf (consumed.take 4)).toNat

theorem word_of_url_reply (bytes : List Byte) (fits : bytes.length < 2 ^ 31) (ticket : Nat) :
    wordOf (((Reply.url bytes fits).tagged ticket).take 4) = BitVec.ofNat 32 bytes.length := by
  have length := encode_word_length (BitVec.ofNat 32 bytes.length)
  have front : ((Reply.url bytes fits).tagged ticket).take 4 =
      (encodeWord (BitVec.ofNat 32 bytes.length)).map fun byte => ⟨ticket, byte⟩ := by
    rw [Reply.tagged, Reply.bytes, List.map_append]
    exact List.take_left' (by rw [List.length_map, length])
  have untagged : ∀ word : List Byte,
      (word.map fun byte => (⟨ticket, byte⟩ : TaggedByte)).map TaggedByte.byte = word := by
    intro word
    rw [List.map_map]
    exact List.map_id word
  rw [wordOf, front, untagged, decode_word_encode]

/-- A complete read of the beginning of a reply is all of it. -/
theorem complete_is_whole {reply : Reply} {ticket : Nat} {consumed more : List TaggedByte}
    (bytes : consumed ++ more = reply.tagged ticket) (complete : Complete reply.kind consumed) :
    more = [] := by
  have total : consumed.length + more.length = reply.bytes.length := by
    rw [← List.length_append, bytes, Reply.tagged, List.length_map]
  have lengths : consumed.length = reply.bytes.length := by
    cases reply with
    | feadback done => exact complete
    | snapshot content size => exact complete.trans size.symm
    | url content fits =>
        have front : consumed.take 4 = ((Reply.url content fits).tagged ticket).take 4 := by
          rw [← bytes, List.take_append_of_le_length]
          simp only [Reply.kind, Complete] at complete
          omega
        simp only [Reply.kind, Complete] at complete
        rw [complete, front, word_of_url_reply, BitVec.toNat_ofNat, Nat.mod_eq_of_lt (by omega),
          Reply.bytes, List.length_append, encode_word_length]
  exact List.eq_nil_of_length_eq_zero (by omega)

end Gk7102.PlayerConnection
