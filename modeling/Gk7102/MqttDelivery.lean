import Gk7102.MqttFlow
import Gk7102.MqttIds
import Gk7102.MqttWire

/-!
# Two ends of a connection

Both clients publish, write and read in any order, and the network carries their bytes in
pieces of any size. The two halves of the handshakes keep every message and its place.
-/

namespace Gk7102.MqttDelivery

open ByteBlocks SocketCalls MqttPacket MqttReading MqttSending MqttCodec MqttClient MqttWindow
  MqttTokens MqttWire MqttFlow

set_option autoImplicit false

/-- A client, how many bytes of the other one have come to it, and what it has published. -/
structure End where
  client : Client
  carried : Nat
  published : List Message
deriving DecidableEq

inductive Op where
  | publish (topic payload : List Byte) (qos : Nat) (retain : Bool)
  | write
  | carry (count : Nat)
  | read (script : List CallOutcome)
  /-- How the socket answers from now on, whether a callback runs, and the time. -/
  | meanwhile (writes : List CallOutcome) (inCallback : Bool) (now : Int)

/-- The message that `mosquitto_publish` makes of its arguments. -/
def made (client : Client) (topic payload : List Byte) (qos : Nat) (retain : Bool) : Message :=
  ⟨midGenerate client.lastMid, topic, payload, qos, retain⟩

def act (this other : End) : Op → End
  | .publish topic payload qos retain =>
      { this with
        client := (publish this.client topic payload qos retain).2
        published :=
          if publishRefused topic payload qos = none then
            this.published ++ [made this.client topic payload qos retain]
          else this.published }
  | .write =>
      { this with client := { this.client with link := (packetWrite this.client.link).2 } }
  | .carry count =>
      let bytes := load other.client.link.written this.carried count
      { this with
        client := { this.client with incoming := this.client.incoming ++ bytes }
        carried := this.carried + bytes.length }
  | .read script => { this with client := (packetRead this.client script).2 }
  | .meanwhile writes inCallback now =>
      let link := { this.client.link with writes := writes, inCallback := inCallback, now := now }
      { this with client := { this.client with link := link } }

/-- The topic is a C string, the packet is not too long, and the message id is not one of a
message that is still kept. -/
def Proper (this : End) : Op → Prop
  | .publish topic payload qos retain =>
      let message := made this.client topic payload qos retain
      0 ∉ topic ∧ (publishBody message.mid topic payload qos).length < 268435456 ∧
        (qos > 0 → message.mid ∉ this.client.outMessages.map storedMid)
  | _ => True

structure Exchange where
  near : End
  far : End
deriving DecidableEq

def step (exchange : Exchange) : Bool × Op → Exchange
  | (true, op) => { exchange with near := act exchange.near exchange.far op }
  | (false, op) => { exchange with far := act exchange.far exchange.near op }

def ProperStep (exchange : Exchange) : Bool × Op → Prop
  | (true, op) => Proper exchange.near op
  | (false, op) => Proper exchange.far op

/-- A client on a new connection, with no messages of an older one. -/
structure Fresh (this : End) : Prop where
  connected : this.client.link.connected = true
  current : this.client.link.currentOutPacket = none
  queue : this.client.link.outPacket = []
  written : this.client.link.written = []
  events : this.client.link.events = []
  packet : this.client.inPacket = packetCleanup
  incoming : this.client.incoming = []
  outMessages : this.client.outMessages = []
  inMessages : this.client.inMessages = []
  inflight : this.client.inflightMessages = 0
  max : 0 ≤ this.client.maxInflightMessages
  calls : this.client.calls = []
  carried : this.carried = 0
  published : this.published = []

section Links

variable {tokens : List Token} {link : Link}

def queueAll (link : Link) (tokens : List Token) : Link :=
  tokens.foldl (fun link token => (packetQueue link token.packet).2) link

theorem sent_queue_all (more : List Token) {tokens : List Token} {link : Link}
    (sent : Sent tokens link) (formed : ∀ token ∈ tokens, token.Sendable)
    (sendable : ∀ token ∈ more, token.Sendable) :
    Sent (tokens ++ more) (queueAll link more) ∧
      link.written <+: (queueAll link more).written := by
  induction more generalizing tokens link with
  | nil =>
      rw [List.append_nil]
      exact ⟨sent, List.prefix_refl _⟩
  | cons first more induction =>
      rw [List.forall_mem_cons] at sendable
      have now := sent_queue sent formed sendable.1
      have formed' : ∀ token ∈ tokens ++ [first], token.Sendable := by
        intro token member
        rcases List.mem_append.mp member with before | last
        · exact formed token before
        · rw [List.mem_singleton.mp last]
          exact sendable.1
      have later := induction now.1 formed' sendable.2
      rw [List.append_assoc] at later
      exact ⟨later.1, now.2.trans later.2⟩

theorem send_first_coming {waiting : List Stored} (connected : link.connected = true)
    (fresh : ∀ stored ∈ waiting, stored.dup = false ∧ MqttTokens.Sendable stored.message) :
    sendFirst link waiting = queueAll link (comingTokens waiting) := by
  cases waiting with
  | nil => rfl
  | cons next rest =>
      have first := fresh next List.mem_cons_self
      rw [sendFirst, first.1, send_publish_token link first.2 connected]
      rfl

theorem coming_sendable {waiting : List Stored}
    (fresh : ∀ stored ∈ waiting, stored.dup = false ∧ MqttTokens.Sendable stored.message) :
    ∀ token ∈ comingTokens waiting, token.Sendable := by
  intro token member
  rcases List.mem_map.mp member with ⟨stored, first, rfl⟩
  exact (fresh stored (List.mem_of_mem_take first)).2

theorem coming_carrying (waiting : List Stored) : Carrying (comingTokens waiting) := by
  cases waiting with
  | nil => exact ⟨rfl, rfl, rfl⟩
  | cons next rest => exact ⟨rfl, rfl, rfl⟩

end Links

section Handling

variable {client other : Client} {out back : List Token} {published theirs : List Message}

@[simp] theorem passed_on_message (client : Client) (message : Message) :
    passedOn (client.call (.onMessage message)) = passedOn client ++ [message] := by
  rw [passedOn, Client.call, List.filterMap_append]
  rfl

@[simp] theorem passed_on_publish (client : Client) (mid : BitVec 16) :
    passedOn (client.call (.onPublish mid)) = passedOn client := by
  rw [passedOn, Client.call, List.filterMap_append]
  exact List.append_nil _

@[simp] theorem reported_back_message (client : Client) (message : Message) :
    reportedBack (client.call (.onMessage message)) = reportedBack client := by
  rw [reportedBack, Client.call, List.filterMap_append]
  exact List.append_nil _

@[simp] theorem reported_back_publish (client : Client) (mid : BitVec 16) :
    reportedBack (client.call (.onPublish mid)) = reportedBack client ++ [mid] := by
  rw [reportedBack, Client.call, List.filterMap_append]
  rfl

theorem flowing_same (flowing : Flowing client other out back published) {client' other' : Client}
    (same : SameOut client client') (reported : reportedBack client' = reportedBack client)
    (held : other'.inMessages = other.inMessages) (passed : passedOn other' = passedOn other) :
    Flowing client' other' out back published := by
  rcases flowing with ⟨started, waiting, flow⟩
  refine ⟨started, waiting, ?_, flow.fresh, flow.unique, flow.one, flow.two, ?_, ?_, ?_, ?_⟩
  · rw [Kept, same.messages, same.count, same.max]
    exact flow.kept
  · rw [held]
    exact flow.held
  · rw [held]
    exact flow.heldQos
  · rw [held, passed]
    exact flow.order
  · rw [reported, passedMids, passed]
    exact flow.reports

/-- What handling the first packet in transit comes to: `more` is queued, and both ways go
on. -/
structure Handles (client other : Client) (token : Token) (out back : List Token)
    (published theirs : List Message) (next : Client) (more : List Token) : Prop where
  done : ∃ rc, packetHandle client (delivered token.frame) = .ok (rc, next)
  link : next.link = queueAll client.link more
  sendable : ∀ token ∈ more, token.Sendable
  incoming : next.incoming = client.incoming
  ours : Flowing next other (out ++ more) back published
  others : Flowing other next back (out ++ more) theirs

theorem handles_publish {message : Message} (sendable : MqttTokens.Sendable message)
    (ours : Flowing client other out (.publish message :: back) published)
    (others : Flowing other client (.publish message :: back) out theirs) :
    ∃ next more, Handles client other (.publish message) out back published theirs next more := by
  rcases ours with ⟨started, waiting, own⟩
  rcases others with ⟨begun, idle, their⟩
  have own : Flow client other out ([.publish message] ++ back) published started waiting := own
  have known : message.qos = 0 ∨ message.qos = 1 ∨ message.qos = 2 := by
    have most := sendable.known
    omega
  rcases known with zero | one | two
  · refine ⟨_, [], ⟨_, handle_publish_zero client sendable zero⟩, rfl, ?_, rfl, ?_, ?_⟩
    · exact fun token member => absurd member List.not_mem_nil
    · exact ⟨started, waiting, flow_as_receiver own ⟨rfl, rfl, rfl⟩ ⟨rfl, rfl⟩ ⟨rfl, rfl, rfl⟩
        (reported_back_message _ _)⟩
    · rw [List.append_nil]
      exact ⟨begun, idle, flow_publish_zero their zero rfl (passed_on_message _ _)⟩
  · refine ⟨_, [.puback message.mid], ⟨_, handle_publish_one client sendable one⟩, ?_, ?_, rfl,
      ?_, ?_⟩
    · rw [Client.call, send_puback_token]
      rfl
    · simp [Token.Sendable]
    · exact ⟨started, waiting, flow_as_receiver own ⟨rfl, rfl, rfl⟩ ⟨rfl, rfl⟩ ⟨rfl, rfl, rfl⟩
        (reported_back_message _ _)⟩
    · exact ⟨begun, idle, flow_publish_one their one rfl (passed_on_message _ _)⟩
  · refine ⟨_, [.pubrec message.mid], ⟨_, handle_publish_two client sendable two⟩, ?_, ?_, rfl,
      ?_, ?_⟩
    · rw [messageQueueIn, send_pubrec_token]
      rfl
    · simp [Token.Sendable]
    · exact ⟨started, waiting, flow_as_receiver own ⟨rfl, rfl, rfl⟩ ⟨rfl, rfl⟩ ⟨rfl, rfl, rfl⟩
        rfl⟩
    · exact ⟨begun, idle, flow_publish_two their two
        (show (Stored.mk message .waitForPubrel client.link.now false).message = message from rfl)
        rfl rfl⟩

theorem finished_next {started waiting before after : List Stored} {cur : Stored}
    (kept : Kept client started waiting) (split : started = before ++ cur :: after)
    (clear : ∀ stored ∈ before, stored.message.mid ≠ cur.message.mid)
    (connected : client.link.connected = true)
    (fresh : ∀ stored ∈ waiting, stored.dup = false ∧ MqttTokens.Sendable stored.message) :
    Kept (messageRemoveOut client cur.message.mid).2 (before ++ after ++ comingIn waiting)
        waiting.tail ∧
      (messageRemoveOut client cur.message.mid).2.link =
        queueAll client.link (comingTokens waiting) ∧
      (messageRemoveOut client cur.message.mid).2.incoming = client.incoming ∧
      (messageRemoveOut client cur.message.mid).2.inMessages = client.inMessages ∧
      (messageRemoveOut client cur.message.mid).2.calls = client.calls := by
  rw [remove_out_spec kept split rfl clear, send_first_coming connected fresh]
  have window := kept.2
  rw [split] at window
  exact ⟨⟨rfl, window_finish window⟩, rfl, rfl, rfl, rfl⟩

theorem handles_acknowledged {token : Token} {mid : BitVec 16}
    (named : token = .puback mid ∨ token = .pubcomp mid)
    (connected : client.link.connected = true)
    (ours : Flowing client other out (token :: back) published)
    (others : Flowing other client (token :: back) out theirs) :
    ∃ next more, Handles client other token out back published theirs next more := by
  rcases ours with ⟨started, waiting, own⟩
  rcases others with ⟨begun, idle, their⟩
  have answering : Answering [token] ∧ ∃ before cur after, started = before ++ cur :: after ∧
      cur.message.mid = mid ∧ (∀ stored ∈ before, stored.message.mid ≠ mid) ∧
      ∀ next : Client, Kept next (before ++ after ++ comingIn waiting) waiting.tail →
        (∀ other, (reportedBack next).count other ≤
          (reportedBack client ++ [mid]).count other) →
        Flow next other (out ++ comingTokens waiting) back published
          (before ++ after ++ comingIn waiting) waiting.tail := by
    rcases named with rfl | rfl
    · exact ⟨⟨rfl, rfl⟩, flow_puback own⟩
    · exact ⟨⟨rfl, rfl⟩, flow_pubcomp own⟩
  rcases answering with ⟨answering, before, cur, after, split, rfl, clear, later⟩
  have their : Flow other client ([token] ++ back) out theirs begun idle := their
  have done := handle_token_acknowledged client cur.message.mid named
  rcases finished_next own.kept split clear connected own.fresh with
    ⟨kept, link, incoming, held, calls⟩
  have same : passedOn (messageRemoveOut client cur.message.mid).2 = passedOn client := by
    rw [passedOn, calls]
    rfl
  have reported : reportedBack (messageRemoveOut client cur.message.mid).2 =
      reportedBack client := by
    rw [reportedBack, calls]
    rfl
  refine ⟨_, comingTokens waiting, ⟨_, done⟩, ?_, coming_sendable own.fresh, ?_, ?_, ?_⟩
  · rw [← link]
    split <;> rfl
  · rw [← incoming]
    split <;> rfl
  · refine ⟨_, _, later _ ?_ ?_⟩
    · split
      · exact kept
      · exact kept
    · intro mid
      split
      · rw [reported_back_publish, reported]
      · rw [reported, List.count_append]
        exact Nat.le_add_right _ _
  · refine ⟨begun, idle, flow_as_sender their answering (coming_carrying waiting) ?_ ?_⟩
    · rw [← held]
      split <;> rfl
    · split
      · rw [passed_on_publish, same]
      · exact same

theorem handles_pubrec {mid : BitVec 16}
    (ours : Flowing client other out (.pubrec mid :: back) published)
    (others : Flowing other client (.pubrec mid :: back) out theirs) :
    ∃ next more, Handles client other (.pubrec mid) out back published theirs next more := by
  rcases ours with ⟨started, waiting, own⟩
  rcases others with ⟨begun, idle, their⟩
  have their : Flow other client ([.pubrec mid] ++ back) out theirs begun idle := their
  rcases flow_pubrec own with ⟨before, cur, after, split, named, clear, later⟩
  have kept := own.kept
  have messages := kept.1
  have window := kept.2
  rw [split] at messages window
  rw [List.append_assoc, List.cons_append] at messages
  have updated : (messageOutUpdate client mid .waitForPubcomp).2 = { client with
      outMessages := before ++
        { cur with state := .waitForPubcomp, timestamp := client.link.now } ::
          (after ++ waiting) } := by
    rw [messageOutUpdate, messages, update_state_first named clear]
  have done := handle_token_pubrec client mid
  rw [updated] at done
  refine ⟨_, [.pubrel mid], ⟨_, done⟩, ?_, ?_, rfl, ?_, ?_⟩
  · dsimp only
    rw [send_pubrel_token]
    rfl
  · simp [Token.Sendable]
  · refine ⟨_, _, later _ { cur with state := .waitForPubcomp, timestamp := client.link.now } rfl
      ⟨?_, ?_⟩ rfl⟩
    · rw [List.append_assoc, List.cons_append]
    · exact window_change window rfl (show MsgState.waitForPubcomp ≠ .invalid by decide)
  · exact ⟨begun, idle, flow_as_sender their ⟨rfl, rfl⟩ ⟨rfl, rfl, rfl⟩ rfl rfl⟩

theorem handles_pubrel {mid : BitVec 16}
    (ours : Flowing client other out (.pubrel mid :: back) published)
    (others : Flowing other client (.pubrel mid :: back) out theirs) :
    ∃ next more, Handles client other (.pubrel mid) out back published theirs next more := by
  rcases ours with ⟨started, waiting, own⟩
  rcases others with ⟨begun, idle, their⟩
  have own : Flow client other out ([.pubrel mid] ++ back) published started waiting := own
  rcases flow_pubrel their with ⟨cur, rest, held, named, later⟩
  have released : releaseHeld client mid =
      { client with inMessages := rest }.call (.onMessage cur.message) := by
    rw [releaseHeld, messageRemoveIn, held, unlink, if_pos named]
  have done := handle_token_pubrel client mid
  rw [released] at done
  refine ⟨_, [.pubcomp mid], ⟨_, done⟩, ?_, ?_, rfl, ?_, ?_⟩
  · dsimp only
    rw [send_pubcomp_token]
    rfl
  · simp [Token.Sendable]
  · exact ⟨started, waiting, flow_as_receiver own ⟨rfl, rfl, rfl⟩ ⟨rfl, rfl⟩ ⟨rfl, rfl, rfl⟩
      (reported_back_message _ _)⟩
  · exact ⟨begun, idle, later _ rfl (passed_on_message _ _)⟩

theorem handles_token {token : Token} (sendable : token.Sendable)
    (connected : client.link.connected = true)
    (ours : Flowing client other out (token :: back) published)
    (others : Flowing other client (token :: back) out theirs) :
    ∃ next more, Handles client other token out back published theirs next more := by
  cases token with
  | publish message => exact handles_publish sendable ours others
  | puback mid => exact handles_acknowledged (Or.inl rfl) connected ours others
  | pubrec mid => exact handles_pubrec ours others
  | pubrel mid => exact handles_pubrel ours others
  | pubcomp mid => exact handles_acknowledged (Or.inr rfl) connected ours others

end Handling

section Steps

/-- Both directions of a connection. -/
structure Joins (this other : End) (past out gone back : List Token) : Prop where
  forth : Wire this.client other.client other.carried past out
  hither : Wire other.client this.client this.carried gone back
  ours : Flowing this.client other.client out back this.published
  theirs : Flowing other.client this.client back out other.published

def Joined (this other : End) : Prop :=
  ∃ past out gone back, Joins this other past out gone back

variable {this other : End} {past out gone back : List Token}

theorem joined_symm (joined : Joined this other) : Joined other this := by
  rcases joined with ⟨past, out, gone, back, joins⟩
  exact ⟨gone, back, past, out, joins.hither, joins.forth, joins.theirs, joins.ours⟩

theorem joined_link (joins : Joins this other past out gone back) {link : Link}
    (sent : Sent (past ++ out) link) (grown : this.client.link.written <+: link.written) :
    Joined { this with client := { this.client with link := link } } other := by
  have sent : Sent (past ++ out ++ []) link := by
    rw [List.append_nil]
    exact sent
  have forth : Wire { this.client with link := link } other.client other.carried past (out ++ []) :=
    wire_sender joins.forth (fun token member => absurd member List.not_mem_nil) sent grown
  rw [List.append_nil] at forth
  exact ⟨past, out, gone, back, forth, wire_receiver joins.hither rfl rfl,
    flowing_same joins.ours ⟨rfl, rfl, rfl⟩ rfl rfl rfl,
    flowing_same joins.theirs ⟨rfl, rfl, rfl⟩ rfl rfl rfl⟩

theorem joined_carry (joins : Joins this other past out gone back) (count : Nat) :
    Joined (act this other (.carry count)) other :=
  ⟨past, out, gone, back, wire_same_sender joins.forth rfl, wire_carry joins.hither count,
    flowing_same joins.ours ⟨rfl, rfl, rfl⟩ rfl rfl rfl,
    flowing_same joins.theirs ⟨rfl, rfl, rfl⟩ rfl rfl rfl⟩

theorem wire_more (joins : Joins this other past out gone back) {more : List Token}
    (sendable : ∀ token ∈ more, token.Sendable) {next : Client}
    (link : next.link = queueAll this.client.link more) :
    Wire next other.client other.carried past (out ++ more) := by
  have queued := sent_queue_all more joins.forth.sent joins.forth.formed sendable
  rw [← link] at queued
  exact wire_sender joins.forth sendable queued.1 queued.2

theorem packet_done_ok {client next : Client} {packet : InPacket} {rc : MosqErr}
    (done : packetHandle client packet = .ok (rc, next)) :
    (packetDone client packet).2 =
      { next with inPacket := packetCleanup, lastMsgIn := next.link.now } := by
  rw [packetDone, done]

theorem joined_read (joins : Joins this other past out gone back) (script : List CallOutcome) :
    Joined (act this other (.read script)) other := by
  have connected := joins.forth.sent.connected
  rw [act, MqttClient.packetRead, if_neg (by rw [connected]; decide)]
  split
  · exact ⟨past, out, gone, back, joins⟩
  · cases result : collect script ⟨this.client.inPacket, this.client.incoming⟩ with
    | stopped rc inbound =>
        exact ⟨past, out, gone, back, wire_same_sender joins.forth rfl,
          wire_stopped joins.hither result rfl rfl,
          flowing_same joins.ours ⟨rfl, rfl, rfl⟩ rfl rfl rfl,
          flowing_same joins.theirs ⟨rfl, rfl, rfl⟩ rfl rfl rfl⟩
    | ready packet incoming =>
        rcases wire_ready joins.hither result with ⟨token, rest, split, rfl, sendable, later⟩
        have ours := joins.ours
        have theirs := joins.theirs
        rw [split] at ours theirs
        have ours : Flowing { this.client with incoming := incoming } other.client out
            (token :: rest) this.published := flowing_same ours ⟨rfl, rfl, rfl⟩ rfl rfl rfl
        have theirs : Flowing other.client { this.client with incoming := incoming }
            (token :: rest) out other.published := flowing_same theirs ⟨rfl, rfl, rfl⟩ rfl rfl rfl
        have opened : ({ this.client with incoming := incoming } : Client).link.connected = true :=
          connected
        rcases handles_token sendable opened ours theirs with ⟨next, more, handles⟩
        rcases handles.done with ⟨rc, done⟩
        dsimp only
        rw [packet_done_ok done]
        refine ⟨past, out ++ more, gone ++ [token], rest, ?_, ?_, ?_, ?_⟩
        · exact wire_more joins handles.sendable handles.link
        · exact later _ rfl handles.incoming
        · exact flowing_same handles.ours ⟨rfl, rfl, rfl⟩ rfl rfl rfl
        · exact flowing_same handles.others ⟨rfl, rfl, rfl⟩ rfl rfl rfl

theorem made_sendable {client : Client} {topic payload : List Byte} {qos : Nat} {retain : Bool}
    (accepted : publishRefused topic payload qos = none) (text : 0 ∉ topic)
    (fits : (publishBody (midGenerate client.lastMid) topic payload qos).length < 268435456) :
    MqttTokens.Sendable (made client topic payload qos retain) := by
  rw [publishRefused] at accepted
  split at accepted
  · exact absurd accepted (by simp)
  next known =>
  split at accepted
  · exact absurd accepted (by simp)
  next given =>
  split at accepted
  · exact absurd accepted (by simp)
  split at accepted
  · exact absurd accepted (by simp)
  next valid =>
  have short := (MqttTopics.pub_topic_check_iff topic).mp (not_not.mp valid)
  exact ⟨by dsimp only [made]; omega, given, text, by dsimp only [made]; omega, fits⟩

def accepted (client : Client) (message : Message) : Client :=
  if message.qos = 0 then
    { client with lastMid := message.mid, link := (sendPublish client.link message false).2 }
  else (publishKept { client with lastMid := message.mid } message).2

theorem publish_accepted {client : Client} {topic payload : List Byte} {qos : Nat} {retain : Bool}
    (taken : publishRefused topic payload qos = none) :
    (publish client topic payload qos retain).2 =
      accepted client (made client topic payload qos retain) := by
  rw [publish, taken, accepted]
  by_cases zero : qos = 0
  · rw [if_pos (show (made client topic payload qos retain).qos = 0 from zero)]
    dsimp only
    rw [if_pos zero]
    rfl
  · rw [if_neg (show (made client topic payload qos retain).qos ≠ 0 from zero)]
    dsimp only
    rw [if_neg zero]
    rfl

theorem accepted_rest (client : Client) (message : Message) :
    (accepted client message).inPacket = client.inPacket ∧
      (accepted client message).incoming = client.incoming ∧
      (accepted client message).inMessages = client.inMessages ∧
      passedOn (accepted client message) = passedOn client := by
  rw [accepted, publishKept, messageQueueOut]
  dsimp only
  split
  · exact ⟨rfl, rfl, rfl, rfl⟩
  · rw [if_pos (by omega)]
    split
    next queued next same =>
        split at same
        · rcases Prod.mk.inj same with ⟨_, rfl⟩
          exact ⟨rfl, rfl, rfl, rfl⟩
        · exact absurd (congrArg Prod.fst same) Bool.false_ne_true
    next queued next same =>
        split at same
        · exact absurd (congrArg Prod.fst same).symm Bool.false_ne_true
        · rcases Prod.mk.inj same with ⟨_, rfl⟩
          exact ⟨rfl, rfl, rfl, rfl⟩

theorem flowing_accepted {client other : Client} {published : List Message}
    (flowing : Flowing client other out back published) {message : Message}
    (sendable : MqttTokens.Sendable message) (connected : client.link.connected = true)
    (unused : message.qos > 0 → message.mid ∉ client.outMessages.map storedMid) :
    ∃ more, (more = [.publish message] ∨ more = []) ∧
      (accepted client message).link = queueAll client.link more ∧
      Flowing (accepted client message) other (out ++ more) back (published ++ [message]) := by
  have known := sendable.known
  rcases flowing with ⟨started, waiting, flow⟩
  by_cases zero : message.qos = 0
  · rw [accepted, if_pos zero]
    refine ⟨[.publish message], Or.inl rfl, ?_, started, waiting,
      flow_sent_zero flow zero ⟨rfl, rfl, rfl⟩ rfl⟩
    dsimp only
    rw [send_publish_token _ sendable connected]
    rfl
  · rw [accepted, if_neg zero]
    have level : message.qos = 1 ∨ message.qos = 2 := by omega
    have kept : Kept { client with lastMid := message.mid } started waiting := flow.kept
    have window := flow.kept.2
    have spare := unused (by omega)
    rw [flow.kept.1] at spare
    rcases publish_kept_spec kept message level with ⟨room, none, sent⟩ | ⟨full, waits⟩
    · rw [sent]
      have begins := window_start window
        (show (underWay ⟨message, .invalid, client.link.now, false⟩).message.qos = 1 ∨
          (underWay ⟨message, .invalid, client.link.now, false⟩).message.qos = 2 from level)
        (wait_state_begun level .invalid) room
      rw [none] at flow spare
      rw [List.append_nil] at spare
      refine ⟨[.publish message], Or.inl rfl, ?_, _, _,
        flow_started flow level rfl ⟨?_, begins.2⟩ spare rfl⟩
      · dsimp only
        rw [send_publish_token _ sendable connected]
        rfl
      · rw [List.append_nil]
    · rw [waits]
      have stays := window_wait window
        (show (Stored.mk message .invalid client.link.now false).message.qos = 1 ∨
          (Stored.mk message .invalid client.link.now false).message.qos = 2 from level)
        rfl full
      refine ⟨[], Or.inr rfl, rfl, ?_⟩
      rw [List.append_nil]
      exact ⟨_, _, flow_waits flow rfl ⟨rfl, sendable⟩ ⟨rfl, stays⟩ spare rfl⟩

theorem joined_publish (joins : Joins this other past out gone back)
    {topic payload : List Byte} {qos : Nat} {retain : Bool}
    (proper : Proper this (.publish topic payload qos retain)) :
    Joined (act this other (.publish topic payload qos retain)) other := by
  rw [act]
  cases taken : publishRefused topic payload qos with
  | some rc =>
      have nothing : (publish this.client topic payload qos retain).2 = this.client := by
        rw [publish, taken]
      rw [nothing, if_neg (Option.some_ne_none rc)]
      exact ⟨past, out, gone, back, joins⟩
  | none =>
      have sendable : MqttTokens.Sendable (made this.client topic payload qos retain) :=
        made_sendable taken proper.1 proper.2.1
      have connected := joins.forth.sent.connected
      rcases joins.theirs with ⟨begun, idle, their⟩
      have their : Flow other.client this.client ([] ++ back) out other.published begun idle :=
        their
      rcases flowing_accepted joins.ours sendable connected proper.2.2 with
        ⟨more, only, link, ours⟩
      have rest := accepted_rest this.client (made this.client topic payload qos retain)
      have formed : ∀ token ∈ more, token.Sendable := by
        rcases only with rfl | rfl
        · simpa [Token.Sendable] using sendable
        · exact fun token member => absurd member List.not_mem_nil
      have carrying : Carrying more := by
        rcases only with rfl | rfl <;> exact ⟨rfl, rfl, rfl⟩
      rw [publish_accepted taken, if_pos rfl]
      refine ⟨past, out ++ more, gone, back, wire_more joins formed link,
        wire_receiver joins.hither rest.1 rest.2.1, ours, begun, idle, ?_⟩
      exact flow_as_sender their ⟨rfl, rfl⟩ carrying rest.2.2.1 rest.2.2.2

theorem act_joined (joined : Joined this other) (op : Op) (proper : Proper this op) :
    Joined (act this other op) other := by
  rcases joined with ⟨past, out, gone, back, joins⟩
  cases op with
  | publish topic payload qos retain => exact joined_publish joins proper
  | write =>
      have sent := sent_write joins.forth.sent joins.forth.formed
      exact joined_link joins sent.1 sent.2
  | carry count => exact joined_carry joins count
  | read script => exact joined_read joins script
  | meanwhile writes inCallback now =>
      rcases joins.forth.sent with ⟨connected, finished, account, split⟩
      exact joined_link joins ⟨connected, finished, ⟨account.current, account.waiting,
        account.bytes, account.reports⟩, split⟩ (List.prefix_refl _)

theorem step_joined (exchange : Exchange) (op : Bool × Op)
    (joined : Joined exchange.near exchange.far) (proper : ProperStep exchange op) :
    Joined (step exchange op).near (step exchange op).far := by
  rcases op with ⟨side, op⟩
  cases side with
  | true => exact act_joined joined op proper
  | false => exact joined_symm (act_joined (joined_symm joined) op proper)

theorem fresh_flow (fresh : Fresh this) (opposite : Fresh other) :
    Flow this.client other.client [] [] this.published [] [] := by
  constructor
  · refine ⟨fresh.outMessages, ?_⟩
    rw [fresh.inflight]
    constructor
    · exact fun stored member => absurd member List.not_mem_nil
    · exact fun stored member => absurd member List.not_mem_nil
    · exact fun stored member => absurd member List.not_mem_nil
    · rfl
    · exact fun _ => fresh.max
    · exact fun some => absurd rfl some
  · exact fun stored member => absurd member List.not_mem_nil
  · exact List.nodup_nil
  · rfl
  · rfl
  · rw [opposite.inMessages]
    rfl
  · rw [opposite.inMessages]
    exact fun stored member => absurd member List.not_mem_nil
  · intro qos
    rw [passedOn, opposite.calls, opposite.inMessages, fresh.published]
    rfl
  · intro mid
    rw [reportedBack, fresh.calls]
    exact Nat.zero_le _

theorem fresh_wire (fresh : Fresh this) (opposite : Fresh other) :
    Wire this.client other.client other.carried [] [] := by
  constructor
  · exact fun token member => absurd member List.not_mem_nil
  · refine ⟨fresh.connected, [], ⟨?_, ?_, ?_, ?_⟩, ?_⟩
    · intro sending here
      rw [fresh.current] at here
      exact absurd here.symm (Option.some_ne_none _)
    · rw [fresh.queue]
      exact fun sending member => absurd member List.not_mem_nil
    · rw [fresh.written, Link.begun, fresh.current]
      rfl
    · rw [Link.reported, fresh.events]
      rfl
    · rw [Link.pending, fresh.current, fresh.queue]
      rfl
  · rw [opposite.carried]
    exact Nat.zero_le _
  · refine ⟨[], ?_, ?_⟩
    · rw [opposite.carried, opposite.incoming, List.take_zero]
      rfl
    · rw [opposite.packet]
      rfl

theorem fresh_joined (fresh : Fresh this) (opposite : Fresh other) : Joined this other :=
  ⟨[], [], [], [], fresh_wire fresh opposite, fresh_wire opposite fresh,
    ⟨[], [], fresh_flow fresh opposite⟩, ⟨[], [], fresh_flow opposite fresh⟩⟩

theorem run_joined (start : Exchange) (ops : List (Bool × Op))
    (fresh : Fresh start.near ∧ Fresh start.far)
    (proper : StepRuns.EveryStep step ProperStep start ops) :
    Joined (StepRuns.run step start ops).near (StepRuns.run step start ops).far :=
  StepRuns.invariant_of_every_step step_joined start (fresh_joined fresh.1 fresh.2) ops proper

end Steps

/-! ## Message ids of a run that is not too long -/

section Ids

open MqttIds (Numbered Fewer drawn)

variable {first : BitVec 16} {count : Nat} {client : Client} {this : End}

/-- The id that comes next is not one of a kept message, before the counter has gone round. -/
theorem next_mid_unused (numbered : Numbered first count client) (few : count < 65535) :
    midGenerate client.lastMid ∉ client.outMessages.map storedMid := by
  intro used
  have next : midGenerate client.lastMid = drawn first (count + 1) := by
    rw [numbered.last]
    rfl
  have among := numbered.kept.subset used
  rw [next] at among
  have within : count + 1 ≤ 65535 := by omega
  have distinct := MqttIds.first_ids_nodup first within
  rw [MqttIds.first_ids_succ, List.nodup_append] at distinct
  exact distinct.2.2 _ among _ (List.mem_singleton_self _) rfl

theorem packet_read_fewer (client : Client) (script : List CallOutcome) :
    Fewer client (packetRead client script).2 := by
  rw [MqttClient.packetRead]
  split
  · exact MqttIds.fewer_refl client
  split
  · exact MqttIds.fewer_refl client
  split
  · exact MqttIds.fewer_same rfl rfl
  next packet incoming _ =>
  have loses := MqttIds.packet_handle_loses { client with incoming := incoming } packet
  rw [packetDone]
  split
  next rc after handled =>
      have fewer := loses rc after handled
      exact ⟨fewer.last, fewer.kept⟩
  · exact MqttIds.fewer_same rfl rfl
  · exact MqttIds.fewer_same rfl rfl

def publishes : Op → Bool
  | .publish _ _ _ _ => true
  | _ => false

theorem act_numbered (numbered : Numbered first count this.client) (other : End) (op : Op) :
    ∃ more, more ≤ (if publishes op then 1 else 0) ∧
      Numbered first (count + more) (act this other op).client := by
  have kept : ∀ {next : Client}, Fewer this.client next →
      ∃ more, more ≤ 0 ∧ Numbered first (count + more) next :=
    fun fewer => ⟨0, Nat.le_refl _, MqttIds.numbered_fewer numbered fewer⟩
  cases op with
  | publish topic payload qos retain =>
      exact MqttIds.publish_numbered numbered topic payload qos retain
  | write => exact kept (MqttIds.fewer_same rfl rfl)
  | carry count => exact kept (MqttIds.fewer_same rfl rfl)
  | read script => exact kept (packet_read_fewer this.client script)
  | meanwhile writes inCallback now => exact kept (MqttIds.fewer_same rfl rfl)

/-- The topic is a C string and the packet is not too long. -/
def Sized : Op → Prop
  | .publish topic payload qos _ =>
      0 ∉ topic ∧ ∀ mid, (publishBody mid topic payload qos).length < 268435456
  | _ => True

theorem proper_of_sized (numbered : Numbered first count this.client) (few : count < 65535)
    {op : Op} (sized : Sized op) : Proper this op := by
  cases op with
  | publish topic payload qos retain =>
      exact ⟨sized.1, sized.2 _, fun _ => next_mid_unused numbered few⟩
  | write | carry count | read script | meanwhile writes inCallback now => exact trivial

def publishesAt (side : Bool) (op : Bool × Op) : Bool := op.1 == side && publishes op.2

theorem run_proper {exchange : Exchange} {near far : BitVec 16} {nearCount farCount : Nat}
    (ours : Numbered near nearCount exchange.near.client)
    (theirs : Numbered far farCount exchange.far.client) {ops : List (Bool × Op)}
    (sized : ∀ op ∈ ops, Sized op.2)
    (few : nearCount + ops.countP (publishesAt true) ≤ 65534)
    (few' : farCount + ops.countP (publishesAt false) ≤ 65534) :
    StepRuns.EveryStep step ProperStep exchange ops := by
  induction ops generalizing exchange nearCount farCount with
  | nil => exact trivial
  | cons op rest induction =>
      rw [List.forall_mem_cons] at sized
      rw [List.countP_cons] at few few'
      rcases op with ⟨side, op⟩
      cases side with
      | true =>
          rcases act_numbered ours exchange.far op with ⟨more, least, after⟩
          have counted : publishesAt true (true, op) = publishes op := rfl
          rw [counted] at few
          refine ⟨proper_of_sized ours (by omega) sized.1, ?_⟩
          exact induction after theirs sized.2 (by omega) (by omega)
      | false =>
          rcases act_numbered theirs exchange.near op with ⟨more, least, after⟩
          have counted : publishesAt false (false, op) = publishes op := rfl
          rw [counted] at few'
          refine ⟨proper_of_sized theirs (by omega) sized.1, ?_⟩
          exact induction ours after sized.2 (by omega) (by omega)

theorem numbered_fresh (fresh : Fresh this) : Numbered this.client.lastMid 0 this.client := by
  refine ⟨rfl, ?_⟩
  rw [fresh.outMessages]
  exact List.nil_sublist _

/-- While each end publishes fewer than 65535 messages, no id needs to be looked after. -/
theorem proper_of_few (start : Exchange) (ops : List (Bool × Op))
    (fresh : Fresh start.near ∧ Fresh start.far) (sized : ∀ op ∈ ops, Sized op.2)
    (few : ∀ side, ops.countP (publishesAt side) ≤ 65534) :
    StepRuns.EveryStep step ProperStep start ops := by
  apply run_proper (numbered_fresh fresh.1) (numbered_fresh fresh.2) sized
  · rw [Nat.zero_add]
    exact few true
  · rw [Nat.zero_add]
    exact few false

end Ids

section Results

/-- What became at one end of the messages of the other one. -/
structure Arrive (this other : End) : Prop where
  /-- The messages of each QoS come in their order, none is lost between two that come, none
  comes twice. -/
  order : ∀ qos,
    withQos qos (passedOn other.client) <+: withQos qos (this.published.map received)
  /-- An acknowledged message is reported only after it has come. -/
  reported : ∀ mid, (reportedBack this.client).count mid ≤ (passedMids other.client).count mid

/-- All the messages have come, and nothing of them is kept. -/
structure AllCame (this other : End) : Prop where
  all : ∀ qos, withQos qos (passedOn other.client) = withQos qos (this.published.map received)
  sent : this.client.outMessages = []
  held : other.client.inMessages = []

/-- What one end has queued is written, carried and read. -/
structure Through (this other : End) : Prop where
  written : this.client.link.pending = []
  carried : other.carried = this.client.link.written.length
  read : other.client.incoming = []

variable {this other : End}

theorem joined_arrive (joined : Joined this other) : Arrive this other := by
  rcases joined with ⟨past, out, gone, back, joins⟩
  rcases joins.ours with ⟨started, waiting, flow⟩
  constructor
  · intro qos
    rw [← flow.order qos]
    exact List.prefix_append _ _
  · intro mid
    have reports := flow.reports mid
    omega

/-- With nothing in transit there is no message that is under way, so none waits. -/
theorem flow_quiet {sender receiver : Client} {published : List Message}
    {started waiting : List Stored} (flow : Flow sender receiver [] [] published started waiting) :
    started = [] ∧ waiting = [] ∧ receiver.inMessages = [] := by
  have window := flow.kept.2
  have none : started = [] := by
    rw [List.eq_nil_iff_forall_not_mem]
    intro stored member
    have level := window.known stored (List.mem_append_left _ member)
    have among : storedMid stored ∈ midsOf stored.message.qos started :=
      List.mem_map_of_mem (List.mem_filter.mpr ⟨member, decide_eq_true rfl⟩)
    rcases level with one | two
    · rw [one, flow.one] at among
      exact absurd among List.not_mem_nil
    · rw [two, flow.two] at among
      exact absurd among List.not_mem_nil
  refine ⟨none, ?_, List.map_eq_nil_iff.mp flow.held⟩
  by_contra some
  have full := window.full some
  have count := window.count
  rw [none, List.length_nil] at count
  omega

theorem joined_all_came (joined : Joined this other) (forth : Through this other)
    (hither : Through other this) : AllCame this other := by
  rcases joined with ⟨past, out, gone, back, joins⟩
  have out_empty := wire_done joins.forth forth.written forth.carried forth.read
  have back_empty := wire_done joins.hither hither.written hither.carried hither.read
  rcases joins.ours with ⟨started, waiting, flow⟩
  rw [out_empty, back_empty] at flow
  have quiet := flow_quiet flow
  constructor
  · intro qos
    have order := flow.order qos
    rw [quiet.2.1, quiet.2.2] at order
    rw [← order]
    exact (List.append_nil _).symm
  · rw [flow.kept.1, quiet.1, quiet.2.1]
    rfl
  · exact quiet.2.2

def connectedClient (id : List Byte) : Client :=
  let client := mosquittoReinitialise id true 0
  { client with
    link := { client.link with connected := true, state := .connected,
                               writes := List.replicate 4 (.moved 64) } }

def connectedEnd (id : List Byte) : End := ⟨connectedClient id, 0, []⟩

def handshake : List (Bool × Op) :=
  let reads : List CallOutcome := List.replicate 3 (.moved 64)
  [(true, .publish [0x61] [0x62] 2 false), (false, .carry 64), (false, .read reads),
    (true, .carry 64), (true, .read reads), (false, .carry 64), (false, .read reads),
    (true, .carry 64), (true, .read reads)]

theorem connected_fresh : Fresh (connectedEnd [0x61]) ∧ Fresh (connectedEnd [0x62]) := by
  constructor <;> constructor <;> decide

theorem handshake_sized : ∀ op ∈ handshake, Sized op.2 := by
  have sized : Sized (.publish [0x61] [0x62] 2 false) := by
    refine ⟨by decide, ?_⟩
    intro mid
    rw [publish_body_length]
    decide
  intro op member
  rcases List.mem_cons.mp member with first | later
  · rw [first]
    exact sized
  · have others : ∀ op ∈ handshake.tail, publishes op.2 = false := by decide
    have plain := others op later
    rcases op with ⟨side, op⟩
    cases op with
    | publish topic payload qos retain => cases plain
    | write | carry count | read script | meanwhile writes inCallback now => exact trivial

theorem handshake_proper : StepRuns.EveryStep step ProperStep
    ⟨connectedEnd [0x61], connectedEnd [0x62]⟩ handshake :=
  proper_of_few _ _ connected_fresh handshake_sized (by decide)

def shaken : Exchange := StepRuns.run step ⟨connectedEnd [0x61], connectedEnd [0x62]⟩ handshake

/-- However both programs publish, write and read and the network carries, each end passes
on the messages of the other in the order of their publication, those of QoS 0, 1 and 2 each
by themselves, and no message is reported as delivered that was not passed on. -/
theorem messages_arrive_in_order (start : Exchange) (ops : List (Bool × Op))
    (fresh : Fresh start.near ∧ Fresh start.far)
    (proper : StepRuns.EveryStep step ProperStep start ops) :
    Arrive (StepRuns.run step start ops).near (StepRuns.run step start ops).far ∧
      Arrive (StepRuns.run step start ops).far (StepRuns.run step start ops).near :=
  ⟨joined_arrive (run_joined start ops fresh proper),
    joined_arrive (joined_symm (run_joined start ops fresh proper))⟩

theorem messages_arrive_in_order_handshake :
    Arrive shaken.near shaken.far ∧ Arrive shaken.far shaken.near :=
  messages_arrive_in_order _ _ connected_fresh handshake_proper

/-- When everything is written, carried and read, every message has been passed on, and
neither end keeps one. -/
theorem all_came_when_quiet (start : Exchange) (ops : List (Bool × Op))
    (fresh : Fresh start.near ∧ Fresh start.far)
    (proper : StepRuns.EveryStep step ProperStep start ops)
    (forth : Through (StepRuns.run step start ops).near (StepRuns.run step start ops).far)
    (hither : Through (StepRuns.run step start ops).far (StepRuns.run step start ops).near) :
    AllCame (StepRuns.run step start ops).near (StepRuns.run step start ops).far ∧
      AllCame (StepRuns.run step start ops).far (StepRuns.run step start ops).near :=
  ⟨joined_all_came (run_joined start ops fresh proper) forth hither,
    joined_all_came (joined_symm (run_joined start ops fresh proper)) hither forth⟩

theorem all_came_when_quiet_handshake :
    AllCame shaken.near shaken.far ∧ AllCame shaken.far shaken.near := by
  apply all_came_when_quiet _ _ connected_fresh handshake_proper
  · constructor <;> decide +kernel
  · constructor <;> decide +kernel

end Results

end Gk7102.MqttDelivery
