import Gk7102.MqttClient
import Gk7102.StepRuns

/-!
# The keepalive

After a silence of `keepalive` seconds the client sends a PINGREQ, and after as long without
an answer it gives the connection up.
-/

namespace Gk7102.MqttKeepalive

open ByteBlocks SocketCalls MqttPacket MqttReading MqttSending MqttCodec MqttConnect MqttClient

set_option autoImplicit false

section Source

def sendPingreq (client : Client) : MosqErr × Client :=
  let (rc, link) := sendPacket client.link (sendSimpleCommand PINGREQ)
  (rc, { client with
    link := link
    pingT := if rc = .success then link.now else client.pingT })

/-- The socket is closed and `on_disconnect` called, with 0 when the client wanted it so. -/
def disconnected (client : Client) (rc : Int) : Client :=
  let rc := if client.link.state = .disconnecting then 0 else rc
  { client with link := socketClose client.link }.call (.onDisconnect rc)

def keepaliveSeconds (link : Link) : Int := link.keepalive.toNat

/-- It is time for a packet of this client, or one of the peer is overdue. -/
def Due (client : Client) : Prop :=
  client.link.now ≥ client.link.nextMsgOut ∨
    client.link.now - client.lastMsgIn ≥ keepaliveSeconds client.link

instance (client : Client) : Decidable (Due client) := inferInstanceAs (Decidable (_ ∨ _))

/-- A PINGREQ has not been answered for `keepalive` seconds. -/
def Overdue (client : Client) : Prop :=
  client.pingT ≠ 0 ∧ client.link.now - client.pingT ≥ keepaliveSeconds client.link

instance (client : Client) : Decidable (Overdue client) := inferInstanceAs (Decidable (_ ∧ _))

def checkKeepalive (client : Client) : Client :=
  if client.link.keepalive ≠ 0 ∧ client.link.connected = true ∧ Due client then
    if client.link.state = .connected ∧ client.pingT = 0 then
      let (_, pinging) := sendPingreq client
      { pinging with
        lastMsgIn := client.link.now
        link := { pinging.link with
          nextMsgOut := client.link.now + keepaliveSeconds client.link } }
    else disconnected client 1
  else client

/-- The retries are looked for every other second. -/
def retried (client : Client) : Client :=
  if client.lastRetryCheck + 1 < client.link.now then
    { messageRetryCheck client with lastRetryCheck := client.link.now }
  else client

def loopMisc (client : Client) : MosqErr × Client :=
  if client.link.connected = false then (.noConn, client)
  else
    let client := retried (checkKeepalive client)
    if Overdue client then (.connLost, disconnected client 1) else (.success, client)

/-- `_mosquitto_reconnect`; `opened` says whether the socket could be connected, and `writes`
how it answers. -/
def reconnect (client : Client) (opened : Bool) (writes : List CallOutcome) : Client :=
  let link := { client.link with
    connected := opened, state := .new, currentOutPacket := none, outPacket := [], written := []
    writes := writes
    nextMsgOut := client.link.now + keepaliveSeconds client.link }
  let client := messagesReconnectReset { client with
    link := link, lastMsgIn := client.link.now, pingT := 0, inPacket := packetCleanup
    incoming := [] }
  if opened then
    { client with link := (sendPacket client.link (sendConnect client.session)).2 }
  else client

def disconnect (client : Client) : Client :=
  let link := { client.link with state := .disconnecting }
  if link.connected = false then { client with link := link }
  else { client with link := (sendPacket link (sendSimpleCommand DISCONNECT)).2 }

def errorCode : MosqErr → Int
  | .connPending => -1
  | .success => 0
  | .nomem => 1
  | .protocol => 2
  | .inval => 3
  | .noConn => 4
  | .connRefused => 5
  | .notFound => 6
  | .connLost => 7
  | .tls => 8
  | .payloadSize => 9
  | .notSupported => 10
  | .auth => 11
  | .aclDenied => 12
  | .unknown => 13
  | .errno => 14
  | .eai => 15
  | .proxy => 16

def loopRcHandle (client : Client) (rc : MosqErr) : Client :=
  if rc = .success then client else disconnected client (errorCode rc)

def loopRead (client : Client) (script : List CallOutcome) : Client :=
  match packetRead client script with
  | (some rc, client) => loopRcHandle client rc
  | (none, client) => client

def loopWrite (client : Client) : Client :=
  let (rc, link) := packetWrite client.link
  loopRcHandle { client with link := link } rc

end Source

section Links

/-- What sending does to the clock of a link: a packet that is written whole moves the time
of the next one on. -/
structure Goes (link after : Link) : Prop where
  now : after.now = link.now
  keepalive : after.keepalive = link.keepalive
  state : after.state = link.state
  out : after.nextMsgOut = link.nextMsgOut ∨
    after.nextMsgOut = link.now + keepaliveSeconds link
  connected : after.connected = true → link.connected = true
  writes : after.writes <:+ link.writes

theorem goes_refl (link : Link) : Goes link link :=
  ⟨rfl, rfl, rfl, Or.inl rfl, id, List.suffix_refl _⟩

theorem goes_trans {first second third : Link} (front : Goes first second)
    (back : Goes second third) : Goes first third := by
  constructor
  · rw [back.now, front.now]
  · rw [back.keepalive, front.keepalive]
  · rw [back.state, front.state]
  · rcases back.out with same | moved
    · rw [same]
      exact front.out
    · right
      rw [moved, front.now, keepaliveSeconds, front.keepalive]
      rfl
  · exact fun connected => front.connected (back.connected connected)
  · exact back.writes.trans front.writes

theorem write_current_writes (script : List CallOutcome) (sending : Sending)
    (written : List Byte) : (writeCurrent script sending written).2.2.2 <:+ script := by
  induction script generalizing sending written with
  | nil => exact List.suffix_refl _
  | cons outcome script induction =>
      rw [writeCurrent]
      split
      · dsimp only
        split
        · exact (induction _ _).trans (List.suffix_cons _ _)
        · exact List.suffix_cons _ _
      · exact List.suffix_refl _

theorem write_packet_goes (link : Link) (sending : Sending) (queue : List Sending) :
    Goes link (writePacket link sending queue).2 := by
  have writes := write_current_writes link.writes sending link.written
  rw [writePacket]
  rcases out : writeCurrent link.writes sending link.written with ⟨rc, after, written, left⟩
  rw [out] at writes
  cases rc with
  | some rc => exact ⟨rfl, rfl, rfl, Or.inl rfl, id, writes⟩
  | none =>
      dsimp only
      split
      · exact ⟨rfl, rfl, rfl, Or.inr rfl, id, writes⟩
      · split
        · exact ⟨rfl, rfl, rfl, Or.inr rfl, fun closed => absurd closed Bool.false_ne_true, writes⟩
        · exact ⟨rfl, rfl, rfl, Or.inr rfl, id, writes⟩

theorem write_queue_goes (link : Link) (sending : Sending) (queue : List Sending) :
    Goes link (writeQueue link sending queue).2 := by
  induction queue generalizing link sending with
  | nil =>
      have one := write_packet_goes link sending []
      rw [writeQueue]
      split
      next rc after out =>
          rw [out] at one
          exact one
      next after out =>
          rw [out] at one
          exact one
  | cons next rest induction =>
      have one := write_packet_goes link sending (next :: rest)
      rw [writeQueue]
      split
      next rc after out =>
          rw [out] at one
          exact one
      next after out =>
          rw [out] at one
          exact goes_trans one (induction after next)

theorem packet_write_goes (link : Link) : Goes link (packetWrite link).2 := by
  rw [packetWrite]
  split
  · exact goes_refl link
  · have first : Goes link (takeFirst link) := by
      rw [takeFirst]
      split
      · exact ⟨rfl, rfl, rfl, Or.inl rfl, id, List.suffix_refl _⟩
      · exact goes_refl link
    dsimp only
    split
    · exact first
    · split
      · exact first
      · exact goes_trans first (write_queue_goes _ _ _)

theorem packet_queue_goes (link : Link) (packet : OutPacket) :
    Goes link (packetQueue link packet).2 := by
  have queued : Goes link
      { link with outPacket := link.outPacket ++ [⟨packet, packet.packetLength, 0⟩] } :=
    ⟨rfl, rfl, rfl, Or.inl rfl, id, List.suffix_refl _⟩
  rw [packetQueue]
  dsimp only
  split
  · exact goes_trans queued (packet_write_goes _)
  · exact queued

theorem send_packet_goes (link : Link) (packet : Except MosqErr OutPacket) :
    Goes link (sendPacket link packet).2 := by
  cases packet with
  | error rc => exact goes_refl link
  | ok packet => exact packet_queue_goes link packet

theorem send_publish_goes (link : Link) (message : Message) (dup : Bool) :
    Goes link (sendPublish link message dup).2 := by
  rw [sendPublish]
  split
  · exact goes_refl link
  · exact send_packet_goes link _

theorem promote_goes (max : Int) (messages : List Stored) (inflight : Int) (link : Link) :
    Goes link (promote max messages inflight link).2.2.2 := by
  induction messages generalizing inflight link with
  | nil => exact goes_refl link
  | cons cur rest induction =>
      rw [promote]
      split
      · split
        · have sent := send_publish_goes link
            { cur with state := waitState cur.message.qos cur.state }.message
            { cur with state := waitState cur.message.qos cur.state }.dup
          dsimp only at sent ⊢
          split
          next after out =>
              rw [out] at sent
              exact goes_trans sent (induction (inflight + 1) after)
          next rc after other out =>
              rw [out] at sent
              exact sent
        · exact induction inflight link
      · exact goes_refl link

theorem retry_message_goes (stored : Stored) (link : Link) :
    Goes link (retryMessage stored link).2 := by
  rw [retryMessage]
  split
  · exact send_publish_goes link _ _
  · exact send_publish_goes link _ _
  · exact send_packet_goes link _
  · exact send_packet_goes link _
  · exact goes_refl link

theorem retry_goes (retry now : Int) (messages : List Stored) (link : Link) :
    Goes link (retryCheckActual retry now messages link).2 := by
  induction messages generalizing link with
  | nil => exact goes_refl link
  | cons cur rest induction =>
      rw [retryCheckActual]
      dsimp only
      split
      · exact goes_trans (retry_message_goes cur link) (induction _)
      · exact induction link

end Links

section Clients

/-- What a client does without hearing of its peer. -/
structure Silent (client after : Client) : Prop where
  link : Goes client.link after.link
  ping : after.pingT = client.pingT
  heard : after.lastMsgIn = client.lastMsgIn
  calls : after.calls = client.calls

/-- What the times of a client are after any of its operations. -/
structure Keeps (client after : Client) : Prop where
  now : after.link.now = client.link.now
  keepalive : after.link.keepalive = client.link.keepalive
  out : after.link.nextMsgOut = client.link.nextMsgOut ∨
    after.link.nextMsgOut = client.link.now + keepaliveSeconds client.link
  ping : after.pingT = client.pingT ∨ after.pingT = 0
  heard : after.lastMsgIn = client.lastMsgIn ∨ after.lastMsgIn = client.link.now

theorem keeps_refl (client : Client) : Keeps client client :=
  ⟨rfl, rfl, Or.inl rfl, Or.inl rfl, Or.inl rfl⟩

theorem keeps_trans {first second third : Client} (front : Keeps first second)
    (back : Keeps second third) : Keeps first third := by
  constructor
  · rw [back.now, front.now]
  · rw [back.keepalive, front.keepalive]
  · rcases back.out with same | moved
    · rw [same]
      exact front.out
    · right
      rw [moved, front.now, keepaliveSeconds, front.keepalive]
      rfl
  · rcases back.ping with same | none
    · rw [same]
      exact front.ping
    · exact Or.inr none
  · rcases back.heard with same | now
    · rw [same]
      exact front.heard
    · right
      rw [now, front.now]

theorem keeps_of_silent {client after : Client} (silent : Silent client after) :
    Keeps client after :=
  ⟨silent.link.now, silent.link.keepalive, silent.link.out, Or.inl silent.ping,
    Or.inl silent.heard⟩

theorem message_queue_out_link (client : Client) (stored : Stored) :
    (messageQueueOut client stored).2.link = client.link ∧
      (messageQueueOut client stored).2.pingT = client.pingT ∧
      (messageQueueOut client stored).2.lastMsgIn = client.lastMsgIn ∧
      (messageQueueOut client stored).2.calls = client.calls := by
  rw [messageQueueOut]
  dsimp only
  split
  · split
    · exact ⟨rfl, rfl, rfl, rfl⟩
    · exact ⟨rfl, rfl, rfl, rfl⟩
  · exact ⟨rfl, rfl, rfl, rfl⟩

theorem publish_kept_silent (client : Client) (message : Message) :
    Silent client (publishKept client message).2 := by
  have queued := message_queue_out_link client ⟨message, .invalid, client.link.now, false⟩
  rw [publishKept]
  split
  next started next =>
      rw [next] at queued
      refine ⟨?_, queued.2.1, queued.2.2.1, queued.2.2.2⟩
      have sent := send_publish_goes started.link message false
      rw [queued.1] at sent
      dsimp only at sent ⊢
      rw [queued.1]
      exact sent
  next kept next =>
      rw [next] at queued
      refine ⟨?_, queued.2.1, queued.2.2.1, queued.2.2.2⟩
      rw [queued.1]
      exact goes_refl _

theorem publish_silent (client : Client) (topic payload : List Byte) (qos : Nat) (retain : Bool) :
    Silent client (publish client topic payload qos retain).2 := by
  rw [publish]
  split
  · exact ⟨goes_refl _, rfl, rfl, rfl⟩
  · dsimp only
    split
    · exact ⟨send_publish_goes _ _ _, rfl, rfl, rfl⟩
    · have kept := publish_kept_silent { client with lastMid := midGenerate client.lastMid }
        ⟨midGenerate client.lastMid, topic, payload, qos, retain⟩
      exact ⟨kept.link, kept.ping, kept.heard, kept.calls⟩

theorem retry_check_silent (client : Client) : Silent client (messageRetryCheck client) :=
  ⟨goes_trans (retry_goes _ _ _ _) (retry_goes _ _ _ _), rfl, rfl, rfl⟩

theorem remove_out_silent (client : Client) (mid : BitVec 16) :
    Silent client (messageRemoveOut client mid).2 := by
  rw [messageRemoveOut]
  cases unlink mid client.outMessages with
  | none => exact ⟨goes_refl _, rfl, rfl, rfl⟩
  | some found => exact ⟨promote_goes _ _ _ _, rfl, rfl, rfl⟩

/-- A handler that came to its end has kept the times. -/
def Handles (client : Client) (result : Handled) : Prop :=
  ∀ rc next, result = .ok (rc, next) → Keeps client next

theorem handles_ok {client next : Client} {rc : MosqErr} (keeps : Keeps client next) :
    Handles client (.ok (rc, next)) := by
  intro rc' next' same
  rcases Prod.mk.inj (Except.ok.inj same) with ⟨_, rfl⟩
  exact keeps

theorem handles_bind {Result : Type} {client : Client} {parsed : Except Stop Result}
    {next : Result → Handled} (later : ∀ result, Handles client (next result)) :
    Handles client (parsed >>= next) := by
  cases parsed with
  | error stop => exact fun rc next same => absurd same (by simp [bind, Except.bind])
  | ok result => exact later result

theorem handle_publish_keeps (client : Client) (packet : InPacket) :
    Handles client (handlePublish client packet) := by
  apply handles_bind
  intro received
  have acked := send_packet_goes client.link (sendCommandWithMid PUBACK received.message.mid false)
  have recorded :=
    send_packet_goes client.link (sendCommandWithMid PUBREC received.message.mid false)
  dsimp only
  split
  · exact handles_ok ⟨rfl, rfl, Or.inl rfl, Or.inl rfl, Or.inl rfl⟩
  · exact handles_ok ⟨acked.now, acked.keepalive, acked.out, Or.inl rfl, Or.inl rfl⟩
  · exact handles_ok ⟨recorded.now, recorded.keepalive, recorded.out, Or.inl rfl, Or.inl rfl⟩
  · exact fun rc next same => absurd same (by simp [throw, throwThe, MonadExceptOf.throw])

theorem handle_pubackcomp_keeps (client : Client) (packet : InPacket) :
    Handles client (handlePubackcomp client packet) := by
  apply handles_bind
  intro mid
  have removed := keeps_of_silent (remove_out_silent client mid)
  dsimp only
  split
  · exact handles_ok ⟨removed.now, removed.keepalive, removed.out, removed.ping, removed.heard⟩
  · exact handles_ok removed

theorem out_update_silent (client : Client) (mid : BitVec 16) (state : MsgState) :
    Silent client (messageOutUpdate client mid state).2 := by
  rw [messageOutUpdate]
  cases updateState mid state client.link.now client.outMessages with
  | none => exact ⟨goes_refl _, rfl, rfl, rfl⟩
  | some messages => exact ⟨goes_refl _, rfl, rfl, rfl⟩

theorem handle_pubrec_keeps (client : Client) (packet : InPacket) :
    Handles client (handlePubrec client packet) := by
  apply handles_bind
  intro mid
  have updated := out_update_silent client mid .waitForPubcomp
  have sent := send_packet_goes (messageOutUpdate client mid .waitForPubcomp).2.link
    (sendCommandWithMid (PUBREL ||| 2) mid false)
  exact handles_ok (keeps_of_silent ⟨goes_trans updated.link sent, updated.ping, updated.heard,
    updated.calls⟩)

theorem release_held_times (client : Client) (mid : BitVec 16) :
    (releaseHeld client mid).link = client.link ∧
      (releaseHeld client mid).pingT = client.pingT ∧
      (releaseHeld client mid).lastMsgIn = client.lastMsgIn := by
  rw [releaseHeld, messageRemoveIn]
  cases unlink mid client.inMessages with
  | none => exact ⟨rfl, rfl, rfl⟩
  | some found => exact ⟨rfl, rfl, rfl⟩

theorem handle_pubrel_keeps (client : Client) (packet : InPacket) :
    Handles client (handlePubrel client packet) := by
  rw [handlePubrel]
  split
  · exact fun rc next same => absurd same (by simp [throw, throwThe, MonadExceptOf.throw])
  · apply handles_bind
    intro mid
    have released := release_held_times client mid
    have sent := send_packet_goes (releaseHeld client mid).link
      (sendCommandWithMid PUBCOMP mid false)
    rw [released.1] at sent
    apply handles_ok
    dsimp only
    rw [released.1]
    exact ⟨sent.now, sent.keepalive, sent.out, Or.inl released.2.1, Or.inl released.2.2⟩

theorem handle_connack_keeps (client : Client) (packet : InPacket) :
    Handles client (handleConnack client packet) := by
  apply handles_bind
  intro result
  dsimp only
  split
  · exact handles_ok ⟨rfl, rfl, Or.inl rfl, Or.inl rfl, Or.inl rfl⟩
  · exact handles_ok ⟨rfl, rfl, Or.inl rfl, Or.inl rfl, Or.inl rfl⟩

theorem packet_handle_keeps (client : Client) (packet : InPacket) :
    Handles client (packetHandle client packet) := by
  have answered := send_packet_goes client.link (sendSimpleCommand PINGRESP)
  apply packet_handle_cases (Handles client)
  · exact handles_ok ⟨answered.now, answered.keepalive, answered.out, Or.inl rfl, Or.inl rfl⟩
  · exact handles_ok ⟨rfl, rfl, Or.inl rfl, Or.inr rfl, Or.inl rfl⟩
  · exact fun _ => handle_pubackcomp_keeps client packet
  · exact fun _ => handle_publish_keeps client packet
  · exact fun _ => handle_pubrec_keeps client packet
  · exact fun _ => handle_pubrel_keeps client packet
  · exact handle_connack_keeps client packet
  · apply handles_bind
    intro result
    exact handles_ok ⟨rfl, rfl, Or.inl rfl, Or.inl rfl, Or.inl rfl⟩
  · apply handles_bind
    intro mid
    exact handles_ok ⟨rfl, rfl, Or.inl rfl, Or.inl rfl, Or.inl rfl⟩
  · exact fun _ rc next same => absurd same (by simp)

theorem packet_done_keeps (client : Client) (packet : InPacket) :
    Keeps client (packetDone client packet).2 := by
  have handled := packet_handle_keeps client packet
  rw [packetDone]
  split
  next rc next done =>
      have keeps := handled rc next done
      exact ⟨keeps.now, keeps.keepalive, keeps.out, keeps.ping, Or.inr keeps.now⟩
  · exact ⟨rfl, rfl, Or.inl rfl, Or.inl rfl, Or.inr rfl⟩
  · exact keeps_refl client

theorem packet_read_keeps (client : Client) (script : List CallOutcome) :
    Keeps client (packetRead client script).2 := by
  rw [MqttClient.packetRead]
  split
  · exact keeps_refl client
  split
  · exact keeps_refl client
  split
  next rc inbound stopped =>
      refine ⟨rfl, rfl, Or.inl rfl, Or.inl rfl, ?_⟩
      dsimp only
      split
      · exact Or.inr rfl
      · exact Or.inl rfl
  next packet incoming ready =>
      have done := packet_done_keeps { client with incoming := incoming } packet
      exact ⟨done.now, done.keepalive, done.out, done.ping, done.heard⟩

theorem disconnected_keeps (client : Client) (rc : Int) : Keeps client (disconnected client rc) :=
  ⟨rfl, rfl, Or.inl rfl, Or.inl rfl, Or.inl rfl⟩

theorem rc_handle_keeps (client : Client) (rc : MosqErr) :
    Keeps client (loopRcHandle client rc) := by
  rw [loopRcHandle]
  split
  · exact keeps_refl client
  · exact disconnected_keeps client _

theorem loop_read_keeps (client : Client) (script : List CallOutcome) :
    Keeps client (loopRead client script) := by
  have read := packet_read_keeps client script
  rw [loopRead]
  split
  next rc next out =>
      rw [out] at read
      exact keeps_trans read (rc_handle_keeps next rc)
  next next out =>
      rw [out] at read
      exact read

theorem loop_write_keeps (client : Client) : Keeps client (loopWrite client) := by
  have silent : Silent client { client with link := (packetWrite client.link).2 } :=
    ⟨packet_write_goes client.link, rfl, rfl, rfl⟩
  exact keeps_trans (keeps_of_silent silent) (rc_handle_keeps _ _)

end Clients

section Runs

inductive Op where
  | publish (topic payload : List Byte) (qos : Nat) (retain : Bool)
  | read (script : List CallOutcome)
  | write
  | misc
  | disconnect
  | reconnect (opened : Bool) (writes : List CallOutcome)
  /-- The socket has more bytes. -/
  | arrive (bytes : List Byte)
  /-- How the socket answers from now on, and whether a callback runs. -/
  | meanwhile (writes : List CallOutcome) (inCallback : Bool)
  | tick (seconds : Nat)

def step (client : Client) : Op → Client
  | .publish topic payload qos retain => (publish client topic payload qos retain).2
  | .read script => loopRead client script
  | .write => loopWrite client
  | .misc => (loopMisc client).2
  | .disconnect => disconnect client
  | .reconnect opened writes => reconnect client opened writes
  | .arrive bytes => { client with incoming := client.incoming ++ bytes }
  | .meanwhile writes inCallback =>
      { client with link := { client.link with writes := writes, inCallback := inCallback } }
  | .tick seconds =>
      { client with link := { client.link with now := client.link.now + seconds } }

/-- The times fit together: since a PINGREQ went out, so much time was given to its answer. -/
structure Timed (client : Client) : Prop where
  heard : client.lastMsgIn ≤ client.link.now
  asked : client.pingT ≠ 0 → client.pingT ≤ client.lastMsgIn ∧
    client.pingT + keepaliveSeconds client.link ≤ client.link.nextMsgOut
  idle : client.link.keepalive = 0 → client.pingT = 0

variable {client after : Client}

theorem keepalive_pos {link : Link} (some : link.keepalive ≠ 0) : 0 < keepaliveSeconds link := by
  have positive : 0 < link.keepalive.toNat := by
    rw [Nat.pos_iff_ne_zero]
    intro zero
    exact some (BitVec.eq_of_toNat_eq zero)
  exact Int.natCast_pos.mpr positive

theorem timed_keeps (timed : Timed client) (keeps : Keeps client after) : Timed after := by
  have heard := timed.heard
  have same : keepaliveSeconds after.link = keepaliveSeconds client.link := by
    rw [keepaliveSeconds, keeps.keepalive]
    rfl
  constructor
  · rw [keeps.now]
    rcases keeps.heard with old | now <;> omega
  · intro asked
    rcases keeps.ping with old | none
    · rw [old] at asked ⊢
      rw [same]
      have before := timed.asked asked
      rcases keeps.heard with last | last <;> rcases keeps.out with next | next <;>
        exact ⟨by omega, by omega⟩
    · exact absurd none asked
  · intro zero
    rw [keeps.keepalive] at zero
    rcases keeps.ping with old | none
    · rw [old]
      exact timed.idle zero
    · exact none

theorem check_keepalive_cases (client : Client) :
    ((client.link.keepalive = 0 ∨ client.link.connected = false ∨ ¬ Due client) ∧
        checkKeepalive client = client) ∨
      ((client.link.keepalive ≠ 0 ∧ client.link.connected = true ∧ Due client ∧
          client.link.state = .connected ∧ client.pingT = 0) ∧
        checkKeepalive client = { (sendPingreq client).2 with
          lastMsgIn := client.link.now
          link := { (sendPingreq client).2.link with
            nextMsgOut := client.link.now + keepaliveSeconds client.link } }) ∨
      ((client.link.keepalive ≠ 0 ∧ client.link.connected = true ∧ Due client ∧
          ¬ (client.link.state = .connected ∧ client.pingT = 0)) ∧
        checkKeepalive client = disconnected client 1) := by
  rw [checkKeepalive]
  by_cases due : client.link.keepalive ≠ 0 ∧ client.link.connected = true ∧ Due client
  · right
    rw [if_pos due]
    by_cases asks : client.link.state = .connected ∧ client.pingT = 0
    · left
      rw [if_pos asks]
      exact ⟨⟨due.1, due.2.1, due.2.2, asks⟩, rfl⟩
    · right
      rw [if_neg asks]
      exact ⟨⟨due.1, due.2.1, due.2.2, asks⟩, rfl⟩
  · left
    rw [if_neg due]
    refine ⟨?_, rfl⟩
    rw [← Bool.not_eq_true]
    tauto

theorem send_pingreq_goes (client : Client) :
    Goes client.link (sendPingreq client).2.link :=
  send_packet_goes client.link (sendSimpleCommand PINGREQ)

theorem check_keepalive_timed (timed : Timed client) : Timed (checkKeepalive client) := by
  rcases check_keepalive_cases client with ⟨_, same⟩ | ⟨asks, same⟩ | ⟨_, same⟩
  · rw [same]
    exact timed
  · have goes := send_pingreq_goes client
    have seconds : keepaliveSeconds (sendPingreq client).2.link = keepaliveSeconds client.link := by
      rw [keepaliveSeconds, goes.keepalive]
      rfl
    have ping : (sendPingreq client).2.pingT = client.link.now ∨
        (sendPingreq client).2.pingT = client.pingT := by
      have now := goes.now
      rw [sendPingreq] at now ⊢
      dsimp only at now ⊢
      split
      · exact Or.inl now
      · exact Or.inr rfl
    rw [same]
    constructor
    · dsimp only
      rw [goes.now]
    · intro asked
      dsimp only at asked ⊢
      change _ ∧ _ + keepaliveSeconds (sendPingreq client).2.link ≤ _
      rw [seconds]
      rcases ping with now | old
      · exact ⟨by omega, by omega⟩
      · rw [old] at asked
        exact absurd asks.2.2.2.2 asked
    · intro zero
      dsimp only at zero
      rw [goes.keepalive] at zero
      exact absurd zero asks.1
  · rw [same]
    exact timed_keeps timed (disconnected_keeps client 1)

theorem retried_silent (client : Client) : Silent client (retried client) := by
  rw [retried]
  split
  · have silent := retry_check_silent client
    exact ⟨silent.link, silent.ping, silent.heard, silent.calls⟩
  · exact ⟨goes_refl _, rfl, rfl, rfl⟩

theorem loop_misc_eq (connected : client.link.connected = true) :
    (loopMisc client).2 =
      if Overdue (retried (checkKeepalive client)) then
        disconnected (retried (checkKeepalive client)) 1
      else retried (checkKeepalive client) := by
  rw [loopMisc, if_neg (by rw [connected]; decide)]
  dsimp only
  split <;> rfl

theorem loop_misc_timed (timed : Timed client) : Timed (loopMisc client).2 := by
  cases connected : client.link.connected with
  | false =>
      rw [loopMisc, if_pos connected]
      exact timed
  | true =>
      have later := timed_keeps (check_keepalive_timed timed)
        (keeps_of_silent (retried_silent (checkKeepalive client)))
      rw [loop_misc_eq connected]
      split
      · exact timed_keeps later (disconnected_keeps _ 1)
      · exact later

theorem reconnect_timed (client : Client) (opened : Bool) (writes : List CallOutcome) :
    Timed (reconnect client opened writes) := by
  have fresh : ∀ link : Link, ∀ client' : Client, client'.link = link → client'.pingT = 0 →
      client'.lastMsgIn ≤ link.now → Timed client' := by
    intro link client' same none heard
    refine ⟨?_, fun asked => absurd none asked, fun _ => none⟩
    rw [same]
    exact heard
  rw [reconnect]
  dsimp only
  split
  · apply fresh _ _ rfl rfl
    have sent := send_packet_goes (messagesReconnectReset { client with
      link := { client.link with
        connected := opened, state := .new, currentOutPacket := none, outPacket := []
        written := [], writes := writes
        nextMsgOut := client.link.now + keepaliveSeconds client.link }
      lastMsgIn := client.link.now, pingT := 0, inPacket := packetCleanup, incoming := [] }).link
      (sendConnect client.session)
    exact sent.now.ge
  · exact fresh _ _ rfl rfl (Int.le_refl _)

theorem disconnect_keeps (client : Client) : Keeps client (disconnect client) := by
  rw [disconnect]
  dsimp only
  split
  · exact ⟨rfl, rfl, Or.inl rfl, Or.inl rfl, Or.inl rfl⟩
  · have sent := send_packet_goes { client.link with state := .disconnecting }
      (sendSimpleCommand DISCONNECT)
    exact ⟨sent.now, sent.keepalive, sent.out, Or.inl rfl, Or.inl rfl⟩

theorem step_timed (client : Client) (op : Op) (timed : Timed client) : Timed (step client op) := by
  cases op with
  | publish topic payload qos retain =>
      exact timed_keeps timed (keeps_of_silent (publish_silent client topic payload qos retain))
  | read script => exact timed_keeps timed (loop_read_keeps client script)
  | write => exact timed_keeps timed (loop_write_keeps client)
  | misc => exact loop_misc_timed timed
  | disconnect => exact timed_keeps timed (disconnect_keeps client)
  | reconnect opened writes => exact reconnect_timed client opened writes
  | arrive bytes => exact ⟨timed.heard, timed.asked, timed.idle⟩
  | meanwhile writes inCallback => exact ⟨timed.heard, timed.asked, timed.idle⟩
  | tick seconds =>
      have heard := timed.heard
      refine ⟨?_, timed.asked, timed.idle⟩
      change client.lastMsgIn ≤ client.link.now + seconds
      omega

def lost (client : Client) : Event :=
  .onDisconnect (if client.link.state = .disconnecting then 0 else 1)

def reports (client : Client) : List Event :=
  if client.link.connected = false ∨ client.link.keepalive = 0 then []
  else if client.link.state = .connected then
    if Overdue client then
      if Due client then [lost client, lost client] else [lost client]
    else []
  else
    (if Due client then [lost client] else []) ++ if Overdue client then [lost client] else []

theorem overdue_congr (now : after.link.now = client.link.now)
    (keepalive : after.link.keepalive = client.link.keepalive)
    (ping : after.pingT = client.pingT) : Overdue after ↔ Overdue client := by
  rw [Overdue, Overdue, now, ping, keepaliveSeconds, keepalive]
  rfl

theorem loop_misc_calls (connected : client.link.connected = true) :
    (loopMisc client).2.calls = (checkKeepalive client).calls ++
      if Overdue (checkKeepalive client) then [lost (checkKeepalive client)] else [] := by
  have silent := retried_silent (checkKeepalive client)
  have same := overdue_congr silent.link.now silent.link.keepalive silent.ping
  rw [loop_misc_eq connected]
  by_cases overdue : Overdue (checkKeepalive client)
  · rw [if_pos (same.mpr overdue), if_pos overdue, disconnected, Client.call, lost,
      silent.link.state, silent.calls]
  · rw [if_neg (mt same.mp overdue), if_neg overdue, silent.calls, List.append_nil]

/-- A PINGREQ that is due has had all its time. -/
theorem overdue_of_due (timed : Timed client) (due : Due client) (asked : client.pingT ≠ 0) :
    Overdue client := by
  have given := timed.asked asked
  refine ⟨asked, ?_⟩
  rcases due with next | last <;> omega

theorem not_overdue_pinged (some : client.link.keepalive ≠ 0)
    (now : after.link.now = client.link.now)
    (keepalive : after.link.keepalive = client.link.keepalive)
    (ping : after.pingT = client.link.now ∨ after.pingT = 0) : ¬ Overdue after := by
  have positive := keepalive_pos some
  intro overdue
  have long := overdue.2
  have asked := overdue.1
  rw [now, keepaliveSeconds, keepalive] at long
  rw [keepaliveSeconds] at positive
  rcases ping with new | none <;> omega

theorem send_pingreq_client (client : Client) :
    (sendPingreq client).2.calls = client.calls ∧
      ((sendPingreq client).2.pingT = client.link.now ∨
        (sendPingreq client).2.pingT = client.pingT) := by
  have now := (send_pingreq_goes client).now
  rw [sendPingreq] at now ⊢
  refine ⟨rfl, ?_⟩
  dsimp only at now ⊢
  split
  · exact Or.inl now
  · exact Or.inr rfl

/-- A PINGREQ that has just gone out is not overdue. -/
theorem loop_misc_asks (asks : client.link.keepalive ≠ 0 ∧ client.link.connected = true ∧
      Due client ∧ client.link.state = .connected ∧ client.pingT = 0)
    (same : checkKeepalive client = { (sendPingreq client).2 with
      lastMsgIn := client.link.now
      link := { (sendPingreq client).2.link with
        nextMsgOut := client.link.now + keepaliveSeconds client.link } }) :
    (loopMisc client).2.calls = client.calls := by
  have goes := send_pingreq_goes client
  have pinged := send_pingreq_client client
  have early : ¬ Overdue (checkKeepalive client) := by
    rw [same]
    apply not_overdue_pinged asks.1 goes.now goes.keepalive
    rcases pinged.2 with now | old
    · exact Or.inl now
    · exact Or.inr (old.trans asks.2.2.2.2)
  rw [loop_misc_calls asks.2.1, if_neg early, List.append_nil, same]
  exact pinged.1

theorem loop_misc_gives_up (connected : client.link.connected = true)
    (same : checkKeepalive client = disconnected client 1) :
    (loopMisc client).2.calls =
      client.calls ++ [lost client] ++ if Overdue client then [lost client] else [] := by
  rw [loop_misc_calls connected, same]
  rfl

theorem loop_misc_reports (timed : Timed client) :
    (loopMisc client).2.calls = client.calls ++ reports client := by
  by_cases idle : client.link.connected = false ∨ client.link.keepalive = 0
  · rw [reports, if_pos idle, List.append_nil]
    cases connected : client.link.connected with
    | false => rw [loopMisc, if_pos connected]
    | true =>
        have zero : client.link.keepalive = 0 := by
          rcases idle with closed | zero
          · exact absurd (connected.symm.trans closed) (by decide)
          · exact zero
        have checked : checkKeepalive client = client := by
          rw [checkKeepalive, if_neg fun due => due.1 zero]
        rw [loop_misc_calls connected, checked, if_neg fun overdue => overdue.1 (timed.idle zero),
          List.append_nil]
  · rw [reports, if_neg idle]
    have connected : client.link.connected = true := by
      rw [← Bool.not_eq_false]
      exact fun closed => idle (Or.inl closed)
    rcases check_keepalive_cases client with ⟨none, same⟩ | ⟨asks, same⟩ | ⟨gives, same⟩
    · have calm : ¬ Due client := by tauto
      rw [loop_misc_calls connected, same, if_neg calm, if_neg calm, List.nil_append, ite_self]
    · have quiet : ¬ Overdue client := fun overdue => overdue.1 asks.2.2.2.2
      rw [loop_misc_asks asks same, if_pos asks.2.2.2.1, if_neg quiet, List.append_nil]
    · rw [loop_misc_gives_up connected same, if_pos gives.2.2.1, if_pos gives.2.2.1,
        List.append_assoc]
      by_cases established : client.link.state = .connected
      · have asked : client.pingT ≠ 0 := fun none => gives.2.2.2 ⟨established, none⟩
        have overdue := overdue_of_due timed gives.2.2.1 asked
        rw [if_pos established, if_pos overdue, if_pos overdue]
        rfl
      · rw [if_neg established]

/-- In every run `mosquitto_loop_misc` gives up an established connection only when a PINGREQ
has not been answered for `keepalive` seconds. It then calls `on_disconnect` twice, except
when packets have come and gone in the meantime. -/
theorem lost_connections_reported (start : Client) (ops : List Op) (idle : start.pingT = 0)
    (heard : start.lastMsgIn ≤ start.link.now) :
    StepRuns.AlongRun step
      (fun client => (loopMisc client).2.calls = client.calls ++ reports client) start ops := by
  have timed : Timed start := ⟨heard, fun asked => absurd idle asked, fun _ => idle⟩
  apply StepRuns.along_run_of_every_step (fun _ => loop_misc_reports)
    (fun client op holds _ => step_timed client op holds) start timed ops
  exact StepRuns.every_step_trivial start ops

/-- A client that has connected at second 5 and hears nothing. -/
theorem lost_connections_reported_silence :
    let start := mosquittoReinitialise [0x61] true 5
    let silence : List Op := [.reconnect true [.moved 64, .moved 64], .arrive [0x20, 2, 0, 0],
      .read [.moved 0, .moved 0, .moved 1], .tick 60, .misc, .tick 60, .misc]
    StepRuns.AlongRun step
      (fun client => (loopMisc client).2.calls = client.calls ++ reports client) start silence :=
  lost_connections_reported _ _ rfl (by decide)

end Runs

section Silence

/-- The socket takes bytes or has no room for now. -/
def works : CallOutcome → Bool
  | .failed errno => errno == EAGAIN
  | .moved _ => true

abbrev Reliable (writes : List CallOutcome) : Prop := ∀ outcome ∈ writes, works outcome = true

theorem reliable_suffix {writes later : List CallOutcome} (reliable : Reliable writes)
    (suffix : later <:+ writes) : Reliable later :=
  fun outcome member => reliable outcome (suffix.subset member)

theorem write_current_reliable {script : List CallOutcome} (reliable : Reliable script)
    (sending : Sending) (written : List Byte) :
    ∀ rc, (writeCurrent script sending written).1 = some rc → rc = .success := by
  induction script generalizing sending written with
  | nil =>
      intro rc
      rw [writeCurrent]
      split
      · exact fun same => (Option.some.inj same).symm
      · exact fun none => absurd none.symm (Option.some_ne_none rc)
  | cons outcome script induction =>
      intro rc
      rw [writeCurrent]
      split
      next left =>
          dsimp only
          split
          · exact induction (reliable_suffix reliable (List.suffix_cons _ _)) _ _ rc
          next nothing =>
              intro same
              cases outcome with
              | failed errno =>
                  have again := reliable (.failed errno) List.mem_cons_self
                  rw [stopped, if_pos (beq_iff_eq.mp again)] at same
                  exact (Option.some.inj same).symm
              | moved more =>
                  rw [CallOutcome.accepted] at nothing
                  omega
      next done => exact fun none => absurd none.symm (Option.some_ne_none rc)

theorem write_packet_reliable {link : Link} (reliable : Reliable link.writes) (sending : Sending)
    (queue : List Sending) :
    ∀ rc, (writePacket link sending queue).1 = some rc → rc = .success := by
  have current := write_current_reliable reliable sending link.written
  intro rc
  rw [writePacket]
  rcases out : writeCurrent link.writes sending link.written with ⟨early, after, written, left⟩
  rw [out] at current
  cases early with
  | some early => exact fun same => current rc same
  | none =>
      dsimp only
      split
      · exact fun none => absurd none.symm (Option.some_ne_none rc)
      · split
        · exact fun same => (Option.some.inj same).symm
        · exact fun none => absurd none.symm (Option.some_ne_none rc)

theorem write_queue_reliable {link : Link} (reliable : Reliable link.writes) (sending : Sending)
    (queue : List Sending) : (writeQueue link sending queue).1 = .success := by
  induction queue generalizing link sending with
  | nil =>
      have one := write_packet_reliable reliable sending []
      rw [writeQueue]
      split
      next rc after out =>
          rw [out] at one
          exact one rc rfl
      next after out => rfl
  | cons next rest induction =>
      have one := write_packet_reliable reliable sending (next :: rest)
      have goes := write_packet_goes link sending (next :: rest)
      rw [writeQueue]
      split
      next rc after out =>
          rw [out] at one
          exact one rc rfl
      next after out =>
          rw [out] at goes
          exact induction (reliable_suffix reliable goes.writes) next

theorem packet_queue_reliable {link : Link} (reliable : Reliable link.writes)
    (connected : link.connected = true) (packet : OutPacket) :
    (packetQueue link packet).1 = .success := by
  rw [packetQueue]
  dsimp only
  split
  · rw [packetWrite, if_neg (by rw [connected]; decide)]
    dsimp only
    split
    · rfl
    · split
      · rfl
      · apply write_queue_reliable
        rw [takeFirst]
        split <;> exact reliable
  · rfl

theorem send_pingreq_reliable {client : Client} (reliable : Reliable client.link.writes)
    (connected : client.link.connected = true) :
    (sendPingreq client).2.pingT = client.link.now := by
  have now := (send_pingreq_goes client).now
  have sent : (sendPacket client.link (sendSimpleCommand PINGREQ)).1 = .success :=
    packet_queue_reliable reliable connected _
  rw [sendPingreq] at now ⊢
  dsimp only at now ⊢
  rw [if_pos sent]
  exact now

/-- A client, and when `mosquitto_loop_misc` was called last. -/
structure Watch where
  client : Client
  checked : Int

def watchStep (watch : Watch) (op : Op) : Watch where
  client := step watch.client op
  checked :=
    match op with
    | .misc => watch.client.link.now
    | _ => watch.checked

/-- Nothing comes from the peer, and the loop goes round every `gap` seconds. -/
def Unheard (gap : Nat) (watch : Watch) : Op → Prop
  | .read _ => False
  | .arrive _ => False
  | .reconnect _ _ => False
  | .tick seconds => watch.client.link.now + seconds ≤ watch.checked + gap
  | .meanwhile writes _ => Reliable writes
  | _ => True

/-- What is known of a connection whose peer fell silent at second `since`. -/
structure Waits (since keepalive : Int) (gap : Nat) (watch : Watch) : Prop where
  now : 0 < watch.client.link.now
  some : watch.client.link.keepalive ≠ 0
  seconds : keepaliveSeconds watch.client.link = keepalive
  writes : Reliable watch.client.link.writes
  recent : watch.client.link.now ≤ watch.checked + gap
  heard : watch.client.link.connected = true → watch.client.pingT = 0 →
    watch.client.lastMsgIn ≤ since ∧ watch.checked < since + keepalive
  asked : watch.client.link.connected = true → watch.client.pingT ≠ 0 →
    watch.client.pingT ≤ since + keepalive + gap ∧ watch.checked < since + 2 * keepalive + gap

/-- An operation that neither hears of the peer nor asks it. -/
structure Calm (client after : Client) : Prop where
  now : after.link.now = client.link.now
  keepalive : after.link.keepalive = client.link.keepalive
  ping : after.pingT = client.pingT
  heard : after.lastMsgIn = client.lastMsgIn
  connected : after.link.connected = true → client.link.connected = true
  writes : after.link.writes <:+ client.link.writes

variable {client after : Client} {since keepalive : Int} {gap : Nat} {watch : Watch}

theorem calm_of_silent (silent : Silent client after) : Calm client after :=
  ⟨silent.link.now, silent.link.keepalive, silent.ping, silent.heard, silent.link.connected,
    silent.link.writes⟩

theorem calm_trans {third : Client} (front : Calm client after) (back : Calm after third) :
    Calm client third :=
  ⟨back.now.trans front.now, back.keepalive.trans front.keepalive, back.ping.trans front.ping,
    back.heard.trans front.heard, fun connected => front.connected (back.connected connected),
    back.writes.trans front.writes⟩

theorem disconnected_calm (client : Client) (rc : Int) : Calm client (disconnected client rc) :=
  ⟨rfl, rfl, rfl, rfl, fun closed => absurd closed Bool.false_ne_true, List.suffix_refl _⟩

theorem loop_write_calm (client : Client) : Calm client (loopWrite client) := by
  have silent : Silent client { client with link := (packetWrite client.link).2 } :=
    ⟨packet_write_goes client.link, rfl, rfl, rfl⟩
  change Calm client (loopRcHandle { client with link := (packetWrite client.link).2 }
    (packetWrite client.link).1)
  rw [loopRcHandle]
  split
  · exact calm_of_silent silent
  · exact calm_trans (calm_of_silent silent) (disconnected_calm _ _)

theorem disconnect_calm (client : Client) : Calm client (disconnect client) := by
  rw [disconnect]
  dsimp only
  split
  · exact ⟨rfl, rfl, rfl, rfl, id, List.suffix_refl _⟩
  · have sent := send_packet_goes { client.link with state := .disconnecting }
      (sendSimpleCommand DISCONNECT)
    exact ⟨sent.now, sent.keepalive, rfl, rfl, sent.connected, sent.writes⟩

theorem waits_calm (waits : Waits since keepalive gap watch) {after : Watch}
    (calm : Calm watch.client after.client) (checked : after.checked = watch.checked) :
    Waits since keepalive gap after := by
  constructor
  · rw [calm.now]
    exact waits.now
  · rw [calm.keepalive]
    exact waits.some
  · rw [← waits.seconds, keepaliveSeconds, calm.keepalive]
    rfl
  · exact reliable_suffix waits.writes calm.writes
  · rw [calm.now, checked]
    exact waits.recent
  · intro connected none
    rw [calm.ping] at none
    rw [calm.heard, checked]
    exact waits.heard (calm.connected connected) none
  · intro connected asked
    rw [calm.ping] at asked ⊢
    rw [checked]
    exact waits.asked (calm.connected connected) asked

theorem waits_checked (waits : Waits since keepalive gap watch)
    (now : after.link.now = watch.client.link.now)
    (same : after.link.keepalive = watch.client.link.keepalive)
    (writes : after.link.writes <:+ watch.client.link.writes)
    (heard : after.link.connected = true → after.pingT = 0 →
      after.lastMsgIn ≤ since ∧ watch.client.link.now < since + keepalive)
    (asked : after.link.connected = true → after.pingT ≠ 0 →
      after.pingT ≤ since + keepalive + gap ∧
        watch.client.link.now < since + 2 * keepalive + gap) :
    Waits since keepalive gap ⟨after, watch.client.link.now⟩ := by
  constructor
  · rw [now]
    exact waits.now
  · rw [same]
    exact waits.some
  · rw [← waits.seconds, keepaliveSeconds, same]
    rfl
  · exact reliable_suffix waits.writes writes
  · dsimp only
    omega
  · exact heard
  · exact asked

theorem retried_calm (client : Client) : Calm client (retried client) :=
  calm_of_silent (retried_silent client)

theorem waits_closed (waits : Waits since keepalive gap watch) (calm : Calm watch.client after)
    (closed : after.link.connected = false) :
    Waits since keepalive gap ⟨after, watch.client.link.now⟩ := by
  have never : after.link.connected ≠ true := by
    rw [closed]
    exact Bool.false_ne_true
  exact waits_checked waits calm.now calm.keepalive calm.writes
    (fun connected => absurd connected never) fun connected => absurd connected never

theorem waits_misc (waits : Waits since keepalive gap watch) :
    Waits since keepalive gap (watchStep watch .misc) := by
  change Waits since keepalive gap ⟨(loopMisc watch.client).2, watch.client.link.now⟩
  have recent := waits.recent
  have positive := keepalive_pos waits.some
  rw [waits.seconds] at positive
  cases connected : watch.client.link.connected with
  | false =>
      rw [loopMisc, if_pos connected]
      exact waits_closed waits (calm_of_silent ⟨goes_refl _, rfl, rfl, rfl⟩) connected
  | true =>
      rw [loop_misc_eq connected]
      rcases check_keepalive_cases watch.client with ⟨none, same⟩ | ⟨asks, same⟩ | ⟨_, same⟩
      · have calm := retried_calm watch.client
        rw [same]
        split
        next overdue =>
            exact waits_closed waits (calm_trans calm (disconnected_calm _ 1)) rfl
        next early =>
            have early := mt (overdue_congr calm.now calm.keepalive calm.ping).mpr early
            rw [Overdue, waits.seconds] at early
            have quiet : ¬ Due watch.client := by
              rcases none with none | closed | quiet
              · exact absurd none waits.some
              · exact absurd (connected.symm.trans closed) (by decide)
              · exact quiet
            rw [Due, waits.seconds] at quiet
            apply waits_checked waits calm.now calm.keepalive calm.writes
            · intro _ silent
              rw [calm.ping] at silent
              rw [calm.heard]
              have before := waits.heard connected silent
              exact ⟨before.1, by omega⟩
            · intro _ asked
              rw [calm.ping] at asked ⊢
              have before := waits.asked connected asked
              refine ⟨before.1, ?_⟩
              have short : ¬ watch.client.link.now - watch.client.pingT ≥ keepalive :=
                fun long => early ⟨asked, long⟩
              omega
      · have goes := send_pingreq_goes watch.client
        have ping := send_pingreq_reliable waits.writes connected
        have before := waits.heard connected asks.2.2.2.2
        have calm := retried_calm (checkKeepalive watch.client)
        have now : (retried (checkKeepalive watch.client)).link.now = watch.client.link.now := by
          rw [calm.now, same]
          exact goes.now
        have seconds : (retried (checkKeepalive watch.client)).link.keepalive =
            watch.client.link.keepalive := by
          rw [calm.keepalive, same]
          exact goes.keepalive
        have writes : (retried (checkKeepalive watch.client)).link.writes <:+
            watch.client.link.writes := by
          apply calm.writes.trans
          rw [same]
          exact goes.writes
        have asked : (retried (checkKeepalive watch.client)).pingT = watch.client.link.now := by
          rw [calm.ping, same]
          exact ping
        have some := waits.now
        split
        · exact waits_checked waits now seconds writes
            (fun closed => absurd closed Bool.false_ne_true)
            fun closed => absurd closed Bool.false_ne_true
        · apply waits_checked waits now seconds writes
          · intro _ none
            rw [asked] at none
            omega
          · intro _ _
            rw [asked]
            exact ⟨by omega, by omega⟩
      · have calm := calm_trans (disconnected_calm watch.client 1) (retried_calm _)
        rw [same]
        split
        · exact waits_closed waits (calm_trans calm (disconnected_calm _ 1)) rfl
        · apply waits_closed waits calm
          rw [← Bool.not_eq_true]
          exact fun opened => absurd ((retried_calm _).connected opened) Bool.false_ne_true

theorem waits_step (watch : Watch) (op : Op) (waits : Waits since keepalive gap watch)
    (unheard : Unheard gap watch op) : Waits since keepalive gap (watchStep watch op) := by
  cases op with
  | publish topic payload qos retain =>
      exact waits_calm waits (calm_of_silent (publish_silent _ topic payload qos retain)) rfl
  | read script => exact absurd unheard id
  | write => exact waits_calm waits (loop_write_calm _) rfl
  | misc => exact waits_misc waits
  | disconnect => exact waits_calm waits (disconnect_calm _) rfl
  | reconnect opened writes => exact absurd unheard id
  | arrive bytes => exact absurd unheard id
  | meanwhile writes inCallback =>
      exact ⟨waits.now, waits.some, waits.seconds, unheard, waits.recent, waits.heard, waits.asked⟩
  | tick seconds =>
      have now := waits.now
      refine ⟨?_, waits.some, waits.seconds, waits.writes, unheard, waits.heard, waits.asked⟩
      change 0 < watch.client.link.now + seconds
      omega

/-- A peer that falls silent is noticed: while `mosquitto_loop_misc` is called every `gap`
seconds and the socket does not fail, the connection is given up within twice the keepalive
time and twice `gap`. -/
theorem silent_peer_noticed (start : Client) (gap : Nat) (ops : List Op)
    (some : start.link.keepalive ≠ 0) (writes : Reliable start.link.writes)
    (clock : 0 < start.link.now) (heard : start.lastMsgIn ≤ start.link.now)
    (asked : start.pingT ≤ start.link.now)
    (unheard : StepRuns.EveryStep watchStep (Unheard gap) ⟨start, start.link.now⟩ ops) :
    StepRuns.AlongRun watchStep
      (fun watch => watch.client.link.connected = true → watch.client.link.now <
        start.link.now + 2 * keepaliveSeconds start.link + 2 * gap)
      ⟨start, start.link.now⟩ ops := by
  have positive := keepalive_pos some
  have begins : Waits start.link.now (keepaliveSeconds start.link) gap
      ⟨start, start.link.now⟩ := by
    refine ⟨clock, some, rfl, writes, ?_, ?_, ?_⟩
    · dsimp only
      omega
    · exact fun _ _ => ⟨heard, by dsimp only; omega⟩
    · exact fun _ _ => ⟨by dsimp only; omega, by dsimp only; omega⟩
  apply StepRuns.along_run_of_every_step _ waits_step _ begins ops unheard
  intro watch waits connected
  have recent := waits.recent
  by_cases silent : watch.client.pingT = 0
  · have last := waits.heard connected silent
    omega
  · have last := waits.asked connected silent
    omega

def acknowledged : Client :=
  StepRuns.run step (reconnect (mosquittoReinitialise [0x61] true 5) true [.moved 64, .moved 64])
    [.arrive [0x20, 2, 0, 0], .read [.moved 64, .moved 64, .moved 64],
      .meanwhile (List.replicate 4 (.moved 64)) false]

/-- Nothing at all for two minutes: a PINGREQ goes out after the first, and the connection is
given up after the second. -/
theorem silent_peer_noticed_minutes :
    StepRuns.AlongRun watchStep
      (fun watch => watch.client.link.connected = true → watch.client.link.now <
        acknowledged.link.now + 2 * keepaliveSeconds acknowledged.link + 2 * (60 : Nat))
      ⟨acknowledged, acknowledged.link.now⟩ [.tick 60, .misc, .tick 60, .misc, .tick 60] ∧
    (StepRuns.run watchStep ⟨acknowledged, acknowledged.link.now⟩ [.tick 60, .misc]).client.pingT =
      acknowledged.link.now + 60 := by
  refine ⟨?_, by decide +kernel⟩
  apply silent_peer_noticed _ 60 _ (by decide +kernel) (by decide +kernel) (by decide +kernel)
    (by decide +kernel) (by decide +kernel)
  exact ⟨by unfold Unheard; decide +kernel, trivial, by unfold Unheard; decide +kernel, trivial,
    by unfold Unheard; decide +kernel, trivial⟩

end Silence

end Gk7102.MqttKeepalive
