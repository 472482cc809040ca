import Gk7102.MqttConnect
import Gk7102.MqttTopics

/-!
# The client between its packets

Messages of QoS 1 and 2 are kept until their handshake is over, at most
`max_inflight_messages` of the outgoing ones under way at a time; the handlers move them on.
-/

namespace Gk7102.MqttClient

open ByteBlocks SocketCalls MqttPacket MqttReading MqttSending MqttCodec MqttConnect MqttTopics

set_option autoImplicit false

section State

/-- `enum mosquitto_msg_state`. -/
inductive MsgState where
  | invalid | publishQos0 | publishQos1 | waitForPuback | publishQos2 | waitForPubrec
  | resendPubrel | waitForPubrel | resendPubcomp | waitForPubcomp | sendPubrec | queued
deriving DecidableEq, Repr

structure Stored where
  message : Message
  state : MsgState
  timestamp : Int
  dup : Bool
deriving DecidableEq, Repr

/-- `struct mosquitto`. `incoming` is what the socket holds, `calls` the callbacks that the
handlers made; those that sending makes are recorded by the link. -/
structure Client where
  link : Link
  session : Session
  inPacket : InPacket
  incoming : List Byte
  outMessages : List Stored
  inMessages : List Stored
  inflightMessages : Int
  maxInflightMessages : Int
  lastMid : BitVec 16
  lastMsgIn : Int
  pingT : Int
  messageRetry : Int
  lastRetryCheck : Int
  calls : List Event
deriving DecidableEq, Repr

def mosquittoReinitialise (id : List Byte) (cleanSession : Bool) (now : Int) : Client where
  link :=
    { connected := false, state := .new, currentOutPacket := none, outPacket := [], written := []
      writes := [], inCallback := false, threaded := false, now := now, keepalive := 60
      nextMsgOut := now + 60, events := [] }
  session :=
    { protocol := .mqtt31, cleanSession := cleanSession, keepalive := 60, id := id, will := none
      username := none, password := none }
  inPacket := packetCleanup
  incoming := []
  outMessages := []
  inMessages := []
  inflightMessages := 0
  maxInflightMessages := 20
  lastMid := 0
  lastMsgIn := now
  pingT := 0
  messageRetry := 20
  lastRetryCheck := 0
  calls := []

def Client.call (client : Client) (event : Event) : Client :=
  { client with calls := client.calls ++ [event] }

end State

section Sending

def sendPacket (link : Link) : Except MosqErr OutPacket → MosqErr × Link
  | .error rc => (rc, link)
  | .ok packet => packetQueue link packet

def sendPublish (link : Link) (message : Message) (dup : Bool) : MosqErr × Link :=
  if link.connected = false then (.noConn, link)
  else sendPacket link (sendRealPublish message.mid message.topic message.payload message.qos
    message.retain dup)

def sendPuback (link : Link) (mid : BitVec 16) : MosqErr × Link :=
  sendPacket link (sendCommandWithMid PUBACK mid false)

def sendPubrec (link : Link) (mid : BitVec 16) : MosqErr × Link :=
  sendPacket link (sendCommandWithMid PUBREC mid false)

def sendPubrel (link : Link) (mid : BitVec 16) : MosqErr × Link :=
  sendPacket link (sendCommandWithMid (PUBREL ||| 2) mid false)

def sendPubcomp (link : Link) (mid : BitVec 16) : MosqErr × Link :=
  sendPacket link (sendCommandWithMid PUBCOMP mid false)

def sendPingresp (link : Link) : MosqErr × Link := sendPacket link (sendSimpleCommand PINGRESP)

end Sending

section Messages

/-- What a message of QoS 1 or 2 waits for once it is under way. -/
def waitState (qos : Nat) (state : MsgState) : MsgState :=
  if qos = 1 then .waitForPuback else if qos = 2 then .waitForPubrec else state

/-- Whether one more message may be under way. -/
def mayStart (max inflight : Int) : Bool := decide (max = 0 ∨ inflight < max)

/-- `_mosquitto_message_queue` for an outgoing message, and whether it can be started. -/
def messageQueueOut (client : Client) (stored : Stored) : Bool × Client :=
  let client := { client with outMessages := client.outMessages ++ [stored] }
  if stored.message.qos > 0 then
    if mayStart client.maxInflightMessages client.inflightMessages then
      (true, { client with inflightMessages := client.inflightMessages + 1 })
    else (false, client)
  else (true, client)

def messageQueueIn (client : Client) (stored : Stored) : Client :=
  { client with inMessages := client.inMessages ++ [stored] }

def unlink (mid : BitVec 16) : List Stored → Option (Stored × List Stored)
  | [] => none
  | cur :: rest =>
      if cur.message.mid = mid then some (cur, rest)
      else
        match unlink mid rest with
        | none => none
        | some (found, rest) => some (found, cur :: rest)

/-- The second loop of `_mosquitto_message_remove`: messages that wait are started while
there is room. It ends at a message that cannot be sent. -/
def promote (max : Int) : List Stored → Int → Link → MosqErr × List Stored × Int × Link
  | [], inflight, link => (.success, [], inflight, link)
  | cur :: rest, inflight, link =>
      if mayStart max inflight then
        if cur.message.qos > 0 ∧ cur.state = .invalid then
          let cur := { cur with state := waitState cur.message.qos cur.state }
          match sendPublish link cur.message cur.dup with
          | (.success, link) =>
              let (rc, rest, inflight, link) := promote max rest (inflight + 1) link
              (rc, cur :: rest, inflight, link)
          | (rc, link) => (rc, cur :: rest, inflight + 1, link)
        else
          let (rc, rest, inflight, link) := promote max rest inflight link
          (rc, cur :: rest, inflight, link)
      else (.success, cur :: rest, inflight, link)

def messageRemoveOut (client : Client) (mid : BitVec 16) : MosqErr × Client :=
  match unlink mid client.outMessages with
  | none => (.notFound, client)
  | some (cur, rest) =>
      let inflight :=
        if cur.message.qos > 0 then client.inflightMessages - 1 else client.inflightMessages
      let (rc, messages, inflight, link) :=
        promote client.maxInflightMessages rest inflight client.link
      (rc, { client with outMessages := messages, inflightMessages := inflight, link := link })

def messageRemoveIn (client : Client) (mid : BitVec 16) : Option (Stored × Client) :=
  match unlink mid client.inMessages with
  | none => none
  | some (cur, rest) => some (cur, { client with inMessages := rest })

def updateState (mid : BitVec 16) (state : MsgState) (now : Int) :
    List Stored → Option (List Stored)
  | [] => none
  | cur :: rest =>
      if cur.message.mid = mid then some ({ cur with state := state, timestamp := now } :: rest)
      else
        match updateState mid state now rest with
        | none => none
        | some rest => some (cur :: rest)

def messageOutUpdate (client : Client) (mid : BitVec 16) (state : MsgState) : MosqErr × Client :=
  match updateState mid state client.link.now client.outMessages with
  | none => (.notFound, client)
  | some messages => (.success, { client with outMessages := messages })

/-- What is sent again for a message whose answer is overdue. -/
def retryMessage (stored : Stored) (link : Link) : Stored × Link :=
  let again := { stored with timestamp := link.now, dup := true }
  match stored.state with
  | .waitForPuback | .waitForPubrec => (again, (sendPublish link again.message again.dup).2)
  | .waitForPubrel => (again, (sendPubrec link stored.message.mid).2)
  | .waitForPubcomp => (again, (sendPubrel link stored.message.mid).2)
  | _ => (stored, link)

def retryCheckActual (retry now : Int) : List Stored → Link → List Stored × Link
  | [], link => ([], link)
  | cur :: rest, link =>
      let (cur, link) :=
        if cur.timestamp + retry < now then retryMessage cur link else (cur, link)
      let (rest, link) := retryCheckActual retry now rest link
      (cur :: rest, link)

def messageRetryCheck (client : Client) : Client :=
  let now := client.link.now
  let (out, link) := retryCheckActual client.messageRetry now client.outMessages client.link
  let (held, link) := retryCheckActual client.messageRetry now client.inMessages link
  { client with outMessages := out, inMessages := held, link := link }

/-- The outgoing messages in `_mosquitto_messages_reconnect_reset`. -/
def resetOut (max : Int) : List Stored → Int → List Stored × Int
  | [], inflight => ([], inflight)
  | cur :: rest, inflight =>
      let cur := { cur with timestamp := 0 }
      if mayStart max inflight then
        let inflight' := if cur.message.qos > 0 then inflight + 1 else inflight
        let cur := if cur.message.qos = 1 then { cur with state := .waitForPuback } else cur
        let (rest, inflight') := resetOut max rest inflight'
        (cur :: rest, inflight')
      else
        let (rest, inflight) := resetOut max rest inflight
        ({ cur with state := .invalid } :: rest, inflight)

/-- `_mosquitto_messages_reconnect_reset`. The incoming messages are all of QoS 2. -/
def messagesReconnectReset (client : Client) : Client :=
  let (out, inflight) := resetOut client.maxInflightMessages client.outMessages 0
  { client with
    inMessages := client.inMessages.map fun stored => { stored with timestamp := 0 }
    outMessages := out
    inflightMessages := inflight }

end Messages

section Publishing

def midGenerate (lastMid : BitVec 16) : BitVec 16 :=
  let lastMid := lastMid + 1
  if lastMid = 0 then lastMid + 1 else lastMid

def publishRefused (topic payload : List Byte) (qos : Nat) : Option MosqErr :=
  if qos > 2 then some .inval
  else if topic = [] then some .inval
  else if payload.length > 268435455 then some .payloadSize
  else if pubTopicCheck topic ≠ .success then some .inval
  else none

/-- A message of QoS 1 or 2 is kept, and sent if it can be started. -/
def publishKept (client : Client) (message : Message) : MosqErr × Client :=
  match messageQueueOut client ⟨message, .invalid, client.link.now, false⟩ with
  | (true, client) =>
      let (rc, link) := sendPublish client.link message false
      (rc, { client with
        link := link
        outMessages := client.outMessages.modifyLast fun stored =>
          { stored with state := waitState message.qos stored.state } })
  | (false, client) => (.success, client)

def publish (client : Client) (topic payload : List Byte) (qos : Nat) (retain : Bool) :
    MosqErr × Client :=
  match publishRefused topic payload qos with
  | some rc => (rc, client)
  | none =>
      let client := { client with lastMid := midGenerate client.lastMid }
      let message : Message := ⟨client.lastMid, topic, payload, qos, retain⟩
      if qos = 0 then
        let (rc, link) := sendPublish client.link message false
        (rc, { client with link := link })
      else publishKept client message

end Publishing

section Handlers

/-- A handler that a read stops changes nothing. -/
abbrev Handled := Except Stop (MosqErr × Client)

def handlePublish (client : Client) (packet : InPacket) : Handled := do
  let ⟨dup, message⟩ ← parsePublish packet
  match message.qos with
  | 0 => return (.success, client.call (.onMessage message))
  | 1 =>
      let (rc, link) := sendPuback client.link message.mid
      return (rc, { client with link := link }.call (.onMessage message))
  | 2 =>
      let (rc, link) := sendPubrec client.link message.mid
      return (rc, messageQueueIn { client with link := link }
        ⟨message, .waitForPubrel, client.link.now, dup⟩)
  | _ => throw (.failed .protocol)

def handlePubackcomp (client : Client) (packet : InPacket) : Handled := do
  let mid ← parseMid packet
  let (rc, client) := messageRemoveOut client mid
  return (.success, if rc = .success then client.call (.onPublish mid) else client)

def handlePubrec (client : Client) (packet : InPacket) : Handled := do
  let mid ← parseMid packet
  -- an unknown message id is answered too
  let (_, client) := messageOutUpdate client mid .waitForPubcomp
  let (rc, link) := sendPubrel client.link mid
  return (rc, { client with link := link })

/-- The message is passed on only when it has been removed. -/
def releaseHeld (client : Client) (mid : BitVec 16) : Client :=
  match messageRemoveIn client mid with
  | none => client
  | some (stored, client) => client.call (.onMessage stored.message)

def handlePubrel (client : Client) (packet : InPacket) : Handled := do
  if client.session.protocol = .mqtt311 ∧ packet.command &&& 0x0F ≠ 0x02 then
    throw (.failed .protocol)
  else
    let mid ← parseMid packet
    let client := releaseHeld client mid
    let (rc, link) := sendPubcomp client.link mid
    return (rc, { client with link := link })

def handleSuback (client : Client) (packet : InPacket) : Handled := do
  let (mid, grantedQos) ← parseSuback packet
  return (.success, client.call (.onSubscribe mid grantedQos))

def handleUnsuback (client : Client) (packet : InPacket) : Handled := do
  let mid ← parseMid packet
  return (.success, client.call (.onUnsubscribe mid))

def handlePingreq (client : Client) : Handled :=
  let (rc, link) := sendPingresp client.link
  .ok (rc, { client with link := link })

def handlePingresp (client : Client) : Handled := .ok (.success, { client with pingT := 0 })

def connackResult (result : Byte) : MosqErr :=
  if result = 0 then .success else if result.toNat ≤ 5 then .connRefused else .protocol

def handleConnack (client : Client) (packet : InPacket) : Handled := do
  let result ← parseConnack packet
  let client := client.call (.onConnect result)
  return (connackResult result,
    if result = 0 ∧ client.link.state ≠ .disconnecting then
      { client with link := { client.link with state := .connected } }
    else client)

def packetHandle (client : Client) (packet : InPacket) : Handled :=
  let command := packet.command &&& 0xF0
  if command = PINGREQ then handlePingreq client
  else if command = PINGRESP then handlePingresp client
  else if command = PUBACK then handlePubackcomp client packet
  else if command = PUBCOMP then handlePubackcomp client packet
  else if command = PUBLISH then handlePublish client packet
  else if command = PUBREC then handlePubrec client packet
  else if command = PUBREL then handlePubrel client packet
  else if command = CONNACK then handleConnack client packet
  else if command = SUBACK then handleSuback client packet
  else if command = UNSUBACK then handleUnsuback client packet
  else .error (.failed .protocol)

theorem packet_handle_cases {client : Client} {packet : InPacket} (holds : Handled → Prop)
    (pingreq : holds (handlePingreq client)) (pingresp : holds (handlePingresp client))
    (pubackcomp : packet.command &&& 0xF0 ∈ [PUBACK, PUBCOMP] →
      holds (handlePubackcomp client packet))
    (publish : packet.command &&& 0xF0 = PUBLISH → holds (handlePublish client packet))
    (pubrec : packet.command &&& 0xF0 = PUBREC → holds (handlePubrec client packet))
    (pubrel : packet.command &&& 0xF0 = PUBREL → holds (handlePubrel client packet))
    (connack : holds (handleConnack client packet)) (suback : holds (handleSuback client packet))
    (unsuback : holds (handleUnsuback client packet))
    (unknown : packet.command &&& 0xF0 ≠ PUBLISH → holds (.error (.failed .protocol))) :
    holds (packetHandle client packet) := by
  rw [packetHandle]
  split
  · exact pingreq
  split
  · exact pingresp
  split
  next acknowledged => exact pubackcomp (by rw [acknowledged]; decide)
  split
  next completed => exact pubackcomp (by rw [completed]; decide)
  split
  next published => exact publish published
  next silent =>
  split
  next received => exact pubrec received
  split
  next released => exact pubrel released
  split
  · exact connack
  split
  · exact suback
  split
  · exact unsuback
  · exact unknown silent

/-- The end of `_mosquitto_packet_read`: the packet is handled and cleaned up. -/
def packetDone (client : Client) (packet : InPacket) : Option MosqErr × Client :=
  let finish (client : Client) : Client :=
    { client with inPacket := packetCleanup, lastMsgIn := client.link.now }
  match packetHandle client packet with
  | .ok (rc, client) => (some rc, finish client)
  | .error (.failed rc) => (some rc, finish client)
  -- a read behind the payload has no result
  | .error .overread => (none, client)

def packetRead (client : Client) (script : List CallOutcome) : Option MosqErr × Client :=
  if client.link.connected = false then (some .noConn, client)
  else if client.link.state = .connectPending then (some .success, client)
  else
    match collect script ⟨client.inPacket, client.incoming⟩ with
    | .stopped rc inbound =>
        (some rc, { client with
          inPacket := inbound.packet
          incoming := inbound.incoming
          lastMsgIn := if rc = .success ∧ inbound.packet.toProcess > 1000 then client.link.now
            else client.lastMsgIn })
    | .ready packet incoming => packetDone { client with incoming := incoming } packet

end Handlers

end Gk7102.MqttClient
