import Gk7102.MqttWindow

/-!
# The packets of the handshakes

A PUBLISH travels with its message, what answers it with the message id. Each is what the
sending functions queue, and what a handler does with it is said here once.
-/

namespace Gk7102.MqttTokens

open ByteBlocks MqttPacket MqttReading MqttSending MqttCodec MqttConnect MqttClient

set_option autoImplicit false

inductive Token where
  | publish (message : Message)
  | puback (mid : BitVec 16)
  | pubrec (mid : BitVec 16)
  | pubrel (mid : BitVec 16)
  | pubcomp (mid : BitVec 16)
deriving DecidableEq, Repr

def Token.frame : Token → Frame
  | .publish message =>
      ⟨publishCommand false message.qos message.retain,
        publishBody message.mid message.topic message.payload message.qos⟩
  | .puback mid => ⟨PUBACK, wordBytes mid⟩
  | .pubrec mid => ⟨PUBREC, wordBytes mid⟩
  | .pubrel mid => ⟨PUBREL ||| 2, wordBytes mid⟩
  | .pubcomp mid => ⟨PUBCOMP, wordBytes mid⟩

def Token.packet : Token → OutPacket
  | .publish message => sealed message.mid (Token.publish message).frame
  | token => sealed 0 token.frame

/-- A message that fits into a packet. -/
structure Sendable (message : Message) : Prop where
  known : message.qos ≤ 2
  given : message.topic ≠ []
  text : 0 ∉ message.topic
  short : message.topic.length < 65536
  fits : (publishBody message.mid message.topic message.payload message.qos).length < 268435456

def Token.Sendable : Token → Prop
  | .publish message => MqttTokens.Sendable message
  | _ => True

/-- A message as it comes out of its packet: with QoS 0 there is no message id in it. -/
def received (message : Message) : Message :=
  { message with mid := if message.qos > 0 then message.mid else 0 }

section Sending

theorem word_well_formed (mid : BitVec 16) {command : Byte} (named : command ≠ 0) :
    (Frame.mk command (wordBytes mid)).WellFormed :=
  ⟨named, by rw [word_bytes_length]; decide⟩

theorem token_well_formed {token : Token} (sendable : token.Sendable) :
    token.frame.WellFormed := by
  cases token with
  | publish message =>
      have bits := publish_command_bits false (show message.qos < 4 from by
        have known := sendable.known
        omega) message.retain
      refine ⟨?_, sendable.fits⟩
      intro zero
      have none : publishCommand false message.qos message.retain = 0 := zero
      have high := bits.2.2.2
      rw [none] at high
      exact absurd high (by decide)
  | puback mid => exact word_well_formed mid (by decide)
  | pubrec mid => exact word_well_formed mid (by decide)
  | pubrel mid => exact word_well_formed mid (by decide)
  | pubcomp mid => exact word_well_formed mid (by decide)

theorem token_packet_payload (token : Token) : token.packet.payload = token.frame.bytes := by
  cases token <;> rfl

theorem token_packet_filled (token : Token) : token.packet.Filled := by
  cases token <;> rfl

/-- None of them ends the connection. -/
theorem token_stays {token : Token} (sendable : token.Sendable) :
    token.packet.command &&& 0xF0 ≠ DISCONNECT := by
  cases token with
  | publish message =>
      have bits := publish_command_bits false (show message.qos < 4 from by
        have known := sendable.known
        omega) message.retain
      change publishCommand false message.qos message.retain &&& 0xF0 ≠ DISCONNECT
      rw [bits.2.2.2]
      decide
  | puback mid => exact show PUBACK &&& 0xF0 ≠ DISCONNECT by decide
  | pubrec mid => exact show PUBREC &&& 0xF0 ≠ DISCONNECT by decide
  | pubrel mid => exact show (PUBREL ||| 2) &&& 0xF0 ≠ DISCONNECT by decide
  | pubcomp mid => exact show PUBCOMP &&& 0xF0 ≠ DISCONNECT by decide

variable (link : Link) (mid : BitVec 16)

theorem send_publish_token {message : Message} (sendable : Sendable message)
    (connected : link.connected = true) :
    sendPublish link message false = packetQueue link (Token.publish message).packet := by
  rw [sendPublish, if_neg (by rw [connected]; decide),
    send_real_publish_sealed sendable.short sendable.fits]
  rfl

theorem send_puback_token : sendPuback link mid = packetQueue link (Token.puback mid).packet := by
  rw [sendPuback, (command_with_mid_read_back PUBACK mid).1]
  rfl

theorem send_pubrec_token : sendPubrec link mid = packetQueue link (Token.pubrec mid).packet := by
  rw [sendPubrec, (command_with_mid_read_back PUBREC mid).1]
  rfl

theorem send_pubrel_token : sendPubrel link mid = packetQueue link (Token.pubrel mid).packet := by
  rw [sendPubrel, (command_with_mid_read_back (PUBREL ||| 2) mid).1]
  rfl

theorem send_pubcomp_token :
    sendPubcomp link mid = packetQueue link (Token.pubcomp mid).packet := by
  rw [sendPubcomp, (command_with_mid_read_back PUBCOMP mid).1]
  rfl

end Sending

section Handling

variable (client : Client) (mid : BitVec 16)

theorem parse_token {message : Message} (sendable : Sendable message) :
    parsePublish (delivered (Token.publish message).frame) = .ok ⟨false, received message⟩ := by
  have known := sendable.known
  exact parse_publish_of_body (by omega) sendable.short sendable.text sendable.given rfl
    (delivered_ahead _)

theorem handle_token_publish {message : Message} (sendable : Sendable message) :
    packetHandle client (delivered (Token.publish message).frame) =
      handlePublish client (delivered (Token.publish message).frame) := by
  have bits := publish_command_bits false (show message.qos < 4 from by
    have known := sendable.known
    omega) message.retain
  have command : (delivered (Token.publish message).frame).command &&& 0xF0 = PUBLISH :=
    bits.2.2.2
  rw [packetHandle, command]
  rfl

theorem handle_publish_zero {message : Message} (sendable : Sendable message)
    (zero : message.qos = 0) :
    packetHandle client (delivered (Token.publish message).frame) =
      .ok (.success, client.call (.onMessage (received message))) := by
  have same : (received message).qos = 0 := zero
  rw [handle_token_publish client sendable, handlePublish, parse_token sendable]
  dsimp only [bind, Except.bind]
  rw [same]
  rfl

theorem handle_publish_one {message : Message} (sendable : Sendable message)
    (one : message.qos = 1) :
    packetHandle client (delivered (Token.publish message).frame) =
      .ok ((sendPuback client.link message.mid).1,
        { client with link := (sendPuback client.link message.mid).2 }.call
          (.onMessage message)) := by
  have same : received message = message := by
    rw [received, if_pos (by omega)]
  rw [handle_token_publish client sendable, handlePublish, parse_token sendable, same]
  dsimp only [bind, Except.bind]
  rw [one]
  rfl

theorem handle_publish_two {message : Message} (sendable : Sendable message)
    (two : message.qos = 2) :
    packetHandle client (delivered (Token.publish message).frame) =
      .ok ((sendPubrec client.link message.mid).1,
        messageQueueIn { client with link := (sendPubrec client.link message.mid).2 }
          ⟨message, .waitForPubrel, client.link.now, false⟩) := by
  have same : received message = message := by
    rw [received, if_pos (by omega)]
  rw [handle_token_publish client sendable, handlePublish, parse_token sendable, same]
  dsimp only [bind, Except.bind]
  rw [two]
  rfl

theorem handle_token_acknowledged {token : Token}
    (named : token = .puback mid ∨ token = .pubcomp mid) :
    packetHandle client (delivered token.frame) =
      .ok (.success,
        if (messageRemoveOut client mid).1 = .success then
          (messageRemoveOut client mid).2.call (.onPublish mid)
        else (messageRemoveOut client mid).2) := by
  rcases named with rfl | rfl
  · have command : (delivered (Token.puback mid).frame).command &&& 0xF0 = PUBACK :=
      show PUBACK &&& 0xF0 = PUBACK by decide
    rw [packetHandle, command]
    change (parseMid (delivered ⟨PUBACK, wordBytes mid⟩) >>= _) = _
    rw [(command_with_mid_read_back PUBACK mid).2]
    rfl
  · have command : (delivered (Token.pubcomp mid).frame).command &&& 0xF0 = PUBCOMP :=
      show PUBCOMP &&& 0xF0 = PUBCOMP by decide
    rw [packetHandle, command]
    change (parseMid (delivered ⟨PUBCOMP, wordBytes mid⟩) >>= _) = _
    rw [(command_with_mid_read_back PUBCOMP mid).2]
    rfl

theorem handle_token_pubrec :
    packetHandle client (delivered (Token.pubrec mid).frame) =
      .ok ((sendPubrel client.link mid).1,
        { (messageOutUpdate client mid .waitForPubcomp).2 with
          link := (sendPubrel client.link mid).2 }) := by
  have command : (delivered (Token.pubrec mid).frame).command &&& 0xF0 = PUBREC :=
    show PUBREC &&& 0xF0 = PUBREC by decide
  rw [packetHandle, command]
  change (parseMid (delivered ⟨PUBREC, wordBytes mid⟩) >>= _) = _
  rw [(command_with_mid_read_back PUBREC mid).2]
  have same : (messageOutUpdate client mid .waitForPubcomp).2.link = client.link := by
    rw [messageOutUpdate]
    cases updateState mid .waitForPubcomp client.link.now client.outMessages <;> rfl
  rw [← same]
  rfl

theorem handle_token_pubrel :
    packetHandle client (delivered (Token.pubrel mid).frame) =
      .ok ((sendPubcomp client.link mid).1,
        { releaseHeld client mid with link := (sendPubcomp client.link mid).2 }) := by
  have same : (releaseHeld client mid).link = client.link := by
    rw [releaseHeld, messageRemoveIn]
    cases unlink mid client.inMessages <;> rfl
  have command : (delivered (Token.pubrel mid).frame).command &&& 0xF0 = PUBREL :=
    show (PUBREL ||| 2) &&& 0xF0 = PUBREL by decide
  rw [packetHandle, command]
  change handlePubrel client (delivered ⟨PUBREL ||| 2, wordBytes mid⟩) = _
  rw [handlePubrel, if_neg (by
    intro wrong
    exact wrong.2 (show (PUBREL ||| 2) &&& 0x0F = (0x02 : Byte) by decide)),
    (command_with_mid_read_back (PUBREL ||| 2) mid).2, ← same]
  rfl

end Handling

end Gk7102.MqttTokens
