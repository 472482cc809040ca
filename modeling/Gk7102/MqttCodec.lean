import Gk7102.MqttSending
import Mathlib.Data.List.TakeWhile

/-!
# The contents of the packets

What the sending functions put into a packet and what the handlers take out of one. A
handler never trusts a length that the packet states.
-/

namespace Gk7102.MqttCodec

open ByteBlocks MqttPacket MqttReading MqttSending

set_option autoImplicit false

section Sending

def publishCommand (dup : Bool) (qos : Nat) (retain : Bool) : Byte :=
  PUBLISH ||| (BitVec.ofNat 8 dup.toNat <<< 3) ||| (BitVec.ofNat 8 qos <<< 1) |||
    BitVec.ofNat 8 retain.toNat

def sendRealPublish (mid : BitVec 16) (topic payload : List Byte) (qos : Nat)
    (retain dup : Bool) : Except MosqErr OutPacket := do
  let packetlen := 2 + topic.length + payload.length + if qos > 0 then 2 else 0
  let packet ← packetAlloc (publishCommand dup qos retain) mid packetlen
  let packet := writeString packet topic (BitVec.ofNat 16 topic.length)
  let packet := if qos > 0 then writeUint16 packet mid else packet
  return if payload.length > 0 then writeBytes packet payload else packet

def sendCommandWithMid (command : Byte) (mid : BitVec 16) (dup : Bool) :
    Except MosqErr OutPacket := do
  let packet ← packetAlloc (if dup then command ||| 8 else command) 0 2
  return writeUint16 packet mid

def sendSimpleCommand (command : Byte) : Except MosqErr OutPacket := packetAlloc command 0 0

def sendSubscribe (localMid : BitVec 16) (topic : List Byte) (topicQos : Byte) :
    Except MosqErr OutPacket := do
  let packet ← packetAlloc (SUBSCRIBE ||| 2) 0 (2 + 2 + topic.length + 1)
  let packet := writeUint16 packet localMid
  let packet := writeString packet topic (BitVec.ofNat 16 topic.length)
  return writeByte packet topicQos

def sendUnsubscribe (localMid : BitVec 16) (topic : List Byte) : Except MosqErr OutPacket := do
  let packet ← packetAlloc (UNSUBSCRIBE ||| 2) 0 (2 + 2 + topic.length)
  let packet := writeUint16 packet localMid
  return writeString packet topic (BitVec.ofNat 16 topic.length)

end Sending

section Handling

/-- A PUBLISH as `_mosquitto_handle_publish` reads it. -/
structure Received where
  dup : Bool
  message : Message
deriving DecidableEq, Repr

def readPublishMid (qos : Nat) (packet : InPacket) : Except Stop (BitVec 16 × InPacket) :=
  if qos > 0 then readUint16 packet else .ok (0, packet)

def readPublishPayload (packet : InPacket) : Except Stop (List Byte × InPacket) :=
  let payloadlen := packet.remainingLength - packet.pos
  if payloadlen > 0 then readBytes packet payloadlen else .ok ([], packet)

def parsePublish (packet : InPacket) : Except Stop Received := do
  let header := packet.command
  let dup := decide (header &&& 0x08 ≠ 0)
  let qos := ((header &&& 0x06) >>> 1).toNat
  let retain := decide (header &&& 0x01 ≠ 0)
  let (topic, packet) ← readString packet
  -- `strlen`: a topic that begins with a NUL byte is empty
  if cString topic = [] then .error (.failed .protocol)
  else
    let (mid, packet) ← readPublishMid qos packet
    let (payload, _) ← readPublishPayload packet
    return ⟨dup, mid, cString topic, payload, qos, retain⟩

/-- What PUBACK, PUBCOMP, PUBREC, PUBREL and UNSUBACK carry. -/
def parseMid (packet : InPacket) : Except Stop (BitVec 16) := do
  let (mid, _) ← readUint16 packet
  return mid

def readGranted : Nat → InPacket → Except Stop (List Byte)
  | 0, _ => .ok []
  | left + 1, packet => do
      let (qos, packet) ← readByte packet
      let rest ← readGranted left packet
      return qos :: rest

def parseSuback (packet : InPacket) : Except Stop (BitVec 16 × List Byte) := do
  let (mid, packet) ← readUint16 packet
  let grantedQos ← readGranted (packet.remainingLength - packet.pos) packet
  return (mid, grantedQos)

def parseConnack (packet : InPacket) : Except Stop Byte := do
  let (_, packet) ← readByte packet
  let (result, _) ← readByte packet
  return result

end Handling

section Publish

theorem publish_command_bits (dup : Bool) {qos : Nat} (known : qos < 4) (retain : Bool) :
    decide (publishCommand dup qos retain &&& 0x08 ≠ 0) = dup ∧
      ((publishCommand dup qos retain &&& 0x06) >>> 1).toNat = qos ∧
      decide (publishCommand dup qos retain &&& 0x01 ≠ 0) = retain ∧
      publishCommand dup qos retain &&& 0xF0 = PUBLISH := by
  have table : ∀ dup retain : Bool, ∀ qos : Fin 4,
      decide (publishCommand dup qos retain &&& 0x08 ≠ 0) = dup ∧
        ((publishCommand dup qos retain &&& 0x06) >>> 1).toNat = qos ∧
        decide (publishCommand dup qos retain &&& 0x01 ≠ 0) = retain ∧
        publishCommand dup qos retain &&& 0xF0 = PUBLISH := by decide
  exact table dup retain ⟨qos, known⟩

def publishBody (mid : BitVec 16) (topic payload : List Byte) (qos : Nat) : List Byte :=
  stringBytes topic ++ (if qos > 0 then wordBytes mid else []) ++ payload

theorem publish_body_length (mid : BitVec 16) (topic payload : List Byte) (qos : Nat) :
    (publishBody mid topic payload qos).length =
      2 + topic.length + payload.length + if qos > 0 then 2 else 0 := by
  rw [publishBody]
  split
  · simp only [List.length_append, string_bytes_length, word_bytes_length]
    omega
  · simp only [List.length_append, string_bytes_length, List.length_nil]
    omega

variable {mid : BitVec 16} {topic payload : List Byte} {qos : Nat} {retain dup : Bool}

theorem send_real_publish_sealed (short : topic.length < 65536)
    (fits : (publishBody mid topic payload qos).length < 268435456) :
    sendRealPublish mid topic payload qos retain dup =
      .ok (sealed mid ⟨publishCommand dup qos retain, publishBody mid topic payload qos⟩) := by
  rcases alloc_sealed (publishCommand dup qos retain) mid fits with ⟨packet, alloc, whole⟩
  rw [publish_body_length] at alloc
  rw [sendRealPublish]
  dsimp only
  rw [alloc, ← whole]
  change Except.ok _ = Except.ok _
  rw [write_string_eq packet short, publishBody, ← write_bytes_append, ← write_bytes_append]
  have payload_part : ∀ packet : OutPacket,
      (if payload.length > 0 then writeBytes packet payload else packet) =
        writeBytes packet payload := by
    intro packet
    split
    next => rfl
    next none =>
        rw [List.eq_nil_of_length_eq_zero (Nat.eq_zero_of_not_pos none), writeBytes,
          List.append_nil]
  rw [payload_part]
  split
  next => rw [write_uint16_eq]
  next => simp only [write_bytes_append, List.append_nil]

theorem cstring_of_free {text : List Byte} (free : 0 ∉ text) : cString text = text := by
  rw [cString, List.takeWhile_eq_self_iff]
  intro byte member
  apply decide_eq_true
  intro zero
  exact free (zero ▸ member)

theorem read_publish_mid_write {packet : InPacket} {rest : List Byte}
    (ahead : Ahead packet ((if qos > 0 then wordBytes mid else []) ++ rest)) :
    ∃ next, readPublishMid qos packet = .ok (if qos > 0 then mid else 0, next) ∧
      Ahead next rest := by
  rw [readPublishMid]
  split
  next positive =>
      rw [if_pos positive] at ahead
      exact ⟨_, read_uint16_write ahead⟩
  next none =>
      rw [if_neg none] at ahead
      exact ⟨packet, rfl, ahead⟩

theorem read_publish_payload_write {packet : InPacket} (ahead : Ahead packet payload) :
    ∃ next, readPublishPayload packet = .ok (payload, next) := by
  rw [readPublishPayload, ahead_length ahead]
  split
  next =>
      have whole : Ahead packet (payload ++ []) := by rw [List.append_nil]; exact ahead
      exact ⟨_, (read_bytes_write whole).1⟩
  next none =>
      rw [List.eq_nil_of_length_eq_zero (Nat.eq_zero_of_not_pos none)]
      exact ⟨_, rfl⟩

theorem parse_publish_of_body {packet : InPacket} (known : qos < 4) (short : topic.length < 65536)
    (text : 0 ∉ topic) (some : topic ≠ [])
    (command : packet.command = publishCommand dup qos retain)
    (ahead : Ahead packet (publishBody mid topic payload qos)) :
    parsePublish packet =
      .ok ⟨dup, if qos > 0 then mid else 0, topic, payload, qos, retain⟩ := by
  have bits := publish_command_bits dup known retain
  rw [publishBody, List.append_assoc] at ahead
  have topicRead := read_string_write short ahead
  rcases read_publish_mid_write topicRead.2 with ⟨next, midRead, behind⟩
  rcases read_publish_payload_write behind with ⟨last, payloadRead⟩
  have seen : cString topic = topic := cstring_of_free text
  rw [parsePublish, command]
  dsimp only
  rw [bits.1, bits.2.1, bits.2.2.1, topicRead.1]
  change (if cString topic = [] then _ else _) = _
  rw [seen, if_neg some]
  rw [midRead]
  change (readPublishPayload next >>= _) = _
  rw [payloadRead]
  rfl

end Publish

section Messages

theorem delivered_ahead (packet : Frame) : Ahead (delivered packet) packet.body :=
  ⟨⟨rfl, Nat.zero_le _⟩, List.drop_zero⟩

/-- A message goes through the packet unchanged, up to the message id that QoS 0 has none
of. -/
theorem publish_read_back (mid : BitVec 16) (topic payload : List Byte) (qos : Nat)
    (retain dup : Bool) (known : qos ≤ 2) (some : topic ≠ []) (text : 0 ∉ topic)
    (short : topic.length < 65536)
    (fits : 2 + topic.length + payload.length + (if qos > 0 then 2 else 0) < 268435456) :
    ∃ packet : Frame, packet.WellFormed ∧
      sendRealPublish mid topic payload qos retain dup = .ok (sealed mid packet) ∧
      parsePublish (delivered packet) =
        .ok ⟨dup, if qos > 0 then mid else 0, topic, payload, qos, retain⟩ := by
  have bits := publish_command_bits dup (show qos < 4 by omega) retain
  have size : (publishBody mid topic payload qos).length < 268435456 := by
    rw [publish_body_length]
    exact fits
  refine ⟨⟨publishCommand dup qos retain, publishBody mid topic payload qos⟩, ⟨?_, size⟩,
    send_real_publish_sealed short size, ?_⟩
  · intro zero
    have none : publishCommand dup qos retain = 0 := zero
    have high := bits.2.2.2
    rw [none] at high
    exact absurd high (by decide)
  · exact parse_publish_of_body (by omega) short text some rfl (delivered_ahead _)

theorem publish_read_back_short : ∃ packet : Frame, packet.WellFormed ∧
    sendRealPublish 7 [0x61] [0x62, 0x63] 1 true false = .ok (sealed 7 packet) ∧
    parsePublish (delivered packet) = .ok ⟨false, 7, [0x61], [0x62, 0x63], 1, true⟩ :=
  publish_read_back 7 [0x61] [0x62, 0x63] 1 true false (by decide) (by decide) (by decide)
    (by decide) (by decide)

theorem command_with_mid_read_back (command : Byte) (mid : BitVec 16) :
    sendCommandWithMid command mid false = .ok (sealed 0 ⟨command, wordBytes mid⟩) ∧
      parseMid (delivered ⟨command, wordBytes mid⟩) = .ok mid := by
  constructor
  · have short : (wordBytes mid).length < 268435456 := by rw [word_bytes_length]; decide
    rcases alloc_sealed command 0 short with ⟨packet, alloc, whole⟩
    rw [word_bytes_length] at alloc
    rw [sendCommandWithMid, if_neg (by decide), alloc, ← whole, ← write_uint16_eq]
    rfl
  · have ahead : Ahead (delivered ⟨command, wordBytes mid⟩) (wordBytes mid ++ []) := by
      rw [List.append_nil]
      exact delivered_ahead _
    rw [parseMid, (read_uint16_write ahead).1]
    rfl

end Messages

end Gk7102.MqttCodec
