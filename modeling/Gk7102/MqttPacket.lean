import Gk7102.Base128Coding

/-!
# Packets of the MQTT client

An outgoing packet is allocated for its remaining length and then filled field by field.
An incoming one is read field by field, each reader comparing the position with the
remaining length before it touches the payload.
-/

namespace Gk7102.MqttPacket

open ByteBlocks Base128Coding

set_option autoImplicit false

inductive MosqErr where
  | connPending | success | nomem | protocol | inval | noConn | connRefused | notFound
  | connLost | tls | payloadSize | notSupported | auth | aclDenied | unknown | errno | eai
  | proxy
deriving DecidableEq, Repr

section Commands

def CONNECT : Byte := 0x10
def CONNACK : Byte := 0x20
def PUBLISH : Byte := 0x30
def PUBACK : Byte := 0x40
def PUBREC : Byte := 0x50
def PUBREL : Byte := 0x60
def PUBCOMP : Byte := 0x70
def SUBSCRIBE : Byte := 0x80
def SUBACK : Byte := 0x90
def UNSUBSCRIBE : Byte := 0xA0
def UNSUBACK : Byte := 0xB0
def PINGREQ : Byte := 0xC0
def PINGRESP : Byte := 0xD0
def DISCONNECT : Byte := 0xE0

end Commands

section Writing

/-- `struct _mosquitto_packet` on its way out. `payload` is the part of the buffer of
`packetLength` bytes that is written; while a packet is filled, `pos` is its length. -/
structure OutPacket where
  command : Byte
  mid : BitVec 16
  packetLength : Nat
  payload : List Byte
deriving DecidableEq, Repr

def packetAlloc (command : Byte) (mid : BitVec 16) (remainingLength : Nat) :
    Except MosqErr OutPacket :=
  let remainingBytes := encode 5 remainingLength
  if remainingBytes.length = 5 then .error .payloadSize
  else .ok ⟨command, mid, remainingLength + 1 + remainingBytes.length, command :: remainingBytes⟩

def writeBytes (packet : OutPacket) (bytes : List Byte) : OutPacket :=
  { packet with payload := packet.payload ++ bytes }

def writeByte (packet : OutPacket) (byte : Byte) : OutPacket := writeBytes packet [byte]

def mosqMsb (word : BitVec 16) : Byte := word.extractLsb' 8 8
def mosqLsb (word : BitVec 16) : Byte := word.extractLsb' 0 8

def writeUint16 (packet : OutPacket) (word : BitVec 16) : OutPacket :=
  writeByte (writeByte packet (mosqMsb word)) (mosqLsb word)

/-- The length is a `uint16_t`: of a longer text only the bytes that are left of its length
modulo 65536 are written. -/
def writeString (packet : OutPacket) (str : List Byte) (length : BitVec 16) : OutPacket :=
  writeBytes (writeUint16 packet length) (str.take length.toNat)

/-- The whole buffer is written, and not a byte more. -/
def OutPacket.Filled (packet : OutPacket) : Prop := packet.payload.length = packet.packetLength

/-- The fixed header and what follows it. -/
def frame (command : Byte) (body : List Byte) : List Byte :=
  command :: encode 5 body.length ++ body

/-- A packet as its sender means it. -/
structure Frame where
  command : Byte
  body : List Byte
deriving DecidableEq, Repr

def Frame.bytes (packet : Frame) : List Byte := frame packet.command packet.body

/-- `packetAlloc` takes its length, and its command is not 0. -/
structure Frame.WellFormed (packet : Frame) : Prop where
  command : packet.command ≠ 0
  fits : packet.body.length < 268435456

/-- A packet as the functions that fill one leave it. -/
def sealed (mid : BitVec 16) (packet : Frame) : OutPacket :=
  ⟨packet.command, mid, packet.bytes.length, packet.bytes⟩

def wordBytes (word : BitVec 16) : List Byte := [mosqMsb word, mosqLsb word]

def stringBytes (str : List Byte) : List Byte := wordBytes (BitVec.ofNat 16 str.length) ++ str

@[simp] theorem word_bytes_length (word : BitVec 16) : (wordBytes word).length = 2 := rfl

@[simp] theorem string_bytes_length (str : List Byte) :
    (stringBytes str).length = 2 + str.length := by
  simp [stringBytes]

theorem packet_alloc_ok {command : Byte} {mid : BitVec 16} {remainingLength : Nat}
    (fits : remainingLength < 268435456) :
    packetAlloc command mid remainingLength =
      .ok ⟨command, mid, remainingLength + 1 + (encode 5 remainingLength).length,
        command :: encode 5 remainingLength⟩ := by
  have short : (encode 5 remainingLength).length ≤ 4 :=
    (encode_length_le_iff 3 remainingLength).mpr (by norm_num; exact fits)
  rw [packetAlloc, if_neg (by omega)]

theorem write_bytes_append (packet : OutPacket) (front back : List Byte) :
    writeBytes (writeBytes packet front) back = writeBytes packet (front ++ back) := by
  simp only [writeBytes, List.append_assoc]

theorem write_uint16_eq (packet : OutPacket) (word : BitVec 16) :
    writeUint16 packet word = writeBytes packet (wordBytes word) := by
  rw [writeUint16, writeByte, writeByte, write_bytes_append]
  rfl

theorem write_string_eq (packet : OutPacket) {str : List Byte} (fits : str.length < 65536) :
    writeString packet str (BitVec.ofNat 16 str.length) = writeBytes packet (stringBytes str) := by
  have length : (BitVec.ofNat 16 str.length).toNat = str.length := Nat.mod_eq_of_lt fits
  rw [writeString, write_uint16_eq, write_bytes_append, length, List.take_length, stringBytes]

theorem alloc_sealed (command : Byte) (mid : BitVec 16) {body : List Byte}
    (fits : body.length < 268435456) :
    ∃ packet, packetAlloc command mid body.length = .ok packet ∧
      writeBytes packet body = sealed mid ⟨command, body⟩ := by
  refine ⟨_, packet_alloc_ok fits, ?_⟩
  simp only [writeBytes, sealed, Frame.bytes, frame, List.length_append, List.length_cons,
    OutPacket.mk.injEq, true_and, and_true]
  omega

end Writing

section Reading

/-- `struct _mosquitto_packet` on its way in. `payload` is what has arrived of its buffer of
`remainingLength` bytes. -/
structure InPacket where
  command : Byte
  remainingCount : Int
  remainingMult : Nat
  remainingLength : Nat
  payload : List Byte
  toProcess : Nat
  pos : Nat
deriving DecidableEq, Repr

def packetCleanup : InPacket := ⟨0, 0, 1, 0, [], 0, 0⟩

/-- Why a handler stops reading. The source has no name for a read behind its buffer. -/
inductive Stop where
  | failed (rc : MosqErr)
  | overread
deriving DecidableEq, Repr

def readByte (packet : InPacket) : Except Stop (Byte × InPacket) :=
  if packet.pos + 1 > packet.remainingLength then .error (.failed .protocol)
  else
    match packet.payload[packet.pos]? with
    | none => .error .overread
    | some byte => .ok (byte, { packet with pos := packet.pos + 1 })

def readUint16 (packet : InPacket) : Except Stop (BitVec 16 × InPacket) :=
  if packet.pos + 2 > packet.remainingLength then .error (.failed .protocol)
  else
    match packet.payload[packet.pos]?, packet.payload[packet.pos + 1]? with
    | some msb, some lsb => .ok (msb ++ lsb, { packet with pos := packet.pos + 2 })
    | _, _ => .error .overread

def readBytes (packet : InPacket) (count : Nat) : Except Stop (List Byte × InPacket) :=
  if packet.pos + count > packet.remainingLength then .error (.failed .protocol)
  else
    let bytes := load packet.payload packet.pos count
    if bytes.length < count then .error .overread
    else .ok (bytes, { packet with pos := packet.pos + count })

/-- The bytes that are copied in front of the terminator. -/
def readString (packet : InPacket) : Except Stop (List Byte × InPacket) := do
  let (length, packet) ← readUint16 packet
  readBytes packet length.toNat

/-- What `_mosquitto_packet_read` hands to the handlers: the payload is all there. -/
structure Complete (packet : InPacket) : Prop where
  whole : packet.payload.length = packet.remainingLength
  within : packet.pos ≤ packet.remainingLength

def InPacket.unread (packet : InPacket) : List Byte := packet.payload.drop packet.pos

def InPacket.advance (packet : InPacket) (count : Nat) : InPacket :=
  { packet with pos := packet.pos + count }

section Complete

variable {packet : InPacket}

theorem unread_length (complete : Complete packet) :
    packet.unread.length = packet.remainingLength - packet.pos := by
  rw [InPacket.unread, List.length_drop, complete.whole]

theorem advance_complete (complete : Complete packet) {count : Nat}
    (bound : count ≤ packet.unread.length) : Complete (packet.advance count) := by
  have length := unread_length complete
  have within := complete.within
  constructor
  · exact complete.whole
  · change packet.pos + count ≤ packet.remainingLength
    omega

@[simp] theorem advance_unread (packet : InPacket) (count : Nat) :
    (packet.advance count).unread = packet.unread.drop count := by
  simp only [InPacket.unread, InPacket.advance, List.drop_drop]

@[simp] theorem advance_command (packet : InPacket) (count : Nat) :
    (packet.advance count).command = packet.command := rfl

theorem read_byte_eq (complete : Complete packet) :
    readByte packet =
      match packet.unread with
      | [] => .error (.failed .protocol)
      | byte :: _ => .ok (byte, packet.advance 1) := by
  have length := unread_length complete
  rw [readByte]
  cases rest : packet.unread with
  | nil =>
      rw [rest, List.length_nil] at length
      rw [if_pos (by omega)]
  | cons byte tail =>
      rw [rest, List.length_cons] at length
      have here : packet.payload[packet.pos]? = some byte := by
        rw [← List.head?_drop, ← InPacket.unread, rest, List.head?_cons]
      rw [if_neg (by omega), here]
      rfl

theorem read_uint16_eq (complete : Complete packet) :
    readUint16 packet =
      match packet.unread with
      | msb :: lsb :: _ => .ok (msb ++ lsb, packet.advance 2)
      | _ => .error (.failed .protocol) := by
  have length := unread_length complete
  have at_offset : ∀ offset, packet.payload[packet.pos + offset]? = packet.unread[offset]? := by
    intro offset
    rw [InPacket.unread, List.getElem?_drop]
  rw [readUint16, at_offset 1]
  have start := at_offset 0
  rw [Nat.add_zero] at start
  rw [start]
  match rest : packet.unread with
  | [] =>
      rw [rest, List.length_nil] at length
      rw [if_pos (by omega)]
  | [_] =>
      rw [rest, List.length_singleton] at length
      rw [if_pos (by omega)]
  | msb :: lsb :: tail =>
      rw [rest, List.length_cons, List.length_cons] at length
      rw [if_neg (by omega)]
      rfl

theorem read_bytes_eq (complete : Complete packet) (count : Nat) :
    readBytes packet count =
      if count ≤ packet.unread.length then .ok (packet.unread.take count, packet.advance count)
      else .error (.failed .protocol) := by
  have length := unread_length complete
  have within := complete.within
  rw [readBytes]
  by_cases bound : packet.pos + count > packet.remainingLength
  · rw [if_pos bound, if_neg (by omega)]
  · have all : ¬ (load packet.payload packet.pos count).length < count := by
      rw [load, ← InPacket.unread, List.length_take]
      omega
    have room : count ≤ packet.unread.length := by omega
    rw [if_neg bound, if_pos room]
    dsimp only
    rw [if_neg all]
    rfl

end Complete

end Reading

section ReadBack

/-- The payload is all there, and these bytes of it are not read yet. -/
structure Ahead (packet : InPacket) (bytes : List Byte) : Prop where
  complete : Complete packet
  unread : packet.unread = bytes

variable {packet : InPacket} {bytes rest : List Byte}

theorem ahead_advance (ahead : Ahead packet (bytes ++ rest)) :
    Ahead (packet.advance bytes.length) rest := by
  have room : bytes.length ≤ packet.unread.length := by
    rw [ahead.unread, List.length_append]
    exact Nat.le_add_right _ _
  refine ⟨advance_complete ahead.complete room, ?_⟩
  rw [advance_unread, ahead.unread, List.drop_left]

theorem ahead_length (ahead : Ahead packet bytes) :
    packet.remainingLength - packet.pos = bytes.length := by
  rw [← unread_length ahead.complete, ahead.unread]

@[simp] theorem word_of_bytes (word : BitVec 16) : mosqMsb word ++ mosqLsb word = word := by
  apply BitVec.eq_of_getLsbD_eq
  intro i bound
  simp only [mosqMsb, mosqLsb, BitVec.getLsbD_append, BitVec.getLsbD_extractLsb']
  grind

theorem read_byte_write {byte : Byte} (ahead : Ahead packet (byte :: rest)) :
    readByte packet = .ok (byte, packet.advance 1) ∧ Ahead (packet.advance 1) rest := by
  refine ⟨?_, ahead_advance (show Ahead packet ([byte] ++ rest) from ahead)⟩
  rw [read_byte_eq ahead.complete, ahead.unread]

theorem read_uint16_write {word : BitVec 16} (ahead : Ahead packet (wordBytes word ++ rest)) :
    readUint16 packet = .ok (word, packet.advance 2) ∧ Ahead (packet.advance 2) rest := by
  refine ⟨?_, ahead_advance ahead⟩
  rw [read_uint16_eq ahead.complete, ahead.unread]
  simp [wordBytes]

theorem read_bytes_write (ahead : Ahead packet (bytes ++ rest)) :
    readBytes packet bytes.length = .ok (bytes, packet.advance bytes.length) ∧
      Ahead (packet.advance bytes.length) rest := by
  refine ⟨?_, ahead_advance ahead⟩
  rw [read_bytes_eq ahead.complete, ahead.unread, if_pos (by simp), List.take_left' rfl]

theorem read_string_write {str : List Byte} (fits : str.length < 65536)
    (ahead : Ahead packet (stringBytes str ++ rest)) :
    readString packet = .ok (str, packet.advance (2 + str.length)) ∧
      Ahead (packet.advance (2 + str.length)) rest := by
  have length : (BitVec.ofNat 16 str.length).toNat = str.length := Nat.mod_eq_of_lt fits
  have whole : Ahead packet (wordBytes (BitVec.ofNat 16 str.length) ++ (str ++ rest)) := by
    rw [stringBytes, List.append_assoc] at ahead
    exact ahead
  have word := read_uint16_write whole
  have text := read_bytes_write word.2
  have joined : (packet.advance 2).advance str.length = packet.advance (2 + str.length) := by
    simp only [InPacket.advance, Nat.add_assoc]
  rw [joined] at text
  refine ⟨?_, text.2⟩
  rw [readString, word.1]
  change readBytes (packet.advance 2) (BitVec.ofNat 16 str.length).toNat = _
  rw [length]
  exact text.1

end ReadBack

end Gk7102.MqttPacket
