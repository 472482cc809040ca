import Gk7102.MqttCodec

/-!
# The CONNECT packet

Its flags say which of will, user name and password follow the client id, and each text
stands behind a length of 16 bits.
-/

namespace Gk7102.MqttConnect

open ByteBlocks MqttPacket MqttReading MqttCodec

set_option autoImplicit false

section Sending

/-- `MQTT_PROTOCOL_V31` and `MQTT_PROTOCOL_V311`; `mosquitto_opts_set` takes no other. -/
inductive Protocol where
  | mqtt31 | mqtt311
deriving DecidableEq, Repr

def Protocol.version : Protocol → Byte
  | .mqtt31 => 3
  | .mqtt311 => 4

def Protocol.text : Protocol → List Byte
  | .mqtt31 => [0x4D, 0x51, 0x49, 0x73, 0x64, 0x70]
  | .mqtt311 => [0x4D, 0x51, 0x54, 0x54]

def Protocol.headerlen : Protocol → Nat
  | .mqtt31 => 12
  | .mqtt311 => 10

/-- The will of a client, a `struct mosquitto_message` without message id. -/
structure Will where
  topic : List Byte
  payload : List Byte
  qos : Nat
  retain : Bool
deriving DecidableEq, Repr

/-- What `_mosquitto_send_connect` puts into its packet. -/
structure Session where
  protocol : Protocol
  cleanSession : Bool
  keepalive : BitVec 16
  id : List Byte
  will : Option Will
  username : Option (List Byte)
  password : Option (List Byte)
deriving DecidableEq, Repr

def willFlags : Option Will → Byte
  | none => 0
  | some will =>
      (BitVec.ofNat 8 will.retain.toNat <<< 5) ||| ((BitVec.ofNat 8 will.qos &&& 3) <<< 3) ||| 4

def loginFlags : Option (List Byte) → Option (List Byte) → Byte
  | none, _ => 0
  | some _, none => 0x80
  | some _, some _ => 0xC0

def connectFlags (session : Session) : Byte :=
  (BitVec.ofNat 8 session.cleanSession.toNat <<< 1) ||| willFlags session.will |||
    loginFlags session.username session.password

def writeText (packet : OutPacket) (str : List Byte) : OutPacket :=
  writeString packet str (BitVec.ofNat 16 str.length)

def writeWill (packet : OutPacket) : Option Will → OutPacket
  | none => packet
  | some will => writeText (writeText packet will.topic) will.payload

/-- The password goes only with a user name. -/
def writeLogin (packet : OutPacket) : Option (List Byte) → Option (List Byte) → OutPacket
  | none, _ => packet
  | some username, none => writeText packet username
  | some username, some password => writeText (writeText packet username) password

def willLength : Option Will → Nat
  | none => 0
  | some will => 2 + will.topic.length + 2 + will.payload.length

def loginLength : Option (List Byte) → Option (List Byte) → Nat
  | none, _ => 0
  | some username, none => 2 + username.length
  | some username, some password => 2 + username.length + (2 + password.length)

def sendConnect (session : Session) : Except MosqErr OutPacket := do
  let payloadlen := 2 + session.id.length + willLength session.will +
    loginLength session.username session.password
  let packet ← packetAlloc CONNECT 0 (session.protocol.headerlen + payloadlen)
  let packet := writeText packet session.protocol.text
  let packet := writeByte packet session.protocol.version
  let packet := writeByte packet (connectFlags session)
  let packet := writeUint16 packet session.keepalive
  let packet := writeText packet session.id
  let packet := writeWill packet session.will
  return writeLogin packet session.username session.password

end Sending

section Format

/-- The format of a CONNECT, as a reader of it, which the client has none of: the flags say
what follows the client id. -/
def readWill (flags : Byte) (packet : InPacket) : Except Stop (Option Will × InPacket) :=
  if flags &&& 4 = 0 then .ok (none, packet)
  else do
    let (topic, packet) ← readString packet
    let (payload, packet) ← readString packet
    return (some ⟨topic, payload, ((flags >>> 3) &&& 3).toNat, decide (flags &&& 0x20 ≠ 0)⟩, packet)

def readOptional (present : Bool) (packet : InPacket) :
    Except Stop (Option (List Byte) × InPacket) :=
  if present then do
    let (text, packet) ← readString packet
    return (some text, packet)
  else .ok (none, packet)

def readConnect (packet : InPacket) : Except Stop (Session × InPacket) := do
  let (text, packet) ← readString packet
  let (version, packet) ← readByte packet
  let (flags, packet) ← readByte packet
  let (keepalive, packet) ← readUint16 packet
  let (id, packet) ← readString packet
  let (will, packet) ← readWill flags packet
  let (username, packet) ← readOptional (decide (flags &&& 0x80 ≠ 0)) packet
  let (password, packet) ← readOptional (decide (flags &&& 0x40 ≠ 0)) packet
  let protocol := if text = Protocol.text .mqtt31 ∧ version = 3 then .mqtt31 else .mqtt311
  return (⟨protocol, decide (flags &&& 2 ≠ 0), keepalive, id, will, username, password⟩, packet)

end Format

section Lengths

def willTexts : Option Will → List (List Byte)
  | none => []
  | some will => [will.topic, will.payload]

def loginTexts : Option (List Byte) → Option (List Byte) → List (List Byte)
  | none, _ => []
  | some username, none => [username]
  | some username, some password => [username, password]

def Session.texts (session : Session) : List (List Byte) :=
  session.id :: willTexts session.will ++ loginTexts session.username session.password

/-- The bytes of a text that its length field does not count. -/
def uncounted (str : List Byte) : Nat := str.length - str.length % 65536

theorem uncounted_eq_zero {str : List Byte} : uncounted str = 0 ↔ str.length < 65536 := by
  rw [uncounted]
  omega

theorem uncounted_sum_eq_zero (texts : List (List Byte)) :
    (texts.map uncounted).sum = 0 ↔ ∀ text ∈ texts, text.length < 65536 := by
  induction texts with
  | nil => simp
  | cons text texts ih =>
      rw [List.map_cons, List.sum_cons, Nat.add_eq_zero_iff, ih, uncounted_eq_zero,
        List.forall_mem_cons]

theorem write_text_length (packet : OutPacket) (str : List Byte) :
    (writeText packet str).payload.length + uncounted str =
      packet.payload.length + 2 + str.length := by
  have counted : (BitVec.ofNat 16 str.length).toNat = str.length % 65536 := rfl
  have less := Nat.mod_le str.length 65536
  rw [writeText, writeString, write_uint16_eq, counted, uncounted]
  simp only [writeBytes, List.length_append, List.length_take, word_bytes_length]
  omega

theorem write_will_length (packet : OutPacket) (will : Option Will) :
    (writeWill packet will).payload.length + ((willTexts will).map uncounted).sum =
      packet.payload.length + willLength will := by
  cases will with
  | none => rfl
  | some will =>
      have first := write_text_length packet will.topic
      have second := write_text_length (writeText packet will.topic) will.payload
      simp only [writeWill, willLength, willTexts, List.map_cons, List.map_nil, List.sum_cons,
        List.sum_nil]
      omega

theorem write_login_length (packet : OutPacket) (username password : Option (List Byte)) :
    (writeLogin packet username password).payload.length +
        ((loginTexts username password).map uncounted).sum =
      packet.payload.length + loginLength username password := by
  cases username with
  | none => rfl
  | some username =>
      have first := write_text_length packet username
      cases password with
      | none =>
          simp only [writeLogin, loginLength, loginTexts, List.map_cons, List.map_nil,
            List.sum_cons, List.sum_nil]
          omega
      | some password =>
          have second := write_text_length (writeText packet username) password
          simp only [writeLogin, loginLength, loginTexts, List.map_cons, List.map_nil,
            List.sum_cons, List.sum_nil]
          omega

theorem write_will_packet_length (packet : OutPacket) (will : Option Will) :
    (writeWill packet will).packetLength = packet.packetLength := by
  cases will <;> rfl

theorem write_login_packet_length (packet : OutPacket) (username password : Option (List Byte)) :
    (writeLogin packet username password).packetLength = packet.packetLength := by
  cases username <;> cases password <;> rfl

theorem packet_alloc_length {command : Byte} {mid : BitVec 16} {remainingLength : Nat}
    {packet : OutPacket} (made : packetAlloc command mid remainingLength = .ok packet) :
    packet.payload.length + remainingLength = packet.packetLength := by
  rw [packetAlloc] at made
  split at made
  next => exact absurd made (by simp)
  next =>
      rw [← Except.ok.inj made, List.length_cons]
      exact (by omega : ∀ bytes : Nat, bytes + 1 + remainingLength = remainingLength + 1 + bytes) _

theorem connect_header_length (packet : OutPacket) (session : Session) :
    (writeUint16 (writeByte (writeByte (writeText packet session.protocol.text)
        session.protocol.version) (connectFlags session)) session.keepalive).payload.length =
      packet.payload.length + session.protocol.headerlen := by
  have name := write_text_length packet session.protocol.text
  have size : uncounted session.protocol.text = 0 ∧
      session.protocol.text.length + 6 = session.protocol.headerlen := by
    cases session.protocol <;> decide
  simp only [writeUint16, writeByte, writeBytes, List.length_append, List.length_singleton]
  omega

theorem send_connect_length {session : Session} {packet : OutPacket}
    (made : sendConnect session = .ok packet) :
    packet.payload.length + (session.texts.map uncounted).sum = packet.packetLength := by
  rw [sendConnect] at made
  dsimp only at made
  cases alloc : packetAlloc CONNECT 0 (session.protocol.headerlen +
      (2 + session.id.length + willLength session.will +
        loginLength session.username session.password)) with
  | error rc =>
      rw [alloc] at made
      exact absurd made (by simp [bind, Except.bind])
  | ok first =>
      rw [alloc] at made
      have room := packet_alloc_length alloc
      have header := connect_header_length first session
      replace made := Except.ok.inj made
      generalize filled : writeUint16 _ session.keepalive = second at made header
      have same : second.packetLength = first.packetLength := by rw [← filled]; rfl
      have id := write_text_length second session.id
      have will := write_will_length (writeText second session.id) session.will
      have login := write_login_length (writeWill (writeText second session.id) session.will)
        session.username session.password
      have whole : packet.packetLength = second.packetLength := by
        rw [← made, write_login_packet_length, write_will_packet_length]
        rfl
      have parts : (session.texts.map uncounted).sum = uncounted session.id +
          ((willTexts session.will).map uncounted).sum +
            ((loginTexts session.username session.password).map uncounted).sum := by
        simp only [Session.texts, List.map_append, List.map_cons, List.sum_append,
          List.sum_cons, List.cons_append]
        omega
      rw [made] at login
      omega

/-- The buffer of a CONNECT is never overrun. It is filled exactly when the length of every
text fits its field; otherwise bytes that were never written go out. -/
theorem connect_filled_iff (session : Session) (packet : OutPacket)
    (made : sendConnect session = .ok packet) :
    packet.payload.length ≤ packet.packetLength ∧
      (packet.Filled ↔ ∀ text ∈ session.texts, text.length < 65536) := by
  have account := send_connect_length made
  rw [OutPacket.Filled, ← uncounted_sum_eq_zero]
  omega

def sessionWithWill : Session :=
  ⟨.mqtt31, true, 60, [0x61], some ⟨[0x62], [0x63, 0x64], 1, true⟩, some [0x65], none⟩

theorem connect_filled_iff_will : ∃ packet, sendConnect sessionWithWill = .ok packet ∧
    packet.payload.length ≤ packet.packetLength ∧
      (packet.Filled ↔ ∀ text ∈ sessionWithWill.texts, text.length < 65536) :=
  ⟨_, rfl, connect_filled_iff sessionWithWill _ rfl⟩

end Lengths

section ReadBack

/-- A session that the setters of the client let through. -/
structure Session.WellFormed (session : Session) : Prop where
  willQos : ∀ will ∈ session.will, will.qos < 4
  login : session.username = none → session.password = none
  short : ∀ text ∈ session.texts, text.length < 65536

theorem will_flags_bits (clean retain : Bool) {qos : Nat} (known : qos < 4) {login : Byte}
    (logins : login ∈ [(0 : Byte), 0x80, 0xC0]) (topic payload : List Byte) :
    let flags := (BitVec.ofNat 8 clean.toNat <<< 1) |||
      willFlags (some ⟨topic, payload, qos, retain⟩) ||| login
    decide (flags &&& 2 ≠ 0) = clean ∧ flags &&& 4 ≠ 0 ∧ ((flags >>> 3) &&& 3).toNat = qos ∧
      decide (flags &&& 0x20 ≠ 0) = retain ∧ decide (flags &&& 0x80 ≠ 0) = decide (login ≠ 0) ∧
      decide (flags &&& 0x40 ≠ 0) = decide (login = 0xC0) := by
  have table : ∀ clean retain : Bool, ∀ qos : Fin 4, ∀ login ∈ [(0 : Byte), 0x80, 0xC0],
      let flags := (BitVec.ofNat 8 clean.toNat <<< 1) ||| ((BitVec.ofNat 8 retain.toNat <<< 5) |||
        ((BitVec.ofNat 8 qos &&& 3) <<< 3) ||| 4) ||| login
      decide (flags &&& 2 ≠ 0) = clean ∧ flags &&& 4 ≠ 0 ∧ ((flags >>> 3) &&& 3).toNat = qos ∧
        decide (flags &&& 0x20 ≠ 0) = retain ∧
        decide (flags &&& 0x80 ≠ 0) = decide (login ≠ 0) ∧
        decide (flags &&& 0x40 ≠ 0) = decide (login = 0xC0) := by decide
  exact table clean retain ⟨qos, known⟩ login logins

theorem login_flags (username password : Option (List Byte))
    (login : username = none → password = none) :
    loginFlags username password ∈ [(0 : Byte), 0x80, 0xC0] ∧
      decide (loginFlags username password ≠ 0) = username.isSome ∧
      decide (loginFlags username password = 0xC0) = password.isSome := by
  cases username with
  | none =>
      rw [login rfl]
      decide
  | some username => cases password <;> simp [loginFlags]

/-- The bytes of the will and of the login, behind the client id. -/
def willBytes : Option Will → List Byte
  | none => []
  | some will => stringBytes will.topic ++ stringBytes will.payload

def optionalBytes (text : Option (List Byte)) : List Byte := text.elim [] stringBytes

def connectBody (session : Session) : List Byte :=
  stringBytes session.protocol.text ++ ([session.protocol.version] ++ ([connectFlags session] ++
    (wordBytes session.keepalive ++ (stringBytes session.id ++ (willBytes session.will ++
      (optionalBytes session.username ++ optionalBytes session.password))))))

variable {packet : InPacket} {rest : List Byte}

theorem read_will_write {will : Option Will} {flags : Byte}
    (short : ∀ text ∈ willTexts will, text.length < 65536)
    (absent : will = none → flags &&& 4 = 0)
    (present : ∀ set ∈ will, flags &&& 4 ≠ 0 ∧ ((flags >>> 3) &&& 3).toNat = set.qos ∧
      decide (flags &&& 0x20 ≠ 0) = set.retain)
    (ahead : Ahead packet (willBytes will ++ rest)) :
    ∃ next, readWill flags packet = .ok (will, next) ∧ Ahead next rest := by
  cases will with
  | none =>
      rw [readWill, if_pos (absent rfl)]
      exact ⟨packet, rfl, ahead⟩
  | some will =>
      rcases present will rfl with ⟨set, qos, retain⟩
      rw [willBytes, List.append_assoc] at ahead
      have topic := read_string_write (short _ (by simp [willTexts])) ahead
      have payload := read_string_write (short _ (by simp [willTexts])) topic.2
      refine ⟨_, ?_, payload.2⟩
      rw [readWill, if_neg set, qos, retain, topic.1]
      change (readString _ >>= _) = _
      rw [payload.1]
      rfl

theorem read_optional_write {text : Option (List Byte)}
    (short : ∀ str ∈ text, str.length < 65536)
    (ahead : Ahead packet (optionalBytes text ++ rest)) :
    ∃ next, readOptional text.isSome packet = .ok (text, next) ∧ Ahead next rest := by
  cases text with
  | none => exact ⟨packet, rfl, ahead⟩
  | some str =>
      have read := read_string_write (short str rfl) ahead
      refine ⟨_, ?_, read.2⟩
      rw [readOptional, Option.isSome_some, if_pos rfl, read.1]
      rfl

theorem protocol_read_back (protocol : Protocol) :
    (if protocol.text = Protocol.text .mqtt31 ∧ protocol.version = 3 then Protocol.mqtt31
      else .mqtt311) = protocol := by
  cases protocol <;> rfl

theorem connect_flags_read {session : Session} (formed : session.WellFormed) :
    decide (connectFlags session &&& 2 ≠ 0) = session.cleanSession ∧
      (session.will = none → connectFlags session &&& 4 = 0) ∧
      (∀ set ∈ session.will, connectFlags session &&& 4 ≠ 0 ∧
        ((connectFlags session >>> 3) &&& 3).toNat = set.qos ∧
        decide (connectFlags session &&& 0x20 ≠ 0) = set.retain) ∧
      decide (connectFlags session &&& 0x80 ≠ 0) = session.username.isSome ∧
      decide (connectFlags session &&& 0x40 ≠ 0) = session.password.isSome := by
  rcases login_flags session.username session.password formed.login with ⟨logins, name, word⟩
  rw [connectFlags, ← name, ← word]
  cases will : session.will with
  | some set =>
      rcases will_flags_bits session.cleanSession set.retain (formed.willQos set will) logins
        set.topic set.payload with ⟨clean, present, qos, retain, username, password⟩
      refine ⟨clean, ?_, ?_, username, password⟩
      · intro absent
        exact absurd absent (by simp)
      · intro other same
        rw [← Option.mem_some.mp same]
        exact ⟨present, qos, retain⟩
  | none =>
      have table : ∀ clean : Bool, ∀ login ∈ [(0 : Byte), 0x80, 0xC0],
          let flags := (BitVec.ofNat 8 clean.toNat <<< 1) ||| willFlags none ||| login
          decide (flags &&& 2 ≠ 0) = clean ∧ flags &&& 4 = 0 ∧
            decide (flags &&& 0x80 ≠ 0) = decide (login ≠ 0) ∧
            decide (flags &&& 0x40 ≠ 0) = decide (login = 0xC0) := by decide
      rcases table session.cleanSession _ logins with ⟨clean, absent, username, password⟩
      refine ⟨clean, fun _ => absent, ?_, username, password⟩
      intro set same
      exact absurd same (by simp)

theorem read_connect_of_body {session : Session} (formed : session.WellFormed)
    (ahead : Ahead packet (connectBody session)) :
    ∃ last, readConnect packet = .ok (session, last) ∧ last.unread = [] := by
  rcases connect_flags_read formed with ⟨clean, absent, present, username, password⟩
  have short := formed.short
  rw [connectBody] at ahead
  have name := read_string_write (by cases session.protocol <;> decide) ahead
  have version := read_byte_write name.2
  have flags := read_byte_write version.2
  have keepalive := read_uint16_write flags.2
  have id := read_string_write (short _ (by simp [Session.texts])) keepalive.2
  have wills : ∀ text ∈ willTexts session.will, text.length < 65536 := by
    intro text member
    exact short text (by simp [Session.texts, member])
  rcases read_will_write wills absent present id.2 with ⟨third, willRead, behindWill⟩
  have users : ∀ str ∈ session.username, str.length < 65536 := by
    intro str given
    apply short
    cases word : session.password <;> simp_all [Session.texts, loginTexts]
  rcases read_optional_write users behindWill with ⟨fourth, userRead, behindUser⟩
  rw [← List.append_nil (optionalBytes session.password)] at behindUser
  have words : ∀ str ∈ session.password, str.length < 65536 := by
    intro str given
    apply short
    cases user : session.username with
    | none => simp_all [formed.login user]
    | some user => simp_all [Session.texts, loginTexts]
  rcases read_optional_write words behindUser with ⟨last, wordRead, behind⟩
  refine ⟨last, ?_, behind.unread⟩
  rw [readConnect, name.1]
  change (readByte _ >>= _) = _
  rw [version.1]
  change (readByte _ >>= _) = _
  rw [flags.1]
  change (readUint16 _ >>= _) = _
  rw [keepalive.1]
  change (readString _ >>= _) = _
  rw [id.1]
  change (readWill _ _ >>= _) = _
  rw [willRead]
  change (readOptional _ _ >>= _) = _
  rw [username, userRead]
  change (readOptional _ _ >>= _) = _
  rw [password, wordRead]
  change Except.ok _ = _
  rw [clean, protocol_read_back]

theorem write_text_eq (packet : OutPacket) {str : List Byte} (short : str.length < 65536) :
    writeText packet str = writeBytes packet (stringBytes str) := write_string_eq packet short

theorem write_will_eq (packet : OutPacket) {will : Option Will}
    (short : ∀ text ∈ willTexts will, text.length < 65536) :
    writeWill packet will = writeBytes packet (willBytes will) := by
  cases will with
  | none => simp only [writeWill, willBytes, writeBytes, List.append_nil]
  | some will =>
      rw [writeWill, write_text_eq _ (short _ (by simp [willTexts])),
        write_text_eq _ (short _ (by simp [willTexts])), write_bytes_append, willBytes]

theorem write_login_eq (packet : OutPacket) {username password : Option (List Byte)}
    (login : username = none → password = none)
    (short : ∀ text ∈ loginTexts username password, text.length < 65536) :
    writeLogin packet username password =
      writeBytes packet (optionalBytes username ++ optionalBytes password) := by
  cases username with
  | none =>
      rw [login rfl]
      simp only [writeLogin, optionalBytes, Option.elim, writeBytes, List.append_nil]
  | some username =>
      cases password with
      | none =>
          rw [writeLogin, write_text_eq _ (short _ (by simp [loginTexts]))]
          simp only [optionalBytes, Option.elim, List.append_nil]
      | some password =>
          rw [writeLogin, write_text_eq _ (short _ (by simp [loginTexts])),
            write_text_eq _ (short _ (by simp [loginTexts])), write_bytes_append]
          rfl

theorem connect_body_length {session : Session}
    (login : session.username = none → session.password = none) :
    (connectBody session).length = session.protocol.headerlen +
      (2 + session.id.length + willLength session.will +
        loginLength session.username session.password) := by
  have name : session.protocol.text.length + 6 = session.protocol.headerlen := by
    cases session.protocol <;> decide
  have will : (willBytes session.will).length = willLength session.will := by
    cases session.will with
    | none => rfl
    | some will =>
        simp only [willBytes, willLength, List.length_append, string_bytes_length]
        omega
  have logins : (optionalBytes session.username ++ optionalBytes session.password).length =
      loginLength session.username session.password := by
    cases user : session.username with
    | none =>
        rw [login user]
        rfl
    | some username =>
        cases session.password <;> simp [optionalBytes, loginLength]
  rw [connectBody]
  rw [List.length_append] at logins
  simp only [List.length_append, string_bytes_length, word_bytes_length, List.length_singleton]
  omega

theorem connect_length_bound {session : Session} (formed : session.WellFormed) :
    (connectBody session).length < 268435456 := by
  have short := formed.short
  have name : session.protocol.headerlen ≤ 12 := by cases session.protocol <;> decide
  have id := short session.id (by simp [Session.texts])
  have will : willLength session.will ≤ 131074 := by
    cases set : session.will with
    | none => exact Nat.zero_le _
    | some will =>
        have topic := short will.topic (by simp [Session.texts, willTexts, set])
        have payload := short will.payload (by simp [Session.texts, willTexts, set])
        rw [willLength]
        omega
  have login : loginLength session.username session.password ≤ 131074 := by
    cases user : session.username with
    | none => exact Nat.zero_le _
    | some username =>
        cases word : session.password with
        | none =>
            have first := short username (by simp [Session.texts, loginTexts, user, word])
            rw [loginLength]
            omega
        | some password =>
            have first := short username (by simp [Session.texts, loginTexts, user, word])
            have second := short password (by simp [Session.texts, loginTexts, user, word])
            rw [loginLength]
            omega
  rw [connect_body_length formed.login]
  omega

theorem send_connect_sealed {session : Session} (formed : session.WellFormed) :
    sendConnect session = .ok (sealed 0 ⟨CONNECT, connectBody session⟩) := by
  have short := formed.short
  rcases alloc_sealed CONNECT 0 (connect_length_bound formed) with ⟨packet, alloc, whole⟩
  have wills : ∀ text ∈ willTexts session.will, text.length < 65536 := by
    intro text member
    exact short text (by simp [Session.texts, member])
  have logins : ∀ text ∈ loginTexts session.username session.password, text.length < 65536 := by
    intro text member
    exact short text (by simp [Session.texts, member])
  rw [connect_body_length formed.login] at alloc
  rw [sendConnect]
  dsimp only
  rw [alloc, ← whole]
  change Except.ok _ = Except.ok _
  rw [write_login_eq _ formed.login logins, write_will_eq _ wills,
    write_text_eq _ (short _ (by simp [Session.texts])),
    write_text_eq _ (by cases session.protocol <;> decide), write_uint16_eq, writeByte, writeByte]
  simp only [write_bytes_append, connectBody, List.append_assoc]

/-- A session goes through the packet unchanged. -/
theorem connect_read_back (session : Session) (formed : session.WellFormed) :
    ∃ packet : Frame, packet.WellFormed ∧
      sendConnect session = .ok (sealed 0 packet) ∧
      ∃ last, readConnect (delivered packet) = .ok (session, last) ∧ last.unread = [] :=
  ⟨⟨CONNECT, connectBody session⟩,
    ⟨show CONNECT ≠ 0 by decide, connect_length_bound formed⟩,
    send_connect_sealed formed, read_connect_of_body formed (delivered_ahead _)⟩

theorem connect_read_back_will : ∃ packet : Frame, packet.WellFormed ∧
    sendConnect sessionWithWill = .ok (sealed 0 packet) ∧
    ∃ last, readConnect (delivered packet) = .ok (sessionWithWill, last) ∧ last.unread = [] :=
  connect_read_back sessionWithWill ⟨by decide, by decide, by decide⟩

end ReadBack

end Gk7102.MqttConnect
