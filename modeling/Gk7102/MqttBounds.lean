import Gk7102.MqttCodec

/-!
# Whatever the peer sends

The peer need not speak the protocol. Whatever bytes come and however the socket cuts them,
a packet that reaches the handlers has as much payload as it states, and no handler reads
behind it.
-/

namespace Gk7102.MqttBounds

open ByteBlocks SocketCalls MqttPacket MqttReading MqttCodec FrameReader

set_option autoImplicit false

section Collecting

/-- `in_packet` between two calls; the command byte may be 0. -/
structure Sound (packet : InPacket) : Prop where
  counting : packet.remainingCount ≤ 0 → packet.payload = [] ∧ packet.toProcess = 0 ∧ packet.pos = 0
  stored : 0 < packet.remainingCount →
    packet.payload.length = packet.pos ∧ packet.pos + packet.toProcess = packet.remainingLength

variable {inbound : Inbound}

theorem packet_cleanup_sound : Sound packetCleanup := by
  constructor <;> simp [packetCleanup]

theorem read_command_sound (sound : Sound inbound.packet) (script : List CallOutcome) :
    Sound (readCommand inbound script).2.1.packet := by
  cases script with
  | nil => exact sound
  | cons outcome script =>
      rw [readCommand]
      split
      · split
        · exact sound
        · exact ⟨sound.counting, sound.stored⟩
      · exact sound

theorem sound_of_counting {packet : InPacket} (counting : packet.remainingCount ≤ 0)
    (idle : packet.payload = [] ∧ packet.toProcess = 0 ∧ packet.pos = 0) : Sound packet :=
  ⟨fun _ => idle, fun positive => absurd counting (Int.not_le.mpr positive)⟩

theorem read_length_loop_sound (counting : inbound.packet.remainingCount ≤ 0)
    (idle : inbound.packet.payload = [] ∧ inbound.packet.toProcess = 0 ∧ inbound.packet.pos = 0)
    (script : List CallOutcome) :
    Sound (readLengthLoop script inbound).2.1.packet ∧
      ((readLengthLoop script inbound).1 = none →
        0 < (readLengthLoop script inbound).2.1.packet.remainingCount) := by
  induction script generalizing inbound with
  | nil => exact ⟨sound_of_counting counting idle, fun goes => absurd goes (Option.some_ne_none _)⟩
  | cons outcome script induction =>
      have lower : inbound.packet.remainingCount - 1 ≤ 0 := by omega
      rw [readLengthLoop]
      cases outcome.received 1 inbound.incoming with
      | nil =>
          exact ⟨sound_of_counting counting idle, fun goes => absurd goes (Option.some_ne_none _)⟩
      | cons byte more =>
          dsimp only
          split
          next =>
              exact ⟨sound_of_counting lower idle, fun goes => absurd goes (Option.some_ne_none _)⟩
          next =>
              split
              next => exact induction lower idle
              next =>
                  have counted : (takeDigit inbound.packet byte).remainingCount < 0 := by
                    change inbound.packet.remainingCount - 1 < 0
                    omega
                  have known := length_known_stored counted idle.1 idle.2.1 idle.2.2
                  refine ⟨⟨fun none => ?_, fun _ => known.2⟩, fun _ => known.1⟩
                  exact absurd known.1 (Int.not_lt.mpr none)

theorem read_length_sound (sound : Sound inbound.packet) (script : List CallOutcome) :
    Sound (readLength inbound script).2.1.packet ∧
      ((readLength inbound script).1 = none →
        0 < (readLength inbound script).2.1.packet.remainingCount) := by
  rw [readLength]
  split
  next counting => exact read_length_loop_sound counting (sound.counting counting) script
  next known => exact ⟨sound, fun _ => Int.not_le.mp known⟩

theorem read_payload_sound (sound : Sound inbound.packet)
    (known : 0 < inbound.packet.remainingCount) (script : List CallOutcome) :
    Sound (readPayload script inbound).2.1.packet ∧
      0 < (readPayload script inbound).2.1.packet.remainingCount ∧
      ((readPayload script inbound).1 = none →
        (readPayload script inbound).2.1.packet.toProcess = 0) := by
  induction script generalizing inbound with
  | nil =>
      refine ⟨sound, known, ?_⟩
      intro goes
      rw [readPayload] at goes ⊢
      by_contra some
      rw [if_pos (Nat.pos_of_ne_zero some)] at goes
      exact Option.some_ne_none _ goes
  | cons outcome script induction =>
      rw [readPayload]
      by_cases missing : inbound.packet.toProcess > 0
      · rw [if_pos missing]
        cases got : outcome.received inbound.packet.toProcess inbound.incoming with
        | nil => exact ⟨sound, known, fun goes => absurd goes (Option.some_ne_none _)⟩
        | cons byte more =>
            have fits := received_length_le outcome inbound.packet.toProcess inbound.incoming
            have stored := sound.stored known
            rw [got] at fits
            apply induction
            · refine ⟨fun none => absurd known (Int.not_lt.mpr none), fun _ => ?_⟩
              simp only [takePayload, List.length_append]
              omega
            · exact known
      · rw [if_neg missing]
        exact ⟨sound, known, fun _ => Nat.eq_zero_of_not_pos missing⟩

theorem packet_read_sound (script : List CallOutcome) {packet : InPacket} (sound : Sound packet)
    (incoming : List Byte) :
    Sound (packetRead script packet incoming).1 ∧
      ∀ handed ∈ (packetRead script packet incoming).2.2, Complete handed := by
  have first := read_command_sound (show Sound (Inbound.mk packet incoming).packet from sound)
    script
  rw [packetRead, collect]
  rcases command : readCommand ⟨packet, incoming⟩ script with ⟨rc, inbound, later⟩
  rw [command] at first
  cases rc with
  | some rc => exact ⟨first, fun handed none => absurd none List.not_mem_nil⟩
  | none =>
      have second := read_length_sound first later
      dsimp only
      rcases length : readLength inbound later with ⟨rc, inbound', last⟩
      rw [length] at second
      cases rc with
      | some rc => exact ⟨second.1, fun handed none => absurd none List.not_mem_nil⟩
      | none =>
          have third := read_payload_sound second.1 (second.2 rfl) last
          dsimp only
          rcases payload : readPayload last inbound' with ⟨rc, inbound'', rest⟩
          rw [payload] at third
          cases rc with
          | some rc => exact ⟨third.1, fun handed none => absurd none List.not_mem_nil⟩
          | none =>
              have stored := third.1.stored third.2.1
              have done := third.2.2 rfl
              refine ⟨packet_cleanup_sound, ?_⟩
              intro handed member
              rw [List.mem_singleton.mp member]
              refine ⟨?_, Nat.zero_le _⟩
              dsimp only at done stored ⊢
              omega

theorem run_sound (ops : List (Op Byte (List CallOutcome))) :
    Sound (reads ops).state ∧ ∀ handed ∈ (reads ops).handed, Complete handed := by
  induction ops using List.reverseRecOn with
  | nil => exact ⟨packet_cleanup_sound, fun handed none => absurd none List.not_mem_nil⟩
  | append_singleton ops op induction =>
      rw [reads, StepRuns.run_append, StepRuns.run_cons, StepRuns.run_nil]
      cases op with
      | arrive bytes => exact induction
      | read script =>
          have call := packet_read_sound script induction.1 (reads ops).incoming
          refine ⟨call.1, ?_⟩
          intro handed member
          rcases List.mem_append.mp member with before | now
          · exact induction.2 handed before
          · exact call.2 handed now

end Collecting

section Handlers

/-- A reader has not read behind the payload, and its packet is one that can be read on. -/
def Careful {Field : Type} : Except Stop (Field × InPacket) → Prop
  | .ok (_, next) => Complete next
  | .error stop => stop ≠ .overread

variable {packet : InPacket}

theorem advance_one (complete : Complete packet) {byte : Byte} {rest : List Byte}
    (ahead : packet.unread = byte :: rest) : Complete (packet.advance 1) :=
  advance_complete complete (by rw [ahead, List.length_cons]; omega)

theorem read_byte_careful (complete : Complete packet) : Careful (readByte packet) := by
  rw [read_byte_eq complete]
  cases ahead : packet.unread with
  | nil => exact Stop.noConfusion
  | cons byte rest => exact advance_one complete ahead

theorem read_uint16_careful (complete : Complete packet) : Careful (readUint16 packet) := by
  rw [read_uint16_eq complete]
  match ahead : packet.unread with
  | [] => exact Stop.noConfusion
  | [_] => exact Stop.noConfusion
  | _ :: _ :: rest =>
      exact advance_complete complete (by rw [ahead, List.length_cons, List.length_cons]; omega)

theorem read_bytes_careful (complete : Complete packet) (count : Nat) :
    Careful (readBytes packet count) := by
  rw [read_bytes_eq complete]
  split
  next room => exact advance_complete complete room
  next => exact Stop.noConfusion

def Inside {Result : Type} (result : Except Stop Result) : Prop := result ≠ .error .overread

theorem inside_ok {Result : Type} (result : Result) : Inside (.ok result : Except Stop Result) := by
  intro same
  exact absurd same (by simp)

theorem inside_failed {Result : Type} (rc : MosqErr) :
    Inside (.error (.failed rc) : Except Stop Result) := by
  intro same
  exact absurd same (by simp)

theorem inside_bind {First Second : Type} {first : Except Stop First}
    {next : First → Except Stop Second} (inside : Inside first)
    (later : ∀ result, Inside (next result)) : Inside (first >>= next) := by
  cases first with
  | error stop =>
      intro same
      exact inside (by rw [Except.error.inj same])
  | ok result => exact later result

/-- What follows a careful reader starts from a packet that can be read on. -/
theorem careful_bind {First Second : Type} {first : Except Stop (First × InPacket)}
    {next : First × InPacket → Except Stop Second} (careful : Careful first)
    (later : ∀ field packet, Complete packet → Inside (next (field, packet))) :
    Inside (first >>= next) := by
  cases first with
  | error stop =>
      intro same
      exact careful (Except.error.inj same)
  | ok result => exact later result.1 result.2 careful

theorem careful_bind_reader {First Second : Type} {first : Except Stop (First × InPacket)}
    {next : First × InPacket → Except Stop (Second × InPacket)} (careful : Careful first)
    (later : ∀ field packet, Complete packet → Careful (next (field, packet))) :
    Careful (first >>= next) := by
  cases first with
  | error stop => exact careful
  | ok result => exact later result.1 result.2 careful

theorem read_string_careful (complete : Complete packet) : Careful (readString packet) :=
  careful_bind_reader (read_uint16_careful complete) fun length _ complete =>
    read_bytes_careful complete length.toNat

theorem read_publish_mid_careful (qos : Nat) (complete : Complete packet) :
    Careful (readPublishMid qos packet) := by
  rw [readPublishMid]
  split
  · exact read_uint16_careful complete
  · exact complete

theorem read_publish_payload_careful (complete : Complete packet) :
    Careful (readPublishPayload packet) := by
  rw [readPublishPayload]
  split
  · exact read_bytes_careful complete _
  · exact complete

theorem parse_publish_inside (complete : Complete packet) : Inside (parsePublish packet) := by
  apply careful_bind (read_string_careful complete)
  intro topic packet complete
  dsimp only
  split
  · exact inside_failed .protocol
  · apply careful_bind (read_publish_mid_careful _ complete)
    intro mid packet complete
    apply careful_bind (read_publish_payload_careful complete)
    intro payload packet complete
    exact inside_ok _

theorem parse_mid_inside (complete : Complete packet) : Inside (parseMid packet) :=
  careful_bind (read_uint16_careful complete) fun mid _ _ => inside_ok mid

theorem read_granted_inside (left : Nat) (complete : Complete packet) :
    Inside (readGranted left packet) := by
  induction left generalizing packet with
  | zero => exact inside_ok []
  | succ left induction =>
      apply careful_bind (read_byte_careful complete)
      intro qos packet complete
      exact inside_bind (induction complete) fun rest => inside_ok (qos :: rest)

theorem parse_suback_inside (complete : Complete packet) : Inside (parseSuback packet) := by
  apply careful_bind (read_uint16_careful complete)
  intro mid packet complete
  exact inside_bind (read_granted_inside _ complete) fun granted => inside_ok (mid, granted)

theorem parse_connack_inside (complete : Complete packet) : Inside (parseConnack packet) := by
  apply careful_bind (read_byte_careful complete)
  intro reserved packet complete
  exact careful_bind (read_byte_careful complete) fun result _ _ => inside_ok result

/-- Whatever bytes come in and however the socket cuts them: no handler reads behind the
payload of a packet that it gets. -/
theorem handlers_stay_inside (ops : List (Op Byte (List CallOutcome))) (packet : InPacket)
    (handed : packet ∈ (reads ops).handed) :
    Inside (parsePublish packet) ∧ Inside (parseMid packet) ∧ Inside (parseSuback packet) ∧
      Inside (parseConnack packet) :=
  have complete := (run_sound ops).2 packet handed
  ⟨parse_publish_inside complete, parse_mid_inside complete, parse_suback_inside complete,
    parse_connack_inside complete⟩

/-- A PUBLISH whose topic claims more than there is. -/
theorem handlers_stay_inside_short_topic :
    let packet : InPacket := ⟨0x30, 1, 128, 3, [0x00, 0x09, 0x61], 0, 0⟩
    Inside (parsePublish packet) ∧ Inside (parseMid packet) ∧ Inside (parseSuback packet) ∧
      Inside (parseConnack packet) :=
  handlers_stay_inside
    [.arrive [0x30, 0x03, 0x00, 0x09, 0x61], .read [.moved 0, .moved 0, .moved 2]] _ (by decide)

end Handlers

end Gk7102.MqttBounds
