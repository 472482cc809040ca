import Gk7102.FrameReader
import Gk7102.MqttPacket
import Gk7102.SocketCalls

/-!
# Reading packets from the socket

`_mosquitto_packet_read` is called whenever there may be something to read. It goes on
where the last call stopped: with the command byte, inside the remaining length or inside
the payload. A packet whose last byte has been read goes to the handlers in the same call.
-/

namespace Gk7102.MqttReading

open ByteBlocks Base128Coding SocketCalls MqttPacket FrameReader

set_option autoImplicit false

def EAGAIN : Nat := 11
def ECONNRESET : Nat := 104

/-- `in_packet`, and the bytes that the socket holds. -/
structure Inbound where
  packet : InPacket
  incoming : List Byte
deriving DecidableEq, Repr

/-- What a `read` that stored nothing makes of the call, for a given answer to the end of
the stream. -/
def stopped (atEnd : MosqErr) : CallOutcome → MosqErr
  | .moved _ => atEnd
  | .failed errno =>
      if errno = EAGAIN then .success
      else if errno = ECONNRESET then .connLost
      else .errno

/-- A part of the call: the value it returns early with, or none. A script that is used up
stands for a socket that has no more to give for now. -/
abbrev Part := Option MosqErr × Inbound × List CallOutcome

def readCommand (inbound : Inbound) : List CallOutcome → Part
  | [] => (if inbound.packet.command = 0 then some .success else none, inbound, [])
  | outcome :: script =>
      if inbound.packet.command = 0 then
        match outcome.received 1 inbound.incoming with
        | [] => (some (stopped .connLost outcome), inbound, script)
        | byte :: _ =>
            (none, ⟨{ inbound.packet with command := byte },
              outcome.remaining 1 inbound.incoming⟩, script)
      else (none, inbound, outcome :: script)

def takeDigit (packet : InPacket) (byte : Byte) : InPacket :=
  { packet with
    remainingCount := packet.remainingCount - 1
    remainingLength := packet.remainingLength + digit byte * packet.remainingMult
    remainingMult := packet.remainingMult * 128 }

/-- The remaining length is known: its count turns positive, and the payload is allocated. -/
def lengthKnown (packet : InPacket) : InPacket :=
  let packet := { packet with remainingCount := packet.remainingCount * -1 }
  if packet.remainingLength > 0 then
    { packet with payload := [], toProcess := packet.remainingLength }
  else packet

def readLengthLoop : List CallOutcome → Inbound → Part
  | [], inbound => (some .success, inbound, [])
  | outcome :: script, inbound =>
      match outcome.received 1 inbound.incoming with
      | [] => (some (stopped .connLost outcome), inbound, script)
      | byte :: _ =>
          let incoming := outcome.remaining 1 inbound.incoming
          if inbound.packet.remainingCount - 1 < -4 then
            -- at most four bytes by the protocol
            (some .protocol,
              ⟨{ inbound.packet with remainingCount := inbound.packet.remainingCount - 1 },
                incoming⟩, script)
          else if continues byte then
            readLengthLoop script ⟨takeDigit inbound.packet byte, incoming⟩
          else (none, ⟨lengthKnown (takeDigit inbound.packet byte), incoming⟩, script)

def readLength (inbound : Inbound) (script : List CallOutcome) : Part :=
  if inbound.packet.remainingCount ≤ 0 then readLengthLoop script inbound
  else (none, inbound, script)

def takePayload (packet : InPacket) (bytes : List Byte) : InPacket :=
  { packet with
    payload := packet.payload ++ bytes
    toProcess := packet.toProcess - bytes.length
    pos := packet.pos + bytes.length }

def readPayload : List CallOutcome → Inbound → Part
  | [], inbound => (if inbound.packet.toProcess > 0 then some .success else none, inbound, [])
  | outcome :: script, inbound =>
      if inbound.packet.toProcess > 0 then
        match outcome.received inbound.packet.toProcess inbound.incoming with
        -- `errno` is 0 at the end of the stream
        | [] => (some (stopped .errno outcome), inbound, script)
        | byte :: more =>
            readPayload script ⟨takePayload inbound.packet (byte :: more),
              outcome.remaining inbound.packet.toProcess inbound.incoming⟩
      else (none, inbound, outcome :: script)

/-- `_mosquitto_packet_read` up to the handlers: what it returns early with, or the packet
that it hands over. -/
inductive Collected where
  | stopped (rc : MosqErr) (inbound : Inbound)
  | ready (packet : InPacket) (incoming : List Byte)
deriving DecidableEq, Repr

def collect (script : List CallOutcome) (inbound : Inbound) : Collected :=
  match readCommand inbound script with
  | (some rc, inbound, _) => .stopped rc inbound
  | (none, inbound, script) =>
      match readLength inbound script with
      | (some rc, inbound, _) => .stopped rc inbound
      | (none, inbound, script) =>
          match readPayload script inbound with
          | (some rc, inbound, _) => .stopped rc inbound
          | (none, inbound, _) => .ready { inbound.packet with pos := 0 } inbound.incoming

/-- What a call leaves of `in_packet` and of the bytes in the socket, and what it handed to
the handlers. A packet that was handed over is cleaned up behind them. -/
def packetRead (script : List CallOutcome) (packet : InPacket) (incoming : List Byte) :
    InPacket × List Byte × List InPacket :=
  match collect script ⟨packet, incoming⟩ with
  | .stopped _ inbound => (inbound.packet, inbound.incoming, [])
  | .ready packet incoming => (packetCleanup, incoming, [packet])

section Feed

def settled (packet : InPacket) : InPacket × List InPacket :=
  if packet.toProcess > 0 then (packet, []) else (packetCleanup, [{ packet with pos := 0 }])

theorem settled_done {packet : InPacket} (done : packet.toProcess = 0) :
    settled packet = (packetCleanup, [{ packet with pos := 0 }]) := by
  rw [settled, if_neg (by omega)]

/-- What one byte does to `in_packet`, whatever call reads it. -/
def feed (packet : InPacket) (byte : Byte) : InPacket × List InPacket :=
  if packet.command = 0 then ({ packet with command := byte }, [])
  else if packet.remainingCount ≤ 0 then
    if packet.remainingCount - 1 < -4 then
      ({ packet with remainingCount := packet.remainingCount - 1 }, [])
    else if continues byte then (takeDigit packet byte, [])
    else settled (lengthKnown (takeDigit packet byte))
  else settled (takePayload packet [byte])

/-- A command byte 0 looks like no command at all to the next call. -/
def Legal (packet : InPacket) (byte : Byte) : Prop := packet.command = 0 → byte ≠ 0

/-- `in_packet` between two bytes. -/
structure Between (packet : InPacket) : Prop where
  fresh : packet.command = 0 → packet = packetCleanup
  counting : packet.remainingCount ≤ 0 → packet.payload = [] ∧ packet.toProcess = 0 ∧ packet.pos = 0
  waiting : 0 < packet.remainingCount → 0 < packet.toProcess
  stored : 0 < packet.remainingCount →
    packet.payload.length = packet.pos ∧ packet.pos + packet.toProcess = packet.remainingLength

theorem packet_cleanup_between : Between packetCleanup := by
  constructor <;> simp [packetCleanup]

variable {packet : InPacket}

theorem length_known_stored (counts : packet.remainingCount < 0) (empty : packet.payload = [])
    (idle : packet.toProcess = 0) (front : packet.pos = 0) :
    0 < (lengthKnown packet).remainingCount ∧
      (lengthKnown packet).payload.length = (lengthKnown packet).pos ∧
      (lengthKnown packet).pos + (lengthKnown packet).toProcess =
        (lengthKnown packet).remainingLength := by
  have positive : 0 < packet.remainingCount * -1 := by omega
  rw [lengthKnown]
  split
  next some => simp [counts, front]
  next none =>
      simp only [gt_iff_lt, Nat.not_lt, Nat.le_zero] at none
      simp [counts, empty, front, idle, none]

theorem settled_between (command : packet.command ≠ 0) (known : 0 < packet.remainingCount)
    (stored : packet.payload.length = packet.pos ∧
      packet.pos + packet.toProcess = packet.remainingLength) : Between (settled packet).1 := by
  rw [settled]
  split
  next more =>
      constructor
      · intro none
        exact absurd none command
      · intro counting
        exact absurd known (Int.not_lt.mpr counting)
      · intro _
        exact more
      · intro _
        exact stored
  next done => exact packet_cleanup_between

theorem length_known_command (packet : InPacket) :
    (lengthKnown packet).command = packet.command := by
  rw [lengthKnown]
  split <;> rfl

theorem counting_between (command : packet.command ≠ 0) (counting : packet.remainingCount ≤ 0)
    (idle : packet.payload = [] ∧ packet.toProcess = 0 ∧ packet.pos = 0) : Between packet := by
  constructor
  · intro none
    exact absurd none command
  · intro _
    exact idle
  · intro positive
    exact absurd counting (Int.not_le.mpr positive)
  · intro positive
    exact absurd counting (Int.not_le.mpr positive)

theorem feed_between (packet : InPacket) (byte : Byte) (between : Between packet)
    (legal : Legal packet byte) : Between (feed packet byte).1 := by
  rw [feed]
  split
  next none =>
      rw [between.fresh none]
      exact counting_between (legal none) (Int.le_refl 0) ⟨rfl, rfl, rfl⟩
  next command =>
      split
      next counting =>
          have idle := between.counting counting
          have next : packet.remainingCount - 1 ≤ 0 := by omega
          split
          next beyond => exact counting_between command next idle
          next within =>
              split
              next more => exact counting_between command next idle
              next last =>
                  have counted : (takeDigit packet byte).remainingCount < 0 := by
                    change packet.remainingCount - 1 < 0
                    omega
                  have known := length_known_stored counted idle.1 idle.2.1 idle.2.2
                  apply settled_between
                  · rw [length_known_command]
                    exact command
                  · exact known.1
                  · exact known.2
      next known =>
          have positive : 0 < packet.remainingCount := by omega
          have more := between.waiting positive
          have stored := between.stored positive
          apply settled_between
          · exact command
          · exact positive
          · simp only [takePayload, List.length_append, List.length_singleton]
            omega

end Feed

section Calls

variable {packet : InPacket} {incoming : List Byte}

theorem feed_one (command : packet.command ≠ 0) (known : 0 < packet.remainingCount) (byte : Byte) :
    feed packet byte = settled (takePayload packet [byte]) := by
  rw [feed, if_neg command, if_neg (by omega)]

theorem feed_payload (command : packet.command ≠ 0) (known : 0 < packet.remainingCount)
    {byte : Byte} {more : List Byte} (fits : more.length < packet.toProcess) :
    feedAll feed packet (byte :: more) = settled (takePayload packet (byte :: more)) := by
  induction more generalizing packet byte with
  | nil => simp only [feedAll, feed_one command known, List.append_nil]
  | cons next more induction =>
      rw [List.length_cons] at fits
      have waits : settled (takePayload packet [byte]) = (takePayload packet [byte], []) := by
        rw [settled, if_pos]
        simp only [takePayload, List.length_singleton, gt_iff_lt]
        omega
      have room : more.length < (takePayload packet [byte]).toProcess := by
        simp only [takePayload, List.length_singleton]
        omega
      have later : feedAll feed (takePayload packet [byte]) (next :: more) =
          settled (takePayload (takePayload packet [byte]) (next :: more)) :=
        induction (show (takePayload packet [byte]).command ≠ 0 from command)
          (show 0 < (takePayload packet [byte]).remainingCount from known) room
      have joined : takePayload (takePayload packet [byte]) (next :: more) =
          takePayload packet (byte :: next :: more) := by
        simp only [takePayload, List.append_assoc, List.cons_append, List.nil_append,
          List.length_cons, List.length_nil, InPacket.mk.injEq, true_and]
        omega
      rw [joined] at later
      rw [feedAll, feed_one command known, waits]
      simp only [later, List.nil_append]

theorem received_one {outcome : CallOutcome} {byte : Byte} {more : List Byte}
    (got : outcome.received 1 incoming = byte :: more) :
    incoming = byte :: outcome.remaining 1 incoming := by
  have short := received_length_le outcome 1 incoming
  have whole := received_append_remaining outcome 1 incoming
  rw [got, List.length_cons] at short
  have alone : more = [] := List.eq_nil_of_length_eq_zero (by omega)
  rw [got, alone] at whole
  exact whole.symm

theorem read_command_takes (packet : InPacket) (incoming : List Byte)
    (script : List CallOutcome) :
    ∃ taken, incoming = taken ++ (readCommand ⟨packet, incoming⟩ script).2.1.incoming ∧
      feedAll feed packet taken = ((readCommand ⟨packet, incoming⟩ script).2.1.packet, []) := by
  cases script with
  | nil => exact ⟨[], rfl, rfl⟩
  | cons outcome script =>
      rw [readCommand]
      by_cases none : packet.command = 0
      · rw [if_pos none]
        cases got : outcome.received 1 incoming with
        | nil => exact ⟨[], rfl, rfl⟩
        | cons byte more =>
            refine ⟨[byte], received_one got, ?_⟩
            simp only [feedAll, feed, if_pos none, List.append_nil]
      · rw [if_neg none]
        exact ⟨[], rfl, rfl⟩

theorem read_command_command (allowed : Allowed feed Legal packet incoming)
    (script : List CallOutcome) (goes : (readCommand ⟨packet, incoming⟩ script).1 = none) :
    (readCommand ⟨packet, incoming⟩ script).2.1.packet.command ≠ 0 := by
  cases script with
  | nil =>
      intro zero
      rw [readCommand] at goes zero
      rw [if_pos zero] at goes
      exact Option.some_ne_none _ goes
  | cons outcome script =>
      rw [readCommand] at goes ⊢
      by_cases none : packet.command = 0
      · rw [if_pos none] at goes ⊢
        cases got : outcome.received 1 incoming with
        | nil =>
            rw [got] at goes
            exact absurd goes (Option.some_ne_none _)
        | cons byte more =>
            rw [received_one got] at allowed
            exact allowed.1 none
      · rw [if_neg none]
        exact none

theorem length_known_positive (packet : InPacket) (counted : packet.remainingCount < 0) :
    0 < (lengthKnown packet).remainingCount := by
  have positive : 0 < packet.remainingCount * -1 := by omega
  rw [lengthKnown]
  split <;> exact positive

/-- What the parts of a call behind the command byte took, for a part that ended in
`result`: an early return leaves `in_packet` between two bytes, the other way out goes on
with a length that is known. -/
def TakesOn (packet : InPacket) (incoming : List Byte) (result : Part) : Prop :=
  ∃ taken, incoming = taken ++ result.2.1.incoming ∧
    match result.1 with
    | some _ => feedAll feed packet taken = (result.2.1.packet, [])
    | none => feedAll feed packet taken = settled result.2.1.packet ∧
        result.2.1.packet.command ≠ 0 ∧ 0 < result.2.1.packet.remainingCount

theorem read_length_loop_takes (command : packet.command ≠ 0)
    (counting : packet.remainingCount ≤ 0) (script : List CallOutcome) :
    TakesOn packet incoming (readLengthLoop script ⟨packet, incoming⟩) := by
  induction script generalizing packet incoming with
  | nil => exact ⟨[], rfl, rfl⟩
  | cons outcome script induction =>
      rw [readLengthLoop]
      cases got : outcome.received 1 incoming with
      | nil => exact ⟨[], rfl, rfl⟩
      | cons byte more =>
          have first := received_one got
          dsimp only
          by_cases beyond : packet.remainingCount - 1 < -4
          · rw [if_pos beyond]
            refine ⟨[byte], first, ?_⟩
            simp only [feedAll, feed, if_neg command, if_pos counting, if_pos beyond,
              List.append_nil]
          · rw [if_neg beyond]
            by_cases another : continues byte = true
            · rw [if_pos another]
              have here : feed packet byte = (takeDigit packet byte, []) := by
                rw [feed, if_neg command, if_pos counting, if_neg beyond, if_pos another]
              have next : (takeDigit packet byte).remainingCount ≤ 0 := by
                change packet.remainingCount - 1 ≤ 0
                omega
              have kept : (takeDigit packet byte).command ≠ 0 := command
              rcases induction kept next with ⟨taken, rest, fed⟩
              refine ⟨byte :: taken, ?_, ?_⟩
              · rw [List.cons_append, ← rest]
                exact first
              · simp only [feedAll, here, List.nil_append]
                exact fed
            · rw [if_neg another]
              have counted : (takeDigit packet byte).remainingCount < 0 := by
                change packet.remainingCount - 1 < 0
                omega
              refine ⟨[byte], first, ?_, ?_, length_known_positive _ counted⟩
              · simp only [feedAll, feed, if_neg command, if_pos counting, if_neg beyond,
                  if_neg another, List.append_nil]
              · rw [length_known_command]
                exact command

theorem read_length_takes (incoming : List Byte) (between : Between packet)
    (command : packet.command ≠ 0) (script : List CallOutcome) :
    TakesOn packet incoming (readLength ⟨packet, incoming⟩ script) := by
  rw [readLength]
  by_cases counting : packet.remainingCount ≤ 0
  · rw [if_pos counting]
    exact read_length_loop_takes command counting script
  · have known : 0 < packet.remainingCount := by omega
    rw [if_neg counting]
    refine ⟨[], rfl, ?_, command, known⟩
    rw [settled, if_pos (between.waiting known)]
    rfl

theorem read_payload_idle {inbound : Inbound} (script : List CallOutcome)
    (idle : inbound.packet.toProcess = 0) :
    readPayload script inbound = (none, inbound, script) := by
  cases script with
  | nil => simp only [readPayload, idle, gt_iff_lt, Nat.lt_irrefl, if_false]
  | cons outcome script => simp only [readPayload, idle, gt_iff_lt, Nat.lt_irrefl, if_false]

theorem read_payload_takes (incoming : List Byte) (command : packet.command ≠ 0)
    (known : 0 < packet.remainingCount) (missing : 0 < packet.toProcess)
    (script : List CallOutcome) :
    TakesOn packet incoming (readPayload script ⟨packet, incoming⟩) ∧
      ((readPayload script ⟨packet, incoming⟩).1 = none →
        (readPayload script ⟨packet, incoming⟩).2.1.packet.toProcess = 0) := by
  induction script generalizing packet incoming with
  | nil =>
      rw [readPayload, if_pos missing]
      exact ⟨⟨[], rfl, rfl⟩, fun goes => absurd goes (Option.some_ne_none _)⟩
  | cons outcome script induction =>
      rw [readPayload, if_pos missing]
      cases got : outcome.received packet.toProcess incoming with
      | nil => exact ⟨⟨[], rfl, rfl⟩, fun goes => absurd goes (Option.some_ne_none _)⟩
      | cons byte more =>
          have fits := received_length_le outcome packet.toProcess incoming
          have whole := received_append_remaining outcome packet.toProcess incoming
          rw [got, List.length_cons] at fits
          rw [got] at whole
          have fed : feedAll feed packet (byte :: more) =
              settled (takePayload packet (byte :: more)) :=
            feed_payload command known (Nat.lt_of_succ_le fits)
          have kept : (takePayload packet (byte :: more)).command ≠ 0 := command
          have known_still : 0 < (takePayload packet (byte :: more)).remainingCount := known
          dsimp only
          by_cases rest : (takePayload packet (byte :: more)).toProcess = 0
          · rw [read_payload_idle script rest]
            exact ⟨⟨byte :: more, whole.symm, fed, command, known⟩, fun _ => rest⟩
          · have missing_still := Nat.pos_of_ne_zero rest
            rw [settled, if_pos missing_still] at fed
            rcases induction _ kept known_still missing_still with
              ⟨⟨taken, behind, later⟩, last⟩
            refine ⟨⟨byte :: more ++ taken, ?_, ?_⟩, last⟩
            · rw [List.append_assoc, ← behind]
              exact whole.symm
            · rw [feed_all_append, fed]
              exact later

theorem packet_read_takes : Takes packetRead feed Legal Between := by
  intro script packet incoming between allowed
  rcases read_command_takes packet incoming script with ⟨first, split, fed⟩
  have goes := read_command_command allowed script
  rw [packetRead, collect]
  rcases command : readCommand ⟨packet, incoming⟩ script with ⟨rc, inbound, later⟩
  rw [command] at split fed goes
  cases rc with
  | some rc => exact ⟨first, split, fed⟩
  | none =>
      have front := (allowed_append packet first inbound.incoming).mp (split ▸ allowed)
      have held := invariant_of_allowed feed_between between front.1
      rw [fed] at held
      have lengths := read_length_takes inbound.incoming held (goes rfl) later
      dsimp only
      rcases known : readLength inbound later with ⟨rc, inbound', last⟩
      rw [known] at lengths
      rcases lengths with ⟨second, split', fed'⟩
      have joined : feedAll feed packet (first ++ second) = feedAll feed inbound.packet second := by
        rw [feed_all_append, fed, List.nil_append]
      have both : incoming = first ++ second ++ inbound'.incoming := by
        rw [List.append_assoc, ← split']
        exact split
      cases rc with
      | some rc => exact ⟨first ++ second, both, joined.trans fed'⟩
      | none =>
          rcases fed' with ⟨fed', kept, positive⟩
          rw [fed'] at joined
          dsimp only
          by_cases missing : 0 < inbound'.packet.toProcess
          · have payload := read_payload_takes inbound'.incoming kept positive missing last
            rcases body : readPayload last inbound' with ⟨rc, inbound'', rest⟩
            rw [body] at payload
            rcases payload with ⟨⟨third, split'', fed''⟩, whole⟩
            rw [settled, if_pos missing] at joined
            have all : feedAll feed packet (first ++ second ++ third) =
                feedAll feed inbound'.packet third := by
              rw [feed_all_append, joined, List.nil_append]
            have every : incoming = first ++ second ++ third ++ inbound''.incoming := by
              rw [List.append_assoc, ← split'']
              exact both
            cases rc with
            | some rc => exact ⟨first ++ second ++ third, every, all.trans fed''⟩
            | none =>
                rw [fed''.1, settled_done (whole rfl)] at all
                exact ⟨first ++ second ++ third, every, all⟩
          · have idle : inbound'.packet.toProcess = 0 := by omega
            rw [settled_done idle] at joined
            rw [read_payload_idle last idle]
            exact ⟨first ++ second, both, joined⟩

end Calls

section Frames

def announced (packet : Frame) : InPacket :=
  let digits := encode 5 packet.body.length
  ⟨packet.command, digits.length, 128 ^ digits.length, packet.body.length, [],
    packet.body.length, 0⟩

/-- `in_packet` as the handlers get it. -/
def delivered (packet : Frame) : InPacket :=
  { announced packet with payload := packet.body, toProcess := 0 }

def digitsTaken (command : Byte) (digits : List Byte) : InPacket :=
  ⟨command, -digits.length, 128 ^ digits.length, value digits, [], 0, 0⟩

variable {command : Byte}

theorem take_digit_taken (digits : List Byte) (byte : Byte) :
    takeDigit (digitsTaken command digits) byte = digitsTaken command (digits ++ [byte]) := by
  simp only [takeDigit, digitsTaken, value_snoc, List.length_append, List.length_singleton,
    pow_succ, InPacket.mk.injEq, true_and, and_true]
  omega

theorem feed_digit (kept : command ≠ 0) {before : List Byte} (room : before.length < 4)
    (byte : Byte) :
    feed (digitsTaken command before) byte =
      if continues byte then (digitsTaken command (before ++ [byte]), [])
      else settled (lengthKnown (digitsTaken command (before ++ [byte]))) := by
  have named : (digitsTaken command before).command ≠ 0 := kept
  have counting : (digitsTaken command before).remainingCount ≤ 0 := by
    simp only [digitsTaken]
    omega
  have within : ¬ (digitsTaken command before).remainingCount - 1 < -4 := by
    simp only [digitsTaken]
    omega
  rw [feed, if_neg named, if_pos counting, if_neg within, take_digit_taken]

theorem feed_digits (kept : command ≠ 0) {before digits : List Byte}
    (all : ∀ byte ∈ digits, continues byte = true) (room : before.length + digits.length ≤ 4) :
    feedAll feed (digitsTaken command before) digits =
        (digitsTaken command (before ++ digits), []) ∧
      Allowed feed Legal (digitsTaken command before) digits := by
  induction digits generalizing before with
  | nil => exact ⟨by rw [List.append_nil]; rfl, trivial⟩
  | cons byte digits induction =>
      rw [List.forall_mem_cons] at all
      rw [List.length_cons] at room
      have here := feed_digit kept (show before.length < 4 by omega) byte
      rw [if_pos all.1] at here
      have more : (before ++ [byte]).length + digits.length ≤ 4 := by
        rw [List.length_append, List.length_singleton]
        omega
      have later := induction all.2 more
      rw [List.append_assoc, List.singleton_append] at later
      constructor
      · rw [feedAll, here]
        simp only [later.1, List.nil_append]
      · exact ⟨fun none => absurd none kept, by rw [here]; exact later.2⟩

theorem allowed_payload {packet : InPacket} (kept : packet.command ≠ 0)
    (known : 0 < packet.remainingCount) {bytes : List Byte}
    (fits : bytes.length ≤ packet.toProcess) : Allowed feed Legal packet bytes := by
  induction bytes generalizing packet with
  | nil => trivial
  | cons byte bytes induction =>
      rw [List.length_cons] at fits
      have missing : (takePayload packet [byte]).toProcess = packet.toProcess - 1 := rfl
      refine ⟨fun none => absurd none kept, ?_⟩
      rw [feed_one kept known]
      cases bytes with
      | nil => trivial
      | cons next bytes =>
          rw [List.length_cons] at fits
          rw [settled, if_pos (show (takePayload packet [byte]).toProcess > 0 by omega)]
          apply induction
          · exact kept
          · exact known
          · rw [missing, List.length_cons]
            omega

theorem length_known_taken (digits : List Byte) :
    lengthKnown (digitsTaken command digits) =
      ⟨command, digits.length, 128 ^ digits.length, value digits, [], value digits, 0⟩ := by
  rw [lengthKnown]
  by_cases some : value digits > 0
  · simp [digitsTaken, some]
  · have zero : value digits = 0 := by omega
    simp [digitsTaken, zero]

/-- Behind the remaining length exactly the missing bytes make the packet whole. -/
theorem feed_body (packet : InPacket) (kept : packet.command ≠ 0)
    (known : 0 < packet.remainingCount) {body : List Byte}
    (missing : body.length = packet.toProcess) :
    feedAll feed (settled packet).1 body =
        (packetCleanup, if body = [] then [] else [{ takePayload packet body with pos := 0 }]) ∧
      (settled packet).2 = (if body = [] then [{ packet with pos := 0 }] else []) ∧
      Allowed feed Legal (settled packet).1 body := by
  cases body with
  | nil =>
      rw [settled_done missing.symm]
      exact ⟨rfl, rfl, trivial⟩
  | cons byte more =>
      rw [List.length_cons] at missing
      have all : (takePayload packet (byte :: more)).toProcess = 0 := by
        simp only [takePayload, List.length_cons]
        omega
      rw [settled, if_pos (show packet.toProcess > 0 by omega)]
      refine ⟨?_, rfl, allowed_payload kept known (Nat.le_of_eq missing)⟩
      rw [feed_payload kept known (by omega), settled_done all]
      rfl

theorem feed_frame {packet : Frame} (wellFormed : packet.WellFormed) :
    feedAll feed packetCleanup packet.bytes = (packetCleanup, [delivered packet]) ∧
      Allowed feed Legal packetCleanup packet.bytes := by
  have kept := wellFormed.command
  have small : packet.body.length < 128 ^ 4 := by norm_num; exact wellFormed.fits
  have short : (encode 5 packet.body.length).length ≤ 4 :=
    (encode_length_le_iff 3 packet.body.length).mpr small
  have number : value (encode 5 packet.body.length) = packet.body.length :=
    value_encode (Nat.lt_trans small (by decide))
  rcases encode_shape (show 0 < 5 by decide) (Nat.lt_trans small (by decide)) with
    ⟨front, last, shape, all, ends⟩
  have count : front.length + 1 ≤ 4 := by
    rw [shape, List.length_append, List.length_singleton] at short
    exact short
  have digits := feed_digits kept all (show ([] : List Byte).length + front.length ≤ 4 by
    rw [List.length_nil]; omega)
  have final := feed_digit kept (show front.length < 4 by omega) last
  rw [List.nil_append] at digits
  rw [if_neg (by rw [ends]; decide), ← shape, length_known_taken, number,
    ← announced] at final
  have known : 0 < (announced packet).remainingCount := by
    simp only [announced, shape, List.length_append, List.length_singleton]
    omega
  have body := feed_body (announced packet) kept known rfl
  have bytes : packet.bytes = packet.command :: (front ++ (last :: packet.body)) := by
    rw [Frame.bytes, frame, shape, List.cons_append, List.append_assoc, List.singleton_append]
  have start : feed packetCleanup packet.command = (digitsTaken packet.command [], []) := rfl
  rw [bytes]
  constructor
  · rw [feedAll, start]
    simp only [feed_all_append, digits.1, feedAll, final, body.1, List.nil_append]
    rw [body.2.1, delivered]
    by_cases empty : packet.body = []
    · rw [if_pos empty, if_pos empty, announced]
      simp only [empty, List.length_nil, List.append_nil]
    · rw [if_neg empty, if_neg empty, takePayload]
      simp only [announced, Nat.sub_self, List.nil_append]
  · refine ⟨fun _ => kept, ?_⟩
    rw [start, allowed_append, digits.1]
    refine ⟨digits.2, fun none => absurd none kept, ?_⟩
    rw [final]
    exact body.2.2

section Runs

variable {packets : List Frame} {ops : List (Op Byte (List CallOutcome))}

abbrev reads (ops : List (Op Byte (List CallOutcome))) : Buffered InPacket Byte InPacket :=
  StepRuns.run (step packetRead) ⟨packetCleanup, [], []⟩ ops

theorem reads_take (wellFormed : ∀ packet ∈ packets, packet.WellFormed)
    (stream : arrived ops <+: packets.flatMap Frame.bytes) :
    ∃ taken, arrived ops = taken ++ (reads ops).incoming ∧
      feedAll feed packetCleanup taken = ((reads ops).state, (reads ops).handed) := by
  have allowed : Allowed feed Legal packetCleanup (packets.flatMap Frame.bytes) :=
    allowed_codes (fun packet member => (feed_frame (wellFormed packet member)).1)
      fun packet member => (feed_frame (wellFormed packet member)).2
  rcases stream with ⟨rest, joined⟩
  rw [← joined, allowed_append] at allowed
  exact run_takes packet_read_takes feed_between packet_cleanup_between ops allowed.1

theorem handed_starts (wellFormed : ∀ packet ∈ packets, packet.WellFormed)
    (stream : arrived ops <+: packets.flatMap Frame.bytes) :
    (reads ops).handed <+: packets.map delivered := by
  rcases reads_take wellFormed stream with ⟨taken, split, fed⟩
  have starts : taken <+: packets.flatMap Frame.bytes :=
    (split ▸ List.prefix_append taken (reads ops).incoming).trans stream
  have handed := handed_prefix_of_codes
    (fun packet member => (feed_frame (wellFormed packet member)).1) starts
  rw [fed] at handed
  exact handed

theorem handed_covers (wellFormed : ∀ packet ∈ packets, packet.WellFormed)
    (stream : arrived ops <+: packets.flatMap Frame.bytes) {first : List Frame}
    (begins : first <+: packets)
    (enough : (first.flatMap Frame.bytes).length + (reads ops).incoming.length ≤
      (arrived ops).length) : first.map delivered <+: (reads ops).handed := by
  rcases reads_take wellFormed stream with ⟨taken, split, fed⟩
  rcases begins with ⟨later, same⟩
  have starts : taken <+: packets.flatMap Frame.bytes :=
    (split ▸ List.prefix_append taken (reads ops).incoming).trans stream
  have front : first.flatMap Frame.bytes <+: packets.flatMap Frame.bytes := by
    rw [← same, List.flatMap_append]
    exact List.prefix_append _ _
  rw [split, List.length_append, Nat.add_le_add_iff_right] at enough
  have ours : ∀ packet ∈ first, feedAll feed packetCleanup packet.bytes =
      (packetCleanup, [delivered packet]) :=
    fun packet member => (feed_frame (wellFormed packet
      (same ▸ List.mem_append_left later member))).1
  have delivered := handed_of_codes_taken ours
    (List.prefix_of_prefix_length_le front starts enough)
  rw [fed] at delivered
  exact delivered

/-- Whatever the socket does: the packets that the handlers get are the first ones that the
peer sent, each of them once and in their order, and a packet whose bytes have been read
has been handed over. -/
theorem packets_delivered_in_order (packets : List Frame)
    (ops : List (Op Byte (List CallOutcome)))
    (wellFormed : ∀ packet ∈ packets, packet.WellFormed)
    (stream : arrived ops <+: packets.flatMap Frame.bytes) :
    (reads ops).handed <+: packets.map delivered ∧
      ∀ first, first <+: packets →
        (first.flatMap Frame.bytes).length + (reads ops).incoming.length ≤ (arrived ops).length →
        first.map delivered <+: (reads ops).handed := by
  refine ⟨handed_starts wellFormed stream, ?_⟩
  intro first begins enough
  exact handed_covers wellFormed stream begins enough

/-- A PINGRESP and a PUBACK that come in three pieces. -/
theorem packets_delivered_in_order_pieces :
    let packets : List Frame := [⟨0xD0, []⟩, ⟨0x40, [0x00, 0x07]⟩]
    let ops : List (Op Byte (List CallOutcome)) :=
      [.arrive [0xD0], .read [.moved 1], .arrive [0x00, 0x40, 0x02], .read [.moved 1],
        .read [.moved 1, .moved 1], .arrive [0x00, 0x07], .read [.moved 2]]
    (reads ops).handed <+: packets.map delivered ∧
      ∀ first, first <+: packets →
        (first.flatMap Frame.bytes).length + (reads ops).incoming.length ≤ (arrived ops).length →
        first.map delivered <+: (reads ops).handed := by
  apply packets_delivered_in_order _ _ _ (by decide)
  intro packet member
  rcases List.mem_pair.mp member with rfl | rfl
  · exact ⟨by decide, by decide⟩
  · exact ⟨by decide, by decide⟩

end Runs

end Frames

end Gk7102.MqttReading
