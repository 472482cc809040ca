import Gk7102.MqttTokens

/-!
# From one client to the other

What one client has queued and the other has not handled is in transit: in the queue, in
the network or half read. The bytes on the way say what the next packet is.
-/

namespace Gk7102.MqttWire

open ByteBlocks SocketCalls MqttPacket MqttReading MqttSending MqttClient MqttTokens FrameReader

set_option autoImplicit false

/-- An open connection, and what was queued on it. -/
structure Sent (tokens : List Token) (link : Link) : Prop where
  connected : link.connected = true
  books : ∃ finished, Account finished link ∧ finished ++ link.pending = tokens.map Token.packet

/-- The receiver has handled the packets of the past. -/
structure Wire (sender receiver : Client) (carried : Nat) (past transit : List Token) : Prop where
  formed : ∀ token ∈ past ++ transit, token.Sendable
  sent : Sent (past ++ transit) sender.link
  within : carried ≤ sender.link.written.length
  read : ∃ taken, sender.link.written.take carried = taken ++ receiver.incoming ∧
    feedAll feed packetCleanup taken =
      (receiver.inPacket, past.map fun token => delivered token.frame)

section Links

variable {tokens : List Token} {link : Link}

theorem pending_stays (sent : Sent tokens link) (formed : ∀ token ∈ tokens, token.Sendable) :
    ∀ packet ∈ link.pending, packet.command &&& 0xF0 ≠ DISCONNECT := by
  rcases sent.books with ⟨finished, account, split⟩
  intro packet member
  have image : packet ∈ tokens.map Token.packet := by
    rw [← split]
    exact List.mem_append_right _ member
  rcases List.mem_map.mp image with ⟨token, queued, same⟩
  rw [← same]
  exact token_stays (formed token queued)

theorem sent_queue (sent : Sent tokens link) (formed : ∀ token ∈ tokens, token.Sendable)
    {token : Token} (sendable : token.Sendable) :
    Sent (tokens ++ [token]) (packetQueue link token.packet).2 ∧
      link.written <+: (packetQueue link token.packet).2.written := by
  rcases sent.books with ⟨finished, account, split⟩
  rcases packet_queue_settles account (token_packet_filled token) with
    ⟨grown, more, account', split'⟩
  have stays : ∀ other ∈ link.pending ++ [token.packet],
      other.command &&& 0xF0 ≠ DISCONNECT := by
    intro other member
    rcases List.mem_append.mp member with before | last
    · exact pending_stays sent formed other before
    · rw [List.mem_singleton.mp last]
      exact token_stays sendable
  refine ⟨⟨?_, finished ++ more, account', ?_⟩, grown⟩
  · rw [packet_queue_connected stays]
    exact sent.connected
  · rw [List.append_assoc, split', ← List.append_assoc, split, List.map_append]
    rfl

theorem sent_write (sent : Sent tokens link) (formed : ∀ token ∈ tokens, token.Sendable) :
    Sent tokens (packetWrite link).2 ∧ link.written <+: (packetWrite link).2.written := by
  rcases sent.books with ⟨finished, account, split⟩
  rcases packet_write_settles account with ⟨grown, more, account', split'⟩
  refine ⟨⟨?_, finished ++ more, account', ?_⟩, grown⟩
  · rw [packet_write_connected (pending_stays sent formed)]
    exact sent.connected
  · rw [List.append_assoc, split', split]

theorem token_bytes (tokens : List Token) :
    (tokens.map Token.frame).flatMap Frame.bytes =
      (tokens.map Token.packet).flatMap OutPacket.payload := by
  rw [List.flatMap_map, List.flatMap_map]
  congr 1
  funext token
  exact (token_packet_payload token).symm

theorem sent_written (sent : Sent tokens link) :
    link.written <+: (tokens.map Token.frame).flatMap Frame.bytes := by
  rcases sent.books with ⟨finished, account, split⟩
  rw [token_bytes, ← split, account.bytes, List.flatMap_append, List.prefix_append_right_inj,
    Link.begun]
  cases current : link.currentOutPacket with
  | none => exact List.nil_prefix
  | some sending =>
      rw [Link.pending, current]
      exact (List.take_prefix _ _).trans (List.prefix_append _ _)

theorem sent_written_all (sent : Sent tokens link) (nothing : link.pending = []) :
    link.written = (tokens.map Token.frame).flatMap Frame.bytes := by
  rcases sent.books with ⟨finished, account, split⟩
  have idle : link.currentOutPacket = none := by
    cases current : link.currentOutPacket with
    | none => rfl
    | some sending =>
        rw [Link.pending, current] at nothing
        exact absurd nothing (List.cons_ne_nil _ _)
  rw [nothing, List.append_nil] at split
  rw [token_bytes, ← split, account.bytes, Link.begun, idle, List.append_nil]

theorem frames_fed (formed : ∀ token ∈ tokens, token.Sendable) :
    (∀ packet ∈ tokens.map Token.frame,
      feedAll feed packetCleanup packet.bytes = (packetCleanup, [delivered packet])) ∧
      ∀ packet ∈ tokens.map Token.frame, Allowed feed Legal packetCleanup packet.bytes := by
  constructor
  · intro packet member
    rcases List.mem_map.mp member with ⟨token, queued, rfl⟩
    exact (feed_frame (token_well_formed (formed token queued))).1
  · intro packet member
    rcases List.mem_map.mp member with ⟨token, queued, rfl⟩
    exact (feed_frame (token_well_formed (formed token queued))).2

end Links

section Wires

variable {sender receiver : Client} {carried : Nat} {past transit : List Token}

theorem wire_sender (wire : Wire sender receiver carried past transit) {more : List Token}
    (formed : ∀ token ∈ more, token.Sendable) {next : Client}
    (sent : Sent (past ++ transit ++ more) next.link)
    (grown : sender.link.written <+: next.link.written) :
    Wire next receiver carried past (transit ++ more) := by
  constructor
  · intro token member
    rw [← List.append_assoc] at member
    rcases List.mem_append.mp member with before | last
    · exact wire.formed token before
    · exact formed token last
  · rw [← List.append_assoc]
    exact sent
  · exact Nat.le_trans wire.within grown.length_le
  · rcases grown with ⟨rest, joined⟩
    rw [← joined, List.take_append_of_le_length wire.within]
    exact wire.read

theorem wire_receiver (wire : Wire sender receiver carried past transit) {next : Client}
    (packet : next.inPacket = receiver.inPacket) (incoming : next.incoming = receiver.incoming) :
    Wire sender next carried past transit := by
  refine ⟨wire.formed, wire.sent, wire.within, ?_⟩
  rw [packet, incoming]
  exact wire.read

theorem wire_same_sender (wire : Wire sender receiver carried past transit) {next : Client}
    (link : next.link = sender.link) : Wire next receiver carried past transit := by
  refine ⟨wire.formed, ?_, ?_, ?_⟩
  · rw [link]
    exact wire.sent
  · rw [link]
    exact wire.within
  · rw [link]
    exact wire.read

theorem wire_carry (wire : Wire sender receiver carried past transit) (count : Nat) :
    Wire sender
      { receiver with
        incoming := receiver.incoming ++ load sender.link.written carried count }
      (carried + (load sender.link.written carried count).length) past transit := by
  have within := wire.within
  rcases wire.read with ⟨taken, split, fed⟩
  refine ⟨wire.formed, wire.sent, ?_, taken, ?_, fed⟩
  · rw [load, List.length_take, List.length_drop]
    omega
  · rw [List.take_add, ← List.append_assoc, ← split, load, List.length_take,
      ← List.take_eq_take_min]

theorem wire_taken (wire : Wire sender receiver carried past transit)
    (script : List CallOutcome) :
    ∃ taken, sender.link.written.take carried =
        taken ++ (MqttReading.packetRead script receiver.inPacket receiver.incoming).2.1 ∧
      feedAll feed packetCleanup taken =
        ((MqttReading.packetRead script receiver.inPacket receiver.incoming).1,
          (past.map fun token => delivered token.frame) ++
            (MqttReading.packetRead script receiver.inPacket receiver.incoming).2.2) ∧
      (MqttReading.packetRead script receiver.inPacket receiver.incoming).2.2 <+:
        transit.map fun token => delivered token.frame := by
  rcases wire.read with ⟨taken, split, fed⟩
  have frames := frames_fed wire.formed
  have starts : sender.link.written.take carried <+:
      ((past ++ transit).map Token.frame).flatMap Frame.bytes :=
    (List.take_prefix _ _).trans (sent_written wire.sent)
  have allowed := allowed_codes frames.1 frames.2
  rcases starts with ⟨rest, joined⟩
  rw [← joined, split, List.append_assoc, allowed_append, allowed_append] at allowed
  have between := invariant_of_allowed feed_between packet_cleanup_between allowed.1
  rw [fed] at allowed between
  rcases packet_read_takes script receiver.inPacket receiver.incoming between allowed.2.1 with
    ⟨more, front, later⟩
  have whole : feedAll feed packetCleanup (taken ++ more) =
      ((MqttReading.packetRead script receiver.inPacket receiver.incoming).1,
        (past.map fun token => delivered token.frame) ++
          (MqttReading.packetRead script receiver.inPacket receiver.incoming).2.2) := by
    rw [feed_all_append, fed, later]
  have within : taken ++ more <+: ((past ++ transit).map Token.frame).flatMap Frame.bytes := by
    rw [← joined, split, front, ← List.append_assoc, List.append_assoc (taken ++ more)]
    exact List.prefix_append _ _
  have handed := handed_prefix_of_codes frames.1 within
  rw [whole, List.map_map, List.map_append] at handed
  refine ⟨taken ++ more, ?_, whole, ?_⟩
  · rw [split, List.append_assoc, ← front]
  · exact (List.prefix_append_right_inj _).mp handed

theorem wire_stopped (wire : Wire sender receiver carried past transit)
    {script : List CallOutcome} {rc : MosqErr} {inbound : Inbound}
    (stopped : collect script ⟨receiver.inPacket, receiver.incoming⟩ = .stopped rc inbound)
    {next : Client} (packet : next.inPacket = inbound.packet)
    (incoming : next.incoming = inbound.incoming) : Wire sender next carried past transit := by
  have result : MqttReading.packetRead script receiver.inPacket receiver.incoming =
      (inbound.packet, inbound.incoming, []) := by
    rw [MqttReading.packetRead, stopped]
  rcases wire_taken wire script with ⟨taken, split, fed, _⟩
  rw [result] at split fed
  refine ⟨wire.formed, wire.sent, wire.within, taken, ?_, ?_⟩
  · rw [incoming]
    exact split
  · rw [packet, fed, List.append_nil]

theorem wire_ready (wire : Wire sender receiver carried past transit)
    {script : List CallOutcome} {packet : InPacket} {incoming : List Byte}
    (ready : collect script ⟨receiver.inPacket, receiver.incoming⟩ = .ready packet incoming) :
    ∃ token rest, transit = token :: rest ∧ packet = delivered token.frame ∧ token.Sendable ∧
      ∀ next : Client, next.inPacket = packetCleanup → next.incoming = incoming →
        Wire sender next carried (past ++ [token]) rest := by
  have result : MqttReading.packetRead script receiver.inPacket receiver.incoming =
      (packetCleanup, incoming, [packet]) := by
    rw [MqttReading.packetRead, ready]
  rcases wire_taken wire script with ⟨taken, split, fed, first⟩
  rw [result] at split fed first
  cases transit with
  | nil => exact absurd (List.prefix_nil.mp first) (List.cons_ne_nil _ _)
  | cons token rest =>
      rw [List.map_cons, List.cons_prefix_cons] at first
      refine ⟨token, rest, rfl, first.1, ?_, ?_⟩
      · exact wire.formed token (List.mem_append_right _ List.mem_cons_self)
      · intro next cleaned left
        have whole : past ++ token :: rest = past ++ [token] ++ rest := by simp
        refine ⟨?_, ?_, wire.within, taken, ?_, ?_⟩
        · rw [← whole]
          exact wire.formed
        · rw [← whole]
          exact wire.sent
        · rw [left]
          exact split
        · rw [cleaned, fed, first.1, List.map_append]
          rfl

theorem wire_done (wire : Wire sender receiver carried past transit)
    (written : sender.link.pending = []) (all : carried = sender.link.written.length)
    (read : receiver.incoming = []) : transit = [] := by
  rcases wire.read with ⟨taken, split, fed⟩
  rw [read, List.append_nil, all, List.take_length, sent_written_all wire.sent written] at split
  have handed := feed_all_codes (frames_fed wire.formed).1
  rw [split, fed, List.map_map] at handed
  have lengths := congrArg (fun result => result.2.length) handed
  simp only [List.length_map, List.length_append] at lengths
  exact List.eq_nil_of_length_eq_zero (by omega)

end Wires

end Gk7102.MqttWire
