import Gk7102.MqttSending

/-!
# A packet from the queue to the handlers

One end queues packets and writes what its socket takes, the network carries the bytes
some at a time, the other end reads what has come. All of it may happen in any order.
-/

namespace Gk7102.MqttChannel

open ByteBlocks SocketCalls MqttPacket MqttReading MqttSending FrameReader

set_option autoImplicit false

/-- Both ends, and how many of the written bytes the network has carried. -/
structure Channel where
  link : Link
  carried : Nat
  reader : Buffered InPacket Byte InPacket

inductive Op where
  | queue (mid : BitVec 16) (packet : Frame)
  | write
  /-- How the socket answers from now on. -/
  | answers (writes : List CallOutcome)
  /-- A callback begins or ends. -/
  | callback (inside : Bool)
  | carry (count : Nat)
  | read (script : List CallOutcome)

def step (channel : Channel) : Op → Channel
  | .queue mid packet => { channel with link := (packetQueue channel.link (sealed mid packet)).2 }
  | .write => { channel with link := (packetWrite channel.link).2 }
  | .answers writes => { channel with link := { channel.link with writes := writes } }
  | .callback inside => { channel with link := { channel.link with inCallback := inside } }
  | .carry count =>
      let bytes := load channel.link.written channel.carried count
      { channel with
        carried := channel.carried + bytes.length
        reader := FrameReader.step packetRead channel.reader (.arrive bytes) }
  | .read script =>
      { channel with reader := FrameReader.step packetRead channel.reader (.read script) }

def queued : List Op → List (BitVec 16 × Frame)
  | [] => []
  | .queue mid packet :: rest => (mid, packet) :: queued rest
  | _ :: rest => queued rest

/-- A fresh connection in whatever state the client is. -/
structure Fresh (channel : Channel) : Prop where
  current : channel.link.currentOutPacket = none
  queue : channel.link.outPacket = []
  written : channel.link.written = []
  events : channel.link.events = []
  carried : channel.carried = 0
  reader : channel.reader = ⟨packetCleanup, [], []⟩

/-- What both ends have done, for the packets queued so far. -/
structure Moved (packets : List (BitVec 16 × Frame)) (channel : Channel) : Prop where
  sent : ∃ finished, Account finished channel.link ∧
    finished ++ channel.link.pending = packets.map fun (mid, packet) => sealed mid packet
  within : channel.carried ≤ channel.link.written.length
  came : ∃ ops, channel.reader = reads ops ∧
    arrived ops = channel.link.written.take channel.carried

section Steps

variable {packets : List (BitVec 16 × Frame)} {channel : Channel}

theorem fresh_moved (fresh : Fresh channel) : Moved [] channel := by
  rcases fresh with ⟨current, queue, written, events, carried, reader⟩
  constructor
  · refine ⟨[], ?_, by simp [Link.pending, current, queue]⟩
    constructor
    · intro sending here
      rw [current] at here
      exact absurd here.symm (Option.some_ne_none _)
    · intro sending member
      rw [queue] at member
      exact absurd member List.not_mem_nil
    · rw [written, Link.begun, current]
      rfl
    · rw [Link.reported, events]
      rfl
  · rw [carried]
    exact Nat.zero_le _
  · exact ⟨[], reader, by rw [written, List.take_nil]; rfl⟩

/-- A step of the sending end leaves what was carried as it is. -/
theorem moved_of_settles {link : Link} (moved : Moved packets channel)
    (grown : channel.link.written <+: link.written) {more : List (BitVec 16 × Frame)}
    (sent : ∃ finished, Account finished link ∧
      finished ++ link.pending = (packets ++ more).map fun (mid, packet) => sealed mid packet) :
    Moved (packets ++ more) { channel with link := link } := by
  rcases moved.came with ⟨ops, reader, same⟩
  refine ⟨sent, Nat.le_trans moved.within grown.length_le, ops, reader, ?_⟩
  rcases grown with ⟨rest, joined⟩
  dsimp only
  rw [same, ← joined, List.take_append_of_le_length moved.within]

theorem step_moved (moved : Moved packets channel) (op : Op) :
    Moved (packets ++ queued [op]) (step channel op) := by
  rcases moved.sent with ⟨finished, account, split⟩
  cases op with
  | queue mid packet =>
      rcases packet_queue_settles account (show (sealed mid packet).Filled from rfl) with
        ⟨grown, more, account', split'⟩
      apply moved_of_settles moved grown
      refine ⟨finished ++ more, account', ?_⟩
      rw [List.append_assoc, split', ← List.append_assoc, split, List.map_append]
      rfl
  | write =>
      rcases packet_write_settles account with ⟨grown, more, account', split'⟩
      change Moved (packets ++ []) _
      apply moved_of_settles moved grown
      rw [List.append_nil]
      refine ⟨finished ++ more, account', ?_⟩
      rw [List.append_assoc, split', split]
  | answers writes =>
      have kept : channel.link.written <+:
          ({ channel.link with writes := writes } : Link).written := List.prefix_refl _
      change Moved (packets ++ []) _
      apply moved_of_settles moved kept
      rw [List.append_nil]
      exact ⟨finished, ⟨account.current, account.waiting, account.bytes, account.reports⟩, split⟩
  | callback inside =>
      have kept : channel.link.written <+:
          ({ channel.link with inCallback := inside } : Link).written := List.prefix_refl _
      change Moved (packets ++ []) _
      apply moved_of_settles moved kept
      rw [List.append_nil]
      exact ⟨finished, ⟨account.current, account.waiting, account.bytes, account.reports⟩, split⟩
  | carry count =>
      change Moved (packets ++ []) _
      rw [List.append_nil]
      rcases moved.came with ⟨ops, reader, same⟩
      have within := moved.within
      refine ⟨moved.sent, ?_, ops ++ [.arrive (load channel.link.written channel.carried count)],
        ?_, ?_⟩
      · simp only [step, load, List.length_take, List.length_drop]
        omega
      · simp only [step, reads, StepRuns.run_append, StepRuns.run_cons, StepRuns.run_nil, reader]
      · rw [arrived_append, same]
        simp only [step, arrived, List.append_nil]
        rw [List.take_add, load, List.length_take, ← List.take_eq_take_min]
  | read script =>
      change Moved (packets ++ []) _
      rw [List.append_nil]
      rcases moved.came with ⟨ops, reader, same⟩
      refine ⟨moved.sent, moved.within, ops ++ [.read script], ?_, ?_⟩
      · simp only [step, reads, StepRuns.run_append, StepRuns.run_cons, StepRuns.run_nil, reader]
      · rw [arrived_append, same]
        simp only [step, arrived, List.append_nil]

theorem queued_append (front back : List Op) :
    queued (front ++ back) = queued front ++ queued back := by
  induction front with
  | nil => rfl
  | cons op front induction => cases op <;> simp only [List.cons_append, queued, induction]

theorem run_moved (fresh : Fresh channel) (ops : List Op) :
    Moved (queued ops) (StepRuns.run step channel ops) := by
  induction ops using List.reverseRecOn with
  | nil => exact fresh_moved fresh
  | append_singleton ops op induction =>
      rw [StepRuns.run_append, StepRuns.run_cons, StepRuns.run_nil, queued_append]
      exact step_moved induction op

end Steps

section Delivery

variable {channel : Channel} {packets : List (BitVec 16 × Frame)}

theorem written_starts (moved : Moved packets channel) :
    channel.link.written <+: (packets.map Prod.snd).flatMap Frame.bytes := by
  rcases moved.sent with ⟨finished, account, split⟩
  have bytes : (packets.map Prod.snd).flatMap Frame.bytes =
      (finished ++ channel.link.pending).flatMap OutPacket.payload := by
    rw [split, List.flatMap_map, List.flatMap_map]
    rfl
  rw [bytes, account.bytes, List.flatMap_append, List.prefix_append_right_inj]
  rw [Link.begun]
  cases current : channel.link.currentOutPacket with
  | none => exact List.nil_prefix
  | some sending =>
      rw [Link.pending, current]
      exact (List.take_prefix _ _).trans (List.prefix_append _ _)

theorem written_all (moved : Moved packets channel) (nothing : channel.link.pending = []) :
    channel.link.written = (packets.map Prod.snd).flatMap Frame.bytes := by
  rcases moved.sent with ⟨finished, account, split⟩
  rw [nothing, List.append_nil] at split
  have idle : channel.link.currentOutPacket = none := by
    cases current : channel.link.currentOutPacket with
    | none => rfl
    | some sending =>
        rw [Link.pending, current] at nothing
        exact absurd nothing (List.cons_ne_nil _ _)
  rw [account.bytes, Link.begun, idle, List.append_nil, split, List.flatMap_map,
    List.flatMap_map]
  rfl

end Delivery

/-- On a fresh connection, whatever the order of the steps and wherever the sockets cut the
stream: the handlers of one end get the packets queued at the other one, each of them once,
whole and in their order. When nothing is left to write, to carry and to read, they have
got all of them. -/
theorem channel_delivers_in_order (start : Channel) (ops : List Op) (fresh : Fresh start)
    (wellFormed : ∀ packet ∈ queued ops, packet.2.WellFormed) :
    (StepRuns.run step start ops).reader.handed <+:
        (queued ops).map (fun packet => delivered packet.2) ∧
      ((StepRuns.run step start ops).link.pending = [] →
        (StepRuns.run step start ops).carried =
          (StepRuns.run step start ops).link.written.length →
        (StepRuns.run step start ops).reader.incoming = [] →
        (StepRuns.run step start ops).reader.handed =
          (queued ops).map fun packet => delivered packet.2) := by
  have moved := run_moved fresh ops
  have written := written_starts moved
  rcases moved.came with ⟨reading, reader, came⟩
  have formed : ∀ packet ∈ (queued ops).map Prod.snd, packet.WellFormed := by
    intro packet member
    rcases List.mem_map.mp member with ⟨whole, here, rfl⟩
    exact wellFormed whole here
  have stream : arrived reading <+: ((queued ops).map Prod.snd).flatMap Frame.bytes := by
    rw [came]
    exact (List.take_prefix _ _).trans written
  have names : ((queued ops).map Prod.snd).map delivered =
      (queued ops).map fun packet => delivered packet.2 := List.map_map
  have handed := handed_starts formed stream
  rw [← reader, names] at handed
  refine ⟨handed, ?_⟩
  intro nothing all empty
  have enough : (((queued ops).map Prod.snd).flatMap Frame.bytes).length +
      (reads reading).incoming.length ≤ (arrived reading).length := by
    rw [← reader, empty, List.length_nil, Nat.add_zero, came, all, List.take_length,
      written_all moved nothing]
  have covers := handed_covers formed stream (List.prefix_refl _) enough
  rw [← reader, names] at covers
  exact handed.eq_of_length_le covers.length_le

/-- A PUBACK that the socket takes in two pieces, with a PUBREC queued behind it before the
second piece is taken. -/
theorem channel_delivers_in_order_pieces :
    let link : Link :=
      { connected := true, state := .connected, currentOutPacket := none, outPacket := []
        written := [], writes := [], inCallback := false, threaded := false, now := 0
        keepalive := 60, nextMsgOut := 60, events := [] }
    let start : Channel := ⟨link, 0, ⟨packetCleanup, [], []⟩⟩
    let ops : List Op :=
      [.answers [.moved 1, .failed EAGAIN, .failed EAGAIN, .moved 1, .moved 9],
        .queue 0 ⟨0x40, [0x00, 0x07]⟩, .carry 9, .read [.moved 1, .moved 1, .moved 1],
        .queue 0 ⟨0x50, [0x00, 0x08]⟩, .write, .carry 9, .read [.moved 9],
        .read [.moved 9, .moved 9, .moved 9]]
    (StepRuns.run step start ops).reader.handed =
      [delivered ⟨0x40, [0x00, 0x07]⟩, delivered ⟨0x50, [0x00, 0x08]⟩] := by
  intro link start ops
  have formed : ∀ packet ∈ queued ops, packet.2.WellFormed := by
    intro packet member
    rcases List.mem_pair.mp member with first | second
    · rw [first]
      exact ⟨by decide, by decide⟩
    · rw [second]
      exact ⟨by decide, by decide⟩
  have delivers := channel_delivers_in_order start ops ⟨rfl, rfl, rfl, rfl, rfl, rfl⟩ formed
  exact delivers.2 (by decide +kernel) (by decide +kernel) (by decide +kernel)

end Gk7102.MqttChannel
