import Gk7102.MqttReading

/-!
# Writing packets to the socket

Packets wait in a list until they are the current one, of which each call of
`_mosquitto_packet_write` writes what the socket takes. The call goes on to the next packet
when the current one is out.
-/

namespace Gk7102.MqttSending

open ByteBlocks SocketCalls MqttPacket MqttReading

set_option autoImplicit false

inductive ClientState where
  | new | connected | disconnecting | connectAsync | connectPending | connectSrv | disconnectWs
  | disconnected | socks5New | socks5Start | socks5Request | socks5Reply | socks5AuthOk
  | socks5UserpassReply | socks5SendUserpass | expiring
deriving DecidableEq, Repr

structure Message where
  mid : BitVec 16
  topic : List Byte
  payload : List Byte
  qos : Nat
  retain : Bool
deriving DecidableEq, Repr

inductive Event where
  | onConnect (result : Byte)
  | onDisconnect (rc : Int)
  | onPublish (mid : BitVec 16)
  | onMessage (message : Message)
  | onSubscribe (mid : BitVec 16) (grantedQos : List Byte)
  | onUnsubscribe (mid : BitVec 16)
deriving DecidableEq, Repr

/-- A packet that is queued: `toProcess` of its bytes are left, from `pos` on. -/
structure Sending where
  packet : OutPacket
  toProcess : Nat
  pos : Nat
deriving DecidableEq, Repr

/-- The part of `struct mosquitto` that sending works on. `connected` is a socket other than
`INVALID_SOCKET`, `written` what it has taken so far and `writes` how it will answer. -/
structure Link where
  connected : Bool
  state : ClientState
  currentOutPacket : Option Sending
  outPacket : List Sending
  written : List Byte
  writes : List CallOutcome
  inCallback : Bool
  threaded : Bool
  now : Int
  keepalive : BitVec 16
  nextMsgOut : Int
  events : List Event
deriving DecidableEq, Repr

def Link.record (link : Link) (event : Event) : Link :=
  { link with events := link.events ++ [event] }

def socketClose (link : Link) : Link := { link with connected := false }

/-- The inner loop: the current packet as far as the socket takes it. -/
def writeCurrent : List CallOutcome → Sending → List Byte →
    Option MosqErr × Sending × List Byte × List CallOutcome
  | [], sending, written =>
      (if sending.toProcess > 0 then some .success else none, sending, written, [])
  | outcome :: script, sending, written =>
      if sending.toProcess > 0 then
        let length := outcome.accepted sending.toProcess
        if length > 0 then
          writeCurrent script
            { sending with toProcess := sending.toProcess - length, pos := sending.pos + length }
            (written ++ load sending.packet.payload sending.pos length)
        else (some (stopped .errno outcome), sending, written, script)
      else (none, sending, written, outcome :: script)

def nextPacket (link : Link) (queue : List Sending) : Link :=
  { link with
    currentOutPacket := queue.head?
    outPacket := queue.tail
    nextMsgOut := link.now + link.keepalive.toNat }

/-- One round of the outer loop, for the current packet: what the call returns in it, if it
does, and otherwise the state in which it goes on with the next packet. -/
def writePacket (link : Link) (sending : Sending) (queue : List Sending) :
    Option MosqErr × Link :=
  match writeCurrent link.writes sending link.written with
  | (some rc, sending, written, writes) =>
      (some rc, { link with
        currentOutPacket := some sending
        outPacket := queue
        written := written
        writes := writes })
  | (none, sending, written, writes) =>
      let link := { link with written := written, writes := writes }
      if sending.packet.command &&& 0xF6 = PUBLISH then
        -- a message of QoS 0
        (none, nextPacket (link.record (.onPublish sending.packet.mid)) queue)
      else if sending.packet.command &&& 0xF0 = DISCONNECT then
        (some .success, (nextPacket (socketClose link) queue).record (.onDisconnect 0))
      else (none, nextPacket link queue)

def writeQueue (link : Link) (sending : Sending) : List Sending → MosqErr × Link
  | [] =>
      match writePacket link sending [] with
      | (some rc, link) => (rc, link)
      | (none, link) => (.success, link)
  | next :: rest =>
      match writePacket link sending (next :: rest) with
      | (some rc, link) => (rc, link)
      | (none, link) => writeQueue link next rest

/-- Where there is no current packet, the first of the list becomes it. -/
def takeFirst (link : Link) : Link :=
  match link.currentOutPacket, link.outPacket with
  | none, next :: rest => { link with currentOutPacket := some next, outPacket := rest }
  | _, _ => link

def packetWrite (link : Link) : MosqErr × Link :=
  if link.connected = false then (.noConn, link)
  else
    let link := takeFirst link
    if link.state = .connectPending then (.success, link)
    else
      match link.currentOutPacket with
      | none => (.success, link)
      | some sending => writeQueue link sending link.outPacket

def packetQueue (link : Link) (packet : OutPacket) : MosqErr × Link :=
  let link := { link with outPacket := link.outPacket ++ [⟨packet, packet.packetLength, 0⟩] }
  if link.inCallback = false ∧ link.threaded = false then packetWrite link else (.success, link)

section Accounts

/-- The packet is filled, and what is not written of it is left to process. -/
structure Sending.Coherent (sending : Sending) : Prop where
  filled : sending.packet.Filled
  rest : sending.pos + sending.toProcess = sending.packet.packetLength

/-- The packets that are not written whole, the current one first. -/
def Link.pending (link : Link) : List OutPacket :=
  (link.currentOutPacket.toList ++ link.outPacket).map Sending.packet

def Link.begun (link : Link) : List Byte :=
  match link.currentOutPacket with
  | none => []
  | some sending => sending.packet.payload.take sending.pos

def Link.reported (link : Link) : List (BitVec 16) :=
  link.events.filterMap fun event =>
    match event with
    | .onPublish mid => some mid
    | _ => none

def unacknowledged (packet : OutPacket) : Bool :=
  decide (packet.command &&& 0xF6 = PUBLISH)

/-- The books of the link: what the socket has is the finished packets and the begun part of
the current one, and `on_publish` was called for the finished ones of QoS 0. -/
structure Account (finished : List OutPacket) (link : Link) : Prop where
  current : ∀ sending, link.currentOutPacket = some sending → sending.Coherent
  waiting : ∀ sending ∈ link.outPacket, sending.Coherent ∧ sending.pos = 0
  bytes : link.written = finished.flatMap OutPacket.payload ++ link.begun
  reports : link.reported = (finished.filter unacknowledged).map OutPacket.mid

variable {link : Link} {finished : List OutPacket}

theorem write_current_spec (script : List CallOutcome) {sending : Sending}
    (coherent : sending.Coherent) {front written : List Byte}
    (bytes : written = front ++ sending.packet.payload.take sending.pos) :
    (writeCurrent script sending written).2.1.packet = sending.packet ∧
      (writeCurrent script sending written).2.1.Coherent ∧
      sending.pos ≤ (writeCurrent script sending written).2.1.pos ∧
      (writeCurrent script sending written).2.2.1 =
        front ++ sending.packet.payload.take (writeCurrent script sending written).2.1.pos ∧
      ((writeCurrent script sending written).1 = none →
        (writeCurrent script sending written).2.1.toProcess = 0) := by
  induction script generalizing sending written with
  | nil =>
      refine ⟨rfl, coherent, Nat.le_refl _, bytes, ?_⟩
      intro goes
      rw [writeCurrent] at goes ⊢
      by_contra some
      rw [if_pos (Nat.pos_of_ne_zero some)] at goes
      exact Option.some_ne_none _ goes
  | cons outcome script induction =>
      rw [writeCurrent]
      by_cases left : sending.toProcess > 0
      · rw [if_pos left]
        dsimp only
        by_cases taken : outcome.accepted sending.toProcess > 0
        · rw [if_pos taken]
          have room : outcome.accepted sending.toProcess ≤ sending.toProcess := by
            cases outcome with
            | failed errno => exact Nat.zero_le _
            | moved more => exact Nat.min_le_right _ _
          have rest := coherent.rest
          have moved : Sending.Coherent { sending with
              toProcess := sending.toProcess - outcome.accepted sending.toProcess
              pos := sending.pos + outcome.accepted sending.toProcess } :=
            ⟨coherent.filled, by dsimp only; omega⟩
          have longer : written ++ load sending.packet.payload sending.pos
              (outcome.accepted sending.toProcess) = front ++ sending.packet.payload.take
                (sending.pos + outcome.accepted sending.toProcess) := by
            rw [bytes, List.append_assoc, List.take_add, load]
          have later := induction moved longer
          exact ⟨later.1, later.2.1, Nat.le_trans (Nat.le_add_right _ _) later.2.2.1,
            later.2.2.2⟩
        · rw [if_neg taken]
          exact ⟨rfl, coherent, Nat.le_refl _, bytes,
            fun goes => absurd goes (Option.some_ne_none _)⟩
      · rw [if_neg left]
        exact ⟨rfl, coherent, Nat.le_refl _, bytes, fun _ => Nat.eq_zero_of_not_pos left⟩

/-- The part of a call that turned `link` into `after` finished the packets that are no
longer pending, and took nothing back from the socket. -/
def Settles (finished : List OutPacket) (link after : Link) : Prop :=
  link.written <+: after.written ∧
    ∃ more, Account (finished ++ more) after ∧ more ++ after.pending = link.pending

theorem settles_refl (account : Account finished link) : Settles finished link link :=
  ⟨List.prefix_refl _, [], by rw [List.append_nil]; exact account, rfl⟩

@[simp] theorem reported_publish (link : Link) (mid : BitVec 16) :
    (link.record (.onPublish mid)).reported = link.reported ++ [mid] := by
  simp only [Link.reported, Link.record, List.filterMap_append, List.filterMap_cons,
    List.filterMap_nil]

@[simp] theorem reported_disconnect (link : Link) (rc : Int) :
    (link.record (.onDisconnect rc)).reported = link.reported := by
  simp only [Link.reported, Link.record, List.filterMap_append, List.filterMap_cons,
    List.filterMap_nil, List.append_nil]

theorem account_disconnect (account : Account finished link) (rc : Int) :
    Account finished (link.record (.onDisconnect rc)) :=
  ⟨account.current, account.waiting, account.bytes, by
    rw [reported_disconnect]; exact account.reports⟩

theorem account_next {sending : Sending} {queue : List Sending} (written : Link)
    (account : Account finished link) (current : link.currentOutPacket = some sending)
    (queued : link.outPacket = queue)
    (bytes : written.written = (finished ++ [sending.packet]).flatMap OutPacket.payload)
    (reports : written.reported =
      ((finished ++ [sending.packet]).filter unacknowledged).map OutPacket.mid) :
    Account (finished ++ [sending.packet]) (nextPacket written queue) ∧
      [sending.packet] ++ (nextPacket written queue).pending = link.pending := by
  have waiting := account.waiting
  rw [queued] at waiting
  constructor
  · constructor
    · intro next first
      exact (waiting next (List.mem_of_mem_head? first)).1
    · intro later member
      exact waiting later (List.mem_of_mem_tail member)
    · have begun : (nextPacket written queue).begun = [] := by
        rw [Link.begun, nextPacket]
        cases queue with
        | nil => rfl
        | cons next rest =>
            have front := (waiting next (List.mem_cons_self ..)).2
            simp only [List.head?_cons, front, List.take_zero]
      rw [begun, List.append_nil]
      exact bytes
    · exact reports
  · simp only [Link.pending, nextPacket, current, queued]
    cases queue <;> simp

theorem write_packet_spec {sending : Sending} {queue : List Sending}
    (account : Account finished link) (current : link.currentOutPacket = some sending)
    (queued : link.outPacket = queue) :
    Settles finished link (writePacket link sending queue).2 ∧
      ((writePacket link sending queue).1 = none →
        (writePacket link sending queue).2.currentOutPacket = queue.head? ∧
          (writePacket link sending queue).2.outPacket = queue.tail) := by
  have coherent := account.current sending current
  have before := account.bytes
  rw [Link.begun, current] at before
  have spec := write_current_spec link.writes coherent before
  rw [writePacket]
  rcases out : writeCurrent link.writes sending link.written with ⟨rc, after, written, writes⟩
  rw [out] at spec
  rcases spec with ⟨same, held, further, bytes, whole⟩
  dsimp only at same held further bytes whole
  have grown : link.written <+: written := by
    rw [before, bytes, List.prefix_append_right_inj]
    exact List.take_prefix_take_left further
  cases rc with
  | some rc =>
      refine ⟨⟨grown, [], ?_, ?_⟩, fun goes => absurd goes (Option.some_ne_none _)⟩
      · rw [List.append_nil]
        constructor
        · intro sending' here
          rw [← Option.some.inj here]
          exact held
        · rw [← queued]
          exact account.waiting
        · rw [Link.begun]
          dsimp only
          rw [same]
          exact bytes
        · exact account.reports
      · simp only [Link.pending, current, queued, List.nil_append, Option.toList_some,
          List.singleton_append, List.map_cons, same]
  | none =>
      have all : sending.packet.payload.take after.pos = sending.packet.payload := by
        have filled := held.filled
        have rest := held.rest
        have done := whole rfl
        rw [OutPacket.Filled] at filled
        rw [same] at filled rest
        exact List.take_of_length_le (by omega)
      have bytes' : written = (finished ++ [sending.packet]).flatMap OutPacket.payload := by
        rw [bytes, all]
        simp
      dsimp only
      rw [same]
      by_cases published : sending.packet.command &&& 0xF6 = PUBLISH
      · have silent : unacknowledged sending.packet = true := decide_eq_true published
        rw [if_pos published]
        refine ⟨⟨grown, [sending.packet], account_next _ account current queued bytes' ?_⟩,
          fun _ => ⟨rfl, rfl⟩⟩
        rw [reported_publish, List.filter_append,
          List.filter_cons_of_pos silent, List.map_append, ← account.reports]
        rfl
      · have acknowledged : ¬ unacknowledged sending.packet = true :=
          fun silent => published (of_decide_eq_true silent)
        have reports : link.reported =
            ((finished ++ [sending.packet]).filter unacknowledged).map
              OutPacket.mid := by
          rw [account.reports, List.filter_append, List.filter_cons_of_neg acknowledged,
            List.filter_nil, List.append_nil]
        rw [if_neg published]
        by_cases leaves : sending.packet.command &&& 0xF0 = DISCONNECT
        · rw [if_pos leaves]
          have moved := account_next (socketClose { link with
            written := written, writes := writes }) account current queued bytes' reports
          exact ⟨⟨grown, [sending.packet], account_disconnect moved.1 0, moved.2⟩,
            fun goes => absurd goes (Option.some_ne_none _)⟩
        · rw [if_neg leaves]
          exact ⟨⟨grown, [sending.packet], account_next _ account current queued bytes' reports⟩,
            fun _ => ⟨rfl, rfl⟩⟩

theorem settles_trans {middle after : Link} (first : Settles finished link middle)
    (second : ∀ finished, Account finished middle → Settles finished middle after) :
    Settles finished link after := by
  rcases first with ⟨grown, more, account, split⟩
  rcases second _ account with ⟨grown', later, account', split'⟩
  refine ⟨grown.trans grown', more ++ later, ?_, ?_⟩
  · rw [← List.append_assoc]
    exact account'
  · rw [List.append_assoc, split', split]

theorem write_queue_settles {sending : Sending} {queue : List Sending}
    (account : Account finished link) (current : link.currentOutPacket = some sending)
    (queued : link.outPacket = queue) :
    Settles finished link (writeQueue link sending queue).2 := by
  induction queue generalizing link sending finished with
  | nil =>
      have spec := write_packet_spec account current queued
      rw [writeQueue]
      rcases out : writePacket link sending [] with ⟨rc, after⟩
      rw [out] at spec
      cases rc with
      | some rc => exact spec.1
      | none => exact spec.1
  | cons next rest induction =>
      have spec := write_packet_spec account current queued
      rw [writeQueue]
      rcases out : writePacket link sending (next :: rest) with ⟨rc, after⟩
      rw [out] at spec
      cases rc with
      | some rc => exact spec.1
      | none =>
          rcases spec.2 rfl with ⟨first, last⟩
          exact settles_trans spec.1 fun finished account' => induction account' first last

theorem take_first_settles (account : Account finished link) :
    Settles finished link (takeFirst link) := by
  rw [takeFirst]
  split
  next next rest none queued =>
      have waiting := account.waiting
      rw [queued] at waiting
      have front := waiting next (List.mem_cons_self ..)
      refine ⟨List.prefix_refl _, [], ?_, ?_⟩
      · rw [List.append_nil]
        constructor
        · intro sending first
          rw [← Option.some.inj first]
          exact front.1
        · intro later member
          exact waiting later (List.mem_cons_of_mem _ member)
        · have bytes := account.bytes
          rw [Link.begun, none] at bytes
          rw [Link.begun]
          simp only [front.2, List.take_zero]
          exact bytes
        · exact account.reports
      · simp only [Link.pending, none, queued, List.nil_append, Option.toList_none,
          Option.toList_some, List.singleton_append]
  next => exact settles_refl account

theorem packet_write_settles (account : Account finished link) :
    Settles finished link (packetWrite link).2 := by
  rw [packetWrite]
  by_cases closed : link.connected = false
  · rw [if_pos closed]
    exact settles_refl account
  · rw [if_neg closed]
    dsimp only
    have first := take_first_settles account
    by_cases pending : (takeFirst link).state = .connectPending
    · rw [if_pos pending]
      exact first
    · rw [if_neg pending]
      cases current : (takeFirst link).currentOutPacket with
      | none => exact first
      | some sending =>
          exact settles_trans first fun finished account' =>
            write_queue_settles account' current rfl

theorem packet_queue_settles (account : Account finished link) {packet : OutPacket}
    (filled : packet.Filled) :
    link.written <+: (packetQueue link packet).2.written ∧
      ∃ more, Account (finished ++ more) (packetQueue link packet).2 ∧
        more ++ (packetQueue link packet).2.pending = link.pending ++ [packet] := by
  have queued : Account finished { link with
      outPacket := link.outPacket ++ [⟨packet, packet.packetLength, 0⟩] } := by
    constructor
    · exact account.current
    · intro sending member
      rcases List.mem_append.mp member with before | last
      · exact account.waiting sending before
      · rw [List.mem_singleton] at last
        rw [last]
        exact ⟨⟨filled, Nat.zero_add _⟩, rfl⟩
    · exact account.bytes
    · exact account.reports
  have pending : ({ link with
      outPacket := link.outPacket ++ [⟨packet, packet.packetLength, 0⟩] } : Link).pending =
      link.pending ++ [packet] := by
    simp only [Link.pending, List.map_append, List.append_assoc, List.map_cons, List.map_nil]
  rw [packetQueue]
  dsimp only
  split
  next writes =>
      rcases packet_write_settles queued with ⟨grown, more, account', split⟩
      exact ⟨grown, more, account', split.trans pending⟩
  next =>
      exact ⟨List.prefix_refl _, [], by rw [List.append_nil]; exact queued, pending⟩

end Accounts

section Connection

theorem write_current_packet (script : List CallOutcome) (sending : Sending)
    (written : List Byte) : (writeCurrent script sending written).2.1.packet = sending.packet := by
  induction script generalizing sending written with
  | nil => rfl
  | cons outcome script induction =>
      rw [writeCurrent]
      split
      · dsimp only
        split
        · exact induction _ _
        · rfl
      · rfl

theorem write_packet_connected (link : Link) {sending : Sending} (queue : List Sending)
    (stays : sending.packet.command &&& 0xF0 ≠ DISCONNECT) :
    (writePacket link sending queue).2.connected = link.connected := by
  have same := write_current_packet link.writes sending link.written
  rw [writePacket]
  rcases out : writeCurrent link.writes sending link.written with ⟨rc, after, written, writes⟩
  rw [out] at same
  cases rc with
  | some rc => rfl
  | none =>
      dsimp only at same ⊢
      rw [same]
      split
      · rfl
      · rfl

theorem write_queue_connected {link : Link} {sending : Sending} {queue : List Sending}
    (stays : ∀ other ∈ sending :: queue, other.packet.command &&& 0xF0 ≠ DISCONNECT) :
    (writeQueue link sending queue).2.connected = link.connected := by
  induction queue generalizing link sending with
  | nil =>
      have one := write_packet_connected link [] (stays sending List.mem_cons_self)
      rw [writeQueue]
      split
      next rc after out =>
          rw [out] at one
          exact one
      next after out =>
          rw [out] at one
          exact one
  | cons next rest induction =>
      have one := write_packet_connected link (next :: rest) (stays sending List.mem_cons_self)
      rw [writeQueue]
      split
      next rc after out =>
          rw [out] at one
          exact one
      next after out =>
          rw [out] at one
          rw [induction fun other member => stays other (List.mem_cons_of_mem _ member)]
          exact one

/-- Only the packet that ends a connection closes it. -/
theorem packet_write_connected {link : Link}
    (stays : ∀ packet ∈ link.pending, packet.command &&& 0xF0 ≠ DISCONNECT) :
    (packetWrite link).2.connected = link.connected := by
  rw [packetWrite]
  split
  · rfl
  · have first : (takeFirst link).connected = link.connected ∧
        (takeFirst link).pending = link.pending := by
      rw [takeFirst]
      split
      next next rest none queued => simp [Link.pending, none, queued]
      next => exact ⟨rfl, rfl⟩
    dsimp only
    split
    · exact first.1
    · cases current : (takeFirst link).currentOutPacket with
      | none => exact first.1
      | some sending =>
          rw [← first.1]
          apply write_queue_connected
          intro other member
          apply stays
          rw [← first.2, Link.pending, current]
          exact List.mem_map_of_mem member

theorem packet_queue_connected {link : Link} {packet : OutPacket}
    (stays : ∀ other ∈ link.pending ++ [packet], other.command &&& 0xF0 ≠ DISCONNECT) :
    (packetQueue link packet).2.connected = link.connected := by
  rw [packetQueue]
  dsimp only
  split
  · apply packet_write_connected
    intro other member
    apply stays
    simpa only [Link.pending, List.map_append, List.append_assoc, List.map_cons,
      List.map_nil] using member
  · rfl

end Connection

end Gk7102.MqttSending
