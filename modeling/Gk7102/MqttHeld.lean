import Gk7102.MqttWindow

/-!
# Incoming messages of QoS 2

A message of QoS 2 is held from its PUBLISH to its PUBREL. Whatever packets come, for each
message id what came in is what was passed on and behind it what is held.
-/

namespace Gk7102.MqttHeld

open ByteBlocks MqttPacket MqttSending MqttCodec MqttClient MqttWindow

set_option autoImplicit false

section Accounts

def arrival (packet : InPacket) : List Message :=
  if packet.command &&& 0xF0 = PUBLISH then
    match parsePublish packet with
    | .ok received => if received.message.qos = 2 then [received.message] else []
    | .error _ => []
  else []

def arrivals : List Op → List Message
  | [] => []
  | .handle packet :: ops => arrival packet ++ arrivals ops
  | _ :: ops => arrivals ops

def passed (event : Event) : Option Message :=
  match event with
  | .onMessage message => if message.qos = 2 then some message else none
  | _ => none

def passedOn (client : Client) : List Message := client.calls.filterMap passed

def held (client : Client) : List Message := client.inMessages.map Stored.message

def named (mid : BitVec 16) (messages : List Message) : List Message :=
  messages.filter (·.mid = mid)

@[simp] theorem named_append (mid : BitVec 16) (front back : List Message) :
    named mid (front ++ back) = named mid front ++ named mid back := List.filter_append ..

/-- What came in is what was passed on and what is held. -/
structure Account (came : List Message) (client : Client) : Prop where
  known : ∀ message ∈ held client, message.qos = 2
  balance : ∀ mid, named mid came = named mid (passedOn client) ++ named mid (held client)

structure SameIn (client next : Client) : Prop where
  held : held next = held client
  passed : passedOn next = passedOn client

variable {came : List Message} {client : Client}

theorem account_same (account : Account came client) {next : Client}
    (same : SameIn client next) : Account came next := by
  constructor
  · rw [same.held]
    exact account.known
  · rw [same.held, same.passed]
    exact account.balance

theorem passed_on_call (client : Client) (event : Event) :
    passedOn (client.call event) = passedOn client ++ (passed event).toList := by
  rw [passedOn, Client.call, List.filterMap_append, ← passedOn]
  cases mid : passed event <;> simp [mid]

theorem same_call (client : Client) {event : Event} (other : passed event = none) :
    SameIn client (client.call event) := by
  constructor
  · rfl
  · rw [passed_on_call, other]
    exact List.append_nil _

theorem same_trans {middle next : Client} (first : SameIn client middle)
    (second : SameIn middle next) : SameIn client next :=
  ⟨second.held.trans first.held, second.passed.trans first.passed⟩

theorem same_refl (client : Client) : SameIn client client := ⟨rfl, rfl⟩

theorem account_arrive (account : Account came client) {stored : Stored}
    (two : stored.message.qos = 2) (link : Link) :
    Account (came ++ [stored.message]) (messageQueueIn { client with link := link } stored) := by
  have longer : held (messageQueueIn { client with link := link } stored) =
      held client ++ [stored.message] := by
    rw [held, messageQueueIn, List.map_append]
    rfl
  constructor
  · rw [longer]
    intro message member
    rcases List.mem_append.mp member with before | last
    · exact account.known message before
    · rw [List.mem_singleton.mp last]
      exact two
  · intro mid
    rw [longer, named_append, named_append, account.balance, List.append_assoc]
    rfl

theorem named_none {mid : BitVec 16} {messages : List Stored}
    (clear : ∀ stored ∈ messages, stored.message.mid ≠ mid) :
    named mid (messages.map Stored.message) = [] := by
  rw [named, List.filter_eq_nil_iff]
  intro message member
  rcases List.mem_map.mp member with ⟨stored, before, rfl⟩
  simpa using clear stored before

theorem account_release (account : Account came client) (mid : BitVec 16) :
    Account came (releaseHeld client mid) := by
  rw [releaseHeld, messageRemoveIn]
  cases found : unlink mid client.inMessages with
  | none => exact account
  | some result =>
      rcases result with ⟨cur, rest⟩
      rcases unlink_spec found with ⟨before, after, split, without, same, clear⟩
      have before_held : held client =
          before.map Stored.message ++ cur.message :: after.map Stored.message := by
        rw [held, split, List.map_append, List.map_cons]
      have two : cur.message.qos = 2 := by
        apply account.known
        rw [before_held]
        exact List.mem_append_right _ List.mem_cons_self
      have now : held ({ client with inMessages := rest }.call (.onMessage cur.message)) =
          before.map Stored.message ++ after.map Stored.message := by
        rw [held, Client.call, without, List.map_append]
      have out : passedOn ({ client with inMessages := rest }.call (.onMessage cur.message)) =
          passedOn client ++ [cur.message] := by
        rw [passed_on_call, passed, if_pos two]
        rfl
      constructor
      · dsimp only
        rw [now]
        intro message member
        apply account.known
        rw [before_held]
        rcases List.mem_append.mp member with front | back
        · exact List.mem_append_left _ front
        · exact List.mem_append_right _ (List.mem_cons_of_mem _ back)
      · intro other
        dsimp only
        rw [now, out, account.balance, before_held]
        simp only [named_append]
        by_cases this : cur.message.mid = other
        · have none : named other (before.map Stored.message) = [] :=
            named_none fun stored member => by
              rw [← this, same]
              exact clear stored member
          rw [none]
          simp [named, this]
        · simp [named, this]

end Accounts

section Steps

variable {came : List Message} {client : Client}

def Entered (came : List Message) (packet : InPacket) : Handled → Prop
  | .ok (_, next) => Account (came ++ arrival packet) next
  | .error _ => arrival packet = []

theorem entered_same (account : Account came client) {packet : InPacket}
    (nothing : arrival packet = []) {rc : MosqErr} {next : Client} (same : SameIn client next) :
    Entered came packet (.ok (rc, next)) := by
  rw [Entered, nothing, List.append_nil]
  exact account_same account same

theorem entered_bind {Result : Type} {packet : InPacket} {parsed : Except Stop Result}
    {next : Result → Handled} (failed : ∀ stop, parsed = .error stop → arrival packet = [])
    (later : ∀ result, parsed = .ok result → Entered came packet (next result)) :
    Entered came packet (parsed >>= next) := by
  cases parsed with
  | error stop => exact failed stop rfl
  | ok result => exact later result rfl

theorem arrival_other {packet : InPacket} (other : packet.command &&& 0xF0 ≠ PUBLISH) :
    arrival packet = [] := by
  rw [arrival, if_neg other]

theorem handle_publish_entered (account : Account came client) {packet : InPacket}
    (published : packet.command &&& 0xF0 = PUBLISH) :
    Entered came packet (handlePublish client packet) := by
  apply entered_bind
  · intro stop failed
    rw [arrival, if_pos published, failed]
  · intro received parsed
    have brought : arrival packet =
        if received.message.qos = 2 then [received.message] else [] := by
      rw [arrival, if_pos published, parsed]
    have silent : received.message.qos ≠ 2 →
        passed (.onMessage received.message) = none := fun other => if_neg other
    dsimp only
    split
    next zero =>
        have other : received.message.qos ≠ 2 := by omega
        rw [if_neg other] at brought
        exact entered_same account brought (same_call client (silent other))
    next one =>
        have other : received.message.qos ≠ 2 := by omega
        rw [if_neg other] at brought
        have same : SameIn client { client with
            link := (sendPuback client.link received.message.mid).2 } := ⟨rfl, rfl⟩
        exact entered_same account brought (same_trans same (same_call _ (silent other)))
    next two =>
        rw [if_pos two] at brought
        have held := account_arrive account (show (Stored.mk received.message .waitForPubrel
          client.link.now received.dup).message.qos = 2 from two)
            (sendPubrec client.link received.message.mid).2
        rw [← brought] at held
        exact held
    next _ _ other =>
        rw [if_neg other] at brought
        exact brought

theorem remove_out_same (client : Client) (mid : BitVec 16) :
    SameIn client (messageRemoveOut client mid).2 := by
  rw [messageRemoveOut]
  cases unlink mid client.outMessages with
  | none => exact same_refl client
  | some result => exact ⟨rfl, rfl⟩

theorem out_update_same (client : Client) (mid : BitVec 16) (state : MsgState) :
    SameIn client (messageOutUpdate client mid state).2 := by
  rw [messageOutUpdate]
  cases updateState mid state client.link.now client.outMessages with
  | none => exact same_refl client
  | some messages => exact ⟨rfl, rfl⟩

theorem handle_pubackcomp_entered (account : Account came client) {packet : InPacket}
    (nothing : arrival packet = []) :
    Entered came packet (handlePubackcomp client packet) := by
  apply entered_bind fun _ _ => nothing
  intro mid parsed
  have same := remove_out_same client mid
  dsimp only
  split
  · exact entered_same account nothing (same_trans same (same_call _ rfl))
  · exact entered_same account nothing same

theorem handle_pubrec_entered (account : Account came client) {packet : InPacket}
    (nothing : arrival packet = []) : Entered came packet (handlePubrec client packet) := by
  apply entered_bind fun _ _ => nothing
  intro mid parsed
  exact entered_same account nothing
    (same_trans (out_update_same client mid .waitForPubcomp) ⟨rfl, rfl⟩)

theorem handle_pubrel_entered (account : Account came client) {packet : InPacket}
    (nothing : arrival packet = []) : Entered came packet (handlePubrel client packet) := by
  rw [handlePubrel]
  split
  · exact nothing
  · apply entered_bind fun _ _ => nothing
    intro mid parsed
    exact entered_same (account_release account mid) nothing ⟨rfl, rfl⟩

theorem handle_connack_entered (account : Account came client) {packet : InPacket}
    (nothing : arrival packet = []) : Entered came packet (handleConnack client packet) := by
  apply entered_bind fun _ _ => nothing
  intro result parsed
  have same := same_call client (show passed (.onConnect result) = none from rfl)
  dsimp only
  split
  · exact entered_same account nothing (same_trans same ⟨rfl, rfl⟩)
  · exact entered_same account nothing same

theorem packet_handle_entered (account : Account came client) (packet : InPacket) :
    Entered came packet (packetHandle client packet) := by
  by_cases published : packet.command &&& 0xF0 = PUBLISH
  · have result : packetHandle client packet = handlePublish client packet := by
      rw [packetHandle, published]
      rfl
    rw [result]
    exact handle_publish_entered account published
  · have nothing := arrival_other published
    apply packet_handle_cases (Entered came packet)
    · exact entered_same account nothing ⟨rfl, rfl⟩
    · exact entered_same account nothing ⟨rfl, rfl⟩
    · intro _
      exact handle_pubackcomp_entered account nothing
    · intro this
      exact absurd this published
    · intro _
      exact handle_pubrec_entered account nothing
    · intro _
      exact handle_pubrel_entered account nothing
    · exact handle_connack_entered account nothing
    · apply entered_bind fun _ _ => nothing
      intro result parsed
      exact entered_same account nothing (same_call client rfl)
    · apply entered_bind fun _ _ => nothing
      intro mid parsed
      exact entered_same account nothing (same_call client rfl)
    · intro _
      exact nothing

theorem message_queue_out_same (client : Client) (stored : Stored) :
    SameIn client (messageQueueOut client stored).2 := by
  rw [messageQueueOut]
  dsimp only
  split
  · split
    · exact ⟨rfl, rfl⟩
    · exact ⟨rfl, rfl⟩
  · exact ⟨rfl, rfl⟩

theorem publish_kept_same (client : Client) (message : Message) :
    SameIn client (publishKept client message).2 := by
  have same := message_queue_out_same client ⟨message, .invalid, client.link.now, false⟩
  rw [publishKept]
  split
  next queued next =>
      rw [next] at same
      exact same_trans same ⟨rfl, rfl⟩
  next queued next =>
      rw [next] at same
      exact same

theorem publish_same (client : Client) (topic payload : List Byte) (qos : Nat) (retain : Bool) :
    SameIn client (publish client topic payload qos retain).2 := by
  have moved : SameIn client { client with lastMid := midGenerate client.lastMid } := ⟨rfl, rfl⟩
  rw [publish]
  split
  · exact same_refl client
  · dsimp only
    split
    · exact ⟨rfl, rfl⟩
    · exact same_trans moved (publish_kept_same _ _)

theorem retry_messages (retry now : Int) (messages : List Stored) (link : Link) :
    (retryCheckActual retry now messages link).1.map Stored.message =
      messages.map Stored.message := by
  have keys := congrArg (List.map Prod.fst) (retry_keys retry now messages link)
  rw [List.map_map, List.map_map] at keys
  exact keys

theorem step_account (account : Account came client) (op : Op) :
    Account (came ++ arrivals [op]) (step client op) := by
  cases op with
  | publish topic payload qos retain =>
      change Account (came ++ []) _
      rw [List.append_nil]
      exact account_same account (publish_same client topic payload qos retain)
  | handle packet =>
      have entered := packet_handle_entered account packet
      change Account (came ++ (arrival packet ++ [])) _
      rw [List.append_nil, step]
      cases result : packetHandle client packet with
      | ok pair =>
          rw [result] at entered
          exact entered
      | error stop =>
          rw [result, Entered] at entered
          rw [entered, List.append_nil]
          exact account
  | retry =>
      change Account (came ++ []) _
      rw [List.append_nil]
      exact account_same account ⟨retry_messages _ _ _ _, rfl⟩
  | reset =>
      change Account (came ++ []) _
      rw [List.append_nil]
      apply account_same account
      refine ⟨?_, rfl⟩
      change ((client.inMessages.map _).map Stored.message) = _
      rw [List.map_map]
      rfl
  | link link =>
      change Account (came ++ []) _
      rw [List.append_nil]
      exact account_same account ⟨rfl, rfl⟩

theorem arrivals_append (front back : List Op) :
    arrivals (front ++ back) = arrivals front ++ arrivals back := by
  induction front with
  | nil => rfl
  | cons op front induction =>
      cases op <;> simp only [List.cons_append, arrivals, induction, List.append_assoc]

theorem run_account (account : Account [] client) (ops : List Op) :
    Account (arrivals ops) (StepRuns.run step client ops) := by
  induction ops using List.reverseRecOn with
  | nil => exact account
  | append_singleton ops op induction =>
      rw [StepRuns.run_append, StepRuns.run_cons, StepRuns.run_nil, arrivals_append]
      exact step_account induction op

end Steps

/-- Whatever packets come and whatever becomes of the connection: for each message id the
messages of QoS 2 that came in are those that were passed on, each once and in their order,
and behind them those that are held. -/
theorem held_until_released (start : Client) (ops : List Op)
    (fresh : start.inMessages = [] ∧ start.calls = []) (mid : BitVec 16) :
    named mid (arrivals ops) =
      named mid (passedOn (StepRuns.run step start ops)) ++
        named mid (held (StepRuns.run step start ops)) := by
  have empty : Account [] start := by
    constructor
    · intro message member
      rw [held, fresh.1] at member
      exact absurd member List.not_mem_nil
    · intro other
      rw [held, passedOn, fresh.1, fresh.2]
      rfl
  exact (run_account empty ops).balance mid

/-- A PUBLISH twice before its PUBREL, as after a lost PUBREC. -/
theorem held_until_released_twice :
    let ops : List Op := [.handle ⟨0x34, 1, 128, 5, [0x00, 0x01, 0x61, 0x00, 0x01], 0, 0⟩,
      .handle ⟨0x3C, 1, 128, 5, [0x00, 0x01, 0x61, 0x00, 0x01], 0, 0⟩,
      .handle ⟨0x62, 1, 128, 2, [0x00, 0x01], 0, 0⟩]
    let client := StepRuns.run step (mosquittoReinitialise [0x61] true 0) ops
    named 1 (arrivals ops) = named 1 (passedOn client) ++ named 1 (held client) :=
  held_until_released _ _ (by decide) 1

end Gk7102.MqttHeld
