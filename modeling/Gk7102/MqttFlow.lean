import Gk7102.MqttTokens
import Mathlib.Data.List.Count

/-!
# The messages from one client to the other

Each message of QoS 1 or 2 that is under way has one packet of its handshake in transit.
The ones that are further on were published before the others, so every part of the way is
a queue.
-/

namespace Gk7102.MqttFlow

open ByteBlocks MqttPacket MqttSending MqttClient MqttWindow MqttTokens

set_option autoImplicit false

section Parts

def publishes (tokens : List Token) : List Message :=
  tokens.filterMap fun token =>
    match token with
    | .publish message => some message
    | _ => none

def pubacks (tokens : List Token) : List (BitVec 16) :=
  tokens.filterMap fun token =>
    match token with
    | .puback mid => some mid
    | _ => none

def pubrecs (tokens : List Token) : List (BitVec 16) :=
  tokens.filterMap fun token =>
    match token with
    | .pubrec mid => some mid
    | _ => none

def pubrels (tokens : List Token) : List (BitVec 16) :=
  tokens.filterMap fun token =>
    match token with
    | .pubrel mid => some mid
    | _ => none

def pubcomps (tokens : List Token) : List (BitVec 16) :=
  tokens.filterMap fun token =>
    match token with
    | .pubcomp mid => some mid
    | _ => none

variable (front back : List Token)

@[simp] theorem publishes_append :
    publishes (front ++ back) = publishes front ++ publishes back := List.filterMap_append ..

@[simp] theorem pubacks_append : pubacks (front ++ back) = pubacks front ++ pubacks back :=
  List.filterMap_append ..

@[simp] theorem pubrecs_append : pubrecs (front ++ back) = pubrecs front ++ pubrecs back :=
  List.filterMap_append ..

@[simp] theorem pubrels_append : pubrels (front ++ back) = pubrels front ++ pubrels back :=
  List.filterMap_append ..

@[simp] theorem pubcomps_append : pubcomps (front ++ back) = pubcomps front ++ pubcomps back :=
  List.filterMap_append ..

/-- Neither a message nor its release. -/
def Answering (tokens : List Token) : Prop := publishes tokens = [] ∧ pubrels tokens = []

/-- No answer to a message or to its release. -/
def Carrying (tokens : List Token) : Prop :=
  pubacks tokens = [] ∧ pubrecs tokens = [] ∧ pubcomps tokens = []

def withQos (qos : Nat) (messages : List Message) : List Message := messages.filter (·.qos = qos)

@[simp] theorem with_qos_append (qos : Nat) (front back : List Message) :
    withQos qos (front ++ back) = withQos qos front ++ withQos qos back := List.filter_append ..

@[simp] theorem with_qos_nil (qos : Nat) : withQos qos [] = [] := rfl

theorem with_qos_cons (qos : Nat) (message : Message) (messages : List Message) :
    withQos qos (message :: messages) =
      (if message.qos = qos then [message] else []) ++ withQos qos messages := by
  rw [withQos, List.filter_cons]
  split
  next same =>
      rw [if_pos (of_decide_eq_true same)]
      rfl
  next other =>
      rw [if_neg (mt decide_eq_true other)]
      rfl

def storedMid (stored : Stored) : BitVec 16 := stored.message.mid

def midsOf (qos : Nat) (messages : List Stored) : List (BitVec 16) :=
  (messages.filter (·.message.qos = qos)).map storedMid

@[simp] theorem mids_of_append (qos : Nat) (front back : List Stored) :
    midsOf qos (front ++ back) = midsOf qos front ++ midsOf qos back := by
  rw [midsOf, List.filter_append, List.map_append]
  rfl

@[simp] theorem mids_of_nil (qos : Nat) : midsOf qos [] = [] := rfl

theorem mids_of_cons (qos : Nat) (cur : Stored) (messages : List Stored) :
    midsOf qos (cur :: messages) =
      (if cur.message.qos = qos then [storedMid cur] else []) ++ midsOf qos messages := by
  rw [midsOf, List.filter_cons]
  split
  next same =>
      rw [if_pos (of_decide_eq_true same)]
      rfl
  next other =>
      rw [if_neg (mt decide_eq_true other)]
      rfl

def passedOn (client : Client) : List Message :=
  client.calls.filterMap fun event =>
    match event with
    | .onMessage message => some message
    | _ => none

def reportedBack (client : Client) : List (BitVec 16) :=
  client.calls.filterMap fun event =>
    match event with
    | .onPublish mid => some mid
    | _ => none

def passedMids (client : Client) : List (BitVec 16) :=
  ((passedOn client).filter (·.qos > 0)).map Message.mid

end Parts

/-- The way of the messages from the sender to the receiver: `ab` is in transit forwards,
`ba` backwards. -/
structure Flow (sender receiver : Client) (ab ba : List Token) (published : List Message)
    (started waiting : List Stored) : Prop where
  kept : Kept sender started waiting
  fresh : ∀ stored ∈ waiting, stored.dup = false ∧ Sendable stored.message
  unique : ((started ++ waiting).map storedMid).Nodup
  one : midsOf 1 started = pubacks ba ++ (withQos 1 (publishes ab)).map Message.mid
  two : midsOf 2 started =
    pubcomps ba ++ (pubrels ab ++ (pubrecs ba ++ (withQos 2 (publishes ab)).map Message.mid))
  held : receiver.inMessages.map storedMid = pubrels ab ++ pubrecs ba
  heldQos : ∀ stored ∈ receiver.inMessages, stored.message.qos = 2
  order : ∀ qos, withQos qos (passedOn receiver) ++
      (withQos qos (receiver.inMessages.map Stored.message) ++
        withQos qos ((publishes ab ++ waiting.map Stored.message).map received)) =
    withQos qos (published.map received)
  reports : ∀ mid, (reportedBack sender).count mid + (pubacks ba).count mid +
    (pubcomps ba).count mid ≤ (passedMids receiver).count mid

def Flowing (sender receiver : Client) (ab ba : List Token) (published : List Message) : Prop :=
  ∃ started waiting, Flow sender receiver ab ba published started waiting

section Frames

variable {sender receiver : Client} {ab ba : List Token} {published : List Message}
  {started waiting : List Stored}

/-- What a client does as a receiver leaves its own messages alone. -/
theorem flow_as_receiver {gone : List Token}
    (flow : Flow sender receiver ab (gone ++ ba) published started waiting)
    (carrying : Carrying gone) {more : List Token} (answering : Answering more) {next : Client}
    (same : SameOut sender next) (reported : reportedBack next = reportedBack sender) :
    Flow next receiver (ab ++ more) ba published started waiting := by
  have backwards : pubacks (gone ++ ba) = pubacks ba ∧ pubrecs (gone ++ ba) = pubrecs ba ∧
      pubcomps (gone ++ ba) = pubcomps ba := by
    simp [carrying.1, carrying.2.1, carrying.2.2]
  have forwards : publishes (ab ++ more) = publishes ab ∧ pubrels (ab ++ more) = pubrels ab := by
    simp [answering.1, answering.2]
  have one := flow.one
  have two := flow.two
  have held := flow.held
  have order := flow.order
  have reports := flow.reports
  rw [backwards.1] at one
  rw [backwards.2.1, backwards.2.2] at two
  rw [backwards.2.1] at held
  rw [backwards.1, backwards.2.2] at reports
  constructor
  · rw [Kept, same.messages, same.count, same.max]
    exact flow.kept
  · exact flow.fresh
  · exact flow.unique
  · rw [forwards.1]
    exact one
  · rw [forwards.1, forwards.2]
    exact two
  · rw [forwards.2]
    exact held
  · exact flow.heldQos
  · rw [forwards.1]
    exact order
  · rw [reported]
    exact reports

theorem flow_as_sender {gone : List Token}
    (flow : Flow sender receiver (gone ++ ab) ba published started waiting)
    (answering : Answering gone) {more : List Token} (carrying : Carrying more) {next : Client}
    (held : next.inMessages = receiver.inMessages) (passed : passedOn next = passedOn receiver) :
    Flow sender next ab (ba ++ more) published started waiting := by
  have backwards : pubacks (ba ++ more) = pubacks ba ∧ pubrecs (ba ++ more) = pubrecs ba ∧
      pubcomps (ba ++ more) = pubcomps ba := by
    simp [carrying.1, carrying.2.1, carrying.2.2]
  have forwards : publishes (gone ++ ab) = publishes ab ∧ pubrels (gone ++ ab) = pubrels ab := by
    simp [answering.1, answering.2]
  have one := flow.one
  have two := flow.two
  have before := flow.held
  have order := flow.order
  rw [forwards.1] at one
  rw [forwards.1, forwards.2] at two
  rw [forwards.2] at before
  rw [forwards.1] at order
  constructor
  · exact flow.kept
  · exact flow.fresh
  · exact flow.unique
  · rw [backwards.1]
    exact one
  · rw [backwards.2.1, backwards.2.2]
    exact two
  · rw [held, backwards.2.1]
    exact before
  · rw [held]
    exact flow.heldQos
  · rw [held, passed]
    exact order
  · rw [passedMids, passed, backwards.1, backwards.2.2]
    exact flow.reports

end Frames

section Receiving

variable {sender receiver next : Client} {ab ba : List Token} {published : List Message}
  {started waiting : List Stored} {message : Message}

@[simp] theorem received_qos (message : Message) : (received message).qos = message.qos := rfl

theorem received_same (positive : message.qos > 0) : received message = message := by
  rw [received, if_pos positive]

theorem publishes_cons (message : Message) (tokens : List Token) :
    publishes (.publish message :: tokens) = message :: publishes tokens := rfl

theorem held_other (flow : Flow sender receiver ab ba published started waiting) {qos : Nat}
    (other : qos ≠ 2) : withQos qos (receiver.inMessages.map Stored.message) = [] := by
  rw [withQos, List.filter_eq_nil_iff]
  intro message member
  rcases List.mem_map.mp member with ⟨stored, held, rfl⟩
  have two := flow.heldQos stored held
  simp only [decide_eq_true_eq]
  omega

theorem passed_mids_append {more : Message}
    (passed : passedOn next = passedOn receiver ++ [more]) :
    passedMids next = passedMids receiver ++ if more.qos > 0 then [more.mid] else [] := by
  rw [passedMids, passed, List.filter_append, List.map_append, ← passedMids]
  by_cases positive : more.qos > 0 <;> simp [positive]

/-- A message that is passed on at once overtakes only those of QoS 2 that are held. -/
theorem order_passed (flow : Flow sender receiver (.publish message :: ab) ba published started
      waiting) (other : message.qos ≠ 2)
    (passed : passedOn next = passedOn receiver ++ [received message])
    (held : next.inMessages = receiver.inMessages) (qos : Nat) :
    withQos qos (passedOn next) ++ (withQos qos (next.inMessages.map Stored.message) ++
        withQos qos ((publishes ab ++ waiting.map Stored.message).map received)) =
      withQos qos (published.map received) := by
  rw [passed, held, ← flow.order qos, publishes_cons, List.cons_append, List.map_cons,
    with_qos_append, with_qos_cons qos (received message) []]
  rw [with_qos_cons qos (received message) (List.map received _), received_qos, with_qos_nil,
    List.append_nil]
  by_cases same : message.qos = qos
  · have none := held_other flow (show qos ≠ 2 by omega)
    rw [if_pos same, none, List.nil_append, List.nil_append, List.append_assoc]
  · rw [if_neg same, List.append_nil, List.nil_append]

theorem flow_publish_zero
    (flow : Flow sender receiver (.publish message :: ab) ba published started waiting)
    (zero : message.qos = 0) (held : next.inMessages = receiver.inMessages)
    (passed : passedOn next = passedOn receiver ++ [received message]) :
    Flow sender next ab ba published started waiting := by
  have one := flow.one
  have two := flow.two
  rw [publishes_cons, with_qos_cons, if_neg (by omega), List.nil_append] at one two
  have mids := passed_mids_append passed
  rw [received_qos, if_neg (by omega), List.append_nil] at mids
  refine ⟨flow.kept, flow.fresh, flow.unique, one, two, ?_, ?_, ?_, ?_⟩
  · rw [held]
    exact flow.held
  · rw [held]
    exact flow.heldQos
  · exact order_passed flow (by omega) passed held
  · rw [mids]
    exact flow.reports

theorem flow_publish_one
    (flow : Flow sender receiver (.publish message :: ab) ba published started waiting)
    (qos : message.qos = 1) (held : next.inMessages = receiver.inMessages)
    (passed : passedOn next = passedOn receiver ++ [message]) :
    Flow sender next ab (ba ++ [.puback message.mid]) published started waiting := by
  have one := flow.one
  have two := flow.two
  have reports := flow.reports
  have same := received_same (show message.qos > 0 by omega)
  rw [publishes_cons, with_qos_cons, if_pos qos] at one
  rw [publishes_cons, with_qos_cons, if_neg (by omega), List.nil_append] at two
  have mids := passed_mids_append passed
  rw [if_pos (by omega)] at mids
  have acks : pubacks [Token.puback message.mid] = [message.mid] := rfl
  have others : pubrecs [Token.puback message.mid] = [] ∧
      pubcomps [Token.puback message.mid] = [] := ⟨rfl, rfl⟩
  refine ⟨flow.kept, flow.fresh, flow.unique, ?_, ?_, ?_, ?_, ?_, ?_⟩
  · rw [one, pubacks_append, acks, List.append_assoc]
    rfl
  · rw [two, pubcomps_append, pubrecs_append, others.1, others.2, List.append_nil, List.append_nil]
    rfl
  · rw [held, pubrecs_append, others.1, List.append_nil]
    exact flow.held
  · rw [held]
    exact flow.heldQos
  · rw [← same] at passed
    exact order_passed flow (by omega) passed held
  · intro mid
    have before := reports mid
    rw [mids, pubacks_append, acks, pubcomps_append, others.2, List.append_nil,
      List.count_append, List.count_append]
    omega

theorem flow_publish_two
    (flow : Flow sender receiver (.publish message :: ab) ba published started waiting)
    (qos : message.qos = 2) {stored : Stored} (same : stored.message = message)
    (held : next.inMessages = receiver.inMessages ++ [stored])
    (passed : passedOn next = passedOn receiver) :
    Flow sender next ab (ba ++ [.pubrec message.mid]) published started waiting := by
  have one := flow.one
  have two := flow.two
  have before := flow.held
  have kept := received_same (show message.qos > 0 by omega)
  rw [publishes_cons, with_qos_cons, if_neg (by omega), List.nil_append] at one
  rw [publishes_cons, with_qos_cons, if_pos qos] at two
  have recs : pubrecs [Token.pubrec message.mid] = [message.mid] := rfl
  have others : pubacks [Token.pubrec message.mid] = [] ∧
      pubcomps [Token.pubrec message.mid] = [] := ⟨rfl, rfl⟩
  have rels : pubrels (.publish message :: ab) = pubrels ab := rfl
  rw [rels] at two before
  refine ⟨flow.kept, flow.fresh, flow.unique, ?_, ?_, ?_, ?_, ?_, ?_⟩
  · rw [one, pubacks_append, others.1, List.append_nil]
  · rw [two, pubcomps_append, others.2, List.append_nil, pubrecs_append, recs,
      List.append_assoc (pubrecs ba)]
    rfl
  · have last : storedMid stored = message.mid := congrArg Message.mid same
    rw [held, List.map_append, before, pubrecs_append, recs, List.append_assoc, List.map_cons,
      List.map_nil, last]
  · intro other member
    rw [held] at member
    rcases List.mem_append.mp member with old | last
    · exact flow.heldQos other old
    · rw [List.mem_singleton.mp last, same]
      exact qos
  · intro level
    rw [passed, held, ← flow.order level, publishes_cons, List.map_append, with_qos_append,
      List.map_cons, List.map_nil, same, List.cons_append, List.map_cons, kept,
      with_qos_cons level message [], with_qos_cons level message (List.map received _),
      with_qos_nil, List.append_nil, List.append_assoc]
  · rw [passedMids, passed, pubacks_append, others.1, pubcomps_append, others.2, List.append_nil,
      List.append_nil]
    exact flow.reports

theorem flow_pubrel {mid : BitVec 16}
    (flow : Flow sender receiver (.pubrel mid :: ab) ba published started waiting) :
    ∃ cur rest, receiver.inMessages = cur :: rest ∧ cur.message.mid = mid ∧
      ∀ next : Client, next.inMessages = rest → passedOn next = passedOn receiver ++ [cur.message] →
        Flow sender next ab (ba ++ [.pubcomp mid]) published started waiting := by
  have before := flow.held
  have rels : pubrels (.pubrel mid :: ab) = mid :: pubrels ab := rfl
  have pubs : publishes (.pubrel mid :: ab) = publishes ab := rfl
  rw [rels, List.cons_append] at before
  cases inside : receiver.inMessages with
  | nil =>
      rw [inside] at before
      exact absurd before.symm (List.cons_ne_nil _ _)
  | cons cur rest =>
      rw [inside, List.map_cons] at before
      rcases List.cons.inj before with ⟨first, others⟩
      have known := flow.heldQos
      have order := flow.order
      have two := flow.two
      have one := flow.one
      rw [inside] at known order
      rw [pubs] at order one
      rw [rels, pubs] at two
      rw [List.forall_mem_cons] at known
      refine ⟨cur, rest, rfl, first, ?_⟩
      intro next left passed
      have mids := passed_mids_append passed
      have positive : cur.message.qos > 0 := by
        have qos := known.1
        omega
      rw [if_pos positive] at mids
      have comps : pubcomps [Token.pubcomp mid] = [mid] := rfl
      have acks : pubacks [Token.pubcomp mid] = [] ∧ pubrecs [Token.pubcomp mid] = [] := ⟨rfl, rfl⟩
      refine ⟨flow.kept, flow.fresh, flow.unique, ?_, ?_, ?_, ?_, ?_, ?_⟩
      · rw [one, pubacks_append, acks.1, List.append_nil]
      · rw [two, pubcomps_append, comps, pubrecs_append, acks.2, List.append_nil,
          List.append_assoc (pubcomps ba)]
        rfl
      · rw [left, others, pubrecs_append, acks.2, List.append_nil]
      · rw [left]
        exact known.2
      · intro qos
        rw [passed, left, ← order qos, List.map_cons, with_qos_append,
          with_qos_cons qos cur.message [], with_qos_cons qos cur.message (List.map _ _),
          with_qos_nil, List.append_nil, List.append_assoc, List.append_assoc]
      · intro other
        have reports := flow.reports other
        have named : cur.message.mid = mid := first
        rw [mids, named, pubacks_append, acks.1, pubcomps_append, comps, List.append_nil,
          List.count_append, List.count_append]
        omega

end Receiving

section Sending

variable {sender receiver next : Client} {ab ba : List Token} {published : List Message}
  {started waiting : List Stored} {message : Message}

theorem publishes_one (message : Message) : publishes [.publish message] = [message] := rfl

theorem pubrels_publish (message : Message) : pubrels [.publish message] = [] := rfl

theorem waiting_other (flow : Flow sender receiver ab ba published started waiting) {qos : Nat}
    (other : qos = 0) : withQos qos ((waiting.map Stored.message).map received) = [] := by
  rw [withQos, List.filter_eq_nil_iff]
  intro message member
  rcases List.mem_map.mp member with ⟨inner, here, rfl⟩
  rcases List.mem_map.mp here with ⟨stored, waits, rfl⟩
  have known := flow.kept.2.known stored (List.mem_append_right _ waits)
  intro same
  have level : stored.message.qos = qos := of_decide_eq_true same
  omega

theorem published_append (qos : Nat) (published : List Message) (message : Message) :
    withQos qos ((published ++ [message]).map received) =
      withQos qos (published.map received) ++ withQos qos [received message] := by
  rw [List.map_append, with_qos_append]
  rfl

theorem flow_sent_zero (flow : Flow sender receiver ab ba published started waiting)
    (zero : message.qos = 0) (same : SameOut sender next)
    (reported : reportedBack next = reportedBack sender) :
    Flow next receiver (ab ++ [.publish message]) ba (published ++ [message]) started waiting := by
  have none : ∀ qos, qos ≠ 0 → withQos qos [message] = [] := by
    intro qos some
    rw [with_qos_cons, if_neg (by omega), with_qos_nil, List.append_nil]
  constructor
  · rw [Kept, same.messages, same.count, same.max]
    exact flow.kept
  · exact flow.fresh
  · exact flow.unique
  · rw [publishes_append, publishes_one, with_qos_append, none 1 (by decide), List.append_nil]
    exact flow.one
  · rw [publishes_append, publishes_one, with_qos_append, none 2 (by decide), List.append_nil,
      pubrels_append, pubrels_publish, List.append_nil]
    exact flow.two
  · rw [pubrels_append, pubrels_publish, List.append_nil]
    exact flow.held
  · exact flow.heldQos
  · intro qos
    rw [published_append, ← flow.order qos, publishes_append, publishes_one]
    simp only [List.map_append, with_qos_append, List.map_cons, List.map_nil, List.append_assoc]
    by_cases level : qos = 0
    · rw [waiting_other flow level, List.append_nil, List.nil_append]
    · have nothing : withQos qos [received message] = [] := by
        rw [with_qos_cons, received_qos, if_neg (by omega), with_qos_nil, List.append_nil]
      rw [nothing, List.nil_append, List.append_nil]
  · rw [reported]
    exact flow.reports

theorem flow_started (flow : Flow sender receiver ab ba published started [])
    (known : message.qos = 1 ∨ message.qos = 2) {stored : Stored} (same : stored.message = message)
    (kept : Kept next (started ++ [stored]) [])
    (unused : message.mid ∉ started.map storedMid)
    (reported : reportedBack next = reportedBack sender) :
    Flow next receiver (ab ++ [.publish message]) ba (published ++ [message])
      (started ++ [stored]) [] := by
  have mid : storedMid stored = message.mid := congrArg Message.mid same
  have moved := received_same (show message.qos > 0 by omega)
  have unique := flow.unique
  rw [List.append_nil] at unique
  have each : ∀ qos, midsOf qos (started ++ [stored]) = midsOf qos started ++
      (withQos qos [message]).map Message.mid := by
    intro qos
    rw [mids_of_append, mids_of_cons, mids_of_nil, List.append_nil, with_qos_cons, with_qos_nil,
      List.append_nil, same, mid]
    split <;> rfl
  constructor
  · exact kept
  · exact fun other member => absurd member List.not_mem_nil
  · rw [List.append_nil, List.map_append, List.nodup_append]
    refine ⟨unique, by simp, ?_⟩
    intro first before second last
    rw [List.map_cons, List.map_nil, List.mem_singleton, mid] at last
    intro equal
    rw [last] at equal
    exact unused (equal ▸ before)
  · rw [each, flow.one, publishes_append, publishes_one, with_qos_append, List.map_append,
      List.append_assoc]
  · rw [each, flow.two, publishes_append, publishes_one, with_qos_append, List.map_append,
      pubrels_append, pubrels_publish, List.append_nil]
    simp only [List.append_assoc]
  · rw [pubrels_append, pubrels_publish, List.append_nil]
    exact flow.held
  · exact flow.heldQos
  · intro qos
    have order := flow.order qos
    rw [List.map_nil, List.append_nil] at order ⊢
    rw [published_append, ← order, publishes_append, publishes_one]
    simp only [List.map_append, with_qos_append, List.map_cons, List.map_nil, List.append_assoc]
  · rw [reported]
    exact flow.reports

theorem flow_waits (flow : Flow sender receiver ab ba published started waiting)
    {stored : Stored} (same : stored.message = message)
    (fresh : stored.dup = false ∧ Sendable stored.message)
    (kept : Kept next started (waiting ++ [stored]))
    (unused : message.mid ∉ (started ++ waiting).map storedMid)
    (reported : reportedBack next = reportedBack sender) :
    Flow next receiver ab ba (published ++ [message]) started (waiting ++ [stored]) := by
  have mid : storedMid stored = message.mid := congrArg Message.mid same
  constructor
  · exact kept
  · intro other member
    rcases List.mem_append.mp member with before | last
    · exact flow.fresh other before
    · rw [List.mem_singleton.mp last]
      exact fresh
  · rw [← List.append_assoc, List.map_append, List.nodup_append]
    refine ⟨flow.unique, by simp, ?_⟩
    intro first before second last
    rw [List.map_cons, List.map_nil, List.mem_singleton, mid] at last
    intro equal
    rw [last] at equal
    exact unused (equal ▸ before)
  · exact flow.one
  · exact flow.two
  · exact flow.held
  · exact flow.heldQos
  · intro qos
    rw [published_append, ← flow.order qos]
    simp only [List.map_append, with_qos_append, List.map_cons, List.map_nil, List.append_assoc,
      same]
  · rw [reported]
    exact flow.reports

theorem answered_split {qos : Nat} {mid : BitVec 16} {rest : List (BitVec 16)}
    {messages : List Stored} (unique : (messages.map storedMid).Nodup)
    (first : midsOf qos messages = mid :: rest) :
    ∃ before cur after, messages = before ++ cur :: after ∧ cur.message.mid = mid ∧
      (∀ stored ∈ before, stored.message.mid ≠ mid) ∧ cur.message.qos = qos ∧
      ∀ other, midsOf other (before ++ after) =
        if other = qos then rest else midsOf other messages := by
  induction messages with
  | nil => exact absurd first.symm (List.cons_ne_nil _ _)
  | cons head messages induction =>
      rw [List.map_cons, List.nodup_cons] at unique
      rw [mids_of_cons] at first
      by_cases same : head.message.qos = qos
      · rw [if_pos same, List.singleton_append] at first
        rcases List.cons.inj first with ⟨named, behind⟩
        refine ⟨[], head, messages, rfl, named, ?_, same, ?_⟩
        · exact fun stored member => absurd member List.not_mem_nil
        · intro other
          rw [List.nil_append, mids_of_cons]
          split
          next equal =>
              rw [equal]
              exact behind
          next differs => rw [if_neg (by omega), List.nil_append]
      · rw [if_neg same, List.nil_append] at first
        rcases induction unique.2 first with ⟨before, cur, after, split, named, clear, level, left⟩
        refine ⟨head :: before, cur, after, ?_, named, ?_, level, ?_⟩
        · rw [split, List.cons_append]
        · rw [List.forall_mem_cons]
          refine ⟨?_, clear⟩
          intro equal
          apply unique.1
          rw [List.mem_map]
          refine ⟨cur, ?_, ?_⟩
          · rw [split]
            exact List.mem_append_right _ List.mem_cons_self
          · rw [storedMid, named, storedMid, equal]
        · intro other
          rw [List.cons_append, mids_of_cons, left, mids_of_cons]
          by_cases equal : other = qos
          · rw [if_pos equal, if_pos equal, equal, if_neg same, List.nil_append]
          · rw [if_neg equal, if_neg equal]

def comingTokens (waiting : List Stored) : List Token :=
  (waiting.take 1).map fun stored => .publish stored.message

theorem coming_in (waiting : List Stored) :
    publishes (comingTokens waiting) ++ waiting.tail.map Stored.message =
        waiting.map Stored.message ∧
      pubrels (comingTokens waiting) = [] ∧
      (comingIn waiting ++ waiting.tail).map storedMid = waiting.map storedMid ∧
      ∀ qos, midsOf qos (comingIn waiting) =
        (withQos qos (publishes (comingTokens waiting))).map Message.mid := by
  cases waiting with
  | nil => exact ⟨rfl, rfl, rfl, fun _ => rfl⟩
  | cons next rest =>
      refine ⟨rfl, rfl, rfl, ?_⟩
      intro qos
      change midsOf qos [underWay next] = (withQos qos [next.message]).map Message.mid
      rw [mids_of_cons, with_qos_cons, mids_of_nil, with_qos_nil, List.append_nil,
        List.append_nil]
      change (if next.message.qos = qos then [next.message.mid] else []) = _
      split <;> rfl

theorem flow_finished {gone : List Token}
    (flow : Flow sender receiver ab (gone ++ ba) published started waiting)
    {before after : List Stored} {cur : Stored} (split : started = before ++ cur :: after)
    (recs : pubrecs gone = [])
    (one : midsOf 1 (before ++ after) =
      pubacks ba ++ (withQos 1 (publishes ab)).map Message.mid)
    (two : midsOf 2 (before ++ after) = pubcomps ba ++
      (pubrels ab ++ (pubrecs ba ++ (withQos 2 (publishes ab)).map Message.mid)))
    (kept : Kept next (before ++ after ++ comingIn waiting) waiting.tail)
    (reports : ∀ mid, (reportedBack next).count mid + (pubacks ba).count mid +
      (pubcomps ba).count mid ≤ (passedMids receiver).count mid) :
    Flow next receiver (ab ++ comingTokens waiting) ba published
      (before ++ after ++ comingIn waiting) waiting.tail := by
  rcases coming_in waiting with ⟨line, rels, mids, level⟩
  have same : pubrecs (gone ++ ba) = pubrecs ba := by
    rw [pubrecs_append, recs, List.nil_append]
  have unique := flow.unique
  constructor
  · exact kept
  · exact fun stored member => flow.fresh stored (List.mem_of_mem_tail member)
  · rw [split] at unique
    rw [List.append_assoc, List.cons_append, List.map_append, List.map_cons] at unique
    have fewer := unique.sublist ((List.sublist_cons_self _ _).append_left _)
    rw [List.map_append] at fewer
    rw [List.append_assoc, List.map_append, mids, List.map_append, List.append_assoc]
    exact fewer
  · rw [mids_of_append, one, level, publishes_append, with_qos_append, List.map_append,
      List.append_assoc]
  · rw [mids_of_append, two, level, publishes_append, with_qos_append, List.map_append,
      pubrels_append, rels, List.append_nil]
    simp only [List.append_assoc]
  · have held := flow.held
    rw [same] at held
    rw [pubrels_append, rels, List.append_nil]
    exact held
  · exact flow.heldQos
  · intro qos
    rw [publishes_append, List.append_assoc, line]
    exact flow.order qos
  · exact reports

theorem flow_puback {mid : BitVec 16}
    (flow : Flow sender receiver ab (.puback mid :: ba) published started waiting) :
    ∃ before cur after, started = before ++ cur :: after ∧ cur.message.mid = mid ∧
      (∀ stored ∈ before, stored.message.mid ≠ mid) ∧
      ∀ next : Client, Kept next (before ++ after ++ comingIn waiting) waiting.tail →
        (∀ other, (reportedBack next).count other ≤
          (reportedBack sender ++ [mid]).count other) →
        Flow next receiver (ab ++ comingTokens waiting) ba published
          (before ++ after ++ comingIn waiting) waiting.tail := by
  have one := flow.one
  have unique := flow.unique
  rw [List.map_append] at unique
  have acks : pubacks (.puback mid :: ba) = mid :: pubacks ba := rfl
  rw [acks, List.cons_append] at one
  rcases answered_split (List.nodup_append.mp unique).1 one with
    ⟨before, cur, after, split, named, clear, qos, left⟩
  refine ⟨before, cur, after, split, named, clear, ?_⟩
  intro next kept reported
  have flow' : Flow sender receiver ab ([.puback mid] ++ ba) published started waiting := flow
  apply flow_finished flow' split rfl
  · rw [left, if_pos rfl]
  · rw [left, if_neg (by decide)]
    exact flow.two
  · exact kept
  · intro other
    have before := flow.reports other
    have now := reported other
    have same : pubcomps (.puback mid :: ba) = pubcomps ba := rfl
    rw [acks, same, List.count_cons] at before
    rw [List.count_append, List.count_singleton] at now
    omega

theorem flow_pubcomp {mid : BitVec 16}
    (flow : Flow sender receiver ab (.pubcomp mid :: ba) published started waiting) :
    ∃ before cur after, started = before ++ cur :: after ∧ cur.message.mid = mid ∧
      (∀ stored ∈ before, stored.message.mid ≠ mid) ∧
      ∀ next : Client, Kept next (before ++ after ++ comingIn waiting) waiting.tail →
        (∀ other, (reportedBack next).count other ≤
          (reportedBack sender ++ [mid]).count other) →
        Flow next receiver (ab ++ comingTokens waiting) ba published
          (before ++ after ++ comingIn waiting) waiting.tail := by
  have two := flow.two
  have unique := flow.unique
  rw [List.map_append] at unique
  have comps : pubcomps (.pubcomp mid :: ba) = mid :: pubcomps ba := rfl
  rw [comps, List.cons_append] at two
  rcases answered_split (List.nodup_append.mp unique).1 two with
    ⟨before, cur, after, split, named, clear, qos, left⟩
  refine ⟨before, cur, after, split, named, clear, ?_⟩
  intro next kept reported
  have flow' : Flow sender receiver ab ([.pubcomp mid] ++ ba) published started waiting := flow
  apply flow_finished flow' split rfl
  · rw [left, if_neg (by decide)]
    exact flow.one
  · rw [left, if_pos rfl]
    rfl
  · exact kept
  · intro other
    have before := flow.reports other
    have now := reported other
    have same : pubacks (.pubcomp mid :: ba) = pubacks ba := rfl
    rw [comps, same, List.count_cons] at before
    rw [List.count_append, List.count_singleton] at now
    omega

theorem flow_pubrec {mid : BitVec 16}
    (flow : Flow sender receiver ab (.pubrec mid :: ba) published started waiting) :
    ∃ before cur after, started = before ++ cur :: after ∧ cur.message.mid = mid ∧
      (∀ stored ∈ before, stored.message.mid ≠ mid) ∧
      ∀ (next : Client) (recorded : Stored), recorded.message = cur.message →
        Kept next (before ++ recorded :: after) waiting →
        reportedBack next = reportedBack sender →
        Flow next receiver (ab ++ [.pubrel mid]) ba published
          (before ++ recorded :: after) waiting := by
  have two := flow.two
  have unique := flow.unique
  rw [List.map_append] at unique
  have recs : pubrecs (.pubrec mid :: ba) = mid :: pubrecs ba := rfl
  have comps : pubcomps (.pubrec mid :: ba) = pubcomps ba := rfl
  rw [recs, comps] at two
  have among : mid ∈ midsOf 2 started := by
    rw [two]
    simp
  rcases List.mem_map.mp among with ⟨cur, filtered, named⟩
  rcases List.append_of_mem (List.mem_filter.mp filtered).1 with ⟨before, after, split⟩
  have first := (List.nodup_append.mp unique).1
  rw [split, List.map_append, List.nodup_append] at first
  refine ⟨before, cur, after, split, named, ?_, ?_⟩
  · intro stored member equal
    apply first.2.2 _ (List.mem_map_of_mem member) _ List.mem_cons_self
    rw [storedMid, equal, named]
  · intro next recorded same kept reported
    have mids : (before ++ recorded :: after).map storedMid = started.map storedMid := by
      rw [split, List.map_append, List.map_append, List.map_cons, List.map_cons, storedMid, same]
      rfl
    have level : ∀ qos, midsOf qos (before ++ recorded :: after) = midsOf qos started := by
      intro qos
      rw [split, mids_of_append, mids_of_append, mids_of_cons, mids_of_cons, storedMid, same]
      rfl
    have rels : pubrels [Token.pubrel mid] = [mid] := rfl
    have nothing : publishes [Token.pubrel mid] = [] := rfl
    constructor
    · exact kept
    · exact flow.fresh
    · rw [List.map_append, mids]
      exact unique
    · rw [level, publishes_append, nothing, List.append_nil]
      exact flow.one
    · rw [level, two, publishes_append, nothing, List.append_nil, pubrels_append, rels]
      simp only [List.append_assoc, List.cons_append, List.nil_append]
    · have held := flow.held
      rw [recs] at held
      rw [held, pubrels_append, rels, List.append_assoc]
      rfl
    · exact flow.heldQos
    · intro qos
      rw [publishes_append, nothing, List.append_nil]
      exact flow.order qos
    · rw [reported]
      exact flow.reports

end Sending

end Gk7102.MqttFlow
