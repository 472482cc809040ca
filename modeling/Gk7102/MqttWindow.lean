import Gk7102.MqttClient
import Gk7102.StepRuns
import Mathlib.Data.List.ModifyLast

/-!
# The window of outgoing messages

`out_messages` holds the messages that are under way and behind them those that wait for
one of them to finish. The handlers keep it so, and so do the retries and the reset at a
reconnect, whatever the connection does.
-/

namespace Gk7102.MqttWindow

open ByteBlocks MqttPacket MqttSending MqttCodec MqttClient

set_option autoImplicit false

/-- The messages under way and those that wait. None waits while there is room. -/
structure Window (max : Int) (started waiting : List Stored) (inflight : Int) : Prop where
  known : ∀ stored ∈ started ++ waiting, stored.message.qos = 1 ∨ stored.message.qos = 2
  begun : ∀ stored ∈ started, stored.state ≠ .invalid
  idle : ∀ stored ∈ waiting, stored.state = .invalid
  count : inflight = started.length
  bound : max ≠ 0 → inflight ≤ max
  full : waiting ≠ [] → inflight = max ∧ max ≠ 0

section Lists

theorem unlink_spec {mid : BitVec 16} {messages rest : List Stored} {cur : Stored}
    (found : unlink mid messages = some (cur, rest)) :
    ∃ before after, messages = before ++ cur :: after ∧ rest = before ++ after ∧
      cur.message.mid = mid ∧ ∀ stored ∈ before, stored.message.mid ≠ mid := by
  induction messages generalizing cur rest with
  | nil => exact absurd found (by simp [unlink])
  | cons first messages induction =>
      rw [unlink] at found
      by_cases here : first.message.mid = mid
      · rw [if_pos here] at found
        rcases Prod.mk.inj (Option.some.inj found) with ⟨same, behind⟩
        rw [← same, ← behind]
        exact ⟨[], messages, rfl, rfl, here, fun stored none => absurd none List.not_mem_nil⟩
      · rw [if_neg here] at found
        cases later : unlink mid messages with
        | none =>
            rw [later] at found
            exact absurd found (by simp)
        | some result =>
            rw [later] at found
            rcases Prod.mk.inj (Option.some.inj found) with ⟨same, behind⟩
            rcases induction later with ⟨before, after, split, without, named, clear⟩
            rw [← same, ← behind]
            refine ⟨first :: before, after, ?_, ?_, named, ?_⟩
            · rw [split, List.cons_append]
            · rw [without, List.cons_append]
            · intro stored member
              rcases List.mem_cons.mp member with front | inner
              · rw [front]
                exact here
              · exact clear stored inner

theorem unlink_first {mid : BitVec 16} {before after : List Stored} {cur : Stored}
    (named : cur.message.mid = mid) (clear : ∀ stored ∈ before, stored.message.mid ≠ mid) :
    unlink mid (before ++ cur :: after) = some (cur, before ++ after) := by
  induction before with
  | nil => rw [List.nil_append, unlink, if_pos named, List.nil_append]
  | cons first before induction =>
      rw [List.forall_mem_cons] at clear
      rw [List.cons_append, unlink, if_neg clear.1, induction clear.2]
      rfl

theorem update_state_first {mid : BitVec 16} {before after : List Stored} {cur : Stored}
    (named : cur.message.mid = mid) (clear : ∀ stored ∈ before, stored.message.mid ≠ mid)
    (state : MsgState) (now : Int) :
    updateState mid state now (before ++ cur :: after) =
      some (before ++ { cur with state := state, timestamp := now } :: after) := by
  induction before with
  | nil => rw [List.nil_append, updateState, if_pos named, List.nil_append]
  | cons first before induction =>
      rw [List.forall_mem_cons] at clear
      rw [List.cons_append, updateState, if_neg clear.1, induction clear.2]
      rfl

theorem update_state_eq (mid : BitVec 16) (state : MsgState) (now : Int)
    (messages : List Stored) :
    (unlink mid messages = none ∧ updateState mid state now messages = none) ∨
      ∃ before cur after, messages = before ++ cur :: after ∧ cur.message.mid = mid ∧
        unlink mid messages = some (cur, before ++ after) ∧
        updateState mid state now messages =
          some (before ++ { cur with state := state, timestamp := now } :: after) := by
  induction messages with
  | nil => exact Or.inl ⟨rfl, rfl⟩
  | cons first messages induction =>
      rw [unlink, updateState]
      by_cases here : first.message.mid = mid
      · rw [if_pos here, if_pos here]
        exact Or.inr ⟨[], first, messages, rfl, here, rfl, rfl⟩
      · rw [if_neg here, if_neg here]
        rcases induction with ⟨none, same⟩ | ⟨before, cur, after, split, named, found, changed⟩
        · left
          rw [none, same]
          exact ⟨rfl, rfl⟩
        · right
          refine ⟨first :: before, cur, after, by rw [split, List.cons_append], named, ?_, ?_⟩
          · rw [found]
            rfl
          · rw [changed]
            rfl

end Lists

section Steps

variable {max inflight : Int} {started waiting : List Stored}

theorem may_start_of_room (below : max ≠ 0 → inflight < max) : mayStart max inflight = true := by
  rw [mayStart, decide_eq_true_iff]
  tauto

theorem wait_state_begun {qos : Nat} (known : qos = 1 ∨ qos = 2) (state : MsgState) :
    waitState qos state ≠ .invalid := by
  rcases known with one | two
  · rw [waitState, if_pos one]
    decide
  · rw [waitState, if_neg (by omega), if_pos two]
    decide

theorem promote_started (begun : ∀ stored ∈ started, stored.state ≠ .invalid)
    (rest : List Stored) (room : mayStart max inflight = true) (link : Link) :
    promote max (started ++ rest) inflight link =
      ((promote max rest inflight link).1, started ++ (promote max rest inflight link).2.1,
        (promote max rest inflight link).2.2.1, (promote max rest inflight link).2.2.2) := by
  induction started with
  | nil => rfl
  | cons first started induction =>
      rw [List.forall_mem_cons] at begun
      rw [List.cons_append, promote, if_pos room, if_neg fun wait => begun.1 wait.2,
        induction begun.2]
      rfl

theorem promote_full (full : mayStart max inflight = false) (messages : List Stored) (link : Link) :
    promote max messages inflight link = (.success, messages, inflight, link) := by
  cases messages with
  | nil => rfl
  | cons first messages => rw [promote, if_neg (by rw [full]; decide)]

def underWay (stored : Stored) : Stored :=
  { stored with state := waitState stored.message.qos stored.state }

/-- The first message that waits, put under way. -/
def comingIn (waiting : List Stored) : List Stored := (waiting.take 1).map underWay

/-- The first message that waits is sent. -/
def sendFirst (link : Link) : List Stored → Link
  | [] => link
  | next :: _ => (sendPublish link next.message next.dup).2

/-- Where one message has been taken out of a window, the first one that waits comes in,
whether or not it can be sent. -/
theorem promote_one (known : ∀ stored ∈ waiting, stored.message.qos = 1 ∨ stored.message.qos = 2)
    (begun : ∀ stored ∈ started, stored.state ≠ .invalid)
    (idle : ∀ stored ∈ waiting, stored.state = .invalid) (room : max ≠ 0 → inflight < max)
    (one : waiting ≠ [] → inflight + 1 = max ∧ max ≠ 0) (link : Link) :
    (promote max (started ++ waiting) inflight link).2 =
      (started ++ comingIn waiting ++ waiting.tail, inflight + (comingIn waiting).length,
        sendFirst link waiting) := by
  rw [promote_started begun waiting (may_start_of_room room)]
  cases waiting with
  | nil => simp [promote, comingIn, sendFirst]
  | cons next rest =>
      have first := known next List.mem_cons_self
      have waits := idle next List.mem_cons_self
      have now := one (List.cons_ne_nil _ _)
      have closed : mayStart max (inflight + 1) = false := by
        rw [mayStart, decide_eq_false_iff_not]
        omega
      rw [promote, if_pos (may_start_of_room room), if_pos ⟨by omega, waits⟩, sendFirst]
      dsimp only
      rcases sent : sendPublish link next.message next.dup with ⟨rc, link'⟩
      cases rc <;> simp only [promote_full closed] <;> simp [comingIn, underWay]

theorem window_start (window : Window max started waiting inflight) {stored : Stored}
    (known : stored.message.qos = 1 ∨ stored.message.qos = 2) (begun : stored.state ≠ .invalid)
    (room : mayStart max inflight = true) :
    waiting = [] ∧ Window max (started ++ [stored]) [] (inflight + 1) := by
  rw [mayStart, decide_eq_true_iff] at room
  have none : waiting = [] := by
    by_contra some
    have full := window.full some
    omega
  refine ⟨none, ?_⟩
  constructor
  · intro other member
    rw [List.append_nil] at member
    rcases List.mem_append.mp member with before | last
    · exact window.known other (List.mem_append_left _ before)
    · rw [List.mem_singleton.mp last]
      exact known
  · intro other member
    rcases List.mem_append.mp member with before | last
    · exact window.begun other before
    · rw [List.mem_singleton.mp last]
      exact begun
  · intro other member
    exact absurd member List.not_mem_nil
  · rw [window.count, List.length_append, List.length_singleton]
    rfl
  · intro limited
    omega
  · intro some
    exact absurd rfl some

theorem window_wait (window : Window max started waiting inflight) {stored : Stored}
    (known : stored.message.qos = 1 ∨ stored.message.qos = 2) (waits : stored.state = .invalid)
    (closed : mayStart max inflight = false) :
    Window max started (waiting ++ [stored]) inflight := by
  rw [mayStart, decide_eq_false_iff_not] at closed
  have bound := window.bound
  constructor
  · intro other member
    rw [← List.append_assoc] at member
    rcases List.mem_append.mp member with before | last
    · exact window.known other before
    · rw [List.mem_singleton.mp last]
      exact known
  · exact window.begun
  · intro other member
    rcases List.mem_append.mp member with before | last
    · exact window.idle other before
    · rw [List.mem_singleton.mp last]
      exact waits
  · exact window.count
  · exact bound
  · intro _
    have limited : max ≠ 0 := fun zero => closed (Or.inl zero)
    have most := bound limited
    omega

/-- One message has finished and the first one that waits has come in. -/
theorem window_finish {before after : List Stored} {cur : Stored}
    (window : Window max (before ++ cur :: after) waiting inflight) :
    Window max (before ++ after ++ comingIn waiting) waiting.tail
      (inflight - 1 + (comingIn waiting).length) := by
  have count := window.count
  have bound := window.bound
  have full := window.full
  rw [List.length_append, List.length_cons] at count
  have known : ∀ stored ∈ before ++ after ++ waiting,
      stored.message.qos = 1 ∨ stored.message.qos = 2 := by
    intro stored member
    apply window.known stored
    simp only [List.mem_append, List.mem_cons] at member ⊢
    tauto
  have begun : ∀ stored ∈ before ++ after, stored.state ≠ .invalid := by
    intro stored member
    apply window.begun stored
    simp only [List.mem_append, List.mem_cons] at member ⊢
    tauto
  cases waiting with
  | nil =>
      constructor
      · simpa [comingIn] using known
      · simpa [comingIn] using begun
      · exact fun stored member => absurd member List.not_mem_nil
      · simp only [comingIn, List.take_nil, List.map_nil, List.length_nil, List.length_append]
        omega
      · intro limited
        have most := bound limited
        simp only [comingIn, List.take_nil, List.map_nil, List.length_nil]
        omega
      · exact fun some => absurd rfl some
  | cons next waiting =>
      have first := known next (by simp)
      have single : comingIn (next :: waiting) = [underWay next] := rfl
      rw [single, List.tail_cons, List.length_singleton]
      have same : inflight - 1 + ((1 : Nat) : Int) = inflight := by omega
      rw [same]
      constructor
      · intro stored member
        simp only [List.mem_append, List.mem_singleton] at member known
        rcases member with (front | last) | back
        · exact known stored (Or.inl front)
        · rw [last]
          exact first
        · exact known stored (Or.inr (List.mem_cons_of_mem _ back))
      · intro stored member
        rcases List.mem_append.mp member with front | last
        · exact begun stored front
        · rw [List.mem_singleton.mp last]
          exact wait_state_begun first next.state
      · exact fun stored member => window.idle stored (List.mem_cons_of_mem _ member)
      · rw [List.length_append, List.length_append, List.length_singleton]
        omega
      · exact bound
      · exact fun _ => full (List.cons_ne_nil _ _)

/-- A message under way may go on to its next state. -/
theorem window_change {before after : List Stored} {cur next : Stored}
    (window : Window max (before ++ cur :: after) waiting inflight)
    (same : next.message = cur.message) (begun : next.state ≠ .invalid) :
    Window max (before ++ next :: after) waiting inflight := by
  constructor
  · intro stored member
    simp only [List.append_assoc, List.mem_append, List.cons_append, List.mem_cons] at member
    rcases member with front | here | back | behind
    · exact window.known stored (by simp [front])
    · rw [here, same]
      exact window.known cur (by simp)
    · exact window.known stored (by simp [back])
    · exact window.known stored (by simp [behind])
  · intro stored member
    simp only [List.mem_append, List.mem_cons] at member
    rcases member with front | here | back
    · exact window.begun stored (by simp [front])
    · rw [here]
      exact begun
    · exact window.begun stored (by simp [back])
  · exact window.idle
  · have count := window.count
    rw [List.length_append, List.length_cons] at count ⊢
    exact count
  · exact window.bound
  · exact window.full

end Steps

section Operations

variable {client : Client} {started waiting : List Stored}

/-- The state of the books of a client. -/
abbrev Kept (client : Client) (started waiting : List Stored) : Prop :=
  client.outMessages = started ++ waiting ∧
    Window client.maxInflightMessages started waiting client.inflightMessages

theorem publish_kept_spec (kept : Kept client started waiting) (message : Message)
    (known : message.qos = 1 ∨ message.qos = 2) :
    (mayStart client.maxInflightMessages client.inflightMessages = true ∧ waiting = [] ∧
        (publishKept client message).2 = { client with
          outMessages :=
            started ++ [underWay ⟨message, .invalid, client.link.now, false⟩]
          inflightMessages := client.inflightMessages + 1
          link := (sendPublish client.link message false).2 }) ∨
      (mayStart client.maxInflightMessages client.inflightMessages = false ∧
        (publishKept client message).2 = { client with
          outMessages :=
            started ++ (waiting ++ [⟨message, .invalid, client.link.now, false⟩]) }) := by
  have positive : message.qos > 0 := by omega
  rw [publishKept, messageQueueOut]
  dsimp only
  rw [if_pos positive]
  cases room : mayStart client.maxInflightMessages client.inflightMessages with
  | true =>
      left
      have start := window_start kept.2
        (show (underWay ⟨message, .invalid, client.link.now, false⟩).message.qos = 1 ∨
          (underWay ⟨message, .invalid, client.link.now, false⟩).message.qos = 2 from known)
        (wait_state_begun known .invalid) room
      refine ⟨rfl, start.1, ?_⟩
      rw [kept.1, start.1, List.append_nil, if_pos rfl]
      dsimp only
      rw [List.modifyLast_concat]
      rfl
  | false =>
      right
      refine ⟨rfl, ?_⟩
      rw [kept.1, if_neg (by decide), List.append_assoc]

theorem remove_out_spec (kept : Kept client started waiting) {mid : BitVec 16}
    {before after : List Stored} {cur : Stored} (split : started = before ++ cur :: after)
    (named : cur.message.mid = mid) (clear : ∀ stored ∈ before, stored.message.mid ≠ mid) :
    (messageRemoveOut client mid).2 = { client with
      outMessages := before ++ after ++ comingIn waiting ++ waiting.tail
      inflightMessages := client.inflightMessages - 1 + (comingIn waiting).length
      link := sendFirst client.link waiting } := by
  have window := kept.2
  have bound := window.bound
  have full := window.full
  have begun : ∀ stored ∈ before ++ after, stored.state ≠ .invalid := by
    intro stored member
    apply window.begun stored
    rw [split]
    simp only [List.mem_append, List.mem_cons] at member ⊢
    tauto
  have found : unlink mid client.outMessages = some (cur, before ++ after ++ waiting) := by
    rw [kept.1, split, List.append_assoc, List.cons_append, unlink_first named clear,
      List.append_assoc]
  have qos : cur.message.qos > 0 := by
    have known := window.known cur (by rw [split]; simp)
    omega
  have room : client.maxInflightMessages ≠ 0 →
      client.inflightMessages - 1 < client.maxInflightMessages := by
    intro limited
    have most := bound limited
    omega
  have one : waiting ≠ [] → client.inflightMessages - 1 + 1 = client.maxInflightMessages ∧
      client.maxInflightMessages ≠ 0 := by
    intro some
    have now := full some
    exact ⟨by omega, now.2⟩
  have promoted := promote_one (fun stored member => window.known stored
    (List.mem_append_right _ member)) begun window.idle room one client.link
  rw [messageRemoveOut, found]
  dsimp only
  rw [if_pos qos]
  rcases out : promote client.maxInflightMessages (before ++ after ++ waiting)
    (client.inflightMessages - 1) client.link with ⟨rc, messages, inflight, link⟩
  rw [out] at promoted
  rcases Prod.mk.inj promoted with ⟨first, rest⟩
  rcases Prod.mk.inj rest with ⟨second, third⟩
  dsimp only
  rw [first, second, third]

theorem publish_kept (kept : Kept client started waiting) (message : Message)
    (known : message.qos = 1 ∨ message.qos = 2) :
    (publishKept client message).2.maxInflightMessages = client.maxInflightMessages ∧
      ∃ started waiting, Kept (publishKept client message).2 started waiting := by
  rcases publish_kept_spec kept message known with ⟨room, none, out⟩ | ⟨closed, out⟩
  · rw [out]
    refine ⟨rfl, started ++ [underWay ⟨message, .invalid, client.link.now, false⟩], [], ?_,
      (window_start kept.2 known (wait_state_begun known .invalid) room).2⟩
    rw [List.append_nil]
  · rw [out]
    exact ⟨rfl, started, _, rfl, window_wait kept.2 known rfl closed⟩

/-- A message under way stands in front of those that wait. -/
theorem started_of_begun (window : Window client.maxInflightMessages started waiting
      client.inflightMessages) {before after : List Stored} {cur : Stored}
    (split : started ++ waiting = before ++ cur :: after) (begun : cur.state ≠ .invalid) :
    ∃ rest, started = before ++ cur :: rest ∧ after = rest ++ waiting := by
  rcases List.append_eq_append_iff.mp split with ⟨middle, front, back⟩ | ⟨middle, front, back⟩
  · have waits : cur ∈ waiting := by
      rw [back]
      exact List.mem_append_right _ List.mem_cons_self
    exact absurd (window.idle cur waits) begun
  · cases middle with
    | nil =>
        have waits : cur ∈ waiting := by
          rw [List.nil_append] at back
          rw [← back]
          exact List.mem_cons_self
        exact absurd (window.idle cur waits) begun
    | cons first rest =>
        rcases List.cons.inj back with ⟨same, behind⟩
        exact ⟨rest, by rw [front, same], behind⟩

def key (stored : Stored) : Message × MsgState := (stored.message, stored.state)

theorem forall_of_keys (holds : Message × MsgState → Prop) {messages others : List Stored}
    (same : messages.map key = others.map key) (all : ∀ stored ∈ others, holds (key stored)) :
    ∀ stored ∈ messages, holds (key stored) := by
  intro stored member
  have image : key stored ∈ others.map key := by
    rw [← same]
    exact List.mem_map_of_mem member
  rcases List.mem_map.mp image with ⟨other, before, equal⟩
  rw [← equal]
  exact all other before

theorem kept_of_keys (kept : Kept client started waiting) {next : Client}
    (same : next.outMessages.map key = client.outMessages.map key)
    (count : next.inflightMessages = client.inflightMessages)
    (max : next.maxInflightMessages = client.maxInflightMessages) :
    ∃ started waiting, Kept next started waiting := by
  rw [kept.1, List.map_append] at same
  rcases List.map_eq_append_iff.mp same with ⟨started', waiting', split, front, back⟩
  have window := kept.2
  have sizes : started'.length = started.length := by
    have lengths := congrArg List.length front
    rw [List.length_map, List.length_map] at lengths
    exact lengths
  refine ⟨started', waiting', split, ?_⟩
  rw [count, max]
  constructor
  · apply forall_of_keys (fun key => key.1.qos = 1 ∨ key.1.qos = 2) _ window.known
    rw [List.map_append, List.map_append, front, back]
  · exact forall_of_keys (fun key => key.2 ≠ .invalid) front window.begun
  · exact forall_of_keys (fun key => key.2 = .invalid) back window.idle
  · rw [sizes]
    exact window.count
  · exact window.bound
  · intro some
    apply window.full
    intro none
    rw [none] at back
    exact some (List.map_eq_nil_iff.mp back)

theorem retry_message_key (stored : Stored) (link : Link) :
    key (retryMessage stored link).1 = key stored := by
  unfold retryMessage
  split <;> rfl

theorem retry_keys (retry now : Int) (messages : List Stored) (link : Link) :
    (retryCheckActual retry now messages link).1.map key = messages.map key := by
  induction messages generalizing link with
  | nil => rfl
  | cons cur rest induction =>
      have same : key (if cur.timestamp + retry < now then retryMessage cur link
          else (cur, link)).1 = key cur := by
        split
        · exact retry_message_key cur link
        · rfl
      rw [retryCheckActual]
      rcases one : (if cur.timestamp + retry < now then retryMessage cur link else (cur, link)) with
        ⟨again, link'⟩
      rw [one] at same
      dsimp only at same ⊢
      rw [List.map_cons, List.map_cons, induction, same]

/-- A message that stays under way across a reconnect. -/
def resumed (stored : Stored) : Stored :=
  { stored with
    timestamp := 0
    state := if stored.message.qos = 1 then .waitForPuback else stored.state }

theorem reset_started (max inflight : Int)
    (known : ∀ stored ∈ started, stored.message.qos = 1 ∨ stored.message.qos = 2)
    (room : max ≠ 0 → inflight + started.length ≤ max) (rest : List Stored) :
    resetOut max (started ++ rest) inflight =
      (started.map resumed ++ (resetOut max rest (inflight + started.length)).1,
        (resetOut max rest (inflight + started.length)).2) := by
  induction started generalizing inflight with
  | nil => simp
  | cons first started induction =>
      rw [List.forall_mem_cons] at known
      rw [List.length_cons] at room
      have still : mayStart max inflight = true := may_start_of_room fun limited => by
        have most := room limited
        omega
      have positive : first.message.qos > 0 := by
        have one := known.1
        omega
      have count : inflight + 1 + started.length = inflight + (first :: started).length := by
        rw [List.length_cons]
        omega
      have later := induction (inflight + 1) known.2 fun limited => by
        have most := room limited
        omega
      rw [List.cons_append, resetOut]
      dsimp only
      rw [if_pos still, if_pos positive, later, count]
      dsimp only
      rw [List.map_cons, List.cons_append, resumed]
      split <;> rfl

theorem reset_waiting {max inflight : Int} (closed : mayStart max inflight = false)
    (messages : List Stored) :
    resetOut max messages inflight =
      (messages.map fun stored => { stored with timestamp := 0, state := .invalid }, inflight) := by
  induction messages with
  | nil => rfl
  | cons first messages induction =>
      rw [resetOut]
      dsimp only
      rw [if_neg (by rw [closed]; decide), induction]
      rfl

theorem reset_kept (kept : Kept client started waiting) :
    ∃ started waiting, Kept (messagesReconnectReset client) started waiting := by
  have window := kept.2
  have count := window.count
  have full := window.full
  have begun := reset_started client.maxInflightMessages 0
    (fun stored member => window.known stored (List.mem_append_left _ member))
    (fun limited => by
      have most := window.bound limited
      omega) waiting
  rw [Int.zero_add, ← count] at begun
  have rest : resetOut client.maxInflightMessages waiting client.inflightMessages =
      (waiting.map fun stored => { stored with timestamp := 0, state := .invalid },
        client.inflightMessages) := by
    cases waiting with
    | nil => rfl
    | cons next waiting =>
        apply reset_waiting
        have now := full (List.cons_ne_nil _ _)
        rw [mayStart, decide_eq_false_iff_not]
        omega
  rw [messagesReconnectReset, kept.1, begun, rest]
  refine ⟨started.map resumed, _, rfl, ?_⟩
  constructor
  · intro stored member
    rw [List.mem_append, List.mem_map, List.mem_map] at member
    rcases member with ⟨old, before, rfl⟩ | ⟨old, before, rfl⟩
    · exact window.known old (List.mem_append_left _ before)
    · exact window.known old (List.mem_append_right _ before)
  · intro stored member
    rcases List.mem_map.mp member with ⟨old, before, rfl⟩
    rw [resumed]
    dsimp only
    split
    · decide
    · exact window.begun old before
  · intro stored member
    rcases List.mem_map.mp member with ⟨old, before, rfl⟩
    rfl
  · rw [List.length_map]
    exact count
  · exact window.bound
  · intro some
    apply full
    intro none
    rw [none] at some
    exact some rfl

structure SameOut (client next : Client) : Prop where
  messages : next.outMessages = client.outMessages
  count : next.inflightMessages = client.inflightMessages
  max : next.maxInflightMessages = client.maxInflightMessages

theorem same_out_refl (client : Client) : SameOut client client := ⟨rfl, rfl, rfl⟩

theorem same_out_kept (kept : Kept client started waiting) {next : Client}
    (same : SameOut client next) : ∃ started waiting, Kept next started waiting := by
  refine ⟨started, waiting, ?_⟩
  rw [Kept, same.messages, same.count, same.max]
  exact kept

/-- A handler that came to its end has left the window as it should be. -/
def Leaves (client : Client) (result : Handled) : Prop :=
  ∀ rc next, result = .ok (rc, next) →
    next.maxInflightMessages = client.maxInflightMessages ∧
      ∃ started waiting, Kept next started waiting

theorem leaves_ok {rc : MosqErr} {next : Client}
    (max : next.maxInflightMessages = client.maxInflightMessages)
    (kept : ∃ started waiting, Kept next started waiting) : Leaves client (.ok (rc, next)) := by
  intro rc' next' same
  rcases Prod.mk.inj (Except.ok.inj same) with ⟨_, rfl⟩
  exact ⟨max, kept⟩

theorem leaves_same (kept : Kept client started waiting) {rc : MosqErr} {next : Client}
    (same : SameOut client next) : Leaves client (.ok (rc, next)) :=
  leaves_ok same.max (same_out_kept kept same)

theorem leaves_error (client : Client) (stop : Stop) : Leaves client (.error stop) :=
  fun _ _ same => absurd same (by simp)

theorem leaves_bind {Result : Type} {parsed : Except Stop Result} {next : Result → Handled}
    (later : ∀ result, parsed = .ok result → Leaves client (next result)) :
    Leaves client (parsed >>= next) := by
  cases parsed with
  | error stop => exact leaves_error client stop
  | ok result => exact later result rfl

theorem handle_publish_leaves (kept : Kept client started waiting) (packet : InPacket) :
    Leaves client (handlePublish client packet) := by
  apply leaves_bind
  intro received parsed
  dsimp only
  split
  · exact leaves_same kept ⟨rfl, rfl, rfl⟩
  · exact leaves_same kept ⟨rfl, rfl, rfl⟩
  · exact leaves_same kept ⟨rfl, rfl, rfl⟩
  · exact leaves_error client _

theorem handle_pubackcomp_leaves (kept : Kept client started waiting) {packet : InPacket}
    (sent : ∀ mid stored rest, parseMid packet = .ok mid →
      unlink mid client.outMessages = some (stored, rest) → stored.state ≠ .invalid) :
    Leaves client (handlePubackcomp client packet) := by
  apply leaves_bind
  intro mid parsed
  have removed : (messageRemoveOut client mid).2.maxInflightMessages =
      client.maxInflightMessages ∧
      ∃ started waiting, Kept (messageRemoveOut client mid).2 started waiting := by
    cases found : unlink mid client.outMessages with
    | none =>
        rw [messageRemoveOut, found]
        exact ⟨rfl, started, waiting, kept⟩
    | some result =>
        rcases result with ⟨cur, rest⟩
        have begun := sent mid cur rest parsed found
        rcases unlink_spec found with ⟨before, after, split, _, named, clear⟩
        rw [kept.1] at split
        rcases started_of_begun kept.2 split begun with ⟨behind, front, _⟩
        have window := kept.2
        rw [remove_out_spec kept front named clear]
        rw [front] at window
        exact ⟨rfl, _, _, rfl, window_finish window⟩
  dsimp only
  split
  · exact leaves_ok removed.1 removed.2
  · exact leaves_ok removed.1 removed.2

theorem handle_pubrec_leaves (kept : Kept client started waiting) {packet : InPacket}
    (sent : ∀ mid stored rest, parseMid packet = .ok mid →
      unlink mid client.outMessages = some (stored, rest) → stored.state ≠ .invalid) :
    Leaves client (handlePubrec client packet) := by
  apply leaves_bind
  intro mid parsed
  have updated : (messageOutUpdate client mid .waitForPubcomp).2.maxInflightMessages =
      client.maxInflightMessages ∧ ∃ started waiting,
        Kept (messageOutUpdate client mid .waitForPubcomp).2 started waiting := by
    rw [messageOutUpdate]
    rcases update_state_eq mid .waitForPubcomp client.link.now client.outMessages with
      ⟨_, unchanged⟩ | ⟨before, cur, after, split, named, found, changed⟩
    · rw [unchanged]
      exact ⟨rfl, started, waiting, kept⟩
    · have begun := sent mid cur _ parsed found
      rw [kept.1] at split
      rcases started_of_begun kept.2 split begun with ⟨rest, front, behind⟩
      have window := kept.2
      rw [changed, behind]
      rw [front] at window
      refine ⟨rfl, before ++ { cur with state := .waitForPubcomp, timestamp := client.link.now } ::
        rest, waiting, by simp, ?_⟩
      exact window_change window rfl (show MsgState.waitForPubcomp ≠ .invalid by decide)
  exact leaves_ok updated.1 updated.2

theorem release_held_same (client : Client) (mid : BitVec 16) :
    SameOut client (releaseHeld client mid) := by
  rw [releaseHeld, messageRemoveIn]
  cases unlink mid client.inMessages with
  | none => exact same_out_refl client
  | some result => exact ⟨rfl, rfl, rfl⟩

theorem handle_pubrel_leaves (kept : Kept client started waiting) (packet : InPacket) :
    Leaves client (handlePubrel client packet) := by
  rw [handlePubrel]
  split
  · exact leaves_error client _
  · apply leaves_bind
    intro mid parsed
    have same := release_held_same client mid
    exact leaves_same kept ⟨same.messages, same.count, same.max⟩

theorem handle_connack_leaves (kept : Kept client started waiting) (packet : InPacket) :
    Leaves client (handleConnack client packet) := by
  apply leaves_bind
  intro result parsed
  dsimp only
  split
  · exact leaves_same kept ⟨rfl, rfl, rfl⟩
  · exact leaves_same kept ⟨rfl, rfl, rfl⟩

/-- The peer answers only messages that are under way. -/
def Answers (client : Client) (packet : InPacket) : Prop :=
  packet.command &&& 0xF0 ∈ [PUBACK, PUBCOMP, PUBREC] →
    ∀ mid stored rest, parseMid packet = .ok mid →
      unlink mid client.outMessages = some (stored, rest) → stored.state ≠ .invalid

theorem packet_handle_leaves (kept : Kept client started waiting) {packet : InPacket}
    (answers : Answers client packet) : Leaves client (packetHandle client packet) := by
  apply packet_handle_cases (Leaves client)
  · exact leaves_same kept ⟨rfl, rfl, rfl⟩
  · exact leaves_same kept ⟨rfl, rfl, rfl⟩
  · intro acknowledged
    apply handle_pubackcomp_leaves kept (answers _)
    exact List.mem_append_left [PUBREC] acknowledged
  · intro _
    exact handle_publish_leaves kept packet
  · intro received
    exact handle_pubrec_leaves kept (answers (by rw [received]; decide))
  · intro _
    exact handle_pubrel_leaves kept packet
  · exact handle_connack_leaves kept packet
  · apply leaves_bind
    intro result parsed
    exact leaves_same kept ⟨rfl, rfl, rfl⟩
  · apply leaves_bind
    intro mid parsed
    exact leaves_same kept ⟨rfl, rfl, rfl⟩
  · intro _
    exact leaves_error client _

end Operations

section Runs

/-- What happens to a client: the program publishes, a packet comes, overdue answers are
looked for, the connection is made anew, or the link changes in any way. -/
inductive Op where
  | publish (topic payload : List Byte) (qos : Nat) (retain : Bool)
  | handle (packet : InPacket)
  | retry
  | reset
  | link (link : Link)

def step (client : Client) : Op → Client
  | .publish topic payload qos retain => (publish client topic payload qos retain).2
  | .handle packet =>
      match packetHandle client packet with
      | .ok (_, client) => client
      | .error _ => client
  | .retry => messageRetryCheck client
  | .reset => messagesReconnectReset client
  | .link link => { client with link := link }

/-- Among the answers of the peer there is none for a message that still waits. -/
def Answered (client : Client) : Op → Prop
  | .handle packet => Answers client packet
  | _ => True

variable {client : Client}

theorem publish_leaves {started waiting : List Stored} (kept : Kept client started waiting)
    (topic payload : List Byte) (qos : Nat) (retain : Bool) :
    (publish client topic payload qos retain).2.maxInflightMessages = client.maxInflightMessages ∧
      ∃ started waiting, Kept (publish client topic payload qos retain).2 started waiting := by
  rw [publish]
  cases refused : publishRefused topic payload qos with
  | some rc => exact ⟨rfl, started, waiting, kept⟩
  | none =>
      have small : ¬ qos > 2 := by
        intro large
        rw [publishRefused, if_pos large] at refused
        exact absurd refused (by simp)
      dsimp only
      split
      next => exact ⟨rfl, started, waiting, kept⟩
      next positive =>
          have known : qos = 1 ∨ qos = 2 := by omega
          have same : Kept { client with lastMid := midGenerate client.lastMid } started waiting :=
            kept
          exact publish_kept same ⟨midGenerate client.lastMid, topic, payload, qos, retain⟩ known

def Holds (max : Int) (client : Client) : Prop :=
  client.maxInflightMessages = max ∧ ∃ started waiting, Kept client started waiting

theorem step_holds (max : Int) (client : Client) (op : Op) (holds : Holds max client)
    (answered : Answered client op) : Holds max (step client op) := by
  rcases holds with ⟨limit, started, waiting, kept⟩
  cases op with
  | publish topic payload qos retain =>
      have left := publish_leaves kept topic payload qos retain
      rw [limit] at left
      exact left
  | handle packet =>
      have left := packet_handle_leaves kept answered
      rw [step]
      cases result : packetHandle client packet with
      | error stop => exact ⟨limit, started, waiting, kept⟩
      | ok pair =>
          have after := left pair.1 pair.2 result
          rw [limit] at after
          exact after
  | retry =>
      have same : (messageRetryCheck client).outMessages.map key = client.outMessages.map key :=
        retry_keys _ _ _ _
      have left : ∃ started waiting, Kept (messageRetryCheck client) started waiting :=
        kept_of_keys kept same rfl rfl
      exact ⟨limit, left⟩
  | reset => exact ⟨limit, reset_kept kept⟩
  | link link => exact ⟨limit, started, waiting, kept⟩

/-- From a client without messages on, as long as the peer answers only what was sent: the
messages under way come first, there are never more of them than allowed, and none waits
while there is room, through all reconnects and whatever the connection does. -/
theorem window_along_run (start : Client) (ops : List Op)
    (none : start.outMessages = [] ∧ start.inflightMessages = 0)
    (nonneg : 0 ≤ start.maxInflightMessages)
    (answered : StepRuns.EveryStep step Answered start ops) :
    StepRuns.AlongRun step (fun client => ∃ started waiting,
      client.outMessages = started ++ waiting ∧
        Window start.maxInflightMessages started waiting client.inflightMessages) start ops := by
  have empty : Window start.maxInflightMessages [] [] 0 := by
    constructor
    · exact fun stored member => absurd member List.not_mem_nil
    · exact fun stored member => absurd member List.not_mem_nil
    · exact fun stored member => absurd member List.not_mem_nil
    · rfl
    · exact fun _ => nonneg
    · exact fun some => absurd rfl some
  have begins : Holds start.maxInflightMessages start := by
    refine ⟨rfl, [], [], none.1, ?_⟩
    rw [none.2]
    exact empty
  apply StepRuns.along_run_of_every_step _ (step_holds start.maxInflightMessages) start begins ops
    answered
  intro client holds
  rcases holds with ⟨limit, started, waiting, kept⟩
  rw [← limit]
  exact ⟨started, waiting, kept⟩

/-- Room for one message: the second waits until the first is acknowledged, and stays under way
through a reconnect. -/
theorem window_along_run_of_two :
    let start := { mosquittoReinitialise [0x61] true 0 with maxInflightMessages := 1 }
    let waits : List Op := [.publish [0x61] [0x62] 1 false, .publish [0x61] [] 2 false,
      .handle ⟨0x30, 1, 128, 3, [0x00, 0x01, 0x61], 0, 0⟩]
    let acknowledged : List Op := [.handle ⟨0x40, 2, 128, 2, [0x00, 0x01], 0, 0⟩, .reset]
    StepRuns.AlongRun step (fun client => ∃ started waiting,
      client.outMessages = started ++ waiting ∧
        Window start.maxInflightMessages started waiting client.inflightMessages) start
      (waits ++ acknowledged) ∧
    (StepRuns.run step start waits).outMessages.map Stored.state = [.waitForPuback, .invalid] ∧
    (StepRuns.run step start (waits ++ acknowledged)).outMessages.map Stored.state =
      [.waitForPubrec] := by
  intro start waits acknowledged
  refine ⟨?_, by decide +kernel, by decide +kernel⟩
  apply window_along_run _ _ (by decide) (by decide)
  refine ⟨trivial, trivial, fun acknowledges => absurd acknowledges (by decide), ?_, trivial,
    trivial⟩
  intro _ mid stored rest parsed found
  have named : parseMid ⟨0x40, 2, 128, 2, [0x00, 0x01], 0, 0⟩ = .ok 1 := by decide
  obtain rfl := Except.ok.inj (named.symm.trans parsed)
  have under : (unlink 1 (StepRuns.run step start waits).outMessages).map (fun pair =>
      pair.1.state) = some .waitForPuback := by decide +kernel
  rw [show unlink 1 (StepRuns.run step start waits).outMessages = _ from found] at under
  have state : stored.state = .waitForPuback := Option.some.inj under
  rw [state]
  decide

end Runs

end Gk7102.MqttWindow
