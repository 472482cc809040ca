import Gk7102.MqttHeld
import Mathlib.Data.List.Nodup

/-!
# Message ids

PUBLISH, SUBSCRIBE and UNSUBSCRIBE draw their ids from one counter, which leaves out 0. Two
messages that are kept can have the same id only after it has gone all the way round.
-/

namespace Gk7102.MqttIds

open ByteBlocks MqttPacket MqttReading MqttSending MqttCodec MqttTopics MqttClient MqttWindow

set_option autoImplicit false

section Source

/-- What `_mosquitto_send_subscribe` and `_mosquitto_send_unsubscribe` share. The id is drawn
once the packet has been allocated. -/
def sendWithNewMid (client : Client) (packet : BitVec 16 → Except MosqErr OutPacket) :
    MosqErr × Client :=
  let localMid := midGenerate client.lastMid
  match packet localMid with
  | .error rc => (rc, client)
  | .ok packet =>
      let (rc, link) := packetQueue client.link packet
      (rc, { client with lastMid := localMid, link := link })

def subscribe (client : Client) (sub : List Byte) (qos : Byte) : MosqErr × Client :=
  if client.link.connected = false then (.noConn, client)
  else if subTopicCheck sub ≠ .success then (.inval, client)
  else sendWithNewMid client fun localMid => sendSubscribe localMid sub qos

def unsubscribe (client : Client) (sub : List Byte) : MosqErr × Client :=
  if client.link.connected = false then (.noConn, client)
  else if subTopicCheck sub ≠ .success then (.inval, client)
  else sendWithNewMid client fun localMid => sendUnsubscribe localMid sub

inductive Op where
  | window (op : MqttWindow.Op)
  | subscribe (sub : List Byte) (qos : Byte)
  | unsubscribe (sub : List Byte)

def step (client : Client) : Op → Client
  | .window op => MqttWindow.step client op
  | .subscribe sub qos => (subscribe client sub qos).2
  | .unsubscribe sub => (unsubscribe client sub).2

def asks : Op → Bool
  | .window (.publish _ _ _ _) => true
  | .window _ => false
  | .subscribe _ _ => true
  | .unsubscribe _ => true

end Source

section Counter

def drawn (lastMid : BitVec 16) : Nat → BitVec 16
  | 0 => lastMid
  | count + 1 => midGenerate (drawn lastMid count)

theorem mid_generate_to_nat (lastMid : BitVec 16) :
    (midGenerate lastMid).toNat = lastMid.toNat % 65535 + 1 := by
  have small := lastMid.isLt
  rw [midGenerate]
  split
  next zero =>
      have around : (lastMid + 1).toNat = 0 := by rw [zero]; rfl
      rw [BitVec.toNat_add] at around
      have last : lastMid.toNat = 65535 := by
        simp at around
        omega
      rw [zero, last]
      rfl
  next some =>
      have inside : lastMid.toNat ≠ 65535 := by
        intro last
        apply some
        apply BitVec.eq_of_toNat_eq
        rw [BitVec.toNat_add, last]
        rfl
      rw [BitVec.toNat_add]
      simp
      omega

theorem drawn_to_nat (lastMid : BitVec 16) (count : Nat) :
    (drawn lastMid (count + 1)).toNat = (lastMid.toNat + count) % 65535 + 1 := by
  induction count with
  | zero => exact mid_generate_to_nat lastMid
  | succ count induction =>
      rw [drawn, mid_generate_to_nat, induction]
      omega

/-- No id comes a second time before all the others have come. -/
theorem drawn_injective (lastMid : BitVec 16) {one other : Nat} (oneFits : one < 65535)
    (otherFits : other < 65535) (same : drawn lastMid (one + 1) = drawn lastMid (other + 1)) :
    one = other := by
  have value := congrArg BitVec.toNat same
  rw [drawn_to_nat, drawn_to_nat] at value
  omega

theorem drawn_ne_zero (lastMid : BitVec 16) (count : Nat) : drawn lastMid (count + 1) ≠ 0 := by
  intro zero
  have value := congrArg BitVec.toNat zero
  rw [drawn_to_nat] at value
  exact absurd value (Nat.succ_ne_zero _)

def firstIds (lastMid : BitVec 16) (count : Nat) : List (BitVec 16) :=
  (List.range count).map fun index => drawn lastMid (index + 1)

theorem first_ids_succ (lastMid : BitVec 16) (count : Nat) :
    firstIds lastMid (count + 1) = firstIds lastMid count ++ [drawn lastMid (count + 1)] := by
  rw [firstIds, List.range_succ, List.map_append]
  rfl

theorem first_ids_nodup (lastMid : BitVec 16) {count : Nat} (few : count ≤ 65535) :
    (firstIds lastMid count).Nodup := by
  apply List.Nodup.map_on _ List.nodup_range
  intro one oneIn other otherIn same
  rw [List.mem_range] at oneIn otherIn
  exact drawn_injective lastMid (by omega) (by omega) same

theorem first_ids_nonzero (lastMid : BitVec 16) (count : Nat) : 0 ∉ firstIds lastMid count := by
  intro member
  rcases List.mem_map.mp member with ⟨index, _, zero⟩
  exact drawn_ne_zero lastMid index zero

end Counter

section Messages

def ids (messages : List Stored) : List (BitVec 16) := messages.map fun stored => stored.message.mid

theorem ids_append (front back : List Stored) : ids (front ++ back) = ids front ++ ids back :=
  List.map_append

theorem promote_ids (max : Int) (messages : List Stored) (inflight : Int) (link : Link) :
    ids (promote max messages inflight link).2.1 = ids messages := by
  induction messages generalizing inflight link with
  | nil => rfl
  | cons cur rest induction =>
      rw [promote]
      split
      · split
        · dsimp only
          split
          next link' sent =>
              have later := induction (inflight + 1) link'
              rw [ids, List.map_cons]
              exact congrArg (cur.message.mid :: ·) later
          · rfl
        · have later := induction inflight link
          rw [ids, List.map_cons]
          exact congrArg (cur.message.mid :: ·) later
      · rfl

theorem reset_ids (max : Int) (messages : List Stored) (inflight : Int) :
    ids (resetOut max messages inflight).1 = ids messages := by
  induction messages generalizing inflight with
  | nil => rfl
  | cons cur rest induction =>
      rw [resetOut]
      dsimp only
      split
      · have later := induction (if cur.message.qos > 0 then inflight + 1 else inflight)
        rw [ids, List.map_cons]
        split
        · exact congrArg (cur.message.mid :: ·) later
        · exact congrArg (cur.message.mid :: ·) later
      · have later := induction inflight
        rw [ids, List.map_cons]
        exact congrArg (cur.message.mid :: ·) later

theorem modify_last_ids (messages : List Stored) (stored : Stored) (change : Stored → Stored)
    (same : (change stored).message = stored.message) :
    ids ((messages ++ [stored]).modifyLast change) = ids messages ++ [stored.message.mid] := by
  rw [List.modifyLast_concat, ids_append, ids, ids, List.map_singleton, same]

end Messages

section Handlers

variable {client : Client}

structure Fewer (client next : Client) : Prop where
  last : next.lastMid = client.lastMid
  kept : (ids next.outMessages).Sublist (ids client.outMessages)

theorem fewer_same {next : Client} (last : next.lastMid = client.lastMid)
    (same : ids next.outMessages = ids client.outMessages) : Fewer client next :=
  ⟨last, by rw [same]⟩

theorem fewer_refl (client : Client) : Fewer client client := fewer_same rfl rfl

def Loses (client : Client) (result : Handled) : Prop :=
  ∀ rc next, result = .ok (rc, next) → Fewer client next

theorem loses_ok {rc : MosqErr} {next : Client} (fewer : Fewer client next) :
    Loses client (.ok (rc, next)) := by
  intro rc' next' same
  rcases Prod.mk.inj (Except.ok.inj same) with ⟨_, rfl⟩
  exact fewer

theorem loses_error (client : Client) (stop : Stop) : Loses client (.error stop) :=
  fun _ _ same => absurd same (by simp)

theorem loses_bind {Result : Type} {parsed : Except Stop Result} {next : Result → Handled}
    (later : ∀ result, Loses client (next result)) : Loses client (parsed >>= next) := by
  cases parsed with
  | error stop => exact loses_error client stop
  | ok result => exact later result

theorem remove_out_fewer (client : Client) (mid : BitVec 16) :
    Fewer client (messageRemoveOut client mid).2 := by
  rw [messageRemoveOut]
  cases found : unlink mid client.outMessages with
  | none => exact fewer_refl client
  | some result =>
      rcases result with ⟨cur, rest⟩
      rcases unlink_spec found with ⟨before, after, split, behind, _, _⟩
      refine ⟨rfl, ?_⟩
      dsimp only
      rw [promote_ids, split, behind, ids_append, ids_append]
      exact (List.Sublist.refl _).append (List.sublist_cons_self _ _)

theorem out_update_fewer (client : Client) (mid : BitVec 16) (state : MsgState) :
    Fewer client (messageOutUpdate client mid state).2 := by
  rw [messageOutUpdate]
  rcases update_state_eq mid state client.link.now client.outMessages with
    ⟨_, unchanged⟩ | ⟨before, cur, after, split, _, _, changed⟩
  · rw [unchanged]
    exact fewer_refl client
  · rw [changed]
    have same : ids (before ++ { cur with state := state, timestamp := client.link.now } :: after) =
        ids client.outMessages := by
      rw [split, ids_append, ids_append]
      rfl
    exact ⟨rfl, by rw [← same]⟩

theorem release_held_fewer (client : Client) (mid : BitVec 16) :
    Fewer client (releaseHeld client mid) := by
  rw [releaseHeld, messageRemoveIn]
  cases unlink mid client.inMessages with
  | none => exact fewer_refl client
  | some result => exact fewer_same rfl rfl

theorem handle_publish_loses (client : Client) (packet : InPacket) :
    Loses client (handlePublish client packet) := by
  apply loses_bind
  intro received
  dsimp only
  split
  · exact loses_ok (fewer_same rfl rfl)
  · exact loses_ok (fewer_same rfl rfl)
  · exact loses_ok (fewer_same rfl rfl)
  · exact loses_error client _

theorem handle_pubrel_loses (client : Client) (packet : InPacket) :
    Loses client (handlePubrel client packet) := by
  rw [handlePubrel]
  split
  · exact loses_error client _
  · apply loses_bind
    intro mid
    have fewer := release_held_fewer client mid
    exact loses_ok ⟨fewer.last, fewer.kept⟩

theorem packet_handle_loses (client : Client) (packet : InPacket) :
    Loses client (packetHandle client packet) := by
  apply packet_handle_cases (Loses client)
  · exact loses_ok (fewer_same rfl rfl)
  · exact loses_ok (fewer_same rfl rfl)
  · intro _
    apply loses_bind
    intro mid
    have fewer := remove_out_fewer client mid
    dsimp only
    split
    · exact loses_ok ⟨fewer.last, fewer.kept⟩
    · exact loses_ok fewer
  · intro _
    exact handle_publish_loses client packet
  · intro _
    apply loses_bind
    intro mid
    have fewer := out_update_fewer client mid .waitForPubcomp
    exact loses_ok ⟨fewer.last, fewer.kept⟩
  · intro _
    exact handle_pubrel_loses client packet
  · apply loses_bind
    intro result
    dsimp only
    split
    · exact loses_ok (fewer_same rfl rfl)
    · exact loses_ok (fewer_same rfl rfl)
  · apply loses_bind
    intro result
    exact loses_ok (fewer_same rfl rfl)
  · apply loses_bind
    intro mid
    exact loses_ok (fewer_same rfl rfl)
  · intro _
    exact loses_error client _

end Handlers

section Runs

/-- The messages that are kept have some of the ids drawn so far, in the order in which they
were drawn. -/
structure Numbered (first : BitVec 16) (count : Nat) (client : Client) : Prop where
  last : client.lastMid = drawn first count
  kept : (ids client.outMessages).Sublist (firstIds first count)

variable {first : BitVec 16} {count : Nat} {client next : Client}

theorem numbered_fewer (numbered : Numbered first count client) (fewer : Fewer client next) :
    Numbered first count next :=
  ⟨fewer.last.trans numbered.last, fewer.kept.trans numbered.kept⟩

theorem numbered_drawn (numbered : Numbered first count client)
    (last : next.lastMid = midGenerate client.lastMid)
    (added : ids next.outMessages = ids client.outMessages ∨
      ids next.outMessages = ids client.outMessages ++ [midGenerate client.lastMid]) :
    Numbered first (count + 1) next := by
  have new : midGenerate client.lastMid = drawn first (count + 1) := by
    rw [numbered.last]
    rfl
  refine ⟨last.trans new, ?_⟩
  rw [first_ids_succ, ← new]
  rcases added with same | longer
  · rw [same]
    exact numbered.kept.trans (List.sublist_append_left _ _)
  · rw [longer]
    exact numbered.kept.append (List.Sublist.refl _)

theorem publish_kept_drawn (client : Client) (message : Message) :
    (publishKept client message).2.lastMid = client.lastMid ∧
      ids (publishKept client message).2.outMessages = ids client.outMessages ++ [message.mid] := by
  rw [publishKept, messageQueueOut]
  dsimp only
  split
  next same =>
      split at same
      · split at same
        · rcases Prod.mk.inj same with ⟨_, rfl⟩
          exact ⟨rfl, modify_last_ids _ _ _ rfl⟩
        · exact absurd (Prod.mk.inj same).1 Bool.false_ne_true
      · rcases Prod.mk.inj same with ⟨_, rfl⟩
        exact ⟨rfl, modify_last_ids _ _ _ rfl⟩
  next same =>
      split at same
      · split at same
        · exact absurd (Prod.mk.inj same).1.symm Bool.false_ne_true
        · rcases Prod.mk.inj same with ⟨_, rfl⟩
          exact ⟨rfl, ids_append _ _⟩
      · exact absurd (Prod.mk.inj same).1.symm Bool.false_ne_true

theorem publish_numbered (numbered : Numbered first count client) (topic payload : List Byte)
    (qos : Nat) (retain : Bool) :
    ∃ more, more ≤ 1 ∧
      Numbered first (count + more) (publish client topic payload qos retain).2 := by
  rw [publish]
  split
  · exact ⟨0, Nat.zero_le _, numbered⟩
  · refine ⟨1, Nat.le_refl _, ?_⟩
    dsimp only
    split
    · exact numbered_drawn numbered rfl (Or.inl rfl)
    · have kept := publish_kept_drawn { client with lastMid := midGenerate client.lastMid }
        ⟨midGenerate client.lastMid, topic, payload, qos, retain⟩
      exact numbered_drawn numbered kept.1 (Or.inr kept.2)

theorem send_with_new_mid_numbered (numbered : Numbered first count client)
    (packet : BitVec 16 → Except MosqErr OutPacket) :
    ∃ more, more ≤ 1 ∧ Numbered first (count + more) (sendWithNewMid client packet).2 := by
  rw [sendWithNewMid]
  dsimp only
  split
  · exact ⟨0, Nat.zero_le _, numbered⟩
  · exact ⟨1, Nat.le_refl _, numbered_drawn numbered rfl (Or.inl rfl)⟩

theorem request_numbered (numbered : Numbered first count client) (sub : List Byte)
    (packet : BitVec 16 → Except MosqErr OutPacket) :
    ∃ more, more ≤ 1 ∧ Numbered first (count + more)
      (if client.link.connected = false then (MosqErr.noConn, client)
        else if subTopicCheck sub ≠ .success then (.inval, client)
        else sendWithNewMid client packet).2 := by
  split
  · exact ⟨0, Nat.zero_le _, numbered⟩
  split
  · exact ⟨0, Nat.zero_le _, numbered⟩
  · exact send_with_new_mid_numbered numbered packet

theorem window_step_numbered (numbered : Numbered first count client) (op : MqttWindow.Op) :
    ∃ more, more ≤ (if asks (.window op) then 1 else 0) ∧
      Numbered first (count + more) (MqttWindow.step client op) := by
  cases op with
  | publish topic payload qos retain => exact publish_numbered numbered topic payload qos retain
  | handle packet =>
      refine ⟨0, Nat.zero_le _, ?_⟩
      rw [MqttWindow.step]
      cases result : packetHandle client packet with
      | error stop => exact numbered
      | ok pair => exact numbered_fewer numbered (packet_handle_loses client packet _ _ result)
  | retry =>
      refine ⟨0, Nat.zero_le _, numbered_fewer numbered (fewer_same rfl ?_)⟩
      have same := congrArg (List.map Message.mid)
        (MqttHeld.retry_messages client.messageRetry client.link.now client.outMessages client.link)
      rw [List.map_map, List.map_map] at same
      exact same
  | reset =>
      exact ⟨0, Nat.zero_le _, numbered_fewer numbered (fewer_same rfl (reset_ids _ _ _))⟩
  | link link => exact ⟨0, Nat.zero_le _, numbered_fewer numbered (fewer_same rfl rfl)⟩

theorem step_numbered (numbered : Numbered first count client) (op : Op) :
    ∃ more, more ≤ (if asks op then 1 else 0) ∧ Numbered first (count + more) (step client op) := by
  cases op with
  | window op => exact window_step_numbered numbered op
  | subscribe sub qos => exact request_numbered numbered sub _
  | unsubscribe sub => exact request_numbered numbered sub _

theorem run_numbered (ops : List Op) (numbered : Numbered first count client) :
    ∃ more, more ≤ ops.countP asks ∧
      Numbered first (count + more) (StepRuns.run step client ops) := by
  induction ops generalizing client count with
  | nil => exact ⟨0, Nat.zero_le _, numbered⟩
  | cons op rest induction =>
      rcases step_numbered numbered op with ⟨now, few, after⟩
      rcases induction after with ⟨later, bound, reached⟩
      rw [Nat.add_assoc] at reached
      rw [List.countP_cons]
      exact ⟨now + later, by omega, reached⟩

end Runs

/-- While at most 65535 ids have been drawn, no two of the outgoing messages that are kept
have the same one, whatever packets come and however often messages are sent again. -/
theorem kept_ids_differ (start : Client) (ops : List Op) (none : start.outMessages = [])
    (few : ops.countP asks ≤ 65535) :
    StepRuns.AlongRun step
      (fun client => (ids client.outMessages).Nodup ∧ 0 ∉ ids client.outMessages) start ops := by
  have begins : Numbered start.lastMid 0 start := by
    refine ⟨rfl, ?_⟩
    rw [none]
    exact List.nil_sublist _
  rw [StepRuns.along_run_iff_prefixes]
  intro before within
  rcases run_numbered before begins with ⟨more, bound, numbered⟩
  have fewer : before.countP asks ≤ ops.countP asks := within.sublist.countP_le
  constructor
  · exact numbered.kept.nodup (first_ids_nodup _ (by omega))
  · exact fun zero => first_ids_nonzero _ _ (numbered.kept.subset zero)

/-- The counter goes past 0 between two messages. -/
theorem kept_ids_differ_around :
    let start := { mosquittoReinitialise [0x61] true 0 with lastMid := 65534 }
    StepRuns.AlongRun step
      (fun client => (ids client.outMessages).Nodup ∧ 0 ∉ ids client.outMessages) start
      [.window (.publish [0x61] [] 1 false), .subscribe [0x23] 0,
        .window (.publish [0x61] [] 2 false), .window .reset] :=
  kept_ids_differ _ _ rfl (by decide)

end Gk7102.MqttIds
