import Gk7102.MusicPlayer

/-!
# Asking for the permission to play

One request of `__mozart_musicplayer_play_music_info`, from the moment it holds
the lock until its poll ends, interleaved with the event handler of `main.c` and
the player status callback. The three of them write one cell, `MUSICPLAYER_DOMAIN`,
and only the requester reads it. Reading the cell always succeeds here.
-/

namespace Gk7102.PlayPermission

open Gk7102.StepRuns
open Gk7102.MusicPlayer

set_option autoImplicit false

/-- The rounds after which the requester gives up. -/
def pollLimit : Nat := 1000

inductive Requester where
  | entered
  | waiting
  | polling (rounds : Nat)
  | observed (status : ModuleStatus)
  | timedOut
deriving DecidableEq, Repr

inductive EventHandler where
  | idle
  | stopping
  | answered
deriving DecidableEq, Repr

/-- `answer` records the response written while the requester was polling, and
`callbackBlocked` a callback that wrote its status and now waits for the lock. -/
structure Handshake where
  cell : ModuleStatus
  requester : Requester
  handler : EventHandler
  eventSent : Bool
  answer : Option ModuleStatus
  callbackBlocked : Bool
deriving DecidableEq, Repr

/-- What `musicplayer_status_change_callback` writes to the cell for a snapshot
of this player's own uuid or of another one. -/
def callbackCell (own : Bool) (status : PlayerStatus) : Option ModuleStatus :=
  if own = false then some .running
  else
    match status with
    | .transport => some .playing
    | .playing => some .playing
    | .paused => some .pause
    | .stopped => some .running
    | .unknown => some .running
    | .aoswitchFail => none

/-- Whether the callback goes on to a call that takes the lock. -/
def callbackLocks (own : Bool) (status : PlayerStatus) (autoplay : Bool) : Bool :=
  own &&
    match status with
    | .transport => true
    | .playing => true
    | .paused => true
    | .stopped => autoplay
    | .unknown => false
    | .aoswitchFail => false

def isResponse : ModuleStatus → Bool
  | .responseDone => true
  | .responsePause => true
  | .responseCancel => true
  | _ => false

inductive HandshakeOp where
  | writeWaitResponse
  | sendPlayEvent (delivered : Bool)
  | notifyHandler
  | writeResponse (cancel : Bool)
  | statusChange (own : Bool) (status : PlayerStatus) (autoplay : Bool)
  | poll
deriving DecidableEq, Repr

def isPolling : Requester → Bool
  | .polling _ => true
  | _ => false

def pollCell (state : Handshake) (rounds : Nat) : Requester :=
  if isResponse state.cell then .observed state.cell
  else if rounds + 1 = pollLimit then .timedOut
  else .polling (rounds + 1)

def handshakeStep (state : Handshake) : HandshakeOp → Handshake
  | .writeWaitResponse =>
      if state.requester = .entered then
        { state with requester := .waiting, cell := .waitResponse }
      else state
  | .sendPlayEvent delivered =>
      if state.requester = .waiting then
        { state with requester := .polling 0, eventSent := delivered }
      else state
  | .notifyHandler =>
      if state.eventSent ∧ state.handler = .idle then
        { state with eventSent := false, handler := .stopping }
      else state
  | .writeResponse cancel =>
      let response := if cancel then ModuleStatus.responseCancel else .responseDone
      if state.handler = .stopping then
        { state with
          handler := .answered
          cell := response
          answer := if isPolling state.requester then some response else state.answer }
      else state
  | .statusChange own status autoplay =>
      if state.callbackBlocked then state
      else
        { state with
          cell := (callbackCell own status).getD state.cell
          callbackBlocked := callbackLocks own status autoplay }
  | .poll =>
      match state.requester with
      | .polling rounds => { state with requester := pollCell state rounds }
      | _ => state

/-- The lock was just taken; the cell may hold any status and the callback may be
waiting already. -/
def handshakeStart (cell : ModuleStatus) (callbackBlocked : Bool) : Handshake where
  cell := cell
  requester := .entered
  handler := .idle
  eventSent := false
  answer := none
  callbackBlocked := callbackBlocked

def Finished (state : Handshake) : Prop :=
  state.requester = .timedOut ∨ ∃ status, state.requester = .observed status

/-- The status callback runs after the answer was written and before the next
poll, with a snapshot that makes it write the cell. -/
def CallbackAfterAnswer (state : Handshake) (op : HandshakeOp) : Prop :=
  state.answer.isSome ∧ isPolling state.requester ∧ state.callbackBlocked = false ∧
    ∃ own status autoplay, op = .statusChange own status autoplay ∧
      (callbackCell own status).isSome

/-- The handshake as long as no answer was overwritten. -/
structure HeardLaw (state : Handshake) : Prop where
  early : state.requester = .entered ∨ state.requester = .waiting →
    state.handler = .idle ∧ state.eventSent = false ∧ state.answer = none
  answered : state.answer.isSome → state.handler = .answered
  unread : isPolling state.requester → ∀ response, state.answer = some response →
    state.cell = response ∧ isResponse response
  unasked : state.requester = .waiting ∨ isPolling state.requester → state.answer = none →
    isResponse state.cell = false
  heard : ∀ status, state.requester = .observed status → state.answer = some status
  silent : state.requester = .timedOut → state.answer = none

/-- The handshake once an answer was overwritten: nobody will write another. -/
structure LostLaw (state : Handshake) : Prop where
  answered : state.handler = .answered
  overwritten : isResponse state.cell = false
  deaf : isPolling state.requester ∨ state.requester = .timedOut

theorem callback_cell_not_response (own : Bool) (status : PlayerStatus) (written : ModuleStatus)
    (writes : callbackCell own status = some written) : isResponse written = false := by
  unfold callbackCell at writes
  split at writes
  · simp only [Option.some.injEq] at writes
    subst writes
    rfl
  · cases status <;> simp only [Option.some.injEq, reduceCtorEq] at writes <;> subst writes <;> rfl

theorem start_heard (cell : ModuleStatus) (callbackBlocked : Bool) :
    HeardLaw (handshakeStart cell callbackBlocked) where
  early := fun _ => ⟨rfl, rfl, rfl⟩
  answered := by simp [handshakeStart]
  unread := by simp [handshakeStart, isPolling]
  unasked := by simp [handshakeStart, isPolling]
  heard := by simp [handshakeStart]
  silent := by simp [handshakeStart]

section Steps

variable (state : Handshake)

theorem write_wait_heard (law : HeardLaw state) :
    HeardLaw (handshakeStep state .writeWaitResponse) := by
  simp only [handshakeStep]
  split
  · rename_i entered
    have quiet := law.early (Or.inl entered)
    constructor <;> simp [quiet, isPolling, isResponse]
  · exact law

theorem send_event_heard (law : HeardLaw state) (delivered : Bool) :
    HeardLaw (handshakeStep state (.sendPlayEvent delivered)) := by
  simp only [handshakeStep]
  split
  · rename_i waiting
    have quiet := law.early (Or.inr waiting)
    have blank := law.unasked (Or.inl waiting) quiet.2.2
    constructor <;> simp [quiet, isPolling, blank]
  · exact law

theorem notify_heard (law : HeardLaw state) : HeardLaw (handshakeStep state .notifyHandler) := by
  simp only [handshakeStep]
  split
  · rename_i sent
    constructor
    · intro early
      have quiet := law.early early
      simp [quiet] at sent
    · intro answered
      have done := law.answered answered
      simp [sent.2] at done
    · exact law.unread
    · exact law.unasked
    · exact law.heard
    · exact law.silent
  · exact law

/-- The answer of a handler that was asked while the requester polls is kept for
the next poll; an answer that comes too late is nobody's. -/
theorem write_response_heard (law : HeardLaw state) (cancel : Bool) :
    HeardLaw (handshakeStep state (.writeResponse cancel)) := by
  simp only [handshakeStep]
  split
  · rename_i stopping
    have response : isResponse (if cancel then .responseCancel else .responseDone) = true := by
      cases cancel <;> rfl
    have blank : state.answer = none := by
      cases answer : state.answer with
      | none => rfl
      | some earlier =>
          have done := law.answered (by simp [answer])
          simp [stopping] at done
    cases polling : isPolling state.requester with
    | true =>
        constructor
        · intro early
          have quiet := law.early early
          simp [stopping] at quiet
        · simp
        · simpa [polling] using response
        · simp
        · intro status observed
          have requester : state.requester = .observed status := observed
          simp [requester, isPolling] at polling
        · intro expired
          have requester : state.requester = .timedOut := expired
          simp [requester, isPolling] at polling
    | false =>
        constructor
        · intro early
          have quiet := law.early early
          simp [stopping] at quiet
        · simp
        · simp [polling]
        · rintro (waiting | asked)
          · have quiet := law.early (Or.inr waiting)
            simp [stopping] at quiet
          · simp [polling] at asked
        · simpa [blank] using law.heard
        · simp [blank]
  · exact law

theorem status_change_heard (law : HeardLaw state) (own : Bool) (status : PlayerStatus)
    (autoplay : Bool)
    (safe : ¬ CallbackAfterAnswer state (.statusChange own status autoplay)) :
    HeardLaw (handshakeStep state (.statusChange own status autoplay)) := by
  cases blocked : state.callbackBlocked with
  | true =>
      simp only [handshakeStep, blocked, if_true]
      exact law
  | false =>
      simp only [handshakeStep, blocked, Bool.false_eq_true, if_false]
      cases writes : callbackCell own status with
      | none =>
          exact ⟨law.early, law.answered, law.unread, law.unasked, law.heard, law.silent⟩
      | some written =>
          have blank := callback_cell_not_response own status written writes
          have nothing : isPolling state.requester → state.answer = none := by
            intro polling
            cases answer : state.answer with
            | none => rfl
            | some response =>
                exact absurd ⟨by simp [answer], polling, blocked, own, status, autoplay, rfl,
                  by simp [writes]⟩ safe
          refine ⟨law.early, law.answered, ?_, fun _ _ => blank, law.heard, law.silent⟩
          intro polling response answer
          simp [nothing polling] at answer

theorem poll_heard (law : HeardLaw state) : HeardLaw (handshakeStep state .poll) := by
  cases polling : state.requester with
  | polling rounds =>
      have here : isPolling state.requester := by rw [polling]; rfl
      simp only [handshakeStep, polling]
      cases answer : state.answer with
      | none =>
          have blank := law.unasked (Or.inr here) answer
          have requester : pollCell state rounds = .timedOut ∨
              pollCell state rounds = .polling (rounds + 1) := by
            simp only [pollCell, blank, Bool.false_eq_true, if_false]
            split
            · exact Or.inl rfl
            · exact Or.inr rfl
          rcases requester with expired | again
          · rw [expired]
            constructor <;> simp [isPolling]
          · rw [again]
            constructor <;> simp [isPolling, blank]
      | some response =>
          rcases law.unread here response answer with ⟨cell, valid⟩
          have requester : pollCell state rounds = .observed response := by
            simp [pollCell, cell, valid]
          rw [requester]
          constructor <;> simp [answer, isPolling, law.answered]
  | _ =>
      simp only [handshakeStep, polling]
      exact law

theorem step_heard (op : HandshakeOp) (law : HeardLaw state)
    (safe : ¬ CallbackAfterAnswer state op) : HeardLaw (handshakeStep state op) := by
  cases op with
  | writeWaitResponse => exact write_wait_heard state law
  | sendPlayEvent delivered => exact send_event_heard state law delivered
  | notifyHandler => exact notify_heard state law
  | writeResponse cancel => exact write_response_heard state law cancel
  | statusChange own status autoplay =>
      exact status_change_heard state law own status autoplay safe
  | poll => exact poll_heard state law

theorem callback_after_answer_lost (op : HandshakeOp) (law : HeardLaw state)
    (overwrites : CallbackAfterAnswer state op) : LostLaw (handshakeStep state op) := by
  rcases overwrites with ⟨answer, polling, free, own, status, autoplay, rfl, writes⟩
  rcases Option.isSome_iff_exists.mp writes with ⟨written, cell⟩
  simp only [handshakeStep, free, Bool.false_eq_true, if_false, cell]
  exact ⟨law.answered answer, callback_cell_not_response own status written cell, Or.inl polling⟩

theorem step_lost (op : HandshakeOp) (law : LostLaw state) : LostLaw (handshakeStep state op) := by
  have answered := law.answered
  have blank := law.overwritten
  cases op with
  | writeWaitResponse =>
      have asked : ¬ state.requester = .entered := by
        intro entered
        simpa [entered, isPolling] using law.deaf
      simp only [handshakeStep, if_neg asked]
      exact law
  | sendPlayEvent delivered =>
      have asked : ¬ state.requester = .waiting := by
        intro waiting
        simpa [waiting, isPolling] using law.deaf
      simp only [handshakeStep, if_neg asked]
      exact law
  | notifyHandler =>
      simp only [handshakeStep, answered, reduceCtorEq, and_false, if_false]
      exact law
  | writeResponse cancel =>
      simp only [handshakeStep, answered, reduceCtorEq, if_false]
      exact law
  | statusChange own status autoplay =>
      simp only [handshakeStep]
      split
      · exact law
      · cases writes : callbackCell own status with
        | none => exact ⟨answered, blank, law.deaf⟩
        | some written =>
            exact ⟨answered, callback_cell_not_response own status written writes, law.deaf⟩
  | poll =>
      cases polling : state.requester with
      | polling rounds =>
          simp only [handshakeStep, polling]
          refine ⟨answered, blank, ?_⟩
          simp only [pollCell, blank, Bool.false_eq_true, if_false]
          split
          · exact Or.inr rfl
          · exact Or.inl rfl
      | _ =>
          simp only [handshakeStep, polling]
          exact law

end Steps

/-- An answer written before the poll limit is what a finished requester observed
exactly when no callback wrote the cell between the answer and the next poll. -/
theorem answer_observed_iff (cell : ModuleStatus) (callbackBlocked : Bool)
    (ops : List HandshakeOp) (response : ModuleStatus)
    (answered : (run handshakeStep (handshakeStart cell callbackBlocked) ops).answer =
      some response)
    (finished : Finished (run handshakeStep (handshakeStart cell callbackBlocked) ops)) :
    (run handshakeStep (handshakeStart cell callbackBlocked) ops).requester =
        .observed response ↔
      EveryStep handshakeStep (fun state op => ¬ CallbackAfterAnswer state op)
        (handshakeStart cell callbackBlocked) ops := by
  constructor
  · intro observed
    by_contra violated
    have lost : LostLaw (run handshakeStep (handshakeStart cell callbackBlocked) ops) :=
      lost_of_unsafe_step step_heard
        (fun state op law overwrites =>
          callback_after_answer_lost state op law (not_not.mp overwrites))
        step_lost _ (start_heard cell callbackBlocked) ops violated
    have deaf := lost.deaf
    simp [observed, isPolling] at deaf
  · intro every
    have law := invariant_of_every_step step_heard _ (start_heard cell callbackBlocked) ops every
    rcases finished with expired | ⟨status, observed⟩
    · have silent := law.silent expired
      simp [silent] at answered
    · have heard := law.heard status observed
      rw [heard] at answered
      rw [observed, Option.some.inj answered]

def answeredPrefix : List HandshakeOp :=
  [.writeWaitResponse, .sendPlayEvent true, .notifyHandler, .writeResponse false]

theorem answer_observed_at_once :
    (run handshakeStep (handshakeStart .running false) (answeredPrefix ++ [.poll])).requester =
      .observed .responseDone :=
  (answer_observed_iff .running false (answeredPrefix ++ [.poll]) .responseDone (by decide)
    (Or.inr ⟨.responseDone, by decide⟩)).mpr (by
      simp [answeredPrefix, EveryStep, CallbackAfterAnswer])

theorem poll_in_vain (state : Handshake) (rounds more : Nat)
    (polling : state.requester = .polling rounds) (blank : isResponse state.cell = false)
    (early : rounds + more < pollLimit) :
    run handshakeStep state (List.replicate more .poll) =
      { state with requester := .polling (rounds + more) } := by
  induction more generalizing state rounds with
  | zero =>
      cases state
      simp only at polling
      subst polling
      rfl
  | succ more ih =>
      have again : handshakeStep state .poll =
          { state with requester := .polling (rounds + 1) } := by
        simp only [handshakeStep, polling, pollCell, blank, Bool.false_eq_true, if_false]
        rw [if_neg (by omega)]
      rw [List.replicate_succ, run_cons, again,
        ih { state with requester := .polling (rounds + 1) } (rounds + 1) rfl blank (by omega)]
      simp only [Nat.add_assoc, Nat.add_comm 1 more]

/-- A status of another player's uuid lands between the answer and the next poll,
and the answered request runs into its time limit. -/
theorem answered_request_times_out :
    ¬ ∀ (cell : ModuleStatus) (callbackBlocked : Bool) (ops : List HandshakeOp)
        (response : ModuleStatus),
      (run handshakeStep (handshakeStart cell callbackBlocked) ops).answer = some response →
      Finished (run handshakeStep (handshakeStart cell callbackBlocked) ops) →
      (run handshakeStep (handshakeStart cell callbackBlocked) ops).requester =
        .observed response := by
  intro always
  have ended : run handshakeStep (handshakeStart .running false)
      (answeredPrefix ++ [.statusChange false .stopped false] ++ List.replicate 999 .poll ++
        [.poll]) =
      { cell := .running, requester := .timedOut, handler := .answered, eventSent := false,
        answer := some .responseDone, callbackBlocked := false } := by
    rw [run_append, run_append,
      poll_in_vain _ 0 999 (by decide) (by decide) (by decide)]
    decide
  have observed := always .running false _ .responseDone (by rw [ended])
    (by rw [ended]; exact Or.inl rfl)
  rw [ended] at observed
  simp at observed

end Gk7102.PlayPermission
