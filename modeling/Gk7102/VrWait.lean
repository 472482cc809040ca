import Gk7102.VrLogic

/-!
# Waiting for a recognition result

The loop of `vr_logic_func` that waits for an ASR result, with every read of
`info->asr.state` on its own: other threads write it at any time, also between the
comparisons of one poll and between the loop and the test behind it.
-/

namespace Gk7102.VrWait

open VrLogic

set_option autoImplicit false

/-- The values the three comparisons of the loop's condition read. A comparison that is
not reached reads nothing. -/
structure Poll where
  first : Nat
  second : Nat
  third : Nat
deriving DecidableEq, Repr

/-- The part of the condition in front of `cnt++ < CNT1000`. -/
def Poll.unsettled (poll : Poll) : Bool :=
  decide (poll.first ≠ asrSuccess) && decide (poll.second ≠ asrFail) &&
    decide (poll.third ≠ asrBreak)

/-- The value of `cnt` behind the loop; `none` while it goes on. -/
def waitLoop : Nat → List Poll → Option Nat
  | _, [] => none
  | cnt, poll :: later =>
      if poll.unsettled then
        if cnt < cnt1000 then waitLoop (cnt + 1) later else some (cnt + 1)
      else some cnt

/-- Whether `callback_to_mozart` was called for the turn, and `vr_next` after it. -/
structure AsrTurn where
  called : Bool
  next : VrTarget
deriving DecidableEq, Repr

/-- What surrounds the loop: the state the test behind it reads, whether a callback is
registered, what it returns, and `asr_break_flag` after it. -/
structure Surroundings where
  state : Nat
  callback : Bool
  reply : VrTarget
  breakFlag : Bool
deriving DecidableEq, Repr

def judge (cnt : Nat) (around : Surroundings) : AsrTurn :=
  if around.state = asrBreak ∨ cnt = cnt1000 then ⟨false, .toAec⟩
  else if around.callback then ⟨true, if around.breakFlag then .toAec else around.reply⟩
  else ⟨false, .toAec⟩

def asrTurn (polls : List Poll) (around : Surroundings) : Option AsrTurn :=
  (waitLoop 0 polls).map fun cnt => judge cnt around

/-! ## What a turn must do -/

/-- What a poll finds the turn to have come to. -/
inductive Seen where
  | result | broken
deriving DecidableEq, Repr

def Poll.sees (poll : Poll) : Option Seen :=
  if poll.first = asrSuccess ∨ poll.second = asrFail then some .result
  else if poll.third = asrBreak then some .broken
  else none

/-- What is found by one of the polls allowed. -/
def seenInTime (polls : List Poll) : Option Seen := (polls.take cnt1000).findSome? Poll.sees

structure TurnRight (polls : List Poll) (around : Surroundings) (turn : AsrTurn) : Prop where
  called_iff : turn.called = true ↔ seenInTime polls = some .result
  to_aec : seenInTime polls = some .broken ∨ around.state = asrBreak ∨ seenInTime polls = none →
    turn.called = false ∧ turn.next = .toAec

/-- A result in time is not broken off behind the loop, and a break is still there; after
the polls allowed, the one more that is made must find something, or the test a break.
Without a callback there is nothing to call. -/
def StateStays (polls : List Poll) (around : Surroundings) : Prop :=
  match seenInTime polls with
  | some .result => around.state ≠ asrBreak ∧ around.callback = true
  | some .broken => around.state = asrBreak ∨ around.callback = false
  | none => ∀ poll ∈ polls[cnt1000]?,
      poll.sees ≠ none ∨ around.state = asrBreak ∨ around.callback = false

theorem unsettled_iff (poll : Poll) : poll.unsettled = true ↔ poll.sees = none := by
  simp only [Poll.unsettled, Poll.sees, Bool.and_eq_true, decide_eq_true_eq]
  grind

/-- What the count tells about the polls: it stops at the poll that found something, or
one past the last. -/
theorem wait_loop_cases {cnt last : Nat} {polls : List Poll} (left : cnt ≤ cnt1000)
    (ended : waitLoop cnt polls = some last) :
    (last < cnt1000 ∧ ((polls.take (cnt1000 - cnt)).findSome? Poll.sees).isSome) ∨
      ((polls.take (cnt1000 - cnt)).findSome? Poll.sees = none ∧
        ∃ poll, polls[cnt1000 - cnt]? = some poll ∧
          last = if poll.sees = none then cnt1000 + 1 else cnt1000) := by
  induction polls generalizing cnt with
  | nil => cases ended
  | cons poll later induction =>
      rw [waitLoop] at ended
      cases seen : poll.sees with
      | none =>
          rw [if_pos ((unsettled_iff poll).mpr seen)] at ended
          by_cases allowed : cnt < cnt1000
          · rw [if_pos allowed] at ended
            have count : cnt1000 - cnt = (cnt1000 - (cnt + 1)) + 1 := by omega
            have rest := induction allowed ended
            rw [count, List.take_succ_cons, List.findSome?_cons, seen, List.getElem?_cons_succ]
            exact rest
          · rw [if_neg allowed, Option.some.injEq] at ended
            have count : cnt1000 - cnt = 0 := by omega
            right
            rw [count]
            refine ⟨rfl, poll, rfl, ?_⟩
            rw [if_pos seen]
            omega
      | some what =>
          have settled : ¬ poll.unsettled = true := by
            rw [unsettled_iff, seen]
            exact nofun
          rw [if_neg settled, Option.some.injEq] at ended
          by_cases allowed : cnt < cnt1000
          · left
            have count : cnt1000 - cnt = (cnt1000 - (cnt + 1)) + 1 := by omega
            rw [count, List.take_succ_cons, List.findSome?_cons, seen]
            exact ⟨by omega, rfl⟩
          · right
            have count : cnt1000 - cnt = 0 := by omega
            rw [count]
            refine ⟨rfl, poll, rfl, ?_⟩
            rw [seen, if_neg nofun]
            omega

theorem wait_loop_goes_on {cnt : Nat} {polls : List Poll} (waiting : waitLoop cnt polls = none)
    (left : cnt ≤ cnt1000) :
    polls.findSome? Poll.sees = none ∧ polls.length ≤ cnt1000 - cnt := by
  induction polls generalizing cnt with
  | nil => exact ⟨rfl, Nat.zero_le _⟩
  | cons poll later induction =>
      rw [waitLoop] at waiting
      by_cases unsettled : poll.unsettled = true
      · rw [if_pos unsettled] at waiting
        by_cases allowed : cnt < cnt1000
        · rw [if_pos allowed] at waiting
          have rest := induction waiting allowed
          rw [List.findSome?_cons, (unsettled_iff poll).mp unsettled, List.length_cons]
          exact ⟨rest.1, by omega⟩
        · rw [if_neg allowed] at waiting
          cases waiting
      · rw [if_neg unsettled] at waiting
        cases waiting

section Judging

variable {polls : List Poll} {around : Surroundings} {cnt : Nat}

theorem judge_called_iff :
    (judge cnt around).called = true ↔
      (around.state ≠ asrBreak ∧ cnt ≠ cnt1000) ∧ around.callback = true := by
  rw [judge]
  grind

theorem judge_not_called (silent : (judge cnt around).called = false) :
    (judge cnt around).next = .toAec := by
  revert silent
  rw [judge]
  grind

/-- Whether the callback is called decides what the turn promises. -/
theorem judge_right_iff :
    TurnRight polls around (judge cnt around) ↔
      ((judge cnt around).called = true ↔ seenInTime polls = some .result) ∧
        ((judge cnt around).called = true → around.state ≠ asrBreak) := by
  constructor
  · intro right
    refine ⟨right.called_iff, ?_⟩
    intro called broken
    have silent := (right.to_aec (.inr (.inl broken))).1
    rw [called] at silent
    cases silent
  · intro promised
    refine ⟨promised.1, ?_⟩
    intro stopped
    have silent : (judge cnt around).called = false := by
      rw [← Bool.not_eq_true]
      intro called
      rcases stopped with seen | broken | unseen
      · rw [promised.1.mp called] at seen
        cases seen
      · exact promised.2 called broken
      · rw [promised.1.mp called] at unseen
        cases unseen
    exact ⟨silent, judge_not_called silent⟩

end Judging

/-- A turn goes as promised exactly when the state stays as the loop found it. -/
theorem asr_turn_right_iff (polls : List Poll) (around : Surroundings) :
    (∀ turn ∈ asrTurn polls around, TurnRight polls around turn) ↔ StateStays polls around := by
  rw [asrTurn, StateStays]
  cases ended : waitLoop 0 polls with
  | none =>
      obtain ⟨unseen, short⟩ := wait_loop_goes_on ended (Nat.zero_le _)
      have inTime : seenInTime polls = none := by
        rw [seenInTime, List.take_of_length_le (Nat.sub_zero cnt1000 ▸ short)]
        exact unseen
      have noMore : polls[cnt1000]? = none := List.getElem?_eq_none short
      simp [inTime, noMore]
  | some last =>
      simp only [Option.map_some, Option.mem_def, Option.some.injEq, forall_eq', judge_right_iff,
        judge_called_iff]
      rcases wait_loop_cases (Nat.zero_le _) ended with early | late
      · obtain ⟨what, seen⟩ := Option.isSome_iff_exists.mp early.2
        have inTime : seenInTime polls = some what := seen
        have notLast : last ≠ cnt1000 := Nat.ne_of_lt early.1
        cases what with
        | result =>
            simp only [inTime]
            grind
        | broken =>
            simp only [inTime]
            grind
      · obtain ⟨unseen, poll, more, value⟩ := late
        have inTime : seenInTime polls = none := unseen
        rw [Nat.sub_zero] at more
        have notLast : last ≠ cnt1000 ↔ poll.sees = none := by
          rw [value]
          grind
        simp only [inTime, more, notLast]
        grind

/-- Nobody answers: after 1001 polls the callback is called all the same. -/
theorem timeout_calls_callback :
    ¬ ∀ (polls : List Poll) (around : Surroundings),
      ∀ turn ∈ asrTurn polls around, TurnRight polls around turn := by
  intro always
  have right := always (List.replicate 1001 ⟨asrSpeakEnd, asrSpeakEnd, asrSpeakEnd⟩)
    ⟨asrSpeakEnd, true, .toAsr, false⟩ ⟨true, .toAsr⟩ (by decide +kernel)
  have called := right.called_iff.mp rfl
  exact absurd called (by decide +kernel)

/-! ## The wait among the steps of all threads -/

/-- A poll during which no other thread runs. -/
def Poll.atomic (state : Nat) : Poll := ⟨state, state, state⟩

theorem atomic_unsettled (state : Nat) :
    (Poll.atomic state).unsettled = !decide (Settled state) := by
  simp only [Poll.atomic, Poll.unsettled, Settled]
  grind

/-- Steps of the controller and the engines. -/
def Others (round : List Op) : Prop := ∀ op ∈ round, ∀ opened reply, op ≠ .logic opened reply

/-- What the other threads do, and then one step of the logic thread. -/
def pollRound (vr : Vr) (round : List Op) : Vr :=
  step (round.foldl step vr) (.logic false .toNull)

def observed : Vr → List (List Op) → List Poll
  | _, [] => []
  | vr, round :: later =>
      Poll.atomic (round.foldl step vr).aiVrInfo.state :: observed (pollRound vr round) later

theorem others_keep_wait {vr : Vr} {round : List Op} (others : Others round)
    (pointed : vr.infoSet = true) :
    (round.foldl step vr).pc = vr.pc ∧ (round.foldl step vr).infoSet = true := by
  induction round generalizing vr with
  | nil => exact ⟨rfl, pointed⟩
  | cons op later induction =>
      have kept : (step vr op).pc = vr.pc ∧ (step vr op).infoSet = true := by
        cases op with
        | logic opened reply => exact absurd rfl (others _ (by simp) opened reply)
        | store info => exact ⟨rfl, pointed⟩
        | post reply =>
            unfold step Vr.callbackFromVr
            grind
        | start =>
            unfold step Vr.startCall
            grind
        | stop =>
            unfold step Vr.stopCall
            grind
        | control =>
            unfold step Vr.controlStep
            grind
        | uninit => exact ⟨rfl, pointed⟩
      have rest := induction (fun other member => others other (by simp [member])) kept.2
      exact ⟨rest.1.trans kept.1, rest.2⟩

theorem poll_round_waits {vr : Vr} {round : List Op} {cnt : Nat} (others : Others round)
    (pointed : vr.infoSet = true) (waits : vr.pc = .waiting cnt) :
    (pollRound vr round).infoSet = true ∧
      (pollRound vr round).pc =
        match waitLoop cnt [Poll.atomic (round.foldl step vr).aiVrInfo.state] with
        | none => .waiting (cnt + 1)
        | some last => .judging last := by
  obtain ⟨pc, info⟩ := others_keep_wait others pointed
  rw [pollRound]
  generalize round.foldl step vr = now at pc info
  rw [step, Vr.logicStep, pc, waits]
  simp only [Vr.waitStep, Vr.withInfo, info, if_true, waitLoop, atomic_unsettled]
  by_cases settled : Settled now.aiVrInfo.state
  · simp [settled, Vr.goto, info]
  · by_cases allowed : cnt < cnt1000
    · simp [settled, allowed, Vr.goto, info]
    · simp [settled, allowed, Vr.goto, info]

theorem rounds_wait {rounds : List (List Op)} {vr : Vr} {cnt : Nat}
    (others : ∀ round ∈ rounds, Others round) (pointed : vr.infoSet = true)
    (waits : vr.pc = .waiting cnt) (goesOn : waitLoop cnt (observed vr rounds) = none) :
    (rounds.foldl pollRound vr).infoSet = true ∧
      (rounds.foldl pollRound vr).pc = .waiting (cnt + rounds.length) := by
  induction rounds generalizing vr cnt with
  | nil => exact ⟨pointed, waits⟩
  | cons round later induction =>
      have moved := poll_round_waits (others round (by simp)) pointed waits
      rw [observed, waitLoop] at goesOn
      rw [waitLoop, waitLoop] at moved
      by_cases unsettled :
          (Poll.atomic (round.foldl step vr).aiVrInfo.state).unsettled = true
      · rw [if_pos unsettled] at goesOn moved
        by_cases allowed : cnt < cnt1000
        · rw [if_pos allowed] at goesOn moved
          have rest := induction (fun other member => others other (by simp [member])) moved.1
            moved.2 goesOn
          rw [List.length_cons, Nat.add_comm later.length, ← Nat.add_assoc]
          exact rest
        · rw [if_neg allowed] at goesOn
          cases goesOn
      · rw [if_neg unsettled] at goesOn
        cases goesOn

theorem judge_step_judges {vr : Vr} (pointed : vr.infoSet = true) (cnt : Nat) (reply : VrTarget)
    (breakFlag : Bool) :
    (vr.judgeStep cnt reply) =
      if (judge cnt ⟨vr.aiVrInfo.state, vr.callback, reply, breakFlag⟩).called then
        vr.handle.goto (.replied reply)
      else { vr with next := .toAec, pc := .inner } := by
  simp only [Vr.judgeStep, Vr.withInfo, pointed, if_true, judge]
  grind

end Gk7102.VrWait
