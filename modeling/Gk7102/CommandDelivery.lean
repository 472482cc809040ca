import Gk7102.PlayerConnection
import Gk7102.SocketCalls

/-!
# Delivery of commands

`send_cmd` repeats an interrupted `send` and otherwise only prints what went wrong.
The entry points that wait for a reply decide by its return value whether to wait.
-/

namespace Gk7102.CommandDelivery

open ByteBlocks PlayerCommand PlayerConnection SocketCalls

set_option autoImplicit false

/-- What `send_cmd` returned, and how many bytes of the command its last `send` took. -/
structure Sent where
  ret : BitVec 32
  accepted : Nat
deriving DecidableEq, Repr

/-- The way back to `send_again`, for a command of `total_size` bytes. -/
def sendAgain (totalSize : BitVec 32) (outcome : CallOutcome) : Bool :=
  decide (totalSize ≠ outcome.ret (outcome.accepted totalSize.toNat)) && outcome.interrupted

/-- `none` while every `send` so far has been interrupted. -/
def sendCmd (handler : Option Handler) (cmd : Option (List Byte)) (outcomes : List CallOutcome) :
    Option Sent :=
  match handler, cmd with
  | none, _ => some ⟨-1, 0⟩
  | some _, none => some ⟨-1, 0⟩
  | some _, some cmd =>
      (retry (sendAgain (commandTotalSize cmd)) outcomes).map fun (last, _) =>
        -- a short count or an error is printed, and the return value is 0 all the same
        ⟨0, last.accepted (commandTotalSize cmd).toNat⟩

/-- A command on its way: what the server got of it, and the reply its sender now
waits for. -/
structure Issued where
  cmd : List Byte
  accepted : Nat
  waits : Option ReplyKind

/-- An entry point up to its `recv`. The outer `none` is a call still inside `send_cmd`,
the inner one a call that returned before it. -/
def issue (handler : Option Handler) (call : ApiCall) (outcomes : List CallOutcome) :
    Option (Option Issued) :=
  match handler with
  | none => some none
  | some handler =>
      match createPlayerCommand (handler.request call) with
      | none => some none
      | some cmd =>
          (sendCmd (some handler) (some cmd) outcomes).map fun sent =>
            some ⟨cmd, sent.accepted, if sent.ret = 0 then call.entry.awaits else none⟩

/-- The first `send` that is not repeated, if there is one, takes the whole command. -/
def FirstSendWhole (cmd : List Byte) (outcomes : List CallOutcome) : Prop :=
  ∀ repeated last later, outcomes = repeated ++ last :: later →
    (∀ outcome ∈ repeated, sendAgain (commandTotalSize cmd) outcome = true) →
    sendAgain (commandTotalSize cmd) last = false →
    last.accepted (commandTotalSize cmd).toNat = (commandTotalSize cmd).toNat

/-- 0 is returned only for a command that was taken whole. -/
def ReportedTruthfully (handler : Option Handler) (cmd : Option (List Byte))
    (outcomes : List CallOutcome) : Prop :=
  ∀ sent, sendCmd handler cmd outcomes = some sent → sent.ret = 0 →
    ∃ block, cmd = some block ∧ sent.accepted = (commandTotalSize block).toNat

/-- A reply is waited for only when the server has the whole command. -/
def WaitsForWholeCommand (handler : Option Handler) (call : ApiCall)
    (outcomes : List CallOutcome) : Prop :=
  ∀ issued, issue handler call outcomes = some (some issued) → issued.waits.isSome →
    issued.accepted = (commandTotalSize issued.cmd).toNat

theorem send_cmd_some {handler : Handler} {cmd : List Byte} {outcomes : List CallOutcome}
    {sent : Sent} :
    sendCmd (some handler) (some cmd) outcomes = some sent ↔
      ∃ repeated last later, outcomes = repeated ++ last :: later ∧
        (∀ outcome ∈ repeated, sendAgain (commandTotalSize cmd) outcome = true) ∧
        sendAgain (commandTotalSize cmd) last = false ∧
        sent = ⟨0, last.accepted (commandTotalSize cmd).toNat⟩ := by
  rw [sendCmd, Option.map_eq_some_iff]
  constructor
  · intro finished
    obtain ⟨⟨last, later⟩, found, same⟩ := finished
    obtain ⟨repeated, split, all, stops⟩ := retry_eq_some_iff.mp found
    exact ⟨repeated, last, later, split, all, stops, same.symm⟩
  · intro finished
    obtain ⟨repeated, last, later, split, all, stops, same⟩ := finished
    exact ⟨(last, later), retry_eq_some_iff.mpr ⟨repeated, split, all, stops⟩, same.symm⟩

/-- Whatever happens to the bytes, a call that ends has the value 0. -/
theorem send_cmd_ret {handler : Handler} {cmd : List Byte} {outcomes : List CallOutcome}
    {sent : Sent} (ended : sendCmd (some handler) (some cmd) outcomes = some sent) :
    sent.ret = 0 := by
  obtain ⟨repeated, last, later, split, all, stops, same⟩ := send_cmd_some.mp ended
  rw [same]

/-- Only a command of 2^32 − 1 bytes is not sent again after an interruption. -/
theorem send_again_of_size {totalSize : BitVec 32} (size : totalSize ≠ -1) :
    sendAgain totalSize = CallOutcome.interrupted := by
  funext outcome
  cases outcome with
  | failed errno =>
      rw [sendAgain, CallOutcome.ret, decide_eq_true size, Bool.true_and]
  | moved more =>
      rw [sendAgain, CallOutcome.interrupted, Bool.and_false]

theorem accepted_whole_iff (handler : Handler) (cmd : List Byte) (outcomes : List CallOutcome) :
    (∀ sent, sendCmd (some handler) (some cmd) outcomes = some sent →
      sent.accepted = (commandTotalSize cmd).toNat) ↔ FirstSendWhole cmd outcomes := by
  constructor
  · intro whole repeated last later split all stops
    exact whole _ (send_cmd_some.mpr ⟨repeated, last, later, split, all, stops, rfl⟩)
  · intro whole sent ended
    obtain ⟨repeated, last, later, split, all, stops, same⟩ := send_cmd_some.mp ended
    rw [same]
    exact whole repeated last later split all stops

theorem reported_truthfully_iff (handler : Option Handler) (cmd : Option (List Byte))
    (outcomes : List CallOutcome) :
    ReportedTruthfully handler cmd outcomes ↔
      (handler.isSome → ∀ block ∈ cmd, FirstSendWhole block outcomes) := by
  cases handler with
  | none =>
      apply iff_of_true
      · intro sent ended zero
        rw [sendCmd, Option.some.injEq] at ended
        rw [← ended] at zero
        exact absurd zero (by decide)
      · intro given
        exact absurd given (by decide)
  | some handler =>
      cases cmd with
      | none =>
          apply iff_of_true
          · intro sent ended zero
            rw [sendCmd, Option.some.injEq] at ended
            rw [← ended] at zero
            exact absurd zero (by decide)
          · intro given block member
            exact absurd member (by simp)
      | some cmd =>
          have ends := accepted_whole_iff handler cmd outcomes
          constructor
          · intro truthful given block member
            cases member
            apply ends.mp
            intro sent ended
            obtain ⟨block, same, whole⟩ := truthful sent ended (send_cmd_ret ended)
            cases same
            exact whole
          · intro whole sent ended zero
            exact ⟨cmd, rfl, ends.mpr (whole rfl cmd rfl) sent ended⟩

theorem issue_some {handler : Handler} {call : ApiCall} {outcomes : List CallOutcome}
    {issued : Issued} :
    issue (some handler) call outcomes = some (some issued) ↔
      ∃ cmd sent, createPlayerCommand (handler.request call) = some cmd ∧
        sendCmd (some handler) (some cmd) outcomes = some sent ∧
        issued = ⟨cmd, sent.accepted, if sent.ret = 0 then call.entry.awaits else none⟩ := by
  simp only [issue]
  cases built : createPlayerCommand (handler.request call) with
  | none => simp
  | some cmd =>
      simp only [Option.map_eq_some_iff, Option.some.injEq]
      constructor
      · intro ended
        obtain ⟨sent, ended, same⟩ := ended
        exact ⟨cmd, sent, rfl, ended, same.symm⟩
      · intro ended
        obtain ⟨block, sent, same, ended, issuedAs⟩ := ended
        cases same
        exact ⟨sent, ended, issuedAs.symm⟩

theorem waits_for_whole_command_iff (handler : Handler) (call : ApiCall)
    (outcomes : List CallOutcome) :
    WaitsForWholeCommand (some handler) call outcomes ↔
      (call.entry.awaits.isSome →
        ∀ cmd ∈ createPlayerCommand (handler.request call), FirstSendWhole cmd outcomes) := by
  constructor
  · intro whole sync cmd built
    apply (accepted_whole_iff handler cmd outcomes).mp
    intro sent ended
    apply whole _ (issue_some.mpr ⟨cmd, sent, built, ended, rfl⟩)
    rw [if_pos (send_cmd_ret ended)]
    exact sync
  · intro whole issued ended waits
    obtain ⟨cmd, sent, built, ended, same⟩ := issue_some.mp ended
    rw [same, if_pos (send_cmd_ret ended)] at waits
    rw [same]
    exact (accepted_whole_iff handler cmd outcomes).mpr (whole waits cmd built) sent ended

/-- What `send_cmd` returns can be relied on, by its callers too, exactly when the first
`send` that is not repeated takes the whole command. -/
theorem delivery_reported_iff (handler : Option Handler) (outcomes : List CallOutcome) :
    (∀ cmd, ReportedTruthfully handler cmd outcomes ↔
      (handler.isSome → ∀ block ∈ cmd, FirstSendWhole block outcomes)) ∧
    (∀ call, WaitsForWholeCommand handler call outcomes ↔
      (call.entry.awaits.isSome → ∀ caller ∈ handler,
        ∀ cmd ∈ createPlayerCommand (caller.request call), FirstSendWhole cmd outcomes)) := by
  constructor
  · intro cmd
    exact reported_truthfully_iff handler cmd outcomes
  · intro call
    cases handler with
    | none =>
        apply iff_of_true
        · intro issued ended
          cases ended
        · intro sync caller member
          exact absurd member (by simp)
    | some handler =>
        rw [waits_for_whole_command_iff]
        simp only [Option.mem_def, Option.some.injEq, forall_eq']

def someHandler : Handler := ⟨⟨[], nil_no_nul⟩, 0⟩

def setVolumeCommand : List Byte :=
  valueCommand ⟨[], nil_no_nul⟩ 0 (CmdType.setVolume.code) 50

/-- The server's buffer takes 10 of the 48 bytes of a volume command, and `send_cmd`
returns 0, which makes `mozart_player_volset` wait for feedback. -/
theorem partial_send_reported_as_success :
    ¬ ∀ (handler : Option Handler) (outcomes : List CallOutcome),
      (∀ cmd, ReportedTruthfully handler cmd outcomes) ∧
        ∀ call, WaitsForWholeCommand handler call outcomes := by
  intro always
  have truthful := (always (some someHandler) [.moved 9]).1 (some setVolumeCommand)
  obtain ⟨block, same, whole⟩ := truthful ⟨0, 10⟩ (by decide) rfl
  cases same
  exact absurd whole (by decide)

end Gk7102.CommandDelivery
