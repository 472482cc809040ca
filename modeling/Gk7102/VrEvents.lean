import Gk7102.VrLogic

/-!
# Events of the voice engines

The last event stays in `ai_vr_info`, and `info` is never cleared. A turn of the logic
thread acts on it whether or not the stage it ran has produced a new one.
-/

namespace Gk7102.VrEvents

open StepRuns VrLogic

set_option autoImplicit false

/-- The events `callback_to_mozart` is there for. -/
def WakeupOrResult (info : VrInfo) : Prop :=
  info.source = .aec ∨ (info.source = .asr ∧ (info.state = asrSuccess ∨ info.state = asrFail))

/-- Every invocation was for a wake-up or a result, no two for the same one, and `info`
was never read while it was NULL. -/
structure HandledOnce (vr : Vr) : Prop where
  no_fault : vr.pc ≠ .faulted
  once : (vr.handled.map Prod.fst).Nodup
  kinds : ∀ entry ∈ vr.handled, WakeupOrResult entry.2

/-- The event in `ai_vr_info` has not been handed to `callback_to_mozart`. -/
def Unhandled (vr : Vr) : Prop := vr.event ∉ vr.handled.map Prod.fst

/-- The last event is posted, nothing is stored since, and it is one that a turn for its
source does not act on. -/
def LeftAlone (vr : Vr) : Prop :=
  vr.stored = false ∧ (vr.aiVrInfo.source = .content ∨
    (vr.aiVrInfo.source = .asr ∧ vr.aiVrInfo.state = asrBreak))

/-- The wait for an ASR result ends and `callback_to_mozart` is invoked. -/
def CallsBack (vr : Vr) (cnt : Nat) : Prop :=
  vr.aiVrInfo.state ≠ asrBreak ∧ cnt ≠ cnt1000 ∧ vr.callback

/-- A turn that comes to read `info` finds an event that was not handed over before, not
even between its store and its posting; and the wait for a result is not given up with
something else in `info`. -/
def Answered (vr : Vr) : Op → Prop
  | .logic _ _ =>
      match vr.pc with
      | .readSource => vr.infoSet ∧ (Unhandled vr ∨ LeftAlone vr)
      | .judging cnt => CallsBack vr cnt → WakeupOrResult vr.aiVrInfo
      | _ => True
  | _ => True

/-- The places where a turn has taken the event for one of the recogniser. -/
def Pc.waits : Pc → Bool
  | .waiting _ | .judging _ => true
  | _ => false

structure Fresh (vr : Vr) : Prop where
  handled_once : HandledOnce vr
  earlier : ∀ entry ∈ vr.handled, entry.1 ≤ vr.event
  called : vr.handled ≠ [] → vr.callback
  waiting : Pc.waits vr.pc →
    vr.infoSet ∧ (Unhandled vr ∨ (vr.stored = false ∧ vr.aiVrInfo.state = asrBreak))
  reading : vr.pc = .readSourceAgain →
    vr.infoSet ∧ (Unhandled vr ∨ (vr.stored = false ∧ vr.aiVrInfo.source ≠ .aec))

section LogicStep

variable {vr : Vr} (fresh : Fresh vr)

include fresh

end LogicStep

/-- The handled events after another look at one that was handled before. -/
theorem not_handled_once_of_again {vr : Vr} (old : vr.event ∈ vr.handled.map Prod.fst)
    {other : Vr} (again : other.handled = vr.handle.handled) : ¬ HandledOnce other := by
  intro once
  have nodup := once.once
  simp only [again, Vr.handle, List.map_append, List.map_cons, List.map_nil] at nodup
  exact (List.nodup_append.mp nodup).2.2 _ old _ (List.mem_singleton_self _) rfl

/-- What a turn needs to hand over an event that was handed over before. -/
structure Again (vr : Vr) : Prop where
  pointed : vr.infoSet = true
  called : vr.callback = true
  old : vr.event ∈ vr.handled.map Prod.fst

section Again

variable {vr : Vr} (again : Again vr)

include again

theorem again_goto (pc : Pc) : Again (vr.goto pc) := ⟨again.pointed, again.called, again.old⟩

/-- Stores keep the number of an event that is not posted yet. -/
theorem again_store (stored : vr.stored = true) (info : VrInfo) : Again (vr.store info) := by
  refine ⟨again.pointed, again.called, ?_⟩
  have same : (vr.store info).event = vr.event := by simp [Vr.event, Vr.store, stored]
  rw [same]
  exact again.old

theorem wakeup_again (here : vr.pc = .readSourceAgain) (wakeup : vr.aiVrInfo.source = .aec) :
    ¬ HandledOnce (step vr (.logic false .toNull)) := by
  apply not_handled_once_of_again again.old
  simp [step, Vr.logicStep, here, Vr.wakeupStep, Vr.withInfo, again.pointed, again.called,
    wakeup, fastAecWakeupMode]

theorem judged_again {cnt : Nat} (here : vr.pc = .judging cnt)
    (going : vr.aiVrInfo.state ≠ asrBreak) (cnt_ne : cnt ≠ cnt1000) :
    ¬ HandledOnce (step vr (.logic false .toNull)) := by
  apply not_handled_once_of_again again.old
  simp [step, Vr.logicStep, here, Vr.judgeStep, Vr.withInfo, again.pointed, again.called, going,
    cnt_ne, Vr.goto]

theorem waited_again {cnt : Nat} (left : cnt ≤ cnt1000) (here : vr.pc = .waiting cnt)
    (unsettled : ¬ Settled vr.aiVrInfo.state) : ∃ later, ¬ HandledOnce (run step vr later) := by
  obtain ⟨rest, count⟩ := Nat.exists_eq_add_of_le left
  induction rest generalizing vr cnt with
  | zero =>
      have last : step vr (.logic false .toNull) = vr.goto (.judging (cnt + 1)) := by
        simp [step, Vr.logicStep, here, Vr.waitStep, Vr.withInfo, again.pointed, unsettled, count]
      refine ⟨[.logic false .toNull, .logic false .toNull], ?_⟩
      rw [run_cons, last]
      apply judged_again (again_goto again _) rfl
      · exact fun broken => unsettled (.inr (.inr broken))
      · omega
  | succ rest induction =>
      have next : step vr (.logic false .toNull) = vr.goto (.waiting (cnt + 1)) := by
        have allowed : cnt < cnt1000 := by omega
        simp [step, Vr.logicStep, here, Vr.waitStep, Vr.withInfo, again.pointed, unsettled, allowed]
      obtain ⟨later, mishandled⟩ :=
        induction (again_goto again (.waiting (cnt + 1))) (by omega) rfl unsettled (by omega)
      refine ⟨.logic false .toNull :: later, ?_⟩
      rw [run_cons, next]
      exact mishandled

theorem result_again (here : vr.pc = .waiting 0) (going : vr.aiVrInfo.state ≠ asrBreak) :
    ∃ later, ¬ HandledOnce (run step vr later) := by
  by_cases settled : Settled vr.aiVrInfo.state
  · have judged : step vr (.logic false .toNull) = vr.goto (.judging 0) := by
      simp [step, Vr.logicStep, here, Vr.waitStep, Vr.withInfo, again.pointed, settled]
    refine ⟨[.logic false .toNull, .logic false .toNull], ?_⟩
    rw [run_cons, judged]
    exact judged_again (again_goto again _) rfl going (by decide)
  · exact waited_again again (Nat.zero_le _) here settled

theorem turn_again (here : vr.pc = .readSource) (acted : ¬ LeftAlone vr) (opened : Bool)
    (reply : VrTarget) :
    ∃ later, ¬ HandledOnce (run step vr (.logic opened reply :: later)) := by
  by_cases recogniser : vr.aiVrInfo.source = .asr
  · have turn : step vr (.logic opened reply) = vr.goto (.waiting 0) := by
      simp [step, Vr.logicStep, here, Vr.withInfo, again.pointed, recogniser]
    simp only [run_cons, turn]
    cases stored : vr.stored with
    | true =>
        obtain ⟨later, mishandled⟩ := result_again
          (again_store (again_goto again (.waiting 0)) stored ⟨.asr, asrSuccess⟩) rfl nofun
        exact ⟨.store ⟨.asr, asrSuccess⟩ :: later, mishandled⟩
    | false =>
        apply result_again (again_goto again (.waiting 0)) rfl
        intro broken
        exact acted ⟨stored, .inr ⟨recogniser, broken⟩⟩
  · have turn : step vr (.logic opened reply) = vr.goto .readSourceAgain := by
      simp [step, Vr.logicStep, here, Vr.withInfo, again.pointed, recogniser]
    simp only [run_cons, turn]
    cases stored : vr.stored with
    | true =>
        refine ⟨[.store ⟨.aec, 1⟩, .logic false .toNull], ?_⟩
        exact wakeup_again (again_store (again_goto again .readSourceAgain) stored ⟨.aec, 1⟩)
          rfl rfl
    | false =>
        cases source : vr.aiVrInfo.source with
        | aec =>
            exact ⟨[.logic false .toNull],
              wakeup_again (again_goto again .readSourceAgain) rfl source⟩
        | asr => exact absurd source recogniser
        | content => exact absurd ⟨stored, .inl source⟩ acted

end Again

/-- A turn without an event of its own reads `info` while it is NULL or can hand an event
over again. -/
theorem mishandled_of_stale_turn {vr : Vr} (fresh : Fresh vr) (here : vr.pc = .readSource)
    (stale : ¬ (vr.infoSet ∧ (Unhandled vr ∨ LeftAlone vr))) (opened : Bool)
    (reply : VrTarget) : ∃ later, ¬ HandledOnce (run step vr (.logic opened reply :: later)) := by
  cases set : vr.infoSet with
  | false =>
      refine ⟨[], fun once => once.no_fault ?_⟩
      simp [run, step, Vr.logicStep, here, Vr.withInfo, set, Vr.goto]
  | true =>
      have old : vr.event ∈ vr.handled.map Prod.fst := by
        by_contra new
        exact stale ⟨set, .inl new⟩
      obtain ⟨entry, member, -⟩ := List.mem_map.mp old
      have again : Again vr := ⟨set, fresh.called (List.ne_nil_of_mem member), old⟩
      apply turn_again again here
      exact fun alone => stale ⟨set, .inr alone⟩

/-- A wait for a result that is given up with something else in `info` hands it on. -/
theorem mishandled_of_given_up_wait {vr : Vr} (fresh : Fresh vr) {cnt : Nat}
    (here : vr.pc = .judging cnt) (calls : CallsBack vr cnt)
    (other : ¬ WakeupOrResult vr.aiVrInfo) (opened : Bool) (reply : VrTarget) :
    ¬ HandledOnce (step vr (.logic opened reply)) := by
  intro once
  have set := (fresh.waiting (by rw [here]; rfl)).1
  apply other
  apply once.kinds (vr.event, vr.aiVrInfo)
  simp [step, Vr.logicStep, here, Vr.judgeStep, Vr.withInfo, set, calls.1, calls.2.1, calls.2.2,
    Vr.handle, Vr.goto]

/-- Every step that the condition rules out can be followed by a mishandled event. -/
theorem event_mishandled_of_unanswered (vr : Vr) (fresh : Fresh vr) (op : Op)
    (unanswered : ¬ Answered vr op) : ∃ later, ¬ HandledOnce (run step vr (op :: later)) := by
  cases op with
  | logic opened reply =>
      rw [Answered] at unanswered
      cases here : vr.pc with
      | readSource =>
          simp only [here] at unanswered
          exact mishandled_of_stale_turn fresh here unanswered opened reply
      | judging cnt =>
          simp only [here] at unanswered
          obtain ⟨calls, other⟩ := Classical.not_imp.mp unanswered
          exact ⟨[], mishandled_of_given_up_wait fresh here calls other opened reply⟩
      | _ =>
          simp only [here] at unanswered
          exact absurd trivial unanswered
  | store | post | start | stop | control | uninit => exact absurd trivial unanswered

end Gk7102.VrEvents
