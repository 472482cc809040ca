import Mathlib.Data.List.Basic

/-!
# Calls that leave a record

A call records what it does, one event after the other, and ends with a result. A
call that stops at a fault has none, and records nothing after it. Two calls run
one after the other as the monad says, and `forEach` runs a counted loop.
-/

namespace Gk7102.RecordedCalls

set_option autoImplicit false

universe u v

structure Recorded (Event : Type u) (α : Type v) where
  events : List Event
  result : Option α

variable {Event : Type u} {α β : Type v}

def finish (value : α) : Recorded Event α where
  events := []
  result := some value

def fault : Recorded Event α where
  events := []
  result := none

def record (event : Event) : Recorded Event Unit where
  events := [event]
  result := some ()

def Recorded.next (call : Recorded Event α) (later : α → Recorded Event β) :
    Recorded Event β :=
  match call.result with
  | none => ⟨call.events, none⟩
  | some value => ⟨call.events ++ (later value).events, (later value).result⟩

instance : Monad (Recorded Event) where
  pure := finish
  bind := Recorded.next

def forEach (body : Nat → Recorded Event Unit) : Nat → Recorded Event Unit
  | 0 => pure ()
  | count + 1 => do
      forEach body count
      body count

section Laws

variable {call : Recorded Event α} {later : α → Recorded Event β}

@[simp] theorem pure_events (value : α) : (pure value : Recorded Event α).events = [] := rfl

@[simp] theorem pure_result (value : α) :
    (pure value : Recorded Event α).result = some value := rfl

@[simp] theorem fault_events : (fault : Recorded Event α).events = [] := rfl

@[simp] theorem fault_result : (fault : Recorded Event α).result = none := rfl

@[simp] theorem record_events (event : Event) : (record event).events = [event] := rfl

@[simp] theorem record_result (event : Event) : (record event).result = some () := rfl

@[simp] theorem bind_result :
    (call >>= later).result = call.result.bind fun value => (later value).result := by
  change (call.next later).result = _
  unfold Recorded.next
  cases call.result with
  | none => rfl
  | some value => rfl

theorem bind_events_of_result {value : α} (reached : call.result = some value) :
    (call >>= later).events = call.events ++ (later value).events := by
  change (call.next later).events = _
  unfold Recorded.next
  rw [reached]

theorem bind_events_of_fault (stopped : call.result = none) :
    (call >>= later).events = call.events := by
  change (call.next later).events = _
  unfold Recorded.next
  rw [stopped]

theorem mem_bind_events {event : Event} :
    event ∈ (call >>= later).events ↔
      event ∈ call.events ∨ ∃ value, call.result = some value ∧ event ∈ (later value).events := by
  cases reached : call.result with
  | none => simp [bind_events_of_fault reached]
  | some value => simp [bind_events_of_result reached]

theorem mem_then_events {rest : Recorded Event β} {event : Event} :
    event ∈ (call >>= fun _ => rest).events ↔
      event ∈ call.events ∨ call.result.isSome ∧ event ∈ rest.events := by
  rw [mem_bind_events]
  cases call.result with
  | none => simp
  | some value => simp

theorem then_defined {rest : Recorded Event β} :
    (call >>= fun _ => rest).result.isSome ↔ call.result.isSome ∧ rest.result.isSome := by
  rw [bind_result]
  cases call.result with
  | none => simp
  | some value => simp

end Laws

section Loops

variable {body : Nat → Recorded Event Unit}

theorem for_each_defined (count : Nat) :
    (forEach body count).result.isSome ↔ ∀ i < count, (body i).result.isSome := by
  induction count with
  | zero => simp [forEach]
  | succ count ih =>
      rw [forEach, then_defined, ih]
      constructor
      · rintro ⟨before, last⟩ i below
        cases Nat.lt_succ_iff_lt_or_eq.mp below with
        | inl earlier => exact before i earlier
        | inr same => rwa [same]
      · intro every
        exact ⟨fun i below => every i (by omega), every count (by omega)⟩

theorem mem_of_for_each {event : Event} {count : Nat}
    (inside : event ∈ (forEach body count).events) :
    ∃ i < count, event ∈ (body i).events := by
  induction count with
  | zero => simp [forEach] at inside
  | succ count ih =>
      rw [forEach, mem_then_events] at inside
      rcases inside with earlier | ⟨_, last⟩
      · obtain ⟨i, below, recorded⟩ := ih earlier
        exact ⟨i, by omega, recorded⟩
      · exact ⟨count, by omega, last⟩

theorem mem_for_each {event : Event} {count : Nat}
    (finished : (forEach body count).result.isSome) :
    event ∈ (forEach body count).events ↔ ∃ i < count, event ∈ (body i).events := by
  constructor
  · exact mem_of_for_each
  · induction count with
    | zero => simp
    | succ count ih =>
        rintro ⟨i, below, recorded⟩
        rw [forEach, then_defined] at finished
        rw [forEach, mem_then_events]
        cases Nat.lt_succ_iff_lt_or_eq.mp below with
        | inl earlier => exact Or.inl (ih finished.1 ⟨i, earlier, recorded⟩)
        | inr same => exact Or.inr ⟨finished.1, same ▸ recorded⟩

end Loops

section Contracts

variable {allowed : Event → Prop} {good : α → Prop}

/-- Every event is allowed, and what the call ends with, if it does, is good. -/
def Meets (allowed : Event → Prop) (good : α → Prop) (call : Recorded Event α) : Prop :=
  (∀ event ∈ call.events, allowed event) ∧ ∀ value, call.result = some value → good value

@[simp] theorem meets_pure (value : α) : Meets allowed good (pure value) ↔ good value := by
  simp [Meets]

@[simp] theorem meets_fault : Meets allowed good fault := by simp [Meets]

@[simp] theorem meets_record {good : Unit → Prop} (event : Event) :
    Meets allowed good (record event) ↔ allowed event ∧ good () := by
  constructor
  · intro meets
    exact ⟨meets.1 event List.mem_cons_self, meets.2 () rfl⟩
  · rintro ⟨here, done⟩
    exact ⟨fun _ inside => List.mem_singleton.mp inside ▸ here, fun _ _ => done⟩

theorem meets_bind {good : β → Prop} {call : Recorded Event α} {later : α → Recorded Event β} :
    Meets allowed good (call >>= later) ↔
      Meets allowed (fun value => Meets allowed good (later value)) call := by
  unfold Meets
  cases reached : call.result with
  | none => simp [bind_events_of_fault reached, bind_result, reached]
  | some value =>
      simp only [bind_events_of_result reached, bind_result, reached, Option.bind_some,
        List.mem_append, Option.some.injEq, forall_eq']
      constructor
      · rintro ⟨every, last⟩
        exact ⟨fun event inside => every event (.inl inside),
          fun event inside => every event (.inr inside), last⟩
      · rintro ⟨first, others, last⟩
        exact ⟨fun event inside => inside.elim (first event) (others event), last⟩

theorem meets_mono {better : α → Prop} {call : Recorded Event α}
    (implies : ∀ value, good value → better value) (meets : Meets allowed good call) :
    Meets allowed better call :=
  ⟨meets.1, fun value reached => implies value (meets.2 value reached)⟩

theorem meets_congr {other : α → Prop} {call : Recorded Event α}
    (same : ∀ value, good value ↔ other value) :
    Meets allowed good call ↔ Meets allowed other call :=
  ⟨meets_mono fun value => (same value).mp, meets_mono fun value => (same value).mpr⟩

theorem meets_done {call : Recorded Event α} {value : α}
    (done : Meets allowed (fun _ => True) call) (reached : call.result = some value) :
    Meets allowed good call ↔ good value := by
  rw [Meets, reached]
  simp only [Option.some.injEq, forall_eq', and_iff_right_iff_imp]
  exact fun _ => done.1

/-- A call cannot do what is allowed without coming to an end. -/
def Ends (allowed : Event → Prop) (call : Recorded Event α) : Prop :=
  ¬ Meets allowed (fun _ => False) call

theorem ends_pure (value : α) : Ends allowed (pure value) := by simp [Ends]

theorem ends_bind {call : Recorded Event α} {later : α → Recorded Event β}
    (first : Ends allowed call) (others : ∀ value, Ends allowed (later value)) :
    Ends allowed (call >>= later) := by
  intro meets
  exact first (meets_mono others (meets_bind.mp meets))

theorem ends_with {call : Recorded Event α} (ends : Ends allowed call)
    (meets : Meets allowed good call) : ∃ value, call.result = some value ∧ good value := by
  cases reached : call.result with
  | none => exact absurd ⟨meets.1, by simp [reached]⟩ ends
  | some value => exact ⟨value, rfl, meets.2 value reached⟩

/-- What two contracts say of a call that comes to an end holds of one value. -/
theorem exists_of_meets {other : α → Prop} {call : Recorded Event α} (ends : Ends allowed call)
    (first : Meets allowed good call) (second : Meets allowed other call) :
    ∃ value, good value ∧ other value := by
  obtain ⟨value, reached, holds⟩ := ends_with ends first
  exact ⟨value, holds, second.2 value reached⟩

def Returns (allowed : Event → Prop) (value : α) (call : Recorded Event α) : Prop :=
  (∀ event ∈ call.events, allowed event) ∧ call.result = some value

theorem returns_pure (value : α) : Returns allowed value (pure value) := by simp [Returns]

theorem returns_record {event : Event} (here : allowed event) :
    Returns allowed () (record event) :=
  ⟨fun _ inside => List.mem_singleton.mp inside ▸ here, rfl⟩

theorem returns_bind {value : α} {last : β} {call : Recorded Event α}
    {later : α → Recorded Event β} (first : Returns allowed value call)
    (second : Returns allowed last (later value)) : Returns allowed last (call >>= later) := by
  constructor
  · rw [bind_events_of_result first.2]
    exact List.forall_mem_append.mpr ⟨first.1, second.1⟩
  · rw [bind_result, first.2]
    exact second.2

end Contracts

end Gk7102.RecordedCalls
