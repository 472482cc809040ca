import Mathlib.Data.List.Infix

/-!
# Runs of a total step function

A component is a state type, a type of operations and one total step. An
operation that is not enabled leaves the state alone, so the same three notions
serve a sequential store and a set of interleaved threads. `AlongRun` speaks of
every state a run visits, `EveryStep` of every step it takes; the exact-step rule
turns a per-step equivalence into one about whole runs.
-/

namespace Gk7102.StepRuns

set_option autoImplicit false

variable {State Op : Type*}

def run (step : State → Op → State) (start : State) (ops : List Op) : State :=
  ops.foldl step start

/-- The property holds in every state the run visits, the first one included. -/
def AlongRun (step : State → Op → State) (good : State → Prop) :
    State → List Op → Prop
  | state, [] => good state
  | state, op :: rest => good state ∧ AlongRun step good (step state op) rest

/-- Each operation of the run meets the condition in the state it starts from. -/
def EveryStep (step : State → Op → State) (safe : State → Op → Prop) :
    State → List Op → Prop
  | _, [] => True
  | state, op :: rest => safe state op ∧ EveryStep step safe (step state op) rest

section Laws

variable {step : State → Op → State} {good : State → Prop} {safe : State → Op → Prop}

@[simp] theorem run_nil (start : State) : run step start [] = start := rfl

@[simp] theorem run_cons (start : State) (op : Op) (rest : List Op) :
    run step start (op :: rest) = run step (step start op) rest := rfl

theorem run_append (start : State) (before after : List Op) :
    run step start (before ++ after) = run step (run step start before) after := by
  simp only [run, List.foldl_append]

theorem invariant_of_run {inv : State → Prop}
    (preserved : ∀ state op, inv state → inv (step state op))
    (start : State) (holds : inv start) (ops : List Op) : inv (run step start ops) := by
  induction ops generalizing start with
  | nil => exact holds
  | cons op rest ih => exact ih (step start op) (preserved start op holds)

theorem along_run_start {start : State} {ops : List Op}
    (along : AlongRun step good start ops) : good start := by
  cases ops with
  | nil => exact along
  | cons op rest => exact along.1

theorem along_run_iff_prefixes (start : State) (ops : List Op) :
    AlongRun step good start ops ↔
      ∀ before, before <+: ops → good (run step start before) := by
  induction ops generalizing start with
  | nil =>
      constructor
      · intro holds before within
        rw [List.prefix_nil.mp within]
        exact holds
      · intro every
        exact every [] (List.prefix_refl [])
  | cons op rest ih =>
      constructor
      · rintro ⟨here, later⟩ before within
        cases before with
        | nil => exact here
        | cons first others =>
            rcases List.cons_prefix_cons.mp within with ⟨rfl, tail⟩
            exact (ih (step start first)).mp later others tail
      · intro every
        refine ⟨every [] (List.nil_prefix), (ih (step start op)).mpr ?_⟩
        intro before within
        exact every (op :: before) (List.cons_prefix_cons.mpr ⟨rfl, within⟩)

/-- An invariant that safe steps keep survives a run of safe steps. -/
theorem invariant_of_every_step {inv : State → Prop}
    (kept : ∀ state op, inv state → safe state op → inv (step state op))
    (start : State) (holds : inv start) (ops : List Op) (every : EveryStep step safe start ops) :
    inv (run step start ops) := by
  induction ops generalizing start with
  | nil => exact holds
  | cons op rest ih => exact ih (step start op) (kept start op holds every.1) every.2

/-- A property that the invariant covers holds in every state of a run of safe steps. -/
theorem along_run_of_every_step {inv : State → Prop}
    (covers : ∀ state, inv state → good state)
    (kept : ∀ state op, inv state → safe state op → inv (step state op))
    (start : State) (holds : inv start) (ops : List Op) (every : EveryStep step safe start ops) :
    AlongRun step good start ops := by
  induction ops generalizing start with
  | nil => exact covers start holds
  | cons op rest ih =>
      exact ⟨covers start holds, ih (step start op) (kept start op holds every.1) every.2⟩

/-- One unsafe step is enough to lose a run, when what it loses stays lost. -/
theorem lost_of_unsafe_step {inv lost : State → Prop}
    (kept : ∀ state op, inv state → safe state op → inv (step state op))
    (loses : ∀ state op, inv state → ¬ safe state op → lost (step state op))
    (stays : ∀ state op, lost state → lost (step state op))
    (start : State) (holds : inv start) (ops : List Op)
    (violated : ¬ EveryStep step safe start ops) : lost (run step start ops) := by
  induction ops generalizing start with
  | nil => exact absurd trivial violated
  | cons op rest ih =>
      by_cases allowed : safe start op
      · apply ih (step start op) (kept start op holds allowed)
        intro later
        exact violated ⟨allowed, later⟩
      · exact invariant_of_run stays _ (loses start op holds allowed) rest

/-- Conditions that agree under an invariant agree along every run that starts in it. -/
theorem every_step_congr_within {inv : State → Prop} {allowed : State → Op → Prop}
    (preserved : ∀ state op, inv state → inv (step state op))
    (agree : ∀ state op, inv state → (safe state op ↔ allowed state op))
    (start : State) (holds : inv start) (ops : List Op) :
    EveryStep step safe start ops ↔ EveryStep step allowed start ops := by
  induction ops generalizing start with
  | nil => exact Iff.rfl
  | cons op rest ih =>
      exact and_congr (agree start op holds) (ih (step start op) (preserved start op holds))

/-- Under an invariant that safe steps keep, what a safe step entails holds at every step
of a run of safe steps. -/
theorem every_step_of_every_step {inv : State → Prop} {allowed : State → Op → Prop}
    (kept : ∀ state op, inv state → safe state op → inv (step state op))
    (entails : ∀ state op, inv state → safe state op → allowed state op)
    (start : State) (holds : inv start) (ops : List Op) (every : EveryStep step safe start ops) :
    EveryStep step allowed start ops := by
  induction ops generalizing start with
  | nil => exact trivial
  | cons op rest ih =>
      exact ⟨entails start op holds every.1,
        ih (step start op) (kept start op holds every.1) every.2⟩

/-- Conditions that agree in every state agree along every run. -/
theorem every_step_congr {allowed : State → Op → Prop}
    (agree : ∀ state op, safe state op ↔ allowed state op) (start : State) (ops : List Op) :
    EveryStep step safe start ops ↔ EveryStep step allowed start ops :=
  @every_step_congr_within _ _ step safe (fun _ => True) allowed (fun _ _ _ => trivial)
    (fun state op _ => agree state op) start trivial ops

/-- A condition on a view of the state that steps by itself is a condition on its own run. -/
theorem every_step_of_view {View : Type*} {viewStep : View → Op → View} (view : State → View)
    {allowed : View → Op → Prop}
    (follows : ∀ state op, view (step state op) = viewStep (view state) op)
    (start : State) (ops : List Op) :
    EveryStep step (fun state op => allowed (view state) op) start ops ↔
      EveryStep viewStep allowed (view start) ops := by
  induction ops generalizing start with
  | nil => exact Iff.rfl
  | cons op rest ih =>
      have later := ih (step start op)
      rw [follows] at later
      exact and_congr Iff.rfl later

theorem along_run_of_view {View : Type*} {viewStep : View → Op → View} (view : State → View)
    {goodView : View → Prop}
    (follows : ∀ state op, view (step state op) = viewStep (view state) op)
    (start : State) (ops : List Op) :
    AlongRun step (fun state => goodView (view state)) start ops ↔
      AlongRun viewStep goodView (view start) ops := by
  induction ops generalizing start with
  | nil => exact Iff.rfl
  | cons op rest ih =>
      have later := ih (step start op)
      rw [follows] at later
      exact and_congr Iff.rfl later

/-- The exact-step rule for a run of lawful steps. Under an invariant that safe steps keep, a
property is never lost along the run exactly when no step of it is an unsafe one. -/
theorem along_run_iff_every_step_of_law (inv : State → Prop) {law : State → Op → Prop}
    (covers : ∀ state, inv state → good state)
    (kept : ∀ state op, inv state → law state op → safe state op → inv (step state op))
    (lost : ∀ state op, inv state → law state op → ¬ safe state op → ¬ good (step state op))
    (start : State) (holds : inv start) (ops : List Op) (lawful : EveryStep step law start ops) :
    AlongRun step good start ops ↔ EveryStep step safe start ops := by
  induction ops generalizing start with
  | nil => exact ⟨fun _ => trivial, fun _ => covers start holds⟩
  | cons op rest ih =>
      by_cases allowed : safe start op
      · have next := ih (step start op) (kept start op holds lawful.1 allowed) lawful.2
        constructor
        · intro along
          exact ⟨allowed, next.mp along.2⟩
        · intro every
          exact ⟨covers start holds, next.mpr every.2⟩
      · constructor
        · intro along
          exact absurd (along_run_start along.2) (lost start op holds lawful.1 allowed)
        · intro every
          exact absurd every.1 allowed

/-- What every operation of the list meets, every step of the run meets. -/
theorem every_step_of_all {allowed : Op → Prop} (start : State) {ops : List Op}
    (all : ∀ op ∈ ops, allowed op) : EveryStep step (fun _ op => allowed op) start ops := by
  induction ops generalizing start with
  | nil => exact trivial
  | cons op rest ih =>
      rw [List.forall_mem_cons] at all
      exact ⟨all.1, ih (step start op) all.2⟩

theorem every_step_trivial (start : State) (ops : List Op) :
    EveryStep step (fun _ _ => True) start ops :=
  every_step_of_all start fun _ _ => trivial

/-- The exact-step rule where every step is lawful. -/
theorem along_run_iff_every_step (inv : State → Prop)
    (covers : ∀ state, inv state → good state)
    (kept : ∀ state op, inv state → safe state op → inv (step state op))
    (lost : ∀ state op, inv state → ¬ safe state op → ¬ good (step state op))
    (start : State) (holds : inv start) (ops : List Op) :
    AlongRun step good start ops ↔ EveryStep step safe start ops :=
  along_run_iff_every_step_of_law inv covers (fun state op before _ => kept state op before)
    (fun state op before _ => lost state op before) start holds ops (every_step_trivial start ops)

/-- Where a good state makes a step good and lawful exactly when it is safe, a run from a good
state is good and lawful throughout exactly when every step of it is safe. -/
theorem along_run_and_every_step_iff {law : State → Op → Prop}
    (agree : ∀ state op, good state → (good (step state op) ∧ law state op ↔ safe state op))
    (start : State) (holds : good start) (ops : List Op) :
    AlongRun step good start ops ∧ EveryStep step law start ops ↔
      EveryStep step safe start ops := by
  induction ops generalizing start with
  | nil => exact ⟨fun _ => trivial, fun _ => ⟨holds, trivial⟩⟩
  | cons op rest ih =>
      constructor
      · intro kept
        have next := along_run_start kept.1.2
        exact ⟨(agree start op holds).mp ⟨next, kept.2.1⟩,
          (ih (step start op) next).mp ⟨kept.1.2, kept.2.2⟩⟩
      · intro every
        have here := (agree start op holds).mpr every.1
        have later := (ih (step start op) here.1).mpr every.2
        exact ⟨⟨holds, later.1⟩, here.2, later.2⟩

end Laws

end Gk7102.StepRuns
