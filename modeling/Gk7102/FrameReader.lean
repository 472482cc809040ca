import Gk7102.StepRuns

/-!
# Readers of framed streams

A reader takes a stream one symbol at a time and hands over an item whenever it has
seen the whole code of one. What it hands over then depends on the symbols alone and not
on how they were cut into reads. A buffered reader is held against this one: each of its
reads takes some of what has arrived, as the reader by symbols would.
-/

namespace Gk7102.FrameReader

open StepRuns

set_option autoImplicit false

variable {State Symbol Item Frame Script : Type*}

def feedAll (feed : State → Symbol → State × List Item) : State → List Symbol → State × List Item
  | state, [] => (state, [])
  | state, symbol :: rest =>
      let (next, items) := feed state symbol
      let (last, later) := feedAll feed next rest
      (last, items ++ later)

def Allowed (feed : State → Symbol → State × List Item) (legal : State → Symbol → Prop) :
    State → List Symbol → Prop
  | _, [] => True
  | state, symbol :: rest => legal state symbol ∧ Allowed feed legal (feed state symbol).1 rest

section Feed

variable {feed : State → Symbol → State × List Item} {legal : State → Symbol → Prop}

theorem feed_all_append (state : State) (front back : List Symbol) :
    feedAll feed state (front ++ back) =
      ((feedAll feed (feedAll feed state front).1 back).1,
        (feedAll feed state front).2 ++ (feedAll feed (feedAll feed state front).1 back).2) := by
  induction front generalizing state with
  | nil => rfl
  | cons symbol front induction =>
      simp only [List.cons_append, feedAll, induction, List.append_assoc]

theorem allowed_append (state : State) (front back : List Symbol) :
    Allowed feed legal state (front ++ back) ↔
      Allowed feed legal state front ∧ Allowed feed legal (feedAll feed state front).1 back := by
  induction front generalizing state with
  | nil => simp [Allowed, feedAll]
  | cons symbol front induction =>
      simp only [List.cons_append, Allowed, feedAll, induction, and_assoc]

theorem invariant_of_allowed {inv : State → Prop}
    (kept : ∀ state symbol, inv state → legal state symbol → inv (feed state symbol).1)
    {state : State} (holds : inv state) {symbols : List Symbol}
    (allowed : Allowed feed legal state symbols) : inv (feedAll feed state symbols).1 := by
  induction symbols generalizing state with
  | nil => exact holds
  | cons symbol rest induction => exact induction (kept state symbol holds allowed.1) allowed.2

end Feed

section Codes

variable {feed : State → Symbol → State × List Item} {legal : State → Symbol → Prop}
  {code : Frame → List Symbol} {item : Frame → Item} {clean : State} {frames : List Frame}

theorem feed_all_codes
    (whole : ∀ frame ∈ frames, feedAll feed clean (code frame) = (clean, [item frame])) :
    feedAll feed clean (frames.flatMap code) = (clean, frames.map item) := by
  induction frames with
  | nil => rfl
  | cons frame frames induction =>
      rw [List.forall_mem_cons] at whole
      rw [List.flatMap_cons, feed_all_append, whole.1, induction whole.2]
      rfl

theorem allowed_codes
    (whole : ∀ frame ∈ frames, feedAll feed clean (code frame) = (clean, [item frame]))
    (allowed : ∀ frame ∈ frames, Allowed feed legal clean (code frame)) :
    Allowed feed legal clean (frames.flatMap code) := by
  induction frames with
  | nil => trivial
  | cons frame frames induction =>
      rw [List.forall_mem_cons] at whole allowed
      rw [List.flatMap_cons, allowed_append, whole.1]
      exact ⟨allowed.1, induction whole.2 allowed.2⟩

theorem handed_prefix_of_codes
    (whole : ∀ frame ∈ frames, feedAll feed clean (code frame) = (clean, [item frame]))
    {taken : List Symbol} (starts : taken <+: frames.flatMap code) :
    (feedAll feed clean taken).2 <+: frames.map item := by
  rcases starts with ⟨rest, joined⟩
  have all := feed_all_codes whole
  rw [← joined, feed_all_append] at all
  exact ⟨_, (Prod.mk.inj all).2⟩

theorem handed_of_codes_taken
    (whole : ∀ frame ∈ frames, feedAll feed clean (code frame) = (clean, [item frame]))
    {taken : List Symbol} (covered : frames.flatMap code <+: taken) :
    frames.map item <+: (feedAll feed clean taken).2 := by
  rcases covered with ⟨rest, joined⟩
  rw [← joined, feed_all_append, feed_all_codes whole]
  exact ⟨_, rfl⟩

end Codes

section Buffered

/-- A reader with what has arrived and is not yet read, and the items it has handed over. -/
structure Buffered (State Symbol Item : Type*) where
  state : State
  incoming : List Symbol
  handed : List Item

/-- Symbols arrive, or the reader is called; the script is what it meets in that call. -/
inductive Op (Symbol Script : Type*) where
  | arrive (symbols : List Symbol)
  | read (script : Script)

def arrived : List (Op Symbol Script) → List Symbol
  | [] => []
  | .arrive symbols :: rest => symbols ++ arrived rest
  | .read _ :: rest => arrived rest

variable (read : Script → State → List Symbol → State × List Symbol × List Item)

def step (reader : Buffered State Symbol Item) : Op Symbol Script → Buffered State Symbol Item
  | .arrive symbols => { reader with incoming := reader.incoming ++ symbols }
  | .read script =>
      let (state, incoming, items) := read script reader.state reader.incoming
      ⟨state, incoming, reader.handed ++ items⟩

/-- A call takes what it reads as the reader by symbols does, and leaves the rest. -/
def Takes (feed : State → Symbol → State × List Item) (legal : State → Symbol → Prop)
    (inv : State → Prop) : Prop :=
  ∀ script state incoming, inv state → Allowed feed legal state incoming →
    ∃ taken, incoming = taken ++ (read script state incoming).2.1 ∧
      feedAll feed state taken =
        ((read script state incoming).1, (read script state incoming).2.2)

variable {read} {feed : State → Symbol → State × List Item} {legal : State → Symbol → Prop}
  {inv : State → Prop} {clean : State}

theorem arrived_append (front back : List (Op Symbol Script)) :
    arrived (front ++ back) = arrived front ++ arrived back := by
  induction front with
  | nil => rfl
  | cons op front induction =>
      cases op with
      | arrive symbols => simp only [List.cons_append, arrived, induction, List.append_assoc]
      | read script => simp only [List.cons_append, arrived, induction]

theorem run_takes (takes : Takes read feed legal inv)
    (kept : ∀ state symbol, inv state → legal state symbol → inv (feed state symbol).1)
    (start : inv clean) (ops : List (Op Symbol Script))
    (allowed : Allowed feed legal clean (arrived ops)) :
    ∃ taken, arrived ops = taken ++ (run (step read) ⟨clean, [], []⟩ ops).incoming ∧
      feedAll feed clean taken =
        ((run (step read) ⟨clean, [], []⟩ ops).state,
          (run (step read) ⟨clean, [], []⟩ ops).handed) := by
  induction ops using List.reverseRecOn with
  | nil => exact ⟨[], rfl, rfl⟩
  | append_singleton ops op induction =>
      rw [arrived_append, allowed_append] at allowed
      rcases induction allowed.1 with ⟨taken, whole, same⟩
      rw [run_append, run_cons, run_nil, arrived_append, whole]
      cases op with
      | arrive symbols =>
          exact ⟨taken, by simp only [arrived, step, List.append_nil, List.append_assoc], same⟩
      | read script =>
          have before := allowed.1
          rw [whole, allowed_append] at before
          have holds := invariant_of_allowed kept start before.1
          rw [same] at holds before
          rcases takes script _ _ holds before.2 with ⟨more, rest, further⟩
          refine ⟨taken ++ more, ?_, ?_⟩
          · simp only [arrived, step, List.append_nil, List.append_assoc]
            rw [← rest]
          · rw [feed_all_append, same, further]
            rfl

end Buffered

end Gk7102.FrameReader
