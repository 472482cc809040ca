import Mathlib.Data.List.Infix

/-!
# Scanning up to a stop

A scan goes through a text until what lies ahead meets a condition, or to the end.
The condition may look at several items. A position in a buffer stands for the
text from there on; the loop over positions arrives where the scan of that text stops.
-/

namespace Gk7102.TextScan

set_option autoImplicit false

variable {Item : Type*}

def takeUntil (stop : List Item → Bool) : List Item → List Item
  | [] => []
  | item :: rest => if stop (item :: rest) then [] else item :: takeUntil stop rest

def dropUntil (stop : List Item → Bool) : List Item → List Item
  | [] => []
  | item :: rest => if stop (item :: rest) then item :: rest else dropUntil stop rest

section Laws

variable (stop : List Item → Bool)

theorem take_until_append_drop_until (text : List Item) :
    takeUntil stop text ++ dropUntil stop text = text := by
  induction text with
  | nil => rfl
  | cons item rest ih =>
      rw [takeUntil, dropUntil]
      split
      · rfl
      · rw [List.cons_append, ih]

theorem drop_until_eq_drop (text : List Item) :
    dropUntil stop text = text.drop (takeUntil stop text).length := by
  conv_rhs => rw [← take_until_append_drop_until stop text]
  rw [List.drop_append, List.drop_of_length_le, Nat.sub_eq_zero_of_le, List.drop_zero,
    List.nil_append]
  · rw [take_until_append_drop_until]
  · rw [take_until_append_drop_until]

theorem drop_until_length_le (text : List Item) : (dropUntil stop text).length ≤ text.length := by
  rw [drop_until_eq_drop, List.length_drop]
  exact Nat.sub_le _ _

theorem drop_until_stops (text : List Item) (more : dropUntil stop text ≠ []) :
    stop (dropUntil stop text) = true := by
  induction text with
  | nil => exact absurd rfl more
  | cons item rest ih =>
      rw [dropUntil] at more ⊢
      by_cases here : stop (item :: rest) = true
      · rw [if_pos here]
        exact here
      · rw [if_neg here] at more ⊢
        exact ih more

variable {stop}

theorem drop_until_here {text : List Item} (here : stop text = true) :
    dropUntil stop text = text := by
  cases text with
  | nil => rfl
  | cons item rest => rw [dropUntil, if_pos here]

theorem take_until_here {text : List Item} (here : stop text = true) :
    takeUntil stop text = [] := by
  cases text with
  | nil => rfl
  | cons item rest => rw [takeUntil, if_pos here]

theorem drop_until_past {front : List Item} (passes : ∀ item ∈ front, ∀ rest,
    stop (item :: rest) = false) (rest : List Item) :
    dropUntil stop (front ++ rest) = dropUntil stop rest := by
  induction front with
  | nil => rfl
  | cons item others ih =>
      have here := passes item List.mem_cons_self (others ++ rest)
      rw [List.cons_append, dropUntil, here]
      exact ih fun other member => passes other (List.mem_cons_of_mem _ member)

theorem take_until_past {front : List Item} (passes : ∀ item ∈ front, ∀ rest,
    stop (item :: rest) = false) (rest : List Item) :
    takeUntil stop (front ++ rest) = front ++ takeUntil stop rest := by
  induction front with
  | nil => rfl
  | cons item others ih =>
      have here := passes item List.mem_cons_self (others ++ rest)
      rw [List.cons_append, takeUntil, here, List.cons_append]
      have later := ih fun other member => passes other (List.mem_cons_of_mem _ member)
      rw [← later]
      rfl

end Laws

section Cuts

/-- The text is cut where one of the marks begins for the first time. -/
structure CutAt (marks : List (List Item)) (front rest : List Item) : Prop where
  here : ∃ mark ∈ marks, mark <+: rest
  first : ∀ passed left, front = passed ++ left → left ≠ [] →
    ∀ mark ∈ marks, ¬mark <+: left ++ rest

variable {marks : List (List Item)} {stop : List Item → Bool}
  (agrees : ∀ text, stop text = true ↔ ∃ mark ∈ marks, mark <+: text)

include agrees

end Cuts

section Positions

/-- `while (!stop(ptr) && ptr != end) ptr++;` -/
def scanLoop (stop : List Item → Bool) (buffer : List Item) : Nat → Nat → Option Nat
  | 0, _ => none
  | rounds + 1, position =>
      if stop (buffer.drop position) || position == buffer.length then some position
      else scanLoop stop buffer rounds (position + 1)

variable {stop : List Item → Bool} {buffer : List Item}

/-- Inside the buffer the loop ends, at the latest behind the last item. -/
theorem scan_loop_arrives {position rounds : Nat} (inside : position ≤ buffer.length)
    (enough : buffer.length - position < rounds) :
    scanLoop stop buffer rounds position =
      some (position + (takeUntil stop (buffer.drop position)).length) := by
  induction rounds generalizing position with
  | zero => exact absurd enough (Nat.not_lt_zero _)
  | succ fewer ih =>
      rw [scanLoop]
      by_cases atEnd : position = buffer.length
      · have nothing : buffer.drop position = [] := List.drop_of_length_le (by omega)
        have reached : (position == buffer.length) = true := beq_iff_eq.mpr atEnd
        rw [reached, Bool.or_true, if_pos rfl, nothing]
        rfl
      · have notReached : (position == buffer.length) = false := beq_eq_false_iff_ne.mpr atEnd
        have within : position < buffer.length := by omega
        rw [notReached, Bool.or_false]
        by_cases here : stop (buffer.drop position) = true
        · rw [if_pos here, take_until_here here]
          rfl
        · rw [if_neg here, ih (by omega) (by omega), List.drop_eq_getElem_cons within, takeUntil,
            if_neg (by rw [← List.drop_eq_getElem_cons within]; exact here), List.length_cons,
            Nat.add_assoc, Nat.add_comm 1]

end Positions

end Gk7102.TextScan
