import Mathlib.Data.List.Basic
import Mathlib.Data.List.Infix

/-!
# A sequence with a bound that evicts its oldest item

Items arrive at the tail. Once the bound is reached, each arrival drops the head
first, and an arrival that finds no head to drop is refused. What is left after
any number of arrivals is a suffix of everything that was ever there, and its
length is a closed function of the bound and the two counts.
-/

namespace Gk7102.BoundedQueue

set_option autoImplicit false

variable {α : Type*}

def push (bound : Option Nat) (items : List α) (item : α) : List α :=
  match bound with
  | none => items ++ [item]
  | some limit =>
      if limit ≤ items.length then
        match items with
        | [] => []
        | _ :: rest => rest ++ [item]
      else items ++ [item]

def pushAll (bound : Option Nat) (items arriving : List α) : List α :=
  arriving.foldl (push bound) items

/-- The length reached when `incoming` items arrive at `held` ones. -/
def settledLength (bound : Option Nat) (held incoming : Nat) : Nat :=
  match bound with
  | none => held + incoming
  | some limit => if limit ≤ held then held else min (held + incoming) limit

theorem push_suffix (bound : Option Nat) (items : List α) (item : α) :
    push bound items item <:+ items ++ [item] := by
  cases bound with
  | none => exact List.suffix_refl _
  | some limit =>
      cases items with
      | nil =>
          simp only [push]
          split
          · exact List.nil_suffix
          · exact List.suffix_refl _
      | cons head rest =>
          simp only [push]
          split
          · exact List.suffix_cons head (rest ++ [item])
          · exact List.suffix_refl _

theorem push_length (bound : Option Nat) (items : List α) (item : α) :
    (push bound items item).length = settledLength bound items.length 1 := by
  cases bound with
  | none => simp [push, settledLength]
  | some limit =>
      cases items with
      | nil =>
          simp only [push, settledLength, List.length_nil]
          split
          · rfl
          · simp only [List.nil_append, List.length_singleton]
            omega
      | cons head rest =>
          simp only [push, settledLength, List.length_cons]
          split
          · simp
          · simp only [List.length_append, List.length_cons, List.length_nil]
            omega

theorem settled_length_succ (bound : Option Nat) (held incoming : Nat) :
    settledLength bound (settledLength bound held 1) incoming =
      settledLength bound held (incoming + 1) := by
  cases bound with
  | none =>
      simp only [settledLength]
      omega
  | some limit =>
      simp only [settledLength]
      split_ifs <;> omega

theorem push_all_suffix (bound : Option Nat) (items arriving : List α) :
    pushAll bound items arriving <:+ items ++ arriving := by
  induction arriving generalizing items with
  | nil => simp [pushAll]
  | cons item rest ih =>
      have first : push bound items item ++ rest <:+ items ++ item :: rest := by
        have step := push_suffix bound items item
        rcases step with ⟨dropped, whole⟩
        exact ⟨dropped, by rw [← List.append_assoc, whole]; simp⟩
      exact (ih (push bound items item)).trans first

theorem push_all_length (bound : Option Nat) (items arriving : List α) :
    (pushAll bound items arriving).length =
      settledLength bound items.length arriving.length := by
  induction arriving generalizing items with
  | nil =>
      cases bound with
      | none => rfl
      | some limit =>
          simp only [pushAll, List.foldl_nil, List.length_nil, settledLength]
          split_ifs <;> omega
  | cons item rest ih =>
      rw [pushAll, List.foldl_cons]
      change (pushAll bound (push bound items item) rest).length = _
      rw [ih, push_length, settled_length_succ]
      rfl

/-- The arrivals are all that is left exactly when the lengths agree: two
suffixes of one sequence are equal as soon as they are equally long. -/
theorem push_all_eq_arriving_iff (bound : Option Nat) (items arriving : List α) :
    pushAll bound items arriving = arriving ↔
      settledLength bound items.length arriving.length = arriving.length := by
  constructor
  · intro same
    rw [← push_all_length, same]
  · intro lengths
    rw [← push_all_length] at lengths
    have kept := push_all_suffix bound items arriving
    have arrived : arriving <:+ items ++ arriving := List.suffix_append items arriving
    exact (List.suffix_of_suffix_length_le kept arrived lengths.le).eq_of_length lengths

end Gk7102.BoundedQueue
