import Gk7102.RasterLoops

/-!
# Loops whose counter can wrap

The counter of such a loop starts at zero again after its last value. If the condition
fails for one of its values, the loop is a counted one; if not, it never ends.
-/

namespace Gk7102.CounterLoops

open RasterLoops

set_option autoImplicit false

variable {State : Type*}

/-- A loop that is given up after so many tests of its condition. -/
def loopFrom (modulus : Nat) (goes : Nat → Bool) (body : Nat → State → Option State) :
    Nat → Nat → State → Option State
  | 0, _, _ => none
  | tests + 1, counter, state =>
      if goes counter then
        (body counter state).bind (loopFrom modulus goes body tests ((counter + 1) % modulus))
      else some state

section Rules

variable {modulus : Nat} {goes : Nat → Bool} {body : Nat → State → Option State}

theorem loop_from_ends {step : Nat → State → State} {count : Nat} (small : count < modulus)
    (inside : ∀ i < count, goes i = true) (ends : goes count = false)
    (same : ∀ i < count, ∀ state, body i state = some (step i state)) (left : Nat) :
    ∀ first tests state, first + left = count → left < tests →
      loopFrom modulus goes body tests first state =
        some (loop (fun i => step (first + i)) left state) := by
  induction left with
  | zero =>
      intro first tests state reached enough
      obtain ⟨tests, rfl⟩ := Nat.exists_eq_succ_of_ne_zero (Nat.ne_of_gt enough)
      obtain rfl : first = count := reached
      rw [loopFrom, ends, loop]
      rfl
  | succ left ih =>
      intro first tests state reached enough
      obtain ⟨tests, rfl⟩ := Nat.exists_eq_succ_of_ne_zero (Nat.ne_of_gt (Nat.zero_lt_of_lt enough))
      have below : first < count := by omega
      have kept : (first + 1) % modulus = first + 1 := Nat.mod_eq_of_lt (by omega)
      rw [loopFrom, if_pos (inside first below), same first below, Option.bind_some, kept,
        ih (first + 1) tests _ (by omega) (by omega), Nat.add_comm left 1, loop_add, loop, loop]
      congr 2
      funext i
      rw [Nat.add_assoc]

theorem loop_from_zero {step : Nat → State → State} {count tests : Nat} (small : count < modulus)
    (inside : ∀ i < count, goes i = true) (ends : goes count = false)
    (same : ∀ i < count, ∀ state, body i state = some (step i state))
    (enough : count < tests) (state : State) :
    loopFrom modulus goes body tests 0 state = some (loop step count state) := by
  rw [loop_from_ends small inside ends same count 0 tests state (Nat.zero_add count) enough]
  simp only [Nat.zero_add]

/-- A condition that every value of the counter meets is met for ever. -/
theorem loop_from_endless (positive : 0 < modulus) (always : ∀ i < modulus, goes i = true)
    (tests : Nat) : ∀ counter < modulus, ∀ state,
      loopFrom modulus goes body tests counter state = none := by
  induction tests with
  | zero => exact fun _ _ _ => rfl
  | succ tests ih =>
      intro counter below state
      rw [loopFrom, if_pos (always counter below), Option.bind_eq_none_iff]
      intro after _
      exact ih _ (Nat.mod_lt _ positive) after

end Rules

end Gk7102.CounterLoops
