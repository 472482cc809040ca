import Mathlib.Data.List.Basic

/-!
# Calls on a stream socket

A call returns −1 and leaves an `errno`, or returns how many bytes it moved: at least
one while there are any, at most as many as asked for. Nothing is said about where a
stream is cut, nor how often a signal interrupts a call.
-/

namespace Gk7102.SocketCalls

set_option autoImplicit false

def EINTR : Nat := 4

/-- What one call does. A call that moves bytes stops after `more + 1` of them. -/
inductive CallOutcome where
  | failed (errno : Nat)
  | moved (more : Nat)
deriving DecidableEq, Repr

/-- The test `ret == -1 && errno == EINTR`. -/
def CallOutcome.interrupted : CallOutcome → Bool
  | .failed errno => errno == EINTR
  | .moved _ => false

/-- `again: ret = call(); if (again(ret)) goto again;` `none` while it still goes round. -/
def retry {Outcome : Type*} (again : Outcome → Bool) :
    List Outcome → Option (Outcome × List Outcome)
  | [] => none
  | outcome :: later => if again outcome then retry again later else some (outcome, later)

theorem retry_eq_some_iff {Outcome : Type*} {again : Outcome → Bool} {outcomes : List Outcome}
    {last : Outcome} {later : List Outcome} :
    retry again outcomes = some (last, later) ↔
      ∃ repeated, outcomes = repeated ++ last :: later ∧
        (∀ outcome ∈ repeated, again outcome = true) ∧ again last = false := by
  induction outcomes with
  | nil => simp [retry]
  | cons outcome rest induction =>
      rw [retry]
      cases goes : again outcome with
      | true =>
          rw [if_pos rfl, induction]
          constructor
          · rintro ⟨repeated, rfl, all, stops⟩
            exact ⟨outcome :: repeated, rfl, List.forall_mem_cons.mpr ⟨goes, all⟩, stops⟩
          · rintro ⟨repeated, same, all, stops⟩
            cases repeated with
            | nil =>
                rw [List.nil_append, List.cons.injEq] at same
                rw [same.1, stops] at goes
                exact absurd goes (by decide)
            | cons first repeated =>
                rw [List.cons_append, List.cons.injEq] at same
                exact ⟨repeated, same.2, (List.forall_mem_cons.mp all).2, stops⟩
      | false =>
          rw [if_neg (by decide)]
          constructor
          · intro same
            rw [Option.some.injEq, Prod.mk.injEq] at same
            obtain ⟨rfl, rfl⟩ := same
            exact ⟨[], rfl, fun _ member => absurd member List.not_mem_nil, goes⟩
          · rintro ⟨repeated, same, all, stops⟩
            cases repeated with
            | nil =>
                rw [List.nil_append, List.cons.injEq] at same
                rw [same.1, same.2]
            | cons first repeated =>
                rw [List.cons_append, List.cons.injEq] at same
                rw [same.1, (List.forall_mem_cons.mp all).1] at goes
                exact absurd goes (by decide)

theorem retry_isSome_iff {Outcome : Type*} {again : Outcome → Bool} {outcomes : List Outcome} :
    (retry again outcomes).isSome ↔ ∃ outcome ∈ outcomes, again outcome = false := by
  induction outcomes with
  | nil => simp [retry]
  | cons outcome rest induction =>
      rw [retry, List.exists_mem_cons_iff]
      cases goes : again outcome with
      | true =>
          rw [if_pos rfl, induction]
          simp only [Bool.true_eq_false, false_or]
      | false =>
          rw [if_neg (by decide)]
          simp only [Option.isSome_some, true_or]

section Send

/-- How many of `size` bytes `send` accepts. -/
def CallOutcome.accepted (size : Nat) : CallOutcome → Nat
  | .failed _ => 0
  | .moved more => min (more + 1) size

def CallOutcome.ret (count : Nat) : CallOutcome → BitVec 32
  | .failed _ => -1
  | .moved _ => BitVec.ofNat 32 count

end Send

section Recv

variable {Item : Type*}

/-- The bytes `recv` stores when `size` are asked for. No byte at all is the end of the
stream. -/
def CallOutcome.received (size : Nat) (stream : List Item) : CallOutcome → List Item
  | .failed _ => []
  | .moved more => stream.take (min (more + 1) size)

def CallOutcome.remaining (size : Nat) (stream : List Item) (outcome : CallOutcome) : List Item :=
  stream.drop (outcome.received size stream).length

variable (outcome : CallOutcome) (size : Nat) (stream : List Item)

theorem received_append_remaining :
    outcome.received size stream ++ outcome.remaining size stream = stream := by
  rw [CallOutcome.remaining]
  cases outcome with
  | failed errno => rfl
  | moved more =>
      rw [CallOutcome.received, List.length_take]
      rw [List.take_eq_take_min]
      exact List.take_append_drop _ _

theorem received_length_le : (outcome.received size stream).length ≤ size := by
  cases outcome with
  | failed errno => exact Nat.zero_le size
  | moved more =>
      rw [CallOutcome.received, List.length_take]
      omega

theorem received_starts : outcome.received size stream <+: stream :=
  ⟨outcome.remaining size stream, received_append_remaining outcome size stream⟩

theorem ret_received_moved {count : BitVec 32} (known : count ≠ -1)
    (returned : outcome.ret (outcome.received size stream).length = count) :
    ∃ more, outcome = .moved more := by
  cases outcome with
  | failed errno => exact absurd returned.symm known
  | moved more => exact ⟨more, rfl⟩

end Recv

end Gk7102.SocketCalls
