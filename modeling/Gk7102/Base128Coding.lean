import Gk7102.ByteBlocks
import Mathlib.Tactic.Ring

/-!
# Numbers in digits of seven bits

A number goes as digits to the base 128, lowest first, one in a byte. The high bit of a
byte says that more digits follow, so a reader finds the end of the number in the number
itself and may be interrupted anywhere inside it.
-/

namespace Gk7102.Base128Coding

open ByteBlocks

set_option autoImplicit false

/-- The high bit: more digits follow. -/
def continues (byte : Byte) : Bool := decide (byte &&& 128 ≠ 0)

/-- The digit that a byte carries. -/
def digit (byte : Byte) : Nat := (byte &&& 127).toNat

def encode : Nat → Nat → List Byte
  | 0, _ => []
  | room + 1, number =>
      if number / 128 = 0 then [BitVec.ofNat 8 (number % 128)]
      else (BitVec.ofNat 8 (number % 128) ||| 128) :: encode room (number / 128)

/-- The number that the digits of a text stand for. -/
def value : List Byte → Nat
  | [] => 0
  | byte :: rest => digit byte + 128 * value rest

section Bytes

theorem continues_of_or (byte : Byte) : continues (byte ||| 128) = true := by
  rw [continues, decide_eq_true_iff]
  intro none
  have high := congrArg (fun word => word.getLsbD 7) none
  simp at high

theorem last_of_lt {number : Nat} (small : number < 128) :
    continues (BitVec.ofNat 8 number) = false := by
  have low : ∀ number : Fin 128, continues (BitVec.ofNat 8 number) = false := by decide
  exact low ⟨number, small⟩

theorem digit_of_lt {number : Nat} (small : number < 128) :
    digit (BitVec.ofNat 8 number) = number := by
  have low : ∀ number : Fin 128, digit (BitVec.ofNat 8 number) = number := by decide
  exact low ⟨number, small⟩

theorem digit_or (byte : Byte) : digit (byte ||| 128) = digit byte := by
  have same : (byte ||| 128) &&& 127 = byte &&& 127 := by
    apply BitVec.eq_of_getLsbD_eq
    intro i bound
    simp only [BitVec.getLsbD_and, BitVec.getLsbD_or]
    have clear : ∀ i : Fin 8, ((128 : Byte).getLsbD i && (127 : Byte).getLsbD i) = false := by
      decide
    rw [Bool.and_or_distrib_right, clear ⟨i, bound⟩, Bool.or_false]
  rw [digit, digit, same]

end Bytes

section Digits

theorem value_append (front back : List Byte) :
    value (front ++ back) = value front + 128 ^ front.length * value back := by
  induction front with
  | nil => simp [value]
  | cons byte front induction =>
      rw [List.cons_append, value, induction, value, List.length_cons, pow_succ]
      ring

theorem value_snoc (front : List Byte) (byte : Byte) :
    value (front ++ [byte]) = value front + digit byte * 128 ^ front.length := by
  rw [value_append, value, value, Nat.mul_zero, Nat.add_zero, Nat.mul_comm]

theorem value_encode {room number : Nat} (fits : number < 128 ^ room) :
    value (encode room number) = number := by
  induction room generalizing number with
  | zero =>
      have none : number = 0 := by simpa using fits
      rw [none, encode, value]
  | succ room induction =>
      have low : number % 128 < 128 := Nat.mod_lt number (by decide)
      rw [encode]
      split
      next last =>
          rw [value, value, digit_of_lt low]
          omega
      next more =>
          have rest : number / 128 < 128 ^ room := by
            rw [Nat.div_lt_iff_lt_mul (by decide), ← pow_succ]
            exact fits
          rw [value, digit_or, digit_of_lt low, induction rest]
          omega

/-- All digits but the last announce another one. -/
theorem encode_shape {room number : Nat} (some : 0 < room) (fits : number < 128 ^ room) :
    ∃ front last, encode room number = front ++ [last] ∧
      (∀ byte ∈ front, continues byte = true) ∧ continues last = false := by
  induction room generalizing number with
  | zero => exact absurd some (Nat.lt_irrefl 0)
  | succ room induction =>
      have low : number % 128 < 128 := Nat.mod_lt number (by decide)
      rw [encode]
      split
      next last =>
          exact ⟨[], BitVec.ofNat 8 (number % 128), rfl, List.forall_mem_nil _, last_of_lt low⟩
      next more =>
          have rest : number / 128 < 128 ^ room := by
            rw [Nat.div_lt_iff_lt_mul (by decide), ← pow_succ]
            exact fits
          have room_left : 0 < room := by
            apply Nat.pos_of_ne_zero
            intro none
            rw [none, pow_zero] at rest
            omega
          rcases induction room_left rest with ⟨front, last, same, all, stops⟩
          refine ⟨(BitVec.ofNat 8 (number % 128) ||| 128) :: front, last, ?_, ?_, stops⟩
          · rw [same, List.cons_append]
          · exact List.forall_mem_cons.mpr ⟨continues_of_or _, all⟩

theorem encode_length_pos (room number : Nat) : 0 < (encode (room + 1) number).length := by
  rw [encode]
  split
  · exact Nat.one_pos
  · exact Nat.succ_pos _

theorem encode_length_le (room number : Nat) : (encode room number).length ≤ room := by
  induction room generalizing number with
  | zero => exact Nat.le_refl 0
  | succ room induction =>
      rw [encode]
      split
      · exact Nat.succ_le_succ (Nat.zero_le room)
      · exact Nat.succ_le_succ (induction (number / 128))

/-- The last digit that there is room for goes unused exactly by the numbers below its
weight. -/
theorem encode_length_le_iff (room number : Nat) :
    (encode (room + 2) number).length ≤ room + 1 ↔ number < 128 ^ (room + 1) := by
  induction room generalizing number with
  | zero =>
      rw [encode, pow_one]
      split
      next last => simp only [List.length_singleton, Nat.le_refl, true_iff]; omega
      next more =>
          rw [List.length_cons, Nat.add_le_add_iff_right]
          have another : ¬ (encode (0 + 1) (number / 128)).length ≤ 0 :=
            Nat.not_le.mpr (encode_length_pos 0 (number / 128))
          exact iff_of_false another (by omega)
  | succ room induction =>
      have weight : number < 128 ^ (room + 1 + 1) ↔ number / 128 < 128 ^ (room + 1) := by
        rw [Nat.div_lt_iff_lt_mul (by decide), ← pow_succ]
      rw [encode, weight]
      split
      next last =>
          rw [last, List.length_singleton]
          exact iff_of_true (Nat.le_add_left 1 _) (Nat.pow_pos (by decide))
      next more =>
          rw [List.length_cons, Nat.add_le_add_iff_right]
          exact induction (number / 128)

end Digits

end Gk7102.Base128Coding
