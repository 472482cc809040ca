import Mathlib.Data.Int.Basic

/-!
# Integers of a 32-bit machine

A value that does not fit in its type is replaced by the one that has the same lowest
bits. As long as every intermediate value fits, the arithmetic is that of the integers.
-/

namespace Gk7102.MachineInt

set_option autoImplicit false

def intModulus : Nat := 4294967296

def FitsInt (value : Int) : Prop := -2147483648 ≤ value ∧ value < 2147483648

instance (value : Int) : Decidable (FitsInt value) :=
  inferInstanceAs (Decidable (-2147483648 ≤ value ∧ value < 2147483648))

def wrapInt (value : Int) : Int := value.bmod intModulus

theorem wrap_int_fits {value : Int} (fits : FitsInt value) : wrapInt value = value := by
  obtain ⟨lower, upper⟩ := fits
  rw [wrapInt, intModulus, Int.bmod_def]
  omega

/-- A plain `char` as an `int`: the compiler says whether it is signed. -/
def charInt (signed : Bool) (byte : BitVec 8) : Int := if signed then byte.toInt else byte.toNat

end Gk7102.MachineInt
