import Mathlib.Logic.Function.Basic

/-!
# A heap of records

Records addressed by numbers. A record is written or freed only where one is allocated, and
what a write through a pointer does is said for all addresses at once.
-/

namespace Gk7102.RecordHeap

set_option autoImplicit false

/-- Only finitely many records are allocated: none from `top` on. -/
structure Heap (Record : Type) where
  cell : Nat → Option Record
  top : Nat
  bounded : ∀ address, top ≤ address → cell address = none

variable {Record : Type}

namespace Heap

def empty : Heap Record where
  cell _ := none
  top := 0
  bounded _ _ := rfl

def set (heap : Heap Record) (address : Nat) (content : Option Record) : Heap Record where
  cell := Function.update heap.cell address content
  top := max heap.top (address + 1)
  bounded other above := by
    have different : other ≠ address := by omega
    rw [Function.update_of_ne different]
    exact heap.bounded other (by omega)

def modify (heap : Heap Record) (address : Nat) (change : Record → Record) :
    Option (Heap Record) :=
  match heap.cell address with
  | none => none
  | some record => some (heap.set address (some (change record)))

def free (heap : Heap Record) (address : Nat) : Option (Heap Record) :=
  match heap.cell address with
  | none => none
  | some _ => some (heap.set address none)

/-- A write behind a check of the pointer for NULL. -/
def modifyAt (heap : Heap Record) (pointer : Option Nat) (change : Record → Record) :
    Option (Heap Record) :=
  match pointer with
  | none => some heap
  | some address => heap.modify address change

/-- A pointer that is NULL or designates an allocated record. -/
def Live (heap : Heap Record) (pointer : Option Nat) : Prop :=
  ∀ address, pointer = some address → (heap.cell address).isSome

variable {heap : Heap Record}

theorem below_top {address : Nat} {record : Record} (live : heap.cell address = some record) :
    address < heap.top := by
  by_contra above
  rw [heap.bounded address (by omega)] at live
  cases live

theorem set_cell (heap : Heap Record) (address : Nat) (content : Option Record) :
    (heap.set address content).cell = Function.update heap.cell address content :=
  rfl

theorem modify_cell {address : Nat} {record : Record} (live : heap.cell address = some record)
    (change : Record → Record) :
    ∃ written, heap.modify address change = some written ∧
      ∀ other, written.cell other =
        if other = address then some (change record) else heap.cell other := by
  refine ⟨heap.set address (some (change record)), by rw [modify, live], ?_⟩
  intro other
  rw [set_cell, Function.update_apply]

theorem free_cell {address : Nat} {record : Record} (live : heap.cell address = some record) :
    ∃ freed, heap.free address = some freed ∧
      ∀ other, freed.cell other = if other = address then none else heap.cell other := by
  refine ⟨heap.set address none, by rw [free, live], ?_⟩
  intro other
  rw [set_cell, Function.update_apply]

theorem modify_at_cell {pointer : Option Nat} (live : heap.Live pointer)
    (change : Record → Record) :
    ∃ written, heap.modifyAt pointer change = some written ∧
      ∀ other, written.cell other =
        (heap.cell other).map fun record =>
          if pointer = some other then change record else record := by
  cases pointer with
  | none =>
      refine ⟨heap, rfl, fun other => ?_⟩
      simp
  | some address =>
      obtain ⟨record, found⟩ := Option.isSome_iff_exists.mp (live address rfl)
      obtain ⟨written, same, cells⟩ := modify_cell found change
      refine ⟨written, same, fun other => ?_⟩
      rw [cells]
      by_cases here : other = address
      · rw [if_pos here, here, found]
        simp
      · have apart : ¬ some address = some other := fun same => here (Option.some.inj same).symm
        rw [if_neg here]
        simp [apart]

/-- Writes free nothing. -/
theorem live_of_map {written : Heap Record} {pointer : Option Nat}
    {change : Nat → Record → Record}
    (cells : ∀ other, written.cell other = (heap.cell other).map (change other))
    (live : heap.Live pointer) : written.Live pointer := by
  intro address designates
  rw [cells, Option.isSome_map]
  exact live address designates

end Heap

/-- Any allocator will do that never returns a record in use. -/
structure Allocator (Record : Type) where
  malloc : Heap Record → Nat
  fresh : ∀ heap : Heap Record, heap.cell (malloc heap) = none

def Allocator.bump : Allocator Record where
  malloc heap := heap.top
  fresh heap := heap.bounded heap.top (Nat.le_refl _)

end Gk7102.RecordHeap
