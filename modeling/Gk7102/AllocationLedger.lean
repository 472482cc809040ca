import Mathlib.Data.List.Nodup
import Gk7102.RecordedCalls

/-!
# A ledger of allocations

The events of a call that allocates and frees blocks, and which blocks these are.
A record with pointer fields holds at most one block in each slot; when the block
tells the slot it is for, the blocks held in some slots are all different.
-/

namespace Gk7102.AllocationLedger

open Gk7102.RecordedCalls

set_option autoImplicit false

universe u v

inductive LedgerEvent (Block : Type u) where
  | alloc (block : Block)
  | free (block : Block)
deriving DecidableEq, Repr

variable {Block : Type u} {Slot : Type v}

def allocatedBlocks (events : List (LedgerEvent Block)) : List Block :=
  events.filterMap fun event =>
    match event with
    | .alloc block => some block
    | .free _ => none

def freedBlocks (events : List (LedgerEvent Block)) : List Block :=
  events.filterMap fun event =>
    match event with
    | .alloc _ => none
    | .free block => some block

/-- `free` of a pointer that may be NULL. -/
def freePointer (pointer : Option Block) : Recorded (LedgerEvent Block) Unit :=
  match pointer with
  | none => pure ()
  | some block => record (.free block)

def freeEach : List (Option Block) → Recorded (LedgerEvent Block) Unit
  | [] => pure ()
  | pointer :: rest => do
      freePointer pointer
      freeEach rest

def heldBlocks (slots : List Slot) (holds : Slot → Option Block) : List Block :=
  slots.filterMap holds

/-- A block that is held tells where. -/
def Labelled (holds : Slot → Option Block) (label : Slot → Block) : Prop :=
  ∀ slot block, holds slot = some block → block = label slot

section Events

@[simp] theorem allocated_append (before after : List (LedgerEvent Block)) :
    allocatedBlocks (before ++ after) = allocatedBlocks before ++ allocatedBlocks after := by
  simp [allocatedBlocks]

@[simp] theorem freed_append (before after : List (LedgerEvent Block)) :
    freedBlocks (before ++ after) = freedBlocks before ++ freedBlocks after := by
  simp [freedBlocks]

@[simp] theorem allocated_nil : allocatedBlocks ([] : List (LedgerEvent Block)) = [] := rfl

@[simp] theorem freed_nil : freedBlocks ([] : List (LedgerEvent Block)) = [] := rfl

@[simp] theorem allocated_alloc (block : Block) (rest : List (LedgerEvent Block)) :
    allocatedBlocks (.alloc block :: rest) = block :: allocatedBlocks rest := rfl

@[simp] theorem allocated_free (block : Block) (rest : List (LedgerEvent Block)) :
    allocatedBlocks (.free block :: rest) = allocatedBlocks rest := rfl

@[simp] theorem freed_alloc (block : Block) (rest : List (LedgerEvent Block)) :
    freedBlocks (.alloc block :: rest) = freedBlocks rest := rfl

@[simp] theorem freed_free (block : Block) (rest : List (LedgerEvent Block)) :
    freedBlocks (.free block :: rest) = block :: freedBlocks rest := rfl

theorem allocated_bind {α β : Type} {call : Recorded (LedgerEvent Block) α}
    {later : α → Recorded (LedgerEvent Block) β} {value : α} (reached : call.result = some value) :
    allocatedBlocks (call >>= later).events =
      allocatedBlocks call.events ++ allocatedBlocks (later value).events := by
  rw [bind_events_of_result reached, allocated_append]

theorem freed_bind {α β : Type} {call : Recorded (LedgerEvent Block) α}
    {later : α → Recorded (LedgerEvent Block) β} {value : α} (reached : call.result = some value) :
    freedBlocks (call >>= later).events =
      freedBlocks call.events ++ freedBlocks (later value).events := by
  rw [bind_events_of_result reached, freed_append]

@[simp] theorem free_pointer_result (pointer : Option Block) :
    (freePointer pointer).result = some () := by
  cases pointer with
  | none => rfl
  | some block => rfl

@[simp] theorem free_each_result (pointers : List (Option Block)) :
    (freeEach pointers).result = some () := by
  induction pointers with
  | nil => rfl
  | cons pointer rest ih => rw [freeEach, bind_result, free_pointer_result, Option.bind_some, ih]

theorem free_each_events (pointers : List (Option Block)) :
    (freeEach pointers).events = (pointers.filterMap id).map .free := by
  induction pointers with
  | nil => rfl
  | cons pointer rest ih =>
      rw [freeEach, bind_events_of_result (free_pointer_result pointer), ih]
      cases pointer with
      | none => rfl
      | some block => rfl

@[simp] theorem freed_of_free_each (pointers : List (Option Block)) :
    freedBlocks (freeEach pointers).events = pointers.filterMap id := by
  rw [free_each_events]
  induction pointers.filterMap id with
  | nil => rfl
  | cons block rest ih => rw [List.map_cons, freed_free, ih]

@[simp] theorem allocated_of_free_each (pointers : List (Option Block)) :
    allocatedBlocks (freeEach pointers).events = [] := by
  rw [free_each_events]
  induction pointers.filterMap id with
  | nil => rfl
  | cons block rest ih => rw [List.map_cons, allocated_free, ih]

end Events

section Slots

variable {holds : Slot → Option Block} {label : Slot → Block}

theorem free_slots (slots : List Slot) (holds : Slot → Option Block) :
    (slots.map holds).filterMap id = heldBlocks slots holds := by
  simp [heldBlocks, List.filterMap_map]

theorem held_blocks_cons (slot : Slot) (rest : List Slot) (holds : Slot → Option Block) :
    heldBlocks (slot :: rest) holds = (holds slot).toList ++ heldBlocks rest holds := by
  cases held : holds slot with
  | none =>
      rw [heldBlocks, List.filterMap_cons_none held]
      rfl
  | some block =>
      rw [heldBlocks, List.filterMap_cons_some held]
      rfl

theorem mem_held_blocks {slots : List Slot} {block : Block} :
    block ∈ heldBlocks slots holds ↔ ∃ slot ∈ slots, holds slot = some block := by
  simp [heldBlocks]

theorem held_blocks_nodup (labelled : Labelled holds label) (distinct : Function.Injective label)
    {slots : List Slot} (once : slots.Nodup) : (heldBlocks slots holds).Nodup := by
  induction slots with
  | nil => exact List.nodup_nil
  | cons slot rest ih =>
      obtain ⟨fresh, later⟩ := List.nodup_cons.mp once
      rw [held_blocks_cons]
      cases held : holds slot with
      | none => exact ih later
      | some block =>
          refine List.nodup_cons.mpr ⟨?_, ih later⟩
          intro again
          obtain ⟨other, inside, same⟩ := mem_held_blocks.mp again
          have labels : label other = label slot :=
            (labelled other block same).symm.trans (labelled slot block held)
          exact fresh (distinct labels ▸ inside)

theorem held_elsewhere (labelled : Labelled holds label) {slots : List Slot} {block : Block}
    (other : ∀ slot ∈ slots, label slot ≠ block) : block ∉ heldBlocks slots holds := by
  intro inside
  obtain ⟨slot, member, same⟩ := mem_held_blocks.mp inside
  exact other slot member (labelled slot block same).symm

end Slots

end Gk7102.AllocationLedger
