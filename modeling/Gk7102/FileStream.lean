import Gk7102.ByteBlocks

/-!
# Writing to a file through a stream

A stream is the content of the file and a position in it. A write replaces what
stands at the position, or extends the file, and moves behind what it has written;
how much of a write the device takes is up to the device.
-/

namespace Gk7102.FileStream

open Gk7102.ByteBlocks

set_option autoImplicit false

structure Stream where
  content : List Byte
  position : Nat
deriving DecidableEq, Repr

/-- How many of the bytes of a write are accepted. -/
structure Device where
  accepts : Stream → Nat → Nat
  bounded : ∀ stream count, accepts stream count ≤ count

def Device.Accepting (device : Device) : Prop :=
  ∀ stream count, device.accepts stream count = count

/-- A device that never runs full. -/
def Device.endless : Device where
  accepts _ count := count
  bounded _ count := Nat.le_refl count

theorem endless_accepting : Device.endless.Accepting := fun _ _ => rfl

/-- A position past the end is reached over zero bytes, once something is written there. -/
def reachTo (content : List Byte) (position : Nat) : List Byte :=
  content ++ List.replicate (position - content.length) 0

def fwrite (device : Device) (items : List Byte) (stream : Stream) : Nat × Stream :=
  let count := device.accepts stream items.length
  if count = 0 then (0, stream)
  else
    (count, {
      content := store (reachTo stream.content stream.position) stream.position (items.take count)
      position := stream.position + count })

/-- `SEEK_SET`. -/
def fseek (stream : Stream) (position : Nat) : Stream := { stream with position := position }

section Accepting

variable {device : Device} {stream : Stream}

theorem store_nothing (content : List Byte) (position : Nat) :
    store content position [] = content := by
  rw [store, List.append_nil, List.length_nil, Nat.add_zero, List.take_append_drop]

theorem fwrite_accepted (accepting : device.Accepting) (items : List Byte)
    (within : stream.position ≤ stream.content.length) :
    fwrite device items stream =
      (items.length, {
        content := store stream.content stream.position items
        position := stream.position + items.length }) := by
  have reached : reachTo stream.content stream.position = stream.content := by
    rw [reachTo, Nat.sub_eq_zero_of_le within, List.replicate_zero, List.append_nil]
  rw [fwrite]
  simp only [accepting stream items.length, reached, List.take_length]
  split
  · rename_i none_left
    have nothing : items = [] := List.length_eq_zero_iff.mp none_left
    rw [nothing, store_nothing]
    rfl
  · rfl

theorem fwrite_appends (accepting : device.Accepting) (items content : List Byte) :
    fwrite device items ⟨content, content.length⟩ =
      (items.length, ⟨content ++ items, (content ++ items).length⟩) := by
  rw [fwrite_accepted accepting items (Nat.le_refl _)]
  simp only [store, List.take_length, List.length_append]
  rw [List.drop_of_length_le (Nat.le_add_right _ _), List.append_nil]

theorem fwrite_patches (accepting : device.Accepting) (front old items after : List Byte)
    (position : Nat) (size : items.length = old.length) :
    (fwrite device items (fseek ⟨front ++ (old ++ after), position⟩ front.length)).2 =
      ⟨front ++ (items ++ after), front.length + items.length⟩ := by
  have within : front.length ≤ (front ++ (old ++ after)).length := by
    rw [List.length_append]
    exact Nat.le_add_right _ _
  rw [fseek, fwrite_accepted accepting items within]
  simp only [store_past (old ++ after) items (Nat.le_refl front.length), Nat.sub_self,
    store_front after size]

end Accepting

end Gk7102.FileStream
