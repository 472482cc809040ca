import Mathlib.Data.List.Basic

/-!
# Memory blocks and byte streams

A block is the list of the bytes of one allocation. Storing to a field replaces
the bytes at its offset, loading reads them back, and words are kept with the
least significant byte first. A stream is the list of the bytes not yet read; a
reader that asks for more than there is gets nothing.
-/

namespace Gk7102.ByteBlocks

set_option autoImplicit false

abbrev Byte := BitVec 8

section Blocks

variable {Item : Type*}

def store (block : List Item) (offset : Nat) (items : List Item) : List Item :=
  block.take offset ++ items ++ block.drop (offset + items.length)

def load (block : List Item) (offset count : Nat) : List Item := (block.drop offset).take count

theorem store_past {front : List Item} (block items : List Item) {offset : Nat}
    (behind : front.length ≤ offset) :
    store (front ++ block) offset items = front ++ store block (offset - front.length) items := by
  have skipped : offset + items.length - front.length = offset - front.length + items.length := by
    omega
  simp only [store, List.take_append, List.drop_append, List.take_of_length_le behind, skipped,
    List.drop_of_length_le (show front.length ≤ offset + items.length by omega),
    List.nil_append, List.append_assoc]

theorem store_front {old items : List Item} (after : List Item)
    (size : items.length = old.length) : store (old ++ after) 0 items = items ++ after := by
  rw [store, List.take_zero, List.nil_append, Nat.zero_add, List.drop_left' size.symm]

theorem load_past {front : List Item} (block : List Item) {offset : Nat} (count : Nat)
    (behind : front.length ≤ offset) :
    load (front ++ block) offset count = load block (offset - front.length) count := by
  rw [load, List.drop_append, List.drop_of_length_le behind, List.nil_append, load]

theorem load_front {items : List Item} (after : List Item) {count : Nat}
    (size : items.length = count) : load (items ++ after) 0 count = items := by
  rw [load, List.drop_zero, List.take_left' size]

end Blocks

section Words

def encodeWord (word : BitVec 32) : List Byte :=
  [word.extractLsb' 0 8, word.extractLsb' 8 8, word.extractLsb' 16 8, word.extractLsb' 24 8]

def decodeWord : List Byte → BitVec 32
  | [first, second, third, fourth] => fourth ++ third ++ second ++ first
  | _ => 0

@[simp] theorem encode_word_length (word : BitVec 32) : (encodeWord word).length = 4 := by
  simp only [encodeWord, List.length_cons, List.length_nil]

@[simp] theorem decode_word_encode (word : BitVec 32) : decodeWord (encodeWord word) = word := by
  apply BitVec.eq_of_getLsbD_eq
  intro i bound
  simp only [decodeWord, encodeWord, BitVec.getLsbD_append, BitVec.getLsbD_extractLsb']
  grind

theorem encode_word_decode {bytes : List Byte} (size : bytes.length = 4) :
    encodeWord (decodeWord bytes) = bytes := by
  obtain ⟨first, second, third, fourth, rfl⟩ : ∃ first second third fourth,
      bytes = [first, second, third, fourth] := List.length_eq_four.mp size
  simp only [encodeWord, decodeWord, List.cons.injEq, and_true]
  refine ⟨?_, ?_, ?_, ?_⟩ <;>
    · apply BitVec.eq_of_getLsbD_eq
      intro i bound
      simp only [BitVec.getLsbD_append, BitVec.getLsbD_extractLsb']
      grind

def encodeHalf (half : BitVec 16) : List Byte := [half.extractLsb' 0 8, half.extractLsb' 8 8]

@[simp] theorem encode_half_length (half : BitVec 16) : (encodeHalf half).length = 2 := by
  simp only [encodeHalf, List.length_cons, List.length_nil]

end Words

section Texts

/-- What a C string function sees of the bytes at a pointer. -/
def cString (bytes : List Byte) : List Byte := bytes.takeWhile (· ≠ 0)

theorem cstring_of_terminated {text : List Byte} (free : 0 ∉ text) (rest : List Byte) :
    cString (text ++ 0 :: rest) = text := by
  have every : ∀ byte ∈ text, decide (byte ≠ 0) = true := by
    intro byte member
    apply decide_eq_true
    rintro rfl
    exact free member
  rw [cString, List.takeWhile_append_of_pos every]
  simp

/-- The text a pointer to a C string leads to, without the NUL byte that ends it. -/
structure CString where
  bytes : List Byte
  no_nul : 0 ∉ bytes

theorem nil_no_nul : (0 : Byte) ∉ ([] : List Byte) := List.not_mem_nil

/-- Bytes that `strncpy` writes: the text as far as it fits, padded with NUL bytes. -/
def strncpy (text : CString) (count : Nat) : List Byte :=
  text.bytes.take count ++ List.replicate (count - text.bytes.length) 0

theorem strncpy_length (text : CString) (count : Nat) : (strncpy text count).length = count := by
  simp only [strncpy, List.length_append, List.length_take, List.length_replicate]
  omega

/-- Followed by a NUL byte, what was copied reads back as the truncated text. -/
theorem cstring_strncpy (text : CString) (count : Nat) (rest : List Byte) :
    cString (strncpy text count ++ 0 :: rest) = text.bytes.take count := by
  have free : 0 ∉ text.bytes.take count := fun member => text.no_nul (List.mem_of_mem_take member)
  rw [strncpy, List.append_assoc]
  cases padding : count - text.bytes.length with
  | zero => exact cstring_of_terminated free rest
  | succ more =>
      rw [List.replicate_succ, List.cons_append]
      exact cstring_of_terminated free _

end Texts

section Streams

variable {Item Value : Type*}

/-- A read of `count` items blocks until they are there. -/
def recv (count : Nat) (stream : List Item) : Option (List Item × List Item) :=
  if count ≤ stream.length then some (stream.take count, stream.drop count) else none

theorem recv_append {count : Nat} {items : List Item} (size : items.length = count)
    (rest : List Item) : recv count (items ++ rest) = some (items, rest) := by
  subst size
  simp [recv]

theorem recv_split {count : Nat} {stream items rest : List Item}
    (read : recv count stream = some (items, rest)) :
    stream = items ++ rest ∧ items.length = count := by
  rw [recv] at read
  split at read
  · rename_i there
    obtain ⟨rfl, rfl⟩ := Prod.mk.inj (Option.some.inj read)
    exact ⟨(List.take_append_drop count stream).symm, List.length_take_of_le there⟩
  · cases read

def recvMany (read : List Item → Option (Value × List Item)) :
    Nat → List Item → Option (List Value × List Item)
  | 0, stream => some ([], stream)
  | count + 1, stream =>
      (read stream).bind fun (value, later) =>
        (recvMany read count later).map fun (values, rest) => (value :: values, rest)

/-- Values whose encodings delimit themselves are read back from their concatenation. -/
theorem recv_many_of_each {encode : Value → List Item}
    {read : List Item → Option (Value × List Item)} (values : List Value) (rest : List Item)
    (each : ∀ value ∈ values, ∀ later, read (encode value ++ later) = some (value, later)) :
    recvMany read values.length (values.flatMap encode ++ rest) = some (values, rest) := by
  induction values with
  | nil => rfl
  | cons value values ih =>
      have first := each value (by simp) (values.flatMap encode ++ rest)
      have others := ih fun other member => each other (by simp [member])
      simp only [List.length_cons, List.flatMap_cons, List.append_assoc, recvMany, first,
        Option.bind_some, others, Option.map_some]

end Streams

end Gk7102.ByteBlocks
