import Gk7102.Base64Coding
import Gk7102.MachineInt

/-!
# Base64 in the command client

`base64_encode` packs three bytes at a time with shifts and masks and writes to a buffer
of its caller. Both of its counters are `int`: a counter that would overflow ends the
call, as does a write outside the buffer.
-/

namespace Gk7102.Base64

open Gk7102.Base64Coding
open Gk7102.ByteBlocks
open Gk7102.MachineInt

set_option autoImplicit false

/-- A buffer of the 32-bit target, where no object has 2^31 bytes. -/
structure Buffer where
  bytes : List Byte
  addressable : FitsInt bytes.length

structure Output where
  base64 : List Byte
  j : Nat
deriving DecidableEq, Repr

def base64char : List Byte :=
  ofAscii "ABCDEFGHIJKLMNOPQRSTUVWXYZabcdefghijklmnopqrstuvwxyz0123456789+/"

/-- `base64[j++] = byte` -/
def put (byte : Byte) (output : Output) : Option Output :=
  if output.j < output.base64.length ∧ FitsInt (output.j + 1) then
    some ⟨output.base64.set output.j byte, output.j + 1⟩
  else none

/-- `base64[j++] = base64char[(int)current]` -/
def putChar (current : Nat) (output : Output) : Option Output :=
  put (base64char.getD current 0) output

section Current

variable (byte next : Byte)

def uchar (value : Nat) : Nat := value % 256

def firstCurrent : Nat := uchar (byte.toNat >>> 2) &&& 0x3F

def secondCurrent : Nat := uchar (byte.toNat <<< 4) &&& 0x30

def secondWhole : Nat := secondCurrent byte ||| (uchar (next.toNat >>> 4) &&& 0x0F)

def thirdCurrent : Nat := uchar (byte.toNat <<< 2) &&& 0x3C

def thirdWhole : Nat := thirdCurrent byte ||| (uchar (next.toNat >>> 6) &&& 0x03)

def fourthCurrent : Nat := uchar byte.toNat &&& 0x3F

end Current

/-- The loop, on what `bindata` holds from `i` on. -/
def encodeGroups : List Byte → Nat → Output → Option Output
  | [], _, output => some output
  | [first], _, output => do
      let output ← putChar (firstCurrent first) output
      let output ← putChar (secondCurrent first) output
      let output ← put pad output
      put pad output
  | [first, second], _, output => do
      let output ← putChar (firstCurrent first) output
      let output ← putChar (secondWhole first second) output
      let output ← putChar (thirdCurrent second) output
      put pad output
  | first :: second :: third :: rest, i, output => do
      let output ← putChar (firstCurrent first) output
      let output ← putChar (secondWhole first second) output
      let output ← putChar (thirdWhole second third) output
      let output ← putChar (fourthCurrent third) output
      if FitsInt (i + 3) then encodeGroups rest (i + 3) output else none

def base64Encode (bindata base64 : List Byte) : Option (List Byte) := do
  let output ← encodeGroups bindata 0 ⟨base64, 0⟩
  let terminated ← put 0 output
  some terminated.base64

section Packing

variable (byte next : Byte)

theorem first_current : firstCurrent byte = byte.toNat / 4 := by
  have every : ∀ value < 256, uchar (value >>> 2) &&& 0x3F = value / 4 := by decide +kernel
  exact every byte.toNat byte.isLt

theorem second_current : secondCurrent byte = byte.toNat % 4 * 16 := by
  have every : ∀ value < 256, uchar (value <<< 4) &&& 0x30 = value % 4 * 16 := by decide +kernel
  exact every byte.toNat byte.isLt

theorem third_current : thirdCurrent byte = byte.toNat % 16 * 4 := by
  have every : ∀ value < 256, uchar (value <<< 2) &&& 0x3C = value % 16 * 4 := by decide +kernel
  exact every byte.toNat byte.isLt

theorem fourth_current : fourthCurrent byte = byte.toNat % 64 := by
  have every : ∀ value < 256, uchar value &&& 0x3F = value % 64 := by decide +kernel
  exact every byte.toNat byte.isLt

theorem second_whole : secondWhole byte next = byte.toNat % 4 * 16 + next.toNat / 16 := by
  have low : ∀ value < 256, uchar (value >>> 4) &&& 0x0F = value / 16 := by decide +kernel
  have join : ∀ high < 4, ∀ low < 16, high * 16 ||| low = high * 16 + low := by decide +kernel
  have bound := next.isLt
  rw [secondWhole, second_current, low next.toNat bound]
  exact join _ (by omega) _ (by omega)

theorem third_whole : thirdWhole byte next = byte.toNat % 16 * 4 + next.toNat / 64 := by
  have low : ∀ value < 256, uchar (value >>> 6) &&& 0x03 = value / 64 := by decide +kernel
  have join : ∀ high < 16, ∀ low < 4, high * 4 ||| low = high * 4 + low := by decide +kernel
  have bound := next.isLt
  rw [thirdWhole, third_current, low next.toNat bound]
  exact join _ (by omega) _ (by omega)

end Packing

/-! ## What is in the buffer -/

/-- The first `j` bytes of the buffer are the text, and the others are as before. -/
def Output.Holds (output : Output) (old text : List Byte) : Prop :=
  output.base64 = text ++ old.drop text.length ∧ output.j = text.length

section Writing

variable {old text : List Byte} {output : Output}

theorem put_holds (holds : output.Holds old text) (byte : Byte) (room : text.length < old.length)
    (addressable : FitsInt old.length) :
    ∃ next, put byte output = some next ∧ next.Holds old (text ++ [byte]) := by
  obtain ⟨content, counter⟩ := holds
  have size : output.base64.length = old.length := by
    rw [content, List.length_append, List.length_drop]
    omega
  have fits : output.j < output.base64.length ∧ FitsInt (output.j + 1) := by
    unfold FitsInt at *
    omega
  refine ⟨_, if_pos fits, ?_, ?_⟩
  · have behind : old.drop text.length = old[text.length] :: old.drop (text.length + 1) :=
      List.drop_eq_getElem_cons room
    simp only [content, counter, behind, List.length_append, List.length_singleton]
    rw [List.set_append_right _ _ (Nat.le_refl _), Nat.sub_self, List.set_cons_zero,
      List.append_assoc]
    rfl
  · simp only [counter, List.length_append, List.length_singleton]

theorem put_char_holds (holds : output.Holds old text) (current : Nat)
    (room : text.length < old.length) (addressable : FitsInt old.length) :
    ∃ next, putChar current output = some next ∧
      next.Holds old (text ++ [symbol current]) :=
  put_holds holds (symbol current) room addressable

theorem encode_groups_holds {old : List Byte} (addressable : FitsInt old.length)
    (bindata : List Byte) {text : List Byte} {output : Output} (holds : output.Holds old text)
    (i : Nat) (counter : FitsInt (i + bindata.length + 2))
    (room : text.length + (encode bindata).length ≤ old.length) :
    ∃ next, encodeGroups bindata i output = some next ∧
      next.Holds old (text ++ encode bindata) := by
  induction bindata using encode.induct generalizing text output i with
  | case1 =>
      refine ⟨output, rfl, ?_⟩
      rwa [encode, List.append_nil]
  | case2 first =>
      simp only [encode, List.length_cons, List.length_nil] at room
      obtain ⟨one, put1, holds1⟩ := put_char_holds holds (firstCurrent first) (by omega) addressable
      obtain ⟨two, put2, holds2⟩ :=
        put_char_holds holds1 (secondCurrent first) (by simp; omega) addressable
      obtain ⟨three, put3, holds3⟩ := put_holds holds2 pad (by simp; omega) addressable
      obtain ⟨four, put4, holds4⟩ := put_holds holds3 pad (by simp; omega) addressable
      refine ⟨four, ?_, ?_⟩
      · simp only [encodeGroups, put1, put2, put3, put4, Option.bind_eq_bind, Option.bind_some]
      · rw [first_current, second_current] at holds4
        simpa only [encode, List.append_assoc, List.cons_append, List.nil_append] using holds4
  | case3 first second =>
      simp only [encode, List.length_cons, List.length_nil] at room
      obtain ⟨one, put1, holds1⟩ := put_char_holds holds (firstCurrent first) (by omega) addressable
      obtain ⟨two, put2, holds2⟩ :=
        put_char_holds holds1 (secondWhole first second) (by simp; omega) addressable
      obtain ⟨three, put3, holds3⟩ :=
        put_char_holds holds2 (thirdCurrent second) (by simp; omega) addressable
      obtain ⟨four, put4, holds4⟩ := put_holds holds3 pad (by simp; omega) addressable
      refine ⟨four, ?_, ?_⟩
      · simp only [encodeGroups, put1, put2, put3, put4, Option.bind_eq_bind, Option.bind_some]
      · rw [first_current, second_whole, third_current] at holds4
        simpa only [encode, List.append_assoc, List.cons_append, List.nil_append] using holds4
  | case4 first second third rest ih =>
      simp only [encode, List.length_cons] at room counter
      obtain ⟨one, put1, holds1⟩ := put_char_holds holds (firstCurrent first) (by omega) addressable
      obtain ⟨two, put2, holds2⟩ :=
        put_char_holds holds1 (secondWhole first second) (by simp; omega) addressable
      obtain ⟨three, put3, holds3⟩ :=
        put_char_holds holds2 (thirdWhole second third) (by simp; omega) addressable
      obtain ⟨four, put4, holds4⟩ :=
        put_char_holds holds3 (fourthCurrent third) (by simp; omega) addressable
      have advanced : FitsInt (i + 3) := by
        unfold FitsInt at *
        omega
      have remaining : FitsInt ((i + 3 : Nat) + rest.length + 2) := by
        unfold FitsInt at *
        omega
      obtain ⟨last, rounds, holdsAll⟩ := ih holds4 (i + 3) remaining (by simp; omega)
      refine ⟨last, ?_, ?_⟩
      · simp only [encodeGroups, put1, put2, put3, put4, if_pos advanced, rounds,
          Option.bind_eq_bind, Option.bind_some]
      · rw [first_current, second_whole, third_whole, fourth_current] at holdsAll
        simpa only [encode, List.append_assoc, List.cons_append, List.nil_append] using holdsAll

end Writing

/-- The padded symbols of the whole string with a NUL byte behind them, which the standard
decoder reads back. The rest of the buffer is not touched. -/
theorem base64_encode_round_trip (bindata : List Byte) (base64 : Buffer)
    (room : 4 * ((bindata.length + 2) / 3) < base64.bytes.length) :
    ∃ text, base64Encode bindata base64.bytes =
        some (text ++ 0 :: base64.bytes.drop (text.length + 1)) ∧
      text.length = 4 * ((bindata.length + 2) / 3) ∧
      (∃ symbols, text = symbols ++ List.replicate ((3 - bindata.length % 3) % 3) pad ∧
        ∀ symbol ∈ symbols, symbol ∈ alphabet) ∧
      decode text = some bindata := by
  have addressable := base64.addressable
  have length := encode_length bindata
  have start : (Output.mk base64.bytes 0).Holds base64.bytes [] := ⟨rfl, rfl⟩
  have counter : FitsInt ((0 : Nat) + bindata.length + 2) := by
    unfold FitsInt at *
    omega
  obtain ⟨output, encoded, holds⟩ :=
    encode_groups_holds addressable bindata start 0 counter (by simp; omega)
  rw [List.nil_append] at holds
  obtain ⟨terminated, closed, holdsAll⟩ := put_holds holds 0 (by omega) addressable
  refine ⟨encode bindata, ?_, length, encode_padded bindata, decode_encode bindata⟩
  rw [base64Encode, encoded, Option.bind_eq_bind, Option.bind_some, closed, Option.bind_some,
    holdsAll.1]
  simp only [List.length_append, List.length_singleton, List.append_assoc, List.singleton_append]

/-- Bytes above 0x7f and a last group of two bytes. -/
theorem base64_encode_five_bytes :
    ∃ text, base64Encode [0xFF, 0x80, 0x00, 0xC3, 0xA9] (List.replicate 9 1) =
        some (text ++ 0 :: (List.replicate 9 1).drop (text.length + 1)) ∧
      decode text = some [0xFF, 0x80, 0x00, 0xC3, 0xA9] := by
  obtain ⟨text, encoded, -, -, decoded⟩ :=
    base64_encode_round_trip [0xFF, 0x80, 0x00, 0xC3, 0xA9] ⟨List.replicate 9 1, by decide⟩
      (by decide)
  exact ⟨text, encoded, decoded⟩

end Gk7102.Base64
