import Mathlib.Data.List.Infix
import Gk7102.ByteBlocks

/-!
# Percent coding

A byte that may not stand for itself is written as a percent sign and two hexadecimal
digits. Decoding leaves alone whatever is not such a triple, so it is total, and it is
the inverse of every encoding that does not let the percent sign stand for itself.
-/

namespace Gk7102.PercentCoding

open ByteBlocks

set_option autoImplicit false

def percent : Byte := 0x25

/-- The digits, letters in either case. -/
def hexValue (digit : Byte) : Option (BitVec 4) :=
  if 0x30 ≤ digit ∧ digit ≤ 0x39 then some ((digit - 0x30).setWidth 4)
  else if 0x41 ≤ digit ∧ digit ≤ 0x46 then some ((digit - 0x41 + 10).setWidth 4)
  else if 0x61 ≤ digit ∧ digit ≤ 0x66 then some ((digit - 0x61 + 10).setWidth 4)
  else none

/-- The digit, letters in upper case. -/
def hexDigit (value : BitVec 4) : Byte :=
  if value < 10 then value.setWidth 8 + 0x30 else value.setWidth 8 - 10 + 0x41

def upperDigit (digit : Byte) : Bool :=
  (0x30 ≤ digit && digit ≤ 0x39) || (0x41 ≤ digit && digit ≤ 0x46)

/-- The byte behind a percent sign, if two digits stand there. -/
def tripleValue (high low : Byte) : Option Byte :=
  match hexValue high, hexValue low with
  | some high, some low => some (high ++ low)
  | _, _ => none

def decode : List Byte → List Byte
  | [] => []
  | [first] => [first]
  | [first, second] => [first, second]
  | first :: second :: third :: rest =>
      if first = percent then
        match tripleValue second third with
        | some byte => byte :: decode rest
        | none => first :: decode (second :: third :: rest)
      else first :: decode (second :: third :: rest)

def encodeByte (plain : Byte → Bool) (byte : Byte) : List Byte :=
  if plain byte then [byte]
  else [percent, hexDigit (byte.extractLsb' 4 4), hexDigit (byte.extractLsb' 0 4)]

def encode (plain : Byte → Bool) (bytes : List Byte) : List Byte :=
  bytes.flatMap (encodeByte plain)

/-- Bytes that stand for themselves, and triples with digits in upper case. -/
inductive Encoded (plain : Byte → Bool) : List Byte → Prop where
  | nil : Encoded plain []
  | plain (byte : Byte) (rest : List Byte) (allowed : plain byte = true)
      (encoded : Encoded plain rest) : Encoded plain (byte :: rest)
  | triple (high low : Byte) (rest : List Byte) (upperHigh : upperDigit high = true)
      (upperLow : upperDigit low = true) (encoded : Encoded plain rest) :
      Encoded plain (percent :: high :: low :: rest)

/-! ## Digits -/

theorem hex_value_digit (value : BitVec 4) : hexValue (hexDigit value) = some value := by
  revert value
  decide

theorem upper_hex_digit (value : BitVec 4) : upperDigit (hexDigit value) = true := by
  revert value
  decide

theorem triple_value_digits (byte : Byte) :
    tripleValue (hexDigit (byte.extractLsb' 4 4)) (hexDigit (byte.extractLsb' 0 4)) =
      some byte := by
  rw [tripleValue, hex_value_digit, hex_value_digit]
  revert byte
  decide

theorem hex_value_zero {digit : Byte} (zero : hexValue digit = some 0) : digit = 0x30 := by
  revert digit
  decide

/-! ## Decoding a byte at a time -/

section Decoding

variable {plain : Byte → Bool}

theorem decode_plain {byte : Byte} (other : byte ≠ percent) (rest : List Byte) :
    decode (byte :: rest) = byte :: decode rest := by
  match rest with
  | [] => rfl
  | [second] => rfl
  | second :: third :: rest => rw [decode, if_neg other]

theorem decode_triple {high low byte : Byte} (value : tripleValue high low = some byte)
    (rest : List Byte) : decode (percent :: high :: low :: rest) = byte :: decode rest := by
  rw [decode, if_pos rfl, value]

theorem decode_no_triple {high low : Byte} (value : tripleValue high low = none)
    (rest : List Byte) :
    decode (percent :: high :: low :: rest) = percent :: decode (high :: low :: rest) := by
  rw [decode, if_pos rfl, value]

theorem triple_value_first {high low : Byte} (digit : hexValue high = none) :
    tripleValue high low = none := by
  rw [tripleValue, digit]

theorem triple_value_second {high low : Byte} (digit : hexValue low = none) :
    tripleValue high low = none := by
  rw [tripleValue, digit]
  cases hexValue high <;> rfl

theorem decode_before {after : List Byte} (digit : ∀ byte ∈ after.head?, hexValue byte = none)
    (byte : Byte) : decode (byte :: after) = byte :: decode after := by
  by_cases begins : byte = percent
  · subst begins
    match after with
    | [] => rfl
    | [next] => rfl
    | next :: other :: rest =>
        exact decode_no_triple (triple_value_first (digit next rfl)) rest
  · exact decode_plain begins after

/-- No triple goes on into a text that does not begin with a digit. -/
theorem decode_append {after : List Byte} (digit : ∀ byte ∈ after.head?, hexValue byte = none)
    (before : List Byte) : decode (before ++ after) = decode before ++ decode after := by
  induction before using decode.induct with
  | case1 => rfl
  | case2 first => exact decode_before digit first
  | case3 first second =>
      have last := decode_before digit second
      have both : decode (first :: second :: after) = first :: decode (second :: after) := by
        by_cases begins : first = percent
        · subst begins
          cases after with
          | nil => rfl
          | cons next rest => exact decode_no_triple (triple_value_second (digit next rfl)) rest
        · exact decode_plain begins _
      rw [List.cons_append, List.cons_append, List.nil_append, both, last]
      rfl
  | case4 second third rest byte value induction =>
      simp only [List.cons_append]
      rw [decode_triple value, decode_triple value, induction, List.cons_append]
  | case5 second third rest value induction =>
      simp only [List.cons_append] at induction ⊢
      rw [decode_no_triple value, decode_no_triple value, induction, List.cons_append]
  | case6 first second third rest other induction =>
      simp only [List.cons_append] at induction ⊢
      rw [decode_plain other, decode_plain other, induction, List.cons_append]

theorem decode_split {byte : Byte} (digit : hexValue byte = none) (other : byte ≠ percent)
    (before after : List Byte) :
    decode (before ++ byte :: after) = decode before ++ byte :: decode after := by
  rw [decode_append (by simpa using digit), decode_plain other]

theorem decode_encode (escapes : plain percent = false) (bytes after : List Byte) :
    decode (encode plain bytes ++ after) = bytes ++ decode after := by
  induction bytes with
  | nil => rfl
  | cons byte bytes induction =>
      rw [encode, List.flatMap_cons, List.append_assoc, ← encode, encodeByte]
      by_cases allowed : plain byte = true
      · have other : byte ≠ percent := by
          rintro rfl
          rw [allowed] at escapes
          cases escapes
        rw [if_pos allowed, List.singleton_append, decode_plain other, induction, List.cons_append]
      · rw [if_neg allowed]
        simp only [List.cons_append, List.nil_append]
        rw [decode_triple (triple_value_digits byte), induction]

/-- The text does not spell the byte 0. -/
def NoZeroTriple (bytes : List Byte) : Prop := ¬ [percent, 0x30, 0x30] <:+: bytes

theorem no_zero_triple_within {part whole : List Byte} (inside : part <:+: whole)
    (free : NoZeroTriple whole) : NoZeroTriple part :=
  fun spelled => free (spelled.trans inside)

theorem triple_value_zero {high low : Byte} (value : tripleValue high low = some 0) :
    high = 0x30 ∧ low = 0x30 := by
  have split : ∀ first second : BitVec 4,
      first ++ second = (0 : Byte) → first = 0 ∧ second = 0 := by
    decide
  rw [tripleValue] at value
  cases first : hexValue high with
  | none => simp [first] at value
  | some upper =>
      cases second : hexValue low with
      | none => simp [first, second] at value
      | some lower =>
          simp only [first, second, Option.some.injEq] at value
          obtain ⟨rfl, rfl⟩ := split upper lower value
          exact ⟨hex_value_zero first, hex_value_zero second⟩

theorem decode_no_zero {bytes : List Byte} (no_zero : 0 ∉ bytes) (free : NoZeroTriple bytes) :
    0 ∉ decode bytes := by
  induction bytes using decode.induct with
  | case1 => exact no_zero
  | case2 first => exact no_zero
  | case3 first second => exact no_zero
  | case4 second third rest byte value induction =>
      have later := induction
        (fun member => no_zero (List.mem_append_right [percent, second, third] member))
        (no_zero_triple_within (List.suffix_append [percent, second, third] rest).isInfix free)
      rw [decode_triple value, List.mem_cons, not_or]
      refine ⟨?_, later⟩
      rintro rfl
      obtain ⟨rfl, rfl⟩ := triple_value_zero value
      exact free (List.prefix_append [percent, 0x30, 0x30] rest).isInfix
  | case5 second third rest value induction =>
      have later := induction (fun member => no_zero (List.mem_cons_of_mem percent member))
        (no_zero_triple_within (List.suffix_cons percent _).isInfix free)
      rw [decode_no_triple value, List.mem_cons, not_or]
      exact ⟨by decide, later⟩
  | case6 first second third rest other induction =>
      have later := induction (fun member => no_zero (List.mem_cons_of_mem first member))
        (no_zero_triple_within (List.suffix_cons first _).isInfix free)
      rw [decode_plain other, List.mem_cons, not_or]
      exact ⟨fun zero => no_zero (zero ▸ List.mem_cons_self), later⟩

end Decoding

/-! ## What an encoder writes -/

section Encoding

variable {plain allowed : Byte → Bool}

theorem encoded_append {before after : List Byte} (front : Encoded allowed before)
    (rest : Encoded allowed after) : Encoded allowed (before ++ after) := by
  induction front with
  | nil => exact rest
  | plain byte _ allowed _ induction => exact .plain byte _ allowed induction
  | triple high low _ upperHigh upperLow _ induction =>
      exact .triple high low _ upperHigh upperLow induction

theorem encode_encoded (kept : ∀ byte, plain byte = true → allowed byte = true)
    (bytes : List Byte) : Encoded allowed (encode plain bytes) := by
  induction bytes with
  | nil => exact .nil
  | cons byte bytes induction =>
      rw [encode, List.flatMap_cons, ← encode, encodeByte]
      by_cases here : plain byte = true
      · rw [if_pos here]
        exact .plain byte _ (kept byte here) induction
      · rw [if_neg here]
        exact .triple _ _ _ (upper_hex_digit _) (upper_hex_digit _) induction

theorem mem_encode {bytes : List Byte} {byte : Byte} (member : byte ∈ encode plain bytes) :
    plain byte = true ∨ byte = percent ∨ upperDigit byte = true := by
  obtain ⟨source, _, inside⟩ := List.mem_flatMap.mp member
  rw [encodeByte] at inside
  by_cases here : plain source = true
  · rw [if_pos here, List.mem_singleton] at inside
    rw [inside]
    exact .inl here
  · rw [if_neg here] at inside
    simp only [List.mem_cons, List.not_mem_nil, or_false] at inside
    rcases inside with rfl | rfl | rfl
    · exact .inr (.inl rfl)
    · exact .inr (.inr (upper_hex_digit _))
    · exact .inr (.inr (upper_hex_digit _))

end Encoding

end Gk7102.PercentCoding
