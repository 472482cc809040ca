import Mathlib.Data.List.Basic
import Gk7102.ByteBlocks

/-!
# Base64

The encoding of RFC 4648: three bytes are four digits of six bits, most significant
first, and one or two bytes at the end are padded. The decoder takes nothing that the
encoder does not put, down to the bits that the padding leaves over.
-/

namespace Gk7102.Base64Coding

open Gk7102.ByteBlocks

set_option autoImplicit false

def ofAscii (text : String) : List Byte := text.toList.map fun char => BitVec.ofNat 8 char.toNat

def alphabet : List Byte :=
  ofAscii "ABCDEFGHIJKLMNOPQRSTUVWXYZabcdefghijklmnopqrstuvwxyz0123456789+/"

def pad : Byte := 61

def symbol (digit : Nat) : Byte := alphabet.getD digit 0

def digitOf (symbol : Byte) : Option Nat := alphabet.idxOf? symbol

def encode : List Byte → List Byte
  | [] => []
  | [first] => [symbol (first.toNat / 4), symbol (first.toNat % 4 * 16), pad, pad]
  | [first, second] =>
      [symbol (first.toNat / 4), symbol (first.toNat % 4 * 16 + second.toNat / 16),
        symbol (second.toNat % 16 * 4), pad]
  | first :: second :: third :: rest =>
      symbol (first.toNat / 4) :: symbol (first.toNat % 4 * 16 + second.toNat / 16) ::
        symbol (second.toNat % 16 * 4 + third.toNat / 64) :: symbol (third.toNat % 64) ::
        encode rest

/-- The byte that four bits or more of one digit and what is left of the next make up. -/
def byteOf (high low : Nat) : Byte := BitVec.ofNat 8 (high + low)

/-- The last four symbols, of which the last is padding. -/
def decodePadded (first second third : Byte) : Option (List Byte) := do
  let high ← digitOf first
  let middle ← digitOf second
  if third = pad then
    if middle % 16 = 0 then some [byteOf (high * 4) (middle / 16)] else none
  else
    let low ← digitOf third
    if low % 4 = 0 then
      some [byteOf (high * 4) (middle / 16), byteOf (middle % 16 * 16) (low / 4)]
    else none

def decode : List Byte → Option (List Byte)
  | [] => some []
  | first :: second :: third :: fourth :: rest =>
      if fourth = pad then
        if rest = [] then decodePadded first second third else none
      else do
        let high ← digitOf first
        let middle ← digitOf second
        let low ← digitOf third
        let last ← digitOf fourth
        let later ← decode rest
        some (byteOf (high * 4) (middle / 16) :: byteOf (middle % 16 * 16) (low / 4) ::
          byteOf (low % 4 * 64) last :: later)
  | _ => none

@[simp] theorem alphabet_length : alphabet.length = 64 := by decide

theorem symbol_mem {digit : Nat} (small : digit < 64) : symbol digit ∈ alphabet := by
  rw [symbol, List.getD_eq_getElem?_getD, List.getElem?_eq_getElem (by simpa using small)]
  exact List.getElem_mem _

theorem pad_not_mem : pad ∉ alphabet := by decide

theorem symbol_ne_pad {digit : Nat} (small : digit < 64) : symbol digit ≠ pad := by
  intro same
  exact pad_not_mem (same ▸ symbol_mem small)

theorem digit_of_symbol {digit : Nat} (small : digit < 64) : digitOf (symbol digit) = some digit := by
  have every : ∀ digit < 64, digitOf (symbol digit) = some digit := by decide +kernel
  exact every digit small

theorem byte_of_parts {byte : Byte} {high low : Nat} (parts : high + low = byte.toNat) :
    byteOf high low = byte := by
  rw [byteOf, parts, BitVec.ofNat_toNat, BitVec.setWidth_eq]

theorem encode_length (bytes : List Byte) : (encode bytes).length = 4 * ((bytes.length + 2) / 3) := by
  induction bytes using encode.induct with
  | case1 => rfl
  | case2 first => simp [encode]
  | case3 first second => simp [encode]
  | case4 first second third rest ih =>
      simp only [encode, List.length_cons, ih]
      omega

theorem encode_padded (bytes : List Byte) :
    ∃ symbols, encode bytes = symbols ++ List.replicate ((3 - bytes.length % 3) % 3) pad ∧
      ∀ symbol ∈ symbols, symbol ∈ alphabet := by
  induction bytes using encode.induct with
  | case1 => exact ⟨[], rfl, by simp⟩
  | case2 first =>
      refine ⟨[symbol (first.toNat / 4), symbol (first.toNat % 4 * 16)], rfl, ?_⟩
      have bound := first.isLt
      simp only [List.mem_cons, List.not_mem_nil, or_false, forall_eq_or_imp, forall_eq]
      exact ⟨symbol_mem (by omega), symbol_mem (by omega)⟩
  | case3 first second =>
      refine ⟨[symbol (first.toNat / 4), symbol (first.toNat % 4 * 16 + second.toNat / 16),
        symbol (second.toNat % 16 * 4)], rfl, ?_⟩
      have bound := first.isLt
      have below := second.isLt
      simp only [List.mem_cons, List.not_mem_nil, or_false, forall_eq_or_imp, forall_eq]
      exact ⟨symbol_mem (by omega), symbol_mem (by omega), symbol_mem (by omega)⟩
  | case4 first second third rest ih =>
      obtain ⟨symbols, same, every⟩ := ih
      have length : (first :: second :: third :: rest).length % 3 = rest.length % 3 := by
        simp only [List.length_cons]
        omega
      refine ⟨symbol (first.toNat / 4) :: symbol (first.toNat % 4 * 16 + second.toNat / 16) ::
        symbol (second.toNat % 16 * 4 + third.toNat / 64) :: symbol (third.toNat % 64) ::
        symbols, ?_, ?_⟩
      · rw [encode, length, same]
        rfl
      · have one := first.isLt
        have two := second.isLt
        have three := third.isLt
        simp only [List.mem_cons, forall_eq_or_imp]
        exact ⟨symbol_mem (by omega), symbol_mem (by omega), symbol_mem (by omega),
          symbol_mem (by omega), every⟩

theorem decode_encode (bytes : List Byte) : decode (encode bytes) = some bytes := by
  induction bytes using encode.induct with
  | case1 => rfl
  | case2 first =>
      have one := first.isLt
      have back : byteOf (first.toNat / 4 * 4) (first.toNat % 4 * 16 / 16) = first :=
        byte_of_parts (by omega)
      have spare : first.toNat % 4 * 16 % 16 = 0 := by omega
      simp only [encode, decode, decodePadded, if_pos, digit_of_symbol, back, spare,
        show first.toNat / 4 < 64 by omega, show first.toNat % 4 * 16 < 64 by omega,
        Option.bind_eq_bind, Option.bind_some]
  | case3 first second =>
      have one := first.isLt
      have two := second.isLt
      have notPad : symbol (second.toNat % 16 * 4) ≠ pad := symbol_ne_pad (by omega)
      have backFirst : byteOf (first.toNat / 4 * 4)
          ((first.toNat % 4 * 16 + second.toNat / 16) / 16) = first :=
        byte_of_parts (by omega)
      have backSecond : byteOf ((first.toNat % 4 * 16 + second.toNat / 16) % 16 * 16)
          (second.toNat % 16 * 4 / 4) = second :=
        byte_of_parts (by omega)
      have spare : second.toNat % 16 * 4 % 4 = 0 := by omega
      simp only [encode, decode, decodePadded, if_pos, if_neg notPad, digit_of_symbol, backFirst,
        backSecond, spare, show first.toNat / 4 < 64 by omega,
        show first.toNat % 4 * 16 + second.toNat / 16 < 64 by omega,
        show second.toNat % 16 * 4 < 64 by omega, Option.bind_eq_bind, Option.bind_some]
  | case4 first second third rest ih =>
      have one := first.isLt
      have two := second.isLt
      have three := third.isLt
      have notPad : symbol (third.toNat % 64) ≠ pad := symbol_ne_pad (by omega)
      have backFirst : byteOf (first.toNat / 4 * 4)
          ((first.toNat % 4 * 16 + second.toNat / 16) / 16) = first :=
        byte_of_parts (by omega)
      have backSecond : byteOf ((first.toNat % 4 * 16 + second.toNat / 16) % 16 * 16)
          ((second.toNat % 16 * 4 + third.toNat / 64) / 4) = second :=
        byte_of_parts (by omega)
      have backThird : byteOf ((second.toNat % 16 * 4 + third.toNat / 64) % 4 * 64)
          (third.toNat % 64) = third :=
        byte_of_parts (by omega)
      simp only [encode, decode, if_neg notPad, digit_of_symbol, backFirst, backSecond, backThird,
        ih, show first.toNat / 4 < 64 by omega,
        show first.toNat % 4 * 16 + second.toNat / 16 < 64 by omega,
        show second.toNat % 16 * 4 + third.toNat / 64 < 64 by omega,
        show third.toNat % 64 < 64 by omega, Option.bind_eq_bind, Option.bind_some]

end Gk7102.Base64Coding
