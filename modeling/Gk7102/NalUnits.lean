import Mathlib.Data.List.Infix
import Gk7102.ByteBlocks

/-!
# NAL units behind start codes

A byte stream carries units one after the other, each behind a start code of three or
four bytes. The bytes of a unit contain neither three zeros in a row nor a start code,
and do not end with a zero, so the next start code is the first one a scan meets.
-/

namespace Gk7102.NalUnits

open ByteBlocks

set_option autoImplicit false

def shortCode : List Byte := [0, 0, 1]
def longCode : List Byte := [0, 0, 0, 1]

/-- What emulation prevention and the trailing bits of a unit guarantee. -/
structure Clean (unit : List Byte) : Prop where
  no_zeros : ¬ [0, 0, 0] <:+: unit
  no_code : ¬ shortCode <:+: unit
  last_nonzero : unit.getLast? ≠ some 0

structure Nal where
  long : Bool
  header : Byte
  payload : List Byte
  clean : Clean (header :: payload)

def Nal.code (nal : Nal) : List Byte := if nal.long then longCode else shortCode

def Nal.bytes (nal : Nal) : List Byte := nal.code ++ nal.header :: nal.payload

def streamOf (nals : List Nal) : List Byte := nals.flatMap Nal.bytes

/-- The first start code with a byte behind its first three: where it is and how long. -/
def findCode : List Byte → Option (Nat × Nat)
  | [] => none
  | byte :: rest =>
      if (byte :: rest).length < 4 then none
      else if (byte :: rest).take 3 = shortCode then some (0, 3)
      else if (byte :: rest).take 4 = longCode then some (0, 4)
      else (findCode rest).map fun (position, length) => (position + 1, length)

theorem find_code_cons (byte : Byte) (rest : List Byte) :
    findCode (byte :: rest) =
      if (byte :: rest).length < 4 then none
      else if (byte :: rest).take 3 = shortCode then some (0, 3)
      else if (byte :: rest).take 4 = longCode then some (0, 4)
      else (findCode rest).map fun (position, length) => (position + 1, length) := rfl

theorem find_code_nal (nal : Nal) (rest : List Byte) :
    findCode (nal.bytes ++ rest) = some (0, nal.code.length) := by
  unfold Nal.bytes Nal.code
  cases nal.long <;> simp [findCode, shortCode, longCode]

theorem clean_tail {byte : Byte} {rest : List Byte} (clean : Clean (byte :: rest)) :
    Clean rest where
  no_zeros inside := clean.no_zeros (inside.trans (List.suffix_cons byte _).isInfix)
  no_code inside := clean.no_code (inside.trans (List.suffix_cons byte _).isInfix)
  last_nonzero zero := by
    cases rest with
    | nil => cases zero
    | cons next more =>
        apply clean.last_nonzero
        rw [List.getLast?_cons_cons]
        exact zero

/-- No start code begins inside a unit, whatever follows it. -/
theorem no_code_at_head {byte : Byte} {rest : List Byte} (clean : Clean (byte :: rest)) :
    (∀ after, (byte :: rest ++ after).take 3 ≠ shortCode) ∧
      ∀ after, (byte :: rest ++ after).take 4 ≠ longCode := by
  have last := clean.last_nonzero
  have zeros := clean.no_zeros
  have code := clean.no_code
  match rest with
  | [] =>
      have nonzero : byte ≠ 0 := fun zero => last (by rw [zero]; rfl)
      constructor <;> · intro after same; simp [shortCode, longCode] at same; exact nonzero same.1
  | [second] =>
      have nonzero : second ≠ 0 := fun zero => last (by rw [zero]; rfl)
      constructor <;> · intro after same; simp [shortCode, longCode] at same; exact nonzero same.2.1
  | second :: third :: more =>
      constructor
      · intro after same
        simp [shortCode] at same
        obtain ⟨rfl, rfl, rfl⟩ := same
        exact code (List.prefix_append _ more).isInfix
      · intro after same
        simp [longCode] at same
        obtain ⟨rfl, rfl, rfl, -⟩ := same
        exact zeros (List.prefix_append _ more).isInfix

theorem find_code_skip {unit : List Byte} (clean : Clean unit) {after : List Byte}
    (whole : after = [] ∨ 4 ≤ after.length) :
    findCode (unit ++ after) =
      (findCode after).map fun (position, length) => (unit.length + position, length) := by
  induction unit with
  | nil => simp
  | cons byte rest ih =>
      have notShort := (no_code_at_head clean).1 after
      have notLong := (no_code_at_head clean).2 after
      rw [List.cons_append] at notShort notLong ⊢
      by_cases few : (byte :: (rest ++ after)).length < 4
      · have empty : after = [] := by
          rcases whole with empty | long
          · exact empty
          · simp only [List.length_cons, List.length_append] at few
            omega
        subst empty
        rw [find_code_cons, if_pos few]
        rfl
      · rw [find_code_cons, if_neg few, if_neg notShort, if_neg notLong,
          ih (clean_tail clean), Option.map_map]
        congr 1
        funext found
        simp only [Function.comp, List.length_cons]
        congr 1
        omega

theorem stream_of_whole (nals : List Nal) : streamOf nals = [] ∨ 4 ≤ (streamOf nals).length := by
  cases nals with
  | nil => exact .inl rfl
  | cons nal rest =>
      right
      simp only [streamOf, List.flatMap_cons, Nal.bytes, Nal.code, List.length_append,
        List.length_cons]
      cases nal.long <;> simp [shortCode, longCode] <;> omega

/-- Behind the start code of a unit, a scan meets the start code of the next one. -/
theorem find_code_next (nal : Nal) (nals : List Nal) :
    findCode (nal.header :: nal.payload ++ streamOf nals) =
      match nals with
      | [] => none
      | next :: _ => some ((nal.header :: nal.payload).length, next.code.length) := by
  rw [find_code_skip nal.clean (stream_of_whole nals)]
  cases nals with
  | nil => rfl
  | cons next rest =>
      rw [streamOf, List.flatMap_cons, find_code_nal]
      rfl

end Gk7102.NalUnits
