import Mathlib.Data.List.TakeWhile
import Gk7102.XmlGrammar
import Gk7102.XmlPasses
import Gk7102.XmlWrite

/-!
# The text of a tree

What a tree looks like as text, and that the parser reads it back: names without
characters that mean anything to the parser, values without a quote, and text that does
not begin like white space nor holds the beginning of a tag. Both writers are compared
with this text.
-/

namespace Gk7102.Xml

open Gk7102.ByteBlocks
open Gk7102.TextScan

set_option autoImplicit false

section Text

/-- Letters, digits, `_`, `-`, `.`, `:` and what is not ASCII. -/
def isNameByte (c : Byte) : Bool :=
  (97 ≤ c && c ≤ 122) || (65 ≤ c && c ≤ 90) || (48 ≤ c && c ≤ 57) ||
    c == 95 || c == 45 || c == 46 || c == 58 || 128 ≤ c

def isIdentifier (name : List Byte) : Prop := name ≠ [] ∧ ∀ c ∈ name, isNameByte c = true

instance (name : List Byte) : Decidable (isIdentifier name) := instDecidableAnd

def endTag (name : List Byte) : List Byte := [60, 47] ++ name ++ [62]

/-- What follows the attributes of a childless element. -/
def leafEnd (name : List Byte) : Option (List Byte) → List Byte
  | none => tagEndText .eleeEnd
  | some text => tagEndText .elesEnd ++ text ++ endTag name

def markup : Xmln → List Byte
  | .null => []
  | .node name attribs data fChild next =>
      [60] ++ name ++ fileWriteAttribs attribs ++
        (if fChild = .null then leafEnd name data
          else tagEndText .elesEnd ++ markup fChild ++ endTag name) ++ markup next

/-- The parser makes an attribute of every entry. -/
def Attrib.asRead (attr : Attrib) : Attrib := ⟨.attrib, attr.name, attr.data⟩

def Xmln.asRead : Xmln → Xmln
  | .null => .null
  | .node name attribs data fChild next =>
      .node name (attribs.map Attrib.asRead) data fChild.asRead next.asRead

/-- What the parser leaves alone up to the next tag. -/
def isText (text : List Byte) : Prop :=
  text ≠ [] ∧ atSpace text = false ∧ 60 ∉ text ∧ 0 ∉ text

instance (text : List Byte) : Decidable (isText text) := instDecidableAnd

/-- A node the parser reads back. -/
structure NodeFits (name : List Byte) (attribs : List Attrib) (data : Option (List Byte))
    (fChild : Xmln) : Prop where
  name : isIdentifier name
  attrNames : ∀ attr ∈ attribs, isIdentifier attr.name
  attrData : ∀ attr ∈ attribs, 34 ∉ attr.data ∧ 0 ∉ attr.data
  few : attribs.length < 64
  text : ∀ text ∈ data, fChild = .null ∧ isText text

def Xmln.depth : Xmln → Nat
  | .null => 0
  | .node _ _ _ fChild next => max (fChild.depth + 1) next.depth

end Text

section Names

theorem cstring_of_free {text : List Byte} (free : 0 ∉ text) : cString text = text := by
  apply List.takeWhile_eq_self_iff.mpr
  intro byte member
  apply decide_eq_true
  rintro rfl
  exact free member

/-- A byte the parser's conditions pass by inside a name. -/
structure PlainByte (c : Byte) : Prop where
  notSpace : isWhiteSpace c = false
  notGreater : c ≠ 62
  notSlash : c ≠ 47
  notEquals : c ≠ 61
  notBang : c ≠ 33
  notNul : c ≠ 0
  notQuestion : c ≠ 63

theorem name_byte_plain {c : Byte} (inName : isNameByte c = true) : PlainByte c := by
  have differs : ∀ other : Byte, isNameByte other = false → c ≠ other := by
    intro other notInName same
    rw [same, notInName] at inName
    cases inName
  have space : isWhiteSpace c = false := by
    simp only [isWhiteSpace, Bool.or_eq_false_iff, beq_eq_false_iff_ne]
    exact ⟨⟨⟨differs 32 (by decide), differs 9 (by decide)⟩, differs 13 (by decide)⟩,
      differs 10 (by decide)⟩
  exact ⟨space, differs 62 (by decide), differs 47 (by decide), differs 61 (by decide),
    differs 33 (by decide), differs 0 (by decide), differs 63 (by decide)⟩

variable {c : Byte} (rest : List Byte)

theorem starts_with_one (mark : Byte) : startsWith [mark] (c :: rest) = (mark == c) := by
  simp only [startsWith, List.isPrefixOf, Bool.and_true]

theorem starts_with_two (first second : Byte) (text : List Byte) :
    startsWith (first :: second :: text) (c :: rest) =
      (first == c && startsWith (second :: text) rest) := rfl

theorem not_elems_end (notGreater : c ≠ 62) (notSlash : c ≠ 47) :
    isElemsEnd (c :: rest) = false := by
  rw [isElemsEnd, starts_with_one, starts_with_two, beq_eq_false_iff_ne.mpr notGreater.symm,
    beq_eq_false_iff_ne.mpr notSlash.symm]
  rfl

theorem name_passes_name_end (plain : PlainByte c) : nameEnd (c :: rest) = false := by
  rw [nameEnd, not_elems_end rest plain.notGreater plain.notSlash, atSpace, plain.notSpace]
  rfl

theorem name_passes_attr_name_end (plain : PlainByte c) : attrNameEnd (c :: rest) = false := by
  rw [attrNameEnd, not_elems_end rest plain.notGreater plain.notSlash, starts_with_one,
    beq_eq_false_iff_ne.mpr plain.notEquals.symm]
  rfl

theorem name_passes_end_name_end (plain : PlainByte c) : endNameEnd (c :: rest) = false := by
  rw [endNameEnd, starts_with_one, beq_eq_false_iff_ne.mpr plain.notGreater.symm, atSpace,
    plain.notSpace]
  rfl

end Names

section Tags

theorem read_name_identifier {stop : List Byte → Bool} {name : List Byte}
    (identifier : isIdentifier name) {rest : List Byte} (behind : stop rest = true)
    (more : rest ≠ [])
    (passes : ∀ c rest, PlainByte c → stop (c :: rest) = false) :
    readName stop (name ++ rest) = some (name, rest) := by
  rcases identifier with ⟨notEmpty, every⟩
  have passed : ∀ c ∈ name, ∀ rest, stop (c :: rest) = false :=
    fun c member rest => passes c rest (name_byte_plain (every c member))
  have free : 0 ∉ name := fun member => (name_byte_plain (every 0 member)).notNul rfl
  have left : dropUntil stop (name ++ rest) = rest := by
    rw [drop_until_past passed, drop_until_here behind]
  have taken : takeUntil stop (name ++ rest) = name := by
    rw [take_until_past passed, take_until_here behind, List.append_nil]
  cases name with
  | nil => exact absurd rfl notEmpty
  | cons c others =>
      have noSpace : atSpace (c :: others ++ rest) = false :=
        (name_byte_plain (every c List.mem_cons_self)).notSpace
      rw [readName, spaces_off_here noSpace, List.cons_append]
      rw [List.cons_append] at left taken
      cases rest with
      | nil => exact absurd rfl more
      | cons d rest =>
          simp only [left, taken]
          rw [cstring_of_free free]

theorem tag_end_text (ret : TagEnd) (rest : List Byte) :
    tagEnd (tagEndText ret ++ rest) = some (ret, rest) := by
  cases ret <;> rfl

theorem tag_end_text_no_space (ret : TagEnd) (rest : List Byte) :
    atSpace (tagEndText ret ++ rest) = false := by
  cases ret <;> rfl

theorem tag_end_text_elems_end (ret : TagEnd) (rest : List Byte) :
    isElemsEnd (tagEndText ret ++ rest) = true := by
  cases ret <;> rfl

theorem tag_end_text_more (ret : TagEnd) (rest : List Byte) : tagEndText ret ++ rest ≠ [] := by
  cases ret <;> exact List.cons_ne_nil _ _

theorem read_attr_after_space (text : List Byte) : readAttr (32 :: text) = readAttr text := by
  have skipped : spacesOff (32 :: text) = spacesOff text := rfl
  rw [readAttr, skipped, readAttr]

theorem read_attr_end (ret : TagEnd) (rest : List Byte) :
    readAttr (tagEndText ret ++ rest) = .closed ret rest := by
  rw [readAttr, spaces_off_here (tag_end_text_no_space ret rest)]
  cases ret <;> rfl

theorem read_value_quoted (name rest : List Byte) {value : List Byte} (noQuote : 34 ∉ value)
    (noNul : 0 ∉ value) :
    readValue name ([34] ++ value ++ [34] ++ rest) = .attr name value none rest := by
  have passes : ∀ c ∈ value, ∀ rest, startsWith [34] (c :: rest) = false := by
    intro c member rest
    rw [starts_with_one, beq_eq_false_iff_ne]
    rintro rfl
    exact noQuote member
  have behind : startsWith [34] ([34] ++ rest) = true := rfl
  have left : dropUntil (startsWith [34]) (value ++ ([34] ++ rest)) = [34] ++ rest := by
    rw [drop_until_past passes, drop_until_here behind]
  have taken : takeUntil (startsWith [34]) (value ++ ([34] ++ rest)) = value := by
    rw [take_until_past passes, take_until_here behind, List.append_nil]
  have quoted : startsWith [34] ([34] ++ (value ++ ([34] ++ rest))) = true := rfl
  have inside : ([34] ++ (value ++ ([34] ++ rest)) : List Byte).drop 1 =
      value ++ ([34] ++ rest) := rfl
  rw [List.append_assoc, List.append_assoc, readValue, if_pos quoted, inside, left, taken,
    cstring_of_free noNul]
  rfl

theorem read_attr_written {name value : List Byte} (identifier : isIdentifier name)
    (noQuote : 34 ∉ value) (noNul : 0 ∉ value) (rest : List Byte) :
    readAttr (name ++ [61, 34] ++ value ++ [34] ++ rest) = .attr name value none rest := by
  rcases identifier with ⟨notEmpty, every⟩
  have passes : ∀ c ∈ name, ∀ rest, attrNameEnd (c :: rest) = false :=
    fun c member rest => name_passes_attr_name_end rest (name_byte_plain (every c member))
  have free : 0 ∉ name := fun member => (name_byte_plain (every 0 member)).notNul rfl
  have spread : name ++ [61, 34] ++ value ++ [34] ++ rest =
      name ++ (61 :: ([34] ++ value ++ [34] ++ rest)) := by
    simp only [List.append_assoc, List.cons_append, List.nil_append]
  generalize behindName : [34] ++ value ++ [34] ++ rest = behind at spread
  have stops : attrNameEnd (61 :: behind) = true := rfl
  have left : dropUntil attrNameEnd (name ++ 61 :: behind) = 61 :: behind := by
    rw [drop_until_past passes, drop_until_here stops]
  have taken : takeUntil attrNameEnd (name ++ 61 :: behind) = name := by
    rw [take_until_past passes, take_until_here stops, List.append_nil]
  rw [spread]
  cases name with
  | nil => exact absurd rfl notEmpty
  | cons c others =>
      have plain := name_byte_plain (every c List.mem_cons_self)
      have noSpace : atSpace (c :: others ++ 61 :: behind) = false := plain.notSpace
      have noEnd : tagEnd (c :: (others ++ 61 :: behind)) = none :=
        tag_end_none_iff.mpr (not_elems_end _ plain.notGreater plain.notSlash)
      have notEnded : tagEnd (61 :: behind) = none := rfl
      rw [readAttr, spaces_off_here noSpace, List.cons_append]
      rw [List.cons_append] at left taken
      simp only [noEnd, left, notEnded, taken]
      rw [cstring_of_free free, ← behindName, read_value_quoted _ _ noQuote noNul]

end Tags

end Gk7102.Xml
