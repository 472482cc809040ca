import Gk7102.XmlReader

/-!
# What one pass does

A pass first steps over white space and a comment, and what it finds there decides the
rest: the end of the text, an end tag, a start tag, or something that is neither.
-/

namespace Gk7102.Xml

open Gk7102.ByteBlocks
open Gk7102.TextScan

set_option autoImplicit false

/-- What stands behind white space, one comment at most and white space again. -/
def gapOff (text : List Byte) : Option (List Byte) :=
  (commentOff (spacesOff text)).map spacesOff

section Spaces

theorem spaces_off_here {text : List Byte} (noSpace : atSpace text = false) :
    spacesOff text = text :=
  drop_until_here (by rw [notSpace, noSpace]; rfl)

theorem spaces_off_stops (text : List Byte) : atSpace (spacesOff text) = false := by
  by_cases nothing : spacesOff text = []
  · rw [nothing]
    rfl
  · have stops : notSpace (spacesOff text) = true := drop_until_stops notSpace text nothing
    rw [notSpace, Bool.not_eq_true'] at stops
    exact stops

theorem spaces_off_twice (text : List Byte) : spacesOff (spacesOff text) = spacesOff text :=
  spaces_off_here (spaces_off_stops text)

end Spaces

section Dispatch

variable {reader : Reader} {text tag : List Byte}

theorem read_pass_markup (gap : gapOff reader.rest = some text) :
    readPass reader = readMarkup { reader with rest := text } := by
  rcases Option.map_eq_some_iff.mp gap with ⟨behind, off, rfl⟩
  have once : readMarkup { reader with rest := spacesOff behind } =
      readMarkup { reader with rest := behind } := by
    rw [readMarkup, spaces_off_twice, readMarkup]
  rw [once, readPass]
  split
  · rename_i nothing
    rw [nothing] at off
    cases off
    rfl
  · rename_i c text ahead
    rw [ahead] at off
    rw [off]

theorem read_pass_end_tag (gap : gapOff reader.rest = some (60 :: 47 :: tag)) :
    readPass reader = readClosing { reader with rest := tag } := by
  rw [read_pass_markup gap]
  rfl

theorem read_pass_start_tag (gap : gapOff reader.rest = some (60 :: tag))
    (opens : startsWith [47] tag = false) :
    readPass reader = readOpening { reader with rest := tag } := by
  have noEndTag : startsWith [60, 47] (60 :: tag) = false := by
    rw [startsWith, List.isPrefixOf, ← startsWith, opens]
    rfl
  have noSpace : atSpace (60 :: tag) = false := rfl
  rw [read_pass_markup gap, readMarkup]
  simp only [spaces_off_here noSpace, noEndTag]
  rfl

end Dispatch

end Gk7102.Xml
