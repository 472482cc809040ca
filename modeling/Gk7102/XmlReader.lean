import Gk7102.XmlParse

/-!
# Reading without a buffer

The parser again, on the text ahead instead of a pointer into a buffer, and with the
names and values themselves instead of pointers to them. The bounds of the two
arrays are tests on lengths here. That this is what the parser does to its buffer is
shown apart; everything about what is accepted is shown of the reader.
-/

namespace Gk7102.Xml

open Gk7102.ByteBlocks
open Gk7102.TextScan

set_option autoImplicit false

section Stops

def notSpace (text : List Byte) : Bool := !atSpace text
def nameEnd (text : List Byte) : Bool := atSpace text || isElemsEnd text
def attrNameEnd (text : List Byte) : Bool := startsWith [61] text || isElemsEnd text
def endNameEnd (text : List Byte) : Bool := atSpace text || startsWith [62] text

def spacesOff : List Byte → List Byte := dropUntil notSpace

end Stops

section Tags

def tagEnd (text : List Byte) : Option (TagEnd × List Byte) :=
  if startsWith [62] text then some (.elesEnd, text.drop 1)
  else if startsWith [47, 62] text then some (.eleeEnd, text.drop 2)
  else none

inductive AttrStep where
  | failed
  | closed (ret : TagEnd) (rest : List Byte)
  | attr (name value : List Byte) (ret : Option TagEnd) (rest : List Byte)
deriving DecidableEq, Repr

/-- The value behind an equals sign. -/
def readValue (name text : List Byte) : AttrStep :=
  if startsWith [34] text then
    match dropUntil (startsWith [34]) (text.drop 1) with
    | [] => .failed
    | _ :: rest =>
        .attr name (cString (takeUntil (startsWith [34]) (text.drop 1))) none rest
  else
    match dropUntil nameEnd text with
    | [] => .failed
    | c :: rest =>
        let value := cString (takeUntil nameEnd text)
        if atSpace (c :: rest) then .attr name value none rest
        else match tagEnd (c :: rest) with
          | none => .attr name value none (c :: rest)
          | some (ret, rest) => .attr name value (some ret) rest

def readAttr (text : List Byte) : AttrStep :=
  match spacesOff text with
  | [] => .failed
  | c :: text =>
      match tagEnd (c :: text) with
      | some (ret, rest) => .closed ret rest
      | none =>
          match dropUntil attrNameEnd (c :: text) with
          | [] => .failed
          | d :: rest =>
              match tagEnd (d :: rest) with
              | some (ret, rest) => .closed ret rest
              | none => readValue (cString (takeUntil attrNameEnd (c :: text))) rest

theorem spaces_off_length_le (text : List Byte) : (spacesOff text).length ≤ text.length :=
  drop_until_length_le _ _

theorem tag_end_length_le {text rest : List Byte} {ret : TagEnd}
    (closed : tagEnd text = some (ret, rest)) : rest.length ≤ text.length := by
  rw [tagEnd] at closed
  split at closed
  · cases closed
    rw [List.length_drop]
    exact Nat.sub_le _ _
  · split at closed
    · cases closed
      rw [List.length_drop]
      exact Nat.sub_le _ _
    · cases closed

theorem tag_end_none_iff {text : List Byte} : tagEnd text = none ↔ isElemsEnd text = false := by
  rw [tagEnd, isElemsEnd]
  cases startsWith [62] text <;> cases startsWith [47, 62] text <;> simp

theorem read_value_length_le {name text value value' rest : List Byte} {ret : Option TagEnd}
    (read : readValue name text = .attr value' value ret rest) : rest.length ≤ text.length := by
  rw [readValue] at read
  split at read
  · have shorter := drop_until_length_le (startsWith [34]) (text.drop 1)
    rw [List.length_drop] at shorter
    split at read
    · cases read
    · rename_i found
      cases read
      rw [found, List.length_cons] at shorter
      omega
  · have shorter := drop_until_length_le nameEnd text
    split at read
    · cases read
    · rename_i found
      rw [found] at shorter
      split at read
      · cases read
        rw [List.length_cons] at shorter
        omega
      · split at read
        · cases read
          exact shorter
        · rename_i closed
          cases read
          exact Nat.le_trans (tag_end_length_le closed) shorter

/-- An attribute takes at least its equals sign off the text. -/
theorem read_attr_shorter {text name value rest : List Byte} {ret : Option TagEnd}
    (read : readAttr text = .attr name value ret rest) : rest.length < text.length := by
  rw [readAttr] at read
  have first := spaces_off_length_le text
  split at read
  · cases read
  · rename_i c text' spaced
    rw [spaced] at first
    split at read
    · cases read
    · have second := drop_until_length_le attrNameEnd (c :: text')
      split at read
      · cases read
      · rename_i found
        rw [found, List.length_cons] at second
        split at read
        · cases read
        · have third := read_value_length_le read
          omega

def readAttrs (text : List Byte) :
    List (List Byte × List Byte) × Option (TagEnd × List Byte) :=
  match _step : readAttr text with
  | .failed => ([], none)
  | .closed ret rest => ([], some (ret, rest))
  | .attr name value (some ret) rest => ([(name, value)], some (ret, rest))
  | .attr name value none rest =>
      ((name, value) :: (readAttrs rest).1, (readAttrs rest).2)
termination_by text.length
decreasing_by
  all_goals exact read_attr_shorter _step

end Tags

/-- The text ahead, the names of the open elements from the inside out, and the tree. -/
structure Reader where
  rest : List Byte
  names : List (List Byte)
  nodes : List OpenNode
deriving DecidableEq

section Elements

def addAttrs (nodes : List OpenNode) (attrs : List (List Byte × List Byte)) : List OpenNode :=
  attrs.foldl (fun nodes attr => xmlAttrAdd nodes attr.1 attr.2) nodes

/-- What a start tag does to the names and the tree. -/
def Reader.start (reader : Reader) (name : List Byte) (attrs : List (List Byte × List Byte))
    (ret : TagEnd) (rest : List Byte) : Reader :=
  let nodes := addAttrs (xmlNodeAddNew reader.nodes name) attrs
  match ret with
  | .elesEnd => ⟨rest, name :: reader.names, nodes⟩
  | .eleeEnd => ⟨rest, reader.names, streamEndElement nodes⟩

/-- The name of a tag and what follows it, unless the text ends first. -/
def readName (stop : List Byte → Bool) (text : List Byte) : Option (List Byte × List Byte) :=
  match spacesOff text with
  | [] => none
  | c :: text =>
      match dropUntil stop (c :: text) with
      | [] => none
      | d :: rest => some (cString (takeUntil stop (c :: text)), d :: rest)

/-- Each attribute takes two places of the array, and the callback looks for a NULL
behind the last one. -/
def attrsFit (attrs : List (List Byte × List Byte)) (closed : Bool) : Prop :=
  2 * attrs.length ≤ maxAttrNum ∧ (closed = true → 2 * attrs.length < maxAttrNum)

instance (attrs : List (List Byte × List Byte)) (closed : Bool) :
    Decidable (attrsFit attrs closed) := instDecidableAnd

/-- What stands in a start tag behind its name. -/
def readTagRest (text : List Byte) :
    List (List Byte × List Byte) × Option (TagEnd × List Byte) :=
  match tagEnd text with
  | some closed => ([], some closed)
  | none => readAttrs (text.drop 1)

def readStartTag (reader : Reader) (name : List Byte) : Except Fault (Reader × TagEnd) :=
  let (attrs, closed) := readTagRest reader.rest
  if attrsFit attrs closed.isSome then
    match closed with
    | none => .error .failed
    | some (ret, rest) => .ok (reader.start name attrs ret rest, ret)
  else .error .outOfBounds

def readElementStart (reader : Reader) : Except Fault (Reader × TagEnd) :=
  match readName nameEnd reader.rest with
  | none => .error .failed
  | some (name, text) =>
      if maxStackDepth ≤ reader.names.length + 1 then .error .outOfBounds
      else readStartTag { reader with rest := text } name

def readEndTag (stackName text : List Byte) : Option (List Byte) :=
  match readName endNameEnd text with
  | none => none
  | some (endName, text) =>
      let behind := if atSpace text then spacesOff (text.drop 1) else text
      if startsWith [62] behind && strcasecmpEq endName stackName then some (behind.drop 1)
      else none

def readElementEnd (reader : Reader) : Except Fault Reader :=
  match reader.names with
  | [] => .error .failed
  | stackName :: outer =>
      match readEndTag stackName reader.rest with
      | none => .error .failed
      | some rest => .ok ⟨rest, outer, streamEndElement reader.nodes⟩

def readCharData (reader : Reader) : Except Fault Reader :=
  match dropUntil (startsWith [60]) reader.rest with
  | [] => .error .failed
  | _ :: rest =>
      let text := cString (takeUntil (startsWith [60]) reader.rest)
      if startsWith [47] rest then
        readElementEnd ⟨rest.drop 1, reader.names, streamCharData text reader.nodes⟩
      else .error .failed

end Elements

section Passes

inductive ReadPass where
  | again (reader : Reader)
  | finished (reader : Reader)
deriving DecidableEq

def Reader.finishAtBottom (reader : Reader) : Except Fault ReadPass :=
  if reader.names = [] then .ok (.finished reader) else .error .failed

def Reader.finishOrAgain (reader : Reader) : ReadPass :=
  if reader.names = [] then .finished reader else .again reader

/-- The text behind the comment, when there is one in front; a comment that is not
closed has nothing behind it. -/
def commentOff (text : List Byte) : Option (List Byte) :=
  if isXmlCommentStart text then
    match dropUntil isXmlCommentEnd (text.drop 4) with
    | [] => none
    | c :: rest => some ((c :: rest).drop 3)
  else some text

/-- Behind `</`. -/
def readClosing (reader : Reader) : Except Fault ReadPass :=
  match spacesOff reader.rest with
  | [] => { reader with rest := [] }.finishAtBottom
  | c :: text => do
      let reader ← readElementEnd { reader with rest := c :: text }
      .ok reader.finishOrAgain

/-- Behind the start tag of an element that is not empty. -/
def readContent (reader : Reader) : Except Fault ReadPass :=
  match spacesOff reader.rest with
  | [] => .error .failed
  | c :: text =>
      if startsWith [60] (c :: text) then .ok (.again { reader with rest := c :: text })
      else do
        let reader ← readCharData { reader with rest := c :: text }
        .ok (.again reader)

/-- Behind `<`. -/
def readOpening (reader : Reader) : Except Fault ReadPass :=
  match spacesOff reader.rest with
  | [] => { reader with rest := [] }.finishAtBottom
  | c :: text => do
      match ← readElementStart { reader with rest := c :: text } with
      | (reader, .eleeEnd) => .ok reader.finishOrAgain
      | (reader, .elesEnd) => readContent reader

/-- Behind the comment. -/
def readMarkup (reader : Reader) : Except Fault ReadPass :=
  match spacesOff reader.rest with
  | [] => { reader with rest := [] }.finishAtBottom
  | c :: text =>
      if startsWith [60, 47] (c :: text) then
        readClosing { reader with rest := (c :: text).drop 2 }
      else if startsWith [60] (c :: text) then
        readOpening { reader with rest := (c :: text).drop 1 }
      else .error .failed

def readPass (reader : Reader) : Except Fault ReadPass :=
  match spacesOff reader.rest with
  | [] => { reader with rest := [] }.finishAtBottom
  | c :: text =>
      match commentOff (c :: text) with
      | none => .error .outOfBounds
      | some text => readMarkup { reader with rest := text }

end Passes

section Progress

theorem read_attr_closed_length_le {text rest : List Byte} {ret : TagEnd}
    (read : readAttr text = .closed ret rest) : rest.length ≤ text.length := by
  have first := spaces_off_length_le text
  rw [readAttr] at read
  split at read
  · cases read
  · rename_i c text' spaced
    rw [spaced] at first
    split at read
    · rename_i closed
      cases read
      exact Nat.le_trans (tag_end_length_le closed) first
    · have second := drop_until_length_le attrNameEnd (c :: text')
      split at read
      · cases read
      · rename_i found
        rw [found] at second
        split at read
        · rename_i closed
          cases read
          have third := tag_end_length_le closed
          omega
        · rw [readValue] at read
          split at read
          · split at read <;> cases read
          · split at read
            · cases read
            · split at read
              · cases read
              · split at read <;> cases read

theorem read_attrs_failed {text : List Byte} (step : readAttr text = .failed) :
    readAttrs text = ([], none) := by
  rw [readAttrs]
  split <;> simp_all

theorem read_attrs_closed {text rest : List Byte} {ret : TagEnd}
    (step : readAttr text = .closed ret rest) : readAttrs text = ([], some (ret, rest)) := by
  rw [readAttrs]
  split <;> simp_all

theorem read_attrs_last {text name value rest : List Byte} {ret : TagEnd}
    (step : readAttr text = .attr name value (some ret) rest) :
    readAttrs text = ([(name, value)], some (ret, rest)) := by
  rw [readAttrs]
  split <;> simp_all

theorem read_attrs_more {text name value rest : List Byte}
    (step : readAttr text = .attr name value none rest) :
    readAttrs text = ((name, value) :: (readAttrs rest).1, (readAttrs rest).2) := by
  rw [readAttrs]
  split <;> simp_all

theorem read_attrs_length_le {text rest : List Byte} {ret : TagEnd}
    (closed : (readAttrs text).2 = some (ret, rest)) : rest.length ≤ text.length := by
  induction text using readAttrs.induct with
  | case1 text step =>
      rw [read_attrs_failed step] at closed
      cases closed
  | case2 text ret' rest' step =>
      rw [read_attrs_closed step] at closed
      cases closed
      exact read_attr_closed_length_le step
  | case3 text name value ret' rest' step =>
      rw [read_attrs_last step] at closed
      cases closed
      exact Nat.le_of_lt (read_attr_shorter step)
  | case4 text name value rest' step ih =>
      rw [read_attrs_more step] at closed
      exact Nat.le_of_lt (Nat.lt_of_le_of_lt (ih closed) (read_attr_shorter step))

theorem read_tag_rest_length_le {text rest : List Byte} {ret : TagEnd}
    (closed : (readTagRest text).2 = some (ret, rest)) : rest.length ≤ text.length := by
  rw [readTagRest] at closed
  split at closed
  · rename_i ended
    cases closed
    exact tag_end_length_le ended
  · have shorter := read_attrs_length_le closed
    rw [List.length_drop] at shorter
    omega

theorem read_name_length_le {stop : List Byte → Bool} {text name rest : List Byte}
    (read : readName stop text = some (name, rest)) : rest.length ≤ text.length := by
  have first := spaces_off_length_le text
  rw [readName] at read
  split at read
  · cases read
  · rename_i c text' spaced
    rw [spaced] at first
    have second := drop_until_length_le stop (c :: text')
    split at read
    · cases read
    · rename_i found
      rw [found] at second
      cases read
      omega

theorem reader_start_rest (reader : Reader) (name : List Byte)
    (attrs : List (List Byte × List Byte)) (ret : TagEnd) (rest : List Byte) :
    (reader.start name attrs ret rest).rest = rest := by
  cases ret <;> rfl

theorem read_start_tag_length_le {reader after : Reader} {name : List Byte} {ret : TagEnd}
    (read : readStartTag reader name = .ok (after, ret)) :
    after.rest.length ≤ reader.rest.length := by
  have shorter := fun ret rest => @read_tag_rest_length_le reader.rest rest ret
  rw [readStartTag] at read
  generalize readTagRest reader.rest = parts at read shorter
  rcases parts with ⟨attrs, closed⟩
  simp only at read
  split at read
  · split at read
    · cases read
    · rename_i rest'
      cases read
      rw [reader_start_rest]
      exact shorter _ _ rfl
  · cases read

theorem read_element_start_length_le {reader after : Reader} {ret : TagEnd}
    (read : readElementStart reader = .ok (after, ret)) :
    after.rest.length ≤ reader.rest.length := by
  rw [readElementStart] at read
  split at read
  · cases read
  · rename_i name text named
    have first := read_name_length_le named
    split at read
    · cases read
    · exact Nat.le_trans (read_start_tag_length_le read) first

theorem read_end_tag_length_le {stackName text rest : List Byte}
    (read : readEndTag stackName text = some rest) : rest.length ≤ text.length := by
  rw [readEndTag] at read
  split at read
  · cases read
  · rename_i endName text' named
    have first := read_name_length_le named
    have second : (if atSpace text' then spacesOff (text'.drop 1) else text').length ≤
        text'.length := by
      split
      · have shorter := spaces_off_length_le (text'.drop 1)
        rw [List.length_drop] at shorter
        omega
      · exact Nat.le_refl _
    simp only at read
    generalize (if atSpace text' then spacesOff (text'.drop 1) else text') = behind at read second
    split at read
    · cases read
      rw [List.length_drop]
      omega
    · cases read

theorem read_element_end_length_le {reader after : Reader}
    (read : readElementEnd reader = .ok after) : after.rest.length ≤ reader.rest.length := by
  rw [readElementEnd] at read
  split at read
  · cases read
  · split at read
    · cases read
    · rename_i tagged
      cases read
      exact read_end_tag_length_le tagged

theorem read_char_data_length_le {reader after : Reader}
    (read : readCharData reader = .ok after) : after.rest.length ≤ reader.rest.length := by
  have first := drop_until_length_le (startsWith [60]) reader.rest
  rw [readCharData] at read
  split at read
  · cases read
  · rename_i found
    rw [found, List.length_cons] at first
    simp only at read
    split at read
    · have second := read_element_end_length_le read
      simp only [List.length_drop] at second
      omega
    · cases read

theorem comment_off_length_le {text rest : List Byte} (off : commentOff text = some rest) :
    rest.length ≤ text.length := by
  rw [commentOff] at off
  split at off
  · have shorter := drop_until_length_le isXmlCommentEnd (text.drop 4)
    rw [List.length_drop] at shorter
    split at off
    · cases off
    · rename_i found
      cases off
      rw [found] at shorter
      rw [List.length_drop]
      omega
  · cases off
    exact Nat.le_refl _

theorem starts_with_length {mark text : List Byte} (starts : startsWith mark text = true) :
    mark.length ≤ text.length :=
  (List.isPrefixOf_iff_prefix.mp starts).length_le

theorem finish_at_bottom_ends {reader after : Reader} :
    reader.finishAtBottom ≠ .ok (.again after) := by
  intro again
  rw [Reader.finishAtBottom] at again
  split at again <;> cases again

theorem finish_or_again_same {reader after : Reader}
    (again : reader.finishOrAgain = .again after) : after = reader := by
  rw [Reader.finishOrAgain] at again
  split at again
  · cases again
  · cases again
    rfl

theorem bind_ok {Value Result : Type} {value : Except Fault Value}
    {next : Value → Except Fault Result} {result : Result} :
    (value >>= next) = .ok result ↔ ∃ found, value = .ok found ∧ next found = .ok result := by
  cases value with
  | error fault =>
      constructor
      · intro run
        cases run
      · rintro ⟨found, run, _⟩
        cases run
  | ok found =>
      constructor
      · intro run
        exact ⟨found, rfl, run⟩
      · rintro ⟨other, same, run⟩
        cases same
        exact run

theorem read_closing_length_le {reader after : Reader}
    (pass : readClosing reader = .ok (.again after)) :
    after.rest.length ≤ reader.rest.length := by
  have first := spaces_off_length_le reader.rest
  rw [readClosing] at pass
  split at pass
  · exact absurd pass finish_at_bottom_ends
  · rename_i c text spaced
    rw [spaced] at first
    rcases bind_ok.mp pass with ⟨closed, read, again⟩
    have second := read_element_end_length_le read
    rw [finish_or_again_same (Except.ok.inj again)]
    exact Nat.le_trans second first

theorem read_content_length_le {reader after : Reader}
    (pass : readContent reader = .ok (.again after)) :
    after.rest.length ≤ reader.rest.length := by
  have first := spaces_off_length_le reader.rest
  rw [readContent] at pass
  split at pass
  · cases pass
  · rename_i c text spaced
    rw [spaced] at first
    split at pass
    · cases pass
      exact first
    · rcases bind_ok.mp pass with ⟨closed, read, again⟩
      have second := read_char_data_length_le read
      cases again
      exact Nat.le_trans second first

theorem read_opening_length_le {reader after : Reader}
    (pass : readOpening reader = .ok (.again after)) :
    after.rest.length ≤ reader.rest.length := by
  have first := spaces_off_length_le reader.rest
  rw [readOpening] at pass
  split at pass
  · exact absurd pass finish_at_bottom_ends
  · rename_i c text spaced
    rw [spaced] at first
    rcases bind_ok.mp pass with ⟨⟨opened, ret⟩, read, again⟩
    have second := read_element_start_length_le read
    cases ret with
    | eleeEnd =>
        rw [finish_or_again_same (Except.ok.inj again)]
        exact Nat.le_trans second first
    | elesEnd =>
        have third := read_content_length_le again
        exact Nat.le_trans third (Nat.le_trans second first)

theorem read_markup_shorter {reader after : Reader}
    (pass : readMarkup reader = .ok (.again after)) :
    after.rest.length < reader.rest.length := by
  have first := spaces_off_length_le reader.rest
  rw [readMarkup] at pass
  split at pass
  · exact absurd pass finish_at_bottom_ends
  · rename_i c text spaced
    rw [spaced] at first
    rw [List.length_cons] at first
    split at pass
    · have second := read_closing_length_le pass
      simp only [List.length_drop, List.length_cons] at second
      omega
    · split at pass
      · have second := read_opening_length_le pass
        simp only [List.length_drop, List.length_cons] at second
        omega
      · cases pass

/-- A pass that is not the last takes at least one byte off the text. -/
theorem read_pass_shorter {reader after : Reader} (pass : readPass reader = .ok (.again after)) :
    after.rest.length < reader.rest.length := by
  have first := spaces_off_length_le reader.rest
  rw [readPass] at pass
  split at pass
  · exact absurd pass finish_at_bottom_ends
  · rename_i c text spaced
    rw [spaced] at first
    split at pass
    · cases pass
    · rename_i text' off
      have second := comment_off_length_le off
      exact Nat.lt_of_lt_of_le (read_markup_shorter pass) (Nat.le_trans second first)

end Progress

def readElements (reader : Reader) : Except Fault Reader :=
  match _pass : readPass reader with
  | .error fault => .error fault
  | .ok (.finished reader) => .ok reader
  | .ok (.again reader) => readElements reader
termination_by reader.rest.length
decreasing_by exact read_pass_shorter _pass

section Loop

variable {reader : Reader}

theorem read_elements_error {fault : Fault} (pass : readPass reader = .error fault) :
    readElements reader = .error fault := by
  rw [readElements]
  split <;> simp_all

theorem read_elements_finished {after : Reader} (pass : readPass reader = .ok (.finished after)) :
    readElements reader = .ok after := by
  rw [readElements]
  split <;> simp_all

theorem read_elements_again {after : Reader} (pass : readPass reader = .ok (.again after)) :
    readElements reader = readElements after := by
  rw [readElements]
  split <;> simp_all

end Loop

section Document

def headerOff (text : List Byte) : Option (List Byte) :=
  match spacesOff text with
  | [] => none
  | c :: ahead =>
      if isXmlhStart (c :: ahead) then
        match dropUntil isXmlhEnd ((c :: ahead).drop 2) with
        | [] => none
        | d :: rest => some ((d :: rest).drop 2)
      else some text

def readDocument (xml : List Byte) : Except Fault (Option Xmln) :=
  match headerOff xml with
  | none => .ok none
  | some text =>
      match readElements ⟨text, [], []⟩ with
      | .ok reader => .ok (currentTree reader.nodes)
      | .error .failed => .ok none
      | .error .outOfBounds => .error .outOfBounds

end Document

end Gk7102.Xml
