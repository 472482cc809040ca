import Gk7102.TextScan
import Gk7102.XmlParse

/-!
# Documents as bytes

What a document is, without a parser: which bytes stand in front of which. Names,
attributes and values are as free as the source has them; the nesting, the comments and
the limits are not. A comment stands wherever a tag could, and as many as there are.

Beside it, what the source makes of the bytes. It passes over one comment between two
tags, so that another one behind it is read as a start tag.
-/

namespace Gk7102.Xml

open Gk7102.ByteBlocks
open Gk7102.TextScan

set_option autoImplicit false

section Tokens

def spaceMarks : List (List Byte) := [[32], [9], [13], [10]]

def tagEndText : TagEnd → List Byte
  | .elesEnd => [62]
  | .eleeEnd => [47, 62]

def tagEndMarks : List (List Byte) := [tagEndText .elesEnd, tagEndText .eleeEnd]

/-- `<!--` -/
def commentMark : List Byte := [60, 33, 45, 45]

/-- `-->` -/
def commentEndMark : List Byte := [45, 45, 62]

def Spaces (text rest : List Byte) : Prop :=
  ∃ space, text = space ++ rest ∧ (∀ c ∈ space, isWhiteSpace c = true) ∧
    ∀ c ∈ rest.head?, isWhiteSpace c = false

/-- A comment ends with the first `-->` in it. -/
def Comment (text rest : List Byte) : Prop :=
  ∃ body, text = commentMark ++ (body ++ (commentEndMark ++ rest)) ∧
    CutAt [commentEndMark] body (commentEndMark ++ rest)

/-- White space and a name up to one of the marks; as a C string it ends with a NUL. -/
def Named (marks : List (List Byte)) (text name behind : List Byte) : Prop :=
  ∃ written, Spaces text (written ++ behind) ∧ CutAt marks written behind ∧
    name = cString written

def nameMarks : List (List Byte) := spaceMarks ++ tagEndMarks
def attrNameMarks : List (List Byte) := [61] :: tagEndMarks
def endNameMarks : List (List Byte) := spaceMarks ++ [[62]]

/-- The value of an attribute, in quotes or up to white space or the end of the tag. -/
inductive Value : List Byte → List Byte → Prop where
  | quoted {value rest : List Byte} (closed : CutAt [[34]] value (34 :: rest)) :
      Value (34 :: (value ++ 34 :: rest)) rest
  | plain {value rest : List Byte} (unquoted : ¬[34] <+: value ++ rest)
      (ends : CutAt nameMarks value rest) : Value (value ++ rest) rest

/-- An equals sign comes before the end of the tag. -/
def Attribute (text rest : List Byte) : Prop :=
  ∃ name value, text = name ++ 61 :: value ∧ CutAt attrNameMarks name (61 :: value) ∧
    Value value rest

inductive Attributes : Nat → List Byte → List Byte → Prop where
  | none {text : List Byte} : Attributes 0 text text
  | more {count : Nat} {text behind rest : List Byte} (first : Attribute text behind)
      (later : Attributes count behind rest) : Attributes (count + 1) text rest

/-- The end of the tag comes before an equals sign. -/
def TagClose (text : List Byte) (ret : TagEnd) (rest : List Byte) : Prop :=
  ∃ other, text = other ++ (tagEndText ret ++ rest) ∧
    CutAt attrNameMarks other (tagEndText ret ++ rest)

/-- From behind the `<` to behind the `>`. -/
def StartTag (tag name : List Byte) (count : Nat) (ret : TagEnd) (rest : List Byte) : Prop :=
  ¬[47] <+: tag ∧ ∃ behind ending, Named nameMarks tag name behind ∧
    Attributes count behind ending ∧ TagClose ending ret rest

/-- From behind the `</` to behind the `>`. Names are the same whatever the case of their
letters, as the source compares them. -/
def EndTag (name tag rest : List Byte) : Prop :=
  ∃ endName behind, Named endNameMarks tag endName behind ∧ Spaces behind (62 :: rest) ∧
    strcasecmpEq endName name = true

/-- The limits of the two arrays: the document is an element of depth 1, and a NULL stands
behind the last attribute. -/
def WithinLimits (depth count : Nat) : Prop := depth < maxStackDepth ∧ 2 * count < maxAttrNum

/-- `<? ... ?>`, if there is one. -/
inductive Header : List Byte → List Byte → Prop where
  | absent {xml inner : List Byte} (space : Spaces xml inner) (more : inner ≠ [])
      (none : ¬[60, 63] <+: inner) : Header xml xml
  | present {xml body text : List Byte}
      (space : Spaces xml ([60, 63] ++ (body ++ ([63, 62] ++ text))))
      (closed : CutAt [[63, 62]] body ([63, 62] ++ text)) : Header xml text

end Tokens

section Documents

/-- White space and comments, up to what is neither. -/
inductive Gap : List Byte → List Byte → Prop where
  | spaces {text rest : List Byte} (only : Spaces text rest) (noComment : ¬commentMark <+: rest) :
      Gap text rest
  | comment {text inner behind rest : List Byte} (space : Spaces text inner)
      (comment : Comment inner behind) (more : Gap behind rest) : Gap text rest

mutual

/-- An element of this depth from behind its first `<` up to what follows it. -/
inductive Element : Nat → List Byte → List Byte → Prop where
  | empty {depth count : Nat} {tag name rest : List Byte}
      (start : StartTag tag name count .eleeEnd rest) (limits : WithinLimits depth count) :
      Element depth tag rest
  | parent {depth count : Nat} {tag name inside rest : List Byte}
      (start : StartTag tag name count .elesEnd inside) (limits : WithinLimits depth count)
      (content : Content depth name inside rest) : Element depth tag rest

/-- What is inside an element of this depth and name, and its end tag. -/
inductive Content : Nat → List Byte → List Byte → List Byte → Prop where
  | endTag {depth : Nat} {name text tag rest : List Byte} (gap : Gap text (60 :: 47 :: tag))
      (ended : EndTag name tag rest) : Content depth name text rest
  | child {depth : Nat} {name text tag behind rest : List Byte} (gap : Gap text (60 :: tag))
      (child : Element (depth + 1) tag behind) (later : Content depth name behind rest) :
      Content depth name text rest
  | text {depth : Nat} {name data behind rest : List Byte} (any : data ≠ [])
      (cut : CutAt [[60]] data behind) (later : Content depth name behind rest) :
      Content depth name (data ++ behind) rest

end

/-- A text that begins with a document: a header perhaps, and the root element. -/
def WellFormed (xml : List Byte) : Prop :=
  ∃ text tag rest, Header xml text ∧ Gap text (60 :: tag) ∧ Element 1 tag rest

end Documents

section Source

/-- What the source passes over in front of a tag: one comment, and then it looks at the
`<` alone. -/
inductive OneGap : List Byte → List Byte → Prop where
  | spaces {text rest : List Byte} (only : Spaces text rest) (noComment : ¬commentMark <+: rest) :
      OneGap text rest
  | comment {text inner behind rest : List Byte} (space : Spaces text inner)
      (comment : Comment inner behind) (more : Spaces behind rest) : OneGap text rest

def TextEnd (name inside rest : List Byte) : Prop :=
  ∃ data tag, Spaces inside (data ++ 60 :: 47 :: tag) ∧ data ≠ [] ∧
    CutAt [[60]] data (60 :: 47 :: tag) ∧ EndTag name tag rest

/-- One piece of a text, with the names of the open elements from the inside out. Behind a
root that has text the source goes on. -/
inductive Goes : List (List Byte) → List Byte → List (List Byte) → List Byte → Prop where
  | endTag {name text tag rest : List Byte} {outer : List (List Byte)}
      (gap : OneGap text (60 :: 47 :: tag)) (ended : EndTag name tag rest) (inside : outer ≠ []) :
      Goes (name :: outer) text outer rest
  | empty {names : List (List Byte)} {count : Nat} {text tag name rest : List Byte}
      (gap : OneGap text (60 :: tag)) (start : StartTag tag name count .eleeEnd rest)
      (inside : names ≠ []) : Goes names text names rest
  | text {names : List (List Byte)} {count : Nat} {text tag name inside rest : List Byte}
      (gap : OneGap text (60 :: tag)) (start : StartTag tag name count .elesEnd inside)
      (ended : TextEnd name inside rest) : Goes names text names rest
  | parent {names : List (List Byte)} {count : Nat} {text tag name inside rest : List Byte}
      (gap : OneGap text (60 :: tag)) (start : StartTag tag name count .elesEnd inside)
      (more : Spaces inside (60 :: rest)) : Goes names text (name :: names) (60 :: rest)

end Source

end Gk7102.Xml
