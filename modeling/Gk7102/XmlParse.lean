import Gk7102.TextScan
import Gk7102.XmlTree

/-!
# The stream parser

`xml_stream_parse` on a buffer of any bytes. The parser moves one pointer through
the buffer, ends names and values with a NUL written over the byte behind them, and
keeps pointers into the buffer in `e_stack` and `attr`. Each check of the source
stands where the source has it, and nowhere else: a pointer that moves past
`xmlend`, and an index at or beyond the end of an array, are out of bounds. At
`xmlend` itself stands the NUL that ends the buffer, which meets no condition.
-/

namespace Gk7102.Xml

open Gk7102.ByteBlocks
open Gk7102.TextScan

set_option autoImplicit false

def maxStackDepth : Nat := 1024
def maxAttrNum : Nat := 128

/-- `return -1`, or a step the C program must not make. -/
inductive Fault where
  | failed
  | outOfBounds
deriving DecidableEq, Repr

section Characters

def isWhiteSpace (c : Byte) : Bool := c == 32 || c == 9 || c == 13 || c == 10

def startsWith (mark text : List Byte) : Bool := mark.isPrefixOf text

def atSpace : List Byte → Bool
  | [] => false
  | c :: _ => isWhiteSpace c

def isXmlhStart : List Byte → Bool := startsWith [60, 63]
def isXmlhEnd : List Byte → Bool := startsWith [63, 62]
def isXmlCommentStart : List Byte → Bool := startsWith [60, 33, 45, 45]
def isXmlCommentEnd : List Byte → Bool := startsWith [45, 45, 62]

/-- `>` or `/>`. -/
def isElemsEnd (text : List Byte) : Bool := startsWith [62] text || startsWith [47, 62] text

end Characters

/-- `LTXMLPRS`, with the open nodes that `userdata` leads to. -/
structure Parser where
  buffer : List Byte
  ptr : Nat
  eStack : Nat → Option Nat
  eStackIndex : Nat
  attr : Nat → Option Nat
  nodes : List OpenNode

namespace Parser

/-- What stands from `ptr` up to `xmlend`. -/
def here (parse : Parser) : List Byte := parse.buffer.drop parse.ptr

def atEnd (parse : Parser) : Bool := parse.ptr == parse.buffer.length

/-- `while (!stop && ptr != xmlend) ptr++;` -/
def skipUntil (parse : Parser) (stop : List Byte → Bool) : Except Fault Parser :=
  match scanLoop stop parse.buffer (parse.buffer.length + 1) parse.ptr with
  | none => .error .outOfBounds
  | some ptr => .ok { parse with ptr := ptr }

def skipSpaces (parse : Parser) : Except Fault Parser :=
  parse.skipUntil fun text => !atSpace text

def advance (parse : Parser) (count : Nat) : Except Fault Parser :=
  if parse.ptr + count ≤ parse.buffer.length then .ok { parse with ptr := parse.ptr + count }
  else .error .outOfBounds

/-- `*ptr = '\0';` -/
def terminate (parse : Parser) : Parser :=
  { parse with buffer := parse.buffer.set parse.ptr 0 }

/-- `if (ptr == xmlend) return -1;` -/
def failAtEnd (parse : Parser) : Except Fault Unit :=
  if parse.atEnd then .error .failed else .ok ()

/-- The C string a pointer into the buffer leads to. -/
def stringAt (parse : Parser) (pointer : Nat) : List Byte := cString (parse.buffer.drop pointer)

def pushName (parse : Parser) (name : Nat) : Except Fault Parser :=
  if parse.eStackIndex + 1 < maxStackDepth then .ok { parse with
      eStackIndex := parse.eStackIndex + 1,
      eStack := Function.update parse.eStack (parse.eStackIndex + 1) (some name) }
  else .error .outOfBounds

/-- `e_stack[e_stack_index] = NULL; e_stack_index--; CHECK_XML_STACK_RET;` -/
def popName (parse : Parser) : Except Fault Parser :=
  let eStack := Function.update parse.eStack parse.eStackIndex none
  if parse.eStackIndex = 0 ∨ maxStackDepth ≤ parse.eStackIndex - 1 then .error .failed
  else .ok { parse with eStack := eStack, eStackIndex := parse.eStackIndex - 1 }

def putAttr (parse : Parser) (index : Nat) (pointer : Nat) : Except Fault Parser :=
  if index < maxAttrNum then
    .ok { parse with attr := Function.update parse.attr index (some pointer) }
  else .error .outOfBounds

def endElement (parse : Parser) : Parser :=
  { parse with nodes := streamEndElement parse.nodes }

def charData (parse : Parser) (text : List Byte) : Parser :=
  { parse with nodes := streamCharData text parse.nodes }

end Parser

section Callbacks

/-- `while (attrs[i] != NULL)`, in steps of two. -/
def attrsLoop (parse : Parser) : Nat → Nat → List OpenNode → Except Fault (List OpenNode)
  | 0, _, _ => .error .outOfBounds
  | rounds + 1, i, nodes =>
      if maxAttrNum ≤ i then .error .outOfBounds
      else match parse.attr i with
        | none => .ok nodes
        | some name =>
            if maxAttrNum ≤ i + 1 then .error .outOfBounds
            else match parse.attr (i + 1) with
              | none => .ok nodes
              | some value => attrsLoop parse rounds (i + 2)
                  (xmlAttrAdd nodes (parse.stringAt name) (parse.stringAt value))

def streamStartElement (parse : Parser) (nodeName : Nat) : Except Fault Parser := do
  let nodes ← attrsLoop parse (maxAttrNum + 1) 0
    (xmlNodeAddNew parse.nodes (parse.stringAt nodeName))
  .ok { parse with nodes := nodes }

end Callbacks

/-- `RF_ELES_END` and `RF_ELEE_END`. -/
inductive TagEnd where
  | elesEnd
  | eleeEnd
deriving DecidableEq, Repr

/-- `>` or `/>`, cut off and stepped over; anything else is left. -/
def closeTag (parse : Parser) : Except Fault (Parser × Option TagEnd) :=
  if startsWith [62] parse.here then do
    let parse ← parse.terminate.advance 1
    .ok (parse, some .elesEnd)
  else if startsWith [47, 62] parse.here then do
    let parse ← parse.terminate.advance 2
    .ok (parse, some .eleeEnd)
  else .ok (parse, none)

/-- An attribute value, quoted or not, and the end of the tag when the value runs into it. -/
def attrValue (parse : Parser) : Except Fault (Parser × Nat × Option TagEnd) :=
  if startsWith [34] parse.here then do
    let parse ← parse.advance 1
    let value := parse.ptr
    let parse ← parse.skipUntil (startsWith [34])
    parse.failAtEnd
    let parse ← parse.terminate.advance 1
    .ok (parse, value, none)
  else do
    let value := parse.ptr
    let parse ← parse.skipUntil fun text => atSpace text || isElemsEnd text
    parse.failAtEnd
    if atSpace parse.here then do
      let parse ← parse.terminate.advance 1
      .ok (parse, value, none)
    else do
      let (parse, ret) ← closeTag parse
      .ok (parse, value, ret)

inductive AttrFound where
  | closed (ret : TagEnd)
  | attr (name value : Nat) (ret : Option TagEnd)
deriving DecidableEq, Repr

/-- One round of the loop up to the entry in `attr`. The source works on a copy of `ptr`
that it writes back when the tag is closed. -/
def parseAttrRound (parse : Parser) : Except Fault (Parser × AttrFound) := do
  let parse ← parse.skipSpaces
  parse.failAtEnd
  match ← closeTag parse with
  | (parse, some ret) => .ok (parse, .closed ret)
  | (parse, none) => do
      let attrName := parse.ptr
      let parse ← parse.skipUntil fun text => startsWith [61] text || isElemsEnd text
      parse.failAtEnd
      match ← closeTag parse with
      | (parse, some ret) => .ok (parse, .closed ret)
      | (parse, none) => do
          let parse ← parse.terminate.advance 1
          let (parse, value, ret) ← attrValue parse
          .ok (parse, .attr attrName value ret)

def streamParseAttr : Nat → Nat → Parser → Except Fault (Parser × TagEnd)
  | 0, _, _ => .error .outOfBounds
  | rounds + 1, cnt, parse => do
      match ← parseAttrRound parse with
      | (parse, .closed ret) => .ok (parse, ret)
      | (parse, .attr name value ret) => do
          let parse ← parse.putAttr (2 * cnt) name
          let parse ← parse.putAttr (2 * cnt + 1) value
          match ret with
          | some ret => .ok (parse, ret)
          | none => streamParseAttr rounds (cnt + 1) parse

def startTagRest (elementName : Nat) (parse : Parser) : Except Fault (Parser × TagEnd) := do
  match ← closeTag parse with
  | (parse, some .elesEnd) => do
      let parse ← streamStartElement parse elementName
      .ok (parse, .elesEnd)
  | (parse, some .eleeEnd) => do
      let parse ← streamStartElement parse elementName
      let parse ← parse.endElement.popName
      .ok (parse, .eleeEnd)
  | (parse, none) => do
      let parse ← parse.terminate.advance 1
      let (parse, ret) ← streamParseAttr (parse.buffer.length + 1) 0 parse
      let parse ← streamStartElement parse elementName
      let parse := { parse with attr := fun _ => none }
      match ret with
      | .elesEnd => .ok (parse, .elesEnd)
      | .eleeEnd => do
          let parse ← parse.endElement.popName
          .ok (parse, .eleeEnd)

/-- White space, then a name up to the stop; both must end before `xmlend`. -/
def Parser.scanName (parse : Parser) (stop : List Byte → Bool) : Except Fault (Parser × Nat) := do
  let parse ← parse.skipSpaces
  parse.failAtEnd
  let name := parse.ptr
  let parse ← parse.skipUntil stop
  parse.failAtEnd
  .ok (parse, name)

def streamParseElementStart (parse : Parser) : Except Fault (Parser × TagEnd) := do
  let (parse, elementName) ← parse.scanName fun text => atSpace text || isElemsEnd text
  let parse ← parse.pushName elementName
  startTagRest elementName parse

/-- `tolower` in the C locale. -/
def toLower (c : Byte) : Byte := if 65 ≤ c ∧ c ≤ 90 then c + 32 else c

/-- `strcasecmp(...) == 0` -/
def strcasecmpEq (one other : List Byte) : Bool := one.map toLower == other.map toLower

def endTagRest (endName stackName : Nat) (parse : Parser) : Except Fault Parser :=
  if startsWith [62] parse.here then do
    let parse ← parse.terminate.advance 1
    if strcasecmpEq (parse.stringAt endName) (parse.stringAt stackName) then
      parse.endElement.popName
    else .error .failed
  else .error .failed

def streamParseElementEnd (parse : Parser) : Except Fault Parser := do
  match parse.eStack parse.eStackIndex with
  | none => .error .failed
  | some stackName => do
      let (parse, endName) ← parse.scanName fun text => atSpace text || startsWith [62] text
      if atSpace parse.here then do
        let parse ← parse.terminate.advance 1
        let parse ← parse.skipSpaces
        parse.failAtEnd
        endTagRest endName stackName parse
      else endTagRest endName stackName parse

/-- How one pass through the loop of `stream_parse_element` ends. -/
inductive Pass where
  | again (parse : Parser)
  | finished (parse : Parser)

/-- `if (e_stack_index == 0) return 0;`, else `return -1` or go on. -/
def finishAtBottom (parse : Parser) : Except Fault Pass :=
  if parse.eStackIndex = 0 then .ok (.finished parse) else .error .failed

def finishOrAgain (parse : Parser) : Pass :=
  if parse.eStackIndex = 0 then .finished parse else .again parse

/-- The search for `-->` does not look for `xmlend`. -/
def commentLoop (buffer : List Byte) : Nat → Nat → Option Nat
  | 0, _ => none
  | rounds + 1, ptr =>
      if isXmlCommentEnd (buffer.drop ptr) then some ptr
      else if ptr = buffer.length then none
      else commentLoop buffer rounds (ptr + 1)

def skipComment (parse : Parser) : Except Fault Parser :=
  if isXmlCommentStart parse.here then do
    let parse ← parse.advance 4
    match commentLoop parse.buffer (parse.buffer.length + 1) parse.ptr with
    | none => .error .outOfBounds
    | some ptr => ({ parse with ptr := ptr } : Parser).advance 3
  else .ok parse

def parseCharData (parse : Parser) : Except Fault Parser := do
  let cdataPtr := parse.ptr
  let parse ← parse.skipUntil (startsWith [60])
  parse.failAtEnd
  let parse ← parse.terminate.advance 1
  let parse := parse.charData (parse.stringAt cdataPtr)
  if startsWith [47] parse.here then do
    let parse ← parse.advance 1
    streamParseElementEnd parse
  else .error .failed

/-- Behind `</`: `CUR_PARSE_END`. -/
def parseClosing (parse : Parser) : Except Fault Pass := do
  let parse ← parse.skipSpaces
  if parse.atEnd then finishAtBottom parse
  else do
    let parse ← streamParseElementEnd parse
    .ok (finishOrAgain parse)

/-- Behind the start tag of an element that is not empty. -/
def parseContent (parse : Parser) : Except Fault Pass := do
  let parse ← parse.skipSpaces
  parse.failAtEnd
  if startsWith [60] parse.here then .ok (.again parse)
  else do
    let parse ← parseCharData parse
    .ok (.again parse)

/-- Behind `<`: `CUR_PARSE_START`. -/
def parseOpening (parse : Parser) : Except Fault Pass := do
  let parse ← parse.skipSpaces
  if parse.atEnd then finishAtBottom parse
  else do
    match ← streamParseElementStart parse with
    | (parse, .eleeEnd) => .ok (finishOrAgain parse)
    | (parse, .elesEnd) => parseContent parse

/-- From the start of the loop, or the label `xml_parse_type`, to the next jump there. -/
def streamParsePass (parse : Parser) : Except Fault Pass := do
  let parse ← parse.skipSpaces
  if parse.atEnd then finishAtBottom parse
  else do
    let parse ← skipComment parse
    let parse ← parse.skipSpaces
    if parse.atEnd then finishAtBottom parse
    else if startsWith [60, 47] parse.here then do
      let parse ← parse.advance 2
      parseClosing parse
    else if startsWith [60] parse.here then do
      let parse ← parse.advance 1
      parseOpening parse
    else .error .failed

def streamParseElement : Nat → Parser → Except Fault Parser
  | 0, _ => .error .outOfBounds
  | rounds + 1, parse => do
      match ← streamParsePass parse with
      | .finished parse => .ok parse
      | .again parse => streamParseElement rounds parse

def streamParseHeader (parse : Parser) : Except Fault Parser := do
  let parse ← parse.skipSpaces
  parse.failAtEnd
  if isXmlhStart parse.here then do
    let parse ← parse.advance 2
    let parse ← parse.skipUntil isXmlhEnd
    parse.failAtEnd
    parse.advance 2
  else .error .failed

def streamParse (parse : Parser) : Except Fault Parser := do
  let ahead ← parse.skipSpaces
  ahead.failAtEnd
  let parse ← if isXmlhStart ahead.here then streamParseHeader parse else .ok parse
  streamParseElement (parse.buffer.length + 1) parse

def newParser (xml : List Byte) : Parser := ⟨xml, 0, fun _ => none, 0, fun _ => none, []⟩

/-- The tree, or NULL when the parser returned -1. -/
def xmlStreamParse (xml : List Byte) : Except Fault (Option Xmln) :=
  match streamParse (newParser xml) with
  | .ok parse => .ok (currentTree parse.nodes)
  | .error .failed => .ok none
  | .error .outOfBounds => .error .outOfBounds

end Gk7102.Xml
