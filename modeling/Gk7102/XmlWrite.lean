import Gk7102.XmlParse

/-!
# Writing a tree

`xml_write_buf` into memory, and `xml_file_save` with `xml_file_parse` on a file. The two
writers share no code. A function that the source calls on each child in a loop is
written here over the chain of siblings, which is what hangs at `f_child`.
-/

namespace Gk7102.Xml

open Gk7102.ByteBlocks

set_option autoImplicit false

section Buffer

/-- The loop over `f_attrib` with what follows it. An entry that holds the text of the
element ends the element. -/
def writeBufAttribs (name behind : List Byte) : List Attrib → List Byte
  | [] => behind
  | ⟨.attrib, attrName, attrData⟩ :: others =>
      [32] ++ attrName ++ [61, 34] ++ attrData ++ [34] ++ writeBufAttribs name behind others
  | ⟨.cdata, _, text⟩ :: _ => [62] ++ text ++ [60, 47] ++ name ++ [62]
  | ⟨.tag, _, _⟩ :: others => writeBufAttribs name behind others

def writeBufNodes : Xmln → List Byte
  | .null => []
  | .node name attribs _ fChild next =>
      [60] ++ name ++ writeBufAttribs name
        (if fChild = .null then [47, 62]
          else [62] ++ writeBufNodes fChild ++ [60, 47] ++ name ++ [62]) attribs ++
        writeBufNodes next

/-- `xml_write_buf` reads the name of its node unchecked; the siblings are not written. -/
def xmlWriteBuf : Xmln → Option (List Byte)
  | .null => none
  | .node name attribs data fChild _ =>
      some (writeBufNodes (.node name attribs data fChild .null))

end Buffer

section File

/-- `name[0] == '!' || name[0] == '?'`: a header or a comment, which has no end tag. -/
def isHeaderName (name : List Byte) : Bool := startsWith [33] name || startsWith [63] name

def fileWriteAttribs (attribs : List Attrib) : List Byte :=
  attribs.flatMap fun attr => [32] ++ attr.name ++ [61, 34] ++ attr.data ++ [34]

def attribsCol (attribs : List Attrib) (col : Nat) : Nat :=
  attribs.foldl (fun col attr => col + 1 + (attr.name.length + (attr.data.length + 3))) col

/-- What stands behind the start tag: the children, or the data. A childless node that
has no data is read through a NULL pointer. -/
def fileWriteInner (name : List Byte) (data : Option (List Byte)) (fChild : Xmln)
    (children : Nat → Option (List Byte × Nat)) (col : Nat) : Option (List Byte × Nat) :=
  if fChild = .null then
    if isHeaderName name then some ([], col)
    else data.map fun text => (text, col + text.length)
  else children col

/-- The end tag, and the column behind it. -/
def fileWriteClosing (name : List Byte) (col : Nat) : List Byte × Nat :=
  if isHeaderName name then ([], col) else ([60, 47] ++ name ++ [62], col + (name.length + 3))

/-- What `file_write_node` puts for each of the nodes in turn without a callback, and
the column it returns. Both of its loops over the name put the same characters. -/
def fileWriteNodes : Xmln → Nat → Option (List Byte × Nat)
  | .null, col => some ([], col)
  | .node name attribs data fChild next, col =>
      match fileWriteInner name data fChild (fun col => fileWriteNodes fChild col)
          (attribsCol attribs (col + name.length + 1) + 1) with
      | none => none
      | some (inner, col) =>
          let (closing, col) := fileWriteClosing name col
          match fileWriteNodes next col with
          | none => none
          | some (behind, col) =>
              some ([60] ++ name ++ fileWriteAttribs attribs ++ [62] ++ inner ++ closing ++
                behind, col)

/-- The content of the file, which was empty. -/
def xmlFileSave : Xmln → Option (List Byte)
  | .null => none
  | .node name attribs data fChild _ => do
      let (text, col) ← fileWriteNodes (.node name attribs data fChild .null) 0
      some (if 0 < col then text ++ [10] else text)

/-- The last byte of the file gives way to the NUL, and `strlen` tells the size. An
empty file has no last byte. -/
def xmlFileParse (file : List Byte) : Except Fault (Option Xmln) :=
  if file = [] then .error .outOfBounds
  else xmlStreamParse (cString (file.take (file.length - 1)))

end File

end Gk7102.Xml
