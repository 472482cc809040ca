import Gk7102.XmlLexing

/-!
# Passes and pieces

One pass of the reader is one piece of the text. So the states that the passes come to are
those that the pieces lead to, and a tree is made where they lead to the end of a root.
-/

namespace Gk7102.Xml

open Gk7102.ByteBlocks
open Gk7102.TextScan

set_option autoImplicit false

section Passes

variable {names : List (List Byte)} {nodes : List OpenNode}

end Passes

section Pieces

variable {names : List (List Byte)} {text : List Byte} {nodes : List OpenNode}

end Pieces

section Runs

variable {xml : List Byte}

def Reached (xml : List Byte) (met : Reader) : Prop :=
  ∃ text, headerOff xml = some text ∧ Relation.ReflTransGen Passed ⟨text, [], []⟩ met

end Runs

end Gk7102.Xml
