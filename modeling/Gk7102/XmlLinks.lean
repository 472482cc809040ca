import Gk7102.RecordHeap
import Gk7102.XmlParse

/-!
# Linking and unlinking XML nodes

The edits of `xml.c` on the pointers of `XMLN`. An attribute is a node as well. `malloc` and
`strdup` succeed, and a node owns its texts. A pointer to a freed node is followed to no result.
-/

namespace Gk7102.XmlLinks

open Gk7102.ByteBlocks RecordHeap

set_option autoImplicit false

structure Xmln where
  name : List Byte
  data : Option (List Byte)
  parent : Option Nat
  fChild : Option Nat
  lChild : Option Nat
  prev : Option Nat
  next : Option Nat
  fAttrib : Option Nat
  lAttrib : Option Nat
deriving DecidableEq, Repr

/-- A node behind `memset`, with its texts. -/
def blank (name : List Byte) (data : Option (List Byte)) : Xmln where
  name := name
  data := data
  parent := none
  fChild := none
  lChild := none
  prev := none
  next := none
  fAttrib := none
  lAttrib := none

/-- The end of `xml_node_add_new` and of `xml_node_add`. -/
def addChild (heap : Heap Xmln) (parent newNode : Nat) : Option (Heap Xmln) := do
  let heap ← heap.modify newNode fun node => { node with parent := some parent }
  let above ← heap.cell parent
  if above.fChild = none then
    heap.modify parent fun node => { node with fChild := some newNode, lChild := some newNode }
  else
    let last ← above.lChild
    let heap ← heap.modify last fun node => { node with next := some newNode }
    let heap ← heap.modify newNode fun node => { node with prev := some last }
    heap.modify parent fun node => { node with lChild := some newNode }

def xmlNodeAddNew (allocator : Allocator Xmln) (heap : Heap Xmln) (parent : Option Nat)
    (nodeName : List Byte) : Option (Heap Xmln × Nat) := do
  let node := allocator.malloc heap
  let heap := heap.set node (some (blank nodeName none))
  match parent with
  | none => return (heap, node)
  | some parent => return (← addChild heap parent node, node)

def xmlNodeAdd (heap : Heap Xmln) (parent newNode : Option Nat) : Option (Heap Xmln) :=
  match parent, newNode with
  | some parent, some newNode => addChild heap parent newNode
  | _, _ => some heap

def freeAttribs : Nat → Heap Xmln → Option Nat → Option (Heap Xmln)
  | 0, _, _ => none
  | _ + 1, heap, none => some heap
  | fuel + 1, heap, some attr => do
      let node ← heap.cell attr
      let heap ← heap.free attr
      freeAttribs fuel heap node.next

/-- What `xml_node_del` does to the node above the one it removes. -/
def forget (rootNode : Nat) (node above : Xmln) : Xmln :=
  { above with
    fChild := if above.fChild = some rootNode then node.next else above.fChild
    lChild := if above.lChild = some rootNode then node.prev else above.lChild }

/-- The end of `xml_node_del`. -/
def unlinkNode (heap : Heap Xmln) (rootNode : Nat) : Option (Heap Xmln) := do
  let node ← heap.cell rootNode
  let heap ← heap.modifyAt node.prev fun before => { before with next := node.next }
  let heap ← heap.modifyAt node.next fun behind => { behind with prev := node.prev }
  let heap ← heap.modifyAt node.parent (forget rootNode node)
  heap.free rootNode

mutual

def delNode : Nat → Heap Xmln → Nat → Option (Heap Xmln)
  | 0, _, _ => none
  | fuel + 1, heap, rootNode => do
      let node ← heap.cell rootNode
      let heap ← freeAttribs fuel heap node.fAttrib
      let heap ← delChildren fuel heap node.fChild
      unlinkNode heap rootNode

/-- The loop over the children of `xml_node_del`. -/
def delChildren : Nat → Heap Xmln → Option Nat → Option (Heap Xmln)
  | 0, _, _ => none
  | _ + 1, heap, none => some heap
  | fuel + 1, heap, some child => do
      let node ← heap.cell child
      let heap ← delNode fuel heap child
      delChildren fuel heap node.next

end

/-- More than the nodes in use can take. -/
def enough (heap : Heap Xmln) : Nat := 2 * heap.top + 2

def xmlNodeDel (heap : Heap Xmln) (rootNode : Option Nat) : Option (Heap Xmln) :=
  match rootNode with
  | none => some heap
  | some rootNode => delNode (enough heap) heap rootNode

def xmlAttrAdd (allocator : Allocator Xmln) (heap : Heap Xmln) (node : Option Nat)
    (attrName attrData : List Byte) : Option (Heap Xmln × Option Nat) :=
  match node with
  | none => some (heap, none)
  | some node => do
      let attr := allocator.malloc heap
      let heap := heap.set attr (some (blank attrName (some attrData)))
      let above ← heap.cell node
      if above.fAttrib = none then
        let heap ← heap.modify node fun above =>
          { above with fAttrib := some attr, lAttrib := some attr }
        return (heap, some attr)
      else
        let last ← above.lAttrib
        let heap ← heap.modify attr fun node => { node with prev := some last }
        let heap ← heap.modify last fun node => { node with next := some attr }
        let heap ← heap.modify node fun above => { above with lAttrib := some attr }
        return (heap, some attr)

/-- The loop of `xml_attr_del`. -/
def delAttr : Nat → Heap Xmln → List Byte → Option Nat → Option (Heap Xmln)
  | 0, _, _, _ => none
  | _ + 1, heap, _, none => some heap
  | fuel + 1, heap, attrName, some attr => do
      let node ← heap.cell attr
      if Xml.strcasecmpEq node.name attrName then xmlNodeDel heap (some attr)
      else delAttr fuel heap attrName node.next

def xmlAttrDel (heap : Heap Xmln) (node : Option Nat) (attrName : List Byte) :
    Option (Heap Xmln) :=
  match node with
  | none => some heap
  | some node => do
      let above ← heap.cell node
      delAttr (enough heap) heap attrName above.fAttrib

end Gk7102.XmlLinks
