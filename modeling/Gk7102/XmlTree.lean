import Gk7102.ByteBlocks

/-!
# The XML tree

`XMLN` as the tree its `f_child` and `next` pointers span, and the tree under
construction: `*pp_node` with its ancestors. The parser moves down with every start
of an element and up with every end, but never above the root.
-/

namespace Gk7102.Xml

open Gk7102.ByteBlocks

set_option autoImplicit false

inductive NType where
  | tag
  | attrib
  | cdata
deriving DecidableEq, Repr

/-- An entry of the `f_attrib` chain. -/
structure Attrib where
  type : NType
  name : List Byte
  data : List Byte
deriving DecidableEq, Repr

/-- A node with what hangs at its `f_child` and `next` pointers. -/
inductive Xmln where
  | null
  | node (name : List Byte) (attribs : List Attrib) (data : Option (List Byte))
      (fChild next : Xmln)
deriving DecidableEq, Repr

/-- Hangs a node behind the last sibling. -/
def Xmln.append : Xmln → Xmln → Xmln
  | .null, new => new
  | .node name attribs data fChild next, new =>
      .node name attribs data fChild (next.append new)

theorem Xmln.append_null (nodes : Xmln) : nodes.append .null = nodes := by
  induction nodes with
  | null => rfl
  | node name attribs data fChild next _ ih => rw [append, ih]

theorem Xmln.append_assoc (front middle back : Xmln) :
    (front.append middle).append back = front.append (middle.append back) := by
  induction front with
  | null => rfl
  | node name attribs data fChild next _ ih => rw [append, append, append, ih]

/-- A node whose end has not been met; its finished children hang in `children`. -/
structure OpenNode where
  name : List Byte
  attribs : List Attrib
  data : Option (List Byte)
  children : Xmln
deriving DecidableEq, Repr

def OpenNode.sealed (node : OpenNode) : Xmln :=
  .node node.name node.attribs node.data node.children .null

def OpenNode.addChild (node : OpenNode) (child : Xmln) : OpenNode :=
  { node with children := node.children.append child }

def xmlNodeAddNew (nodes : List OpenNode) (nodeName : List Byte) : List OpenNode :=
  ⟨nodeName, [], none, .null⟩ :: nodes

def xmlAttrAdd (nodes : List OpenNode) (attrName attrData : List Byte) : List OpenNode :=
  match nodes with
  | [] => []
  | node :: above =>
      { node with attribs := node.attribs ++ [⟨.attrib, attrName, attrData⟩] } :: above

def streamEndElement : List OpenNode → List OpenNode
  | [] => []
  | [root] => [root]
  | node :: parent :: above => parent.addChild node.sealed :: above

def streamCharData (text : List Byte) : List OpenNode → List OpenNode
  | [] => []
  | node :: above => { node with data := some text } :: above

/-- `p_root`: what the current node is the root of. -/
def currentTree : List OpenNode → Option Xmln
  | [] => none
  | node :: _ => some node.sealed

section Building

/-- Holds of the name, the attributes, the data and the children of each node. -/
def Xmln.Every (holds : List Byte → List Attrib → Option (List Byte) → Xmln → Prop) :
    Xmln → Prop
  | .null => True
  | .node name attribs data fChild next =>
      holds name attribs data fChild ∧ fChild.Every holds ∧ next.Every holds

def Xmln.IsRoot : Xmln → Prop
  | .node _ _ _ _ .null => True
  | _ => False

inductive Turn where
  | fChild
  | next
deriving DecidableEq, Repr

/-- An edit of the node that a path of pointers leads to. -/
def Xmln.editAt (edit : Xmln → Xmln) : List Turn → Xmln → Xmln
  | [], nodes => edit nodes
  | _ :: _, .null => .null
  | .fChild :: path, .node name attribs data fChild next =>
      .node name attribs data (fChild.editAt edit path) next
  | .next :: path, .node name attribs data fChild next =>
      .node name attribs data fChild (next.editAt edit path)

/-- The calls that add to a tree, each on one of its nodes. -/
inductive TreeCall where
  | xmlNodeAddNew (nodeName : List Byte)
  | xmlAttrAdd (attrName attrData : List Byte)
  | xmlNodeSetData (data : List Byte)
deriving DecidableEq, Repr

def TreeCall.on : TreeCall → Xmln → Xmln
  | _, .null => .null
  | .xmlNodeAddNew nodeName, .node name attribs data fChild next =>
      .node name attribs data (fChild.append (.node nodeName [] none .null .null)) next
  | .xmlAttrAdd attrName attrData, .node name attribs data fChild next =>
      .node name (attribs ++ [⟨.attrib, attrName, attrData⟩]) data fChild next
  | .xmlNodeSetData text, .node name attribs _ fChild next =>
      .node name attribs (some text) fChild next

/-- What these calls build from one new node. -/
inductive Built : Xmln → Prop where
  | root (nodeName : List Byte) : Built (.node nodeName [] none .null .null)
  | call {tree : Xmln} (before : Built tree) (path : List Turn) (call : TreeCall) :
      Built (tree.editAt call.on path)

def Xmln.OnlyAttributes : Xmln → Prop :=
  Xmln.Every fun _ attribs _ _ => ∀ entry ∈ attribs, entry.type = .attrib

theorem every_imp {holds holds' : List Byte → List Attrib → Option (List Byte) → Xmln → Prop}
    {nodes : Xmln} (every : nodes.Every holds)
    (imp : ∀ name attribs data fChild, holds name attribs data fChild →
      holds' name attribs data fChild) : nodes.Every holds' := by
  induction nodes with
  | null => trivial
  | node name attribs data fChild next below behind =>
      rcases every with ⟨own, everyBelow, everyBehind⟩
      exact ⟨imp _ _ _ _ own, below everyBelow, behind everyBehind⟩

theorem every_append {holds : List Byte → List Attrib → Option (List Byte) → Xmln → Prop}
    {front back : Xmln} (inFront : front.Every holds) (inBack : back.Every holds) :
    (front.append back).Every holds := by
  induction front with
  | null => exact inBack
  | node name attribs data fChild next _ ih =>
      rcases inFront with ⟨own, below, behind⟩
      exact ⟨own, below, ih behind⟩

theorem only_attributes_call {nodes : Xmln} (call : TreeCall) (before : nodes.OnlyAttributes) :
    (call.on nodes).OnlyAttributes := by
  cases nodes with
  | null => cases call <;> exact before
  | node name attribs data fChild next =>
      rcases before with ⟨own, below, behind⟩
      cases call with
      | xmlNodeAddNew nodeName =>
          have noEntry : (Xmln.node nodeName [] none .null .null).OnlyAttributes :=
            ⟨fun _ member => absurd member List.not_mem_nil, trivial, trivial⟩
          exact ⟨own, every_append below noEntry, behind⟩
      | xmlAttrAdd attrName attrData =>
          have every : ∀ entry ∈ attribs ++ [⟨.attrib, attrName, attrData⟩],
              entry.type = .attrib := by
            intro entry member
            rcases List.mem_append.mp member with old | new
            · exact own entry old
            · rw [List.mem_singleton.mp new]
          exact ⟨every, below, behind⟩
      | xmlNodeSetData text => exact ⟨own, below, behind⟩

theorem only_attributes_edit {nodes : Xmln} (call : TreeCall) (path : List Turn)
    (before : nodes.OnlyAttributes) : (nodes.editAt call.on path).OnlyAttributes := by
  induction path generalizing nodes with
  | nil => exact only_attributes_call call before
  | cons turn path ih =>
      cases nodes with
      | null => exact before
      | node name attribs data fChild next =>
          rcases before with ⟨own, below, behind⟩
          cases turn with
          | fChild => exact ⟨own, ih below, behind⟩
          | next => exact ⟨own, below, ih behind⟩

theorem built_only_attributes {tree : Xmln} (built : Built tree) : tree.OnlyAttributes := by
  induction built with
  | root nodeName => exact ⟨fun _ member => absurd member List.not_mem_nil, trivial, trivial⟩
  | call before path call ih => exact only_attributes_edit call path ih

theorem is_root_node {tree : Xmln} (root : tree.IsRoot) :
    ∃ name attribs data fChild, tree = .node name attribs data fChild .null := by
  cases tree with
  | null => exact root.elim
  | node name attribs data fChild next =>
      cases next with
      | null => exact ⟨name, attribs, data, fChild, rfl⟩
      | node => exact root.elim

theorem is_root_edit {tree : Xmln} (call : TreeCall) (path : List Turn) (before : tree.IsRoot) :
    (tree.editAt call.on path).IsRoot := by
  rcases is_root_node before with ⟨name, attribs, data, fChild, rfl⟩
  cases path with
  | nil => cases call <;> trivial
  | cons turn path =>
      cases turn with
      | fChild => trivial
      | next => cases path <;> cases call <;> trivial

theorem built_is_root {tree : Xmln} (built : Built tree) : tree.IsRoot := by
  induction built with
  | root nodeName => trivial
  | call before path call ih => exact is_root_edit call path ih

end Building

end Gk7102.Xml
