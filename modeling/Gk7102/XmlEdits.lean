import Gk7102.StepRuns
import Gk7102.XmlRepresentation

/-!
# Edits of XML trees

Runs of `xml_node_add_new`, `xml_node_add`, `xml_node_del`, `xml_attr_add` and `xml_attr_del`
on the trees of a heap, beside the same edits on their shapes. A caller passes pointers to
elements of these trees, and adds a detached node to another tree than its own.
-/

namespace Gk7102.XmlLinks

open Gk7102.ByteBlocks RecordHeap StepRuns

set_option autoImplicit false

inductive Edit where
  | nodeAddNew (parent : Option Nat) (nodeName : List Byte)
  | nodeAdd (parent newNode : Nat)
  | nodeDel (node : Nat)
  | attrAdd (node : Nat) (attrName attrData : List Byte)
  | attrDel (node : Nat) (attrName : List Byte)
deriving DecidableEq, Repr

def call (allocator : Allocator Xmln) (heap : Heap Xmln) : Edit → Option (Heap Xmln)
  | .nodeAddNew parent nodeName => (xmlNodeAddNew allocator heap parent nodeName).map Prod.fst
  | .nodeAdd parent newNode => xmlNodeAdd heap (some parent) (some newNode)
  | .nodeDel node => xmlNodeDel heap (some node)
  | .attrAdd node attrName attrData =>
      (xmlAttrAdd allocator heap (some node) attrName attrData).map Prod.fst
  | .attrDel node attrName => xmlAttrDel heap (some node) attrName

/-- The edit on the shapes, where a new node has the given address. -/
def edited (forest : List Shape) (new : Nat) : Edit → List Shape
  | .nodeAddNew none nodeName => forest ++ [leaf new nodeName none]
  | .nodeAddNew (some parent) nodeName =>
      editNode forest parent (Part.addChild (leaf new nodeName none))
  | .nodeAdd parent newNode =>
      match treeAt forest newNode with
      | none => forest
      | some tree => editNode (otherTrees forest newNode) parent (Part.addChild tree)
  | .nodeDel node => (otherTrees forest node).map (Shape.remove node)
  | .attrAdd node attrName attrData =>
      editNode forest node (Part.addAttrib (leaf new attrName (some attrData)))
  | .attrDel node attrName => editNode forest node (Part.dropAttrib attrName)

/-- What a caller may pass. -/
def Permitted (forest : List Shape) : Edit → Prop
  | .nodeAddNew none _ => True
  | .nodeAddNew (some parent) _ => (nodeAt forest parent).isSome
  | .nodeAdd parent newNode =>
      (treeAt forest newNode).isSome ∧ (nodeAt (otherTrees forest newNode) parent).isSome
  | .nodeDel node => (nodeAt forest node).isSome
  | .attrAdd node _ _ => (nodeAt forest node).isSome
  | .attrDel node _ => (nodeAt forest node).isSome

/-- An attribute that is deleted is neither the first nor the last one of its node. -/
def InnerOnly (forest : List Shape) : Edit → Prop
  | .attrDel node attrName =>
      ∀ part attr, nodeAt forest node = some part →
        part.attribs.firstNamed attrName = some attr →
        part.attribs.head ≠ some attr ∧ part.attribs.last ≠ some attr
  | _ => True

/-- The heap, unless a pointer to a freed node was followed, and the shapes. -/
structure State where
  heap : Option (Heap Xmln)
  forest : List Shape

def step (allocator : Allocator Xmln) (state : State) (edit : Edit) : State :=
  match state.heap with
  | none => state
  | some heap => ⟨call allocator heap edit, edited state.forest (allocator.malloc heap) edit⟩

/-! ## What the pointers have to say -/

/-- The lists of a node, walked forward from their first and backward from their last element,
and the parent pointers of its children. -/
structure NodeSound (cell : Nat → Option Xmln) (addr : Nat) (part : Part) (record : Xmln) :
    Prop where
  children : Walk cell Xmln.next record.fChild part.fChild.tops
  childrenBack : Walk cell Xmln.prev record.lChild part.fChild.tops.reverse
  attribs : Walk cell Xmln.next record.fAttrib part.attribs.tops
  attribsBack : Walk cell Xmln.prev record.lAttrib part.attribs.tops.reverse
  parents : ∀ child ∈ part.fChild.tops, ∃ held, cell child = some held ∧ held.parent = some addr

/-- Each node of the trees is linked as its shape says, and no pointer of a node leads out of
the trees: to a removed node, in particular. -/
structure Sound (heap : Heap Xmln) (forest : List Shape) : Prop where
  nodes : ∀ addr part, nodeAt forest addr = some part →
    ∃ record, heap.cell addr = some record ∧ NodeSound heap.cell addr part record
  roots : ∀ tree ∈ forest, ∀ addr, tree.head = some addr → ∃ record,
    heap.cell addr = some record ∧ record.parent = none ∧ record.prev = none ∧ record.next = none
  inside : ∀ x ∈ addressesOf forest, ∀ record, heap.cell x = some record →
    ∀ target, some target ∈ record.pointers → target ∈ addressesOf forest

def State.Sound (state : State) : Prop :=
  ∃ heap, state.heap = some heap ∧ XmlLinks.Sound heap state.forest

section Sounding

variable {heap : Heap Xmln} {forest : List Shape} {owner addr : Nat} {part : Part}

theorem represents_sound (represents : Represents heap forest) : Sound heap forest := by
  refine ⟨?_, ?_, ?_⟩
  · intro node itsPart found
    obtain ⟨parent, prev, next, here, attribsHold, childHolds⟩ := node_holds represents found
    refine ⟨_, here, walk_forward childHolds, ?_, walk_forward attribsHold, ?_, ?_⟩
    · have back := walk_backward childHolds [] rfl
      rwa [List.append_nil, Option.or_none] at back
    · have back := walk_backward attribsHold [] rfl
      rwa [List.append_nil, Option.or_none] at back
    · exact holds_parents childHolds
  · intro tree member root head
    obtain ⟨itsPart, rfl⟩ := tree_node (represents.trees tree member) head
    exact ⟨_, (represents.holds _ member).1, rfl, rfl, rfl⟩
  · intro x inside record itsRecord target points
    obtain ⟨tree, member, within⟩ := in_tree inside
    rcases holds_pointers (represents.holds tree member) within itsRecord points with here | out
    · exact of_tree member here
    · simp at out

theorem walk_from_dead {cell : Nat → Option Xmln} {follow : Xmln → Option Nat}
    (dead : cell addr = none) (nodes : List Nat) : ¬ Walk cell follow (some addr) nodes := by
  cases nodes with
  | nil => exact fun walk => by cases walk
  | cons first rest =>
      rintro ⟨same, record, found, _⟩
      rw [← Option.some.inj same, dead] at found
      cases found

/-- A first or last attribute that goes stays the first or last one of its node. -/
theorem attr_del_dangles (represents : Represents heap forest)
    (found : nodeAt forest owner = some part) {attrName : List Byte} {attr : Nat}
    (named : part.attribs.firstNamed attrName = some attr)
    (atEnd : part.attribs.head = some attr ∨ part.attribs.last = some attr) :
    ∃ written, xmlAttrDel heap (some owner) attrName = some written ∧
      ¬ Sound written (editNode forest owner (Part.dropAttrib attrName)) := by
  obtain ⟨front, itsPart, back, written, same, goes, deleted, dropped⟩ :=
    attr_del_named represents found named
  obtain ⟨parent, prev, next, here, _, _⟩ := node_holds represents found
  have ownerApart := (node_apart represents found).2
  refine ⟨written, goes, ?_⟩
  intro sound
  obtain ⟨record, itsRecord, linkedNode⟩ := sound.nodes owner _ (node_at_edit represents found _)
  have outside : owner ∉ (front.append (itsPart.node attr back)).addresses := by
    rw [← same]
    exact fun inside => ownerApart (List.mem_append_left _ inside)
  rw [deleted_kept deleted outside (fun above => by cases above), here] at itsRecord
  obtain rfl := Option.some.inj itsRecord
  rcases atEnd with first | final
  · have walk := linkedNode.attribs
    rw [linked, first] at walk
    exact walk_from_dead deleted.gone _ walk
  · have walk := linkedNode.attribsBack
    rw [linked, final] at walk
    exact walk_from_dead deleted.gone _ walk

end Sounding

section Runs

variable (allocator : Allocator Xmln) {heap : Heap Xmln} {forest : List Shape}

theorem call_represents (represents : Represents heap forest) (edit : Edit)
    (permitted : Permitted forest edit) (inner : InnerOnly forest edit) :
    ∃ written, call allocator heap edit = some written ∧
      Represents written (edited forest (allocator.malloc heap) edit) := by
  have outside := fresh_outside represents (allocator.fresh heap)
  cases edit with
  | nodeAddNew parent nodeName =>
      cases parent with
      | none => exact ⟨_, rfl, new_root_represents represents outside nodeName⟩
      | some parent =>
          obtain ⟨part, found⟩ := Option.isSome_iff_exists.mp permitted
          have apart : ∀ x ∈ (leaf (allocator.malloc heap) nodeName none).addresses,
              x ∉ addressesOf forest := by
            intro x inside
            rwa [List.mem_singleton.mp inside]
          obtain ⟨written, adds, after⟩ := @add_child_represents _ _ _ _ _
            ⟨nodeName, none, .null, .null⟩
            (represents_set represents outside (some (blank nodeName none))) found
            (new_leaf_holds heap (allocator.malloc heap) nodeName none)
            (List.nodup_singleton _) apart
          refine ⟨written, ?_, after⟩
          simp only [call, xmlNodeAddNew, adds, Option.bind_eq_bind, Option.bind_some,
            Option.pure_def, Option.map_some]
  | nodeAdd parent newNode =>
      obtain ⟨tree, root⟩ := Option.isSome_iff_exists.mp permitted.1
      obtain ⟨part, found⟩ := Option.isSome_iff_exists.mp permitted.2
      obtain ⟨others, member, head, apart⟩ := represents_other_trees represents root
      obtain ⟨itsPart, rfl⟩ := tree_node (represents.trees tree member) head
      obtain ⟨written, adds, after⟩ := add_child_represents others found
        (represents.holds _ member) (tree_distinct represents.distinct member) apart
      refine ⟨written, adds, ?_⟩
      rw [edited, root]
      exact after
  | nodeDel node =>
      obtain ⟨part, found⟩ := Option.isSome_iff_exists.mp permitted
      cases root : treeAt forest node with
      | some tree => exact root_del_represents represents root
      | none => exact child_del_represents represents found root
  | attrAdd node attrName attrData =>
      obtain ⟨part, found⟩ := Option.isSome_iff_exists.mp permitted
      obtain ⟨written, attr, adds, after⟩ :=
        attr_add_represents allocator represents found attrName attrData
      exact ⟨written, by rw [call, adds, Option.map_some], after⟩
  | attrDel node attrName =>
      obtain ⟨part, found⟩ := Option.isSome_iff_exists.mp permitted
      cases named : part.attribs.firstNamed attrName with
      | none => exact ⟨heap, attr_del_absent represents found named⟩
      | some attr =>
          obtain ⟨notFirst, notLast⟩ := inner part attr found named
          exact attr_del_represents represents found named notFirst notLast

/-- An edit that is not an inner one leaves a pointer to a freed attribute. -/
theorem call_dangles (represents : Represents heap forest) (edit : Edit)
    (permitted : Permitted forest edit) (outer : ¬ InnerOnly forest edit) :
    ∃ written, call allocator heap edit = some written ∧
      ¬ Sound written (edited forest (allocator.malloc heap) edit) := by
  cases edit with
  | nodeAddNew parent nodeName => exact absurd trivial outer
  | nodeAdd parent newNode => exact absurd trivial outer
  | nodeDel node => exact absurd trivial outer
  | attrAdd node attrName attrData => exact absurd trivial outer
  | attrDel node attrName =>
      simp only [InnerOnly, not_forall] at outer
      obtain ⟨part, attr, found, named, atEnd⟩ := outer
      apply attr_del_dangles represents found named
      rwa [not_and_or, not_not, not_not] at atEnd

end Runs

def State.Represents (state : State) : Prop :=
  ∃ heap, state.heap = some heap ∧ XmlLinks.Represents heap state.forest

/-- Along a run of edits that a caller may make, the pointers say what the shapes do in every
state exactly when each attribute that is deleted is an inner one of its node. -/
theorem edits_sound_iff (allocator : Allocator Xmln) (start : State)
    (represents : start.Represents) (edits : List Edit)
    (permitted : EveryStep (step allocator) (fun state edit => Permitted state.forest edit)
      start edits) :
    AlongRun (step allocator) State.Sound start edits ↔
      EveryStep (step allocator) (fun state edit => InnerOnly state.forest edit) start edits := by
  apply along_run_iff_every_step_of_law State.Represents _ _ _ start represents edits permitted
  · rintro state ⟨heap, same, holds⟩
    exact ⟨heap, same, represents_sound holds⟩
  · rintro state edit ⟨heap, same, holds⟩ lawful inner
    obtain ⟨written, calls, after⟩ := call_represents allocator holds edit lawful inner
    refine ⟨written, ?_, ?_⟩
    · simp only [step, same, calls]
    · simp only [step, same]
      exact after
  · rintro state edit ⟨heap, same, holds⟩ lawful outer ⟨written, reached, sound⟩
    obtain ⟨dangling, calls, broken⟩ := call_dangles allocator holds edit lawful outer
    simp only [step, same, calls] at reached sound
    obtain rfl := Option.some.inj reached
    exact broken sound

def nothing : State := ⟨some Heap.empty, []⟩

def innerEdits : List Edit :=
  [.nodeAddNew none [114], .attrAdd 0 [97] [], .attrAdd 0 [98] [], .attrAdd 0 [99] [],
    .attrDel 0 [66], .nodeAddNew (some 0) [100], .nodeDel 4]

theorem nothing_represents : nothing.Represents :=
  ⟨Heap.empty, rfl, ⟨fun _ member => absurd member List.not_mem_nil,
    fun _ member => absurd member List.not_mem_nil, List.nodup_nil⟩⟩

theorem inner_edits_sound : AlongRun (step Allocator.bump) State.Sound nothing innerEdits := by
  apply (edits_sound_iff Allocator.bump nothing nothing_represents innerEdits
    ⟨trivial, rfl, rfl, rfl, rfl, rfl, rfl, trivial⟩).mpr
  refine ⟨trivial, trivial, trivial, trivial, ?_, trivial, trivial, trivial⟩
  intro part attr found named
  change some (Part.mk [114] none (.node 1 [97] (some []) .null .null
    (.node 2 [98] (some []) .null .null (leaf 3 [99] (some [])))) .null) = some part at found
  obtain rfl := Option.some.inj found
  change some 2 = some attr at named
  obtain rfl := Option.some.inj named
  decide

def outerEdits : List Edit := [.nodeAddNew none [114], .attrAdd 0 [97] [], .attrDel 0 [97]]

theorem only_attribute_dangles :
    EveryStep (step Allocator.bump) (fun state edit => Permitted state.forest edit) nothing
        outerEdits ∧
      ¬ AlongRun (step Allocator.bump) State.Sound nothing outerEdits := by
  refine ⟨⟨trivial, rfl, rfl, trivial⟩, ?_⟩
  rintro ⟨_, _, _, heap, reached, sound⟩
  obtain ⟨record, itsRecord, linkedNode⟩ := sound.nodes 0 ⟨[114], none, .null, .null⟩ rfl
  obtain rfl := Option.some.inj reached
  change some (Xmln.mk [114] none none none none none none (some 1) (some 1)) = some record
    at itsRecord
  obtain rfl := Option.some.inj itsRecord
  have walk := linkedNode.attribs
  cases walk

end Gk7102.XmlLinks
