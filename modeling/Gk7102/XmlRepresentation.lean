import Mathlib.Data.List.Flatten
import Mathlib.Data.List.Nodup
import Mathlib.Data.List.Perm.Subperm
import Gk7102.XmlUnlink

/-!
# Trees on the heap

The trees of a heap by their shapes, and that each edit of the source keeps the records in
agreement with the edited shapes.
-/

namespace Gk7102.XmlLinks

open Gk7102.ByteBlocks RecordHeap

set_option autoImplicit false

def addressesOf (forest : List Shape) : List Nat := forest.flatMap Shape.addresses

def nodeAt (forest : List Shape) (addr : Nat) : Option Part := forest.findSome? (Shape.lookup addr)

def editNode (forest : List Shape) (addr : Nat) (edit : Part → Part) : List Shape :=
  forest.map (Shape.editAt addr edit)

/-- The trees but the one with this root. -/
def otherTrees (forest : List Shape) (addr : Nat) : List Shape :=
  forest.filter fun tree => tree.head ≠ some addr

def treeAt (forest : List Shape) (addr : Nat) : Option Shape :=
  forest.find? fun tree => tree.head = some addr

def leaf (addr : Nat) (name : List Byte) (data : Option (List Byte)) : Shape :=
  .node addr name data .null .null .null

def Part.addChild (child : Shape) (part : Part) : Part :=
  { part with fChild := part.fChild.append child }

def Part.addAttrib (attrib : Shape) (part : Part) : Part :=
  { part with attribs := part.attribs.append attrib }

def Part.dropAttrib (attrName : List Byte) (part : Part) : Part :=
  match part.attribs.firstNamed attrName with
  | none => part
  | some attr => { part with attribs := part.attribs.without attr }

/-! ## What the records hold -/

structure Represents (heap : Heap Xmln) (forest : List Shape) : Prop where
  trees : ∀ tree ∈ forest, tree.IsTree
  holds : ∀ tree ∈ forest, Holds heap.cell none none none tree
  distinct : (addressesOf forest).Nodup

section Representing

variable {heap other : Heap Xmln} {forest : List Shape} {addr : Nat} {part : Part}
  {edit : Part → Part}

theorem in_tree {x : Nat} (inside : x ∈ addressesOf forest) :
    ∃ tree ∈ forest, x ∈ tree.addresses :=
  List.mem_flatMap.mp inside

theorem of_tree {tree : Shape} (member : tree ∈ forest) {x : Nat} (inside : x ∈ tree.addresses) :
    x ∈ addressesOf forest :=
  List.mem_flatMap.mpr ⟨tree, member, inside⟩

theorem node_in_tree (found : nodeAt forest addr = some part) :
    ∃ tree ∈ forest, tree.lookup addr = some part :=
  List.exists_of_findSome?_eq_some found

theorem tree_distinct {tree : Shape} (distinct : (addressesOf forest).Nodup)
    (member : tree ∈ forest) : tree.addresses.Nodup :=
  (List.nodup_flatMap.mp distinct).1 tree member

theorem trees_apart {tree another : Shape} (distinct : (addressesOf forest).Nodup)
    (member : tree ∈ forest) (also : another ∈ forest) (differ : tree ≠ another) :
    ∀ x ∈ tree.addresses, x ∉ another.addresses := by
  obtain ⟨front, back, rfl⟩ := List.append_of_mem member
  simp only [addressesOf, List.flatMap_append, List.flatMap_cons] at distinct
  obtain ⟨_, rest, split⟩ := List.nodup_append.mp distinct
  obtain ⟨_, _, behind⟩ := List.nodup_append.mp rest
  intro x here there
  rcases List.mem_append.mp also with first | later
  · exact split x (of_tree first there) x (List.mem_append_left _ here) rfl
  · rcases List.mem_cons.mp later with same | second
    · exact differ same.symm
    · exact behind x here x (of_tree second there) rfl

theorem node_in_forest (found : nodeAt forest addr = some part) : addr ∈ addressesOf forest := by
  obtain ⟨tree, member, here⟩ := node_in_tree found
  exact of_tree member (lookup_inside here)

theorem node_apart (represents : Represents heap forest) (found : nodeAt forest addr = some part) :
    part.addresses.Nodup ∧ addr ∉ part.addresses := by
  obtain ⟨tree, member, here⟩ := node_in_tree found
  exact lookup_apart (tree_distinct represents.distinct member) here

theorem part_in_forest (represents : Represents heap forest)
    (found : nodeAt forest addr = some part) : ∀ x ∈ part.addresses, x ∈ addressesOf forest := by
  obtain ⟨tree, member, here⟩ := node_in_tree found
  exact fun x inside => of_tree member
    (lookup_part_inside (tree_distinct represents.distinct member) here x inside)

theorem node_holds (represents : Represents heap forest)
    (found : nodeAt forest addr = some part) :
    ∃ parent prev next, heap.cell addr = some (linked part parent prev next) ∧
      Holds heap.cell none none none part.attribs ∧
      Holds heap.cell (some addr) none none part.fChild := by
  obtain ⟨tree, member, here⟩ := node_in_tree found
  exact lookup_holds (represents.holds tree member) here

theorem represents_live (represents : Represents heap forest) :
    ∀ x ∈ addressesOf forest, (heap.cell x).isSome := by
  intro x inside
  obtain ⟨tree, member, within⟩ := in_tree inside
  exact holds_live (represents.holds tree member) x within

theorem split_at_node (distinct : (addressesOf forest).Nodup)
    (found : nodeAt forest addr = some part) :
    ∃ front tree back, forest = front ++ tree :: back ∧ tree.lookup addr = some part ∧
      addr ∉ addressesOf front ∧ addr ∉ addressesOf back := by
  obtain ⟨tree, member, here⟩ := node_in_tree found
  obtain ⟨front, back, rfl⟩ := List.append_of_mem member
  have place := lookup_inside here
  simp only [addressesOf, List.flatMap_append, List.flatMap_cons] at distinct
  obtain ⟨_, rest, split⟩ := List.nodup_append.mp distinct
  obtain ⟨_, _, behind⟩ := List.nodup_append.mp rest
  refine ⟨front, tree, back, rfl, here, ?_, ?_⟩
  · exact fun also => split addr also addr (List.mem_append_left _ place) rfl
  · exact fun also => behind addr place addr also rfl

theorem edit_absent_trees (absent : addr ∉ addressesOf forest) :
    editNode forest addr edit = forest := by
  have same : ∀ tree ∈ forest, tree.editAt addr edit = tree := fun tree member =>
    edit_absent fun inside => absent (of_tree member inside)
  rw [editNode, List.map_congr_left same, List.map_id']

theorem node_at_absent (absent : addr ∉ addressesOf forest) : nodeAt forest addr = none := by
  rw [nodeAt, List.findSome?_eq_none_iff]
  intro tree member
  cases there : tree.lookup addr with
  | none => rfl
  | some _ => exact absurd (of_tree member (lookup_inside there)) absent

theorem node_at_of_tree (distinct : (addressesOf forest).Nodup) {tree : Shape}
    (member : tree ∈ forest) (here : tree.lookup addr = some part) :
    nodeAt forest addr = some part := by
  obtain ⟨front, back, rfl⟩ := List.append_of_mem member
  simp only [addressesOf, List.flatMap_append, List.flatMap_cons] at distinct
  obtain ⟨_, _, split⟩ := List.nodup_append.mp distinct
  have absent : nodeAt front addr = none := node_at_absent fun first =>
    split addr first addr (List.mem_append_left _ (lookup_inside here)) rfl
  rw [nodeAt] at absent ⊢
  rw [List.findSome?_append, absent, Option.none_or, List.findSome?_cons, here]

theorem node_at_edit (represents : Represents heap forest)
    (found : nodeAt forest addr = some part) (edit : Part → Part) :
    nodeAt (editNode forest addr edit) addr = some (edit part) := by
  obtain ⟨front, tree, back, rfl, here, notFront, _⟩ := split_at_node represents.distinct found
  have member : tree ∈ front ++ tree :: back := List.mem_append_right _ List.mem_cons_self
  have edited := lookup_edit (tree_distinct represents.distinct member) here edit
  have frontSame : front.map (Shape.editAt addr edit) = front := edit_absent_trees notFront
  have absent : nodeAt front addr = none := node_at_absent notFront
  rw [nodeAt] at absent ⊢
  rw [editNode, List.map_append, frontSame, List.findSome?_append, absent, Option.none_or,
    List.map_cons, List.findSome?_cons, edited]

/-- What a tree holds beside a part, the forest holds with the other trees. -/
theorem addresses_around {front back : List Shape} {tree : Shape} {inner others : List Nat}
    (parts : tree.addresses.Perm (inner ++ others)) :
    (addressesOf (front ++ tree :: back)).Perm
      (inner ++ (others ++ addressesOf front ++ addressesOf back)) := by
  rw [List.perm_iff_count] at parts ⊢
  intro x
  have counted := parts x
  simp only [addressesOf, List.flatMap_append, List.flatMap_cons, List.count_append] at counted ⊢
  omega

theorem edited_distinct {front back : List Shape} {tree other : Shape}
    {inner now others : List Nat} (whole : (addressesOf (front ++ tree :: back)).Nodup)
    (before : tree.addresses.Perm (inner ++ others)) (after : other.addresses.Perm (now ++ others))
    (distinct : now.Nodup)
    (fresh : ∀ x ∈ now, x ∈ inner ∨ x ∉ addressesOf (front ++ tree :: back)) :
    (addressesOf (front ++ other :: back)).Nodup := by
  have wholeBefore : (addressesOf (front ++ tree :: back)).Perm
      (inner ++ (others ++ addressesOf front ++ addressesOf back)) := addresses_around before
  obtain ⟨_, restDistinct, partApart⟩ := List.nodup_append.mp (wholeBefore.nodup_iff.mp whole)
  apply (addresses_around after).nodup_iff.mpr
  apply List.nodup_append.mpr
  refine ⟨distinct, restDistinct, ?_⟩
  rintro x inside y also rfl
  rcases fresh x inside with old | new
  · exact partApart x old x also rfl
  · exact new (wholeBefore.mem_iff.mpr (List.mem_append_right _ also))

theorem represents_edit (represents : Represents heap forest)
    (found : nodeAt forest addr = some part)
    (edited : Edited heap.cell other.cell addr part (edit part))
    (kept : ∀ x ∈ addressesOf forest, x ≠ addr → x ∉ part.addresses →
      other.cell x = heap.cell x)
    (distinct : (edit part).addresses.Nodup)
    (fresh : ∀ x ∈ (edit part).addresses, x ∈ part.addresses ∨ x ∉ addressesOf forest) :
    Represents other (editNode forest addr edit) := by
  obtain ⟨front, tree, back, rfl, here, notFront, notBack⟩ :=
    split_at_node represents.distinct found
  have member : tree ∈ front ++ tree :: back := List.mem_append_right _ List.mem_cons_self
  have treeDistinct := tree_distinct represents.distinct member
  have partInside := lookup_part_inside treeDistinct here
  have split : editNode (front ++ tree :: back) addr edit =
      front ++ tree.editAt addr edit :: back := by
    have frontSame : front.map (Shape.editAt addr edit) = front := edit_absent_trees notFront
    have backSame : back.map (Shape.editAt addr edit) = back := edit_absent_trees notBack
    rw [editNode, List.map_append, List.map_cons, frontSame, backSame]
  have whole := represents.distinct
  simp only [addressesOf, List.flatMap_append, List.flatMap_cons] at whole
  obtain ⟨frontDistinct, rest, frontApart⟩ := List.nodup_append.mp whole
  obtain ⟨_, backDistinct, backApart⟩ := List.nodup_append.mp rest
  have elsewhere : ∀ before ∈ front ++ back,
      Holds other.cell none none none before := by
    intro before inside
    have within : before ∈ front ++ tree :: back := by
      rcases List.mem_append.mp inside with first | later
      · exact List.mem_append_left _ first
      · exact List.mem_append_right _ (List.mem_cons_of_mem _ later)
    have apart : ∀ x ∈ before.addresses, x ∉ tree.addresses := by
      intro x place also
      rcases List.mem_append.mp inside with first | later
      · exact frontApart x (of_tree first place) x (List.mem_append_left _ also) rfl
      · exact backApart x also x (of_tree later place) rfl
    apply holds_frame _ (represents.holds before within)
    intro x place
    apply kept x (of_tree within place)
    · rintro rfl
      exact apart x place (lookup_inside here)
    · exact fun also => apart x place (partInside x also)
  rw [split]
  refine ⟨?_, ?_, ?_⟩
  · intro after inside
    rcases List.mem_append.mp inside with first | rest
    · exact represents.trees after (List.mem_append_left _ first)
    · rcases List.mem_cons.mp rest with rfl | later
      · exact edit_is_tree (represents.trees tree member)
      · exact represents.trees after (List.mem_append_right _ (List.mem_cons_of_mem _ later))
  · intro after inside
    rcases List.mem_append.mp inside with first | rest
    · exact elsewhere after (List.mem_append_left _ first)
    · rcases List.mem_cons.mp rest with rfl | later
      · exact edit_holds (represents.holds tree member) treeDistinct here edited
          fun x place => kept x (of_tree member place)
      · exact elsewhere after (List.mem_append_right _ later)
  · obtain ⟨others, before, now, _⟩ := edit_addresses treeDistinct here edit
    exact edited_distinct represents.distinct before now distinct fresh

theorem represents_other_trees (represents : Represents heap forest) {tree : Shape}
    (member : treeAt forest addr = some tree) :
    Represents heap (otherTrees forest addr) ∧ tree ∈ forest ∧ tree.head = some addr ∧
      ∀ x ∈ tree.addresses, x ∉ addressesOf (otherTrees forest addr) := by
  rw [treeAt] at member
  have inside := List.mem_of_find?_eq_some member
  have chosen := List.find?_some member
  have head : tree.head = some addr := of_decide_eq_true chosen
  have fewer : (otherTrees forest addr).Sublist forest := List.filter_sublist
  have kept : ∀ other ∈ otherTrees forest addr, other ∈ forest := fun other => fewer.mem
  refine ⟨⟨fun other also => represents.trees other (kept other also),
    fun other also => represents.holds other (kept other also),
    represents.distinct.sublist (fewer.flatMap _)⟩, inside, head, ?_⟩
  intro x here also
  obtain ⟨other, among, there⟩ := in_tree also
  have differ : tree ≠ other := by
    rintro rfl
    exact of_decide_eq_true (List.mem_filter.mp among).2 head
  exact trees_apart represents.distinct inside (kept other among) differ x here there

theorem tree_node {tree : Shape} (alone : tree.IsTree) (head : tree.head = some addr) :
    ∃ itsPart : Part, tree = itsPart.node addr .null := by
  cases tree with
  | null => cases head
  | node first name data attribs fChild next =>
      cases next with
      | null =>
          obtain rfl := Option.some.inj head
          exact ⟨⟨name, data, attribs, fChild⟩, rfl⟩
      | node _ _ _ _ _ _ => exact alone.elim

end Representing

/-! ## Adding -/

section Adding

variable {heap written : Heap Xmln} {forest : List Shape} {owner newNode : Nat} {part itsPart : Part}

theorem add_child_addresses (part : Part) (child : Shape) :
    (part.addChild child).addresses.Perm (child.addresses ++ part.addresses) := by
  rw [List.perm_iff_count]
  intro x
  simp only [Part.addChild, Part.addresses, append_addresses, List.count_append]
  omega

theorem add_attrib_addresses (part : Part) (attrib : Shape) :
    (part.addAttrib attrib).addresses.Perm (attrib.addresses ++ part.addresses) := by
  rw [List.perm_iff_count]
  intro x
  simp only [Part.addAttrib, Part.addresses, append_addresses, List.count_append]
  omega

theorem grown_distinct {tree : Shape} (represents : Represents heap forest)
    (found : nodeAt forest owner = some part) (treeDistinct : tree.addresses.Nodup)
    (apart : ∀ x ∈ tree.addresses, x ∉ addressesOf forest) :
    (tree.addresses ++ part.addresses).Nodup := by
  apply List.nodup_append.mpr
  refine ⟨treeDistinct, (node_apart represents found).1, ?_⟩
  rintro x inside y also rfl
  exact apart x inside (part_in_forest represents found x also)

theorem grown_fresh {tree : Shape} (apart : ∀ x ∈ tree.addresses, x ∉ addressesOf forest)
    {x : Nat} (inside : x ∈ tree.addresses ++ part.addresses) :
    x ∈ part.addresses ∨ x ∉ addressesOf forest := by
  rcases List.mem_append.mp inside with new | old
  · exact Or.inr (apart x new)
  · exact Or.inl old

theorem appended_kept {chain : Shape} {above record : Xmln}
    (appended : Appended heap written owner newNode above record chain) {x : Nat}
    (notOwner : x ≠ owner) (notNode : x ≠ newNode) (outside : x ∉ chain.addresses) :
    written.cell x = heap.cell x :=
  appended.others x notOwner notNode fun reached =>
    outside (tops_inside chain x (last_inside reached))

theorem appended_holds {chain : Shape} {parent : Option Nat} {above record : Xmln}
    (appended : Appended heap written owner newNode above record chain)
    (holds : Holds heap.cell parent none none chain) (distinct : chain.addresses.Nodup)
    (ownerApart : owner ∉ chain.addresses) (nodeApart : newNode ∉ chain.addresses)
    (itself : record = linked itsPart parent chain.last none)
    (attribsHold : Holds written.cell none none none itsPart.attribs)
    (childHolds : Holds written.cell (some newNode) none none itsPart.fChild) :
    Holds written.cell parent none none (chain.append (itsPart.node newNode .null)) := by
  apply holds_append.mpr
  constructor
  · apply holds_with_after holds distinct
    · intro x inside notLast
      apply appended.others x _ _ notLast
      · rintro rfl
        exact ownerApart inside
      · rintro rfl
        exact nodeApart inside
    · intro x held reached found
      exact appended.atLast x held reached found
  · rw [Option.or_none]
    refine ⟨?_, attribsHold, childHolds, trivial⟩
    rw [appended.atNode, itself]
    rfl

theorem add_child_represents (represents : Represents heap forest)
    (found : nodeAt forest owner = some part)
    (treeHolds : Holds heap.cell none none none (itsPart.node newNode .null))
    (treeDistinct : (itsPart.node newNode .null).addresses.Nodup)
    (apart : ∀ x ∈ (itsPart.node newNode .null).addresses, x ∉ addressesOf forest) :
    ∃ written, addChild heap owner newNode = some written ∧
      Represents written (editNode forest owner (Part.addChild (itsPart.node newNode .null))) := by
  obtain ⟨parent, prev, next, here, attribsHold, childHolds⟩ := node_holds represents found
  obtain ⟨partDistinct, ownerApart⟩ := node_apart represents found
  have partInside := part_in_forest represents found
  have ownerInside := node_in_forest found
  have nodeApart : newNode ∉ addressesOf forest := apart newNode List.mem_cons_self
  obtain ⟨attribsDistinct, childDistinct, split⟩ := List.nodup_append.mp partDistinct
  have childInside : ∀ x ∈ part.fChild.addresses, x ∈ part.addresses := fun x inside =>
    List.mem_append_right _ inside
  have attribInside : ∀ x ∈ part.attribs.addresses, x ∈ part.addresses := fun x inside =>
    List.mem_append_left _ inside
  have ownerNode : owner ≠ newNode := by
    rintro rfl
    exact nodeApart ownerInside
  have given : Appendable heap owner newNode (linked part parent prev next)
      (linked itsPart none none none) part.fChild :=
    ⟨here, treeHolds.1, rfl, fun x inside => holds_live childHolds x (tops_inside _ x inside),
      ownerNode, fun inside => ownerApart (childInside _ (tops_inside _ _ inside)),
      fun inside => nodeApart (partInside _ (childInside _ (tops_inside _ _ inside)))⟩
  obtain ⟨written, adds, appended⟩ := add_child_cells given rfl rfl
  have grown := add_child_addresses part (itsPart.node newNode .null)
  have treeKept : ∀ x ∈ itsPart.addresses, written.cell x = heap.cell x := by
    intro x inside
    have outside : x ∉ addressesOf forest :=
      apart x (List.mem_cons_of_mem _ (List.mem_append_left _ inside))
    apply appended_kept appended
    · exact fun same => outside (same ▸ ownerInside)
    · rintro rfl
      exact (part_distinct treeDistinct).2.1 inside
    · exact fun also => outside (partInside x (childInside x also))
  have attribKept : ∀ x ∈ part.attribs.addresses, written.cell x = heap.cell x := by
    intro x inside
    apply appended_kept appended
    · rintro rfl
      exact ownerApart (attribInside x inside)
    · rintro rfl
      exact nodeApart (partInside x (attribInside x inside))
    · exact fun also => split x inside x also rfl
  refine ⟨written, adds, ?_⟩
  apply represents_edit represents found
  · refine ⟨?_, holds_frame attribKept attribsHold, ?_⟩
    · intro itsParent itsPrev itsNext held
      have same := Option.some.inj (here.symm.trans held)
      rw [appended.atOwner, same]
      simp only [linked, Part.addChild, append_head, append_last]
      rfl
    · apply appended_holds appended childHolds childDistinct
      · exact fun inside => ownerApart (childInside _ inside)
      · exact fun inside => nodeApart (partInside _ (childInside _ inside))
      · rfl
      · exact holds_frame (fun x inside => treeKept x (List.mem_append_left _ inside)) treeHolds.2.1
      · exact holds_frame (fun x inside => treeKept x (List.mem_append_right _ inside))
          treeHolds.2.2.1
  · intro x inside notOwner outside
    apply appended_kept appended notOwner
    · rintro rfl
      exact nodeApart inside
    · exact fun also => outside (childInside x also)
  · exact (grown.nodup_iff.mpr (grown_distinct represents found treeDistinct apart))
  · exact fun x inside => grown_fresh apart (grown.mem_iff.mp inside)

theorem fresh_outside (represents : Represents heap forest) (free : heap.cell newNode = none) :
    newNode ∉ addressesOf forest := by
  intro inside
  have live := represents_live represents newNode inside
  rw [free] at live
  cases live

theorem represents_set (represents : Represents heap forest) (outside : newNode ∉ addressesOf forest)
    (content : Option Xmln) : Represents (heap.set newNode content) forest := by
  refine ⟨represents.trees, ?_, represents.distinct⟩
  intro tree member
  apply holds_frame _ (represents.holds tree member)
  intro x inside
  have differ : x ≠ newNode := by
    rintro rfl
    exact outside (of_tree member inside)
  rw [Heap.set_cell, Function.update_of_ne differ]

theorem new_leaf_holds (heap : Heap Xmln) (addr : Nat) (name : List Byte)
    (data : Option (List Byte)) :
    Holds (heap.set addr (some (blank name data))).cell none none none (leaf addr name data) := by
  refine ⟨?_, trivial, trivial, trivial⟩
  rw [Heap.set_cell, Function.update_self]
  rfl

theorem new_root_represents (represents : Represents heap forest)
    (outside : newNode ∉ addressesOf forest) (name : List Byte) :
    Represents (heap.set newNode (some (blank name none))) (forest ++ [leaf newNode name none]) := by
  have kept := represents_set represents outside (some (blank name none))
  refine ⟨?_, ?_, ?_⟩
  · rw [List.forall_mem_append, List.forall_mem_singleton]
    exact ⟨kept.trees, trivial⟩
  · rw [List.forall_mem_append, List.forall_mem_singleton]
    exact ⟨kept.holds, new_leaf_holds heap newNode name none⟩
  · rw [addressesOf, List.flatMap_append]
    apply List.nodup_append.mpr
    refine ⟨kept.distinct, List.nodup_singleton newNode, ?_⟩
    rintro x inside y also rfl
    exact outside (List.mem_singleton.mp also ▸ inside)

theorem attr_add_represents (allocator : Allocator Xmln) (represents : Represents heap forest)
    (found : nodeAt forest owner = some part) (attrName attrData : List Byte) :
    ∃ written attr, xmlAttrAdd allocator heap (some owner) attrName attrData =
        some (written, attr) ∧
      Represents written (editNode forest owner
        (Part.addAttrib (leaf (allocator.malloc heap) attrName (some attrData)))) := by
  have nodeApart := fresh_outside represents (allocator.fresh heap)
  have before := represents_set represents nodeApart (some (blank attrName (some attrData)))
  obtain ⟨parent, prev, next, here, attribsHold, childHolds⟩ := node_holds before found
  obtain ⟨partDistinct, ownerApart⟩ := node_apart represents found
  have partInside := part_in_forest represents found
  obtain ⟨attribsDistinct, childDistinct, split⟩ := List.nodup_append.mp partDistinct
  have childInside : ∀ x ∈ part.fChild.addresses, x ∈ part.addresses := fun x inside =>
    List.mem_append_right _ inside
  have attribInside : ∀ x ∈ part.attribs.addresses, x ∈ part.addresses := fun x inside =>
    List.mem_append_left _ inside
  have itsRecord := (new_leaf_holds heap (allocator.malloc heap) attrName (some attrData)).1
  have given : Appendable (heap.set (allocator.malloc heap) (some (blank attrName (some attrData))))
      owner (allocator.malloc heap) (linked part parent prev next)
      (linked ⟨attrName, some attrData, .null, .null⟩ none none none) part.attribs :=
    ⟨here, itsRecord, rfl, fun x inside => holds_live attribsHold x (tops_inside _ x inside),
      fun same => nodeApart (same ▸ node_in_forest found),
      fun inside => ownerApart (attribInside _ (tops_inside _ _ inside)),
      fun inside => nodeApart (partInside _ (attribInside _ (tops_inside _ _ inside)))⟩
  obtain ⟨written, adds, appended⟩ := attr_add_cells allocator rfl rfl given rfl rfl
  have grown := add_attrib_addresses part
    (leaf (allocator.malloc heap) attrName (some attrData))
  have apart : ∀ x ∈ (leaf (allocator.malloc heap) attrName (some attrData)).addresses,
      x ∉ addressesOf forest := by
    intro x inside
    rwa [List.mem_singleton.mp inside]
  refine ⟨written, _, adds, ?_⟩
  apply represents_edit before found
  · refine ⟨?_, ?_, ?_⟩
    · intro itsParent itsPrev itsNext held
      have same := Option.some.inj (here.symm.trans held)
      rw [appended.atOwner, same]
      simp only [linked, Part.addAttrib, append_head, append_last]
      rfl
    · exact @appended_holds _ _ owner _ ⟨attrName, some attrData, .null, .null⟩ _ _ _ _ appended
        attribsHold attribsDistinct (fun inside => ownerApart (attribInside _ inside))
        (fun inside => nodeApart (partInside _ (attribInside _ inside))) rfl trivial trivial
    · apply holds_frame _ childHolds
      intro x inside
      apply appended_kept appended
      · rintro rfl
        exact ownerApart (childInside x inside)
      · rintro rfl
        exact nodeApart (partInside _ (childInside _ inside))
      · exact fun also => split x also x inside rfl
  · intro x inside notOwner outside
    apply appended_kept appended notOwner
    · rintro rfl
      exact nodeApart inside
    · exact fun also => outside (attribInside x also)
  · exact (grown.nodup_iff.mpr (grown_distinct before found (List.nodup_singleton _) apart))
  · exact fun x inside => grown_fresh apart (grown.mem_iff.mp inside)

end Adding

/-! ## Deleting -/

section Deleting

variable {heap written : Heap Xmln} {forest : List Shape} {owner addr : Nat} {part itsPart : Part}
  {front back : Shape} {parent : Option Nat}

theorem length_le_top {addresses : List Nat} (distinct : addresses.Nodup)
    (live : ∀ x ∈ addresses, (heap.cell x).isSome) : addresses.length ≤ heap.top := by
  have below : addresses ⊆ List.range heap.top := by
    intro x inside
    obtain ⟨record, found⟩ := Option.isSome_iff_exists.mp (live x inside)
    exact List.mem_range.mpr (Heap.below_top found)
  have fewer := (List.subperm_of_subset distinct below).length_le
  rwa [List.length_range] at fewer

theorem chain_node_goes
    (holds : Holds heap.cell parent none none (front.append (itsPart.node addr back)))
    (distinct : (front.append (itsPart.node addr back)).addresses.Nodup)
    (above : ∀ x, parent = some x → (heap.cell x).isSome ∧
      x ∉ (front.append (itsPart.node addr back)).addresses) :
    ∃ written, xmlNodeDel heap (some addr) = some written ∧
      Deleted heap written addr itsPart parent front.last back.head := by
  have live := holds_live holds
  rw [append_addresses] at distinct above live
  obtain ⟨_, here, attribsHold, childHolds, _⟩ := holds_append.mp holds
  rw [Option.or_none, Option.or_none] at here
  obtain ⟨_, nodeDistinct, split⟩ := List.nodup_append.mp distinct
  obtain ⟨partDistinct, partApart, backApart, behind⟩ := part_distinct nodeDistinct
  have inPart : ∀ x ∈ itsPart.addresses, x ∈ (itsPart.node addr back).addresses :=
    fun x inside => List.mem_cons_of_mem _ (List.mem_append_left _ inside)
  have inBack : ∀ x ∈ back.addresses, x ∈ (itsPart.node addr back).addresses :=
    fun x inside => List.mem_cons_of_mem _ (List.mem_append_right _ inside)
  have few : itsPart.addresses.length ≤ heap.top := length_le_top partDistinct fun x inside =>
    live x (List.mem_append_right _ (inPart x inside))
  apply del_node_cells partDistinct partApart here attribsHold childHolds
  · intro x near
    simp only [List.mem_cons, List.not_mem_nil, or_false] at near
    rcases near with upper | before | after
    · obtain ⟨alive, outside⟩ := above x upper.symm
      refine ⟨alive, ?_, ?_⟩
      · exact fun inside => outside (List.mem_append_right _ (inPart x inside))
      · rintro rfl
        exact outside (List.mem_append_right _ List.mem_cons_self)
    · have inside := tops_inside front x (last_inside before.symm)
      refine ⟨live x (List.mem_append_left _ inside), ?_, ?_⟩
      · exact fun also => split x inside x (inPart x also) rfl
      · rintro rfl
        exact split x inside x List.mem_cons_self rfl
    · have inside := tops_inside back x (head_inside after.symm)
      refine ⟨live x (List.mem_append_right _ (inBack x inside)), behind x inside, ?_⟩
      rintro rfl
      exact backApart inside
  · rw [enough]
    omega

theorem deleted_kept (deleted : Deleted heap written addr itsPart parent front.last back.head)
    {x : Nat} (outside : x ∉ (front.append (itsPart.node addr back)).addresses)
    (notParent : parent ≠ some x) : written.cell x = heap.cell x := by
  rw [append_addresses, List.mem_append, not_or] at outside
  obtain ⟨notFront, notNode⟩ := outside
  have notAddr : x ≠ addr := fun same => notNode (same ▸ List.mem_cons_self)
  have notPart : x ∉ itsPart.addresses := fun inside =>
    notNode (List.mem_cons_of_mem _ (List.mem_append_left _ inside))
  have notBack : x ∉ back.addresses := fun inside =>
    notNode (List.mem_cons_of_mem _ (List.mem_append_right _ inside))
  rw [deleted.others x notPart notAddr]
  cases heap.cell x with
  | none => rfl
  | some record =>
      rw [Option.map_some, unlinked_elsewhere record
        (fun reached => notFront (tops_inside front x (last_inside reached)))
        (fun reached => notBack (tops_inside back x (head_inside reached))) notParent]

theorem without_ends (distinct : (front.append (itsPart.node addr back)).addresses.Nodup) :
    (if (front.append (itsPart.node addr back)).head = some addr then back.head
      else (front.append (itsPart.node addr back)).head) = (front.append back).head ∧
    (if (front.append (itsPart.node addr back)).last = some addr then front.last
      else (front.append (itsPart.node addr back)).last) = (front.append back).last := by
  rw [append_addresses] at distinct
  obtain ⟨_, nodeDistinct, split⟩ := List.nodup_append.mp distinct
  have backApart := (part_distinct nodeDistinct).2.2.1
  have itsHead : (itsPart.node addr back).head = some addr := rfl
  have itsLast : (itsPart.node addr back).last = back.last.or (some addr) := rfl
  rw [append_head, append_last, append_head, append_last, itsHead, itsLast]
  constructor
  · cases first : front.head with
    | none => rw [Option.none_or, Option.none_or, if_pos rfl]
    | some x =>
        have differ : ¬ some x = some addr := fun same =>
          split x (tops_inside front x (head_inside first)) addr List.mem_cons_self
            (Option.some.inj same)
        rw [Option.some_or, Option.some_or, if_neg differ]
  · cases final : back.last with
    | none => rw [Option.none_or, Option.none_or, Option.some_or, if_pos rfl]
    | some x =>
        have differ : ¬ some x = some addr := fun same =>
          backApart (Option.some.inj same ▸ tops_inside back x (last_inside final))
        simp only [Option.some_or]
        exact if_neg differ

theorem attr_del_absent (represents : Represents heap forest)
    (found : nodeAt forest owner = some part) {attrName : List Byte}
    (absent : part.attribs.firstNamed attrName = none) :
    xmlAttrDel heap (some owner) attrName = some heap ∧
      Represents heap (editNode forest owner (Part.dropAttrib attrName)) := by
  obtain ⟨parent, prev, next, here, attribsHold, childHolds⟩ := node_holds represents found
  obtain ⟨partDistinct, _⟩ := node_apart represents found
  have few : part.attribs.addresses.length < enough heap := by
    have bound := length_le_top (List.nodup_append.mp partDistinct).1 (holds_live attribsHold)
    rw [enough]
    omega
  have loop := del_attr_first attrName attribsHold few
  rw [absent] at loop
  have same : part.dropAttrib attrName = part := by rw [Part.dropAttrib, absent]
  constructor
  · simp only [xmlAttrDel, here, Option.bind_eq_bind, Option.bind_some]
    exact loop
  · apply represents_edit represents found
    · rw [same]
      exact ⟨fun _ _ _ held => held, attribsHold, childHolds⟩
    · exact fun x _ _ _ => rfl
    · rwa [same]
    · rw [same]
      exact fun x inside => Or.inl inside

theorem attr_del_named (represents : Represents heap forest)
    (found : nodeAt forest owner = some part) {attrName : List Byte} {attr : Nat}
    (named : part.attribs.firstNamed attrName = some attr) :
    ∃ (front : Shape) (itsPart : Part) (back : Shape) (written : Heap Xmln),
      part.attribs = front.append (itsPart.node attr back) ∧
      xmlAttrDel heap (some owner) attrName = some written ∧
      Deleted heap written attr itsPart none front.last back.head ∧
      part.dropAttrib attrName = { part with attribs := front.append back } := by
  obtain ⟨parent, prev, next, here, attribsHold, childHolds⟩ := node_holds represents found
  obtain ⟨partDistinct, _⟩ := node_apart represents found
  have attribsDistinct := (List.nodup_append.mp partDistinct).1
  obtain ⟨front, itsPart, back, same, absent⟩ := split_at_top (first_named_inside named)
  have few : part.attribs.addresses.length < enough heap := by
    have bound := length_le_top attribsDistinct (holds_live attribsHold)
    rw [enough]
    omega
  have loop := del_attr_first attrName attribsHold few
  rw [named] at loop
  rw [same] at attribsHold attribsDistinct
  obtain ⟨written, goes, deleted⟩ :=
    chain_node_goes attribsHold attribsDistinct (fun x above => by cases above)
  refine ⟨front, itsPart, back, written, same, ?_, deleted, ?_⟩
  · simp only [xmlAttrDel, here, Option.bind_eq_bind, Option.bind_some]
    exact loop.trans goes
  · rw [Part.dropAttrib, named]
    simp only [same, without_append absent]

theorem attr_del_represents (represents : Represents heap forest)
    (found : nodeAt forest owner = some part) {attrName : List Byte} {attr : Nat}
    (named : part.attribs.firstNamed attrName = some attr)
    (notFirst : part.attribs.head ≠ some attr) (notLast : part.attribs.last ≠ some attr) :
    ∃ written, xmlAttrDel heap (some owner) attrName = some written ∧
      Represents written (editNode forest owner (Part.dropAttrib attrName)) := by
  obtain ⟨front, itsPart, back, written, same, goes, deleted, dropped⟩ :=
    attr_del_named represents found named
  obtain ⟨parent, prev, next, here, attribsHold, childHolds⟩ := node_holds represents found
  obtain ⟨partDistinct, ownerApart⟩ := node_apart represents found
  obtain ⟨attribsDistinct, childDistinct, split⟩ := List.nodup_append.mp partDistinct
  have notAttribs : ∀ x ∉ part.addresses, x ∉ part.attribs.addresses := fun x outside inside =>
    outside (List.mem_append_left _ inside)
  have fewer : (part.dropAttrib attrName).addresses.Sublist part.addresses := by
    rw [Part.dropAttrib, named]
    exact (without_sublist part.attribs attr).append (List.Sublist.refl _)
  have noParent : ∀ x, (none : Option Nat) ≠ some x := fun x same => by cases same
  have ends := without_ends (same ▸ attribsDistinct)
  rw [← same, if_neg notFirst, if_neg notLast] at ends
  rw [same] at attribsHold attribsDistinct notAttribs split
  refine ⟨written, goes, ?_⟩
  apply represents_edit represents found
  · rw [dropped]
    refine ⟨?_, holds_unlinked attribsHold attribsDistinct (fun x above => by cases above) deleted,
      ?_⟩
    · intro itsParent itsPrev itsNext held
      rw [deleted_kept deleted (notAttribs owner ownerApart) (noParent owner), held]
      simp only [linked, ← ends]
    · apply holds_frame _ childHolds
      intro x inside
      exact deleted_kept deleted (fun also => split x also x inside rfl) (noParent x)
  · exact fun x _ _ outside => deleted_kept deleted (notAttribs x outside) (noParent x)
  · exact partDistinct.sublist fewer
  · exact fun x inside => Or.inl (fewer.mem inside)

theorem root_del_represents (represents : Represents heap forest) {tree : Shape}
    (root : treeAt forest addr = some tree) :
    ∃ written, xmlNodeDel heap (some addr) = some written ∧
      Represents written ((otherTrees forest addr).map (Shape.remove addr)) := by
  obtain ⟨others, member, head, apart⟩ := represents_other_trees represents root
  have holds := represents.holds tree member
  have distinct := tree_distinct represents.distinct member
  obtain ⟨itsPart, rfl⟩ := tree_node (represents.trees tree member) head
  obtain ⟨written, goes, deleted⟩ := @chain_node_goes heap addr itsPart .null .null none holds
    distinct (fun x above => by cases above)
  refine ⟨written, goes, ?_⟩
  have same : (otherTrees forest addr).map (Shape.remove addr) = otherTrees forest addr := by
    have unchanged : ∀ other ∈ otherTrees forest addr, other.remove addr = other :=
      fun other among => remove_absent fun inside =>
        apart addr List.mem_cons_self (of_tree among inside)
    rw [List.map_congr_left unchanged, List.map_id']
  rw [same]
  refine ⟨others.trees, ?_, others.distinct⟩
  intro other among
  apply holds_frame _ (others.holds other among)
  intro x inside
  exact deleted_kept deleted (fun also => apart x also (of_tree among inside))
    (fun above => by cases above)

/-- An element that is no root is a child of an element of its tree. -/
theorem node_of_child (represents : Represents heap forest)
    (found : nodeAt forest addr = some itsPart) (notRoot : treeAt forest addr = none) :
    ∃ owner above, nodeAt forest owner = some above ∧ addr ∈ above.fChild.tops ∧
      (otherTrees forest addr).map (Shape.remove addr) =
        editNode forest owner (Part.dropChild addr) := by
  obtain ⟨tree, member, here⟩ := node_in_tree found
  have noHead : ∀ other ∈ forest, other.head ≠ some addr := by
    rw [treeAt, List.find?_eq_none] at notRoot
    exact fun other among head => notRoot other among (decide_eq_true head)
  have distinct := tree_distinct represents.distinct member
  have notTop : addr ∉ tree.tops := by
    intro top
    have alone := represents.trees tree member
    cases tree with
    | null => cases top
    | node first name data attribs fChild next =>
        cases next with
        | null =>
            rw [Shape.tops, Shape.tops, List.mem_singleton] at top
            exact noHead _ member (congrArg some top.symm)
        | node _ _ _ _ _ _ => exact alone.elim
  obtain ⟨owner, above, foundOwner, inside, same⟩ := remove_below distinct here notTop
  have all : otherTrees forest addr = forest := by
    rw [otherTrees, List.filter_eq_self]
    exact fun other among => decide_eq_true (noHead other among)
  refine ⟨owner, above, node_at_of_tree represents.distinct member foundOwner, inside, ?_⟩
  rw [all, editNode]
  apply List.map_congr_left
  intro other among
  by_cases itself : tree = other
  · rw [← itself, same]
  · have apart := trees_apart represents.distinct member among itself
    rw [remove_absent (apart addr (lookup_inside here)),
      edit_absent (apart owner (lookup_inside foundOwner))]

theorem child_del_represents (represents : Represents heap forest)
    (found : nodeAt forest addr = some itsPart) (notRoot : treeAt forest addr = none) :
    ∃ written, xmlNodeDel heap (some addr) = some written ∧
      Represents written ((otherTrees forest addr).map (Shape.remove addr)) := by
  obtain ⟨owner, above, foundOwner, inside, same⟩ := node_of_child represents found notRoot
  obtain ⟨parent, prev, next, here, attribsHold, childHolds⟩ := node_holds represents foundOwner
  obtain ⟨partDistinct, ownerApart⟩ := node_apart represents foundOwner
  obtain ⟨attribsDistinct, childDistinct, split⟩ := List.nodup_append.mp partDistinct
  obtain ⟨front, gonePart, back, chain, absent⟩ := split_at_top inside
  have notChild : ∀ x ∉ above.addresses, x ∉ above.fChild.addresses := fun x outside also =>
    outside (List.mem_append_right _ also)
  have fewer : (above.dropChild addr).addresses.Sublist above.addresses :=
    (List.Sublist.refl _).append (without_sublist above.fChild addr)
  have dropped : above.dropChild addr = { above with fChild := front.append back } := by
    rw [Part.dropChild]
    simp only [chain, without_append absent]
  rw [chain] at childHolds childDistinct notChild split
  have outside := notChild owner ownerApart
  obtain ⟨written, goes, deleted⟩ := chain_node_goes childHolds childDistinct (by
    rintro x upper
    obtain rfl := Option.some.inj upper
    exact ⟨by rw [here, Option.isSome_some], outside⟩)
  have ends := without_ends childDistinct
  refine ⟨written, goes, ?_⟩
  rw [same]
  apply represents_edit represents foundOwner
  · rw [dropped]
    refine ⟨?_, ?_, holds_unlinked childHolds childDistinct ?_ deleted⟩
    · intro itsParent itsPrev itsNext held
      rw [append_addresses, List.mem_append, not_or] at outside
      obtain ⟨notAddr, notGone, notBack⟩ := node_absent.mp outside.2
      have notLast : front.last ≠ some owner := fun reached =>
        outside.1 (tops_inside front owner (last_inside reached))
      have notHead : back.head ≠ some owner := fun reached =>
        notBack (tops_inside back owner (head_inside reached))
      rw [deleted.others owner notGone notAddr, held, Option.map_some,
        unlinked_above _ notLast notHead rfl]
      simp only [linked, ← ends, ← chain]
      rfl
    · apply holds_frame _ attribsHold
      intro x attrib
      apply deleted_kept deleted (fun also => split x attrib x also rfl)
      intro upper
      exact ownerApart (Option.some.inj upper ▸ List.mem_append_left _ attrib)
    · intro x upper
      obtain rfl := Option.some.inj upper
      exact outside
  · intro x _ notOwner far
    exact deleted_kept deleted (notChild x far) fun upper => notOwner (Option.some.inj upper).symm
  · exact partDistinct.sublist fewer
  · exact fun x also => Or.inl (fewer.mem also)

end Deleting

end Gk7102.XmlLinks
