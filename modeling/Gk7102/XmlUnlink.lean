import Gk7102.XmlForest

/-!
# What the edits write

For each of the functions on linked nodes: that it comes to an end, and which records it
writes how.
-/

namespace Gk7102.XmlLinks

open Gk7102.ByteBlocks RecordHeap

set_option autoImplicit false

section Adding

variable {heap : Heap Xmln} {owner newNode : Nat} {above record : Xmln} {chain : Shape}

/-- A list that gets a node behind its last one: what the owner, the node and the last node
hold, and that nothing else is written. -/
structure Appended (heap written : Heap Xmln) (owner newNode : Nat) (above record : Xmln)
    (chain : Shape) : Prop where
  atOwner : written.cell owner = some above
  atNode : written.cell newNode = some record
  atLast : ∀ x held, chain.last = some x → heap.cell x = some held →
    written.cell x = some { held with next := some newNode }
  others : ∀ x, x ≠ owner → x ≠ newNode → chain.last ≠ some x → written.cell x = heap.cell x

/-- The chain that is appended to, and that the three places written to are apart. -/
structure Appendable (heap : Heap Xmln) (owner newNode : Nat) (above record : Xmln)
    (chain : Shape) : Prop where
  aboveFound : heap.cell owner = some above
  found : heap.cell newNode = some record
  alone : record.prev = none
  live : ∀ x ∈ chain.tops, (heap.cell x).isSome
  apart : owner ≠ newNode
  ownerApart : owner ∉ chain.tops
  nodeApart : newNode ∉ chain.tops

theorem null_of_head (head : chain.head = none) : chain = .null := by
  cases chain with
  | null => rfl
  | node _ _ _ _ _ _ => cases head

theorem last_of_head {first : Nat} (head : chain.head = some first) :
    ∃ final, chain.last = some final ∧ final ∈ chain.tops := by
  have some_node : chain ≠ .null := by
    rintro rfl
    cases head
  obtain ⟨front, final, part, rfl⟩ := exists_last some_node
  refine ⟨final, by rw [append_last]; rfl, ?_⟩
  rw [append_tops]
  exact List.mem_append_right _ List.mem_cons_self

theorem Appendable.last_node (given : Appendable heap owner newNode above record chain)
    {firstAddr : Nat} (head : chain.head = some firstAddr) :
    ∃ final held, chain.last = some final ∧ heap.cell final = some held ∧ final ≠ owner ∧
      final ≠ newNode := by
  obtain ⟨final, reached, inside⟩ := last_of_head head
  obtain ⟨held, found⟩ := Option.isSome_iff_exists.mp (given.live final inside)
  exact ⟨final, held, reached, found, fun same => given.ownerApart (same ▸ inside),
    fun same => given.nodeApart (same ▸ inside)⟩

theorem add_child_cells (given : Appendable heap owner newNode above record chain)
    (first : above.fChild = chain.head) (last : above.lChild = chain.last) :
    ∃ written, addChild heap owner newNode = some written ∧
      Appended heap written owner newNode
        { above with fChild := chain.head.or (some newNode), lChild := some newNode }
        { record with parent := some owner, prev := chain.last } chain := by
  obtain ⟨adopted, adopts, adoptedCells⟩ :=
    Heap.modify_cell given.found fun node => { node with parent := some owner }
  have aboveKept : adopted.cell owner = some above := by
    rw [adoptedCells, if_neg given.apart, given.aboveFound]
  simp only [addChild, Option.bind_eq_bind, adopts, Option.bind_some, aboveKept]
  cases head : chain.head with
  | none =>
      have empty := null_of_head head
      obtain ⟨written, writes, cells⟩ := Heap.modify_cell aboveKept fun node =>
        { node with fChild := some newNode, lChild := some newNode }
      rw [if_pos (first.trans head)]
      refine ⟨written, writes, ?_, ?_, ?_, ?_⟩
      · rw [cells, if_pos rfl]
        rfl
      · rw [cells, if_neg given.apart.symm, adoptedCells, if_pos rfl, empty, Shape.last,
          ← given.alone]
      · intro x held reached
        rw [empty] at reached
        cases reached
      · intro x notOwner notNode _
        rw [cells, if_neg notOwner, adoptedCells, if_neg notNode]
  | some firstAddr =>
      obtain ⟨final, held, reached, finalFound, finalOwner, finalNode⟩ := given.last_node head
      have finalKept : adopted.cell final = some held := by
        rw [adoptedCells, if_neg finalNode, finalFound]
      obtain ⟨behind, behinds, behindCells⟩ :=
        Heap.modify_cell finalKept fun node => { node with next := some newNode }
      have nodeKept : behind.cell newNode = some { record with parent := some owner } := by
        rw [behindCells, if_neg finalNode.symm, adoptedCells, if_pos rfl]
      obtain ⟨before, befores, beforeCells⟩ :=
        Heap.modify_cell nodeKept fun node => { node with prev := some final }
      have ownerKept : before.cell owner = some above := by
        rw [beforeCells, if_neg given.apart, behindCells, if_neg finalOwner.symm, aboveKept]
      obtain ⟨written, writes, cells⟩ :=
        Heap.modify_cell ownerKept fun node => { node with lChild := some newNode }
      rw [if_neg (by rw [first, head]; exact Option.some_ne_none firstAddr), last, reached]
      simp only [Option.bind_some, behinds, befores, writes]
      refine ⟨written, rfl, ?_, ?_, ?_, ?_⟩
      · rw [cells, if_pos rfl, Option.some_or, ← head, ← first]
      · rw [cells, if_neg given.apart.symm, beforeCells, if_pos rfl]
      · intro x itsRecord same found
        obtain rfl := Option.some.inj (reached.symm.trans same)
        obtain rfl := Option.some.inj (finalFound.symm.trans found)
        rw [cells, if_neg finalOwner, beforeCells, if_neg finalNode, behindCells, if_pos rfl]
      · intro x notOwner notNode notLast
        have notFinal : x ≠ final := by
          rintro rfl
          exact notLast reached
        rw [cells, if_neg notOwner, beforeCells, if_neg notNode, behindCells, if_neg notFinal,
          adoptedCells, if_neg notNode]

theorem attr_add_cells (allocator : Allocator Xmln) {before : Heap Xmln}
    {attrName attrData : List Byte} (new : newNode = allocator.malloc before)
    (itsHeap : heap = before.set newNode (some (blank attrName (some attrData))))
    (given : Appendable heap owner newNode above record chain)
    (first : above.fAttrib = chain.head) (last : above.lAttrib = chain.last) :
    ∃ written,
      xmlAttrAdd allocator before (some owner) attrName attrData = some (written, some newNode) ∧
      Appended heap written owner newNode
        { above with fAttrib := chain.head.or (some newNode), lAttrib := some newNode }
        { record with prev := chain.last } chain := by
  simp only [xmlAttrAdd, ← new, ← itsHeap, given.aboveFound, Option.bind_eq_bind,
    Option.bind_some, Option.pure_def]
  cases head : chain.head with
  | none =>
      have empty := null_of_head head
      obtain ⟨written, writes, cells⟩ := Heap.modify_cell given.aboveFound fun node =>
        { node with fAttrib := some newNode, lAttrib := some newNode }
      rw [if_pos (first.trans head), writes]
      refine ⟨written, rfl, ?_, ?_, ?_, ?_⟩
      · rw [cells, if_pos rfl]
        rfl
      · rw [cells, if_neg given.apart.symm, given.found, empty, Shape.last, ← given.alone]
      · intro x held reached
        rw [empty] at reached
        cases reached
      · intro x notOwner _ _
        rw [cells, if_neg notOwner]
  | some firstAddr =>
      obtain ⟨final, held, reached, finalFound, finalOwner, finalNode⟩ := given.last_node head
      obtain ⟨before, befores, beforeCells⟩ :=
        Heap.modify_cell given.found fun node => { node with prev := some final }
      have finalKept : before.cell final = some held := by
        rw [beforeCells, if_neg finalNode, finalFound]
      obtain ⟨behind, behinds, behindCells⟩ :=
        Heap.modify_cell finalKept fun node => { node with next := some newNode }
      have ownerKept : behind.cell owner = some above := by
        rw [behindCells, if_neg finalOwner.symm, beforeCells, if_neg given.apart,
          given.aboveFound]
      obtain ⟨written, writes, cells⟩ :=
        Heap.modify_cell ownerKept fun node => { node with lAttrib := some newNode }
      rw [if_neg (by rw [first, head]; exact Option.some_ne_none firstAddr), last, reached]
      simp only [Option.bind_some, befores, behinds, writes]
      refine ⟨written, rfl, ?_, ?_, ?_, ?_⟩
      · rw [cells, if_pos rfl, Option.some_or, ← head, ← first]
      · rw [cells, if_neg given.apart.symm, behindCells, if_neg finalNode.symm, beforeCells,
          if_pos rfl]
      · intro x itsRecord same found
        obtain rfl := Option.some.inj (reached.symm.trans same)
        obtain rfl := Option.some.inj (finalFound.symm.trans found)
        rw [cells, if_neg finalOwner, behindCells, if_pos rfl]
      · intro x notOwner notNode notLast
        have notFinal : x ≠ final := by
          rintro rfl
          exact notLast reached
        rw [cells, if_neg notOwner, behindCells, if_neg notFinal, beforeCells, if_neg notNode]

end Adding

section Removing

variable {heap : Heap Xmln}

def unlinked (rootNode : Nat) (node : Xmln) (x : Nat) (record : Xmln) : Xmln :=
  let before := if node.prev = some x then { record with next := node.next } else record
  let behind := if node.next = some x then { before with prev := node.prev } else before
  if node.parent = some x then forget rootNode node behind else behind

theorem unlinked_elsewhere {rootNode x : Nat} {node : Xmln} (record : Xmln)
    (notPrev : node.prev ≠ some x) (notNext : node.next ≠ some x)
    (notParent : node.parent ≠ some x) : unlinked rootNode node x record = record := by
  simp only [unlinked, if_neg notPrev, if_neg notNext, if_neg notParent]

theorem unlinked_before {rootNode x : Nat} {node : Xmln} (record : Xmln)
    (isPrev : node.prev = some x) (notNext : node.next ≠ some x)
    (notParent : node.parent ≠ some x) :
    unlinked rootNode node x record = { record with next := node.next } := by
  simp only [unlinked, if_pos isPrev, if_neg notNext, if_neg notParent]

theorem unlinked_behind {rootNode x : Nat} {node : Xmln} (record : Xmln)
    (notPrev : node.prev ≠ some x) (isNext : node.next = some x)
    (notParent : node.parent ≠ some x) :
    unlinked rootNode node x record = { record with prev := node.prev } := by
  simp only [unlinked, if_neg notPrev, if_pos isNext, if_neg notParent]

theorem unlinked_above {rootNode x : Nat} {node : Xmln} (record : Xmln)
    (notPrev : node.prev ≠ some x) (notNext : node.next ≠ some x)
    (isParent : node.parent = some x) :
    unlinked rootNode node x record = forget rootNode node record := by
  simp only [unlinked, if_neg notPrev, if_neg notNext, if_pos isParent]

theorem unlinked_cell {rootNode x : Nat} {node : Xmln} (record : Option Xmln)
    (notPrev : node.prev ≠ some x) (notNext : node.next ≠ some x)
    (notParent : node.parent ≠ some x) : record.map (unlinked rootNode node x) = record := by
  cases record with
  | none => rfl
  | some record => rw [Option.map_some, unlinked_elsewhere record notPrev notNext notParent]

section Neighbours

variable {before after : Nat → Option Xmln} {parent prev next : Option Nat} {chain : Shape}
  {rootNode : Nat} {node : Xmln}

theorem front_unlinked (holds : Holds before parent prev next chain)
    (distinct : chain.addresses.Nodup)
    (cells : ∀ x ∈ chain.addresses, after x = (before x).map (unlinked rootNode node x))
    (last : node.prev = chain.last)
    (apart : ∀ x ∈ chain.addresses, node.next ≠ some x ∧ node.parent ≠ some x) :
    Holds after parent prev node.next chain := by
  apply holds_with_after holds distinct
  · intro x inside notLast
    rw [cells x inside, unlinked_cell _ (last ▸ notLast) (apart x inside).1 (apart x inside).2]
  · intro x record reached itsRecord
    have inside := tops_inside chain x (last_inside reached)
    rw [cells x inside, itsRecord, Option.map_some,
      unlinked_before record (last.trans reached) (apart x inside).1 (apart x inside).2]

theorem behind_unlinked (holds : Holds before parent prev next chain)
    (distinct : chain.addresses.Nodup)
    (cells : ∀ x ∈ chain.addresses, after x = (before x).map (unlinked rootNode node x))
    (head : node.next = chain.head)
    (apart : ∀ x ∈ chain.addresses, node.prev ≠ some x ∧ node.parent ≠ some x) :
    Holds after parent node.prev next chain := by
  apply holds_with_prev holds distinct
  · intro x inside notHead
    rw [cells x inside, unlinked_cell _ (apart x inside).1 (head ▸ notHead) (apart x inside).2]
  · intro x record reached itsRecord
    have inside := tops_inside chain x (head_inside reached)
    rw [cells x inside, itsRecord, Option.map_some,
      unlinked_behind record (apart x inside).1 (head.trans reached) (apart x inside).2]

end Neighbours

theorem unlink_node_cells {rootNode : Nat} {node : Xmln}
    (found : heap.cell rootNode = some node) (before : heap.Live node.prev)
    (behind : heap.Live node.next) (above : heap.Live node.parent) :
    ∃ written, unlinkNode heap rootNode = some written ∧
      ∀ x, written.cell x =
        if x = rootNode then none else (heap.cell x).map (unlinked rootNode node x) := by
  obtain ⟨one, ones, oneCells⟩ := Heap.modify_at_cell before
    fun record => { record with next := node.next }
  obtain ⟨two, twos, twoCells⟩ := Heap.modify_at_cell (Heap.live_of_map oneCells behind)
    fun record => { record with prev := node.prev }
  obtain ⟨three, threes, threeCells⟩ :=
    Heap.modify_at_cell (Heap.live_of_map twoCells (Heap.live_of_map oneCells above))
      (forget rootNode node)
  have composed : ∀ x, three.cell x = (heap.cell x).map (unlinked rootNode node x) := by
    intro x
    rw [threeCells, twoCells, oneCells, Option.map_map, Option.map_map]
    rfl
  have kept : three.cell rootNode = some (unlinked rootNode node rootNode node) := by
    rw [composed, found]
    rfl
  obtain ⟨written, frees, cells⟩ := Heap.free_cell kept
  refine ⟨written, ?_, ?_⟩
  · simp only [unlinkNode, found, Option.bind_eq_bind, Option.bind_some, ones, twos, threes, frees]
  · intro x
    rw [cells, composed]

theorem free_attribs_cells {chain : Shape} {parent prev : Option Nat} {fuel : Nat}
    (holds : Holds heap.cell parent prev none chain) (distinct : chain.addresses.Nodup)
    (enough : chain.addresses.length < fuel) :
    ∃ written, freeAttribs fuel heap chain.head = some written ∧
      ∀ x, x ∉ chain.addresses → written.cell x = heap.cell x := by
  induction chain generalizing heap prev fuel with
  | null =>
      obtain ⟨less, rfl⟩ := Nat.exists_eq_add_one_of_ne_zero (by omega : fuel ≠ 0)
      exact ⟨heap, rfl, fun _ _ => rfl⟩
  | node addr name data attribs fChild next _ _ ih =>
      obtain ⟨less, rfl⟩ := Nat.exists_eq_add_one_of_ne_zero (by omega : fuel ≠ 0)
      obtain ⟨here, _, _, nextHolds⟩ := holds
      obtain ⟨apart, _, _, nextDistinct, _, _⟩ := distinct_parts distinct
      simp only [List.mem_append, not_or] at apart
      obtain ⟨freed, frees, freedCells⟩ := Heap.free_cell here
      have nextKept : Holds freed.cell parent (some addr) none next := by
        apply holds_frame _ nextHolds
        intro x inside
        rw [freedCells, if_neg]
        rintro rfl
        exact apart.2 inside
      have room : next.addresses.length < less := by
        simp only [Shape.addresses, List.length_cons, List.length_append] at enough
        omega
      obtain ⟨written, writes, cells⟩ := ih nextKept nextDistinct room
      refine ⟨written, ?_, ?_⟩
      · change freeAttribs (less + 1) heap (some addr) = some written
        simp only [freeAttribs, here, Option.bind_eq_bind, Option.bind_some, frees, linked,
          Option.or_none, writes]
      · intro x outside
        simp only [Shape.addresses, List.mem_cons, List.mem_append, not_or] at outside
        rw [cells x outside.2.2, freedCells, if_neg outside.1]

def childless (node : Xmln) : Xmln := { node with fChild := none, lChild := none }

def ChildrenGo (children : Shape) : Prop :=
  ∀ (heap : Heap Xmln) (owner : Nat) (node : Xmln) (fuel : Nat),
    Holds heap.cell (some owner) none none children → children.addresses.Nodup →
    owner ∉ children.addresses → heap.cell owner = some node → node.fChild = children.head →
    node.lChild = children.last → 2 * children.addresses.length < fuel →
    ∃ written, delChildren fuel heap children.head = some written ∧
      written.cell owner = some (childless node) ∧
      ∀ x, x ∉ children.addresses → x ≠ owner → written.cell x = heap.cell x

theorem del_node_inside {part : Part} (children : ChildrenGo part.fChild) {addr fuel : Nat}
    {parent prev next : Option Nat} (distinct : part.addresses.Nodup)
    (apart : addr ∉ part.addresses) (found : heap.cell addr = some (linked part parent prev next))
    (attribsHold : Holds heap.cell none none none part.attribs)
    (childHolds : Holds heap.cell (some addr) none none part.fChild)
    (enough : 2 * part.addresses.length + 1 < fuel) :
    ∃ inner : Heap Xmln, delNode fuel heap addr = unlinkNode inner addr ∧
      inner.cell addr = some (childless (linked part parent prev next)) ∧
      ∀ x, x ∉ part.addresses → x ≠ addr → inner.cell x = heap.cell x := by
  obtain ⟨less, rfl⟩ := Nat.exists_eq_add_one_of_ne_zero (by omega : fuel ≠ 0)
  rw [Part.addresses, List.mem_append, not_or] at apart
  rw [Part.addresses, List.length_append] at enough
  obtain ⟨attribsDistinct, childDistinct, parted⟩ := List.nodup_append.mp distinct
  obtain ⟨freed, frees, freedCells⟩ :=
    free_attribs_cells attribsHold attribsDistinct (by omega : _ < less)
  have childKept : Holds freed.cell (some addr) none none part.fChild := by
    apply holds_frame _ childHolds
    exact fun x inside => freedCells x fun also => parted x also x inside rfl
  have nodeKept := (freedCells addr apart.1).trans found
  obtain ⟨inner, goes, itself, others⟩ :=
    children freed addr _ less childKept childDistinct apart.2 nodeKept rfl rfl (by omega)
  refine ⟨inner, ?_, itself, ?_⟩
  · simp only [delNode, found, Option.bind_eq_bind, Option.bind_some]
    simp only [linked] at frees goes ⊢
    rw [frees, Option.bind_some, goes, Option.bind_some]
  · intro x outside differ
    rw [Part.addresses, List.mem_append, not_or] at outside
    rw [others x outside.2 differ, freedCells x outside.1]

theorem part_distinct {part : Part} {addr : Nat} {next : Shape}
    (distinct : (part.node addr next).addresses.Nodup) :
    part.addresses.Nodup ∧ addr ∉ part.addresses ∧ addr ∉ next.addresses ∧
      ∀ x ∈ next.addresses, x ∉ part.addresses := by
  obtain ⟨apart, rest⟩ := List.nodup_cons.mp distinct
  obtain ⟨front, _, split⟩ := List.nodup_append.mp rest
  have absent : addr ∉ part.addresses ∧ addr ∉ next.addresses := by
    rwa [← not_or, ← List.mem_append]
  exact ⟨front, absent.1, absent.2, fun x inside also => split x also x inside rfl⟩

theorem node_absent {part : Part} {addr x : Nat} {next : Shape} :
    x ∉ (part.node addr next).addresses ↔
      x ≠ addr ∧ x ∉ part.addresses ∧ x ∉ next.addresses := by
  rw [← not_or, ← List.mem_append, ← List.mem_cons.not.trans not_or]
  rfl

theorem first_child_goes {part : Part} {next : Shape} (children : ChildrenGo part.fChild)
    {heap : Heap Xmln} {owner addr less : Nat} {node : Xmln}
    (holds : Holds heap.cell (some owner) none none (part.node addr next))
    (distinct : (part.node addr next).addresses.Nodup)
    (outside : owner ∉ (part.node addr next).addresses) (found : heap.cell owner = some node)
    (first : node.fChild = some addr) (last : node.lChild = next.last.or (some addr))
    (enough : 2 * part.addresses.length + 1 < less) :
    ∃ written, delNode less heap addr = some written ∧
      written.cell owner = some { node with fChild := next.head, lChild := next.last } ∧
      Holds written.cell (some owner) none none next ∧
      ∀ x, x ∉ (part.node addr next).addresses → x ≠ owner → written.cell x = heap.cell x := by
  obtain ⟨here, attribsHold, childHolds, nextHolds⟩ := holds
  obtain ⟨partDistinct, partApart, nextApart, behind⟩ := part_distinct distinct
  have nextDistinct := (distinct_parts distinct).2.2.2.1
  have outsideParts := node_absent.mp outside
  rw [Option.or_none] at here
  obtain ⟨inner, goes, itself, others⟩ := del_node_inside children partDistinct partApart here
    attribsHold childHolds enough
  have nextKept : ∀ x ∈ next.addresses, inner.cell x = heap.cell x := by
    intro x inside
    apply others x (behind x inside)
    rintro rfl
    exact nextApart inside
  have ownerKept := (others owner outsideParts.2.1 outsideParts.1).trans found
  have nextLive : inner.Live next.head := by
    intro x reached
    have inside := tops_inside next x (head_inside reached)
    rw [nextKept x inside]
    exact holds_live nextHolds x inside
  have ownerLive : inner.Live (some owner) := by
    intro x same
    rw [← Option.some.inj same, ownerKept, Option.isSome_some]
  obtain ⟨written, unlinks, cells⟩ :=
    unlink_node_cells itself (fun x none => by cases none) nextLive ownerLive
  have headInside : ∀ x, next.head = some x → x ∈ next.addresses := fun x reached =>
    tops_inside next x (head_inside reached)
  have notPrev : ∀ x, (none : Option Nat) ≠ some x := fun x same => by cases same
  refine ⟨written, goes.trans unlinks, ?_, ?_, ?_⟩
  · have notNext : next.head ≠ some owner := fun reached =>
      outsideParts.2.2 (headInside owner reached)
    rw [cells, if_neg outsideParts.1, ownerKept, Option.map_some,
      unlinked_above node (notPrev owner) notNext rfl, forget, if_pos first]
    cases final : next.last with
    | none =>
        rw [final, Option.none_or] at last
        rw [if_pos last]
        rfl
    | some x =>
        rw [final, Option.some_or] at last
        have differ : ¬ some x = some addr := fun same =>
          nextApart (Option.some.inj same ▸ tops_inside next x (last_inside final))
        rw [last, if_neg differ]
        rfl
  · have nextCells : ∀ x ∈ next.addresses, written.cell x = (heap.cell x).map
        (unlinked addr (childless (linked part (some owner) none next.head)) x) := by
      intro x inside
      have notAddr : x ≠ addr := fun same => nextApart (same ▸ inside)
      rw [cells, if_neg notAddr, nextKept x inside]
    have apart : ∀ x ∈ next.addresses, (none : Option Nat) ≠ some x ∧ some owner ≠ some x :=
      fun x inside => ⟨notPrev x, fun same => outsideParts.2.2 (Option.some.inj same ▸ inside)⟩
    exact behind_unlinked nextHolds nextDistinct nextCells rfl apart
  · intro x absent notOwner
    have absentParts := node_absent.mp absent
    have notHead : next.head ≠ some x := fun reached =>
      absentParts.2.2 (headInside x reached)
    have differ : some owner ≠ some x := fun same => notOwner (Option.some.inj same).symm
    rw [cells, if_neg absentParts.1, others x absentParts.2.1 absentParts.1,
      unlinked_cell _ (notPrev x) notHead differ]

theorem children_go (children : Shape) : ChildrenGo children := by
  induction children with
  | null =>
      intro heap owner node fuel _ _ _ found first last enough
      obtain ⟨less, rfl⟩ := Nat.exists_eq_add_one_of_ne_zero (by omega : fuel ≠ 0)
      refine ⟨heap, rfl, ?_, fun _ _ _ => rfl⟩
      rw [found]
      cases node
      simp_all [childless, Shape.head, Shape.last]
  | node addr name data attribs fChild next _ childIh nextIh =>
      intro heap owner node fuel holds distinct outside found first last enough
      obtain ⟨less, rfl⟩ := Nat.exists_eq_add_one_of_ne_zero (by omega : fuel ≠ 0)
      have room : 2 * (Part.addresses ⟨name, data, attribs, fChild⟩).length + 1 < less ∧
          2 * next.addresses.length < less := by
        simp only [Shape.addresses, Part.addresses, List.length_cons,
          List.length_append] at enough ⊢
        omega
      obtain ⟨written, goes, atOwner, nextHolds, others⟩ := @first_child_goes
        ⟨name, data, attribs, fChild⟩ next childIh heap owner addr less node holds distinct outside
        found first last room.1
      have nextOutside : owner ∉ next.addresses := fun inside =>
        outside (List.mem_cons_of_mem _ (List.mem_append_right _ inside))
      obtain ⟨final, rest, atEnd, beyond⟩ := nextIh written owner _ less nextHolds
        (distinct_parts distinct).2.2.2.1 nextOutside atOwner rfl rfl room.2
      refine ⟨final, ?_, atEnd, ?_⟩
      · change delChildren (less + 1) heap (some addr) = some final
        simp only [delChildren, holds.1, Option.bind_eq_bind, Option.bind_some, goes, linked,
          Option.or_none, rest]
      · intro x absent differ
        have absentNext : x ∉ next.addresses := fun inside =>
          absent (List.mem_cons_of_mem _ (List.mem_append_right _ inside))
        rw [beyond x absentNext differ, others x absent differ]

/-- What remains when a node is deleted with all that hangs at it. -/
structure Deleted (heap written : Heap Xmln) (addr : Nat) (part : Part)
    (parent prev next : Option Nat) : Prop where
  gone : written.cell addr = none
  others : ∀ x, x ∉ part.addresses → x ≠ addr → written.cell x =
    (heap.cell x).map (unlinked addr (childless (linked part parent prev next)) x)

theorem del_node_cells {part : Part} {addr fuel : Nat} {parent prev next : Option Nat}
    (distinct : part.addresses.Nodup) (apart : addr ∉ part.addresses)
    (found : heap.cell addr = some (linked part parent prev next))
    (attribsHold : Holds heap.cell none none none part.attribs)
    (childHolds : Holds heap.cell (some addr) none none part.fChild)
    (around : ∀ x, some x ∈ [parent, prev, next] →
      (heap.cell x).isSome ∧ x ∉ part.addresses ∧ x ≠ addr)
    (enough : 2 * part.addresses.length + 1 < fuel) :
    ∃ written, delNode fuel heap addr = some written ∧
      Deleted heap written addr part parent prev next := by
  obtain ⟨inner, goes, itself, others⟩ := del_node_inside (children_go part.fChild) distinct apart
    found attribsHold childHolds enough
  have live (pointer : Option Nat) (near : pointer ∈ [parent, prev, next]) :
      inner.Live pointer := by
    rintro x rfl
    obtain ⟨alive, outside, differ⟩ := around x near
    rwa [others x outside differ]
  obtain ⟨written, unlinks, cells⟩ := unlink_node_cells itself (live prev (by simp))
    (live next (by simp)) (live parent (by simp))
  refine ⟨written, goes.trans unlinks, ?_, ?_⟩
  · rw [cells, if_pos rfl]
  · intro x outside differ
    rw [cells, if_neg differ, others x outside differ]

theorem holds_unlinked {written : Heap Xmln} {part : Part} {addr : Nat} {front back : Shape}
    {parent : Option Nat}
    (holds : Holds heap.cell parent none none (front.append (part.node addr back)))
    (distinct : (front.append (part.node addr back)).addresses.Nodup)
    (above : ∀ x, parent = some x → x ∉ (front.append (part.node addr back)).addresses)
    (deleted : Deleted heap written addr part parent front.last back.head) :
    Holds written.cell parent none none (front.append back) := by
  rw [append_addresses] at distinct above
  obtain ⟨frontHolds, _, _, _, backHolds⟩ := holds_append.mp holds
  obtain ⟨frontDistinct, nodeDistinct, split⟩ := List.nodup_append.mp distinct
  obtain ⟨_, _, addrApart, parted⟩ := part_distinct nodeDistinct
  have backDistinct := (distinct_parts nodeDistinct).2.2.2.1
  have inPart : ∀ x ∈ part.addresses, x ∈ (part.node addr back).addresses := fun x inside =>
    List.mem_cons_of_mem _ (List.mem_append_left _ inside)
  have inBack : ∀ x ∈ back.addresses, x ∈ (part.node addr back).addresses := fun x inside =>
    List.mem_cons_of_mem _ (List.mem_append_right _ inside)
  have headInside : ∀ x, back.head = some x → x ∈ back.addresses := fun x reached =>
    tops_inside back x (head_inside reached)
  have lastInside : ∀ x, front.last = some x → x ∈ front.addresses := fun x reached =>
    tops_inside front x (last_inside reached)
  have frontCells : ∀ x ∈ front.addresses, written.cell x = (heap.cell x).map
      (unlinked addr (childless (linked part parent front.last back.head)) x) := by
    intro x inside
    apply deleted.others x
    · exact fun also => split x inside x (inPart x also) rfl
    · exact fun same => split x inside addr List.mem_cons_self same
  have backCells : ∀ x ∈ back.addresses, written.cell x = (heap.cell x).map
      (unlinked addr (childless (linked part parent front.last back.head)) x) := by
    intro x inside
    apply deleted.others x (parted x inside)
    rintro rfl
    exact addrApart inside
  have frontFar : ∀ x ∈ front.addresses, back.head ≠ some x ∧ parent ≠ some x := fun x inside =>
    ⟨fun reached => split x inside x (inBack x (headInside x reached)) rfl,
      fun same => above x same (List.mem_append_left _ inside)⟩
  have backFar : ∀ x ∈ back.addresses, front.last ≠ some x ∧ parent ≠ some x := fun x inside =>
    ⟨fun reached => split x (lastInside x reached) x (inBack x inside) rfl,
      fun same => above x same (List.mem_append_right _ (inBack x inside))⟩
  apply holds_append.mpr
  constructor
  · rw [Option.or_none]
    exact front_unlinked frontHolds frontDistinct frontCells rfl frontFar
  · rw [Option.or_none]
    exact behind_unlinked backHolds backDistinct backCells rfl backFar

theorem del_attr_first {chain : Shape} {parent prev : Option Nat} {fuel : Nat}
    (attrName : List Byte) (holds : Holds heap.cell parent prev none chain)
    (enough : chain.addresses.length < fuel) :
    delAttr fuel heap attrName chain.head =
      match chain.firstNamed attrName with
      | none => some heap
      | some attr => xmlNodeDel heap (some attr) := by
  induction chain generalizing prev fuel with
  | null =>
      obtain ⟨less, rfl⟩ := Nat.exists_eq_add_one_of_ne_zero (by omega : fuel ≠ 0)
      rfl
  | node addr name data attribs fChild next _ _ ih =>
      obtain ⟨less, rfl⟩ := Nat.exists_eq_add_one_of_ne_zero (by omega : fuel ≠ 0)
      obtain ⟨here, _, _, nextHolds⟩ := holds
      have room : next.addresses.length < less := by
        simp only [Shape.addresses, List.length_cons, List.length_append] at enough
        omega
      change delAttr (less + 1) heap attrName (some addr) = _
      rw [Shape.firstNamed]
      simp only [delAttr, here, Option.bind_eq_bind, Option.bind_some, linked, Option.or_none]
      split
      · rfl
      · exact ih nextHolds room

theorem first_named_inside {chain : Shape} {attrName : List Byte} {attr : Nat}
    (named : chain.firstNamed attrName = some attr) : attr ∈ chain.tops := by
  induction chain with
  | null => cases named
  | node addr name data attribs fChild next _ _ ih =>
      rw [Shape.firstNamed] at named
      split at named
      · obtain rfl := Option.some.inj named
        exact List.mem_cons_self
      · exact List.mem_cons_of_mem _ (ih named)

end Removing

end Gk7102.XmlLinks
