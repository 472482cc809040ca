import Mathlib.Data.List.Perm.Basic
import Gk7102.XmlLinks

/-!
# Chains and trees of linked nodes

The shape that a chain of siblings has with all that hangs at it, and what the records have to
hold for it. Shapes are edited at the node with a given address; where a shape does not have
that address, nothing changes.
-/

namespace Gk7102.XmlLinks

open Gk7102.ByteBlocks RecordHeap

set_option autoImplicit false

/-- A node with its attributes, its children and the siblings behind it. -/
inductive Shape where
  | null
  | node (addr : Nat) (name : List Byte) (data : Option (List Byte))
      (attribs fChild next : Shape)
deriving DecidableEq, Repr

namespace Shape

def head : Shape → Option Nat
  | .null => none
  | .node addr _ _ _ _ _ => some addr

def last : Shape → Option Nat
  | .null => none
  | .node addr _ _ _ _ next => next.last.or (some addr)

def tops : Shape → List Nat
  | .null => []
  | .node addr _ _ _ _ next => addr :: next.tops

/-- All nodes, the attributes included. -/
def addresses : Shape → List Nat
  | .null => []
  | .node addr _ _ attribs fChild next =>
      addr :: (attribs.addresses ++ fChild.addresses ++ next.addresses)

def append : Shape → Shape → Shape
  | .null, back => back
  | .node addr name data attribs fChild next, back =>
      .node addr name data attribs fChild (next.append back)

/-- The chain without one of its nodes. -/
def without (addr : Nat) : Shape → Shape
  | .null => .null
  | .node here name data attribs fChild next =>
      if here = addr then next else .node here name data attribs fChild (next.without addr)

def firstNamed (wanted : List Byte) : Shape → Option Nat
  | .null => none
  | .node addr name _ _ _ next =>
      if Xml.strcasecmpEq name wanted then some addr else next.firstNamed wanted

def IsTree : Shape → Prop
  | .node _ _ _ _ _ .null => True
  | _ => False

end Shape

/-- What hangs at a node. -/
structure Part where
  name : List Byte
  data : Option (List Byte)
  attribs : Shape
  fChild : Shape
deriving DecidableEq, Repr

def Part.node (part : Part) (addr : Nat) (next : Shape) : Shape :=
  .node addr part.name part.data part.attribs part.fChild next

def Part.addresses (part : Part) : List Nat := part.attribs.addresses ++ part.fChild.addresses

/-- The record of a node with these neighbours. -/
def linked (part : Part) (parent prev next : Option Nat) : Xmln where
  name := part.name
  data := part.data
  parent := parent
  fChild := part.fChild.head
  lChild := part.fChild.last
  prev := prev
  next := next
  fAttrib := part.attribs.head
  lAttrib := part.attribs.last

/-- The records of a chain that has `prev` before it and `after` behind it. An attribute has no
parent. -/
def Holds (cell : Nat → Option Xmln) (parent : Option Nat) : Option Nat → Option Nat → Shape → Prop
  | _, _, .null => True
  | prev, after, .node addr name data attribs fChild next =>
      cell addr = some (linked ⟨name, data, attribs, fChild⟩ parent prev (next.head.or after)) ∧
        Holds cell none none none attribs ∧ Holds cell (some addr) none none fChild ∧
        Holds cell parent (some addr) after next

namespace Shape

/-- An element of the chain or below it; attributes are none. -/
def lookup (addr : Nat) : Shape → Option Part
  | .null => none
  | .node here name data attribs fChild next =>
      if here = addr then some ⟨name, data, attribs, fChild⟩
      else (fChild.lookup addr).or (next.lookup addr)

def editAt (addr : Nat) (edit : Part → Part) : Shape → Shape
  | .null => .null
  | .node here name data attribs fChild next =>
      if here = addr then (edit ⟨name, data, attribs, fChild⟩).node here next
      else .node here name data attribs (fChild.editAt addr edit) (next.editAt addr edit)

/-- Without an element and all that hangs at it. -/
def remove (addr : Nat) : Shape → Shape
  | .null => .null
  | .node here name data attribs fChild next =>
      if here = addr then next
      else .node here name data attribs (fChild.remove addr) (next.remove addr)

end Shape

/-! ## Chains -/

section Chains

variable {cell other : Nat → Option Xmln} {parent prev after : Option Nat}

theorem holds_frame {chain : Shape} (same : ∀ x ∈ chain.addresses, other x = cell x)
    (holds : Holds cell parent prev after chain) : Holds other parent prev after chain := by
  induction chain generalizing parent prev after with
  | null => exact trivial
  | node addr name data attribs fChild next attribsIh childIh nextIh =>
      obtain ⟨here, attribsHold, childHolds, nextHolds⟩ := holds
      simp only [Shape.addresses, List.forall_mem_cons, List.forall_mem_append] at same
      exact ⟨same.1.trans here, attribsIh same.2.1.1 attribsHold, childIh same.2.1.2 childHolds,
        nextIh same.2.2 nextHolds⟩

theorem holds_live {chain : Shape} (holds : Holds cell parent prev after chain) :
    ∀ x ∈ chain.addresses, (cell x).isSome := by
  induction chain generalizing parent prev after with
  | null => exact fun x inside => absurd inside List.not_mem_nil
  | node addr name data attribs fChild next attribsIh childIh nextIh =>
      obtain ⟨here, attribsHold, childHolds, nextHolds⟩ := holds
      simp only [Shape.addresses, List.forall_mem_cons, List.forall_mem_append]
      exact ⟨by rw [here, Option.isSome_some], ⟨attribsIh attribsHold, childIh childHolds⟩,
        nextIh nextHolds⟩

theorem append_addresses (front back : Shape) :
    (front.append back).addresses = front.addresses ++ back.addresses := by
  induction front with
  | null => rfl
  | node addr name data attribs fChild next _ _ ih =>
      simp only [Shape.append, Shape.addresses, ih, List.cons_append, List.append_assoc]

theorem append_head (front back : Shape) :
    (front.append back).head = front.head.or back.head := by
  cases front <;> rfl

theorem append_last (front back : Shape) :
    (front.append back).last = back.last.or front.last := by
  induction front with
  | null => simp [Shape.append, Shape.last]
  | node addr name data attribs fChild next _ _ ih =>
      rw [Shape.append, Shape.last, ih, Shape.last, Option.or_assoc]

theorem append_tops (front back : Shape) :
    (front.append back).tops = front.tops ++ back.tops := by
  induction front with
  | null => rfl
  | node addr name data attribs fChild next _ _ ih =>
      rw [Shape.append, Shape.tops, ih, Shape.tops, List.cons_append]

theorem append_null (chain : Shape) : chain.append .null = chain := by
  induction chain with
  | null => rfl
  | node addr name data attribs fChild next _ _ ih => rw [Shape.append, ih]

theorem tops_inside (chain : Shape) : ∀ x ∈ chain.tops, x ∈ chain.addresses := by
  induction chain with
  | null => exact fun x inside => inside
  | node addr name data attribs fChild next _ _ ih =>
      intro x inside
      rcases List.mem_cons.mp inside with rfl | later
      · exact List.mem_cons_self
      · exact List.mem_cons_of_mem _ (List.mem_append_right _ (ih x later))

theorem holds_append {front back : Shape} :
    Holds cell parent prev after (front.append back) ↔
      Holds cell parent prev (back.head.or after) front ∧
        Holds cell parent (front.last.or prev) after back := by
  induction front generalizing prev with
  | null => simp [Shape.append, Holds, Shape.last]
  | node addr name data attribs fChild next _ _ ih =>
      simp only [Shape.append, Holds, ih, append_head, Option.or_assoc, Shape.last, and_assoc,
        Option.some_or]

theorem exists_last {chain : Shape} (some_node : chain ≠ .null) :
    ∃ (front : Shape) (addr : Nat) (part : Part),
      chain = front.append (part.node addr .null) := by
  induction chain with
  | null => exact absurd rfl some_node
  | node addr name data attribs fChild next _ _ ih =>
      by_cases alone : next = .null
      · exact ⟨.null, addr, ⟨name, data, attribs, fChild⟩, by rw [alone]; rfl⟩
      · obtain ⟨front, lastAddr, part, same⟩ := ih alone
        exact ⟨.node addr name data attribs fChild front, lastAddr, part, by rw [same]; rfl⟩

theorem split_at_top {chain : Shape} {addr : Nat} (inside : addr ∈ chain.tops) :
    ∃ (front : Shape) (part : Part) (back : Shape),
      chain = front.append (part.node addr back) ∧ addr ∉ front.tops := by
  induction chain with
  | null => cases inside
  | node here name data attribs fChild next _ _ ih =>
      by_cases first : here = addr
      · exact ⟨.null, ⟨name, data, attribs, fChild⟩, next, by rw [first]; rfl, List.not_mem_nil⟩
      · have later : addr ∈ next.tops := by
          rcases List.mem_cons.mp inside with same | later
          · exact absurd same.symm first
          · exact later
        obtain ⟨front, part, back, same, absent⟩ := ih later
        refine ⟨.node here name data attribs fChild front, part, back, by rw [same]; rfl, ?_⟩
        rw [Shape.tops, List.mem_cons, not_or]
        exact ⟨Ne.symm first, absent⟩

theorem without_append {front back : Shape} {addr : Nat} {part : Part}
    (absent : addr ∉ front.tops) :
    (front.append (part.node addr back)).without addr = front.append back := by
  induction front with
  | null => rw [Shape.append, Part.node, Shape.without, if_pos rfl, Shape.append]
  | node here name data attribs fChild next _ _ ih =>
      rw [Shape.tops, List.mem_cons, not_or] at absent
      rw [Shape.append, Shape.without, if_neg (Ne.symm absent.1), ih absent.2, Shape.append]

theorem without_sublist (chain : Shape) (addr : Nat) :
    (chain.without addr).addresses.Sublist chain.addresses := by
  induction chain with
  | null => exact List.Sublist.refl _
  | node here name data attribs fChild next _ _ ih =>
      rw [Shape.without]
      split
      · exact (List.sublist_append_right _ _).trans (List.sublist_cons_self _ _)
      · exact ((List.Sublist.refl _).append ih).cons_cons here

theorem last_inside {chain : Shape} {addr : Nat} (last : chain.last = some addr) :
    addr ∈ chain.tops := by
  by_cases empty : chain = .null
  · rw [empty] at last
    cases last
  · obtain ⟨front, lastAddr, part, rfl⟩ := exists_last empty
    rw [append_last] at last
    obtain rfl : lastAddr = addr := Option.some.inj last
    rw [append_tops]
    exact List.mem_append_right _ List.mem_cons_self

theorem head_inside {chain : Shape} {addr : Nat} (head : chain.head = some addr) :
    addr ∈ chain.tops := by
  cases chain with
  | null => cases head
  | node here name data attribs fChild next =>
      obtain rfl : here = addr := Option.some.inj head
      exact List.mem_cons_self

theorem holds_with_after {chain : Shape} {newAfter : Option Nat}
    (holds : Holds cell parent prev after chain) (distinct : chain.addresses.Nodup)
    (same : ∀ x ∈ chain.addresses, chain.last ≠ some x → other x = cell x)
    (link : ∀ x record, chain.last = some x → cell x = some record →
      other x = some { record with next := newAfter }) :
    Holds other parent prev newAfter chain := by
  by_cases empty : chain = .null
  · rw [empty]
    exact trivial
  · obtain ⟨front, addr, part, rfl⟩ := exists_last empty
    have last : (front.append (part.node addr .null)).last = some addr := by
      rw [append_last]
      rfl
    rw [append_addresses] at distinct same
    obtain ⟨frontHolds, here, attribsHold, childHolds, _⟩ := holds_append.mp holds
    have apart : ∀ x ∈ front.addresses, x ≠ addr := fun x inside =>
      (List.nodup_append.mp distinct).2.2 x inside addr List.mem_cons_self
    have below := (List.nodup_cons.mp (List.nodup_append.mp distinct).2.1).1
    rw [last] at same link
    have framed : ∀ x ∈ front.addresses ++ (part.node addr .null).addresses, x ≠ addr →
        other x = cell x :=
      fun x inside differ => same x inside fun reached => differ (Option.some.inj reached).symm
    apply holds_append.mpr
    refine ⟨holds_frame (fun x inside => framed x (List.mem_append_left _ inside)
      (apart x inside)) frontHolds, link addr _ rfl here, ?_, ?_, trivial⟩
    · apply holds_frame _ attribsHold
      intro x inside
      have within : x ∈ part.attribs.addresses ++ part.fChild.addresses ++ [] :=
        List.mem_append_left _ (List.mem_append_left _ inside)
      exact framed x (List.mem_append_right _ (List.mem_cons_of_mem _ within))
        (fun reached => below (reached ▸ within))
    · apply holds_frame _ childHolds
      intro x inside
      have within : x ∈ part.attribs.addresses ++ part.fChild.addresses ++ [] :=
        List.mem_append_left _ (List.mem_append_right _ inside)
      exact framed x (List.mem_append_right _ (List.mem_cons_of_mem _ within))
        (fun reached => below (reached ▸ within))

theorem holds_with_prev {chain : Shape} {newPrev : Option Nat}
    (holds : Holds cell parent prev after chain) (distinct : chain.addresses.Nodup)
    (same : ∀ x ∈ chain.addresses, chain.head ≠ some x → other x = cell x)
    (link : ∀ x record, chain.head = some x → cell x = some record →
      other x = some { record with prev := newPrev }) :
    Holds other parent newPrev after chain := by
  cases chain with
  | null => exact trivial
  | node addr name data attribs fChild next =>
      obtain ⟨here, attribsHold, childHolds, nextHolds⟩ := holds
      rw [Shape.addresses, List.nodup_cons] at distinct
      have framed : ∀ x ∈ attribs.addresses ++ fChild.addresses ++ next.addresses,
          other x = cell x := by
        intro x inside
        apply same x (List.mem_cons_of_mem _ inside)
        intro reached
        exact distinct.1 (Option.some.inj reached ▸ inside)
      simp only [List.forall_mem_append] at framed
      exact ⟨link addr _ rfl here, holds_frame framed.1.1 attribsHold,
        holds_frame framed.1.2 childHolds, holds_frame framed.2 nextHolds⟩

end Chains

/-! ## Edits below a node -/

section Edits

variable {cell other : Nat → Option Xmln} {parent prev after : Option Nat} {addr : Nat}
  {part : Part} {edit : Part → Part}

theorem lookup_inside {shape : Shape} (found : shape.lookup addr = some part) :
    addr ∈ shape.addresses := by
  induction shape with
  | null => cases found
  | node here name data attribs fChild next _ childIh nextIh =>
      by_cases same : here = addr
      · rw [same]
        exact List.mem_cons_self
      · rw [Shape.lookup, if_neg same, Option.or_eq_some_iff] at found
        rw [Shape.addresses, List.mem_cons, List.mem_append, List.mem_append]
        rcases found with child | ⟨_, behind⟩
        · exact Or.inr (Or.inl (Or.inr (childIh child)))
        · exact Or.inr (Or.inr (nextIh behind))

theorem edit_absent {shape : Shape} (absent : addr ∉ shape.addresses) :
    shape.editAt addr edit = shape := by
  induction shape with
  | null => rfl
  | node here name data attribs fChild next _ childIh nextIh =>
      simp only [Shape.addresses, List.mem_cons, List.mem_append, not_or] at absent
      rw [Shape.editAt, if_neg (Ne.symm absent.1), childIh absent.2.1.2, nextIh absent.2.2]

theorem edit_head (shape : Shape) : (shape.editAt addr edit).head = shape.head := by
  cases shape with
  | null => rfl
  | node here name data attribs fChild next =>
      rw [Shape.editAt]
      split <;> rfl

theorem edit_last (shape : Shape) : (shape.editAt addr edit).last = shape.last := by
  induction shape with
  | null => rfl
  | node here name data attribs fChild next _ _ ih =>
      rw [Shape.editAt]
      split
      · rfl
      · rw [Shape.last, ih, Shape.last]

theorem edit_is_tree {shape : Shape} (tree : shape.IsTree) : (shape.editAt addr edit).IsTree := by
  cases shape with
  | null => exact tree
  | node here name data attribs fChild next =>
      cases next with
      | null =>
          rw [Shape.editAt]
          split <;> exact trivial
      | node _ _ _ _ _ _ => exact tree.elim

/-- Where a node is, in a shape that has it once: in what is below the first node of the chain,
or behind. -/
theorem distinct_parts {here : Nat} {name : List Byte} {data : Option (List Byte)}
    {attribs fChild next : Shape}
    (distinct : (Shape.node here name data attribs fChild next).addresses.Nodup) :
    here ∉ attribs.addresses ++ fChild.addresses ++ next.addresses ∧
      attribs.addresses.Nodup ∧ fChild.addresses.Nodup ∧ next.addresses.Nodup ∧
      (∀ x ∈ fChild.addresses, x ∉ attribs.addresses) ∧
      ∀ x ∈ next.addresses, x ∉ attribs.addresses ∧ x ∉ fChild.addresses := by
  obtain ⟨apart, rest⟩ := List.nodup_cons.mp distinct
  obtain ⟨front, behind, split⟩ := List.nodup_append.mp rest
  obtain ⟨attribsDistinct, childDistinct, parted⟩ := List.nodup_append.mp front
  refine ⟨apart, attribsDistinct, childDistinct, behind, ?_, ?_⟩
  · exact fun x inside also => parted x also x inside rfl
  · exact fun x inside => ⟨fun also => split x (List.mem_append_left _ also) x inside rfl,
      fun also => split x (List.mem_append_right _ also) x inside rfl⟩

theorem edit_addresses {shape : Shape} (distinct : shape.addresses.Nodup)
    (found : shape.lookup addr = some part) (edit : Part → Part) :
    ∃ others, shape.addresses.Perm (part.addresses ++ others) ∧
      (shape.editAt addr edit).addresses.Perm ((edit part).addresses ++ others) ∧
      addr ∈ others := by
  induction shape with
  | null => cases found
  | node here name data attribs fChild next _ childIh nextIh =>
      obtain ⟨_, _, childDistinct, nextDistinct, _, behind⟩ := distinct_parts distinct
      by_cases same : here = addr
      · rw [Shape.lookup, if_pos same] at found
        obtain rfl := Option.some.inj found
        rw [Shape.editAt, if_pos same]
        exact ⟨here :: next.addresses, List.perm_middle.symm, List.perm_middle.symm,
          same ▸ List.mem_cons_self⟩
      · rw [Shape.lookup, if_neg same, Option.or_eq_some_iff] at found
        rw [Shape.editAt, if_neg same]
        rcases found with child | ⟨_, later⟩
        · have absent : addr ∉ next.addresses := fun also =>
            (behind addr also).2 (lookup_inside child)
          obtain ⟨others, before, now, itself⟩ := childIh childDistinct child
          rw [edit_absent absent]
          refine ⟨here :: (attribs.addresses ++ others ++ next.addresses), ?_, ?_,
            List.mem_cons_of_mem _ (List.mem_append_left _ (List.mem_append_right _ itself))⟩
          · rw [List.perm_iff_count] at before ⊢
            intro x
            have counted := before x
            simp only [Shape.addresses, List.count_cons, List.count_append] at counted ⊢
            omega
          · rw [List.perm_iff_count] at now ⊢
            intro x
            have counted := now x
            simp only [Shape.addresses, List.count_cons, List.count_append] at counted ⊢
            omega
        · have absent : addr ∉ fChild.addresses := fun also =>
            (behind addr (lookup_inside later)).2 also
          obtain ⟨others, before, now, itself⟩ := nextIh nextDistinct later
          rw [edit_absent absent]
          refine ⟨here :: (attribs.addresses ++ fChild.addresses ++ others), ?_, ?_,
            List.mem_cons_of_mem _ (List.mem_append_right _ itself)⟩
          · rw [List.perm_iff_count] at before ⊢
            intro x
            have counted := before x
            simp only [Shape.addresses, List.count_cons, List.count_append] at counted ⊢
            omega
          · rw [List.perm_iff_count] at now ⊢
            intro x
            have counted := now x
            simp only [Shape.addresses, List.count_cons, List.count_append] at counted ⊢
            omega

theorem lookup_part_inside {shape : Shape} (distinct : shape.addresses.Nodup)
    (found : shape.lookup addr = some part) : ∀ x ∈ part.addresses, x ∈ shape.addresses := by
  obtain ⟨others, before, _, _⟩ := edit_addresses distinct found id
  intro x inside
  exact before.mem_iff.mpr (List.mem_append_left _ inside)

theorem lookup_apart {shape : Shape} (distinct : shape.addresses.Nodup)
    (found : shape.lookup addr = some part) : part.addresses.Nodup ∧ addr ∉ part.addresses := by
  obtain ⟨others, before, _, itself⟩ := edit_addresses distinct found id
  obtain ⟨partDistinct, _, split⟩ := List.nodup_append.mp (before.nodup_iff.mp distinct)
  exact ⟨partDistinct, fun inside => split addr inside addr itself rfl⟩

theorem lookup_edit {shape : Shape} (distinct : shape.addresses.Nodup)
    (found : shape.lookup addr = some part) (edit : Part → Part) :
    (shape.editAt addr edit).lookup addr = some (edit part) := by
  induction shape with
  | null => cases found
  | node here name data attribs fChild next _ childIh nextIh =>
      obtain ⟨_, _, childDistinct, nextDistinct, _, behind⟩ := distinct_parts distinct
      by_cases same : here = addr
      · rw [Shape.lookup, if_pos same] at found
        obtain rfl := Option.some.inj found
        rw [Shape.editAt, if_pos same, Part.node, Shape.lookup, if_pos same]
      · rw [Shape.lookup, if_neg same, Option.or_eq_some_iff] at found
        rw [Shape.editAt, if_neg same, Shape.lookup, if_neg same]
        rcases found with child | ⟨absent, later⟩
        · rw [childIh childDistinct child, Option.some_or]
        · have elsewhere := (behind addr (lookup_inside later)).2
          rw [edit_absent elsewhere, absent, Option.none_or, nextIh nextDistinct later]

theorem linked_edit (name : List Byte) (data : Option (List Byte)) (attribs fChild : Shape)
    (parent prev next : Option Nat) :
    linked ⟨name, data, attribs, fChild.editAt addr edit⟩ parent prev next =
      linked ⟨name, data, attribs, fChild⟩ parent prev next := by
  simp only [linked, edit_head, edit_last]

theorem lookup_holds {shape : Shape} (holds : Holds cell parent prev after shape)
    (found : shape.lookup addr = some part) :
    ∃ itsParent itsPrev itsNext, cell addr = some (linked part itsParent itsPrev itsNext) ∧
      Holds cell none none none part.attribs ∧ Holds cell (some addr) none none part.fChild := by
  induction shape generalizing parent prev after with
  | null => cases found
  | node here name data attribs fChild next _ childIh nextIh =>
      obtain ⟨itsRecord, attribsHold, childHolds, nextHolds⟩ := holds
      by_cases same : here = addr
      · rw [Shape.lookup, if_pos same] at found
        obtain rfl := Option.some.inj found
        rw [← same]
        exact ⟨parent, prev, _, itsRecord, attribsHold, childHolds⟩
      · rw [Shape.lookup, if_neg same, Option.or_eq_some_iff] at found
        rcases found with child | ⟨_, later⟩
        · exact childIh childHolds child
        · exact nextIh nextHolds later

/-- What an edit of one node has to bring about: its record holds what now hangs at it, and
the records elsewhere are kept. -/
structure Edited (cell other : Nat → Option Xmln) (addr : Nat) (part edited : Part) : Prop where
  itself : ∀ itsParent itsPrev itsNext,
    cell addr = some (linked part itsParent itsPrev itsNext) →
      other addr = some (linked edited itsParent itsPrev itsNext)
  attribs : Holds other none none none edited.attribs
  fChild : Holds other (some addr) none none edited.fChild

theorem edit_holds {shape : Shape} (holds : Holds cell parent prev after shape)
    (distinct : shape.addresses.Nodup) (found : shape.lookup addr = some part)
    (edited : Edited cell other addr part (edit part))
    (kept : ∀ x ∈ shape.addresses, x ≠ addr → x ∉ part.addresses → other x = cell x) :
    Holds other parent prev after (shape.editAt addr edit) := by
  induction shape generalizing parent prev after with
  | null => exact trivial
  | node here name data attribs fChild next _ childIh nextIh =>
      obtain ⟨itsRecord, attribsHold, childHolds, nextHolds⟩ := holds
      obtain ⟨apart, _, childDistinct, nextDistinct, inner, behind⟩ := distinct_parts distinct
      simp only [List.mem_append, not_or] at apart
      simp only [Shape.addresses, List.forall_mem_cons, List.forall_mem_append] at kept
      obtain ⟨keptHere, ⟨keptAttribs, keptChild⟩, keptNext⟩ := kept
      by_cases same : here = addr
      · rw [Shape.lookup, if_pos same] at found
        obtain rfl := Option.some.inj found
        rw [Shape.editAt, if_pos same]
        subst same
        refine ⟨edited.itself parent prev _ itsRecord, edited.attribs, edited.fChild, ?_⟩
        apply holds_frame _ nextHolds
        intro x inside
        apply keptNext x inside
        · rintro rfl
          exact apart.2 inside
        · rw [Part.addresses, List.mem_append, not_or]
          exact behind x inside
      · rw [Shape.lookup, if_neg same, Option.or_eq_some_iff] at found
        rw [Shape.editAt, if_neg same, Holds, linked_edit, edit_head]
        rcases found with child | ⟨_, later⟩
        · have below := lookup_part_inside childDistinct child
          have itsPlace := lookup_inside child
          have elsewhere : addr ∉ next.addresses := fun also => (behind addr also).2 itsPlace
          rw [edit_absent elsewhere]
          refine ⟨(keptHere same fun also => apart.1.2 (below _ also)).trans itsRecord, ?_,
            childIh childHolds childDistinct child keptChild, ?_⟩
          · apply holds_frame _ attribsHold
            intro x inside
            apply keptAttribs x inside
            · rintro rfl
              exact inner x itsPlace inside
            · exact fun also => inner x (below x also) inside
          · apply holds_frame _ nextHolds
            intro x inside
            apply keptNext x inside
            · rintro rfl
              exact elsewhere inside
            · exact fun also => (behind x inside).2 (below x also)
        · have below := lookup_part_inside nextDistinct later
          have itsPlace := lookup_inside later
          have elsewhere : addr ∉ fChild.addresses := (behind addr itsPlace).2
          rw [edit_absent elsewhere]
          refine ⟨(keptHere same fun also => apart.2 (below _ also)).trans itsRecord, ?_, ?_,
            nextIh nextHolds nextDistinct later keptNext⟩
          · apply holds_frame _ attribsHold
            intro x inside
            apply keptAttribs x inside
            · rintro rfl
              exact (behind x itsPlace).1 inside
            · exact fun also => (behind x (below x also)).1 inside
          · apply holds_frame _ childHolds
            intro x inside
            apply keptChild x inside
            · rintro rfl
              exact elsewhere inside
            · exact fun also => (behind x (below x also)).2 inside

end Edits

/-! ## Removing an element -/

section Removal

variable {addr : Nat} {part : Part}

def Part.dropChild (addr : Nat) (part : Part) : Part :=
  { part with fChild := part.fChild.without addr }

theorem remove_absent {shape : Shape} (absent : addr ∉ shape.addresses) :
    shape.remove addr = shape := by
  induction shape with
  | null => rfl
  | node here name data attribs fChild next _ childIh nextIh =>
      simp only [Shape.addresses, List.mem_cons, List.mem_append, not_or] at absent
      rw [Shape.remove, if_neg (Ne.symm absent.1), childIh absent.2.1.2, nextIh absent.2.2]

theorem remove_top {shape : Shape} (distinct : shape.addresses.Nodup)
    (inside : addr ∈ shape.tops) : shape.remove addr = shape.without addr := by
  induction shape with
  | null => cases inside
  | node here name data attribs fChild next _ _ ih =>
      obtain ⟨_, _, _, nextDistinct, _, behind⟩ := distinct_parts distinct
      rw [Shape.remove, Shape.without]
      split
      · rfl
      · rename_i differ
        have later : addr ∈ next.tops := by
          rcases List.mem_cons.mp inside with same | later
          · exact absurd same.symm differ
          · exact later
        have elsewhere := (behind addr (tops_inside next addr later)).2
        rw [remove_absent elsewhere, ih nextDistinct later]

theorem remove_below {shape : Shape} (distinct : shape.addresses.Nodup)
    (found : shape.lookup addr = some part) (notTop : addr ∉ shape.tops) :
    ∃ owner above, shape.lookup owner = some above ∧ addr ∈ above.fChild.tops ∧
      shape.remove addr = shape.editAt owner (Part.dropChild addr) := by
  induction shape with
  | null => cases found
  | node here name data attribs fChild next _ childIh nextIh =>
      obtain ⟨apart, _, childDistinct, nextDistinct, _, behind⟩ := distinct_parts distinct
      simp only [List.mem_append, not_or] at apart
      rw [Shape.tops, List.mem_cons, not_or] at notTop
      have differ : ¬ here = addr := Ne.symm notTop.1
      rw [Shape.lookup, if_neg differ, Option.or_eq_some_iff] at found
      rw [Shape.remove, if_neg differ]
      rcases found with child | ⟨_, later⟩
      · have elsewhere : addr ∉ next.addresses := fun also =>
          (behind addr also).2 (lookup_inside child)
        rw [remove_absent elsewhere]
        by_cases top : addr ∈ fChild.tops
        · refine ⟨here, ⟨name, data, attribs, fChild⟩, by rw [Shape.lookup, if_pos rfl], top, ?_⟩
          rw [Shape.editAt, if_pos rfl, remove_top childDistinct top]
          rfl
        · obtain ⟨owner, above, foundOwner, inside, same⟩ := childIh childDistinct child top
          have place := lookup_inside foundOwner
          have ownerApart : ¬ here = owner := by
            rintro rfl
            exact apart.1.2 place
          refine ⟨owner, above, ?_, inside, ?_⟩
          · rw [Shape.lookup, if_neg ownerApart, foundOwner, Option.some_or]
          · rw [Shape.editAt, if_neg ownerApart, same,
              edit_absent fun also => (behind owner also).2 place]
      · have elsewhere : addr ∉ fChild.addresses := (behind addr (lookup_inside later)).2
        obtain ⟨owner, above, foundOwner, inside, same⟩ := nextIh nextDistinct later notTop.2
        have place := lookup_inside foundOwner
        have ownerApart : ¬ here = owner := by
          rintro rfl
          exact apart.2 place
        refine ⟨owner, above, ?_, inside, ?_⟩
        · rw [Shape.lookup, if_neg ownerApart]
          cases inChild : fChild.lookup owner with
          | none => rw [Option.none_or, foundOwner]
          | some _ => exact absurd (lookup_inside inChild) (behind owner place).2
        · rw [Shape.editAt, if_neg ownerApart, remove_absent elsewhere, same,
            edit_absent (behind owner place).2]

end Removal

/-! ## Walks along the pointers -/

section Walks

variable {cell : Nat → Option Xmln} {parent prev after : Option Nat}

/-- From a pointer on, a walk meets exactly these nodes and then NULL. -/
def Walk (cell : Nat → Option Xmln) (follow : Xmln → Option Nat) : Option Nat → List Nat → Prop
  | pointer, [] => pointer = none
  | pointer, addr :: rest =>
      pointer = some addr ∧ ∃ record, cell addr = some record ∧ Walk cell follow (follow record) rest

theorem walk_forward {chain : Shape} (holds : Holds cell parent prev none chain) :
    Walk cell Xmln.next chain.head chain.tops := by
  induction chain generalizing prev with
  | null => exact rfl
  | node addr name data attribs fChild next _ _ ih =>
      obtain ⟨here, _, _, nextHolds⟩ := holds
      refine ⟨rfl, _, here, ?_⟩
      have onward := ih nextHolds
      rwa [linked, Option.or_none]

theorem walk_backward {chain : Shape} (holds : Holds cell parent prev after chain)
    (before : List Nat) (walk : Walk cell Xmln.prev prev before) :
    Walk cell Xmln.prev (chain.last.or prev) (chain.tops.reverse ++ before) := by
  induction chain generalizing prev before with
  | null => exact walk
  | node addr name data attribs fChild next _ _ ih =>
      obtain ⟨here, _, _, nextHolds⟩ := holds
      have onward := ih nextHolds (addr :: before) ⟨rfl, _, here, walk⟩
      rwa [Shape.last, Option.or_assoc, Option.some_or, Shape.tops, List.reverse_cons,
        List.append_assoc, List.singleton_append]

theorem holds_parents {chain : Shape} (holds : Holds cell parent prev after chain) :
    ∀ child ∈ chain.tops, ∃ record, cell child = some record ∧ record.parent = parent := by
  induction chain generalizing prev with
  | null => exact fun child inside => absurd inside List.not_mem_nil
  | node addr name data attribs fChild next _ _ ih =>
      obtain ⟨here, _, _, nextHolds⟩ := holds
      rw [Shape.tops, List.forall_mem_cons]
      exact ⟨⟨_, here, rfl⟩, ih nextHolds⟩

/-- Every pointer of a record. -/
def Xmln.pointers (node : Xmln) : List (Option Nat) :=
  [node.parent, node.fChild, node.lChild, node.prev, node.next, node.fAttrib, node.lAttrib]

/-- What a record points to belongs to the chain, or stands above, before or behind it. -/
theorem holds_pointers {chain : Shape} (holds : Holds cell parent prev after chain) {x target : Nat}
    (inside : x ∈ chain.addresses) {record : Xmln} (itsRecord : cell x = some record)
    (points : some target ∈ record.pointers) :
    target ∈ chain.addresses ∨ some target ∈ [parent, prev, after] := by
  induction chain generalizing parent prev after with
  | null => cases inside
  | node addr name data attribs fChild next attribsIh childIh nextIh =>
      obtain ⟨here, attribsHold, childHolds, nextHolds⟩ := holds
      simp only [Shape.addresses, List.mem_cons, List.mem_append, List.not_mem_nil, or_false]
        at inside attribsIh childIh nextIh ⊢
      rcases inside with rfl | (inAttribs | inChild) | inNext
      · rw [here, Option.some.injEq] at itsRecord
        subst itsRecord
        simp only [Xmln.pointers, linked, List.mem_cons, List.not_mem_nil, or_false] at points
        have top (shape : Shape) (reached : some target = shape.head ∨ some target = shape.last) :
            target ∈ shape.addresses := by
          rcases reached with head | last
          · exact tops_inside shape target (head_inside head.symm)
          · exact tops_inside shape target (last_inside last.symm)
        rcases points with above | head | last | before | behind | head | last
        · exact Or.inr (Or.inl above)
        · exact Or.inl (Or.inr (Or.inl (Or.inr (top fChild (Or.inl head)))))
        · exact Or.inl (Or.inr (Or.inl (Or.inr (top fChild (Or.inr last)))))
        · exact Or.inr (Or.inr (Or.inl before))
        · rcases Option.or_eq_some_iff.mp behind.symm with head | ⟨_, further⟩
          · exact Or.inl (Or.inr (Or.inr (top next (Or.inl head.symm))))
          · exact Or.inr (Or.inr (Or.inr further.symm))
        · exact Or.inl (Or.inr (Or.inl (Or.inl (top attribs (Or.inl head)))))
        · exact Or.inl (Or.inr (Or.inl (Or.inl (top attribs (Or.inr last)))))
      · have reached := attribsIh attribsHold inAttribs
        simp only [reduceCtorEq] at reached
        tauto
      · have reached := childIh childHolds inChild
        simp only [Option.some.injEq, reduceCtorEq] at reached
        tauto
      · have reached := nextIh nextHolds inNext
        simp only [Option.some.injEq] at reached
        tauto

end Walks

end Gk7102.XmlLinks
