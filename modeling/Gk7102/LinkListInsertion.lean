import Gk7102.LinkList
import Mathlib.Data.List.Perm.Basic

/-!
# What the insertions do to the chain

`Spans` ties the list head to the cells of its chain. Given a chain, every
insertion has a result, which spans the cells the sequence operation leaves: at the
head, behind the tail, and behind an inner node. Behind the last node
`list_insert_at_index` extends the chain but not the tail.
-/

namespace Gk7102.LinkList

set_option autoImplicit false

open Gk7102.ChainedHeap

variable {α κ σ : Type}

/-- The chain from `head` meets these cells, each once, and `tail` is the last of
them whenever there is one. -/
structure Spans (heap : Heap α) (list : ListHead) (cells : List (Nat × α))
    (stop : Option Nat) : Prop where
  chain : Segment heap list.head cells stop
  distinct : (addresses cells).Nodup
  last : cells ≠ [] → list.tail = (addresses cells).getLast?
  length : list.len = cells.length

/-- The cells of the chain and the pointers in `list` settle the rest of the heap alone. -/
theorem spans_frame {heap other : Heap α} {list : ListHead} {cells : List (Nat × α)}
    {stop : Option Nat} (spans : Spans heap list cells stop)
    (agree : ∀ address ∈ addresses cells, other.cell address = heap.cell address) :
    Spans other list cells stop :=
  ⟨segment_frame agree spans.chain, spans.distinct, spans.last, spans.length⟩

theorem spans_init (heap : Heap α) : Spans heap listInit [] none :=
  ⟨rfl, List.nodup_nil, fun some => absurd rfl some, rfl⟩

section Access

variable {heap : Heap α} {list : ListHead}

theorem head_of_cells {cell : Nat × α} {rest : List (Nat × α)} {stop : Option Nat}
    (spans : Spans heap list (cell :: rest) stop) : list.head = some cell.1 :=
  spans.chain.1

theorem head_of_empty {stop : Option Nat} (spans : Spans heap list [] stop) :
    list.head = stop :=
  spans.chain

theorem addresses_last (front : List (Nat × α)) (last : Nat × α) :
    (addresses (front ++ [last])).getLast? = some last.1 := by
  rw [addresses_append]
  exact List.getLast?_concat

theorem tail_of_last {front : List (Nat × α)} {last : Nat × α} {stop : Option Nat}
    (spans : Spans heap list (front ++ [last]) stop) : list.tail = some last.1 := by
  rw [spans.last (List.append_ne_nil_of_right_ne_nil _ (List.cons_ne_nil _ _)), addresses_last]

theorem cell_of_member {cells : List (Nat × α)} {start stop : Option Nat} {cell : Nat × α}
    (walk : Segment heap start cells stop) (member : cell ∈ cells) :
    ∃ next, heap.cell cell.1 = some ⟨next, cell.2⟩ := by
  induction cells generalizing start with
  | nil => exact absurd member List.not_mem_nil
  | cons first rest ih =>
      rcases walk with ⟨here, next, live, walk⟩
      rcases List.mem_cons.mp member with rfl | later
      · exact ⟨next, live⟩
      · exact ih walk later

theorem within_limit {cells : List (Nat × α)} {stop : Option Nat}
    (spans : Spans heap list cells stop) : cells.length < walkLimit heap :=
  Nat.lt_succ_of_le (segment_length_le_top spans.chain spans.distinct)

end Access

section Insertion

variable {heap : Heap α} {list : ListHead} {cells : List (Nat × α)}

theorem fresh_outside (allocator : Allocator α) {start stop : Option Nat}
    (walk : Segment heap start cells stop) : allocator.malloc heap ∉ addresses cells := by
  intro member
  rcases segment_live walk member with ⟨node, live⟩
  rw [allocator.fresh heap] at live
  exact absurd live (by simp)

theorem make_node_spans (allocator : Allocator α) {stop : Option Nat} (data : α)
    (spans : Spans heap list cells stop) :
    Spans (makeNode allocator heap data).1 list cells stop := by
  apply spans_frame spans
  intro address member
  apply Heap.alloc_other
  rintro rfl
  exact fresh_outside allocator spans.chain member

/-- A node outside the chain goes behind its last node, and the chain then goes on
where that node points. -/
theorem insert_node_spans {stop next : Option Nat} {key : Nat × α}
    (spans : Spans heap list cells stop) (live : heap.cell key.1 = some ⟨next, key.2⟩)
    (outside : key.1 ∉ addresses cells) (empty : cells = [] → stop = none) :
    ∃ after, insertNode ⟨heap, list⟩ key.1 = some after ∧
      Spans after.heap after.list (cells ++ [key]) next ∧
      ∀ address, address ∉ addresses cells → after.heap.cell address = heap.cell address := by
  rcases List.eq_nil_or_concat' cells with rfl | ⟨front, last, rfl⟩
  · have headNull : list.head = none := (head_of_empty spans).trans (empty rfl)
    have zero : list.len = 0 := spans.length
    refine ⟨⟨heap, ⟨some key.1, some key.1, list.len + 1⟩⟩, ?_, ?_, fun _ _ => rfl⟩
    · simp only [insertNode, headNull]
    · refine ⟨⟨rfl, next, live, rfl⟩, List.nodup_singleton _, fun _ => rfl, ?_⟩
      simp only [zero, List.nil_append, List.length_singleton]
      rfl
  · have tailLast := tail_of_last spans
    have headSome : ∃ first, list.head = some first := by
      cases front with
      | nil => exact ⟨_, head_of_cells spans⟩
      | cons first rest => exact ⟨_, head_of_cells spans⟩
    rcases headSome with ⟨first, headSome⟩
    rcases segment_redirect_last spans.chain spans.distinct (some key.1) with
      ⟨written, wrote, top, walk, others⟩
    have notLast : key.1 ≠ last.1 := by
      rintro same
      apply outside
      rw [same, addresses_append]
      exact List.mem_append_right _ List.mem_cons_self
    refine ⟨⟨written, { list with tail := some key.1, len := list.len + 1 }⟩, ?_, ?_, ?_⟩
    · simp only [insertNode, headSome, tailLast, wrote, Option.bind_eq_bind, Option.bind_some]
    · refine ⟨segment_append.mpr ⟨_, walk, rfl, next, ?_, rfl⟩, ?_, fun _ => ?_, ?_⟩
      · rw [others key.1 notLast]
        exact live
      · rw [addresses_append]
        apply List.Nodup.append spans.distinct (List.nodup_singleton _)
        exact List.disjoint_singleton.mpr outside
      · rw [addresses_append]
        exact List.getLast?_concat.symm
      · have count := spans.length
        simp only [List.length_append, List.length_singleton] at count ⊢
        omega
    · intro address notIn
      apply others
      rintro rfl
      apply notIn
      rw [addresses_append]
      exact List.mem_append_right _ List.mem_cons_self

theorem list_insert_at_tail_eq (allocator : Allocator α) (data : α) :
    listInsertAtTail allocator ⟨heap, list⟩ data =
      insertNode ⟨(makeNode allocator heap data).1, list⟩ (allocator.malloc heap) := by
  cases found : list.head with
  | none => simp only [listInsertAtTail, insertNode, isEmpty, makeNode, found, Option.isNone_none,
      if_true]
  | some first => simp only [listInsertAtTail, insertNode, isEmpty, makeNode, found,
      Option.isNone_some, Bool.false_eq_true, if_false]

theorem list_insert_at_tail_spans (allocator : Allocator α) (data : α)
    (spans : Spans heap list cells none) :
    ∃ after, listInsertAtTail allocator ⟨heap, list⟩ data = some after ∧
      Spans after.heap after.list (cells ++ [(allocator.malloc heap, data)]) none := by
  rw [list_insert_at_tail_eq]
  rcases @insert_node_spans _ _ _ _ none none (allocator.malloc heap, data)
    (make_node_spans allocator data spans) (Heap.alloc_same _ _ _)
    (fresh_outside allocator spans.chain) (fun _ => rfl) with ⟨after, done, grown, _⟩
  exact ⟨after, done, grown⟩

theorem list_insert_at_head_spans (allocator : Allocator α) (data : α)
    (spans : Spans heap list cells none) :
    ∃ after, listInsertAtHead allocator ⟨heap, list⟩ data = some after ∧
      Spans after.heap after.list ((allocator.malloc heap, data) :: cells) none := by
  cases cells with
  | nil =>
      have headNull : list.head = none := head_of_empty spans
      refine ⟨⟨heap.alloc (allocator.malloc heap) ⟨none, data⟩,
        ⟨some (allocator.malloc heap), some (allocator.malloc heap), list.len + 1⟩⟩, ?_, ?_⟩
      · simp only [listInsertAtHead, makeNode, headNull]
      · refine ⟨⟨rfl, none, Heap.alloc_same _ _ _, rfl⟩, List.nodup_singleton _,
          fun _ => rfl, ?_⟩
        rw [spans.length]
        rfl
  | cons first rest =>
      have headFirst := head_of_cells spans
      have outside := fresh_outside allocator spans.chain
      have grown := make_node_spans allocator data spans
      rcases Heap.set_next_of_live (Heap.alloc_same heap (allocator.malloc heap) ⟨none, data⟩)
        (some first.1) with ⟨written, wrote, top, self, others⟩
      refine ⟨⟨written, { list with head := some (allocator.malloc heap), len := list.len + 1 }⟩,
        ?_, ?_⟩
      · simp only [listInsertAtHead, makeNode, headFirst, wrote, Option.bind_eq_bind,
          Option.bind_some]
      · refine ⟨⟨rfl, _, self, ?_⟩, List.nodup_cons.mpr ⟨outside, spans.distinct⟩, fun _ => ?_, ?_⟩
        · rw [← headFirst]
          apply segment_frame _ grown.chain
          intro address member
          apply others
          rintro rfl
          exact outside member
        · rw [addresses_cons, addresses_cons, List.getLast?_cons_cons, ← addresses_cons]
          exact spans.last (List.cons_ne_nil _ _)
        · have count := spans.length
          simp only [List.length_cons] at count ⊢
          omega

theorem skip_loop_stops {start : Option Nat} (walk : Segment heap start cells none)
    (idx : Int) {rounds : Nat} (enough : cells.length < rounds) (i : Int) :
    skipLoop heap idx rounds i start = some ((addresses cells)[(idx - i).toNat]?) := by
  induction cells generalizing start rounds i with
  | nil =>
      have atEnd : start = none := walk
      cases rounds with
      | zero => exact absurd enough (Nat.not_lt_zero _)
      | succ fewer =>
          rw [atEnd]
          rfl
  | cons cell rest ih =>
      rcases walk with ⟨rfl, next, live, walk⟩
      cases rounds with
      | zero => exact absurd enough (Nat.not_lt_zero _)
      | succ fewer =>
          have later := ih walk (Nat.lt_of_succ_lt_succ enough) (i + 1)
          rw [skipLoop]
          by_cases before : i < idx
          · rw [if_pos before, live, Option.bind_eq_bind, Option.bind_some, later]
            have split : (idx - i).toNat = (idx - (i + 1)).toNat + 1 := by omega
            rw [split, addresses_cons, List.getElem?_cons_succ]
          · have zero : (idx - i).toNat = 0 := by omega
            rw [if_neg before, zero]
            rfl

theorem address_behind (front back : List (Nat × α)) (cell : Nat × α) :
    (addresses (front ++ cell :: back))[front.length]? = some cell.1 := by
  rw [addresses, List.getElem?_map, List.getElem?_append_right (Nat.le_refl _), Nat.sub_self]
  rfl

theorem insert_behind (front back : List (Nat × α)) (cell new : Nat × α) :
    (front ++ cell :: back).insertIdx (front.length + 1) new = front ++ cell :: new :: back := by
  induction front with
  | nil => rfl
  | cons first rest ih =>
      simp only [List.cons_append, List.length_cons, List.insertIdx_succ_cons]
      rw [ih]

theorem split_at_position {k : Nat} (within : k < cells.length) :
    ∃ front cell back, cells = front ++ cell :: back ∧ k = front.length := by
  refine ⟨cells.take k, cells[k], cells.drop (k + 1), ?_, ?_⟩
  · rw [List.getElem_cons_drop, List.take_append_drop]
  · rw [List.length_take]
    omega

/-- The new node goes between a node of the chain and the rest; `tail` keeps its value. -/
theorem list_insert_at_index_walks (allocator : Allocator α) (data : α) {index : Int}
    {front back : List (Nat × α)} {cell : Nat × α}
    (spans : Spans heap list (front ++ cell :: back) none)
    (position : (index - 1).toNat = front.length) :
    ∃ after, listInsertAtIndex allocator ⟨heap, list⟩ data index =
        some ⟨after, { list with len := list.len + 1 }⟩ ∧
      Segment after list.head
        (front ++ cell :: (allocator.malloc heap, data) :: back) none := by
  have outside := fresh_outside allocator spans.chain
  have stops := skip_loop_stops spans.chain index (within_limit spans) 1
  rw [position, address_behind] at stops
  have grown := (make_node_spans allocator data spans).chain
  rcases segment_append.mp grown with ⟨middle, before, here, next, live, rest⟩
  rcases Heap.set_next_of_live (Heap.alloc_same heap (allocator.malloc heap) ⟨none, data⟩) next
    with ⟨linked, wrote, _, self, others⟩
  have apart : cell.1 ≠ allocator.malloc heap := by
    rintro same
    apply outside
    rw [addresses_append, addresses_cons, same]
    exact List.mem_append_right _ List.mem_cons_self
  have keepsCells : ∀ address ∈ addresses (front ++ cell :: back),
      linked.cell address = (makeNode allocator heap data).1.cell address := by
    intro address member
    apply others
    rintro rfl
    exact outside member
  have joined : Segment (makeNode allocator heap data).1 list.head (front ++ [cell]) next :=
    segment_append.mpr ⟨middle, before, here, next, live, rfl⟩
  have upToCell : Segment linked list.head (front ++ [cell]) next := by
    apply segment_frame _ joined
    intro address member
    apply keepsCells
    rw [addresses_append, addresses_cons]
    rw [addresses_append] at member
    apply List.mem_append.mpr
    rcases List.mem_append.mp member with inFront | isCell
    · exact Or.inl inFront
    · exact Or.inr (List.mem_cons.mpr (Or.inl (List.mem_singleton.mp isCell)))
  have distinct := spans.distinct
  rw [List.append_cons, addresses_append] at distinct
  rcases segment_redirect_last upToCell distinct.of_append_left (some (allocator.malloc heap)) with
    ⟨written, rewrote, _, walk, unchanged⟩
  refine ⟨written, ?_, ?_⟩
  · simp only [makeNode] at live wrote
    simp only [listInsertAtIndex, stops, makeNode, live, wrote, rewrote, Option.bind_eq_bind,
      Option.bind_some]
  · rw [List.append_cons]
    apply segment_append.mpr
    refine ⟨_, walk, rfl, next, ?_, ?_⟩
    · rw [unchanged _ apart.symm]
      exact self
    · apply segment_frame _ rest
      intro address member
      rw [unchanged]
      · apply keepsCells
        rw [addresses_append, addresses_cons]
        exact List.mem_append_right _ (List.mem_cons_of_mem _ member)
      · rintro rfl
        have apart := List.disjoint_of_nodup_append distinct
        apply apart _ member
        rw [addresses_append]
        exact List.mem_append_right _ List.mem_cons_self

theorem list_insert_at_index_beyond (allocator : Allocator α) (data : α) {index : Int}
    (spans : Spans heap list cells none) (beyond : cells.length ≤ (index - 1).toNat) :
    listInsertAtIndex allocator ⟨heap, list⟩ data index = some ⟨heap, list⟩ := by
  have stops := skip_loop_stops spans.chain index (within_limit spans) 1
  rw [List.getElem?_eq_none (by rw [addresses, List.length_map]; exact beyond)] at stops
  simp only [listInsertAtIndex, stops, Option.bind_eq_bind, Option.bind_some]

theorem list_insert_at_index_spans (allocator : Allocator α) (data : α) {index : Int}
    (spans : Spans heap list cells none) (notLast : (index - 1).toNat + 1 ≠ cells.length) :
    ∃ after, listInsertAtIndex allocator ⟨heap, list⟩ data index = some after ∧
      Spans after.heap after.list
        (cells.insertIdx ((index - 1).toNat + 1) (allocator.malloc heap, data)) none := by
  by_cases within : (index - 1).toNat < cells.length
  · rcases split_at_position within with ⟨front, cell, back, rfl, position⟩
    rcases List.eq_nil_or_concat' back with rfl | ⟨middle, last, rfl⟩
    · rw [position, List.length_append, List.length_singleton] at notLast
      exact absurd rfl notLast
    rcases list_insert_at_index_walks allocator data spans position with ⟨written, done, walk⟩
    refine ⟨_, done, ?_⟩
    rw [position, insert_behind]
    refine ⟨walk, ?_, fun _ => ?_, ?_⟩
    · have outside := fresh_outside allocator spans.chain
      have reordered : (addresses (front ++ cell :: (allocator.malloc heap, data) ::
          (middle ++ [last]))).Perm
          (allocator.malloc heap :: addresses (front ++ cell :: (middle ++ [last]))) := by
        rw [List.append_cons front cell, List.append_cons front cell (middle ++ [last])]
        exact List.perm_middle.map Prod.fst
      exact reordered.nodup_iff.mpr (List.nodup_cons.mpr ⟨outside, spans.distinct⟩)
    · have tail : list.tail = some last.1 := by
        rw [List.append_cons, ← List.append_assoc] at spans
        exact tail_of_last spans
      rw [List.append_cons, List.append_cons, ← List.append_assoc, addresses_last]
      exact tail
    · have count := spans.length
      simp only [List.length_append, List.length_cons] at count ⊢
      omega
  · have beyond : cells.length ≤ (index - 1).toNat := Nat.le_of_not_lt within
    refine ⟨_, list_insert_at_index_beyond allocator data spans beyond, ?_⟩
    rw [List.insertIdx_of_length_lt (Nat.lt_succ_of_le beyond)]
    exact spans

end Insertion

end Gk7102.LinkList
