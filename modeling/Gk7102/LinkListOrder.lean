import Gk7102.LinkListRemoval
import Gk7102.SelectionSort

/-!
# What sorting, reversing, freeing and reading do

The loops that walk the whole chain. Sorting keeps two chains in one heap: the
nodes left, and the nodes collected in `tmp`, whose last one still points into the
other chain until the next is hung behind it.
-/

namespace Gk7102.LinkList

set_option autoImplicit false

open Gk7102.ChainedHeap
open Gk7102.SelectionSort

variable {α κ σ : Type} {heap : Heap α} {list : ListHead}

section Reading

theorem list_search_loop_finds {cells : List (Nat × α)} {start : Option Nat}
    (walk : Segment heap start cells none) (key : κ) (compare : α → κ → Int) {rounds : Nat}
    (enough : cells.length < rounds) :
    listSearchLoop heap key compare rounds start =
      some ((contents cells).find? (matchesKey compare key)) := by
  induction cells generalizing start rounds with
  | nil =>
      have atEnd : start = none := walk
      cases rounds with
      | zero => exact absurd enough (Nat.not_lt_zero _)
      | succ fewer =>
          rw [atEnd]
          rfl
  | cons cell rest ih =>
      rcases walk with ⟨rfl, next, live, walk⟩
      cases rounds with
      | zero => exact absurd enough (Nat.not_lt_zero _)
      | succ fewer =>
          rw [listSearchLoop, live, Option.bind_eq_bind, Option.bind_some, contents_cons]
          by_cases hit : compare cell.2 key = 0
          · rw [if_pos hit, List.find?_cons_of_pos (matches_of_hit hit)]
          · rw [if_neg hit, ih walk (Nat.lt_of_succ_lt_succ enough),
              List.find?_cons_of_neg (not_matches_of_miss hit)]

theorem list_search_finds {cells : List (Nat × α)} (spans : Spans heap list cells none)
    (key : κ) (compare : α → κ → Int) :
    listSearch ⟨heap, list⟩ key compare =
      some ((contents cells).find? (matchesKey compare key)) :=
  list_search_loop_finds spans.chain key compare (within_limit spans)

theorem list_traverse_loop_folds {cells : List (Nat × α)} {start : Option Nat}
    (walk : Segment heap start cells none) (handle : σ → α → σ) (priv : σ) {rounds : Nat}
    (enough : cells.length < rounds) :
    listTraverseLoop heap handle rounds start priv =
      some ((contents cells).foldl handle priv) := by
  induction cells generalizing start rounds priv with
  | nil =>
      have atEnd : start = none := walk
      cases rounds with
      | zero => exact absurd enough (Nat.not_lt_zero _)
      | succ fewer =>
          rw [atEnd]
          rfl
  | cons cell rest ih =>
      rcases walk with ⟨rfl, next, live, walk⟩
      cases rounds with
      | zero => exact absurd enough (Nat.not_lt_zero _)
      | succ fewer =>
          rw [listTraverseLoop, live, Option.bind_eq_bind, Option.bind_some,
            ih walk _ (Nat.lt_of_succ_lt_succ enough)]
          rfl

theorem list_traverse_folds {cells : List (Nat × α)} (spans : Spans heap list cells none)
    (handle : σ → α → σ) (priv : σ) :
    listTraverse ⟨heap, list⟩ handle priv = some ((contents cells).foldl handle priv) :=
  list_traverse_loop_folds spans.chain handle priv (within_limit spans)

theorem list_get_element_finds {cells : List (Nat × α)} (spans : Spans heap list cells none)
    (idx : Int) :
    listGetElement ⟨heap, list⟩ idx = some ((contents cells)[idx.toNat]?) := by
  have stops := skip_loop_stops spans.chain idx (within_limit spans) 0
  rw [Int.sub_zero] at stops
  by_cases within : idx.toNat < cells.length
  · have found : (addresses cells)[idx.toNat]? = some cells[idx.toNat].1 := by
      rw [addresses, List.getElem?_map, List.getElem?_eq_getElem within]
      rfl
    have data : (contents cells)[idx.toNat]? = some cells[idx.toNat].2 := by
      rw [contents, List.getElem?_map, List.getElem?_eq_getElem within]
      rfl
    rcases cell_of_member spans.chain (List.getElem_mem within) with ⟨next, live⟩
    simp only [listGetElement, stops, found, live, data, Option.bind_eq_bind, Option.bind_some]
  · have beyond : cells.length ≤ idx.toNat := Nat.le_of_not_lt within
    rw [List.getElem?_eq_none (by rw [addresses, List.length_map]; exact beyond)] at stops
    rw [List.getElem?_eq_none (by rw [contents_length]; exact beyond)]
    simp only [listGetElement, stops, Option.bind_eq_bind, Option.bind_some]

end Reading

section Destroying

theorem list_destroy_loop_frees {cells : List (Nat × α)} {start : Option Nat}
    (walk : Segment heap start cells none) (distinct : (addresses cells).Nodup) (destroy : Bool)
    (destroyed : List α) {rounds : Nat} (enough : cells.length < rounds) :
    ∃ freed, listDestroyLoop destroy rounds heap start destroyed =
      some (freed, if destroy then destroyed ++ contents cells else destroyed) := by
  induction cells generalizing heap start rounds destroyed with
  | nil =>
      have atEnd : start = none := walk
      cases rounds with
      | zero => exact absurd enough (Nat.not_lt_zero _)
      | succ fewer =>
          refine ⟨heap, ?_⟩
          rw [atEnd, contents, List.map_nil, List.append_nil, ite_self]
          rfl
  | cons cell rest ih =>
      rcases walk with ⟨rfl, next, live, walk⟩
      cases rounds with
      | zero => exact absurd enough (Nat.not_lt_zero _)
      | succ fewer =>
          rcases Heap.free_of_live live with ⟨freed, done, _, _, others⟩
          have remains : Segment freed next rest none := by
            apply segment_frame _ walk
            intro address member
            apply others
            rintro rfl
            exact (List.nodup_cons.mp distinct).1 member
          rcases ih remains (List.nodup_cons.mp distinct).2
            (if destroy then destroyed ++ [cell.2] else destroyed)
            (Nat.lt_of_succ_lt_succ enough) with ⟨final, result⟩
          refine ⟨final, ?_⟩
          rw [listDestroyLoop, live, Option.bind_eq_bind, Option.bind_some, done,
            Option.bind_eq_bind, Option.bind_some, result]
          cases destroy with
          | true => simp only [if_true, contents_cons, List.append_assoc, List.singleton_append]
          | false => rfl

theorem list_destroy_spans {cells : List (Nat × α)} (spans : Spans heap list cells none)
    (destroy : Bool) :
    ∃ after, listDestroy ⟨heap, list⟩ destroy =
        some (after, if destroy then contents cells else []) ∧
      Spans after.heap after.list [] none := by
  rcases list_destroy_loop_frees spans.chain spans.distinct destroy [] (within_limit spans) with
    ⟨freed, done⟩
  refine ⟨⟨freed, listInit⟩, ?_, spans_init freed⟩
  simp only [listDestroy, done, Option.bind_eq_bind, Option.bind_some, List.nil_append]

end Destroying

section Reversing

/-- `done` is the part already turned round, `rest` the part still ahead. -/
theorem list_reverse_loop_turns {done rest : List (Nat × α)} {pre start : Option Nat}
    (turned : Segment heap pre done none) (ahead : Segment heap start rest none)
    (distinct : (addresses (rest ++ done)).Nodup) (arrived : rest = [] → list.head = pre)
    {rounds : Nat} (enough : rest.length < rounds) :
    ∃ after first, listReverseLoop rounds ⟨heap, list⟩ pre start =
        some ⟨after, { list with head := first }⟩ ∧
      Segment after first (rest.reverse ++ done) none := by
  induction rest generalizing heap list done pre start rounds with
  | nil =>
      have atEnd : start = none := ahead
      cases rounds with
      | zero => exact absurd enough (Nat.not_lt_zero _)
      | succ fewer =>
          refine ⟨heap, list.head, ?_, ?_⟩
          · rw [atEnd]
            rfl
          · rw [arrived rfl]
            exact turned
  | cons cell others ih =>
      rcases ahead with ⟨rfl, next, live, ahead⟩
      cases rounds with
      | zero => exact absurd enough (Nat.not_lt_zero _)
      | succ fewer =>
          rcases Heap.set_next_of_live live pre with ⟨written, wrote, _, self, unchanged⟩
          have outside := (List.nodup_cons.mp distinct).1
          rw [List.append_eq, ← addresses, addresses_append] at outside
          have keeps : ∀ address, address ∈ addresses others ∨ address ∈ addresses done →
              written.cell address = heap.cell address := by
            intro address member
            apply unchanged
            rintro rfl
            exact outside (List.mem_append.mpr member)
          have turned' : Segment written (some cell.1) (cell :: done) none :=
            ⟨rfl, pre, self, segment_frame (fun address member =>
              keeps address (Or.inr member)) turned⟩
          have ahead' : Segment written next others none :=
            segment_frame (fun address member => keeps address (Or.inl member)) ahead
          have distinct' : (addresses (others ++ cell :: done)).Nodup :=
            (List.perm_middle.map Prod.fst).nodup_iff.mpr distinct
          have arrived' : others = [] →
              (if next = none then some cell.1 else list.head) = some cell.1 := by
            rintro rfl
            have atEnd : next = none := ahead
            rw [if_pos atEnd]
          rcases @ih _ { list with head := if next = none then some cell.1 else list.head } _ _ _
            turned' ahead' distinct' arrived' _ (Nat.lt_of_succ_lt_succ enough) with
            ⟨after, first, done', walk⟩
          refine ⟨after, first, ?_, ?_⟩
          · simp only [listReverseLoop, live, wrote, done', Option.bind_eq_bind, Option.bind_some]
          · rw [List.reverse_cons, List.append_assoc, List.singleton_append]
            exact walk

theorem list_reverse_spans {cells : List (Nat × α)} (spans : Spans heap list cells none) :
    ∃ after, listReverse ⟨heap, list⟩ = some after ∧
      Spans after.heap after.list cells.reverse none := by
  have alone : (addresses (cells ++ [])).Nodup := by
    rw [List.append_nil]
    exact spans.distinct
  rcases @list_reverse_loop_turns _ heap { list with tail := list.head } [] cells none _ rfl
    spans.chain alone (fun empty => by subst empty; exact spans.chain) _ (within_limit spans) with
    ⟨after, first, done, walk⟩
  rw [List.append_nil] at walk
  refine ⟨_, done, walk, ?_, fun _ => ?_, ?_⟩
  · rw [addresses_reverse]
    exact List.nodup_reverse.mpr spans.distinct
  · rw [addresses_reverse, List.getLast?_reverse]
    cases cells with
    | nil => exact spans.chain
    | cons cell rest => exact head_of_cells spans
  · rw [List.length_reverse]
    exact spans.length

end Reversing

section Sorting

/-- The scan of `find_min_node`, with the cells it has passed given by their positions. -/
theorem find_min_loop_finds (compare : α → α → Int) {cells rest : List (Nat × α)}
    {start : Option Nat} (walk : Segment heap start rest none) {best here : Nat}
    {least : Nat × α} (at_best : cells[best]? = some least)
    (least_live : ∃ next, heap.cell least.1 = some ⟨next, least.2⟩)
    (ahead : ∀ j : Nat, rest[j]? = cells[here + j]?) {rounds : Nat}
    (enough : rest.length < rounds) :
    findMinLoop heap compare rounds least.1 start =
      (addresses cells)[minIndexFrom compare least.2 best here (contents rest)]? := by
  induction rest generalizing start rounds best here least with
  | nil =>
      have atEnd : start = none := walk
      cases rounds with
      | zero => exact absurd enough (Nat.not_lt_zero _)
      | succ fewer =>
          subst atEnd
          have found : (addresses cells)[best]? = some least.1 := by
            rw [addresses, List.getElem?_map, at_best]
            rfl
          exact found.symm
  | cons cell others ih =>
      rcases walk with ⟨rfl, next, live, walk⟩
      rcases least_live with ⟨after, least_live⟩
      cases rounds with
      | zero => exact absurd enough (Nat.not_lt_zero _)
      | succ fewer =>
          have shifted : ∀ j : Nat, others[j]? = cells[here + 1 + j]? := by
            intro j
            have moved := ahead (j + 1)
            rw [List.getElem?_cons_succ] at moved
            rw [moved, Nat.add_assoc, Nat.add_comm j 1]
          have at_here : cells[here]? = some cell := (ahead 0).symm
          rw [findMinLoop, least_live, live, Option.bind_eq_bind, Option.bind_some,
            Option.bind_some, contents_cons, minIndexFrom]
          by_cases smaller : compare least.2 cell.2 > 0
          · rw [if_pos smaller, if_pos smaller]
            exact ih walk at_here ⟨next, live⟩ shifted (Nat.lt_of_succ_lt_succ enough)
          · rw [if_neg smaller, if_neg smaller]
            exact ih walk at_best ⟨after, least_live⟩ shifted (Nat.lt_of_succ_lt_succ enough)

theorem find_min_node_finds (compare : α → α → Int) {cells : List (Nat × α)}
    (spans : Spans heap list cells none) (nonempty : cells ≠ []) :
    findMinNode ⟨heap, list⟩ compare =
      (addresses cells)[minIndex compare (contents cells)]? := by
  cases cells with
  | nil => exact absurd rfl nonempty
  | cons first rest =>
      have head := head_of_cells spans
      have scan := @find_min_loop_finds _ heap compare (first :: rest) _ _ spans.chain 0 0 first
        rfl (cell_of_member spans.chain List.mem_cons_self)
        (fun j => by rw [Nat.zero_add]) _ (within_limit spans)
      rw [findMinNode]
      simp only [head, Option.bind_some]
      rw [head] at scan
      exact scan

def compareCells (compare : α → α → Int) (one other : Nat × α) : Int := compare one.2 other.2

def sortCells (compare : α → α → Int) (cells : List (Nat × α)) : List (Nat × α) :=
  selectionSort (compareCells compare) cells

theorem contents_sort_cells (compare : α → α → Int) (cells : List (Nat × α)) :
    contents (sortCells compare cells) = selectionSort compare (contents cells) :=
  selection_sort_map compare Prod.snd cells

/-- The nodes left in the list and those collected in `tmp` share no node. The last
collected one points anywhere, but to NULL once nothing is left. -/
structure SortState (heap : Heap α) (list tmp : ListHead) (remaining collected : List (Nat × α))
    (dangling : Option Nat) : Prop where
  left : Spans heap list remaining none
  taken : Spans heap tmp collected dangling
  apart : List.Disjoint (addresses collected) (addresses remaining)
  closed : remaining = [] → dangling = none
  started : collected = [] → dangling = none

theorem sort_round (compare : α → α → Int) {tmp : ListHead}
    {remaining collected : List (Nat × α)} {dangling : Option Nat}
    (state : SortState heap list tmp remaining collected dangling) {k : Nat}
    (chosen : k = minIndex compare (contents remaining)) (within : k < remaining.length) :
    ∃ n shorter longer next, findMinNode ⟨heap, list⟩ compare = some n ∧
      deleteNode ⟨heap, list⟩ n = some shorter ∧
      insertNode ⟨shorter.heap, tmp⟩ n = some longer ∧
      SortState longer.heap shorter.list longer.list (remaining.eraseIdx k)
        (collected ++ [remaining[k]]) next := by
  have nonempty : remaining ≠ [] := by
    rintro rfl
    exact absurd within (Nat.not_lt_zero _)
  have found := find_min_node_finds compare state.left nonempty
  rw [← chosen, addresses, List.getElem?_map, List.getElem?_eq_getElem within] at found
  rcases delete_node_spans state.left within with ⟨shorter, deleted, left, kept, frame⟩
  rcases cell_of_member state.left.chain (List.getElem_mem within) with ⟨next, live⟩
  have member : remaining[k].1 ∈ addresses remaining :=
    List.mem_map_of_mem (List.getElem_mem within)
  have notTaken : remaining[k].1 ∉ addresses collected :=
    fun taken => state.apart taken member
  have taken : Spans shorter.heap tmp collected dangling := by
    apply spans_frame state.taken
    intro address inTaken
    exact frame address (fun inLeft => state.apart inTaken inLeft)
  rcases insert_node_spans taken (kept.trans live) notTaken state.started with
    ⟨longer, inserted, grown, unchanged⟩
  have inRemaining : ∀ address ∈ addresses (remaining.eraseIdx k),
      address ∈ addresses remaining := by
    intro address inRest
    rw [addresses_erase_idx] at inRest
    exact List.mem_of_mem_eraseIdx inRest
  refine ⟨remaining[k].1, shorter, longer, next, found, deleted, inserted, ?_, grown, ?_, ?_, ?_⟩
  · apply spans_frame left
    intro address inRest
    exact unchanged address (fun inTaken => state.apart inTaken (inRemaining address inRest))
  · intro address inTaken inRest
    rw [addresses_append] at inTaken
    rcases List.mem_append.mp inTaken with before | new
    · exact state.apart before (inRemaining address inRest)
    · rw [List.mem_singleton.mp new] at inRest
      exact erased_outside within state.left.distinct inRest
  · intro last
    -- the only node left was the end of the list, so it points to NULL
    have count := congrArg List.length last
    rw [List.length_eraseIdx_of_lt within, List.length_nil] at count
    have one : ∃ cell, remaining = [cell] := List.length_eq_one_iff.mp (by omega)
    rcases one with ⟨cell, rfl⟩
    have zero : k = 0 := Nat.lt_one_iff.mp within
    subst zero
    rcases state.left.chain with ⟨_, after, ends, closed⟩
    have same := congrArg Node.next (Option.some.inj (live.symm.trans ends))
    exact same.trans closed
  · intro empty
    exact absurd empty (List.append_ne_nil_of_right_ne_nil _ (List.cons_ne_nil _ _))

theorem list_sort_loop_sorts (compare : α → α → Int) (remaining : List (Nat × α)) :
    ∀ {heap : Heap α} {list tmp : ListHead} {collected : List (Nat × α)} {dangling : Option Nat}
      {rounds : Nat}, SortState heap list tmp remaining collected dangling →
      remaining.length < rounds →
      ∃ after final, listSortLoop compare rounds ⟨heap, list⟩ tmp = some (after, final) ∧
        Spans after.heap final (collected ++ sortCells compare remaining) none := by
  induction remaining using selection_induction (compareCells compare) with
  | empty =>
      intro heap list tmp collected dangling rounds state enough
      cases rounds with
      | zero => exact absurd enough (Nat.not_lt_zero _)
      | succ fewer =>
          have headNull : list.head = none := state.left.chain
          refine ⟨⟨heap, list⟩, tmp, ?_, ?_⟩
          · simp only [listSortLoop, isEmpty, headNull, Option.isNone_none, if_true]
          · have closed := state.taken
            rw [state.closed rfl] at closed
            rw [sortCells, selection_sort_nil, List.append_nil]
            exact closed
  | step remaining within ih =>
      intro heap list tmp collected dangling rounds state enough
      cases rounds with
      | zero => exact absurd enough (Nat.not_lt_zero _)
      | succ fewer =>
          have chosen : minIndex (compareCells compare) remaining =
              minIndex compare (contents remaining) :=
            (min_index_map compare Prod.snd remaining).symm
          rcases sort_round compare state chosen within with
            ⟨n, shorter, longer, next, found, deleted, inserted, state'⟩
          have headSome : isEmpty list = false := by
            cases remaining with
            | nil => exact absurd within (Nat.not_lt_zero _)
            | cons first rest =>
                rw [isEmpty, head_of_cells state.left]
                rfl
          have fewerLeft :
              (remaining.eraseIdx (minIndex (compareCells compare) remaining)).length < fewer := by
            rw [List.length_eraseIdx_of_lt within]
            omega
          rcases ih state' fewerLeft with ⟨after, final, done, sorted⟩
          refine ⟨after, final, ?_, ?_⟩
          · simp only [listSortLoop, headSome, Bool.false_eq_true, if_false, found, deleted,
              inserted, done, Option.bind_eq_bind, Option.bind_some]
          · rw [sortCells, selection_sort_step _ within, List.append_cons]
            exact sorted

theorem list_sort_spans (compare : α → α → Int) {cells : List (Nat × α)}
    (spans : Spans heap list cells none) :
    ∃ after, listSort ⟨heap, list⟩ compare = some after ∧
      Spans after.heap after.list (sortCells compare cells) none := by
  have start : SortState heap list listInit cells [] none :=
    ⟨spans, spans_init heap, List.disjoint_nil_left _, fun _ => rfl, fun _ => rfl⟩
  rcases list_sort_loop_sorts compare cells start (within_limit spans) with
    ⟨after, final, done, sorted⟩
  refine ⟨⟨after.heap, final⟩, ?_, sorted⟩
  simp only [listSort, done, Option.bind_eq_bind, Option.bind_some]

theorem compare_cells_consistent {compare : α → α → Int} (consistent : Consistent compare) :
    Consistent (compareCells compare) where
  total one other := consistent.total one.2 other.2
  trans one other last := consistent.trans one.2 other.2 last.2

/-- Sorting relinks the nodes it was given: with a total preorder they come out
sorted, ties in their old order, as a sound list. -/
theorem list_sort_relinks_nodes {compare : α → α → Int} (consistent : Consistent compare)
    {cells : List (Nat × α)} (spans : Spans heap list cells none) :
    ∃ after sorted, listSort ⟨heap, list⟩ compare = some after ∧
      Spans after.heap after.list sorted none ∧ sorted.Perm cells ∧
      sorted.Pairwise (fun before later => compare before.2 later.2 ≤ 0) ∧
      ∀ one, sorted.filter (fun cell => tied compare one cell.2) =
        cells.filter (fun cell => tied compare one cell.2) := by
  rcases list_sort_spans compare spans with ⟨after, done, final⟩
  have ordered := compare_cells_consistent consistent
  refine ⟨after, sortCells compare cells, done, final, selection_sort_perm _ _,
    selection_sort_ordered ordered cells, ?_⟩
  intro one
  -- the address of the node compared with plays no part
  exact selection_sort_stable ordered (0, one) cells

def threeNodes : Heap Int :=
  ((Heap.empty.alloc 0 ⟨some 1, 5⟩).alloc 1 ⟨some 2, 3⟩).alloc 2 ⟨none, 5⟩

theorem three_nodes_span :
    Spans threeNodes ⟨some 0, some 2, 3⟩ [(0, 5), (1, 3), (2, 5)] none where
  chain := ⟨rfl, some 1, rfl, rfl, some 2, rfl, rfl, none, rfl, rfl⟩
  distinct := by decide
  last := fun _ => rfl
  length := rfl

theorem difference_consistent : Consistent (fun one other : Int => one - other) where
  total one other := by omega
  trans one other last := by omega

theorem three_nodes_sorted :
    ∃ after sorted, listSort ⟨threeNodes, ⟨some 0, some 2, 3⟩⟩
        (fun one other => one - other) = some after ∧
      Spans after.heap after.list sorted none ∧ sorted.Perm [(0, 5), (1, 3), (2, 5)] ∧
      sorted.Pairwise (fun before later => before.2 - later.2 ≤ 0) ∧
      ∀ one, sorted.filter (fun cell => tied (fun one other : Int => one - other) one cell.2) =
        [(0, 5), (1, 3), (2, 5)].filter
          (fun cell => tied (fun one other : Int => one - other) one cell.2) :=
  list_sort_relinks_nodes difference_consistent three_nodes_span

end Sorting

end Gk7102.LinkList
