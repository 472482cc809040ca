import Gk7102.LinkListInsertion

/-!
# What the removals do to the chain

The head is dropped in one way and every other node in another: its predecessor is
pointed past it and takes over the tail when the last node goes. `delete_node` and
`list_delete` share these two facts and differ in how they find the node.
-/

namespace Gk7102.LinkList

set_option autoImplicit false

open Gk7102.ChainedHeap

variable {α κ σ : Type} {heap : Heap α} {list : ListHead}

theorem drop_head_spans {cell : Nat × α} {rest : List (Nat × α)}
    (spans : Spans heap list (cell :: rest) none) :
    ∃ next, heap.cell cell.1 = some ⟨next, cell.2⟩ ∧
      Spans heap { list with head := next, len := list.len - 1 } rest none := by
  rcases spans.chain with ⟨here, next, live, walk⟩
  refine ⟨next, live, walk, (List.nodup_cons.mp spans.distinct).2, fun more => ?_, ?_⟩
  · cases rest with
    | nil => exact absurd rfl more
    | cons second others =>
        have tail := spans.last (List.cons_ne_nil _ _)
        rw [addresses_cons, addresses_cons, List.getLast?_cons_cons, ← addresses_cons] at tail
        exact tail
  · have count := spans.length
    simp only [List.length_cons] at count ⊢
    omega

theorem unlink_spans {front back : List (Nat × α)} {cell gone : Nat × α}
    (spans : Spans heap list (front ++ cell :: gone :: back) none) :
    ∃ next written, heap.cell cell.1 = some ⟨some gone.1, cell.2⟩ ∧
      heap.cell gone.1 = some ⟨next, gone.2⟩ ∧
      heap.setNext cell.1 next = some written ∧ written.top = heap.top ∧
      (∀ other, other ≠ cell.1 → written.cell other = heap.cell other) ∧
      Spans written { list with
          tail := if some gone.1 = list.tail then some cell.1 else list.tail,
          len := list.len - 1 } (front ++ cell :: back) none := by
  have chain := spans.chain
  have distinct := spans.distinct
  rw [List.append_cons] at chain distinct
  rcases segment_append.mp chain with ⟨middle, before, pointed, next, goneLive, rest⟩
  rw [pointed] at before
  rw [addresses_append] at distinct
  rcases segment_redirect_last before distinct.of_append_left next with
    ⟨written, wrote, top, walk, others⟩
  rcases segment_append.mp before with ⟨_, _, _, follow, cellLive, same⟩
  rw [same] at cellLive
  have apart : ∀ address ∈ addresses (gone :: back), address ≠ cell.1 := by
    rintro address member rfl
    apply (List.disjoint_of_nodup_append distinct) _ member
    rw [addresses_append]
    exact List.mem_append_right _ List.mem_cons_self
  refine ⟨next, written, cellLive, goneLive, wrote, top, others, ?_, ?_, fun _ => ?_, ?_⟩
  · rw [List.append_cons]
    apply segment_append.mpr
    refine ⟨next, walk, ?_⟩
    apply segment_frame _ rest
    intro address member
    exact others address (apart address (List.mem_cons_of_mem _ member))
  · rw [List.append_cons, addresses_append]
    exact List.Nodup.sublist ((List.sublist_cons_self _ _).append_left _) distinct
  · rcases List.eq_nil_or_concat' back with rfl | ⟨others', last, rfl⟩
    · rw [List.append_cons] at spans
      rw [if_pos (tail_of_last spans).symm, addresses_last]
    · rw [List.append_cons, List.append_cons, ← List.append_assoc] at spans
      have tail := tail_of_last spans
      have notLast : ¬ some gone.1 = list.tail := by
        rw [tail]
        intro same
        exact apart_from_rest distinct.of_append_right
          (List.mem_append_right _ List.mem_cons_self) (Option.some.inj same).symm
      rw [if_neg notLast, tail, List.append_cons, ← List.append_assoc, addresses_last]
  · have count := spans.length
    simp only [List.length_append, List.length_cons] at count ⊢
    omega

theorem free_outside_spans {cells : List (Nat × α)} {address : Nat} {node : Node α}
    (spans : Spans heap list cells none) (live : heap.cell address = some node)
    (outside : address ∉ addresses cells) :
    ∃ freed, heap.free address = some freed ∧ Spans freed list cells none := by
  rcases Heap.free_of_live live with ⟨freed, done, _, _, others⟩
  refine ⟨freed, done, spans_frame spans ?_⟩
  intro other member
  apply others
  rintro rfl
  exact outside member

section DeleteNode

theorem delete_node_loop_spans {front rest : List (Nat × α)} {cell : Nat × α} {k : Nat}
    (spans : Spans heap list (front ++ cell :: rest) none) (within : k < rest.length)
    {rounds : Nat} (enough : k < rounds) :
    ∃ after, deleteNodeLoop heap list rest[k].1 rounds cell.1 = some after ∧
      Spans after.heap after.list (front ++ cell :: rest.eraseIdx k) none ∧
      after.heap.cell rest[k].1 = heap.cell rest[k].1 ∧
      ∀ address, address ∉ addresses (front ++ cell :: rest) →
        after.heap.cell address = heap.cell address := by
  induction rest generalizing front cell k rounds with
  | nil => exact absurd within (Nat.not_lt_zero _)
  | cons following others ih =>
      rcases unlink_spans spans with
        ⟨next, written, cellLive, followingLive, wrote, top, unchanged, fewer⟩
      cases rounds with
      | zero => exact absurd enough (Nat.not_lt_zero _)
      | succ remaining =>
          have distinct := distinct_behind spans.distinct
          cases k with
          | zero =>
              refine ⟨⟨_, _⟩, ?_, fewer, ?_, ?_⟩
              · simp only [deleteNodeLoop, cellLive, followingLive, wrote, List.getElem_cons_zero,
                  if_true, Option.bind_eq_bind, Option.bind_some]
              · apply unchanged
                exact apart_from_rest distinct List.mem_cons_self
              · intro address outside
                apply unchanged
                rintro rfl
                apply outside
                rw [addresses_append]
                exact List.mem_append_right _ List.mem_cons_self
          | succ j =>
              have later : j < others.length := Nat.lt_of_succ_lt_succ within
              have different : ¬ following.1 = others[j].1 := by
                intro same
                exact apart_from_rest (List.nodup_cons.mp distinct).2 (List.getElem_mem later)
                  same.symm
              have regroup : front ++ cell :: following :: others =
                  front ++ [cell] ++ following :: others := List.append_cons _ _ _
              rw [regroup] at spans
              rcases ih spans later (Nat.lt_of_succ_lt_succ enough) with
                ⟨after, done, spansAfter, kept, frame⟩
              refine ⟨after, ?_, ?_, kept, ?_⟩
              · simp only [deleteNodeLoop, cellLive, List.getElem_cons_succ, if_neg different, done,
                  Option.bind_eq_bind, Option.bind_some]
              · rw [List.eraseIdx_cons_succ, List.append_cons]
                exact spansAfter
              · rw [regroup]
                exact frame

theorem delete_node_spans {cells : List (Nat × α)} {k : Nat}
    (spans : Spans heap list cells none) (within : k < cells.length) :
    ∃ after, deleteNode ⟨heap, list⟩ cells[k].1 = some after ∧
      Spans after.heap after.list (cells.eraseIdx k) none ∧
      after.heap.cell cells[k].1 = heap.cell cells[k].1 ∧
      ∀ address, address ∉ addresses cells → after.heap.cell address = heap.cell address := by
  cases cells with
  | nil => exact absurd within (Nat.not_lt_zero _)
  | cons first rest =>
      have head := head_of_cells spans
      cases k with
      | zero =>
          rcases drop_head_spans spans with ⟨next, live, fewer⟩
          refine ⟨⟨heap, { list with head := next, len := list.len - 1 }⟩, ?_, fewer, rfl,
            fun _ _ => rfl⟩
          simp only [deleteNode, head, live, List.getElem_cons_zero, if_true, Option.bind_eq_bind,
            Option.bind_some]
      | succ j =>
          have later : j < rest.length := Nat.lt_of_succ_lt_succ within
          have different : ¬ first.1 = rest[j].1 := by
            intro same
            exact apart_from_rest spans.distinct (List.getElem_mem later) same.symm
          have enough : j < walkLimit heap :=
            Nat.lt_trans later (Nat.lt_of_succ_lt (within_limit spans))
          rcases @delete_node_loop_spans _ _ _ [] _ _ _ spans later _ enough with
            ⟨after, done, spansAfter, kept, frame⟩
          refine ⟨after, ?_, spansAfter, kept, frame⟩
          simp only [deleteNode, head, List.getElem_cons_succ, if_neg different, done,
            Option.bind_eq_bind, Option.bind_some]

end DeleteNode

section ListDelete

def matchesKey (compare : α → κ → Int) (key : κ) (data : α) : Bool := compare data key == 0

theorem matches_of_hit {compare : α → κ → Int} {key : κ} {data : α}
    (hit : compare data key = 0) : matchesKey compare key data = true :=
  beq_iff_eq.mpr hit

theorem not_matches_of_miss {compare : α → κ → Int} {key : κ} {data : α}
    (miss : ¬ compare data key = 0) : ¬ matchesKey compare key data = true :=
  fun hit => miss (beq_iff_eq.mp hit)

theorem list_delete_loop_spans (key : κ) (compare : α → κ → Int) {front rest : List (Nat × α)}
    {cell : Nat × α} (spans : Spans heap list (front ++ cell :: rest) none) {rounds : Nat}
    (enough : rest.length < rounds) :
    ∃ after left, listDeleteLoop heap list key compare rounds cell.1 =
        some (after, (contents rest).find? (matchesKey compare key)) ∧
      Spans after.heap after.list (front ++ cell :: left) none ∧
      contents left = (contents rest).eraseP (matchesKey compare key) := by
  induction rest generalizing front cell rounds with
  | nil =>
      cases rounds with
      | zero => exact absurd enough (Nat.not_lt_zero _)
      | succ remaining =>
          rcases segment_append.mp spans.chain with ⟨_, _, _, next, live, atEnd⟩
          have last : next = none := atEnd
          subst last
          refine ⟨⟨_, _⟩, [], ?_, spans, rfl⟩
          simp only [listDeleteLoop, live, Option.bind_eq_bind, Option.bind_some]
          rfl
  | cons following others ih =>
      cases rounds with
      | zero => exact absurd enough (Nat.not_lt_zero _)
      | succ remaining =>
          rcases unlink_spans spans with
            ⟨next, written, cellLive, followingLive, wrote, top, unchanged, fewer⟩
          have distinct := distinct_behind spans.distinct
          by_cases hit : compare following.2 key = 0
          · have stillLive : written.cell following.1 = some ⟨next, following.2⟩ := by
              rw [unchanged _ (apart_from_rest distinct List.mem_cons_self)]
              exact followingLive
            have outside : following.1 ∉ addresses (front ++ cell :: others) := by
              have reordered : (addresses (front ++ cell :: following :: others)).Perm
                  (following.1 :: addresses (front ++ cell :: others)) := by
                rw [List.append_cons front cell, List.append_cons front cell others]
                exact List.perm_middle.map Prod.fst
              exact (List.nodup_cons.mp (reordered.nodup_iff.mp spans.distinct)).1
            rcases free_outside_spans fewer stillLive outside with ⟨freed, done, final⟩
            refine ⟨⟨_, _⟩, others, ?_, final, ?_⟩
            · simp only [listDeleteLoop, cellLive, followingLive, if_pos hit, wrote, done,
                Option.bind_eq_bind, Option.bind_some, contents_cons]
              rw [List.find?_cons_of_pos (matches_of_hit hit)]
            · rw [contents_cons, List.eraseP_cons_of_pos (matches_of_hit hit)]
          · rw [List.append_cons] at spans
            rcases ih spans (Nat.lt_of_succ_lt_succ enough) with
              ⟨after, left, done, spansAfter, same⟩
            refine ⟨after, following :: left, ?_, ?_, ?_⟩
            · simp only [listDeleteLoop, cellLive, followingLive, if_neg hit, done,
                Option.bind_eq_bind, Option.bind_some, contents_cons]
              rw [List.find?_cons_of_neg (not_matches_of_miss hit)]
            · rw [List.append_cons]
              exact spansAfter
            · rw [contents_cons, contents_cons, same,
                List.eraseP_cons_of_neg (not_matches_of_miss hit)]

theorem list_delete_spans (key : κ) (compare : α → κ → Int) {cells : List (Nat × α)}
    (spans : Spans heap list cells none) :
    ∃ after left, listDelete ⟨heap, list⟩ key compare =
        some (after, (contents cells).find? (matchesKey compare key)) ∧
      Spans after.heap after.list left none ∧
      contents left = (contents cells).eraseP (matchesKey compare key) := by
  cases cells with
  | nil =>
      have zero : list.len = 0 := spans.length
      refine ⟨⟨_, _⟩, [], ?_, spans, rfl⟩
      simp only [listDelete, listGetLength, zero, if_true]
      rfl
  | cons first rest =>
      have head := head_of_cells spans
      have notEmpty : ¬ list.len = 0 := by
        rw [spans.length, List.length_cons]
        omega
      rcases drop_head_spans spans with ⟨next, live, fewer⟩
      by_cases hit : compare first.2 key = 0
      · rcases free_outside_spans fewer live (List.nodup_cons.mp spans.distinct).1 with
          ⟨freed, done, final⟩
        refine ⟨⟨_, _⟩, rest, ?_, final, ?_⟩
        · simp only [listDelete, listGetLength, if_neg notEmpty, head, live, if_pos hit, done,
            Option.bind_eq_bind, Option.bind_some, contents_cons]
          rw [List.find?_cons_of_pos (matches_of_hit hit)]
        · rw [contents_cons, List.eraseP_cons_of_pos (matches_of_hit hit)]
      · have enough : rest.length < walkLimit heap :=
          Nat.lt_of_succ_lt (within_limit spans)
        rcases @list_delete_loop_spans _ _ _ _ key compare [] _ _ spans _ enough with
          ⟨after, left, done, spansAfter, same⟩
        refine ⟨after, first :: left, ?_, spansAfter, ?_⟩
        · simp only [listDelete, listGetLength, if_neg notEmpty, head, live, if_neg hit, done,
            Option.bind_eq_bind, Option.bind_some, contents_cons]
          rw [List.find?_cons_of_neg (not_matches_of_miss hit)]
        · rw [contents_cons, contents_cons, same,
            List.eraseP_cons_of_neg (not_matches_of_miss hit)]

theorem list_delete_at_index_spans {cells : List (Nat × α)} (idx : Int)
    (spans : Spans heap list cells none) :
    ∃ after, listDeleteAtIndex ⟨heap, list⟩ idx = some (after, (contents cells)[idx.toNat]?) ∧
      Spans after.heap after.list (cells.eraseIdx idx.toNat) none := by
  have stops := skip_loop_stops spans.chain idx (within_limit spans) 0
  rw [Int.sub_zero] at stops
  by_cases within : idx.toNat < cells.length
  · have found : (addresses cells)[idx.toNat]? = some cells[idx.toNat].1 := by
      rw [addresses, List.getElem?_map, List.getElem?_eq_getElem within]
      rfl
    have data : (contents cells)[idx.toNat]? = some cells[idx.toNat].2 := by
      rw [contents, List.getElem?_map, List.getElem?_eq_getElem within]
      rfl
    rcases cell_of_member spans.chain (List.getElem_mem within) with ⟨next, live⟩
    rcases delete_node_spans spans within with ⟨after, done, spansAfter, kept, _⟩
    rcases free_outside_spans spansAfter (kept.trans live) (erased_outside within spans.distinct)
      with ⟨freed, gone, final⟩
    refine ⟨⟨_, _⟩, ?_, final⟩
    simp only [listDeleteAtIndex, getNode, stops, found, live, done, gone, data,
      Option.bind_eq_bind, Option.bind_some]
  · have beyond : cells.length ≤ idx.toNat := Nat.le_of_not_lt within
    refine ⟨⟨heap, list⟩, ?_, ?_⟩
    · rw [List.getElem?_eq_none (by rw [addresses, List.length_map]; exact beyond)] at stops
      rw [List.getElem?_eq_none (by rw [contents_length]; exact beyond)]
      simp only [listDeleteAtIndex, getNode, stops, Option.bind_eq_bind, Option.bind_some]
    · rw [List.eraseIdx_of_length_le beyond]
      exact spans

end ListDelete

end Gk7102.LinkList
