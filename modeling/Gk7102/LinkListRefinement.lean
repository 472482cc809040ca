import Gk7102.LinkListOrder
import Gk7102.StepRuns
import Mathlib.Data.List.InsertIdx

/-!
# The linked list as a sequence

The sequence the list stands for, with the nine operations on it, and the list and
the sequence run side by side. They agree on every run but those in which
`list_insert_at_index` puts a node behind the last one: it leaves `tail` on the node
before, and the next insertion at the tail overwrites the pointer to the new node.
-/

namespace Gk7102.LinkList

set_option autoImplicit false

open Gk7102.ChainedHeap
open Gk7102.SelectionSort
open Gk7102.StepRuns

variable {α κ : Type}

inductive Op (α κ : Type) where
  | insertAtHead (data : α)
  | insertAtTail (data : α)
  | insert (data : α)
  | insertAtIndex (data : α) (index : Int)
  | delete (key : κ) (compare : α → κ → Int)
  | deleteAtIndex (idx : Int)
  | sort (compare : α → α → Int)
  | reverse
  | destroy (destroy : Bool)

/-- The function of the source, and the data it returns or passes to `destroy`. -/
def call (allocator : Allocator α) (world : World α) : Op α κ → Option (World α × List α)
  | .insertAtHead data => (listInsertAtHead allocator world data).map fun after => (after, [])
  | .insertAtTail data => (listInsertAtTail allocator world data).map fun after => (after, [])
  | .insert data => (listInsert allocator world data).map fun after => (after, [])
  | .insertAtIndex data index =>
      (listInsertAtIndex allocator world data index).map fun after => (after, [])
  | .delete key compare =>
      (listDelete world key compare).map fun result => (result.1, result.2.toList)
  | .deleteAtIndex idx =>
      (listDeleteAtIndex world idx).map fun result => (result.1, result.2.toList)
  | .sort compare => (listSort world compare).map fun after => (after, [])
  | .reverse => (listReverse world).map fun after => (after, [])
  | .destroy destroy => listDestroy world destroy

/-- The node an insertion goes behind, counted from 1; every index below 1 is the first. -/
def nodeBefore (index : Int) : Nat := (index - 1).toNat + 1

/-- The same operation on a sequence, and the elements it gives away. -/
def onSequence (items : List α) : Op α κ → List α × List α
  | .insertAtHead data => (data :: items, [])
  | .insertAtTail data => (items ++ [data], [])
  | .insert data => (items ++ [data], [])
  | .insertAtIndex data index => (items.insertIdx (nodeBefore index) data, [])
  | .delete key compare =>
      (items.eraseP (matchesKey compare key), (items.find? (matchesKey compare key)).toList)
  | .deleteAtIndex idx => (items.eraseIdx idx.toNat, items[idx.toNat]?.toList)
  | .sort compare => (selectionSort compare items, [])
  | .reverse => (items.reverse, [])
  | .destroy destroy => ([], if destroy then items else [])

/-- What a caller can see of the list is the sequence, and the structure is sound. -/
structure Represents (κ : Type) (world : World α) (items : List α) : Prop where
  cells : ∃ cells, contents cells = items ∧ Spans world.heap world.list cells none
  length : listGetLength world = items.length
  element : ∀ idx : Int, listGetElement world idx = some items[idx.toNat]?
  search : ∀ (key : κ) (compare : α → κ → Int),
    listSearch world key compare = some (items.find? (matchesKey compare key))
  traverse : ∀ (σ : Type) (handle : σ → α → σ) (priv : σ),
    listTraverse world handle priv = some (items.foldl handle priv)

theorem represents_of_spans {heap : Heap α} {list : ListHead} {cells : List (Nat × α)}
    (spans : Spans heap list cells none) : Represents κ ⟨heap, list⟩ (contents cells) where
  cells := ⟨cells, rfl, spans⟩
  length := by
    rw [contents_length]
    exact spans.length
  element := list_get_element_finds spans
  search := list_search_finds spans
  traverse _ := list_traverse_folds spans

theorem list_sort_orders {compare : α → α → Int} (consistent : Consistent compare)
    {heap : Heap α} {list : ListHead} {cells : List (Nat × α)}
    (spans : Spans heap list cells none) :
    ∃ after sorted, listSort ⟨heap, list⟩ compare = some after ∧ Represents κ after sorted ∧
      sorted.Perm (contents cells) ∧
      sorted.Pairwise (fun before later => compare before later ≤ 0) ∧
      ∀ one, sorted.filter (tied compare one) = (contents cells).filter (tied compare one) := by
  rcases list_sort_spans compare spans with ⟨after, done, final⟩
  refine ⟨after, selectionSort compare (contents cells), done, ?_, selection_sort_perm _ _,
    selection_sort_ordered consistent _, fun one => selection_sort_stable consistent one _⟩
  rw [← contents_sort_cells]
  exact represents_of_spans final

/-- The list after some operations, with what the last one gave away, and the sequence. -/
structure Pair (α : Type) where
  real : Option (World α × List α)
  ideal : List α × List α

def start : Pair α := ⟨some (⟨Heap.empty, listInit⟩, []), ([], [])⟩

def step (allocator : Allocator α) (pair : Pair α) (op : Op α κ) : Pair α where
  real := pair.real.bind fun result => call allocator result.1 op
  ideal := onSequence pair.ideal.1 op

def Agrees (κ : Type) (pair : Pair α) : Prop :=
  ∃ world, pair.real = some (world, pair.ideal.2) ∧ Represents κ world pair.ideal.1

/-- No insertion behind the last element. -/
def KeepsTail (items : List α) : Op α κ → Prop
  | .insertAtIndex _ index => nodeBefore index ≠ items.length
  | _ => True

theorem start_agrees : Agrees κ (start : Pair α) :=
  ⟨_, rfl, represents_of_spans (spans_init Heap.empty)⟩

theorem contents_insert_idx (cells : List (Nat × α)) (k : Nat) (cell : Nat × α) :
    contents (cells.insertIdx k cell) = (contents cells).insertIdx k cell.2 :=
  List.map_insertIdx Prod.snd cells k cell

theorem call_spans (allocator : Allocator α) {heap : Heap α} {list : ListHead}
    {cells : List (Nat × α)} (spans : Spans heap list cells none) (op : Op α κ)
    (keeps : KeepsTail (contents cells) op) :
    ∃ after left, call allocator ⟨heap, list⟩ op =
        some (after, (onSequence (contents cells) op).2) ∧
      Spans after.heap after.list left none ∧
      contents left = (onSequence (contents cells) op).1 := by
  cases op with
  | insertAtHead data =>
      rcases list_insert_at_head_spans allocator data spans with ⟨after, done, grown⟩
      exact ⟨after, _, by rw [call, done]; rfl, grown, rfl⟩
  | insertAtTail data =>
      rcases list_insert_at_tail_spans allocator data spans with ⟨after, done, grown⟩
      exact ⟨after, _, by rw [call, done]; rfl, grown, contents_append _ _⟩
  | insert data =>
      rcases list_insert_at_tail_spans allocator data spans with ⟨after, done, grown⟩
      exact ⟨after, _, by rw [call, listInsert, done]; rfl, grown, contents_append _ _⟩
  | insertAtIndex data index =>
      have notLast : (index - 1).toNat + 1 ≠ cells.length := by
        rw [← contents_length]
        exact keeps
      rcases list_insert_at_index_spans allocator data spans notLast with ⟨after, done, grown⟩
      exact ⟨after, _, by rw [call, done]; rfl, grown, contents_insert_idx _ _ _⟩
  | delete key compare =>
      rcases list_delete_spans key compare spans with ⟨after, left, done, fewer, same⟩
      exact ⟨after, left, by rw [call, done]; rfl, fewer, same⟩
  | deleteAtIndex idx =>
      rcases list_delete_at_index_spans idx spans with ⟨after, done, fewer⟩
      exact ⟨after, _, by rw [call, done]; rfl, fewer, contents_erase_idx _ _⟩
  | sort compare =>
      rcases list_sort_spans compare spans with ⟨after, done, sorted⟩
      exact ⟨after, _, by rw [call, done]; rfl, sorted, contents_sort_cells _ _⟩
  | reverse =>
      rcases list_reverse_spans spans with ⟨after, done, turned⟩
      exact ⟨after, _, by rw [call, done]; rfl, turned, contents_reverse _⟩
  | destroy destroy =>
      rcases list_destroy_spans spans destroy with ⟨after, done, freed⟩
      exact ⟨after, [], by rw [call, done]; rfl, freed, rfl⟩

theorem step_agrees (allocator : Allocator α) (pair : Pair α) (op : Op α κ)
    (agrees : Agrees κ pair) (keeps : KeepsTail pair.ideal.1 op) :
    Agrees κ (step allocator pair op) := by
  rcases agrees with ⟨⟨heap, list⟩, real, represents⟩
  rcases represents.cells with ⟨cells, same, spans⟩
  rw [← same] at keeps
  rcases call_spans allocator spans op keeps with ⟨after, left, done, final, result⟩
  refine ⟨after, ?_, ?_⟩
  · rw [step, real, Option.bind_some, done, same]
  · have shown := @represents_of_spans _ κ _ _ _ final
    rw [result, same] at shown
    exact shown

theorem step_loses_tail (allocator : Allocator α) (pair : Pair α) (op : Op α κ)
    (agrees : Agrees κ pair) (loses : ¬ KeepsTail pair.ideal.1 op) :
    ¬ Agrees κ (step allocator pair op) := by
  cases op with
  | insertAtIndex data index =>
      have behindLast : (index - 1).toNat + 1 = pair.ideal.1.length := not_not.mp loses
      rcases agrees with ⟨⟨heap, list⟩, real, represents⟩
      rcases represents.cells with ⟨cells, same, spans⟩
      rw [← same, contents_length] at behindLast
      rcases List.eq_nil_or_concat' cells with rfl | ⟨front, last, rfl⟩
      · exact absurd behindLast (Nat.succ_ne_zero _)
      · rw [List.length_append, List.length_singleton] at behindLast
        have position : (index - 1).toNat = front.length := Nat.succ.inj behindLast
        have tail := tail_of_last spans
        rcases list_insert_at_index_walks allocator data spans position with ⟨written, done, walk⟩
        rintro ⟨after, real', represents'⟩
        rcases represents'.cells with ⟨cells', _, spans'⟩
        have reached : after = ⟨written, { list with len := list.len + 1 }⟩ := by
          simp only [step, real, Option.bind_some, call, done, Option.map_some,
            Option.some.injEq, Prod.mk.injEq] at real'
          exact real'.1.symm
        subst reached
        have cellsAre := segment_unique spans'.chain walk
        subst cellsAre
        rw [List.append_cons] at spans'
        have newTail := tail_of_last spans'
        have same : last.1 = allocator.malloc heap := Option.some.inj (tail.symm.trans newTail)
        apply fresh_outside allocator spans.chain
        rw [addresses_append]
        apply List.mem_append_right
        exact List.mem_singleton.mpr same.symm
  | insertAtHead data => exact absurd trivial loses
  | insertAtTail data => exact absurd trivial loses
  | insert data => exact absurd trivial loses
  | delete key compare => exact absurd trivial loses
  | deleteAtIndex idx => exact absurd trivial loses
  | sort compare => exact absurd trivial loses
  | reverse => exact absurd trivial loses
  | destroy destroy => exact absurd trivial loses

/-- The list agrees with the sequence all along a run exactly when no
`list_insert_at_index` of the run puts its node behind the last one. -/
theorem list_refines_iff (allocator : Allocator α) (ops : List (Op α κ)) :
    AlongRun (step allocator) (Agrees κ) start ops ↔
      EveryStep (fun items op => (onSequence items op).1) KeepsTail [] ops := by
  have exact_steps := @along_run_iff_every_step _ _ (step allocator) (Agrees κ)
    (fun pair op => KeepsTail pair.ideal.1 op) (Agrees κ) (fun _ agrees => agrees)
    (fun pair op => step_agrees allocator pair op)
    (fun pair op => step_loses_tail allocator pair op) start start_agrees ops
  rw [exact_steps]
  apply every_step_of_view fun pair : Pair α => pair.ideal.1
  intro pair op
  rfl

/-- A node put behind the last one is lost when the next is inserted at the tail. -/
theorem node_behind_last_is_lost :
    ¬ ∀ (allocator : Allocator Nat) (ops : List (Op Nat Nat)),
      AlongRun (step allocator) (Agrees Nat) start ops := by
  intro always
  have every := (along_run_iff_prefixes _ _).mp
    (always Allocator.bump [.insertAtHead 1, .insertAtIndex 2 1, .insertAtTail 3]) _
    (List.prefix_refl _)
  rcases every with ⟨world, real, represents⟩
  have visited := represents.traverse (List Nat) (fun seen data => seen ++ [data]) []
  have lost : (run (step Allocator.bump) start
      [(.insertAtHead 1 : Op Nat Nat), .insertAtIndex 2 1, .insertAtTail 3]).real.bind
      (fun result => listTraverse result.1 (fun seen data => seen ++ [data]) []) =
      some [1, 3] := by decide
  rw [real, Option.bind_some, visited] at lost
  exact absurd lost (by decide)

end Gk7102.LinkList
