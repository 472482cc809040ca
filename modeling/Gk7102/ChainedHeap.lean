import Mathlib.Data.List.Basic
import Mathlib.Data.List.Nodup
import Mathlib.Data.List.Perm.Basic
import Mathlib.Data.List.Perm.Subperm
import Mathlib.Logic.Function.Basic

/-!
# Chains of heap cells

A heap of cells, addressed by numbers, that each hold one value and a pointer to
the next cell. `Segment`
says which cells a walk along the pointers meets and where it ends; the rules below
split a segment, keep it when other cells change, and say what one pointer write
does to it. A segment that ends in NULL and meets no cell twice is an acyclic chain.
-/

namespace Gk7102.ChainedHeap

set_option autoImplicit false

structure Node (α : Type*) where
  next : Option Nat
  data : α
deriving DecidableEq, Repr

/-- Only finitely many cells are allocated: none from `top` on. -/
structure Heap (α : Type*) where
  cell : Nat → Option (Node α)
  top : Nat
  bounded : ∀ address, top ≤ address → cell address = none

variable {α : Type*}

namespace Heap

def empty : Heap α where
  cell _ := none
  top := 0
  bounded _ _ := rfl

def alloc (heap : Heap α) (address : Nat) (node : Node α) : Heap α where
  cell := Function.update heap.cell address (some node)
  top := max heap.top (address + 1)
  bounded other above := by
    have different : other ≠ address := by omega
    rw [Function.update_of_ne different]
    exact heap.bounded other (by omega)

/-- A write through a pointer to a cell that is not allocated has no result. -/
def setNext (heap : Heap α) (address : Nat) (next : Option Nat) : Option (Heap α) :=
  match found : heap.cell address with
  | none => none
  | some node => some {
      cell := Function.update heap.cell address (some { node with next := next })
      top := heap.top
      bounded := by
        intro other above
        have different : other ≠ address := by
          rintro rfl
          rw [heap.bounded other above] at found
          exact absurd found (by simp)
        rw [Function.update_of_ne different]
        exact heap.bounded other above }

/-- Freeing a cell that is not allocated has no result. -/
def free (heap : Heap α) (address : Nat) : Option (Heap α) :=
  match heap.cell address with
  | none => none
  | some _ => some {
      cell := Function.update heap.cell address none
      top := heap.top
      bounded := by
        intro other above
        by_cases same : other = address
        · rw [same, Function.update_self]
        · rw [Function.update_of_ne same]
          exact heap.bounded other above }

theorem below_top {heap : Heap α} {address : Nat} {node : Node α}
    (live : heap.cell address = some node) : address < heap.top := by
  by_contra above
  rw [heap.bounded address (by omega)] at live
  exact absurd live (by simp)

@[simp] theorem alloc_same (heap : Heap α) (address : Nat) (node : Node α) :
    (heap.alloc address node).cell address = some node := Function.update_self _ _ _

theorem alloc_other (heap : Heap α) {address other : Nat} (node : Node α)
    (different : other ≠ address) : (heap.alloc address node).cell other = heap.cell other :=
  Function.update_of_ne different _ _

theorem set_next_of_live {heap : Heap α} {address : Nat} {node : Node α}
    (live : heap.cell address = some node) (next : Option Nat) :
    ∃ written, heap.setNext address next = some written ∧ written.top = heap.top ∧
      written.cell address = some ⟨next, node.data⟩ ∧
      ∀ other, other ≠ address → written.cell other = heap.cell other := by
  unfold setNext
  split
  · rename_i dead
    rw [dead] at live
    exact absurd live (by simp)
  · rename_i found alive
    have same : found = node := Option.some.inj (alive.symm.trans live)
    subst same
    refine ⟨_, rfl, rfl, Function.update_self _ _ _, ?_⟩
    intro other different
    exact Function.update_of_ne different _ _

theorem free_of_live {heap : Heap α} {address : Nat} {node : Node α}
    (live : heap.cell address = some node) :
    ∃ freed, heap.free address = some freed ∧ freed.top = heap.top ∧
      freed.cell address = none ∧
      ∀ other, other ≠ address → freed.cell other = heap.cell other := by
  unfold free
  split
  · rename_i dead
    rw [dead] at live
    exact absurd live (by simp)
  · refine ⟨_, rfl, rfl, Function.update_self _ _ _, ?_⟩
    intro other different
    exact Function.update_of_ne different _ _

end Heap

/-- Any allocator will do that never returns a cell in use. -/
structure Allocator (α : Type*) where
  malloc : Heap α → Nat
  fresh : ∀ heap : Heap α, heap.cell (malloc heap) = none

def Allocator.bump : Allocator α where
  malloc heap := heap.top
  fresh heap := heap.bounded heap.top (Nat.le_refl _)

/-- From `start` the walk meets exactly these cells and then arrives at `stop`. -/
def Segment (heap : Heap α) : Option Nat → List (Nat × α) → Option Nat → Prop
  | start, [], stop => start = stop
  | start, cell :: rest, stop => start = some cell.1 ∧
      ∃ next, heap.cell cell.1 = some ⟨next, cell.2⟩ ∧ Segment heap next rest stop

def addresses (cells : List (Nat × α)) : List Nat := cells.map Prod.fst

def contents (cells : List (Nat × α)) : List α := cells.map Prod.snd

@[simp] theorem addresses_cons (cell : Nat × α) (rest : List (Nat × α)) :
    addresses (cell :: rest) = cell.1 :: addresses rest := rfl

@[simp] theorem addresses_append (front back : List (Nat × α)) :
    addresses (front ++ back) = addresses front ++ addresses back := List.map_append

@[simp] theorem contents_cons (cell : Nat × α) (rest : List (Nat × α)) :
    contents (cell :: rest) = cell.2 :: contents rest := rfl

@[simp] theorem contents_append (front back : List (Nat × α)) :
    contents (front ++ back) = contents front ++ contents back := List.map_append

@[simp] theorem contents_length (cells : List (Nat × α)) :
    (contents cells).length = cells.length := List.length_map Prod.snd

@[simp] theorem addresses_reverse (cells : List (Nat × α)) :
    addresses cells.reverse = (addresses cells).reverse := List.map_reverse

@[simp] theorem contents_reverse (cells : List (Nat × α)) :
    contents cells.reverse = (contents cells).reverse := List.map_reverse

theorem addresses_erase_idx (cells : List (Nat × α)) (k : Nat) :
    addresses (cells.eraseIdx k) = (addresses cells).eraseIdx k :=
  (List.eraseIdx_map _ _ _).symm

theorem contents_erase_idx (cells : List (Nat × α)) (k : Nat) :
    contents (cells.eraseIdx k) = (contents cells).eraseIdx k :=
  (List.eraseIdx_map _ _ _).symm

theorem distinct_behind {front back : List (Nat × α)}
    (distinct : (addresses (front ++ back)).Nodup) : (addresses back).Nodup := by
  rw [addresses_append] at distinct
  exact distinct.of_append_right

theorem apart_from_rest {cell : Nat × α} {rest : List (Nat × α)}
    (distinct : (addresses (cell :: rest)).Nodup) {other : Nat × α} (member : other ∈ rest) :
    other.1 ≠ cell.1 := by
  intro same
  have repeated := (List.nodup_cons.mp distinct).1
  rw [← same] at repeated
  exact repeated (List.mem_map_of_mem member)

theorem addresses_perm_erase {cells : List (Nat × α)} {k : Nat} (within : k < cells.length) :
    (addresses cells).Perm (cells[k].1 :: addresses (cells.eraseIdx k)) :=
  ((List.getElem_cons_eraseIdx_perm within).map Prod.fst).symm

theorem erased_outside {cells : List (Nat × α)} {k : Nat} (within : k < cells.length)
    (distinct : (addresses cells).Nodup) : cells[k].1 ∉ addresses (cells.eraseIdx k) :=
  (List.nodup_cons.mp ((addresses_perm_erase within).nodup_iff.mp distinct)).1

section Rules

variable {heap : Heap α} {start stop : Option Nat}

theorem segment_cons {cell : Nat × α} {rest : List (Nat × α)} :
    Segment heap start (cell :: rest) stop ↔ start = some cell.1 ∧
      ∃ next, heap.cell cell.1 = some ⟨next, cell.2⟩ ∧ Segment heap next rest stop := Iff.rfl

theorem segment_append {front back : List (Nat × α)} :
    Segment heap start (front ++ back) stop ↔
      ∃ middle, Segment heap start front middle ∧ Segment heap middle back stop := by
  induction front generalizing start with
  | nil =>
      constructor
      · intro walk
        exact ⟨start, rfl, walk⟩
      · rintro ⟨middle, rfl, walk⟩
        exact walk
  | cons cell rest ih =>
      rw [List.cons_append, segment_cons]
      constructor
      · rintro ⟨here, next, live, walk⟩
        rcases ih.mp walk with ⟨middle, before, after⟩
        exact ⟨middle, ⟨here, next, live, before⟩, after⟩
      · rintro ⟨middle, ⟨here, next, live, before⟩, after⟩
        exact ⟨here, next, live, ih.mpr ⟨middle, before, after⟩⟩

theorem segment_frame {other : Heap α} {cells : List (Nat × α)}
    (agree : ∀ address ∈ addresses cells, other.cell address = heap.cell address)
    (walk : Segment heap start cells stop) : Segment other start cells stop := by
  induction cells generalizing start with
  | nil => exact walk
  | cons cell rest ih =>
      rcases walk with ⟨here, next, live, walk⟩
      have later : ∀ address ∈ addresses rest, other.cell address = heap.cell address := by
        intro address member
        exact agree address (List.mem_cons_of_mem _ member)
      refine ⟨here, next, ?_, ih later walk⟩
      rw [agree cell.1 List.mem_cons_self]
      exact live

theorem segment_live {cells : List (Nat × α)} (walk : Segment heap start cells stop)
    {address : Nat} (member : address ∈ addresses cells) :
    ∃ node, heap.cell address = some node := by
  induction cells generalizing start with
  | nil => exact absurd member List.not_mem_nil
  | cons cell rest ih =>
      rcases walk with ⟨here, next, live, walk⟩
      rcases List.mem_cons.mp member with rfl | later
      · exact ⟨_, live⟩
      · exact ih walk later

theorem segment_redirect_last {front : List (Nat × α)} {last : Nat × α}
    (walk : Segment heap start (front ++ [last]) stop)
    (distinct : (addresses (front ++ [last])).Nodup) (target : Option Nat) :
    ∃ written, heap.setNext last.1 target = some written ∧ written.top = heap.top ∧
      Segment written start (front ++ [last]) target ∧
      ∀ other, other ≠ last.1 → written.cell other = heap.cell other := by
  rcases segment_append.mp walk with ⟨middle, before, here, next, live, atEnd⟩
  rcases Heap.set_next_of_live live target with ⟨written, wrote, top, self, others⟩
  have outside : last.1 ∉ addresses front := by
    intro member
    rw [addresses_append] at distinct
    exact (List.disjoint_of_nodup_append distinct) member List.mem_cons_self
  refine ⟨written, wrote, top, ?_, others⟩
  apply segment_append.mpr
  refine ⟨middle, ?_, here, target, self, rfl⟩
  apply segment_frame _ before
  intro address member
  apply others
  intro same
  exact outside (same ▸ member)

/-- There is one walk to NULL from a pointer. -/
theorem segment_unique {cells others : List (Nat × α)} (walk : Segment heap start cells none)
    (again : Segment heap start others none) : cells = others := by
  induction cells generalizing start others with
  | nil =>
      cases others with
      | nil => rfl
      | cons other rest =>
          have empty : start = none := walk
          rw [empty] at again
          exact absurd again.1 (by simp)
  | cons cell rest ih =>
      rcases walk with ⟨here, next, live, walk⟩
      cases others with
      | nil =>
          have empty : start = none := again
          rw [empty] at here
          exact absurd here (by simp)
      | cons other rest' =>
          rcases again with ⟨here', next', live', again⟩
          have address : cell.1 = other.1 := Option.some.inj (here.symm.trans here')
          rw [← address, live] at live'
          have node := Option.some.inj live'
          have value : cell.2 = other.2 := congrArg Node.data node
          have pointer : next = next' := congrArg Node.next node
          subst pointer
          rw [Prod.ext address value, ih walk again]

/-- A walk that repeats no cell is no longer than the heap is large. -/
theorem segment_length_le_top {cells : List (Nat × α)} (walk : Segment heap start cells stop)
    (distinct : (addresses cells).Nodup) : cells.length ≤ heap.top := by
  have within : addresses cells ⊆ List.range heap.top := by
    intro address member
    rcases segment_live walk member with ⟨node, live⟩
    exact List.mem_range.mpr (Heap.below_top live)
  have shorter := (distinct.subperm within).length_le
  rwa [List.length_range, addresses, List.length_map] at shorter

end Rules

end Gk7102.ChainedHeap
