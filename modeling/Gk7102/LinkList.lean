import Gk7102.ChainedHeap

/-!
# The linked list

`linklist.c` over a heap of chained cells. Every function keeps the pointer and
`len` updates of the source in their order. A step through NULL or through a freed
node has no result; neither has a loop that meets more nodes than the heap holds,
since it goes round a cycle and does not end. The `compare` callbacks look at the
data only, and `malloc` does not fail.
-/

namespace Gk7102.LinkList

set_option autoImplicit false

open Gk7102.ChainedHeap

variable {α κ σ : Type}

/-- The source's `List`; addresses stand for `struct node *`. -/
structure ListHead where
  head : Option Nat
  tail : Option Nat
  len : Int
deriving DecidableEq, Repr

def listInit : ListHead := ⟨none, none, 0⟩

structure World (α : Type) where
  heap : Heap α
  list : ListHead

def isEmpty (list : ListHead) : Bool := list.head.isNone

/-- Enough rounds to meet every allocated node once and then NULL. -/
def walkLimit (heap : Heap α) : Nat := heap.top + 1

def makeNode (allocator : Allocator α) (heap : Heap α) (data : α) : Heap α × Nat :=
  let n := allocator.malloc heap
  (heap.alloc n ⟨none, data⟩, n)

/-- `while (n->next)`: unlink `key` behind its predecessor. -/
def deleteNodeLoop (heap : Heap α) (list : ListHead) (key : Nat) :
    Nat → Nat → Option (World α)
  | 0, _ => none
  | rounds + 1, n => do
      let node ← heap.cell n
      match node.next with
      | none => some ⟨heap, list⟩
      | some following =>
          if following = key then do
            let tail := if some key = list.tail then some n else list.tail
            let removed ← heap.cell following
            let heap ← heap.setNext n removed.next
            some ⟨heap, { list with tail := tail, len := list.len - 1 }⟩
          else deleteNodeLoop heap list key rounds following

def deleteNode (world : World α) (key : Nat) : Option (World α) := do
  let n ← world.list.head
  if n = key then do
    let node ← world.heap.cell n
    some { world with list.head := node.next, list.len := world.list.len - 1 }
  else deleteNodeLoop world.heap world.list key (walkLimit world.heap) n

def insertNode (world : World α) (key : Nat) : Option (World α) :=
  match world.list.head with
  | none => some { world with
      list.head := some key, list.tail := some key, list.len := world.list.len + 1 }
  | some _ => do
      let last ← world.list.tail
      let heap ← world.heap.setNext last (some key)
      some ⟨heap, { world.list with tail := some key, len := world.list.len + 1 }⟩

/-- `while (n && i < idx) { i++; n = n->next; }` -/
def skipLoop (heap : Heap α) (idx : Int) : Nat → Int → Option Nat → Option (Option Nat)
  | 0, _, _ => none
  | _ + 1, _, none => some none
  | rounds + 1, i, some n =>
      if i < idx then do
        let node ← heap.cell n
        skipLoop heap idx rounds (i + 1) node.next
      else some (some n)

def getNode (world : World α) (idx : Int) : Option (Option Nat) :=
  skipLoop world.heap idx (walkLimit world.heap) 0 world.list.head

def listInsertAtHead (allocator : Allocator α) (world : World α) (data : α) :
    Option (World α) :=
  let (heap, n) := makeNode allocator world.heap data
  match world.list.head with
  | none => some ⟨heap, ⟨some n, some n, world.list.len + 1⟩⟩
  | some first => do
      let heap ← heap.setNext n (some first)
      some ⟨heap, { world.list with head := some n, len := world.list.len + 1 }⟩

/-- Nodes are counted from 1, and `tail` is not looked at. -/
def listInsertAtIndex (allocator : Allocator α) (world : World α) (data : α) (index : Int) :
    Option (World α) := do
  match ← skipLoop world.heap index (walkLimit world.heap) 1 world.list.head with
  | none => some world
  | some p => do
      let (heap, n) := makeNode allocator world.heap data
      let node ← heap.cell p
      let heap ← heap.setNext n node.next
      let heap ← heap.setNext p (some n)
      some ⟨heap, { world.list with len := world.list.len + 1 }⟩

def listInsertAtTail (allocator : Allocator α) (world : World α) (data : α) :
    Option (World α) :=
  let (heap, n) := makeNode allocator world.heap data
  if isEmpty world.list then
    some ⟨heap, ⟨some n, some n, world.list.len + 1⟩⟩
  else do
    let last ← world.list.tail
    let heap ← heap.setNext last (some n)
    some ⟨heap, { world.list with tail := some n, len := world.list.len + 1 }⟩

def listInsert (allocator : Allocator α) (world : World α) (data : α) : Option (World α) :=
  listInsertAtTail allocator world data

def listGetLength (world : World α) : Int := world.list.len

/-- `while (n->next != NULL)`: unlink and free the first match behind the head. -/
def listDeleteLoop (heap : Heap α) (list : ListHead) (key : κ) (compare : α → κ → Int) :
    Nat → Nat → Option (World α × Option α)
  | 0, _ => none
  | rounds + 1, n => do
      let node ← heap.cell n
      match node.next with
      | none => some (⟨heap, list⟩, none)
      | some t => do
          let removed ← heap.cell t
          if compare removed.data key = 0 then do
            let tail := if some t = list.tail then some n else list.tail
            let heap ← heap.setNext n removed.next
            let heap ← heap.free t
            some (⟨heap, { list with tail := tail, len := list.len - 1 }⟩, some removed.data)
          else listDeleteLoop heap list key compare rounds t

def listDelete (world : World α) (key : κ) (compare : α → κ → Int) :
    Option (World α × Option α) :=
  if listGetLength world = 0 then some (world, none)
  else do
    let n ← world.list.head
    let node ← world.heap.cell n
    if compare node.data key = 0 then do
      let heap ← world.heap.free n
      some (⟨heap, { world.list with head := node.next, len := world.list.len - 1 }⟩,
        some node.data)
    else listDeleteLoop world.heap world.list key compare (walkLimit world.heap) n

def listDeleteAtIndex (world : World α) (idx : Int) : Option (World α × Option α) := do
  match ← getNode world idx with
  | none => some (world, none)
  | some n => do
      let node ← world.heap.cell n
      let world ← deleteNode world n
      let heap ← world.heap.free n
      some ({ world with heap := heap }, some node.data)

def listSearchLoop (heap : Heap α) (key : κ) (compare : α → κ → Int) :
    Nat → Option Nat → Option (Option α)
  | 0, _ => none
  | _ + 1, none => some none
  | rounds + 1, some n => do
      let node ← heap.cell n
      if compare node.data key = 0 then some (some node.data)
      else listSearchLoop heap key compare rounds node.next

def listSearch (world : World α) (key : κ) (compare : α → κ → Int) : Option (Option α) :=
  listSearchLoop world.heap key compare (walkLimit world.heap) world.list.head

def findMinLoop (heap : Heap α) (compare : α → α → Int) : Nat → Nat → Option Nat → Option Nat
  | 0, _, _ => none
  | _ + 1, least, none => some least
  | rounds + 1, least, some n => do
      let leastNode ← heap.cell least
      let node ← heap.cell n
      findMinLoop heap compare rounds
        (if compare leastNode.data node.data > 0 then n else least) node.next

/-- On an empty list the source returns NULL, which `list_sort` never asks for. -/
def findMinNode (world : World α) (compare : α → α → Int) : Option Nat :=
  world.list.head.bind fun least =>
    findMinLoop world.heap compare (walkLimit world.heap) least world.list.head

/-- `while (!is_empty(list))`: `tmp` collects the nodes, in the same heap. -/
def listSortLoop (compare : α → α → Int) :
    Nat → World α → ListHead → Option (World α × ListHead)
  | 0, _, _ => none
  | rounds + 1, world, tmp =>
      if isEmpty world.list then some (world, tmp)
      else do
        let n ← findMinNode world compare
        let world ← deleteNode world n
        let collected ← insertNode ⟨world.heap, tmp⟩ n
        listSortLoop compare rounds ⟨collected.heap, world.list⟩ collected.list

def listSort (world : World α) (compare : α → α → Int) : Option (World α) := do
  let (world, tmp) ← listSortLoop compare (walkLimit world.heap) world listInit
  some ⟨world.heap, ⟨tmp.head, tmp.tail, tmp.len⟩⟩

/-- The handler keeps its own state, and sees the data in turn. -/
def listTraverseLoop (heap : Heap α) (handle : σ → α → σ) :
    Nat → Option Nat → σ → Option σ
  | 0, _, _ => none
  | _ + 1, none, priv => some priv
  | rounds + 1, some p, priv => do
      let node ← heap.cell p
      listTraverseLoop heap handle rounds node.next (handle priv node.data)

def listTraverse (world : World α) (handle : σ → α → σ) (priv : σ) : Option σ :=
  listTraverseLoop world.heap handle (walkLimit world.heap) world.list.head priv

def listReverseLoop : Nat → World α → Option Nat → Option Nat → Option (World α)
  | 0, _, _, _ => none
  | _ + 1, world, _, none => some world
  | rounds + 1, world, pre, some p => do
      let node ← world.heap.cell p
      let head := if node.next = none then some p else world.list.head
      let heap ← world.heap.setNext p pre
      listReverseLoop rounds ⟨heap, { world.list with head := head }⟩ (some p) node.next

def listReverse (world : World α) : Option (World α) :=
  listReverseLoop (walkLimit world.heap) { world with list.tail := world.list.head }
    none world.list.head

/-- The source's loop, counted from 0. -/
def listGetElement (world : World α) (idx : Int) : Option (Option α) := do
  match ← skipLoop world.heap idx (walkLimit world.heap) 0 world.list.head with
  | none => some none
  | some n => do
      let node ← world.heap.cell n
      some (some node.data)

/-- Frees every node; the data go to `destroy` in turn, when there is one. -/
def listDestroyLoop (destroy : Bool) :
    Nat → Heap α → Option Nat → List α → Option (Heap α × List α)
  | 0, _, _, _ => none
  | _ + 1, heap, none, destroyed => some (heap, destroyed)
  | rounds + 1, heap, some n, destroyed => do
      let node ← heap.cell n
      let heap ← heap.free n
      listDestroyLoop destroy rounds heap node.next
        (if destroy then destroyed ++ [node.data] else destroyed)

def listDestroy (world : World α) (destroy : Bool) : Option (World α × List α) := do
  let (heap, destroyed) ←
    listDestroyLoop destroy (walkLimit world.heap) world.heap world.list.head []
  some (⟨heap, listInit⟩, destroyed)

end Gk7102.LinkList
