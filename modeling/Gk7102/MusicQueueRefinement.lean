import Gk7102.LinkListOrder
import Gk7102.MusicQueueNodes

/-!
# The song queue and its nodes

All the calls of `musiclist.c` on the linked list, against the same calls on the sequence of
songs: whatever is called in whatever order, both return the same.
-/

namespace Gk7102.MusicQueueRefinement

open Gk7102.ChainedHeap
open Gk7102.LinkList
open Gk7102.MusicQueue (MusicInfo MusicList PlayMode QueueOp)
open Gk7102.MusicQueueNodes

set_option autoImplicit false

section Source

/-- `mozart_musiclist_create`, where there is memory; other objects may be on the heap. -/
def mozartMusiclistCreate (heap : Heap MusicInfo) (freeData : Bool) : NodeList :=
  ⟨⟨heap, listInit⟩, -1, -1, .order, freeData⟩

/-- The cursor is set, and the song it designates returned. -/
def movedTo (list : NodeList) (index : Int) : Option (Option MusicInfo × NodeList) := do
  let info ← listGetElement list.world index
  some (info, { list with currentIndex := index })

def randomIndex (random : Nat) (list : NodeList) : Int :=
  ((random % 2 ^ 32) % (mozartMusiclistGetLength list).toNat : Nat)

def prevIndex (random : Nat) (list : NodeList) : Int :=
  match list.mode with
  | .random => randomIndex random list
  | _ =>
      if list.currentIndex ≤ 0 then mozartMusiclistGetLength list - 1
      else list.currentIndex - 1

def nextIndex (random : Nat) (list : NodeList) (force : Bool) : Int :=
  let advanced := Int.tmod (list.currentIndex + 1) (mozartMusiclistGetLength list)
  match list.mode with
  | .random => randomIndex random list
  | .single => if force = false then list.currentIndex else advanced
  | _ => advanced

def mozartMusiclistSetPrev (random : Nat) (list : NodeList) :
    Option (Option MusicInfo × NodeList) :=
  if mozartMusiclistGetLength list = 0 then some (none, list)
  else movedTo list (prevIndex random list)

def mozartMusiclistSetNext (random : Nat) (list : NodeList) (force : Bool) :
    Option (Option MusicInfo × NodeList) :=
  if mozartMusiclistGetLength list = 0 then some (none, list)
  else movedTo list (nextIndex random list force)

def mozartMusiclistSetIndex (list : NodeList) (index : Int) :
    Option (Option MusicInfo × NodeList) :=
  if index ≥ mozartMusiclistGetLength list ∨ index < 0 then some (none, list)
  else movedTo list index

/-- The loop of `mozart_musiclist_clean`. -/
def deleteHeads : Nat → World MusicInfo → Option (World MusicInfo)
  | 0, world => some world
  | count + 1, world => do
      let deleted ← listDeleteAtIndex world 0
      deleteHeads count deleted.1

def mozartMusiclistClean (list : NodeList) : Option (Int × NodeList) := do
  let world ← deleteHeads (mozartMusiclistGetLength list).toNat list.world
  some (0, ⟨world, -1, -1, .order, list.freeData⟩)

inductive Returned where
  | code (ret : Int)
  | song (info : Option MusicInfo)
deriving DecidableEq, Repr

def nodeCall (allocator : Allocator MusicInfo) (list : NodeList) :
    QueueOp → Option (Returned × NodeList)
  | .insert info => (mozartMusiclistInsert allocator list info).map (Prod.map .code id)
  | .deleteIndex index => (mozartMusiclistDeleteIndex list index).map (Prod.map .code id)
  | .setPrev random => (mozartMusiclistSetPrev random list).map (Prod.map .song id)
  | .setNext random force => (mozartMusiclistSetNext random list force).map (Prod.map .song id)
  | .setIndex index => (mozartMusiclistSetIndex list index).map (Prod.map .song id)
  | .setPlayMode mode => some (.code 0, { list with mode := mode })
  | .setMaxIndex maxIndex => some (.code 0, { list with maxIndex := maxIndex })
  | .clean => (mozartMusiclistClean list).map (Prod.map .code id)

def queueCall (list : Option MusicList) : QueueOp → Returned × Option MusicList
  | .insert info => Prod.map .code id (MusicQueue.mozartMusiclistInsert list info)
  | .deleteIndex index => Prod.map .code id (MusicQueue.mozartMusiclistDeleteIndex list index)
  | .setPrev random => Prod.map .song id (MusicQueue.mozartMusiclistSetPrev random list)
  | .setNext random force =>
      Prod.map .song id (MusicQueue.mozartMusiclistSetNext random list force)
  | .setIndex index => Prod.map .song id (MusicQueue.mozartMusiclistSetIndex list index)
  | .setPlayMode mode => Prod.map .code id (MusicQueue.mozartMusiclistSetPlayMode list mode)
  | .setMaxIndex maxIndex =>
      Prod.map .code id (MusicQueue.mozartMusiclistSetMaxIndex list maxIndex)
  | .clean => Prod.map .code id (MusicQueue.mozartMusiclistClean list)

def nodeRun (allocator : Allocator MusicInfo) (list : NodeList) :
    List QueueOp → Option (List Returned × NodeList)
  | [] => some ([], list)
  | op :: rest => do
      let first ← nodeCall allocator list op
      let later ← nodeRun allocator first.2 rest
      some (first.1 :: later.1, later.2)

def queueRun (list : Option MusicList) : List QueueOp → List Returned × Option MusicList
  | [] => ([], list)
  | op :: rest =>
      let first := queueCall list op
      let later := queueRun first.2 rest
      (first.1 :: later.1, later.2)

end Source

section Refinement

variable {list : NodeList} {cells : List (Nat × MusicInfo)}

/-- The call on the nodes came to an end and did what `expected` says. -/
def Follows {Result : Type} (result : Option (Result × NodeList))
    (expected : Result × Option MusicList) : Prop :=
  ∃ ret after left, result = some (ret, after) ∧ Holds after left ∧
    expected = (ret, some (sequenceOf after left))

theorem follows_map {Result Other : Type} {result : Option (Result × NodeList)}
    {expected : Result × Option MusicList} (follows : Follows result expected)
    (f : Result → Other) : Follows (result.map (Prod.map f id)) (Prod.map f id expected) := by
  rcases follows with ⟨ret, after, left, rfl, holds, rfl⟩
  exact ⟨f ret, after, left, rfl, holds, rfl⟩

theorem length_of_sequence (list : NodeList) (cells : List (Nat × MusicInfo)) :
    (sequenceOf list cells).list.length = cells.length := contents_length cells

theorem moved_to_follows (holds : Holds list cells) (index : Int) :
    Follows (movedTo list index) (MusicQueue.listGetElement (contents cells) index,
      some { sequenceOf list cells with currentIndex := index }) := by
  have found : listGetElement list.world index = some (contents cells)[index.toNat]? :=
    list_get_element_finds holds index
  refine ⟨_, { list with currentIndex := index }, cells, ?_, holds, rfl⟩
  rw [movedTo, found]
  rfl

theorem random_index_eq (holds : Holds list cells) (random : Nat) :
    MusicQueue.randomIndex random (sequenceOf list cells) = randomIndex random list := by
  rw [MusicQueue.randomIndex, randomIndex, length_of_sequence, length_of_holds holds,
    Int.toNat_natCast]

theorem prev_index_eq (holds : Holds list cells) (random : Nat) :
    MusicQueue.prevIndex random (sequenceOf list cells) = prevIndex random list := by
  rw [MusicQueue.prevIndex, prevIndex, random_index_eq holds, length_of_sequence,
    length_of_holds holds]
  rfl

theorem next_index_eq (holds : Holds list cells) (random : Nat) (force : Bool) :
    MusicQueue.nextIndex random (sequenceOf list cells) force = nextIndex random list force := by
  rw [MusicQueue.nextIndex, nextIndex, random_index_eq holds, length_of_sequence,
    length_of_holds holds]
  rfl

theorem length_zero_iff (holds : Holds list cells) :
    MusicQueue.mozartMusiclistGetLength (some (sequenceOf list cells)) =
      mozartMusiclistGetLength list := by
  rw [MusicQueue.mozartMusiclistGetLength, length_of_sequence, length_of_holds holds]

theorem set_prev_follows (holds : Holds list cells) (random : Nat) :
    Follows (mozartMusiclistSetPrev random list)
      (MusicQueue.mozartMusiclistSetPrev random (some (sequenceOf list cells))) := by
  rw [mozartMusiclistSetPrev, MusicQueue.mozartMusiclistSetPrev, length_zero_iff holds,
    prev_index_eq holds]
  split
  · exact ⟨none, list, cells, rfl, holds, rfl⟩
  · exact moved_to_follows holds _

theorem set_next_follows (holds : Holds list cells) (random : Nat) (force : Bool) :
    Follows (mozartMusiclistSetNext random list force)
      (MusicQueue.mozartMusiclistSetNext random (some (sequenceOf list cells)) force) := by
  rw [mozartMusiclistSetNext, MusicQueue.mozartMusiclistSetNext, length_zero_iff holds,
    next_index_eq holds]
  split
  · exact ⟨none, list, cells, rfl, holds, rfl⟩
  · exact moved_to_follows holds _

theorem set_index_follows (holds : Holds list cells) (index : Int) :
    Follows (mozartMusiclistSetIndex list index)
      (MusicQueue.mozartMusiclistSetIndex (some (sequenceOf list cells)) index) := by
  rw [mozartMusiclistSetIndex, MusicQueue.mozartMusiclistSetIndex, length_zero_iff holds]
  split
  · exact ⟨none, list, cells, rfl, holds, rfl⟩
  · exact moved_to_follows holds index

theorem delete_heads_spans (cells : List (Nat × MusicInfo)) {world : World MusicInfo}
    (spans : Spans world.heap world.list cells none) :
    ∃ after, deleteHeads cells.length world = some after ∧
      Spans after.heap after.list [] none := by
  induction cells generalizing world with
  | nil => exact ⟨world, rfl, spans⟩
  | cons head rest induction =>
      rcases list_delete_at_index_spans 0 spans with ⟨shorter, deleted, remains⟩
      rcases induction remains with ⟨after, done, empty⟩
      refine ⟨after, ?_, empty⟩
      rw [List.length_cons, deleteHeads, deleted]
      exact done

theorem clean_follows (holds : Holds list cells) :
    Follows (mozartMusiclistClean list)
      (MusicQueue.mozartMusiclistClean (some (sequenceOf list cells))) := by
  rcases delete_heads_spans cells holds with ⟨after, done, empty⟩
  refine ⟨0, ⟨after, -1, -1, .order, list.freeData⟩, [], ?_, empty, ?_⟩
  · rw [mozartMusiclistClean, length_of_holds holds, Int.toNat_natCast, done]
    rfl
  · rw [MusicQueue.mozartMusiclistClean]
    rw [MusicQueue.delete_heads_all]
    rfl

theorem call_follows (allocator : Allocator MusicInfo) (holds : Holds list cells)
    (op : QueueOp) :
    Follows (nodeCall allocator list op) (queueCall (some (sequenceOf list cells)) op) := by
  cases op with
  | insert info => exact follows_map (insert_refines allocator holds info) Returned.code
  | deleteIndex index => exact follows_map (delete_index_refines holds index) Returned.code
  | setPrev random => exact follows_map (set_prev_follows holds random) Returned.song
  | setNext random force => exact follows_map (set_next_follows holds random force) Returned.song
  | setIndex index => exact follows_map (set_index_follows holds index) Returned.song
  | setPlayMode mode => exact ⟨_, { list with mode := mode }, cells, rfl, holds, rfl⟩
  | setMaxIndex maxIndex =>
      exact ⟨_, { list with maxIndex := maxIndex }, cells, rfl, holds, rfl⟩
  | clean => exact follows_map (clean_follows holds) Returned.code

theorem run_follows (allocator : Allocator MusicInfo) (holds : Holds list cells)
    (ops : List QueueOp) :
    Follows (nodeRun allocator list ops) (queueRun (some (sequenceOf list cells)) ops) := by
  induction ops generalizing list cells with
  | nil => exact ⟨[], list, cells, rfl, holds, rfl⟩
  | cons op rest induction =>
      rcases call_follows allocator holds op with ⟨ret, after, left, done, kept, expected⟩
      rcases induction kept with ⟨rets, final, last, later, held, ahead⟩
      refine ⟨ret :: rets, final, last, ?_, held, ?_⟩
      · rw [nodeRun, done]
        change (nodeRun allocator after rest >>= _) = _
        rw [later]
        rfl
      · rw [queueRun, expected]
        dsimp only
        rw [ahead]

theorem queue_run_state (list : Option MusicList) (ops : List QueueOp) :
    (queueRun list ops).2 = StepRuns.run MusicQueue.queueStep list ops := by
  induction ops generalizing list with
  | nil => rfl
  | cons op rest induction =>
      have one : (queueCall list op).2 = MusicQueue.queueStep list op := by cases op <;> rfl
      rw [queueRun, StepRuns.run_cons, ← one]
      exact induction _

end Refinement

/-- Every run of calls on a queue that has been created comes to its end without a stray
pointer or a node freed twice. Each call returns what it does on the sequence of songs, and
the nodes hold that sequence. -/
theorem queue_refines_along_run (allocator : Allocator MusicInfo) (heap : Heap MusicInfo)
    (freeData : Bool) (ops : List QueueOp) :
    ∃ after cells,
      nodeRun allocator (mozartMusiclistCreate heap freeData) ops =
          some ((queueRun (MusicQueue.mozartMusiclistCreate true freeData) ops).1, after) ∧
        Holds after cells ∧
        StepRuns.run MusicQueue.queueStep (MusicQueue.mozartMusiclistCreate true freeData) ops =
          some (sequenceOf after cells) := by
  have created : Holds (mozartMusiclistCreate heap freeData) [] := spans_init heap
  have start : MusicQueue.mozartMusiclistCreate true freeData =
      some (sequenceOf (mozartMusiclistCreate heap freeData) []) := rfl
  rcases run_follows allocator created ops with ⟨rets, after, cells, done, holds, expected⟩
  rw [← queue_run_state, start, expected]
  exact ⟨after, cells, done, holds, rfl⟩

end Gk7102.MusicQueueRefinement
