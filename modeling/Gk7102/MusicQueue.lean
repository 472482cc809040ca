import Mathlib.Data.List.Basic
import Mathlib.Algebra.Group.Nat.Defs
import Mathlib.Data.Int.Init
import Gk7102.BoundedQueue
import Gk7102.StepRuns

/-!
# The song queue of the music player

`musiclist.c` keeps a linked list of songs, a bound, a cursor and a play mode.
A list pointer is an `Option`, with `none` for NULL; the chain of nodes is the
sequence it represents, and `listGetElement` keeps the reading of a negative
index as the head. A queue is bounded by memory, so its length is a plain number
that always fits the `int` it is returned in.
-/

namespace Gk7102.MusicQueue

open Gk7102.StepRuns

set_option autoImplicit false

structure MusicInfo where
  id : Int
  musicName : Option String
  musicUrl : Option String
  musicPicture : Option String
  albumsName : Option String
  artistsName : Option String
  data : Option String
deriving DecidableEq, Repr

/-- `allocated` tells whether every allocation of the call succeeds; otherwise
what was allocated is released again. -/
def mozartMusiclistGetInfo (allocated : Bool) (id : Int)
    (musicName musicUrl musicPicture albumsName artistsName data : Option String) :
    Option MusicInfo :=
  if allocated then
    some { id := id, musicName := musicName, musicUrl := musicUrl, musicPicture := musicPicture,
           albumsName := albumsName, artistsName := artistsName, data := data }
  else none

/-- An `enum play_mode` can hold any integer an app sent: the switches of the
source send every other value to their default branch. -/
inductive PlayMode where
  | order
  | single
  | random
  | other (value : Int)
deriving DecidableEq, Repr

/-- `freeData` tells whether the queue was created with a release function. -/
structure MusicList where
  list : List MusicInfo
  maxIndex : Int
  currentIndex : Int
  mode : PlayMode
  freeData : Bool
deriving DecidableEq, Repr

/-- The walk stops at once on an index that is not positive, so a negative
index designates the head. -/
def listGetElement (list : List MusicInfo) (idx : Int) : Option MusicInfo :=
  list[idx.toNat]?

def listDeleteAtIndex (list : List MusicInfo) (idx : Int) : List MusicInfo :=
  list.eraseIdx idx.toNat

def listInsertAtTail (list : List MusicInfo) (info : MusicInfo) : List MusicInfo :=
  list ++ [info]

def mozartMusiclistGetLength : Option MusicList → Int
  | none => -1
  | some queue => queue.list.length

def mozartMusiclistSetMaxIndex (list : Option MusicList) (maxIndex : Int) :
    Int × Option MusicList :=
  match list with
  | none => (-1, none)
  | some queue => (0, some { queue with maxIndex := maxIndex })

def mozartMusiclistSetPlayMode (list : Option MusicList) (mode : PlayMode) :
    Int × Option MusicList :=
  match list with
  | none => (-1, none)
  | some queue => (0, some { queue with mode := mode })

def mozartMusiclistGetPlayMode : Option MusicList → PlayMode
  | none => .order
  | some queue => queue.mode

def mozartMusiclistGetCurrentIndex : Option MusicList → Int
  | none => -1
  | some queue => queue.currentIndex

def mozartMusiclistGetCurrent (list : Option MusicList) : Option MusicInfo :=
  match list with
  | none => none
  | some queue =>
      if mozartMusiclistGetLength list = 0 then none
      else listGetElement queue.list queue.currentIndex

def mozartMusiclistGetIndex (list : Option MusicList) (index : Int) : Option MusicInfo :=
  match list with
  | none => none
  | some queue =>
      if index ≥ mozartMusiclistGetLength list ∨ index < 0 then none
      else listGetElement queue.list index

/-- The cursor chosen in random mode; `random()` is converted to `unsigned int`. -/
def randomIndex (random : Nat) (queue : MusicList) : Int :=
  ((random % 2 ^ 32) % queue.list.length : Nat)

def prevIndex (random : Nat) (queue : MusicList) : Int :=
  match queue.mode with
  | .random => randomIndex random queue
  | _ =>
      if queue.currentIndex ≤ 0 then (queue.list.length : Int) - 1
      else queue.currentIndex - 1

def mozartMusiclistSetPrev (random : Nat) (list : Option MusicList) :
    Option MusicInfo × Option MusicList :=
  match list with
  | none => (none, none)
  | some queue =>
      if mozartMusiclistGetLength list = 0 then (none, some queue)
      else
        (listGetElement queue.list (prevIndex random queue),
          some { queue with currentIndex := prevIndex random queue })

/-- Single mode falls through to order mode when the caller forces the move. -/
def nextIndex (random : Nat) (queue : MusicList) (force : Bool) : Int :=
  let advanced := Int.tmod (queue.currentIndex + 1) queue.list.length
  match queue.mode with
  | .random => randomIndex random queue
  | .single => if force = false then queue.currentIndex else advanced
  | _ => advanced

def mozartMusiclistSetNext (random : Nat) (list : Option MusicList) (force : Bool) :
    Option MusicInfo × Option MusicList :=
  match list with
  | none => (none, none)
  | some queue =>
      if mozartMusiclistGetLength list = 0 then (none, some queue)
      else
        (listGetElement queue.list (nextIndex random queue force),
          some { queue with currentIndex := nextIndex random queue force })

def mozartMusiclistSetIndex (list : Option MusicList) (index : Int) :
    Option MusicInfo × Option MusicList :=
  match list with
  | none => (none, none)
  | some queue =>
      if index ≥ mozartMusiclistGetLength list ∨ index < 0 then (none, some queue)
      else (listGetElement queue.list index, some { queue with currentIndex := index })

def mozartMusiclistDeleteIndex (list : Option MusicList) (index : Int) :
    Int × Option MusicList :=
  match list with
  | none => (-1, none)
  | some queue =>
      if index ≥ mozartMusiclistGetLength list ∨ index < 0 then (-1, some queue)
      else
        (0, some { queue with
          list := listDeleteAtIndex queue.list index
          currentIndex :=
            if index < queue.currentIndex then queue.currentIndex - 1
            else queue.currentIndex })

/-- The tail of `mozart_musiclist_insert`, once the oldest song has made room. -/
def appendSong (queue : MusicList) (info : MusicInfo) : MusicList :=
  { queue with
    list := listInsertAtTail queue.list info
    currentIndex := if queue.currentIndex < 0 then 0 else queue.currentIndex }

def mozartMusiclistInsert (list : Option MusicList) (info : Option MusicInfo) :
    Int × Option MusicList :=
  match list, info with
  | none, _ => (-1, none)
  | some queue, none => (-1, some queue)
  | some queue, some song =>
      if song.data.isSome ∧ queue.freeData = false then (-1, some queue)
      else if queue.maxIndex ≥ 0 ∧ queue.maxIndex ≤ mozartMusiclistGetLength list then
        match mozartMusiclistDeleteIndex list 0 with
        | (ret, some shorter) =>
            if ret < 0 then (-1, some shorter)
            else (shorter.list.length, some (appendSong shorter song))
        | (_, none) => (-1, none)
      else (queue.list.length, some (appendSong queue song))

/-- `callocated` is the outcome of the allocation. -/
def mozartMusiclistCreate (callocated freeData : Bool) : Option MusicList :=
  if callocated then
    some { list := [], maxIndex := -1, currentIndex := -1, mode := .order, freeData := freeData }
  else none

/-- The loop of `mozart_musiclist_clean`: the head is deleted `count` times. -/
def deleteHeads : Nat → List MusicInfo → List MusicInfo
  | 0, list => list
  | count + 1, list => deleteHeads count (listDeleteAtIndex list 0)

def mozartMusiclistClean (list : Option MusicList) : Int × Option MusicList :=
  match list with
  | none => (-1, none)
  | some queue =>
      (0, some { queue with
        list := deleteHeads queue.list.length queue.list
        maxIndex := -1
        currentIndex := -1
        mode := .order })

inductive QueueOp where
  | insert (info : Option MusicInfo)
  | deleteIndex (index : Int)
  | setPrev (random : Nat)
  | setNext (random : Nat) (force : Bool)
  | setIndex (index : Int)
  | setPlayMode (mode : PlayMode)
  | setMaxIndex (maxIndex : Int)
  | clean
deriving DecidableEq, Repr

def queueStep (list : Option MusicList) : QueueOp → Option MusicList
  | .insert info => (mozartMusiclistInsert list info).2
  | .deleteIndex index => (mozartMusiclistDeleteIndex list index).2
  | .setPrev random => (mozartMusiclistSetPrev random list).2
  | .setNext random force => (mozartMusiclistSetNext random list force).2
  | .setIndex index => (mozartMusiclistSetIndex list index).2
  | .setPlayMode mode => (mozartMusiclistSetPlayMode list mode).2
  | .setMaxIndex maxIndex => (mozartMusiclistSetMaxIndex list maxIndex).2
  | .clean => (mozartMusiclistClean list).2

theorem delete_heads_all (list : List MusicInfo) : deleteHeads list.length list = [] := by
  induction list with
  | nil => rfl
  | cons info rest ih =>
      simpa only [List.length_cons, deleteHeads, listDeleteAtIndex, Int.toNat_zero,
        List.eraseIdx_cons_zero] using ih

section Equations

variable (queue : MusicList)

theorem delete_index_outside (index : Int)
    (outside : index ≥ queue.list.length ∨ index < 0) :
    mozartMusiclistDeleteIndex (some queue) index = (-1, some queue) := by
  simp only [mozartMusiclistDeleteIndex, mozartMusiclistGetLength]
  exact if_pos outside

theorem delete_index_inside (index : Int) (lower : 0 ≤ index)
    (upper : index < queue.list.length) :
    mozartMusiclistDeleteIndex (some queue) index =
      (0, some { queue with
        list := listDeleteAtIndex queue.list index
        currentIndex :=
          if index < queue.currentIndex then queue.currentIndex - 1
          else queue.currentIndex }) := by
  simp only [mozartMusiclistDeleteIndex, mozartMusiclistGetLength]
  exact if_neg (by omega)

theorem set_prev_empty (random : Nat) (empty : queue.list = []) :
    mozartMusiclistSetPrev random (some queue) = (none, some queue) := by
  simp [mozartMusiclistSetPrev, mozartMusiclistGetLength, empty]

theorem set_prev_filled (random : Nat) (filled : queue.list ≠ []) :
    mozartMusiclistSetPrev random (some queue) =
      (listGetElement queue.list (prevIndex random queue),
        some { queue with currentIndex := prevIndex random queue }) := by
  simp [mozartMusiclistSetPrev, mozartMusiclistGetLength, filled]

theorem set_next_empty (random : Nat) (force : Bool) (empty : queue.list = []) :
    mozartMusiclistSetNext random (some queue) force = (none, some queue) := by
  simp [mozartMusiclistSetNext, mozartMusiclistGetLength, empty]

theorem set_next_filled (random : Nat) (force : Bool) (filled : queue.list ≠ []) :
    mozartMusiclistSetNext random (some queue) force =
      (listGetElement queue.list (nextIndex random queue force),
        some { queue with currentIndex := nextIndex random queue force }) := by
  simp [mozartMusiclistSetNext, mozartMusiclistGetLength, filled]

theorem set_index_outside (index : Int) (outside : index ≥ queue.list.length ∨ index < 0) :
    mozartMusiclistSetIndex (some queue) index = (none, some queue) := by
  simp only [mozartMusiclistSetIndex, mozartMusiclistGetLength]
  exact if_pos outside

theorem set_index_inside (index : Int) (lower : 0 ≤ index) (upper : index < queue.list.length) :
    mozartMusiclistSetIndex (some queue) index =
      (listGetElement queue.list index, some { queue with currentIndex := index }) := by
  simp only [mozartMusiclistSetIndex, mozartMusiclistGetLength]
  exact if_neg (by omega)

theorem insert_refused (song : MusicInfo) (unowned : song.data.isSome ∧ queue.freeData = false) :
    mozartMusiclistInsert (some queue) (some song) = (-1, some queue) := by
  simp only [mozartMusiclistInsert]
  exact if_pos unowned

theorem insert_with_room (song : MusicInfo)
    (owned : ¬ (song.data.isSome ∧ queue.freeData = false))
    (room : queue.maxIndex < 0 ∨ queue.list.length < queue.maxIndex) :
    mozartMusiclistInsert (some queue) (some song) =
      ((queue.list.length : Int), some (appendSong queue song)) := by
  simp only [mozartMusiclistInsert]
  rw [if_neg owned, if_neg (by simp only [mozartMusiclistGetLength]; omega)]

/-- A bound of zero on an empty queue leaves no head to delete. -/
theorem insert_without_head (song : MusicInfo) (bound : queue.maxIndex = 0)
    (empty : queue.list = []) :
    mozartMusiclistInsert (some queue) (some song) = (-1, some queue) := by
  simp [mozartMusiclistInsert, mozartMusiclistDeleteIndex, mozartMusiclistGetLength, bound, empty]

/-- The queue once its oldest song has made room for another. -/
def evictHead (queue : MusicList) : MusicList :=
  { queue with
    list := listDeleteAtIndex queue.list 0
    currentIndex :=
      if 0 < queue.currentIndex then queue.currentIndex - 1 else queue.currentIndex }

theorem insert_with_eviction (song : MusicInfo)
    (owned : ¬ (song.data.isSome ∧ queue.freeData = false))
    (full : 0 ≤ queue.maxIndex ∧ queue.maxIndex ≤ queue.list.length) (filled : queue.list ≠ []) :
    mozartMusiclistInsert (some queue) (some song) =
      (((evictHead queue).list.length : Int), some (appendSong (evictHead queue) song)) := by
  have positive : 0 < queue.list.length := List.length_pos_iff.mpr filled
  simp only [mozartMusiclistInsert]
  rw [if_neg owned, if_pos (by simpa [mozartMusiclistGetLength] using full),
    delete_index_inside queue 0 (by omega) (by omega)]
  rfl

/-- The bound as the abstract queue sees it: a negative one is none. -/
def boundOf (maxIndex : Int) : Option Nat :=
  if maxIndex < 0 then none else some maxIndex.toNat

theorem insert_refines_push (song : MusicInfo)
    (owned : ¬ (song.data.isSome ∧ queue.freeData = false)) :
    ∃ filled, (mozartMusiclistInsert (some queue) (some song)).2 = some filled ∧
      filled.list = BoundedQueue.push (boundOf queue.maxIndex) queue.list song ∧
      filled.maxIndex = queue.maxIndex ∧ filled.freeData = queue.freeData := by
  by_cases full : 0 ≤ queue.maxIndex ∧ queue.maxIndex ≤ queue.list.length
  · have bounded : boundOf queue.maxIndex = some queue.maxIndex.toNat := if_neg (by omega)
    have reached : queue.maxIndex.toNat ≤ queue.list.length := by omega
    cases songs : queue.list with
    | nil =>
        have none_left : queue.maxIndex = 0 := by
          rw [songs] at full
          simp only [List.length_nil] at full
          omega
        rw [insert_without_head queue song none_left songs]
        refine ⟨queue, rfl, ?_, rfl, rfl⟩
        rw [songs, bounded, none_left]
        rfl
    | cons head rest =>
        have filled : queue.list ≠ [] := by simp [songs]
        rw [insert_with_eviction queue song owned full filled]
        refine ⟨_, rfl, ?_, rfl, rfl⟩
        rw [songs] at reached
        simp only [bounded, BoundedQueue.push]
        rw [if_pos reached]
        simp [appendSong, evictHead, listInsertAtTail, listDeleteAtIndex, songs]
  · rw [insert_with_room queue song owned (by omega)]
    refine ⟨_, rfl, ?_, rfl, rfl⟩
    rw [boundOf]
    split
    · rfl
    · have room : ¬ queue.maxIndex.toNat ≤ queue.list.length := by omega
      unfold BoundedQueue.push
      simp only [if_neg room]
      rfl

end Equations

theorem queue_step_none (op : QueueOp) : queueStep none op = none := by
  cases op <;> rfl

/-- What one call can do to a queue. -/
inductive QueueMove (queue : MusicList) : QueueOp → MusicList → Prop where
  | unchanged (op : QueueOp) : QueueMove queue op queue
  | appended (song : MusicInfo) (owned : ¬ (song.data.isSome ∧ queue.freeData = false))
      (room : queue.maxIndex < 0 ∨ queue.list.length < queue.maxIndex) :
      QueueMove queue (.insert (some song)) (appendSong queue song)
  | replaced (song : MusicInfo) (owned : ¬ (song.data.isSome ∧ queue.freeData = false))
      (full : 0 ≤ queue.maxIndex ∧ queue.maxIndex ≤ queue.list.length) (filled : queue.list ≠ []) :
      QueueMove queue (.insert (some song)) (appendSong (evictHead queue) song)
  | deleted (index : Int) (lower : 0 ≤ index) (upper : index < queue.list.length) :
      QueueMove queue (.deleteIndex index) { queue with
        list := listDeleteAtIndex queue.list index
        currentIndex :=
          if index < queue.currentIndex then queue.currentIndex - 1 else queue.currentIndex }
  | back (random : Nat) (filled : queue.list ≠ []) :
      QueueMove queue (.setPrev random) { queue with currentIndex := prevIndex random queue }
  | forward (random : Nat) (force : Bool) (filled : queue.list ≠ []) :
      QueueMove queue (.setNext random force)
        { queue with currentIndex := nextIndex random queue force }
  | picked (index : Int) (lower : 0 ≤ index) (upper : index < queue.list.length) :
      QueueMove queue (.setIndex index) { queue with currentIndex := index }
  | modeSet (mode : PlayMode) : QueueMove queue (.setPlayMode mode) { queue with mode := mode }
  | boundSet (maxIndex : Int) :
      QueueMove queue (.setMaxIndex maxIndex) { queue with maxIndex := maxIndex }
  | cleaned : QueueMove queue .clean
      { queue with list := [], maxIndex := -1, currentIndex := -1, mode := .order }

theorem queue_step_moves (queue : MusicList) (op : QueueOp) :
    ∃ after, queueStep (some queue) op = some after ∧ QueueMove queue op after := by
  cases op with
  | insert info =>
      cases info with
      | none => exact ⟨queue, rfl, .unchanged _⟩
      | some song =>
          by_cases unowned : song.data.isSome ∧ queue.freeData = false
          · exact ⟨queue, congrArg Prod.snd (insert_refused queue song unowned), .unchanged _⟩
          · by_cases full : 0 ≤ queue.maxIndex ∧ queue.maxIndex ≤ queue.list.length
            · by_cases empty : queue.list = []
              · have bound : queue.maxIndex = 0 := by simp [empty] at full; omega
                exact ⟨queue, congrArg Prod.snd (insert_without_head queue song bound empty),
                  .unchanged _⟩
              · exact ⟨_, congrArg Prod.snd (insert_with_eviction queue song unowned full empty),
                  .replaced song unowned full empty⟩
            · have room : queue.maxIndex < 0 ∨ queue.list.length < queue.maxIndex := by omega
              exact ⟨_, congrArg Prod.snd (insert_with_room queue song unowned room),
                .appended song unowned room⟩
  | deleteIndex index =>
      by_cases outside : index ≥ queue.list.length ∨ index < 0
      · exact ⟨queue, congrArg Prod.snd (delete_index_outside queue index outside), .unchanged _⟩
      · have inside : 0 ≤ index ∧ index < queue.list.length := by omega
        exact ⟨_, congrArg Prod.snd (delete_index_inside queue index inside.1 inside.2),
          .deleted index inside.1 inside.2⟩
  | setPrev random =>
      by_cases empty : queue.list = []
      · exact ⟨queue, congrArg Prod.snd (set_prev_empty queue random empty), .unchanged _⟩
      · exact ⟨_, congrArg Prod.snd (set_prev_filled queue random empty), .back random empty⟩
  | setNext random force =>
      by_cases empty : queue.list = []
      · exact ⟨queue, congrArg Prod.snd (set_next_empty queue random force empty), .unchanged _⟩
      · exact ⟨_, congrArg Prod.snd (set_next_filled queue random force empty),
          .forward random force empty⟩
  | setIndex index =>
      by_cases outside : index ≥ queue.list.length ∨ index < 0
      · exact ⟨queue, congrArg Prod.snd (set_index_outside queue index outside), .unchanged _⟩
      · have inside : 0 ≤ index ∧ index < queue.list.length := by omega
        exact ⟨_, congrArg Prod.snd (set_index_inside queue index inside.1 inside.2),
          .picked index inside.1 inside.2⟩
  | setPlayMode mode => exact ⟨_, rfl, .modeSet mode⟩
  | setMaxIndex maxIndex => exact ⟨_, rfl, .boundSet maxIndex⟩
  | clean =>
      refine ⟨_, ?_, .cleaned⟩
      simp only [queueStep, mozartMusiclistClean, delete_heads_all]

/-- What a caller relies on: a non-empty queue has a selected song. -/
def CursorInRange (list : Option MusicList) : Prop :=
  0 < mozartMusiclistGetLength list →
    0 ≤ mozartMusiclistGetCurrentIndex list ∧
      mozartMusiclistGetCurrentIndex list < mozartMusiclistGetLength list ∧
      (mozartMusiclistGetCurrent list).isSome

/-- The step that strands the cursor: the selected song is the last one, it is
not the only one, and it is deleted. -/
def DeletesSelectedTail (list : Option MusicList) (op : QueueOp) : Prop :=
  op = .deleteIndex (mozartMusiclistGetCurrentIndex list) ∧
    mozartMusiclistGetCurrentIndex list = mozartMusiclistGetLength list - 1 ∧
    2 ≤ mozartMusiclistGetLength list

/-- The inductive form of the cursor law. An empty queue keeps the cursor at the
head or at its initial value, which is what makes the next insertion land on a
valid cursor. -/
structure CursorLaw (queue : MusicList) : Prop where
  filled : queue.list ≠ [] →
    0 ≤ queue.currentIndex ∧ queue.currentIndex < queue.list.length
  empty : queue.list = [] → queue.currentIndex = -1 ∨ queue.currentIndex = 0

def QueueLaw : Option MusicList → Prop
  | none => True
  | some queue => CursorLaw queue

theorem list_get_element_in_range (list : List MusicInfo) (idx : Int)
    (lower : 0 ≤ idx) (upper : idx < list.length) : (listGetElement list idx).isSome := by
  have bound : idx.toNat < list.length := by omega
  simp [listGetElement, bound]

theorem law_in_range {list : Option MusicList} (law : QueueLaw list) : CursorInRange list := by
  intro positive
  cases list with
  | none => simp [mozartMusiclistGetLength] at positive
  | some queue =>
      simp only [mozartMusiclistGetLength] at positive
      have filled : queue.list ≠ [] := List.length_pos_iff.mp (by omega)
      rcases CursorLaw.filled law filled with ⟨lower, upper⟩
      refine ⟨lower, upper, ?_⟩
      simpa [mozartMusiclistGetCurrent, mozartMusiclistGetLength, filled] using
        list_get_element_in_range queue.list queue.currentIndex lower upper

theorem create_law (callocated freeData : Bool) :
    QueueLaw (mozartMusiclistCreate callocated freeData) := by
  cases callocated with
  | false => trivial
  | true => exact ⟨fun filled => absurd rfl filled, fun _ => Or.inl rfl⟩

theorem random_index_in_range (random : Nat) (queue : MusicList) (filled : queue.list ≠ []) :
    0 ≤ randomIndex random queue ∧ randomIndex random queue < queue.list.length := by
  have positive : 0 < queue.list.length := List.length_pos_iff.mpr filled
  have bound := Nat.mod_lt (random % 2 ^ 32) positive
  unfold randomIndex
  omega

theorem prev_index_in_range (random : Nat) (queue : MusicList) (filled : queue.list ≠ [])
    (upper : queue.currentIndex < queue.list.length) :
    0 ≤ prevIndex random queue ∧ prevIndex random queue < queue.list.length := by
  have positive : 0 < queue.list.length := List.length_pos_iff.mpr filled
  have drawn := random_index_in_range random queue filled
  unfold prevIndex
  split
  · exact drawn
  · split <;> omega

theorem next_index_in_range (random : Nat) (queue : MusicList) (force : Bool)
    (filled : queue.list ≠ []) (lower : 0 ≤ queue.currentIndex)
    (upper : queue.currentIndex < queue.list.length) :
    0 ≤ nextIndex random queue force ∧ nextIndex random queue force < queue.list.length := by
  have positive : 0 < queue.list.length := List.length_pos_iff.mpr filled
  have drawn := random_index_in_range random queue filled
  have advanced :
      Int.tmod (queue.currentIndex + 1) queue.list.length =
        (queue.currentIndex + 1) % queue.list.length :=
    Int.tmod_eq_emod_of_nonneg (by omega)
  have nonneg : 0 ≤ (queue.currentIndex + 1) % queue.list.length :=
    Int.emod_nonneg _ (by omega)
  have below : (queue.currentIndex + 1) % queue.list.length < queue.list.length :=
    Int.emod_lt_of_pos _ (by omega)
  unfold nextIndex
  simp only [advanced]
  split
  · exact drawn
  · split <;> omega
  · exact ⟨nonneg, below⟩

theorem moved_cursor_law (queue : MusicList) (index : Int) (filled : queue.list ≠ [])
    (inside : 0 ≤ index ∧ index < queue.list.length) :
    CursorLaw { queue with currentIndex := index } :=
  ⟨fun _ => inside, fun empty => absurd empty filled⟩

theorem append_song_law (queue : MusicList) (info : MusicInfo) (law : CursorLaw queue) :
    CursorLaw (appendSong queue info) := by
  refine ⟨fun _ => ?_, fun empty => ?_⟩
  · simp only [appendSong, listInsertAtTail, List.length_append, List.length_singleton]
    by_cases empty : queue.list = []
    · rcases law.empty empty with initial | head
      · simp [initial]
      · simp [head]
    · rcases law.filled empty with ⟨lower, upper⟩
      rw [if_neg (by omega)]
      omega
  · simp [appendSong, listInsertAtTail] at empty

/-- Deletion keeps the law unless it strands the cursor past the new end. -/
theorem delete_index_law (queue : MusicList) (index : Int) (law : CursorLaw queue)
    (safe : ¬ DeletesSelectedTail (some queue) (.deleteIndex index)) :
    QueueLaw (mozartMusiclistDeleteIndex (some queue) index).2 := by
  by_cases outside : index ≥ queue.list.length ∨ index < 0
  · rw [delete_index_outside queue index outside]
    exact law
  · rw [delete_index_inside queue index (by omega) (by omega)]
    have filled : queue.list ≠ [] := List.length_pos_iff.mp (by omega)
    rcases law.filled filled with ⟨lower, upper⟩
    have shortened : (listDeleteAtIndex queue.list index).length = queue.list.length - 1 :=
      List.length_eraseIdx_of_lt (by omega)
    simp only [DeletesSelectedTail, QueueOp.deleteIndex.injEq, mozartMusiclistGetCurrentIndex,
      mozartMusiclistGetLength] at safe
    refine ⟨fun remaining => ?_, fun vanished => ?_⟩
    · have left := List.length_pos_iff.mpr remaining
      dsimp only at left ⊢
      rw [shortened] at left ⊢
      split <;> omega
    · have gone := List.length_eq_zero_iff.mpr vanished
      dsimp only at gone ⊢
      rw [shortened] at gone
      split <;> omega

theorem evict_head_law (queue : MusicList) (law : CursorLaw queue) (filled : queue.list ≠ []) :
    CursorLaw (evictHead queue) := by
  have positive : 0 < queue.list.length := List.length_pos_iff.mpr filled
  have evicted := delete_index_law queue 0 law (by
    rintro ⟨selected, last, several⟩
    simp only [QueueOp.deleteIndex.injEq] at selected
    omega)
  rw [delete_index_inside queue 0 (by omega) (by omega)] at evicted
  exact evicted

theorem safe_step_law (list : Option MusicList) (op : QueueOp) (law : QueueLaw list)
    (safe : ¬ DeletesSelectedTail list op) : QueueLaw (queueStep list op) := by
  cases list with
  | none =>
      rw [queue_step_none]
      trivial
  | some queue =>
      have here : CursorLaw queue := law
      rcases queue_step_moves queue op with ⟨after, stepped, move⟩
      rw [stepped]
      cases move with
      | unchanged => exact law
      | appended song _ _ => exact append_song_law queue song law
      | replaced song _ _ filled => exact append_song_law _ song (evict_head_law queue law filled)
      | deleted index lower upper =>
          rw [← stepped]
          exact delete_index_law queue index law safe
      | back random filled =>
          exact moved_cursor_law queue _ filled
            (prev_index_in_range random queue filled (here.filled filled).2)
      | forward random force filled =>
          rcases here.filled filled with ⟨lower, upper⟩
          exact moved_cursor_law queue _ filled
            (next_index_in_range random queue force filled lower upper)
      | picked index lower upper =>
          have filled : queue.list ≠ [] := List.length_pos_iff.mp (by omega)
          exact moved_cursor_law queue index filled ⟨lower, upper⟩
      | modeSet mode => exact ⟨here.filled, here.empty⟩
      | boundSet maxIndex => exact ⟨here.filled, here.empty⟩
      | cleaned => exact ⟨fun filled => absurd rfl filled, fun _ => Or.inl rfl⟩

/-- The unsafe step always strands the cursor one past the new end. -/
theorem deleted_tail_strands_cursor (list : Option MusicList) (op : QueueOp)
    (stranding : DeletesSelectedTail list op) : ¬ CursorInRange (queueStep list op) := by
  rcases stranding with ⟨rfl, last, several⟩
  cases list with
  | none => simp [mozartMusiclistGetLength] at several
  | some queue =>
      simp only [mozartMusiclistGetCurrentIndex, mozartMusiclistGetLength] at last several
      have shortened :
          (listDeleteAtIndex queue.list queue.currentIndex).length = queue.list.length - 1 :=
        List.length_eraseIdx_of_lt (by omega)
      rw [queueStep, mozartMusiclistGetCurrentIndex,
        delete_index_inside queue queue.currentIndex (by omega) (by omega)]
      intro inRange
      simp only [CursorInRange, mozartMusiclistGetCurrentIndex, mozartMusiclistGetLength,
        shortened] at inRange
      have below := (inRange (by omega)).2.1
      omega

/-- In a run from creation, a non-empty queue has a selected song in every state
visited exactly when no step deletes the selected song from the end of a queue of
two or more. -/
theorem cursor_in_range_along_run (callocated freeData : Bool) (ops : List QueueOp) :
    AlongRun queueStep CursorInRange (mozartMusiclistCreate callocated freeData) ops ↔
      EveryStep queueStep (fun list op => ¬ DeletesSelectedTail list op)
        (mozartMusiclistCreate callocated freeData) ops := by
  apply along_run_iff_every_step QueueLaw
  · intro list law
    exact law_in_range law
  · intro list op law safe
    exact safe_step_law list op law safe
  · intro list op _ stranding
    exact deleted_tail_strands_cursor list op (not_not.mp stranding)
  · exact create_law callocated freeData

def untitledSong (id : Int) : MusicInfo :=
  { id := id, musicName := none, musicUrl := none, musicPicture := none, albumsName := none,
    artistsName := none, data := none }

/-- Two songs, the second one selected and then deleted. -/
theorem cursor_lost_by_deleting_the_tail :
    ¬ ∀ callocated freeData ops,
      AlongRun queueStep CursorInRange (mozartMusiclistCreate callocated freeData) ops := by
  intro always
  have stranded := (along_run_iff_prefixes _ _).mp
    (always true true [.insert (some (untitledSong 1)), .insert (some (untitledSong 2)),
      .setIndex 1, .deleteIndex 1]) _ (List.prefix_refl _)
  exact absurd (stranded (by decide)).2.1 (by decide)

end Gk7102.MusicQueue
