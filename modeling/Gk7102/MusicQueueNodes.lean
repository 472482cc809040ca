import Gk7102.LinkListRemoval
import Gk7102.MusicQueue

/-!
# The nodes of the song queue

The two calls that change the songs, over the linked list they are kept in. A
song is the node that holds it, so the cursor can be asked which node it designates
before and after a call. Each call does to the sequence what the queue of the model
above does.
-/

namespace Gk7102.MusicQueueNodes

open Gk7102.ChainedHeap
open Gk7102.LinkList
open Gk7102.MusicQueue (MusicInfo MusicList PlayMode)

set_option autoImplicit false

/-- `struct music_list`, with the heap its nodes live in. -/
structure NodeList where
  world : World MusicInfo
  maxIndex : Int
  currentIndex : Int
  mode : PlayMode
  freeData : Bool

def mozartMusiclistGetLength (list : NodeList) : Int := listGetLength list.world

def mozartMusiclistDeleteIndex (list : NodeList) (index : Int) : Option (Int × NodeList) :=
  if index ≥ mozartMusiclistGetLength list ∨ index < 0 then some (-1, list)
  else do
    let deleted ← listDeleteAtIndex list.world index
    some (0, { list with
      world := deleted.1
      currentIndex :=
        if index < list.currentIndex then list.currentIndex - 1 else list.currentIndex })

def appendNode (allocator : Allocator MusicInfo) (list : NodeList) (info : MusicInfo) :
    Option (Int × NodeList) := do
  let world ← LinkList.listInsertAtTail allocator list.world info
  some (listGetLength world - 1, { list with
    world := world
    currentIndex := if list.currentIndex < 0 then 0 else list.currentIndex })

def mozartMusiclistInsert (allocator : Allocator MusicInfo) (list : NodeList)
    (info : Option MusicInfo) : Option (Int × NodeList) :=
  match info with
  | none => some (-1, list)
  | some song =>
      if song.data.isSome ∧ list.freeData = false then some (-1, list)
      else if list.maxIndex ≥ 0 ∧ list.maxIndex ≤ mozartMusiclistGetLength list then do
        let shorter ← mozartMusiclistDeleteIndex list 0
        if shorter.1 < 0 then some (-1, shorter.2) else appendNode allocator shorter.2 song
      else appendNode allocator list song

def selectedSong (list : NodeList) : Option (Option (Nat × MusicInfo)) := do
  match ← getNode list.world list.currentIndex with
  | none => some none
  | some n => do
      let node ← list.world.heap.cell n
      some (some (n, node.data))

inductive SongOp where
  | insert (info : Option MusicInfo)
  | deleteIndex (index : Int)
deriving DecidableEq, Repr

def songStep (allocator : Allocator MusicInfo) (list : NodeList) :
    SongOp → Option (Int × NodeList)
  | .insert info => mozartMusiclistInsert allocator list info
  | .deleteIndex index => mozartMusiclistDeleteIndex list index

/-- The queue is a sound linked list of these nodes. -/
def Holds (list : NodeList) (cells : List (Nat × MusicInfo)) : Prop :=
  Spans list.world.heap list.world.list cells none

def sequenceOf (list : NodeList) (cells : List (Nat × MusicInfo)) : MusicList where
  list := contents cells
  maxIndex := list.maxIndex
  currentIndex := list.currentIndex
  mode := list.mode
  freeData := list.freeData

section Nodes

variable {list : NodeList} {cells : List (Nat × MusicInfo)}

theorem length_of_holds (holds : Holds list cells) :
    mozartMusiclistGetLength list = cells.length := holds.length

theorem selected_song_found (holds : Holds list cells) :
    selectedSong list = some cells[list.currentIndex.toNat]? := by
  have stops := skip_loop_stops holds.chain list.currentIndex (within_limit holds) 0
  rw [Int.sub_zero] at stops
  by_cases within : list.currentIndex.toNat < cells.length
  · have address : (addresses cells)[list.currentIndex.toNat]? =
        some cells[list.currentIndex.toNat].1 := by
      rw [addresses, List.getElem?_map, List.getElem?_eq_getElem within]
      rfl
    rcases cell_of_member holds.chain (List.getElem_mem within) with ⟨next, live⟩
    simp only [selectedSong, getNode, stops, address, live, Option.bind_eq_bind,
      Option.bind_some, List.getElem?_eq_getElem within]
  · have beyond : cells.length ≤ list.currentIndex.toNat := Nat.le_of_not_lt within
    rw [List.getElem?_eq_none (by rw [addresses, List.length_map]; exact beyond)] at stops
    rw [List.getElem?_eq_none beyond]
    simp only [selectedSong, getNode, stops, Option.bind_eq_bind, Option.bind_some]

theorem delete_index_outside (holds : Holds list cells) {index : Int}
    (outside : index ≥ cells.length ∨ index < 0) :
    mozartMusiclistDeleteIndex list index = some (-1, list) := by
  rw [mozartMusiclistDeleteIndex, length_of_holds holds]
  exact if_pos outside

theorem delete_index_unlinks (holds : Holds list cells) {index : Int} (lower : 0 ≤ index)
    (upper : index < cells.length) :
    ∃ world, mozartMusiclistDeleteIndex list index = some (0, { list with
        world := world
        currentIndex :=
          if index < list.currentIndex then list.currentIndex - 1 else list.currentIndex }) ∧
      Spans world.heap world.list (cells.eraseIdx index.toNat) none := by
  rcases list_delete_at_index_spans index holds with ⟨world, deleted, spans⟩
  refine ⟨world, ?_, spans⟩
  rw [mozartMusiclistDeleteIndex, length_of_holds holds, if_neg (by omega), deleted]
  rfl

theorem append_node_links (allocator : Allocator MusicInfo) (holds : Holds list cells)
    (song : MusicInfo) :
    ∃ world address, appendNode allocator list song = some ((cells.length : Int), { list with
        world := world
        currentIndex := if list.currentIndex < 0 then 0 else list.currentIndex }) ∧
      Spans world.heap world.list (cells ++ [(address, song)]) none := by
  rcases list_insert_at_tail_spans allocator song holds with ⟨world, inserted, spans⟩
  have length : listGetLength world - 1 = cells.length := by
    rw [listGetLength, spans.length, List.length_append, List.length_singleton]
    omega
  refine ⟨world, allocator.malloc list.world.heap, ?_, spans⟩
  rw [appendNode, inserted, Option.bind_eq_bind, Option.bind_some, length]

theorem insert_refused (allocator : Allocator MusicInfo) {song : MusicInfo}
    (unowned : song.data.isSome ∧ list.freeData = false) :
    mozartMusiclistInsert allocator list (some song) = some (-1, list) := by
  rw [mozartMusiclistInsert]
  exact if_pos unowned

theorem insert_appends (allocator : Allocator MusicInfo) (holds : Holds list cells)
    {song : MusicInfo} (owned : ¬ (song.data.isSome ∧ list.freeData = false))
    (room : list.maxIndex < 0 ∨ cells.length < list.maxIndex) :
    ∃ world address, mozartMusiclistInsert allocator list (some song) =
        some ((cells.length : Int), { list with
          world := world
          currentIndex := if list.currentIndex < 0 then 0 else list.currentIndex }) ∧
      Spans world.heap world.list (cells ++ [(address, song)]) none := by
  rcases append_node_links allocator holds song with ⟨world, address, appended, spans⟩
  refine ⟨world, address, ?_, spans⟩
  rw [mozartMusiclistInsert, if_neg owned, length_of_holds holds, if_neg (by omega)]
  exact appended

theorem insert_without_head (allocator : Allocator MusicInfo) (holds : Holds list [])
    {song : MusicInfo} (owned : ¬ (song.data.isSome ∧ list.freeData = false))
    (full : 0 ≤ list.maxIndex ∧ list.maxIndex ≤ 0) :
    mozartMusiclistInsert allocator list (some song) = some (-1, list) := by
  rw [mozartMusiclistInsert, if_neg owned, length_of_holds holds,
    if_pos (by simpa using full), delete_index_outside holds (by simp)]
  rfl

def evictedCursor (list : NodeList) : Int :=
  if 0 < list.currentIndex then list.currentIndex - 1 else list.currentIndex

theorem insert_evicts (allocator : Allocator MusicInfo) {head : Nat × MusicInfo}
    (holds : Holds list (head :: cells)) {song : MusicInfo}
    (owned : ¬ (song.data.isSome ∧ list.freeData = false))
    (full : 0 ≤ list.maxIndex ∧ list.maxIndex ≤ (head :: cells).length) :
    ∃ world address, mozartMusiclistInsert allocator list (some song) =
        some ((cells.length : Int), { list with
          world := world
          currentIndex := if evictedCursor list < 0 then 0 else evictedCursor list }) ∧
      Spans world.heap world.list (cells ++ [(address, song)]) none := by
  rcases delete_index_unlinks holds (Int.le_refl 0) (by simp) with ⟨shorter, deleted, remains⟩
  have rest : Holds { list with world := shorter, currentIndex := evictedCursor list } cells :=
    remains
  rcases append_node_links allocator rest song with ⟨world, address, appended, spans⟩
  refine ⟨world, address, ?_, spans⟩
  rw [mozartMusiclistInsert, if_neg owned, length_of_holds holds, if_pos (by simpa using full),
    deleted]
  exact appended

end Nodes

section Refinement

variable {list : NodeList} {cells : List (Nat × MusicInfo)}

/-- The call did to the nodes what `expected` says of the sequence. -/
def Refines (result : Option (Int × NodeList)) (expected : Int × Option MusicList) : Prop :=
  ∃ ret after left, result = some (ret, after) ∧ Holds after left ∧
    expected = (ret, some (sequenceOf after left))

theorem contents_erase_idx (cells : List (Nat × MusicInfo)) (k : Nat) :
    contents (cells.eraseIdx k) = (contents cells).eraseIdx k := by
  rw [contents, contents, List.eraseIdx_map]

theorem contents_append (cells : List (Nat × MusicInfo)) (cell : Nat × MusicInfo) :
    contents (cells ++ [cell]) = contents cells ++ [cell.2] := by
  rw [contents, contents, List.map_append]
  rfl

theorem delete_index_refines (holds : Holds list cells) (index : Int) :
    Refines (mozartMusiclistDeleteIndex list index)
      (MusicQueue.mozartMusiclistDeleteIndex (some (sequenceOf list cells)) index) := by
  have length : (sequenceOf list cells).list.length = cells.length := contents_length cells
  by_cases outside : index ≥ cells.length ∨ index < 0
  · refine ⟨-1, list, cells, delete_index_outside holds outside, holds, ?_⟩
    exact MusicQueue.delete_index_outside _ index (by rw [length]; exact outside)
  · have inside : 0 ≤ index ∧ index < cells.length := by omega
    rcases delete_index_unlinks holds inside.1 inside.2 with ⟨world, deleted, spans⟩
    refine ⟨0, _, cells.eraseIdx index.toNat, deleted, spans, ?_⟩
    rw [MusicQueue.delete_index_inside _ index inside.1 (by rw [length]; exact inside.2)]
    simp only [sequenceOf, contents_erase_idx, MusicQueue.listDeleteAtIndex]
    rfl

theorem insert_refines (allocator : Allocator MusicInfo) (holds : Holds list cells)
    (info : Option MusicInfo) :
    Refines (mozartMusiclistInsert allocator list info)
      (MusicQueue.mozartMusiclistInsert (some (sequenceOf list cells)) info) := by
  have length : (sequenceOf list cells).list.length = cells.length := contents_length cells
  cases info with
  | none => exact ⟨-1, list, cells, rfl, holds, rfl⟩
  | some song =>
      by_cases unowned : song.data.isSome ∧ list.freeData = false
      · refine ⟨-1, list, cells, insert_refused allocator unowned, holds, ?_⟩
        exact MusicQueue.insert_refused _ song unowned
      · by_cases full : 0 ≤ list.maxIndex ∧ list.maxIndex ≤ cells.length
        · cases cells with
          | nil =>
              have zero : 0 ≤ list.maxIndex ∧ list.maxIndex ≤ 0 := by simpa using full
              refine ⟨-1, list, [], insert_without_head allocator holds unowned zero, holds, ?_⟩
              exact MusicQueue.insert_without_head _ song (Int.le_antisymm zero.2 zero.1) rfl
          | cons head rest =>
              rcases insert_evicts allocator holds unowned full with
                ⟨world, address, inserted, spans⟩
              refine ⟨_, _, _, inserted, spans, ?_⟩
              rw [MusicQueue.insert_with_eviction _ song unowned (by rw [length]; exact full)
                (by simp [sequenceOf])]
              simp only [MusicQueue.appendSong, MusicQueue.evictHead, MusicQueue.listInsertAtTail,
                MusicQueue.listDeleteAtIndex, sequenceOf, evictedCursor, contents_append,
                contents_cons, Int.toNat_zero, List.eraseIdx_cons_zero, contents_length]
              rfl
        · have room : list.maxIndex < 0 ∨ cells.length < list.maxIndex := by omega
          rcases insert_appends allocator holds unowned room with
            ⟨world, address, inserted, spans⟩
          refine ⟨_, _, _, inserted, spans, ?_⟩
          rw [MusicQueue.insert_with_room _ song unowned (by rw [length]; exact room), length]
          simp only [MusicQueue.appendSong, MusicQueue.listInsertAtTail, sequenceOf,
            contents_append]
          rfl

end Refinement

section Selection

variable {list : NodeList} {cells : List (Nat × MusicInfo)}

def ValidCursor (list : NodeList) (cells : List (Nat × MusicInfo)) : Prop :=
  0 ≤ list.currentIndex ∧ list.currentIndex < cells.length

def Evicts (list : NodeList) (cells : List (Nat × MusicInfo)) (song : MusicInfo) : Prop :=
  ¬ (song.data.isSome ∧ list.freeData = false) ∧ 0 ≤ list.maxIndex ∧
    list.maxIndex ≤ cells.length

def RemovesSelected (list : NodeList) (cells : List (Nat × MusicInfo)) (op : SongOp) : Prop :=
  op = .deleteIndex list.currentIndex ∨
    (list.currentIndex = 0 ∧ ∃ song, op = .insert (some song) ∧ Evicts list cells song)

/-- The selected song stays the same one. When it is removed and others are left, the
next one round the queue is selected; when it was the only one and made room for a
new song, the new song is. -/
structure SelectionKept (list : NodeList) (cells : List (Nat × MusicInfo)) (op : SongOp)
    (after : NodeList) : Prop where
  same : ¬ RemovesSelected list cells op → selectedSong after = selectedSong list
  successor : RemovesSelected list cells op → 2 ≤ cells.length →
    selectedSong after = some cells[(list.currentIndex.toNat + 1) % cells.length]?
  newcomer : cells.length = 1 → ∀ song, op = .insert (some song) → Evicts list cells song →
    ∃ address, selectedSong after = some (some (address, song))

def DeletesSelectedTail (list : NodeList) (cells : List (Nat × MusicInfo)) (op : SongOp) : Prop :=
  op = .deleteIndex list.currentIndex ∧ list.currentIndex = cells.length - 1 ∧ 2 ≤ cells.length

theorem unchanged_keeps_selection {op : SongOp}
    (kept : ¬ RemovesSelected list cells op)
    (insertion : ∀ song, op = .insert (some song) → ¬ Evicts list cells song) :
    SelectionKept list cells op list where
  same _ := rfl
  successor removes _ := absurd removes kept
  newcomer _ song inserts evicts := absurd evicts (insertion song inserts)

section Deleting

variable {index : Int}

theorem delete_removes_selected_iff :
    RemovesSelected list cells (.deleteIndex index) ↔ index = list.currentIndex := by
  simp [RemovesSelected]

theorem delete_keeps_selection (valid : ValidCursor list cells) (lower : 0 ≤ index)
    (upper : index < cells.length)
    (safe : ¬ DeletesSelectedTail list cells (.deleteIndex index)) (holds : Holds list cells)
    {world : World MusicInfo}
    (remains : Spans world.heap world.list (cells.eraseIdx index.toNat) none) :
    SelectionKept list cells (.deleteIndex index) { list with
      world := world
      currentIndex :=
        if index < list.currentIndex then list.currentIndex - 1 else list.currentIndex } := by
  rcases valid with ⟨first, last⟩
  have found := @selected_song_found { list with
    world := world
    currentIndex :=
      if index < list.currentIndex then list.currentIndex - 1 else list.currentIndex } _ remains
  refine ⟨fun kept => ?_, fun removes several => ?_, fun _ song inserts => ?_⟩
  · have other : index ≠ list.currentIndex := fun same =>
      kept (delete_removes_selected_iff.mpr same)
    rw [found, selected_song_found holds]
    apply congrArg
    dsimp only
    split
    · -- the songs behind the deleted one move up, and the cursor with them
      rw [List.getElem?_eraseIdx_of_ge (by omega)]
      apply congrArg (cells[·]?)
      omega
    · exact List.getElem?_eraseIdx_of_lt (by omega)
  · have here : index = list.currentIndex := delete_removes_selected_iff.mp removes
    have inner : list.currentIndex.toNat + 1 < cells.length := by
      by_contra tail
      exact safe ⟨congrArg _ here, by omega, several⟩
    rw [found, Nat.mod_eq_of_lt inner]
    apply congrArg
    dsimp only
    rw [if_neg (by omega)]
    exact List.getElem?_eraseIdx_of_ge (by omega)
  · exact absurd inserts (by simp)

theorem delete_tail_loses_selection (deletes : DeletesSelectedTail list cells (.deleteIndex index))
    {world : World MusicInfo}
    (remains : Spans world.heap world.list (cells.eraseIdx index.toNat) none) :
    ¬ SelectionKept list cells (.deleteIndex index) { list with
      world := world
      currentIndex :=
        if index < list.currentIndex then list.currentIndex - 1 else list.currentIndex } := by
  intro kept
  rcases deletes with ⟨here, last, several⟩
  have same : index = list.currentIndex := SongOp.deleteIndex.inj here
  have found := @selected_song_found { list with
    world := world
    currentIndex :=
      if index < list.currentIndex then list.currentIndex - 1 else list.currentIndex } _ remains
  have successor := kept.successor (delete_removes_selected_iff.mpr same) several
  have round : (list.currentIndex.toNat + 1) % cells.length = 0 := by
    have whole : list.currentIndex.toNat + 1 = cells.length := by omega
    rw [whole, Nat.mod_self]
  have short : (cells.eraseIdx index.toNat).length = cells.length - 1 :=
    List.length_eraseIdx_of_lt (by omega)
  have beyond : (cells.eraseIdx index.toNat).length ≤
      (if index < list.currentIndex then list.currentIndex - 1 else list.currentIndex).toNat := by
    rw [short, if_neg (by omega)]
    omega
  rw [found, round, List.getElem?_eq_none beyond, List.getElem?_eq_getElem (by omega)] at successor
  exact absurd (Option.some.inj successor) (by simp)

end Deleting

section Inserting

variable {song : MusicInfo}

theorem insert_removes_selected_iff :
    RemovesSelected list cells (.insert (some song)) ↔
      list.currentIndex = 0 ∧ Evicts list cells song := by
  simp [RemovesSelected]

theorem append_keeps_selection (valid : ValidCursor list cells) (holds : Holds list cells)
    (stays : ¬ Evicts list cells song) {world : World MusicInfo} {address : Nat}
    (longer : Spans world.heap world.list (cells ++ [(address, song)]) none) :
    SelectionKept list cells (.insert (some song)) { list with
      world := world
      currentIndex := if list.currentIndex < 0 then 0 else list.currentIndex } := by
  rcases valid with ⟨first, last⟩
  have found := @selected_song_found { list with
    world := world
    currentIndex := if list.currentIndex < 0 then 0 else list.currentIndex } _ longer
  refine ⟨fun _ => ?_, fun removes _ => ?_, fun _ other inserts evicts => ?_⟩
  · rw [found, selected_song_found holds]
    apply congrArg
    dsimp only
    rw [if_neg (by omega)]
    exact List.getElem?_append_left (by omega)
  · exact absurd (insert_removes_selected_iff.mp removes).2 stays
  · rcases SongOp.insert.inj inserts with inserted
    rcases Option.some.inj inserted with rfl
    exact absurd evicts stays

theorem evict_keeps_selection {head : Nat × MusicInfo} (valid : ValidCursor list (head :: cells))
    (holds : Holds list (head :: cells)) {world : World MusicInfo} {address : Nat}
    (replaced : Spans world.heap world.list (cells ++ [(address, song)]) none)
    (evicts : Evicts list (head :: cells) song) :
    SelectionKept list (head :: cells) (.insert (some song)) { list with
      world := world
      currentIndex := if evictedCursor list < 0 then 0 else evictedCursor list } := by
  rcases valid with ⟨first, last⟩
  rw [List.length_cons] at last
  have found := @selected_song_found { list with
    world := world
    currentIndex := if evictedCursor list < 0 then 0 else evictedCursor list } _ replaced
  have cursor : (if evictedCursor list < 0 then 0 else evictedCursor list).toNat =
      list.currentIndex.toNat - 1 := by
    unfold evictedCursor
    split_ifs <;> omega
  rw [cursor] at found
  refine ⟨fun kept => ?_, fun removes several => ?_, fun alone other inserts _ => ?_⟩
  · have inner : list.currentIndex ≠ 0 := fun zero =>
      kept (insert_removes_selected_iff.mpr ⟨zero, evicts⟩)
    rw [found, selected_song_found holds]
    apply congrArg
    rw [List.getElem?_append_left (by omega), ← List.getElem?_cons_succ]
    apply congrArg ((head :: cells)[·]?)
    omega
  · have zero := (insert_removes_selected_iff.mp removes).1
    rw [List.length_cons] at several
    have second : (list.currentIndex.toNat + 1) % (head :: cells).length = 0 + 1 := by
      rw [zero]
      exact Nat.mod_eq_of_lt several
    rw [found, second, List.getElem?_cons_succ, zero]
    exact congrArg _ (List.getElem?_append_left (by omega))
  · rcases Option.some.inj (SongOp.insert.inj inserts) with rfl
    have nothing : cells = [] := List.length_eq_zero_iff.mp (by simpa using alone)
    subst nothing
    have zero : list.currentIndex.toNat - 1 = 0 := by
      simp only [List.length_nil] at last
      omega
    exact ⟨address, by rw [found, zero]; rfl⟩

end Inserting

/-- An insertion always keeps the selection, whether it is refused, makes room or appends. -/
theorem insert_keeps_selection (allocator : Allocator MusicInfo) (holds : Holds list cells)
    (valid : ValidCursor list cells) (info : Option MusicInfo) :
    ∃ ret after, songStep allocator list (.insert info) = some (ret, after) ∧
      SelectionKept list cells (.insert info) after := by
  cases info with
  | none =>
      exact ⟨-1, list, rfl, unchanged_keeps_selection (by simp [RemovesSelected]) (by simp)⟩
  | some song =>
      by_cases unowned : song.data.isSome ∧ list.freeData = false
      · refine ⟨-1, list, insert_refused allocator unowned, ?_⟩
        apply unchanged_keeps_selection
        · rw [insert_removes_selected_iff]
          exact fun removes => removes.2.1 unowned
        · intro other inserts evicts
          rcases Option.some.inj (SongOp.insert.inj inserts) with rfl
          exact evicts.1 unowned
      · by_cases full : 0 ≤ list.maxIndex ∧ list.maxIndex ≤ cells.length
        · cases cells with
          | nil =>
              rcases valid with ⟨first, last⟩
              simp only [List.length_nil] at last
              omega
          | cons head rest =>
              rcases insert_evicts allocator holds unowned full with
                ⟨world, address, inserted, replaced⟩
              exact ⟨_, _, inserted, evict_keeps_selection valid holds replaced ⟨unowned, full⟩⟩
        · have room : list.maxIndex < 0 ∨ cells.length < list.maxIndex := by omega
          rcases insert_appends allocator holds unowned room with
            ⟨world, address, inserted, longer⟩
          exact ⟨_, _, inserted,
            append_keeps_selection valid holds (fun evicts => full evicts.2) longer⟩

theorem delete_index_keeps_selection_iff (allocator : Allocator MusicInfo)
    (holds : Holds list cells) (valid : ValidCursor list cells) (index : Int) :
    (∃ ret after, songStep allocator list (.deleteIndex index) = some (ret, after) ∧
        SelectionKept list cells (.deleteIndex index) after) ↔
      ¬ DeletesSelectedTail list cells (.deleteIndex index) := by
  by_cases outside : index ≥ cells.length ∨ index < 0
  · have kept : ¬ RemovesSelected list cells (.deleteIndex index) := by
      rw [delete_removes_selected_iff]
      rcases valid with ⟨first, last⟩
      omega
    have safe : ¬ DeletesSelectedTail list cells (.deleteIndex index) :=
      fun deletes => kept (Or.inl deletes.1)
    refine iff_of_true ⟨-1, list, delete_index_outside holds outside, ?_⟩ safe
    exact unchanged_keeps_selection kept (by simp)
  · have inside : 0 ≤ index ∧ index < cells.length := by omega
    rcases delete_index_unlinks holds inside.1 inside.2 with ⟨world, deleted, remains⟩
    constructor
    · rintro ⟨ret, after, performed, selection⟩ deletes
      rw [songStep, deleted] at performed
      rcases Option.some.inj performed with ⟨rfl, rfl⟩
      exact delete_tail_loses_selection deletes remains selection
    · intro safe
      exact ⟨0, _, deleted,
        delete_keeps_selection valid inside.1 inside.2 safe holds remains⟩

/-- The selection is kept by every call but the deletion of the selected tail. -/
theorem selection_kept_iff (allocator : Allocator MusicInfo) (holds : Holds list cells)
    (valid : ValidCursor list cells) (op : SongOp) :
    (∃ ret after, songStep allocator list op = some (ret, after) ∧
        SelectionKept list cells op after) ↔
      ¬ DeletesSelectedTail list cells op := by
  cases op with
  | deleteIndex index => exact delete_index_keeps_selection_iff allocator holds valid index
  | insert info =>
      apply iff_of_true (insert_keeps_selection allocator holds valid info)
      rintro ⟨deletes, -⟩
      exact absurd deletes (by simp)

def twoNodes : NodeList where
  world := {
    heap := (Heap.empty.alloc 0 ⟨some 1, MusicQueue.untitledSong 1⟩).alloc 1
      ⟨none, MusicQueue.untitledSong 2⟩
    list := ⟨some 0, some 1, 2⟩ }
  maxIndex := 2
  currentIndex := 1
  mode := .order
  freeData := true

def twoCells : List (Nat × MusicInfo) :=
  [(0, MusicQueue.untitledSong 1), (1, MusicQueue.untitledSong 2)]

theorem two_nodes_hold : Holds twoNodes twoCells where
  chain := ⟨rfl, some 1, rfl, rfl, none, rfl, rfl⟩
  distinct := by decide
  last := fun _ => rfl
  length := rfl

theorem third_song_keeps_selection :
    (∃ ret after, songStep Allocator.bump twoNodes
        (.insert (some (MusicQueue.untitledSong 3))) = some (ret, after) ∧
        SelectionKept twoNodes twoCells (.insert (some (MusicQueue.untitledSong 3))) after) ↔
      ¬ DeletesSelectedTail twoNodes twoCells (.insert (some (MusicQueue.untitledSong 3))) :=
  selection_kept_iff Allocator.bump two_nodes_hold ⟨by decide, by decide⟩ _

/-- The second of two songs, selected and then deleted. -/
theorem deleted_tail_is_not_succeeded :
    ¬ ∀ (allocator : Allocator MusicInfo) (list : NodeList) (cells : List (Nat × MusicInfo))
        (op : SongOp), Holds list cells → ValidCursor list cells →
      ∃ ret after, songStep allocator list op = some (ret, after) ∧
        SelectionKept list cells op after := by
  intro always
  rcases always Allocator.bump twoNodes twoCells (.deleteIndex 1) two_nodes_hold
    ⟨by decide, by decide⟩ with ⟨ret, after, performed, kept⟩
  have successor := kept.successor (Or.inl rfl) (by decide)
  have computed : (songStep Allocator.bump twoNodes (.deleteIndex 1)).bind
      (fun result => selectedSong result.2) = some none := rfl
  rw [performed, Option.bind_some, successor] at computed
  exact absurd (Option.some.inj computed) (by decide)

end Selection

end Gk7102.MusicQueueNodes
