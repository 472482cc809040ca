import Gk7102.MusicQueueBound

/-!
# Copying the song queue

`mozart_musiclist_copy` presets bound and cursor and inserts the songs again, so a
queue that is longer than its bound is not copied whole. The copied songs share the
private data of the old ones, and a song that the copy evicts hands it to `free_data`.
-/

namespace Gk7102.MusicQueueCopy

open Gk7102.StepRuns
open Gk7102.MusicQueue
open Gk7102.MusicQueueBound

set_option autoImplicit false

def mozartMusiclistCopyInfo (allocated : Bool) (info : MusicInfo) : Option MusicInfo :=
  mozartMusiclistGetInfo allocated info.id info.musicName info.musicUrl info.musicPicture
    info.albumsName info.artistsName info.data

/-- The private data an insertion hands to `free_data`: that of the song it evicts. -/
def dataFreedByInsert (list : Option MusicList) (info : MusicInfo) : List (Option String) :=
  match list with
  | none => []
  | some queue =>
      if info.data.isSome ∧ queue.freeData = false then []
      else if queue.maxIndex ≥ 0 ∧ queue.maxIndex ≤ queue.list.length then
        if queue.freeData then (queue.list.head?.map MusicInfo.data).toList else []
      else []

structure Copying where
  new : Option MusicList
  freed : List (Option String)
deriving DecidableEq, Repr

def insertCopy (copying : Copying) (newInfo : MusicInfo) : Copying where
  new := (mozartMusiclistInsert copying.new (some newInfo)).2
  freed := copying.freed ++ dataFreedByInsert copying.new newInfo

/-- `for (i = 0; i < len; i++)`, with the rounds that are left. -/
def copyLoop (allocated : Nat → Bool) (list : Option MusicList) : Nat → Nat → Copying → Copying
  | 0, _, copying => copying
  | rounds + 1, i, copying =>
      match mozartMusiclistGetIndex list i with
      | none => copyLoop allocated list rounds (i + 1) copying
      | some info =>
          match mozartMusiclistCopyInfo (allocated i) info with
          | none => copyLoop allocated list rounds (i + 1) copying
          | some newInfo => copyLoop allocated list rounds (i + 1) (insertCopy copying newInfo)

/-- `callocated` is the outcome of the allocation of the new queue, `allocated i`
that of the allocations for the copy of song `i`. -/
def mozartMusiclistCopy (callocated : Bool) (allocated : Nat → Bool) (list : Option MusicList) :
    Copying :=
  match list with
  | none => ⟨none, []⟩
  | some queue =>
      if callocated then
        copyLoop allocated list (mozartMusiclistGetLength list).toNat 0
          ⟨some { list := [], maxIndex := queue.maxIndex, currentIndex := queue.currentIndex,
                  mode := queue.mode, freeData := queue.freeData }, []⟩
      else ⟨none, []⟩

/-- The copy agrees with the source, and nothing the source holds was freed. -/
structure CopyEqualsSource (queue : MusicList) (copying : Copying) : Prop where
  created : ∃ new, copying.new = some new ∧ new.list = queue.list ∧
    new.currentIndex = queue.currentIndex ∧ new.maxIndex = queue.maxIndex ∧
    new.mode = queue.mode
  untouched : copying.freed = []

/-- What creation establishes and every call keeps. -/
structure SourceLaw (queue : MusicList) : Prop where
  selected : queue.list ≠ [] → 0 ≤ queue.currentIndex
  owned : ∀ song ∈ queue.list, Accepted queue song

section Reachable

variable {queue : MusicList}

theorem select_law (law : SourceLaw queue) {index : Int} (lower : 0 ≤ index) :
    SourceLaw { queue with currentIndex := index } where
  selected _ := lower
  owned := law.owned

theorem prev_index_nonneg (law : SourceLaw queue) (filled : queue.list ≠ []) (random : Nat) :
    0 ≤ prevIndex random queue := by
  have positive : 0 < queue.list.length := List.length_pos_iff.mpr filled
  have drawn := random_index_in_range random queue filled
  have lower := law.selected filled
  unfold prevIndex
  split
  · exact drawn.1
  · split <;> omega

theorem next_index_nonneg (law : SourceLaw queue) (filled : queue.list ≠ []) (random : Nat)
    (force : Bool) : 0 ≤ nextIndex random queue force := by
  have drawn := random_index_in_range random queue filled
  have lower := law.selected filled
  have advanced : 0 ≤ Int.tmod (queue.currentIndex + 1) queue.list.length :=
    Int.tmod_nonneg _ (by omega)
  unfold nextIndex
  split
  · exact drawn.1
  · split
    · exact lower
    · exact advanced
  · exact advanced

theorem delete_law (law : SourceLaw queue) {index : Int} (lower : 0 ≤ index) :
    SourceLaw { queue with
      list := listDeleteAtIndex queue.list index
      currentIndex :=
        if index < queue.currentIndex then queue.currentIndex - 1 else queue.currentIndex } where
  selected := by
    intro filled
    have before : queue.list ≠ [] := by
      rintro empty
      exact filled (by simp [listDeleteAtIndex, empty])
    have selected := law.selected before
    dsimp only
    split <;> omega
  owned := by
    intro song member
    exact law.owned song (List.mem_of_mem_eraseIdx member)

theorem append_law (law : SourceLaw queue) {song : MusicInfo} (accepted : Accepted queue song) :
    SourceLaw (appendSong queue song) where
  selected := by
    intro _
    simp only [appendSong]
    split <;> omega
  owned := by
    intro other member
    rcases List.mem_append.mp member with before | new
    · exact law.owned other before
    · rw [List.mem_singleton.mp new]
      exact accepted

theorem source_step_law (law : SourceLaw queue) (op : QueueOp) (after : MusicList)
    (stored : queueStep (some queue) op = some after) : SourceLaw after := by
  rcases queue_step_moves queue op with ⟨reached, stepped, move⟩
  rw [stepped] at stored
  rcases Option.some.inj stored with rfl
  cases move with
  | unchanged => exact law
  | appended song owned _ => exact append_law law owned
  | replaced song owned _ _ =>
      have evicted : SourceLaw (evictHead queue) := delete_law law (Int.le_refl 0)
      exact append_law evicted owned
  | deleted index lower _ => exact delete_law law lower
  | back random filled => exact select_law law (prev_index_nonneg law filled random)
  | forward random force filled => exact select_law law (next_index_nonneg law filled random force)
  | picked index lower _ => exact select_law law lower
  | modeSet mode => exact ⟨law.selected, law.owned⟩
  | boundSet maxIndex => exact ⟨law.selected, law.owned⟩
  | cleaned =>
      exact ⟨fun filled => absurd rfl filled, fun song member => absurd member List.not_mem_nil⟩

theorem reachable_source_law (callocated freeData : Bool) (ops : List QueueOp)
    (reached : run queueStep (mozartMusiclistCreate callocated freeData) ops = some queue) :
    SourceLaw queue := by
  have everywhere : ∀ after, run queueStep (mozartMusiclistCreate callocated freeData) ops =
      some after → SourceLaw after := by
    apply @invariant_of_run _ _ queueStep (fun list => ∀ after, list = some after →
      SourceLaw after)
    · intro list op law after stored
      cases list with
      | none =>
          rw [queue_step_none] at stored
          exact absurd stored (by simp)
      | some before => exact source_step_law (law before rfl) op after stored
    · intro after created
      cases callocated with
      | false => exact absurd created (by simp [mozartMusiclistCreate])
      | true =>
          rcases Option.some.inj created with rfl
          exact ⟨fun filled => absurd rfl filled, fun song member => absurd member
            List.not_mem_nil⟩
  exact everywhere queue reached

end Reachable

section Copying

theorem copy_loop_inserts (queue : MusicList) (rounds i : Nat)
    (ends : i + rounds = queue.list.length) (copying : Copying) :
    copyLoop (fun _ => true) (some queue) rounds i copying =
      (queue.list.drop i).foldl insertCopy copying := by
  induction rounds generalizing i copying with
  | zero =>
      rw [List.drop_of_length_le (by omega)]
      rfl
  | succ fewer ih =>
      have within : i < queue.list.length := by omega
      have inside : ¬ ((i : Int) ≥ mozartMusiclistGetLength (some queue) ∨ (i : Int) < 0) := by
        simp only [mozartMusiclistGetLength]
        omega
      have found : mozartMusiclistGetIndex (some queue) i = some queue.list[i] := by
        simp only [mozartMusiclistGetIndex, if_neg inside, listGetElement, Int.toNat_natCast,
          List.getElem?_eq_getElem within]
      rw [copyLoop, found, List.drop_eq_getElem_cons within, List.foldl_cons]
      exact ih (i + 1) (by omega) (insertCopy copying queue.list[i])

theorem insert_copies_push (songs : List MusicInfo) (new : MusicList) (freed : List (Option String))
    (owned : ∀ song ∈ songs, Accepted new song) :
    ∃ filled, (songs.foldl insertCopy ⟨some new, freed⟩).new = some filled ∧
      filled.list = BoundedQueue.pushAll (boundOf new.maxIndex) new.list songs := by
  induction songs generalizing new freed with
  | nil => exact ⟨new, rfl, rfl⟩
  | cons song rest ih =>
      rcases insert_refines_push new song (owned song List.mem_cons_self) with
        ⟨longer, inserted, pushed, bound, release⟩
      have kept : ∀ other ∈ rest, Accepted longer other := by
        intro other member unowned
        rw [release] at unowned
        exact owned other (List.mem_cons_of_mem song member) unowned
      rcases ih longer (freed ++ dataFreedByInsert (some new) song) kept with
        ⟨filled, stored, result⟩
      refine ⟨filled, ?_, ?_⟩
      · rw [List.foldl_cons, insertCopy]
        simp only [inserted]
        exact stored
      · rw [result, bound, pushed, BoundedQueue.pushAll, BoundedQueue.pushAll, List.foldl_cons]

/-- As long as there is room nothing is evicted and the cursor stays. -/
theorem insert_copies_with_room (songs : List MusicInfo) (new : MusicList)
    (owned : ∀ song ∈ songs, Accepted new song) (selected : songs ≠ [] → 0 ≤ new.currentIndex)
    (room : new.maxIndex < 0 ∨ (new.list.length + songs.length : Nat) ≤ new.maxIndex) :
    songs.foldl insertCopy ⟨some new, []⟩ = ⟨some { new with list := new.list ++ songs }, []⟩ := by
  induction songs generalizing new with
  | nil =>
      rw [List.append_nil]
      rfl
  | cons song rest ih =>
      rw [List.length_cons] at room
      have accepted := owned song List.mem_cons_self
      have here : new.maxIndex < 0 ∨ (new.list.length : Int) < new.maxIndex := by omega
      have cursor : ¬ new.currentIndex < 0 := by
        have lower := selected (List.cons_ne_nil song rest)
        omega
      have longer : insertCopy ⟨some new, []⟩ song =
          ⟨some { new with list := new.list ++ [song] }, []⟩ := by
        have kept : dataFreedByInsert (some new) song = [] := by
          simp only [dataFreedByInsert]
          rw [if_neg accepted, if_neg (by omega)]
        rw [insertCopy]
        simp only [insert_with_room new song accepted here, kept, appendSong, if_neg cursor,
          listInsertAtTail, List.append_nil]
      have later := ih { new with list := new.list ++ [song] }
        (fun other member => owned other (List.mem_cons_of_mem song member))
        (fun _ => selected (List.cons_ne_nil song rest)) (by
          simp only [List.length_append, List.length_singleton]
          omega)
      rw [List.foldl_cons, longer, later]
      simp only [List.append_assoc, List.singleton_append]

theorem copy_inserts_songs (queue : MusicList) :
    mozartMusiclistCopy true (fun _ => true) (some queue) =
      queue.list.foldl insertCopy ⟨some { queue with list := [] }, []⟩ := by
  simp only [mozartMusiclistCopy, mozartMusiclistGetLength, if_true, Int.toNat_natCast]
  rw [copy_loop_inserts queue queue.list.length 0 (Nat.zero_add _), List.drop_zero]

end Copying

/-- A reachable queue is copied faithfully exactly when it is within its bound. -/
theorem copy_equals_source_iff (callocated freeData : Bool) (ops : List QueueOp)
    (queue : MusicList)
    (reached : run queueStep (mozartMusiclistCreate callocated freeData) ops = some queue) :
    CopyEqualsSource queue (mozartMusiclistCopy true (fun _ => true) (some queue)) ↔
      queue.maxIndex < 0 ∨ queue.list.length ≤ queue.maxIndex := by
  have law := reachable_source_law callocated freeData ops reached
  rw [copy_inserts_songs]
  constructor
  · intro same
    by_contra overfull
    rcases same.created with ⟨new, stored, songs, -⟩
    rcases insert_copies_push queue.list { queue with list := [] } [] law.owned with
      ⟨filled, result, pushed⟩
    rw [result] at stored
    rcases Option.some.inj stored with rfl
    have lengths := congrArg List.length pushed
    have limit : boundOf queue.maxIndex = some queue.maxIndex.toNat := if_neg (by omega)
    rw [songs, BoundedQueue.push_all_length, limit] at lengths
    simp only [BoundedQueue.settledLength, List.length_nil] at lengths
    split at lengths <;> omega
  · intro room
    rw [insert_copies_with_room queue.list { queue with list := [] } law.owned law.selected
      (by simpa using room)]
    exact ⟨⟨_, rfl, rfl, rfl, rfl, rfl⟩, rfl⟩

theorem two_songs_copied :
    CopyEqualsSource ⟨[untitledSong 1, untitledSong 2], 2, 0, .order, true⟩
      (mozartMusiclistCopy true (fun _ => true)
        (some ⟨[untitledSong 1, untitledSong 2], 2, 0, .order, true⟩)) :=
  (copy_equals_source_iff true true [.setMaxIndex 2, .insert (some (untitledSong 1)),
    .insert (some (untitledSong 2))] _ (by decide)).mpr (by decide)

/-- Two songs, then a bound of one: the copy holds the second song only. -/
theorem copy_drops_first_song :
    ¬ ∀ callocated freeData ops queue,
      run queueStep (mozartMusiclistCreate callocated freeData) ops = some queue →
      CopyEqualsSource queue (mozartMusiclistCopy true (fun _ => true) (some queue)) := by
  intro always
  have same := always true true [.insert (some (untitledSong 1)),
    .insert (some (untitledSong 2)), .setMaxIndex 1] _ rfl
  rcases same.created with ⟨new, stored, songs, -⟩
  rcases Option.some.inj stored with rfl
  exact absurd songs (by decide)

end Gk7102.MusicQueueCopy
