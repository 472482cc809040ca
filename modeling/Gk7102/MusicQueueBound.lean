import Gk7102.MusicQueue

/-!
# The bound of the song queue

An insertion makes room for one song, so it keeps a queue within its bound and
does not bring a longer queue back. Only `mozart_musiclist_set_max_index` can
leave a queue longer than its bound: nothing is dropped when the bound is lowered.
-/

namespace Gk7102.MusicQueueBound

open Gk7102.StepRuns
open Gk7102.MusicQueue

set_option autoImplicit false

/-- `free_data` is there for the private data of the song, if it has any. -/
def Accepted (queue : MusicList) (song : MusicInfo) : Prop :=
  ¬ (song.data.isSome ∧ queue.freeData = false)

/-- After a successful insertion under a bound the queue is not longer than it. -/
def BoundKept (list : Option MusicList) (op : QueueOp) : Prop :=
  ∀ info, op = .insert info → 0 ≤ (mozartMusiclistInsert list info).1 →
    ∀ queue, list = some queue → 1 ≤ queue.maxIndex →
      ∃ filled, queueStep list op = some filled ∧ (filled.list.length : Int) ≤ queue.maxIndex

def Overfull (list : Option MusicList) : Prop :=
  ∃ queue, list = some queue ∧ 1 ≤ queue.maxIndex ∧ queue.maxIndex < queue.list.length

def InsertsOverfull (list : Option MusicList) (op : QueueOp) : Prop :=
  Overfull list ∧ ∃ queue song, list = some queue ∧ op = .insert (some song) ∧
    Accepted queue song

def LowersBound (list : Option MusicList) (op : QueueOp) : Prop :=
  ∃ queue maxIndex, list = some queue ∧ op = .setMaxIndex maxIndex ∧ 1 ≤ maxIndex ∧
    maxIndex < queue.list.length

section Lengths

variable (queue : MusicList) (song : MusicInfo)

theorem inserted_length (accepted : Accepted queue song) :
    ∃ filled, (mozartMusiclistInsert (some queue) (some song)).2 = some filled ∧
      filled.maxIndex = queue.maxIndex ∧
      filled.list.length =
        BoundedQueue.settledLength (boundOf queue.maxIndex) queue.list.length 1 := by
  rcases insert_refines_push queue song accepted with ⟨filled, stored, songs, bound, -⟩
  refine ⟨filled, stored, bound, ?_⟩
  rw [songs, BoundedQueue.push_length]

theorem settled_under_bound (bounded : 1 ≤ queue.maxIndex) :
    BoundedQueue.settledLength (boundOf queue.maxIndex) queue.list.length 1 =
      if queue.maxIndex ≤ queue.list.length then queue.list.length
      else queue.list.length + 1 := by
  have limit : boundOf queue.maxIndex = some queue.maxIndex.toNat := if_neg (by omega)
  rw [limit]
  simp only [BoundedQueue.settledLength]
  split_ifs <;> omega

theorem inserted_succeeds (accepted : Accepted queue song) (bounded : 1 ≤ queue.maxIndex) :
    0 ≤ (mozartMusiclistInsert (some queue) (some song)).1 := by
  by_cases full : queue.maxIndex ≤ queue.list.length
  · have filled : queue.list ≠ [] := List.length_pos_iff.mp (by omega)
    rw [insert_with_eviction queue song accepted ⟨by omega, full⟩ filled]
    exact Int.natCast_nonneg _
  · rw [insert_with_room queue song accepted (by omega)]
    exact Int.natCast_nonneg _

theorem insert_success_accepted {info : Option MusicInfo}
    (success : 0 ≤ (mozartMusiclistInsert (some queue) info).1) :
    ∃ inserted, info = some inserted ∧ Accepted queue inserted := by
  cases info with
  | none => simp [mozartMusiclistInsert] at success
  | some inserted =>
      refine ⟨inserted, rfl, ?_⟩
      intro unowned
      rw [insert_refused queue inserted unowned] at success
      simp at success

end Lengths

/-- One insertion keeps the bound exactly when the queue was not too long before. -/
theorem bound_kept_iff (list : Option MusicList) (op : QueueOp) :
    BoundKept list op ↔ ¬ InsertsOverfull list op := by
  constructor
  · rintro kept ⟨⟨queue, rfl, bounded, overfull⟩, other, song, same, rfl, accepted⟩
    rcases Option.some.inj same with rfl
    rcases kept (some song) rfl (inserted_succeeds queue song accepted bounded) queue rfl bounded
      with ⟨filled, stored, short⟩
    rcases inserted_length queue song accepted with ⟨reached, result, -, length⟩
    rw [queueStep, result] at stored
    rw [← Option.some.inj stored, length, settled_under_bound queue bounded,
      if_pos (by omega)] at short
    omega
  · intro fits info inserted success queue present bounded
    subst inserted
    subst present
    rcases insert_success_accepted queue success with ⟨song, rfl, accepted⟩
    have within : (queue.list.length : Int) ≤ queue.maxIndex := by
      by_contra longer
      exact fits ⟨⟨queue, rfl, bounded, by omega⟩, queue, song, rfl, rfl, accepted⟩
    rcases inserted_length queue song accepted with ⟨filled, stored, -, length⟩
    refine ⟨filled, stored, ?_⟩
    rw [length, settled_under_bound queue bounded]
    split <;> omega

/-- In a run from creation, every successful insertion leaves the queue within its
bound exactly when none of them goes into a queue that is too long already. -/
theorem bound_kept_along_run (callocated freeData : Bool) (ops : List QueueOp) :
    EveryStep queueStep BoundKept (mozartMusiclistCreate callocated freeData) ops ↔
      EveryStep queueStep (fun list op => ¬ InsertsOverfull list op)
        (mozartMusiclistCreate callocated freeData) ops :=
  every_step_congr bound_kept_iff _ ops

section Lowering

/-- Fewer songs under the same bound are not too many either. -/
theorem overfull_mono {queue other : MusicList} (bound : other.maxIndex = queue.maxIndex)
    (fewer : other.list.length ≤ queue.list.length) (fits : ¬ Overfull (some queue)) :
    ¬ Overfull (some other) := by
  rintro ⟨found, same, bounded, overfull⟩
  rcases Option.some.inj same with rfl
  rw [bound] at bounded overfull
  exact fits ⟨queue, rfl, bounded, by omega⟩

theorem step_not_overfull (list : Option MusicList) (op : QueueOp) (fits : ¬ Overfull list)
    (raised : ¬ LowersBound list op) : ¬ Overfull (queueStep list op) := by
  cases list with
  | none =>
      rw [queue_step_none]
      exact fits
  | some queue =>
      rcases queue_step_moves queue op with ⟨after, stepped, move⟩
      rw [stepped]
      cases move with
      | appended song _ room =>
          rintro ⟨longer, stored, bounded, overfull⟩
          rcases Option.some.inj stored with rfl
          simp only [appendSong, listInsertAtTail, List.length_append,
            List.length_singleton] at bounded overfull
          omega
      | replaced song _ _ filled =>
          have positive : 0 < queue.list.length := List.length_pos_iff.mpr filled
          have fewer : (appendSong (evictHead queue) song).list.length ≤ queue.list.length := by
            simp only [appendSong, evictHead, listInsertAtTail, listDeleteAtIndex,
              List.length_append, List.length_singleton, List.length_eraseIdx]
            split <;> omega
          exact @overfull_mono queue _ rfl fewer fits
      | deleted index _ _ =>
          have fewer : (listDeleteAtIndex queue.list index).length ≤ queue.list.length :=
            (List.eraseIdx_sublist _ _).length_le
          exact @overfull_mono queue _ rfl fewer fits
      | boundSet maxIndex =>
          rintro ⟨lowered, stored, bounded, overfull⟩
          rcases Option.some.inj stored with rfl
          exact raised ⟨queue, maxIndex, rfl, rfl, bounded, overfull⟩
      | cleaned =>
          rintro ⟨cleaned, stored, bounded, overfull⟩
          rcases Option.some.inj stored with rfl
          simp only at bounded
          omega
      | _ => exact @overfull_mono queue _ rfl (Nat.le_refl _) fits

theorem create_not_overfull (callocated freeData : Bool) :
    ¬ Overfull (mozartMusiclistCreate callocated freeData) := by
  rintro ⟨queue, created, bounded, overfull⟩
  cases callocated with
  | false => exact absurd created (by simp [mozartMusiclistCreate])
  | true =>
      rcases Option.some.inj created with rfl
      simp only at bounded
      omega

/-- As long as the bound is not set below the length, no insertion exceeds it. -/
theorem bound_kept_unless_lowered (callocated freeData : Bool) (ops : List QueueOp)
    (raised : EveryStep queueStep (fun list op => ¬ LowersBound list op)
      (mozartMusiclistCreate callocated freeData) ops) :
    EveryStep queueStep BoundKept (mozartMusiclistCreate callocated freeData) ops := by
  apply every_step_of_every_step step_not_overfull _ _ (create_not_overfull callocated freeData)
    ops raised
  intro list op fits _
  exact (bound_kept_iff list op).mpr fun inserts => fits inserts.1

end Lowering

/-- Two songs, then a bound of one, then a third song: two songs are left. -/
theorem lowered_bound_exceeded :
    ¬ ∀ callocated freeData ops,
      EveryStep queueStep BoundKept (mozartMusiclistCreate callocated freeData) ops := by
  intro always
  have kept := (always true true [.insert (some (untitledSong 1)),
    .insert (some (untitledSong 2)), .setMaxIndex 1, .insert (some (untitledSong 3))]).2.2.2.1
  rcases kept (some (untitledSong 3)) rfl (by decide) _ rfl (by decide) with
    ⟨filled, stored, short⟩
  rcases Option.some.inj stored with rfl
  exact absurd short (by decide)

end Gk7102.MusicQueueBound
