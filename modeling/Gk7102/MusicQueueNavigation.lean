import Mathlib.Data.List.Rotate
import Gk7102.MusicQueue

/-!
# Moving through the song queue

Order mode walks round the queue: forward by a remainder, backward by a sign
test. The two are inverse to each other, and as many forward steps as there are
songs go once round. Single mode stays where it is until the caller forces it.
-/

namespace Gk7102.MusicQueueNavigation

open Gk7102.MusicQueue

set_option autoImplicit false

def ValidCursor (queue : MusicList) : Prop :=
  0 ≤ queue.currentIndex ∧ queue.currentIndex < queue.list.length

/-- A call of `mozart_musiclist_set_next`, with what `random()` would answer. -/
structure NextCall where
  random : Nat
  force : Bool
deriving DecidableEq, Repr

/-- Consecutive calls, and the song each one returns. -/
def setNextCalls : List NextCall → Option MusicList → List (Option MusicInfo) × Option MusicList
  | [], list => ([], list)
  | call :: rest, list =>
      let moved := mozartMusiclistSetNext call.random list call.force
      let later := setNextCalls rest moved.2
      (moved.1 :: later.1, later.2)

def Advances (queue : MusicList) (force : Bool) : Prop :=
  queue.mode = .order ∨ (queue.mode = .single ∧ force = true)

def stepsAhead (queue : MusicList) (count : Nat) : Int :=
  (queue.currentIndex + count) % queue.list.length

section Steps

variable {queue : MusicList}

theorem valid_filled (valid : ValidCursor queue) : queue.list ≠ [] := by
  apply List.length_pos_iff.mp
  rcases valid with ⟨lower, upper⟩
  omega

theorem steps_ahead_zero (valid : ValidCursor queue) :
    stepsAhead queue 0 = queue.currentIndex := by
  rw [stepsAhead, Int.natCast_zero, Int.add_zero]
  exact Int.emod_eq_of_lt valid.1 valid.2

theorem steps_ahead_round (valid : ValidCursor queue) :
    stepsAhead queue queue.list.length = queue.currentIndex := by
  rw [stepsAhead, Int.add_emod_right]
  exact Int.emod_eq_of_lt valid.1 valid.2

theorem steps_ahead_in_range (valid : ValidCursor queue) (count : Nat) :
    0 ≤ stepsAhead queue count ∧ stepsAhead queue count < queue.list.length := by
  have positive : 0 < queue.list.length := List.length_pos_iff.mpr (valid_filled valid)
  exact ⟨Int.emod_nonneg _ (by omega), Int.emod_lt_of_pos _ (by omega)⟩

theorem moved_valid (valid : ValidCursor queue) (count : Nat) :
    ValidCursor { queue with currentIndex := stepsAhead queue count } :=
  steps_ahead_in_range valid count

/-- Steps add up: the walk goes on from where it has arrived. -/
theorem steps_ahead_add (first later : Nat) :
    stepsAhead { queue with currentIndex := stepsAhead queue first } later =
      stepsAhead queue (first + later) := by
  simp only [stepsAhead, Int.emod_add_emod, Int.natCast_add, Int.add_assoc]

theorem next_index_advances (valid : ValidCursor queue) (random : Nat) {force : Bool}
    (advances : Advances queue force) : nextIndex random queue force = stepsAhead queue 1 := by
  have forward : Int.tmod (queue.currentIndex + 1) queue.list.length = stepsAhead queue 1 := by
    rw [Int.tmod_eq_emod_of_nonneg (Int.add_nonneg valid.1 (by decide))]
    rfl
  rcases advances with order | ⟨single, forced⟩
  · simp only [nextIndex, order, forward]
  · simp only [nextIndex, single, forced, Bool.true_eq_false, if_false, forward]

theorem set_next_advances (valid : ValidCursor queue) (random : Nat) {force : Bool}
    (advances : Advances queue force) :
    mozartMusiclistSetNext random (some queue) force =
      (listGetElement queue.list (stepsAhead queue 1),
        some { queue with currentIndex := stepsAhead queue 1 }) := by
  rw [set_next_filled queue random force (valid_filled valid),
    next_index_advances valid random advances]

theorem set_prev_order (filled : queue.list ≠ []) (order : queue.mode = .order) (random : Nat) :
    (mozartMusiclistSetPrev random (some queue)).2 =
      some { queue with currentIndex :=
        if queue.currentIndex ≤ 0 then (queue.list.length : Int) - 1
        else queue.currentIndex - 1 } := by
  rw [set_prev_filled queue random filled]
  simp only [prevIndex, order]

theorem one_step_ahead (valid : ValidCursor queue) :
    stepsAhead queue 1 =
      if queue.currentIndex + 1 = queue.list.length then 0 else queue.currentIndex + 1 := by
  rcases valid with ⟨lower, upper⟩
  rw [stepsAhead]
  split
  · rename_i last
    rw [Int.natCast_one, last, Int.emod_self]
  · rename_i inner
    rw [Int.natCast_one]
    exact Int.emod_eq_of_lt (by omega) (by omega)

theorem set_next_then_set_prev (valid : ValidCursor queue) (order : queue.mode = .order)
    (forward backward : Nat) (force : Bool) :
    (mozartMusiclistSetPrev backward
      (mozartMusiclistSetNext forward (some queue) force).2).2 = some queue := by
  have filled := valid_filled valid
  rw [set_next_advances valid forward (Or.inl order),
    @set_prev_order { queue with currentIndex := stepsAhead queue 1 } filled order]
  have back : (if stepsAhead queue 1 ≤ 0 then (queue.list.length : Int) - 1
      else stepsAhead queue 1 - 1) = queue.currentIndex := by
    rw [one_step_ahead valid]
    rcases valid with ⟨lower, upper⟩
    split_ifs <;> omega
  simp only [back]

theorem set_prev_then_set_next (valid : ValidCursor queue) (order : queue.mode = .order)
    (forward backward : Nat) (force : Bool) :
    (mozartMusiclistSetNext forward
      (mozartMusiclistSetPrev backward (some queue)).2 force).2 = some queue := by
  rw [set_prev_order (valid_filled valid) order]
  have returned : ValidCursor { queue with currentIndex :=
      if queue.currentIndex ≤ 0 then (queue.list.length : Int) - 1
      else queue.currentIndex - 1 } := by
    rcases valid with ⟨lower, upper⟩
    refine ⟨?_, ?_⟩ <;> dsimp only <;> split <;> omega
  have ahead := one_step_ahead returned
  rw [set_next_advances returned forward (Or.inl order), ahead]
  rcases valid with ⟨lower, upper⟩
  have back : (if (if queue.currentIndex ≤ 0 then (queue.list.length : Int) - 1
      else queue.currentIndex - 1) + 1 = queue.list.length then (0 : Int)
      else (if queue.currentIndex ≤ 0 then (queue.list.length : Int) - 1
        else queue.currentIndex - 1) + 1) = queue.currentIndex := by
    split_ifs <;> omega
  simp only [back]

end Steps

section Runs

variable {queue : MusicList}

theorem set_next_calls_walk (calls : List NextCall) (valid : ValidCursor queue)
    (advances : ∀ call ∈ calls, Advances queue call.force) :
    setNextCalls calls (some queue) =
      ((List.range calls.length).map
          (fun i => listGetElement queue.list (stepsAhead queue (i + 1))),
        some { queue with currentIndex := stepsAhead queue calls.length }) := by
  induction calls generalizing queue with
  | nil =>
      rw [List.length_nil, steps_ahead_zero valid]
      rfl
  | cons call rest ih =>
      have first := set_next_advances valid call.random (advances call List.mem_cons_self)
      have later := ih (moved_valid valid 1)
        (fun other member => advances other (List.mem_cons_of_mem call member))
      simp only [steps_ahead_add] at later
      simp only [setNextCalls, first, later, List.length_cons, List.range_succ_eq_map,
        List.map_cons, List.map_map, Nat.zero_add, Nat.add_comm 1]
      rfl

/-- Once round the queue: what is returned is the queue, turned so that it
begins behind the cursor. -/
theorem walk_is_rotation (valid : ValidCursor queue) :
    (List.range queue.list.length).map
        (fun i => listGetElement queue.list (stepsAhead queue (i + 1))) =
      (queue.list.rotate (queue.currentIndex.toNat + 1)).map some := by
  rcases valid with ⟨lower, upper⟩
  apply List.ext_getElem
  · simp only [List.length_map, List.length_range, List.length_rotate]
  · intro i left right
    simp only [List.length_map, List.length_range] at left
    have position : (stepsAhead queue (i + 1)).toNat =
        (i + (queue.currentIndex.toNat + 1)) % queue.list.length := by
      have moved : queue.currentIndex + ((i + 1 : Nat) : Int) =
          ((i + (queue.currentIndex.toNat + 1) : Nat) : Int) := by
        omega
      rw [stepsAhead, moved]
      exact Int.toNat_natCast _
    have bound : (i + (queue.currentIndex.toNat + 1)) % queue.list.length < queue.list.length :=
      Nat.mod_lt _ (by omega)
    simp only [List.getElem_map, List.getElem_range, listGetElement, position,
      List.getElem_rotate, List.getElem?_eq_getElem bound]

/-- In single mode an unforced call changes nothing and returns the selected song. -/
theorem set_next_stays (valid : ValidCursor queue) (single : queue.mode = .single)
    (random : Nat) :
    mozartMusiclistSetNext random (some queue) false =
      (listGetElement queue.list queue.currentIndex, some queue) := by
  have still : nextIndex random queue false = queue.currentIndex := by
    simp only [nextIndex, single, if_true]
  rw [set_next_filled queue random false (valid_filled valid), still]

theorem set_next_calls_stay (calls : List NextCall) (valid : ValidCursor queue)
    (single : queue.mode = .single) (unforced : ∀ call ∈ calls, call.force = false) :
    setNextCalls calls (some queue) =
      (List.replicate calls.length (mozartMusiclistGetCurrent (some queue)), some queue) := by
  have selected : mozartMusiclistGetCurrent (some queue) =
      listGetElement queue.list queue.currentIndex := by
    simp [mozartMusiclistGetCurrent, mozartMusiclistGetLength, valid_filled valid]
  induction calls with
  | nil => rfl
  | cons call rest ih =>
      have here : call.force = false := unforced call List.mem_cons_self
      have later := ih (fun other member => unforced other (List.mem_cons_of_mem call member))
      rw [setNextCalls, here, set_next_stays valid single]
      simp only [later, List.length_cons, List.replicate_succ, selected]

end Runs

def inMode (mode : PlayMode) (queue : MusicList) : MusicList := { queue with mode := mode }

/-- How a queue with a selected song answers `set_next` and `set_prev`. -/
structure NavigationLaw (queue : MusicList) : Prop where
  next_then_prev : queue.mode = .order → ∀ forward backward force,
    (mozartMusiclistSetPrev backward
      (mozartMusiclistSetNext forward (some queue) force).2).2 = some queue
  prev_then_next : queue.mode = .order → ∀ forward backward force,
    (mozartMusiclistSetNext forward
      (mozartMusiclistSetPrev backward (some queue)).2 force).2 = some queue
  once_round : queue.mode = .order → ∀ calls : List NextCall,
    calls.length = queue.list.length →
      (setNextCalls calls (some queue)).1 =
          (queue.list.rotate (queue.currentIndex.toNat + 1)).map some ∧
        (setNextCalls calls (some queue)).1.Perm (queue.list.map some) ∧
        (setNextCalls calls (some queue)).1.getLast? =
          some (mozartMusiclistGetCurrent (some queue)) ∧
        (setNextCalls calls (some queue)).2 = some queue
  single_stays : queue.mode = .single → ∀ calls : List NextCall,
    (∀ call ∈ calls, call.force = false) →
      setNextCalls calls (some queue) =
        (List.replicate calls.length (mozartMusiclistGetCurrent (some queue)), some queue)
  single_forced : queue.mode = .single → ∀ calls : List NextCall,
    (∀ call ∈ calls, call.force = true) →
      setNextCalls calls (some queue) =
        ((setNextCalls calls (some (inMode .order queue))).1,
          (setNextCalls calls (some (inMode .order queue))).2.map (inMode .single))

theorem once_round_in_order {queue : MusicList} (valid : ValidCursor queue)
    (order : queue.mode = .order) (calls : List NextCall)
    (round : calls.length = queue.list.length) :
    setNextCalls calls (some queue) =
      ((queue.list.rotate (queue.currentIndex.toNat + 1)).map some, some queue) := by
  rw [set_next_calls_walk calls valid (fun _ _ => Or.inl order), round, walk_is_rotation valid,
    steps_ahead_round valid]

/-- A whole turn ends on the song it started from. -/
theorem rotation_ends_at_cursor {queue : MusicList} (valid : ValidCursor queue) :
    ((queue.list.rotate (queue.currentIndex.toNat + 1)).map some).getLast? =
      some (mozartMusiclistGetCurrent (some queue)) := by
  have filled := valid_filled valid
  have positive : 0 < queue.list.length := List.length_pos_iff.mpr filled
  have last : (queue.list.length - 1 + 1 : Nat) = queue.list.length := by omega
  rw [← walk_is_rotation valid, List.getLast?_map, List.getLast?_range, if_neg (by omega),
    Option.map_some, last, steps_ahead_round valid]
  simp [mozartMusiclistGetCurrent, mozartMusiclistGetLength, filled]

theorem navigation_law (queue : MusicList) (valid : ValidCursor queue) :
    NavigationLaw queue where
  next_then_prev order := set_next_then_set_prev valid order
  prev_then_next order := set_prev_then_set_next valid order
  once_round order calls round := by
    rw [once_round_in_order valid order calls round]
    refine ⟨rfl, ?_, rotation_ends_at_cursor valid, rfl⟩
    exact (List.rotate_perm _ _).map some
  single_stays single calls unforced := set_next_calls_stay calls valid single unforced
  single_forced single calls forced := by
    have ordered : ValidCursor (inMode .order queue) := valid
    rw [set_next_calls_walk calls valid (fun call member => Or.inr ⟨single, forced call member⟩),
      set_next_calls_walk calls ordered (fun _ _ => Or.inl rfl)]
    simp only [inMode, stepsAhead, Option.map_some, ← single]

def threeSongs : MusicList where
  list := [untitledSong 1, untitledSong 2, untitledSong 3]
  maxIndex := -1
  currentIndex := 2
  mode := .order
  freeData := true

theorem navigation_law_three_songs : NavigationLaw threeSongs :=
  navigation_law threeSongs ⟨by decide, by decide⟩

end Gk7102.MusicQueueNavigation
