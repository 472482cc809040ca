import Mathlib.Data.List.Basic
import Mathlib.Data.List.GetD
import Mathlib.Data.List.Range

/-!
# Counted loops over a block of memory

A counted loop runs its body for 0, 1 and so on. Loops over rows and columns are one loop
over the items in their order, and a loop that writes its items in order leaves them in
front of what it has not reached, so a body may read there in place.
-/

namespace Gk7102.RasterLoops

set_option autoImplicit false

variable {State Item : Type*}

def loop (body : Nat → State → State) : Nat → State → State
  | 0, state => state
  | count + 1, state => body count (loop body count state)

section Loops

theorem loop_congr {body other : Nat → State → State} {count : Nat}
    (same : ∀ i < count, ∀ state, body i state = other i state) (state : State) :
    loop body count state = loop other count state := by
  induction count with
  | zero => rfl
  | succ count ih =>
      rw [loop, loop, ih fun i below => same i (Nat.lt_succ_of_lt below),
        same count (Nat.lt_succ_self count)]

theorem loop_add (body : Nat → State → State) (first second : Nat) (state : State) :
    loop body (first + second) state =
      loop (fun i => body (first + i)) second (loop body first state) := by
  induction second with
  | zero => rfl
  | succ second ih => rw [← Nat.add_assoc, loop, ih, loop]

theorem loop_rows {body : Nat → Nat → State → State} (step : Nat → State → State)
    {columns : Nat} (same : ∀ row, ∀ column < columns, ∀ state,
      body row column state = step (row * columns + column) state)
    (rows : Nat) (state : State) :
    loop (fun row => loop (body row) columns) rows state = loop step (rows * columns) state := by
  induction rows with
  | zero => rw [Nat.zero_mul, loop, loop]
  | succ rows ih =>
      rw [loop, ih, Nat.succ_mul, loop_add]
      exact loop_congr (same rows) _

theorem loop_counted {body : Nat → State × Nat → State × Nat} (step : Nat → State → State)
    (same : ∀ i state, body i (state, i) = (step i state, i + 1)) (count : Nat) (state : State) :
    loop body count (state, 0) = (loop step count state, count) := by
  induction count with
  | zero => rfl
  | succ count ih => rw [loop, ih, same, loop]

theorem loop_writes (value : Nat → List Item → Item) (written : Nat → Item) {memory : List Item}
    {count : Nat} (room : count ≤ memory.length)
    (reads : ∀ i < count,
      value i ((List.range i).map written ++ memory.drop i) = written i) :
    loop (fun i block => block.set i (value i block)) count memory =
      (List.range count).map written ++ memory.drop count := by
  induction count with
  | zero => rfl
  | succ count ih =>
      have here : count < memory.length := room
      rw [loop, ih (Nat.le_of_lt here) fun i below => reads i (Nat.lt_succ_of_lt below),
        reads count (Nat.lt_succ_self count), List.range_succ, List.map_append,
        List.set_append_right _ _ (by simp), List.length_map, List.length_range, Nat.sub_self,
        List.drop_eq_getElem_cons here, List.set_cons_zero]
      simp only [List.map_cons, List.map_nil, List.append_assoc, List.singleton_append]

theorem loop_counts (holds : Nat → Bool) (count start : Nat) :
    loop (fun i total => if holds i then total + 1 else total) count start =
      start + (List.range count).countP holds := by
  induction count with
  | zero => rfl
  | succ count ih =>
      rw [loop, ih, List.range_succ, List.countP_append, List.countP_singleton]
      split <;> omega

theorem unwritten_getd (written : Nat → Item) (memory : List Item) (blank : Item) {reached i : Nat}
    (ahead : reached ≤ i) :
    ((List.range reached).map written ++ memory.drop reached).getD i blank =
      memory.getD i blank := by
  have length : ((List.range reached).map written).length ≤ i := by simpa using ahead
  rw [List.getD_append_right _ _ _ _ length, List.length_map, List.length_range,
    List.getD_eq_getElem?_getD, List.getElem?_drop, List.getD_eq_getElem?_getD]
  congr 2
  omega

theorem written_getd (written : Nat → Item) (rest : List Item) (blank : Item) {count i : Nat}
    (inside : i < count) :
    ((List.range count).map written ++ rest).getD i blank = written i := by
  have length : i < ((List.range count).map written).length := by simpa using inside
  rw [List.getD_append _ _ _ _ length, List.getD_eq_getElem _ _ length]
  simp

end Loops

/-! ## Items by row and column -/

def places (rows columns : Nat) : List (Nat × Nat) :=
  (List.range (rows * columns)).map fun i => (i / columns, i % columns)

theorem place_row {columns row column : Nat} (inside : column < columns) :
    (row * columns + column) / columns = row := by
  rw [Nat.mul_comm, Nat.mul_add_div (by omega), Nat.div_eq_of_lt inside, Nat.add_zero]

theorem place_column {columns row column : Nat} (inside : column < columns) :
    (row * columns + column) % columns = column := by
  rw [Nat.mul_comm, Nat.mul_add_mod, Nat.mod_eq_of_lt inside]

theorem place_lt {rows columns row column : Nat} (above : row < rows) (inside : column < columns) :
    row * columns + column < rows * columns := by
  have whole : (row + 1) * columns ≤ rows * columns := Nat.mul_le_mul_right _ above
  rw [Nat.succ_mul] at whole
  omega

theorem mem_places {rows columns row column : Nat} :
    (row, column) ∈ places rows columns ↔ row < rows ∧ column < columns := by
  unfold places
  rw [List.mem_map]
  constructor
  · rintro ⟨i, inside, same⟩
    obtain ⟨rfl, rfl⟩ := Prod.mk.inj same
    have below := List.mem_range.mp inside
    have positive : 0 < columns := by
      rcases Nat.eq_zero_or_pos columns with rfl | positive
      · simp at below
      · exact positive
    exact ⟨Nat.div_lt_of_lt_mul (by rwa [Nat.mul_comm]), Nat.mod_lt _ positive⟩
  · rintro ⟨above, inside⟩
    exact ⟨row * columns + column, List.mem_range.mpr (place_lt above inside),
      by rw [place_row inside, place_column inside]⟩

theorem loop_raster (value : Nat → Nat → Item) {memory : List Item} {rows columns : Nat}
    (room : rows * columns ≤ memory.length) :
    loop (fun row => loop (fun column block => block.set (row * columns + column)
        (value row column)) columns) rows memory =
      (List.range (rows * columns)).map (fun i => value (i / columns) (i % columns)) ++
        memory.drop (rows * columns) := by
  rw [loop_rows fun i block => block.set i (value (i / columns) (i % columns))]
  · exact loop_writes (fun i _ => value (i / columns) (i % columns)) _ room fun _ _ => rfl
  · intro row column inside block
    simp only [place_row inside, place_column inside]

/-- Of two conditions, one of which implies the other, as many items meet the one as the other
exactly when no item parts them. -/
theorem count_eq_iff_of_implies {first second : Item → Bool} (items : List Item)
    (implies : ∀ item ∈ items, first item = true → second item = true) :
    items.countP first = items.countP second ↔
      ∀ item ∈ items, second item = true → first item = true := by
  induction items with
  | nil => simp
  | cons item rest ih =>
      have here := implies item List.mem_cons_self
      have later := ih fun other inside => implies other (List.mem_cons_of_mem _ inside)
      have fewer : rest.countP first ≤ rest.countP second :=
        List.countP_mono_left fun other inside => implies other (List.mem_cons_of_mem _ inside)
      rw [List.forall_mem_cons, ← later, List.countP_cons, List.countP_cons]
      cases one : first item with
      | true =>
          have two := here one
          simp only [two, if_true, Nat.add_right_cancel_iff, forall_const, true_and]
      | false =>
          cases two : second item with
          | true =>
              simp only [Bool.false_eq_true, if_false, if_true, imp_false, not_true, false_and]
              exact iff_of_false (by omega) id
          | false =>
              simp only [Bool.false_eq_true, if_false, Nat.add_zero, IsEmpty.forall_iff, true_and]

end Gk7102.RasterLoops
