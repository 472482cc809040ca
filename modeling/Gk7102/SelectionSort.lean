import Mathlib.Data.List.Perm.Basic

/-!
# Selection sort by a comparison function

A C-style comparison returns a positive number when its first argument comes later.
The scan keeps the leftmost least element; sorting moves it out until nothing is
left. Nothing is assumed of the comparison up to `selection_sort_perm`; when it is
a total preorder the result is ordered, and tied elements keep their order.
-/

namespace Gk7102.SelectionSort

set_option autoImplicit false

variable {α β : Type*}

/-- `least` was met at `best`, and the scan goes on at position `here`. -/
def minIndexFrom (compare : α → α → Int) : α → Nat → Nat → List α → Nat
  | _, best, _, [] => best
  | least, best, here, item :: rest =>
      if compare least item > 0 then minIndexFrom compare item here (here + 1) rest
      else minIndexFrom compare least best (here + 1) rest

def minIndex (compare : α → α → Int) : List α → Nat
  | [] => 0
  | first :: rest => minIndexFrom compare first 0 0 (first :: rest)

theorem min_index_from_lt (compare : α → α → Int) {least : α} {best here bound : Nat}
    {rest : List α} (before : best < bound) (reach : here + rest.length ≤ bound) :
    minIndexFrom compare least best here rest < bound := by
  induction rest generalizing least best here with
  | nil => exact before
  | cons item others ih =>
      rw [List.length_cons] at reach
      rw [minIndexFrom]
      split
      · exact ih (by omega) (by omega)
      · exact ih before (by omega)

theorem min_index_lt (compare : α → α → Int) (first : α) (rest : List α) :
    minIndex compare (first :: rest) < (first :: rest).length :=
  min_index_from_lt compare (Nat.succ_pos _) (Nat.le_of_eq (Nat.zero_add _))

def selectionSort (compare : α → α → Int) : List α → List α
  | [] => []
  | first :: rest =>
      (first :: rest).get ⟨minIndex compare (first :: rest), min_index_lt compare first rest⟩ ::
        selectionSort compare ((first :: rest).eraseIdx (minIndex compare (first :: rest)))
termination_by items => items.length
decreasing_by
  rw [List.length_eraseIdx_of_lt (min_index_lt compare first rest)]
  exact Nat.lt_succ_self _

theorem selection_sort_nil (compare : α → α → Int) : selectionSort compare [] = [] := by
  rw [selectionSort]

theorem selection_sort_step (compare : α → α → Int) {items : List α}
    (within : minIndex compare items < items.length) :
    selectionSort compare items =
      items[minIndex compare items] ::
        selectionSort compare (items.eraseIdx (minIndex compare items)) := by
  cases items with
  | nil => exact absurd within (Nat.not_lt_zero _)
  | cons first rest =>
      rw [selectionSort]
      rfl

theorem min_index_within (compare : α → α → Int) {items : List α} (nonempty : items ≠ []) :
    minIndex compare items < items.length := by
  cases items with
  | nil => exact absurd rfl nonempty
  | cons first rest => exact min_index_lt compare first rest

/-- Every list is empty or loses its least element to a shorter one. -/
theorem selection_induction (compare : α → α → Int) {motive : List α → Prop}
    (empty : motive [])
    (step : ∀ items, minIndex compare items < items.length →
      motive (items.eraseIdx (minIndex compare items)) → motive items)
    (items : List α) : motive items := by
  induction counted : items.length generalizing items with
  | zero =>
      rw [List.length_eq_zero_iff.mp counted]
      exact empty
  | succ count ih =>
      have nonempty : items ≠ [] := by
        rintro rfl
        exact absurd counted (by simp)
      have within := min_index_within compare nonempty
      apply step items within
      apply ih
      rw [List.length_eraseIdx_of_lt within, counted, Nat.succ_sub_one]

theorem selection_sort_perm (compare : α → α → Int) (items : List α) :
    (selectionSort compare items).Perm items := by
  induction items using selection_induction compare with
  | empty => rw [selection_sort_nil]
  | step items within ih =>
      rw [selection_sort_step compare within]
      exact (ih.cons _).trans (List.getElem_cons_eraseIdx_perm within)

section Mapped

variable (compare : β → β → Int) (view : α → β)

theorem min_index_from_map {least : α} {best here : Nat} (rest : List α) :
    minIndexFrom compare (view least) best here (rest.map view) =
      minIndexFrom (fun a b => compare (view a) (view b)) least best here rest := by
  induction rest generalizing least best here with
  | nil => rfl
  | cons item others ih =>
      rw [List.map_cons, minIndexFrom, minIndexFrom, ih, ih]

theorem min_index_map (items : List α) :
    minIndex compare (items.map view) =
      minIndex (fun a b => compare (view a) (view b)) items := by
  cases items with
  | nil => rfl
  | cons first rest => exact min_index_from_map compare view (first :: rest)

theorem selection_sort_map (items : List α) :
    (selectionSort (fun a b => compare (view a) (view b)) items).map view =
      selectionSort compare (items.map view) := by
  induction items using selection_induction (fun a b => compare (view a) (view b)) with
  | empty => rw [selection_sort_nil, List.map_nil, selection_sort_nil]
  | step items within ih =>
      have mapped : minIndex compare (items.map view) < (items.map view).length := by
        rw [min_index_map, List.length_map]
        exact within
      rw [selection_sort_step _ within, selection_sort_step _ mapped, List.map_cons, ih,
        List.getElem_map, List.eraseIdx_map]
      simp only [min_index_map]

end Mapped

section Ordered

/-- A comparison that is a total preorder. -/
structure Consistent (compare : α → α → Int) : Prop where
  total : ∀ a b, compare a b > 0 → compare b a ≤ 0
  trans : ∀ a b c, compare a b ≤ 0 → compare b c ≤ 0 → compare a c ≤ 0

/-- No element comes before the one at this position, and those to its left come after it. -/
structure LeftmostLeast (compare : α → α → Int) (items : List α) (least : α) (best : Nat) :
    Prop where
  smallest : ∀ item ∈ items, compare least item ≤ 0
  leftmost : ∀ item ∈ items.take best, compare item least > 0

variable {compare : α → α → Int}

theorem compare_self (consistent : Consistent compare) (item : α) : compare item item ≤ 0 := by
  by_contra above
  exact above (consistent.total item item (Int.lt_of_not_ge above))

theorem leftmost_least_step (consistent : Consistent compare) {front : List α} {least item : α}
    {best : Nat} (found : LeftmostLeast compare front least best) (within : best ≤ front.length) :
    if compare least item > 0 then LeftmostLeast compare (front ++ [item]) item front.length
    else LeftmostLeast compare (front ++ [item]) least best := by
  split
  · rename_i smaller
    have below := consistent.total least item smaller
    constructor
    · intro other member
      rcases List.mem_append.mp member with inFront | isItem
      · exact consistent.trans item least other below (found.smallest other inFront)
      · rw [List.mem_singleton.mp isItem]
        exact compare_self consistent item
    · intro other member
      rw [List.take_left] at member
      by_contra notAfter
      have step := consistent.trans least other item (found.smallest other member)
        (Int.le_of_not_gt notAfter)
      omega
  · rename_i notSmaller
    constructor
    · intro other member
      rcases List.mem_append.mp member with inFront | isItem
      · exact found.smallest other inFront
      · rw [List.mem_singleton.mp isItem]
        exact Int.le_of_not_gt notSmaller
    · intro other member
      rw [List.take_append_of_le_length within] at member
      exact found.leftmost other member

theorem min_index_from_leftmost (consistent : Consistent compare) {front rest : List α}
    {least : α} {best : Nat} (at_best : front[best]? = some least)
    (found : LeftmostLeast compare front least best) :
    ∃ result, (front ++ rest)[minIndexFrom compare least best front.length rest]? = some result ∧
      LeftmostLeast compare (front ++ rest) result
        (minIndexFrom compare least best front.length rest) := by
  induction rest generalizing front least best with
  | nil =>
      rw [List.append_nil]
      exact ⟨least, at_best, found⟩
  | cons item others ih =>
      have within : best < front.length := (List.getElem?_eq_some_iff.mp at_best).1
      have step := @leftmost_least_step _ _ consistent _ _ item _ found (Nat.le_of_lt within)
      rw [List.append_cons, minIndexFrom]
      split
      · rename_i smaller
        rw [if_pos smaller] at step
        have next := ih (List.getElem?_concat_length) step
        rw [List.length_append, List.length_singleton] at next
        exact next
      · rename_i notSmaller
        rw [if_neg notSmaller] at step
        have stillThere : (front ++ [item])[best]? = some least := by
          rw [List.getElem?_append_left within]
          exact at_best
        have next := ih stillThere step
        rw [List.length_append, List.length_singleton] at next
        exact next

theorem min_index_leftmost (consistent : Consistent compare) {items : List α}
    (within : minIndex compare items < items.length) :
    LeftmostLeast compare items items[minIndex compare items] (minIndex compare items) := by
  cases items with
  | nil => exact absurd within (Nat.not_lt_zero _)
  | cons first rest =>
      have notSmaller : ¬ compare first first > 0 :=
        Int.not_lt.mpr (compare_self consistent first)
      have start : LeftmostLeast compare [first] first 0 := by
        constructor
        · intro item member
          rw [List.mem_singleton.mp member]
          exact compare_self consistent first
        · intro item member
          exact absurd member List.not_mem_nil
      have unfolded : minIndex compare (first :: rest) =
          minIndexFrom compare first 0 [first].length rest := by
        rw [minIndex, minIndexFrom, if_neg notSmaller]
        rfl
      rcases @min_index_from_leftmost _ _ consistent [first] rest first 0 rfl start with
        ⟨result, at_result, found⟩
      rw [← unfolded, List.singleton_append] at at_result found
      rw [(List.getElem?_eq_some_iff.mp at_result).2]
      exact found

theorem selection_sort_ordered (consistent : Consistent compare) (items : List α) :
    (selectionSort compare items).Pairwise fun before after => compare before after ≤ 0 := by
  induction items using selection_induction compare with
  | empty =>
      rw [selection_sort_nil]
      exact List.Pairwise.nil
  | step items within ih =>
      rw [selection_sort_step compare within]
      apply List.Pairwise.cons _ ih
      intro item member
      apply (min_index_leftmost consistent within).smallest
      exact List.mem_of_mem_eraseIdx ((selection_sort_perm compare _).mem_iff.mp member)

def tied (compare : α → α → Int) (one other : α) : Bool :=
  compare one other ≤ 0 && compare other one ≤ 0

/-- Elements that tie come out in the order they went in. -/
theorem selection_sort_stable (consistent : Consistent compare) (one : α) (items : List α) :
    (selectionSort compare items).filter (tied compare one) =
      items.filter (tied compare one) := by
  induction items using selection_induction compare with
  | empty => rw [selection_sort_nil]
  | step items within ih =>
      have found := min_index_leftmost consistent within
      have split : items = items.take (minIndex compare items) ++
          items[minIndex compare items] :: items.drop (minIndex compare items + 1) := by
        rw [List.getElem_cons_drop, List.take_append_drop]
      rw [selection_sort_step compare within, List.filter_cons, ih,
        List.eraseIdx_eq_take_drop_succ, List.filter_append]
      conv_rhs => rw [split, List.filter_append, List.filter_cons]
      by_cases same : tied compare one items[minIndex compare items] = true
      · rw [if_pos same, if_pos same]
        have nothing : (items.take (minIndex compare items)).filter (tied compare one) = [] := by
          apply List.filter_eq_nil_iff.mpr
          intro item member tie
          have later := found.leftmost item member
          simp only [tied, Bool.and_eq_true, decide_eq_true_eq] at tie same
          have below := consistent.trans item one _ tie.2 same.1
          omega
        rw [nothing, List.nil_append, List.nil_append]
      · rw [if_neg same, if_neg same]

end Ordered

end Gk7102.SelectionSort
