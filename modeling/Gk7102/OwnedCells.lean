import Mathlib.Data.List.Basic
import Mathlib.Logic.Function.Basic

/-!
# Cells that own heap strings

A record of C pointers and integers, as cells that hold one word each. A string
word is a pointer that `strdup` returned and that no other cell holds. Freeing
it leaves a dangling pointer until the cell is stored to. A word outside the
record, a dangling pointer and an integer that is not NULL must never be freed,
and a string must be freed before its cell is stored to.
-/

namespace Gk7102.OwnedCells

set_option autoImplicit false

inductive Word where
  | int (value : Int)
  | string (text : String)
  | dangling
  | outside
deriving DecidableEq, Repr

def Word.null : Word := .int 0

def Word.isString : Word → Bool
  | .string _ => true
  | _ => false

/-- NULL or a string that is still allocated. -/
def Word.freeable (word : Word) : Bool := word == .null || word.isString

inductive Op (Cell : Type*) where
  | free (cell : Cell)
  | store (cell : Cell) (word : Word)
deriving DecidableEq, Repr

variable {Cell : Type*} [DecidableEq Cell]

/-- Freeing anything but NULL or a string has no result. -/
def execute (memory : Cell → Word) : Op Cell → Option (Cell → Word)
  | .free cell =>
      match memory cell with
      | .int value => if value = 0 then some memory else none
      | .string _ => some (Function.update memory cell .dangling)
      | .dangling => none
      | .outside => none
  | .store cell word => some (Function.update memory cell word)

def executeAll (memory : Cell → Word) : List (Op Cell) → Option (Cell → Word)
  | [] => some memory
  | op :: rest => (execute memory op).bind fun next => executeAll next rest

/-- What is freed may be freed, and what is stored to owns no string. -/
def Proper (memory : Cell → Word) : Op Cell → Prop
  | .free cell => (memory cell).freeable
  | .store cell _ => (memory cell).isString = false

def Disciplined (memory : Cell → Word) : List (Op Cell) → Prop
  | [] => True
  | op :: rest =>
      Proper memory op ∧ ∀ next, execute memory op = some next → Disciplined next rest

def release (cells : List Cell) : List (Op Cell) :=
  cells.flatMap fun cell => [.free cell, .store cell .null]

section Laws

variable {memory : Cell → Word}

theorem freeable_null : Word.null.freeable = true := rfl

theorem freeable_cases {word : Word} (freeable : word.freeable = true) :
    word = .null ∨ ∃ text, word = .string text := by
  cases word with
  | int value =>
      simp only [Word.freeable, Word.isString, Bool.or_false, beq_iff_eq] at freeable
      exact Or.inl freeable
  | string text => exact Or.inr ⟨text, rfl⟩
  | dangling => exact absurd freeable (by decide)
  | outside => exact absurd freeable (by decide)

theorem execute_free_defined {cell : Cell} :
    (execute memory (.free cell)).isSome ↔ (memory cell).freeable := by
  simp only [execute]
  cases memory cell with
  | int value =>
      by_cases null : value = 0
      · simp [null, Word.freeable, Word.null]
      · simp [null, Word.freeable, Word.null, Word.isString]
  | string text => simp [Word.freeable, Word.isString]
  | dangling => simp [Word.freeable, Word.isString, Word.null]
  | outside => simp [Word.freeable, Word.isString, Word.null]

theorem execute_all_append (before after : List (Op Cell)) :
    executeAll memory (before ++ after) =
      (executeAll memory before).bind fun next => executeAll next after := by
  induction before generalizing memory with
  | nil => rfl
  | cons op before ih =>
      rw [List.cons_append, executeAll, executeAll]
      cases execute memory op with
      | none => rfl
      | some next => exact ih

theorem disciplined_append (before after : List (Op Cell)) :
    Disciplined memory (before ++ after) ↔
      Disciplined memory before ∧
        ∀ next, executeAll memory before = some next → Disciplined next after := by
  induction before generalizing memory with
  | nil => simp [Disciplined, executeAll]
  | cons op before ih =>
      simp only [List.cons_append, Disciplined, executeAll]
      cases executed : execute memory op with
      | none => simp
      | some next => simp [ih, and_assoc]

/-- A log without a proper free has no result, so only proper ones run. -/
theorem disciplined_runs {ops : List (Op Cell)} (disciplined : Disciplined memory ops) :
    (executeAll memory ops).isSome := by
  induction ops generalizing memory with
  | nil => rfl
  | cons op rest ih =>
      obtain ⟨proper, later⟩ := disciplined
      have defined : (execute memory op).isSome := by
        cases op with
        | free cell => exact execute_free_defined.mpr proper
        | store cell word => rfl
      obtain ⟨next, executed⟩ := Option.isSome_iff_exists.mp defined
      rw [executeAll, executed]
      exact ih (later next executed)

/-! ## Releasing cells -/

def released (memory : Cell → Word) (cells : List Cell) : Cell → Word := fun cell =>
  if cell ∈ cells then .null else memory cell

theorem released_append (before after : List Cell) :
    released (released memory before) after = released memory (before ++ after) := by
  funext cell
  simp only [released, List.mem_append]
  by_cases late : cell ∈ after
  · simp [late]
  · simp [late]

theorem released_one (cell : Cell) :
    Function.update memory cell .null = released memory [cell] := by
  funext other
  by_cases same : other = cell
  · simp [released, same]
  · simp [released, same]

theorem released_of_null {cell : Cell} (null : memory cell = .null) :
    released memory [cell] = memory := by
  funext other
  simp only [released, List.mem_singleton]
  split
  · rename_i same
    rw [same, null]
  · rfl

theorem execute_release_one {cell : Cell} (freeable : (memory cell).freeable = true) :
    executeAll memory [.free cell, .store cell .null] =
      some (Function.update memory cell .null) := by
  rcases freeable_cases freeable with null | ⟨text, owned⟩
  · simp [executeAll, execute, null, Word.null]
  · simp [executeAll, execute, owned]

theorem released_cons (cell : Cell) (cells : List Cell) :
    released (Function.update memory cell .null) cells = released memory (cell :: cells) := by
  funext other
  simp only [released, List.mem_cons]
  by_cases same : other = cell
  · simp [same]
  · simp [same]

theorem freeable_cons (cell : Cell) (cells : List Cell) :
    (∀ other ∈ cell :: cells, (memory other).freeable = true) ↔
      (memory cell).freeable = true ∧
        ∀ other ∈ cells, (Function.update memory cell .null other).freeable = true := by
  constructor
  · intro freeable
    refine ⟨freeable cell (by simp), ?_⟩
    intro other inside
    by_cases same : other = cell
    · rw [same, Function.update_self]
      exact freeable_null
    · rw [Function.update_of_ne same]
      exact freeable other (List.mem_cons_of_mem cell inside)
  · rintro ⟨first, later⟩ other inside
    by_cases same : other = cell
    · rw [same]
      exact first
    · have behind := later other ((List.mem_cons.mp inside).resolve_left same)
      rwa [Function.update_of_ne same] at behind

omit [DecidableEq Cell] in
theorem release_cons (cell : Cell) (cells : List Cell) :
    release (cell :: cells) = [.free cell, .store cell .null] ++ release cells := by
  simp [release]

theorem execute_release {cells : List Cell}
    (freeable : ∀ cell ∈ cells, (memory cell).freeable = true) :
    executeAll memory (release cells) = some (released memory cells) := by
  induction cells generalizing memory with
  | nil =>
      simp only [release, List.flatMap_nil, executeAll, Option.some.injEq]
      funext cell
      simp [released]
  | cons cell cells ih =>
      have ⟨first, later⟩ := (freeable_cons cell cells).mp freeable
      rw [release_cons, execute_all_append, execute_release_one first, Option.bind_some,
        ih later, released_cons]

theorem release_defined {cells : List Cell} :
    (executeAll memory (release cells)).isSome ↔ ∀ cell ∈ cells, (memory cell).freeable = true := by
  constructor
  · intro defined
    induction cells generalizing memory with
    | nil => simp
    | cons cell cells ih =>
        rw [release_cons, execute_all_append] at defined
        have first : (memory cell).freeable = true := by
          rw [← execute_free_defined]
          cases executed : execute memory (.free cell) with
          | none => simp [executeAll, executed] at defined
          | some next => rfl
        rw [execute_release_one first, Option.bind_some] at defined
        exact (freeable_cons cell cells).mpr ⟨first, ih defined⟩
  · intro freeable
    rw [execute_release freeable]
    rfl

theorem disciplined_release_one {cell : Cell} :
    Disciplined memory [.free cell, .store cell .null] ↔ (memory cell).freeable = true := by
  constructor
  · exact fun disciplined => disciplined.1
  · intro freeable
    refine ⟨freeable, ?_⟩
    intro next executed
    refine ⟨?_, fun _ _ => trivial⟩
    rcases freeable_cases freeable with null | ⟨text, owned⟩
    · simp only [execute, null, Word.null, if_true, Option.some.injEq] at executed
      simp [Proper, ← executed, null, Word.null, Word.isString]
    · simp only [execute, owned, Option.some.injEq] at executed
      simp [Proper, ← executed, Word.isString]

theorem disciplined_release {cells : List Cell} :
    Disciplined memory (release cells) ↔ ∀ cell ∈ cells, (memory cell).freeable = true := by
  induction cells generalizing memory with
  | nil => simp [release, Disciplined]
  | cons cell cells ih =>
      rw [release_cons, disciplined_append, disciplined_release_one, freeable_cons]
      constructor
      · rintro ⟨first, later⟩
        exact ⟨first, ih.mp (later _ (execute_release_one first))⟩
      · rintro ⟨first, later⟩
        refine ⟨first, ?_⟩
        intro next executed
        rw [execute_release_one first, Option.some.injEq] at executed
        rw [← executed]
        exact ih.mpr later

/-- The log runs to this memory and keeps the discipline. -/
structure Runs (memory : Cell → Word) (ops : List (Op Cell)) (next : Cell → Word) : Prop where
  result : executeAll memory ops = some next
  disciplined : Disciplined memory ops

theorem runs_nil : Runs memory [] memory := ⟨rfl, trivial⟩

theorem runs_append {before after : List (Op Cell)} {middle next : Cell → Word}
    (first : Runs memory before middle) (later : Runs middle after next) :
    Runs memory (before ++ after) next := by
  constructor
  · rw [execute_all_append, first.result, Option.bind_some, later.result]
  · rw [disciplined_append]
    refine ⟨first.disciplined, ?_⟩
    intro other executed
    rw [first.result, Option.some.injEq] at executed
    rw [← executed]
    exact later.disciplined

theorem runs_release {cells : List Cell}
    (freeable : ∀ cell ∈ cells, (memory cell).freeable = true) :
    Runs memory (release cells) (released memory cells) :=
  ⟨execute_release freeable, disciplined_release.mpr freeable⟩

/-! ## Storing to cells -/

def storeAll (stores : List (Cell × Word)) : List (Op Cell) :=
  stores.map fun target => .store target.1 target.2

def valuesAt (cell : Cell) (stores : List (Cell × Word)) : List Word :=
  (stores.filter fun target => target.1 = cell).map Prod.snd

def stored (memory : Cell → Word) (stores : List (Cell × Word)) : Cell → Word := fun cell =>
  (valuesAt cell stores).getLast?.getD (memory cell)

@[simp] theorem values_at_nil (cell : Cell) : valuesAt cell [] = [] := rfl

theorem values_at_self (cell : Cell) (word : Word) (stores : List (Cell × Word)) :
    valuesAt cell ((cell, word) :: stores) = word :: valuesAt cell stores := by
  simp [valuesAt]

theorem values_at_other {cell target : Cell} (distinct : cell ≠ target) (word : Word)
    (stores : List (Cell × Word)) :
    valuesAt cell ((target, word) :: stores) = valuesAt cell stores := by
  simp [valuesAt, distinct.symm]

theorem values_at_append (cell : Cell) (before after : List (Cell × Word)) :
    valuesAt cell (before ++ after) = valuesAt cell before ++ valuesAt cell after := by
  simp [valuesAt]

theorem stored_cons (cell : Cell) (word : Word) (stores : List (Cell × Word)) :
    stored (Function.update memory cell word) stores = stored memory ((cell, word) :: stores) := by
  funext other
  by_cases same : other = cell
  · subst same
    rw [stored, stored, values_at_self, Function.update_self, List.getLast?_cons,
      Option.getD_some]
  · rw [stored, stored, values_at_other same, Function.update_of_ne same]

theorem execute_stores (stores : List (Cell × Word)) :
    executeAll memory (storeAll stores) = some (stored memory stores) := by
  induction stores generalizing memory with
  | nil => rfl
  | cons first stores ih =>
      obtain ⟨target, word⟩ := first
      change executeAll (Function.update memory target word) (storeAll stores) = _
      rw [ih, stored_cons]

theorem stored_agree_iff {other : Cell → Word} (stores : List (Cell × Word)) (cell : Cell) :
    stored memory stores cell = stored other stores cell ↔
      valuesAt cell stores ≠ [] ∨ memory cell = other cell := by
  simp only [stored]
  cases values : valuesAt cell stores with
  | nil => simp
  | cons word words => simp [List.getLast?_cons]

/-- What the stores overwrite in a cell is all it ever held but the last. -/
theorem disciplined_stores (stores : List (Cell × Word)) :
    Disciplined memory (storeAll stores) ↔
      ∀ cell, ∀ word ∈ (memory cell :: valuesAt cell stores).dropLast, word.isString = false := by
  induction stores generalizing memory with
  | nil => simp [storeAll, Disciplined, valuesAt]
  | cons first stores ih =>
      obtain ⟨target, word⟩ := first
      have split : Disciplined memory (storeAll ((target, word) :: stores)) ↔
          (memory target).isString = false ∧
            Disciplined (Function.update memory target word) (storeAll stores) := by
        simp [storeAll, Disciplined, Proper, execute]
      rw [split, ih]
      constructor
      · rintro ⟨here, later⟩ cell old inside
        have rest := later cell
        by_cases same : cell = target
        · subst same
          rw [values_at_self, List.dropLast_cons_cons] at inside
          rw [Function.update_self] at rest
          rcases List.mem_cons.mp inside with first | behind
          · rw [first]
            exact here
          · exact rest old behind
        · rw [values_at_other same] at inside
          rw [Function.update_of_ne same] at rest
          exact rest old inside
      · intro all
        constructor
        · apply all target
          rw [values_at_self, List.dropLast_cons_cons]
          exact List.mem_cons_self
        · intro cell old inside
          apply all cell
          by_cases same : cell = target
          · subst same
            rw [Function.update_self] at inside
            rw [values_at_self, List.dropLast_cons_cons]
            exact List.mem_cons_of_mem _ inside
          · rw [Function.update_of_ne same] at inside
            rw [values_at_other same]
            exact inside

end Laws

end Gk7102.OwnedCells
