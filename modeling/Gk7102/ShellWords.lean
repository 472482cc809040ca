import Mathlib.Data.List.Basic

/-!
# The words of one shell command

The quoting rules of the POSIX shell for a text that holds a single simple
command. A scanner reads the characters one by one; it refuses operators and
every expansion, so a text it accepts is run with exactly the words it finds.
The words are not looked at: reserved words, aliases and assignments are left to
the reader of the result.
-/

namespace Gk7102.ShellWords

set_option autoImplicit false

abbrev Word := List Char

inductive Mode where
  | unquoted
  | escaped
  | single
  | double
  | doubleEscaped
  | comment
  | finished
deriving DecidableEq, Repr

/-- `current` is the word being read; it is there, though empty, once a quote
has been opened. -/
structure Scanner where
  mode : Mode
  current : Option Word
  words : List Word
deriving DecidableEq, Repr

namespace Scanner

def start : Scanner := ⟨.unquoted, none, []⟩

def openWord (scanner : Scanner) (mode : Mode) : Scanner :=
  { scanner with mode := mode, current := some (scanner.current.getD []) }

def push (scanner : Scanner) (mode : Mode) (char : Char) : Scanner :=
  { scanner with mode := mode, current := some (scanner.current.getD [] ++ [char]) }

def closeWord (scanner : Scanner) (mode : Mode) : Scanner :=
  ⟨mode, none, scanner.words ++ scanner.current.toList⟩

/-- Only blank lines and comments may follow the line that holds the command. -/
def endLine (scanner : Scanner) : Scanner :=
  let closed := scanner.closeWord .finished
  if closed.words = [] then { closed with mode := .unquoted } else closed

end Scanner

def operators : List Char := "&|;<>()".toList

def expansions : List Char := "$`".toList

def patterns : List Char := "*?[".toList

def blanks : List Char := " \t".toList

def stepUnquoted (scanner : Scanner) (char : Char) : Option Scanner :=
  if char = '\'' then some (scanner.openWord .single)
  else if char = '"' then some (scanner.openWord .double)
  else if char = '\\' then some { scanner with mode := .escaped }
  else if char ∈ blanks then some (scanner.closeWord .unquoted)
  else if char = '\n' then some scanner.endLine
  else if char ∈ operators ++ expansions ++ patterns then none
  else if scanner.current = none ∧ char = '#' then some { scanner with mode := .comment }
  else if scanner.current = none ∧ char = '~' then none
  else some (scanner.push .unquoted char)

def step (scanner : Scanner) (char : Char) : Option Scanner :=
  match scanner.mode with
  | .unquoted => stepUnquoted scanner char
  | .escaped =>
      if char = '\n' then some { scanner with mode := .unquoted }
      else some (scanner.push .unquoted char)
  | .single =>
      if char = '\'' then some { scanner with mode := .unquoted }
      else some (scanner.push .single char)
  | .double =>
      if char = '"' then some { scanner with mode := .unquoted }
      else if char = '\\' then some { scanner with mode := .doubleEscaped }
      else if char ∈ expansions then none
      else some (scanner.push .double char)
  | .doubleEscaped =>
      -- a backslash stays unless what follows is special between double quotes
      if char = '\n' then some { scanner with mode := .double }
      else if char = '"' ∨ char = '\\' ∨ char ∈ expansions then some (scanner.push .double char)
      else some ((scanner.push .double '\\').push .double char)
  | .comment => if char = '\n' then some scanner.endLine else some scanner
  | .finished =>
      if char = '\n' ∨ char ∈ blanks then some scanner
      else if char = '#' then some { scanner with mode := .comment }
      else none

def run (scanner : Scanner) (text : List Char) : Option Scanner := text.foldlM step scanner

/-- A text may not end inside a quote or after a backslash. -/
def finish (scanner : Scanner) : Option (List Word) :=
  match scanner.mode with
  | .unquoted | .comment | .finished => some (scanner.closeWord .finished).words
  | _ => none

def simpleCommand (text : List Char) : Option (List Word) :=
  (run .start text).bind finish

@[simp] theorem run_nil (scanner : Scanner) : run scanner [] = some scanner := rfl

@[simp] theorem run_cons (scanner : Scanner) (char : Char) (rest : List Char) :
    run scanner (char :: rest) = (step scanner char).bind fun next => run next rest := by
  rw [run, List.foldlM_cons]
  rfl

theorem run_append (scanner : Scanner) (first second : List Char) :
    run scanner (first ++ second) = (run scanner first).bind fun next => run next second := by
  rw [run, List.foldlM_append]
  rfl

namespace Scanner

/-- How many characters the words hold so far. -/
def size (scanner : Scanner) : Nat :=
  scanner.words.flatten.length + (scanner.current.getD []).length

@[simp] theorem size_mode (scanner : Scanner) (mode : Mode) :
    size { scanner with mode := mode } = scanner.size := rfl

@[simp] theorem size_open_word (scanner : Scanner) (mode : Mode) :
    (scanner.openWord mode).size = scanner.size := rfl

@[simp] theorem size_push (scanner : Scanner) (mode : Mode) (char : Char) :
    (scanner.push mode char).size = scanner.size + 1 := by
  simp only [size, push, Option.getD_some, List.length_append, List.length_singleton]
  omega

@[simp] theorem size_close_word (scanner : Scanner) (mode : Mode) :
    (scanner.closeWord mode).size = scanner.size := by
  cases reading : scanner.current with
  | none => simp [size, closeWord, reading]
  | some word => simp [size, closeWord, reading]

@[simp] theorem size_end_line (scanner : Scanner) : scanner.endLine.size = scanner.size := by
  rw [endLine]
  split
  · rw [size_mode, size_close_word]
  · rw [size_close_word]

@[simp] theorem mode_close_word (scanner : Scanner) (mode : Mode) :
    (scanner.closeWord mode).mode = mode := rfl

@[simp] theorem mode_push (scanner : Scanner) (mode : Mode) (char : Char) :
    (scanner.push mode char).mode = mode := rfl

@[simp] theorem mode_open_word (scanner : Scanner) (mode : Mode) :
    (scanner.openWord mode).mode = mode := rfl

end Scanner

/-- A backslash between double quotes may still turn out to be a character of
the word. -/
def Mode.pending (mode : Mode) : Nat := if mode = .doubleEscaped then 1 else 0

@[simp] theorem Mode.pending_double_escaped : Mode.doubleEscaped.pending = 1 := rfl

@[simp] theorem Mode.pending_other {mode : Mode} (other : mode ≠ .doubleEscaped) :
    mode.pending = 0 := if_neg other

@[simp] theorem Scanner.pending_end_line (scanner : Scanner) :
    scanner.endLine.mode.pending = 0 := by
  rw [Scanner.endLine]
  split
  · rfl
  · rfl

/-- The characters read so far that are, or may become, part of a word. -/
def Scanner.reach (scanner : Scanner) : Nat := scanner.size + scanner.mode.pending

section Reach

variable {scanner next final : Scanner} {char : Char} {text : List Char} {words : List Word}

/-- A character that leads out of the unquoted text is itself no part of a word. -/
theorem step_unquoted_reach (taken : stepUnquoted scanner char = some next)
    (plain : scanner.mode = .unquoted) :
    next.reach ≤ scanner.reach ∨
      next.mode = .unquoted ∧ next.reach = scanner.reach + 1 ∧ char ≠ '\'' := by
  unfold stepUnquoted at taken
  split_ifs at taken with quote double backslash blank newline special comment tilde
  case neg =>
    obtain rfl := Option.some.inj taken
    right
    exact ⟨rfl, by simp [Scanner.reach, plain], quote⟩
  all_goals
    obtain rfl := Option.some.inj taken
    left
    simp [Scanner.reach]

theorem step_reach (taken : step scanner char = some next) :
    next.reach ≤ scanner.reach + 1 := by
  unfold step at taken
  cases mode : scanner.mode with
  | unquoted =>
      simp only [mode] at taken
      have reached := step_unquoted_reach taken mode
      omega
  | escaped | single | double | comment | finished =>
      simp only [mode] at taken
      split_ifs at taken
      all_goals
        obtain rfl := Option.some.inj taken
        simp [Scanner.reach] <;> omega
  | doubleEscaped =>
      simp only [mode] at taken
      split_ifs at taken
      all_goals
        obtain rfl := Option.some.inj taken
        simp [Scanner.reach, mode] <;> omega

theorem run_reach (ran : run scanner text = some final) :
    final.reach ≤ scanner.reach + text.length := by
  induction text generalizing scanner with
  | nil =>
      obtain rfl := Option.some.inj ran
      omega
  | cons char rest ih =>
      rw [run_cons, Option.bind_eq_some_iff] at ran
      obtain ⟨next, taken, ran⟩ := ran
      have stepped := step_reach taken
      have continued := ih ran
      rw [List.length_cons]
      omega

/-- An unquoted text that meets a single quote yields fewer characters than it
has. -/
theorem run_quote_reach (plain : scanner.mode = .unquoted) (quote : '\'' ∈ text)
    (ran : run scanner text = some final) : final.reach < scanner.reach + text.length := by
  induction text generalizing scanner with
  | nil => cases quote
  | cons char rest ih =>
      rw [run_cons, Option.bind_eq_some_iff] at ran
      obtain ⟨next, taken, ran⟩ := ran
      rw [List.length_cons]
      have stepped : stepUnquoted scanner char = some next := by
        rw [step, plain] at taken
        exact taken
      cases step_unquoted_reach stepped plain with
      | inl lost =>
          have continued := run_reach ran
          omega
      | inr kept =>
          obtain ⟨plain, reached, other⟩ := kept
          have later : '\'' ∈ rest := (List.mem_cons.mp quote).resolve_left other.symm
          have continued := ih plain later ran
          omega

theorem finish_size (finished : finish scanner = some words) :
    words.flatten.length = scanner.size := by
  have closed : words = (scanner.closeWord .finished).words := by
    unfold finish at finished
    split at finished
    · exact (Option.some.inj finished).symm
    · exact (Option.some.inj finished).symm
    · exact (Option.some.inj finished).symm
    · cases finished
  rw [closed, ← scanner.size_close_word .finished]
  simp [Scanner.size, Scanner.closeWord]

theorem run_single (word : Word) (words : List Word) (free : '\'' ∉ text) :
    run ⟨.single, some word, words⟩ text = some ⟨.single, some (word ++ text), words⟩ := by
  induction text generalizing word with
  | nil => rw [run_nil, List.append_nil]
  | cons char rest ih =>
      have other : char ≠ '\'' := fun same => free (same ▸ List.mem_cons_self)
      have later : '\'' ∉ rest := fun inside => free (List.mem_cons_of_mem _ inside)
      have stepped : step ⟨.single, some word, words⟩ char =
          some ⟨.single, some (word ++ [char]), words⟩ := by
        simp only [step, if_neg other]
        rfl
      rw [run_cons, stepped, Option.bind_some, ih _ later, List.append_assoc]
      rfl

end Reach

/-- An argument between single quotes is read back as itself exactly when it has no
single quote of its own. -/
theorem single_quoted_argument_iff {before : List Char} {words : List Word}
    (opened : run .start before = some ⟨.single, some [], words⟩) (argument : Word) :
    simpleCommand (before ++ argument ++ ['\'']) = some (words ++ [argument]) ↔
      '\'' ∉ argument := by
  have closing (word : Word) :
      step ⟨.single, some word, words⟩ '\'' = some ⟨.unquoted, some word, words⟩ := rfl
  constructor
  · intro read inside
    obtain ⟨first, rest, rfl, free⟩ := List.eq_append_cons_of_mem inside
    rw [simpleCommand, List.append_assoc, List.append_assoc, run_append, opened,
      Option.bind_some, run_append, run_single [] words free, Option.bind_some,
      List.cons_append, run_cons, closing, Option.bind_some, Option.bind_eq_some_iff] at read
    obtain ⟨final, ran, finished⟩ := read
    have reached := run_quote_reach rfl (List.mem_append_right rest List.mem_cons_self) ran
    have size := finish_size finished
    simp only [List.flatten_append, List.flatten_cons, List.flatten_nil, List.append_nil,
      List.length_append, List.length_cons] at size
    simp only [Scanner.reach, Scanner.size, List.nil_append, Option.getD_some,
      List.length_append, List.length_cons, List.length_nil] at reached size
    have read : Mode.unquoted.pending = 0 := rfl
    omega
  · intro free
    rw [simpleCommand, run_append, run_append, opened, Option.bind_some,
      run_single [] words free, Option.bind_some, run_cons, closing, Option.bind_some, run_nil,
      Option.bind_some]
    rfl

end Gk7102.ShellWords
