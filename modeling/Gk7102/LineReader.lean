import Mathlib.Data.List.Basic
import Mathlib.Data.List.Infix

/-!
# Reading lines into a buffer of limited size

A character ends a line, is stored as its last character, is dropped, or is
stored. A line is also over once the buffer is full. Reading every line of a
text is a left-to-right scan that holds the open line, so what a text reads as
is composed from the parts it is written from. Rewriting lines is not quite the
inverse of reading them: a line that was closed without an end reads back as
itself and an empty line.
-/

namespace Gk7102.LineReader

set_option autoImplicit false

variable {α : Type*}

inductive CharKind where
  | ends
  | closes
  | drops
  | plain
deriving DecidableEq, Repr

structure Format (α : Type*) where
  kind : α → CharKind
  limit : Nat
  limit_pos : 0 < limit

/-- The characters stored for one line, and the text that is left. -/
def takeLine (kind : α → CharKind) : Nat → List α → List α × List α
  | 0, text => ([], text)
  | _ + 1, [] => ([], [])
  | room + 1, c :: text =>
      match kind c with
      | .ends => ([], text)
      | .closes => ([c], text)
      | .drops => takeLine kind (room + 1) text
      | .plain =>
          let (line, rest) := takeLine kind room text
          (c :: line, rest)

/-- Only a text with nothing left to read has no further line. -/
def getLine (format : Format α) : List α → Option (List α × List α)
  | [] => none
  | c :: text => some (takeLine format.kind format.limit (c :: text))

def linesWithin (format : Format α) : Nat → List α → List (List α)
  | 0, _ => []
  | fuel + 1, text =>
      match getLine format text with
      | none => []
      | some (line, rest) => line :: linesWithin format fuel rest

/-- Every line takes at least one character, so the length of the text is fuel enough. -/
def lines (format : Format α) (text : List α) : List (List α) :=
  linesWithin format text.length text

/-! ## The same lines as a scan -/

/-- One character: the lines it closes and the line open after it. -/
def feed (format : Format α) (current : Option (List α)) (c : α) :
    List (List α) × Option (List α) :=
  let held := current.getD []
  match format.kind c with
  | .ends => ([held], none)
  | .closes => ([held ++ [c]], none)
  | .drops => ([], some held)
  | .plain =>
      if held.length + 1 = format.limit then ([held ++ [c]], none)
      else ([], some (held ++ [c]))

def scan (format : Format α) : Option (List α) → List α → List (List α) × Option (List α)
  | current, [] => ([], current)
  | current, c :: text =>
      ((feed format current c).1 ++ (scan format (feed format current c).2 text).1,
        (scan format (feed format current c).2 text).2)

section Scan

variable (format : Format α)

@[simp] theorem scan_nil (current : Option (List α)) : scan format current [] = ([], current) := by
  rw [scan]

theorem scan_append (current : Option (List α)) (before after : List α) :
    scan format current (before ++ after) =
      ((scan format current before).1 ++ (scan format (scan format current before).2 after).1,
        (scan format (scan format current before).2 after).2) := by
  induction before generalizing current with
  | nil => simp
  | cons c before ih => simp [scan, ih]

theorem scan_open (c : α) (text : List α) :
    scan format none (c :: text) = scan format (some []) (c :: text) := by
  rfl

theorem take_line_scan (text held : List α) (room : Nat)
    (within : held.length + (room + 1) = format.limit) :
    (scan format (some held) text =
        ([], some (held ++ (takeLine format.kind (room + 1) text).1)) ∧
      (takeLine format.kind (room + 1) text).2 = []) ∨
    (scan format (some held) text =
        ((held ++ (takeLine format.kind (room + 1) text).1) ::
            (scan format none (takeLine format.kind (room + 1) text).2).1,
          (scan format none (takeLine format.kind (room + 1) text).2).2) ∧
      (takeLine format.kind (room + 1) text).2.length < text.length) := by
  induction text generalizing held room with
  | nil => simp [takeLine]
  | cons c text ih =>
      cases kind : format.kind c with
      | ends => simp [takeLine, scan, feed, kind]
      | closes => simp [takeLine, scan, feed, kind]
      | drops =>
          have next := ih held room within
          simp only [takeLine, scan, feed, kind, Option.getD_some, List.nil_append,
            List.length_cons]
          rcases next with ⟨scanned, rest⟩ | ⟨scanned, shorter⟩
          · exact Or.inl ⟨scanned, rest⟩
          · exact Or.inr ⟨scanned, by omega⟩
      | plain =>
          cases room with
          | zero =>
              have full : held.length + 1 = format.limit := by omega
              simp [takeLine, scan, feed, kind, full]
          | succ room =>
              have space : held.length + 1 ≠ format.limit := by omega
              have longer : (held ++ [c]).length + (room + 1) = format.limit := by
                simp only [List.length_append, List.length_singleton]
                omega
              have next := ih (held ++ [c]) room longer
              rw [List.append_assoc, List.singleton_append] at next
              simp only [takeLine, scan, feed, kind, Option.getD_some, if_neg space,
                List.nil_append, List.length_cons]
              rcases next with ⟨scanned, rest⟩ | ⟨scanned, shorter⟩
              · exact Or.inl ⟨scanned, rest⟩
              · exact Or.inr ⟨scanned, by omega⟩

theorem lines_within_eq_scan (fuel : Nat) (text : List α) (enough : text.length ≤ fuel) :
    linesWithin format fuel text =
      (scan format none text).1 ++ (scan format none text).2.toList := by
  induction fuel generalizing text with
  | zero =>
      have blank : text = [] := List.eq_nil_of_length_eq_zero (by omega)
      simp [blank, linesWithin]
  | succ fuel ih =>
      cases text with
      | nil => simp [linesWithin, getLine]
      | cons c text =>
          obtain ⟨room, limit⟩ : ∃ room, format.limit = room + 1 :=
            ⟨format.limit - 1, by have := format.limit_pos; omega⟩
          have taken := take_line_scan format (c :: text) [] room (by simp [limit])
          simp only [linesWithin, getLine, limit]
          rw [scan_open]
          simp only [List.nil_append] at taken
          rcases taken with ⟨scanned, rest⟩ | ⟨scanned, shorter⟩
          · rw [scanned, rest, ih [] (by simp)]
            simp
          · rw [scanned, ih _ (by simp only [List.length_cons] at shorter enough; omega)]
            simp

theorem lines_eq_scan (text : List α) :
    lines format text = (scan format none text).1 ++ (scan format none text).2.toList :=
  lines_within_eq_scan format text.length text le_rfl

end Scan

/-! ## What the lines of a text look like -/

def AllPlain (format : Format α) (text : List α) : Prop :=
  ∀ c ∈ text, format.kind c = .plain

/-- A line that a text reads as: no longer than the buffer, and plain but for a
last character that closes it. -/
inductive IsLine (format : Format α) : List α → Prop where
  | stored (line : List α) (plain : AllPlain format line) (fits : line.length ≤ format.limit) :
      IsLine format line
  | closed (body : List α) (c : α) (plain : AllPlain format body)
      (closes : format.kind c = .closes) (fits : body.length + 1 ≤ format.limit) :
      IsLine format (body ++ [c])

/-- A line in the making leaves room for one more character. -/
def OpenLine (format : Format α) (current : Option (List α)) : Prop :=
  AllPlain format (current.getD []) ∧ (current.getD []).length < format.limit

section Lines

variable {format : Format α}

theorem all_plain_append {before after : List α} :
    AllPlain format (before ++ after) ↔ AllPlain format before ∧ AllPlain format after := by
  simp only [AllPlain, List.mem_append]
  constructor
  · intro all
    exact ⟨fun c inside => all c (Or.inl inside), fun c inside => all c (Or.inr inside)⟩
  · intro parts c inside
    cases inside with
    | inl early => exact parts.1 c early
    | inr late => exact parts.2 c late

theorem all_plain_singleton {c : α} (plain : format.kind c = .plain) :
    AllPlain format [c] := by
  intro other inside
  rw [List.mem_singleton.mp inside]
  exact plain

theorem is_line_length {line : List α} (isLine : IsLine format line) :
    line.length ≤ format.limit := by
  cases isLine with
  | stored line plain fits => exact fits
  | closed body c plain closes fits => simpa using fits

theorem open_none : OpenLine format none :=
  ⟨by simp [AllPlain], format.limit_pos⟩

theorem feed_lines {current : Option (List α)} (held : OpenLine format current) (c : α) :
    (∀ line ∈ (feed format current c).1, IsLine format line) ∧
      OpenLine format (feed format current c).2 := by
  have ⟨plain, short⟩ := held
  cases kind : format.kind c with
  | ends =>
      simp only [feed, kind, List.mem_singleton, forall_eq]
      exact ⟨.stored _ plain short.le, open_none⟩
  | closes =>
      simp only [feed, kind, List.mem_singleton, forall_eq]
      exact ⟨.closed _ c plain kind short, open_none⟩
  | drops =>
      simp only [feed, kind, List.not_mem_nil, false_implies, implies_true, true_and]
      exact ⟨plain, short⟩
  | plain =>
      have longer := all_plain_append.mpr ⟨plain, all_plain_singleton kind⟩
      simp only [feed, kind]
      split
      · rename_i full
        simp only [List.mem_singleton, forall_eq]
        exact ⟨.stored _ longer (by simpa using full.le), open_none⟩
      · rename_i space
        refine ⟨by simp, longer, ?_⟩
        simp only [Option.getD_some, List.length_append, List.length_singleton]
        omega

theorem scan_lines {current : Option (List α)} (held : OpenLine format current)
    (text : List α) :
    (∀ line ∈ (scan format current text).1, IsLine format line) ∧
      OpenLine format (scan format current text).2 := by
  induction text generalizing current with
  | nil => exact ⟨by simp, held⟩
  | cons c text ih =>
      have ⟨first, held'⟩ := feed_lines held c
      have ⟨later, last⟩ := ih held'
      refine ⟨?_, last⟩
      intro line inside
      rw [scan] at inside
      rcases List.mem_append.mp inside with early | late
      · exact first line early
      · exact later line late

theorem lines_are_lines (text : List α) : ∀ line ∈ lines format text, IsLine format line := by
  intro line inside
  have ⟨closed, last⟩ := scan_lines (open_none : OpenLine format none) text
  rw [lines_eq_scan] at inside
  rcases List.mem_append.mp inside with early | late
  · exact closed line early
  · have same : (scan format none text).2 = some line := Option.mem_toList.mp late
    rw [same] at last
    exact .stored line last.1 last.2.le

/-! ## Writing a line and reading it back -/

theorem scan_plain {current : Option (List α)} {text : List α} (plain : AllPlain format text)
    (fits : (current.getD []).length + text.length < format.limit) (some_text : text ≠ []) :
    scan format current text = ([], some (current.getD [] ++ text)) := by
  induction text generalizing current with
  | nil => exact absurd rfl some_text
  | cons c text ih =>
      have kind : format.kind c = .plain := plain c (by simp)
      have space : (current.getD []).length + 1 ≠ format.limit := by
        simp only [List.length_cons] at fits
        omega
      simp only [scan, feed, kind, if_neg space, List.nil_append]
      cases text with
      | nil => rfl
      | cons next text =>
          have later : AllPlain format (next :: text) := fun d inside =>
            plain d (List.mem_cons_of_mem c inside)
          have fits' : ((some (current.getD [] ++ [c])).getD []).length + (next :: text).length <
              format.limit := by
            simp only [Option.getD_some, List.length_append, List.length_cons,
              List.length_nil] at fits ⊢
            omega
          rw [ih later fits' (by simp)]
          simp

theorem scan_filling {current : Option (List α)} {text : List α} (plain : AllPlain format text)
    (fills : (current.getD []).length + text.length = format.limit) (some_text : text ≠ []) :
    scan format current text = ([current.getD [] ++ text], none) := by
  obtain ⟨front, c, rfl⟩ := (List.eq_nil_or_concat' text).resolve_left some_text
  have ⟨front_plain, last_plain⟩ := all_plain_append.mp plain
  have kind : format.kind c = .plain := last_plain c (by simp)
  have full : (current.getD []).length + front.length + 1 = format.limit := by
    simp only [List.length_append, List.length_singleton] at fills
    omega
  rw [scan_append]
  cases front with
  | nil =>
      have room : (current.getD []).length + 1 = format.limit := by simpa using full
      simp [scan, feed, kind, room]
  | cons first front =>
      rw [scan_plain front_plain (by omega) (by simp)]
      have room : (current.getD [] ++ (first :: front)).length + 1 = format.limit := by
        rw [List.length_append]
        exact full
      simp only [scan, feed, kind, Option.getD_some, if_pos room]
      simp

/-- A line that is over before its end is written. -/
def selfClosing (format : Format α) (line : List α) : Bool :=
  line.length == format.limit ||
    match line.getLast? with
    | none => false
    | some c => format.kind c == .closes

/-- What one written line reads back as. -/
def respace (format : Format α) (line : List α) : List (List α) :=
  if selfClosing format line then [line, []] else [line]

theorem self_closing_of_plain {line : List α} (plain : AllPlain format line)
    (short : line.length < format.limit) : selfClosing format line = false := by
  have here : (line.length == format.limit) = false := by
    simp only [beq_eq_false_iff_ne]
    omega
  cases last : line.getLast? with
  | none => simp [selfClosing, here, last]
  | some c => simp [selfClosing, here, last, plain c (List.mem_of_getLast? last)]

theorem scan_written {line : List α} (isLine : IsLine format line) {newline : α}
    (ends : format.kind newline = .ends) :
    scan format none (line ++ [newline]) = (respace format line, none) := by
  have blank : scan format none [newline] = ([[]], none) := by simp [scan, feed, ends]
  cases isLine with
  | stored line plain fits =>
      by_cases empty : line = []
      · subst empty
        have short : selfClosing format ([] : List α) = false :=
          self_closing_of_plain plain format.limit_pos
        simp only [List.nil_append, blank, respace, short]
        rfl
      · rw [scan_append]
        rcases fits.lt_or_eq with short | full
        · have closing := self_closing_of_plain plain short
          rw [scan_plain plain (by simpa using short) empty]
          simp [scan, feed, ends, respace, closing]
        · have closing : selfClosing format line = true := by simp [selfClosing, full]
          rw [scan_filling plain (by simpa using full) empty]
          simp only [Option.getD_none, List.nil_append, blank, respace, closing, if_true]
          rfl
  | closed body c plain closes fits =>
      have closing : selfClosing format (body ++ [c]) = true := by simp [selfClosing, closes]
      have scanned : scan format none (body ++ [c]) = ([body ++ [c]], none) := by
        by_cases empty : body = []
        · simp [empty, scan, feed, closes]
        · rw [scan_append, scan_plain plain (by simpa using Nat.lt_of_succ_le fits) empty]
          simp [scan, feed, closes]
      rw [scan_append, scanned]
      simp only [blank, respace, closing, if_true]
      rfl

def writeLines (newline : α) (written : List (List α)) : List α :=
  written.flatMap fun line => line ++ [newline]

/-- The lines that rewritten lines read back as. -/
def reread (format : Format α) (written : List (List α)) : List (List α) :=
  written.flatMap (respace format)

@[simp] theorem reread_nil : reread format ([] : List (List α)) = [] := rfl

@[simp] theorem reread_cons (line : List α) (written : List (List α)) :
    reread format (line :: written) = respace format line ++ reread format written := by
  simp [reread]

@[simp] theorem reread_append (before after : List (List α)) :
    reread format (before ++ after) = reread format before ++ reread format after := by
  simp [reread]

theorem write_lines_append (newline : α) (before after : List (List α)) :
    writeLines newline (before ++ after) =
      writeLines newline before ++ writeLines newline after := by
  simp [writeLines]

theorem scan_write_lines {newline : α} (ends : format.kind newline = .ends)
    {written : List (List α)} (areLines : ∀ line ∈ written, IsLine format line) :
    scan format none (writeLines newline written) = (reread format written, none) := by
  induction written with
  | nil => simp [writeLines]
  | cons line written ih =>
      have first := scan_written (areLines line (by simp)) ends
      have later := ih fun other inside => areLines other (List.mem_cons_of_mem line inside)
      have split : writeLines newline (line :: written) =
          (line ++ [newline]) ++ writeLines newline written := by
        simp [writeLines]
      rw [split, scan_append, first, later]
      simp

/-- What a written text, shorter than the buffer, reads as behind an open line. -/
def glue (format : Format α) (held text : List α) : List (List α) :=
  if (held ++ text).length < format.limit then [held ++ text]
  else [(held ++ text).take format.limit, (held ++ text).drop format.limit]

theorem scan_glue {current : Option (List α)} (held : OpenLine format current)
    {text : List α} (plain : AllPlain format text) (short : text.length < format.limit)
    (some_text : text ≠ []) {newline : α} (ends : format.kind newline = .ends) :
    scan format current (text ++ [newline]) = (glue format (current.getD []) text, none) := by
  have line_end : ∀ open_line : Option (List α),
      scan format open_line [newline] = ([open_line.getD []], none) := by
    intro open_line
    simp [scan, feed, ends]
  have room := held.2
  rw [scan_append]
  by_cases fits : (current.getD [] ++ text).length < format.limit
  · have fits' := fits
    rw [List.length_append] at fits'
    rw [scan_plain plain fits' some_text, line_end]
    simp only [glue, if_pos fits]
    rfl
  · rw [List.length_append] at fits
    -- the part that fills the buffer, and the part behind it
    obtain ⟨front, back, parts, filled⟩ : ∃ front back, front ++ back = text ∧
        (current.getD []).length + front.length = format.limit :=
      ⟨text.take (format.limit - (current.getD []).length),
        text.drop (format.limit - (current.getD []).length), List.take_append_drop _ _, by
          rw [List.length_take]
          omega⟩
    subst parts
    have ⟨front_plain, back_plain⟩ := all_plain_append.mp plain
    have some_front : front ≠ [] := by
      intro none_left
      rw [none_left, List.length_nil] at filled
      omega
    have filled' : (current.getD [] ++ front).length = format.limit := by
      rw [List.length_append]
      exact filled
    have cut : glue format (current.getD []) (front ++ back) =
        [current.getD [] ++ front, back] := by
      simp only [glue, ← List.append_assoc]
      rw [if_neg (by simp only [List.length_append]; omega), ← filled', List.take_left,
        List.drop_left]
    rw [cut, scan_append, scan_filling front_plain filled some_front]
    by_cases rest : back = []
    · simp [rest, line_end]
    · have fits_back : ((none : Option (List α)).getD []).length + back.length < format.limit := by
        simp only [Option.getD_none, List.length_nil, List.length_append] at short ⊢
        omega
      rw [scan_plain back_plain fits_back rest]
      simp [line_end]

/-- Rewriting loses no line. -/
theorem sublist_reread (written : List (List α)) : written.Sublist (reread format written) := by
  induction written with
  | nil => exact List.Sublist.refl []
  | cons line written ih =>
      rw [reread_cons]
      simp only [respace]
      split
      · exact (ih.cons []).cons_cons line
      · exact ih.cons_cons line

theorem scan_flatten (stores : ∀ c, format.kind c = .plain ∨ format.kind c = .closes)
    (current : Option (List α)) (text : List α) :
    (scan format current text).1.flatten ++ (scan format current text).2.getD [] =
      current.getD [] ++ text := by
  induction text generalizing current with
  | nil => simp
  | cons c text ih =>
      have one : (feed format current c).1.flatten ++ (feed format current c).2.getD [] =
          current.getD [] ++ [c] := by
        cases stores c with
        | inl plain =>
            simp only [feed, plain]
            split <;> simp
        | inr closes => simp [feed, closes]
      rw [scan, List.flatten_append, List.append_assoc, ih, ← List.append_assoc, one]
      simp

/-- A reader that stores every character reads a text in pieces of it. -/
theorem lines_flatten (stores : ∀ c, format.kind c = .plain ∨ format.kind c = .closes)
    (text : List α) : (lines format text).flatten = text := by
  have whole := scan_flatten stores none text
  have last : (scan format none text).2.toList.flatten = (scan format none text).2.getD [] := by
    cases (scan format none text).2 <;> simp
  rw [lines_eq_scan, List.flatten_append, last, whole]
  rfl

/-! ## Comparing written lines -/

theorem append_separator_inj {separator : α} {line other rest more : List α}
    (first : separator ∉ line) (second : separator ∉ other)
    (same : line ++ separator :: rest = other ++ separator :: more) :
    line = other ∧ rest = more := by
  rcases List.append_eq_append_iff.mp same with ⟨gap, longer, tail⟩ | ⟨gap, longer, tail⟩
  · cases gap with
    | nil => simp_all
    | cons c gap =>
        simp only [List.cons_append, List.cons.injEq] at tail
        exact absurd (longer ▸ by simp [tail.1]) second
  · cases gap with
    | nil => simp_all
    | cons c gap =>
        simp only [List.cons_append, List.cons.injEq] at tail
        exact absurd (longer ▸ by simp [tail.1]) first

theorem write_lines_injective {newline : α} {written other : List (List α)}
    (early : ∀ line ∈ written, newline ∉ line) (late : ∀ line ∈ other, newline ∉ line)
    (same : writeLines newline written = writeLines newline other) : written = other := by
  induction written generalizing other with
  | nil =>
      cases other with
      | nil => rfl
      | cons line other => simp [writeLines] at same
  | cons line written induction =>
      cases other with
      | nil => simp [writeLines] at same
      | cons first other =>
          simp only [writeLines, List.flatMap_cons, List.append_assoc,
            List.singleton_append] at same
          obtain ⟨rfl, rest⟩ :=
            append_separator_inj (early line (by simp)) (late first (by simp)) same
          rw [induction (fun inner inside => early inner (by simp [inside]))
            (fun inner inside => late inner (by simp [inside])) rest]

theorem reread_perm (written : List (List α)) :
    (reread format written).Perm
      (written ++ List.replicate (written.countP (selfClosing format ·)) []) := by
  induction written with
  | nil => exact .refl _
  | cons line written induction =>
      rw [reread_cons, respace, List.countP_cons, List.cons_append]
      by_cases closing : selfClosing format line = true
      · rw [if_pos closing, if_pos closing, List.replicate_succ]
        refine (induction.cons []).cons line |>.trans (.cons line ?_)
        exact List.perm_middle.symm
      · rw [if_neg closing, if_neg closing]
        exact induction.cons line

theorem reread_of_whole {written : List (List α)}
    (whole : ∀ line ∈ written, selfClosing format line = false) :
    reread format written = written := by
  induction written with
  | nil => rfl
  | cons line written induction =>
      rw [reread_cons, respace, whole line (by simp), induction fun inner inside =>
        whole inner (by simp [inside])]
      rfl
end Lines

end Gk7102.LineReader
