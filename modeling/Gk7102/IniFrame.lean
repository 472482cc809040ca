import Gk7102.IniReadBack

/-!
# What setting a key leaves alone

Every other reader of the file has to come through the place that was written in
the phase in which it comes through the old lines. A reader of another section
passes over it, unless it is still joining a value there or one of the lines
between is a header to it. A reader of another key of the section goes on behind
it. What is left is that the rewritten lines read as the old ones did.
-/

namespace Gk7102.Ini

open Gk7102.LineReader

set_option autoImplicit false

/-! ## Two readers of one section -/

/-- The phases of two readers after the same line, from the same phase in which
neither has found its key. -/
inductive OtherKey : Phase → Phase → Prop where
  | same (phase : Phase) (unfound : ∀ value, phase ≠ .found value) : OtherKey phase phase
  | mine (value : Text) : OtherKey (.found value) .seekingKey
  | theirs (value : Text) : OtherKey .seekingKey (.found value)

theorem other_key_joining {text : Text} {other : Phase}
    (related : OtherKey (.joining text) other) : other = .joining text := by
  cases related with
  | same => rfl

theorem other_key_found {value : Text} {other : Phase}
    (related : OtherKey (.found value) other) : other = .seekingKey := by
  cases related with
  | same _ unfound => exact absurd rfl (unfound value)
  | mine => rfl

section Readers

variable {sect key key' : Text}

theorem match_key_other_key (distinct : key' ≠ key) (text : Text) :
    OtherKey (matchKey key text) (matchKey key' text) := by
  simp only [matchKey]
  cases splitKeyValue text with
  | error code => exact .same _ (by simp)
  | ok parts =>
      obtain ⟨name, value⟩ := parts
      by_cases mine : strtriml (strtrimr name) = key
      · have theirs : ¬ strtriml (strtrimr name) = key' := fun same => distinct (same ▸ mine)
        simp only [mine, if_true]
        rw [if_neg (fun same => distinct same.symm)]
        exact .mine value
      · by_cases theirs : strtriml (strtrimr name) = key'
        · simp only [if_neg mine, if_pos theirs]
          exact .theirs value
        · simp only [if_neg mine, if_neg theirs]
          exact .same _ (by simp)

theorem read_line_other_key (distinct : key' ≠ key) {phase : Phase}
    (unfound : ∀ value, phase ≠ .found value) (line : Text) :
    OtherKey (readLine sect key phase line) (readLine sect key' phase line) := by
  cases phase with
  | seekingSection =>
      rw [read_line_seeking, read_line_seeking]
      apply OtherKey.same
      intro value found
      rcases seek_section_cases sect line with again | entered | failed
      · simp [again] at found
      · simp [entered] at found
      · simp [failed] at found
  | seekingKey =>
      simp only [read_line_seeking_key, seekKey]
      split_ifs
      · exact .same _ (by simp)
      · exact .same _ (by simp)
      · exact .same _ (by simp)
      · exact match_key_other_key distinct _
  | joining text =>
      simp only [read_line_joining, joinLine]
      split_ifs
      · exact .same _ (by simp)
      · exact .same _ (by simp)
      · exact .same _ (by simp)
      · exact match_key_other_key distinct _
  | found value => exact absurd rfl (unfound value)
  | failed ret => exact .same _ (by simp)

/-- As long as one reader has not found its key, the other is with it or is done. -/
theorem read_lines_other_key (distinct : key' ≠ key) {written : List Text} {phase : Phase}
    (unfound : ∀ value, readLines sect key phase written ≠ .found value) :
    readLines sect key' phase written = readLines sect key phase written ∨
      ∃ value, readLines sect key' phase written = .found value := by
  induction written generalizing phase with
  | nil => exact Or.inl rfl
  | cons line written ih =>
      have here : ∀ value, phase ≠ .found value := by
        intro value found
        exact unfound value (by rw [found, read_lines_found])
      have step : OtherKey (readLine sect key phase line) (readLine sect key' phase line) :=
        read_line_other_key distinct here line
      simp only [read_lines_cons] at unfound ⊢
      generalize readLine sect key phase line = one at *
      generalize readLine sect key' phase line = two at *
      cases step with
      | same phase _ => exact ih unfound
      | mine value => exact absurd (read_lines_found value written) (unfound value)
      | theirs value => exact Or.inr ⟨value, read_lines_found value written⟩

theorem phase_at_found {written : List Text} {count later : Nat} {value : Text}
    (found : phaseAt sect key written count = .found value) (after : count ≤ later) :
    phaseAt sect key written later = .found value := by
  obtain ⟨more, rfl⟩ := Nat.exists_eq_add_of_le after
  rw [phaseAt] at found
  rw [phaseAt, List.take_add, read_lines_append, found, read_lines_found]

theorem own_lines_joined (distinct : key' ≠ key) {written : List Text}
    {headerNo keyNo count : Nat} (own : KeyAt sect key written headerNo keyNo count)
    (started : phaseAt sect key' written (keyNo - 1) = .seekingKey) (part : Nat)
    (inside : part < count) :
    phaseAt sect key' written (keyNo - 1 + part) = phaseAt sect key written (keyNo - 1 + part) ∧
      ∀ value, phaseAt sect key written (keyNo - 1 + part) ≠ .found value := by
  have within := own.within
  induction part with
  | zero =>
      rw [Nat.add_zero, started, own.before]
      exact ⟨rfl, by simp⟩
  | succ part ih =>
      have ⟨same, unfound⟩ := ih (by omega)
      obtain ⟨text, joined⟩ := own.joined (part + 1) (by omega) inside
      have behind : keyNo - 1 + part < written.length := by omega
      obtain ⟨line, _, step⟩ := phase_at_step behind
      have next : OtherKey (readLine sect key (phaseAt sect key written (keyNo - 1 + part)) line)
          (readLine sect key' (phaseAt sect key written (keyNo - 1 + part)) line) :=
        read_line_other_key distinct unfound line
      rw [← step, ← same, ← step, Nat.add_assoc, joined] at next
      rw [joined, other_key_joining next]
      exact ⟨rfl, by simp⟩

theorem own_lines_passed (distinct : key' ≠ key) {written : List Text}
    {headerNo keyNo count : Nat} {old : Text}
    (own : KeyAt sect key written headerNo keyNo count)
    (read : OwnRead sect key written (keyNo - 1 + count) old)
    (started : phaseAt sect key' written (keyNo - 1) = .seekingKey) :
    phaseAt sect key' written (keyNo - 1 + count) = .seekingKey ∨
      keyNo - 1 + count = written.length ∧
        ∃ text, phaseAt sect key' written (keyNo - 1 + count) = .joining text ∧
          matchKey key' text = .seekingKey := by
  have within := own.within
  obtain ⟨part, rfl⟩ := Nat.exists_eq_add_of_lt own.positive
  rw [Nat.zero_add] at within own read ⊢
  have ⟨same, unfound⟩ := own_lines_joined distinct own started part (by omega)
  have inside : keyNo - 1 + part < written.length := by omega
  obtain ⟨line, _, step⟩ := phase_at_step inside
  have next : OtherKey (readLine sect key (phaseAt sect key written (keyNo - 1 + part)) line)
      (readLine sect key' (phaseAt sect key written (keyNo - 1 + part)) line) :=
    read_line_other_key distinct unfound line
  rw [← step, ← same, ← step, Nat.add_assoc] at next
  rcases read with found | ⟨last, text, joined, closed⟩
  · rw [found] at next
    exact Or.inl (other_key_found next)
  · rw [joined] at next
    have other := match_key_other_key distinct text
    rw [closed] at other
    exact Or.inr ⟨last, text, other_key_joining next, other_key_found other⟩

end Readers

/-! ## A reader of another section -/

/-- Neither in a section of its own nor in a value. -/
def Elsewhere (phase : Phase) : Prop :=
  phase ≠ .seekingKey ∧ ∀ text, phase ≠ .joining text

section Sections

variable {sect key sect' key' : Text}

theorem strtriml_head {buf : Text} {c : Char} (first : (strtriml buf).head? = some c) :
    buf.head? = some c := by
  obtain ⟨stripped, whole⟩ := List.rdropWhile_prefix (· == ' ') buf
  rw [← whole, List.head?_append]
  change (strtriml buf).head?.or _ = _
  rw [first]
  rfl

/-- The header of one section ends every other section. -/
theorem header_passed (distinct : sect' ≠ sect) {line : Text}
    (header : seekSection sect line = .seekingKey) {phase : Phase}
    (outside : ∀ text, phase ≠ .joining text) :
    Elsewhere (readLine sect' key' phase line) := by
  have ⟨first, name⟩ := seek_section_entered header
  cases phase with
  | seekingSection =>
      constructor
      · intro entered
        exact distinct ((seek_section_entered entered).2.symm.trans name)
      · exact seek_section_outside sect' line
  | seekingKey =>
      have marked : isSkipped (strtriml (strtrimr line)) = false := by
        cases buf : strtriml (strtrimr line) with
        | nil => simp [buf] at first
        | cons c rest =>
            rw [buf] at first
            rw [isSkipped, Option.some.inj first]
            rfl
      rw [read_line_seeking_key]
      simp [seekKey, marked, first, Elsewhere]
  | joining text => exact absurd rfl (outside text)
  | found value => simp [Elsewhere]
  | failed ret => simp [Elsewhere]

theorem elsewhere_passes {phase : Phase} (elsewhere : Elsewhere phase) {line : Text}
    (inner : (strtrimr line).head? ≠ some sectionPrefix) :
    readLine sect' key' phase line = phase := by
  have trimmed : (strtriml (strtrimr line)).head? ≠ some sectionPrefix := fun first =>
    inner (strtriml_head first)
  cases phase with
  | seekingSection => simp [seekSection, trimmed]
  | seekingKey => exact absurd rfl elsewhere.1
  | joining text => exact absurd rfl (elsewhere.2 text)
  | found value => rfl
  | failed ret => rfl

theorem elsewhere_passes_lines {phase : Phase} (elsewhere : Elsewhere phase)
    {written : List Text}
    (inner : ∀ line ∈ written, (strtrimr line).head? ≠ some sectionPrefix) :
    readLines sect' key' phase written = phase := by
  induction written with
  | nil => rfl
  | cons line written ih =>
      rw [read_lines_cons, elsewhere_passes elsewhere (inner line (by simp))]
      exact ih fun other inside => inner other (List.mem_cons_of_mem line inside)

theorem key_line_inner {value : Text} (legal : LegalEntry sect key value) :
    (strtrimr (keyLine key value)).head? ≠ some sectionPrefix := by
  obtain ⟨c, rest, line, solid, no_header, _⟩ := key_line_head legal
  have blank : c ≠ ' ' := by
    intro same
    rw [same] at solid
    exact absurd solid (by decide)
  rw [line]
  simp [strtrimr, blank, no_header]

end Sections

/-! ## The condition -/

/-- The file ends with a line end, and no other reader comes to its end in the
middle of a value. -/
def AppendFrameSafe (content sect key : Text) : Prop :=
  (scan iniFormat none content).2 = none ∧
    ∀ sect' key', (sect', key') ≠ (sect, key) → ∀ text,
      readLines sect' key' .seekingSection (fileLines content) ≠ .joining text

/-- The lines after `firstNo` and up to `lastNo` are replaced. Every other reader
sees the section's header as a header, no line from it to the replaced ones looks
like a header, and no value is split by the rewriting. -/
structure RewriteFrameSafe (written : List Text) (sect key : Text)
    (headerNo firstNo lastNo : Nat) : Prop where
  header_seen : ∀ sect' key', (sect', key') ≠ (sect, key) → ∀ text,
    phaseAt sect' key' written (headerNo - 1) ≠ .joining text
  no_header_between : ∀ line ∈ (written.take lastNo).drop headerNo,
    (strtrimr line).head? ≠ some sectionPrefix
  whole_above : ∀ sect' key', (sect', key') ≠ (sect, key) →
    WholeValues sect' key' .seekingSection (written.take firstNo)
  whole_below : ∀ sect' key', (sect', key') ≠ (sect, key) →
    WholeValues sect' key' (phaseAt sect' key' written lastNo) (written.drop lastNo)

def FrameSafe (file : Option Text) (sect key : Text) : Prop :=
  match file with
  | none => True
  | some content =>
      let reader := readAll sect key (fileLines content)
      match lookup content sect key with
      | .found _ =>
          RewriteFrameSafe (fileLines content) sect key reader.sectionLineNo
            (reader.keyLineNo - 1) (reader.keyLineNo - 1 + reader.keyLines)
      | .failed ret =>
          if ret = cfgSectionNotFound then AppendFrameSafe content sect key
          else
            RewriteFrameSafe (fileLines content) sect key reader.sectionLineNo
              reader.sectionLineNo reader.sectionLineNo
      | _ => True

def otherLines (file : Option Text) (sect key : Text) : List Text :=
  match file with
  | none => []
  | some content =>
      match lookup content sect key with
      | .found _ => aboveKey content sect key ++ belowKey content sect key
      | _ => fileLines content

section Frame

variable {sect key value sect' key' : Text}

/-- A reader that comes to the old rest and to its rewriting in aligned phases
reads the same from them. -/
theorem rewritten_reads_same {written : List Text} {firstNo lastNo : Nat}
    (fit : ∀ line ∈ written, line.length ≤ maxCfgBuf)
    (above : WholeValues sect' key' .seekingSection (written.take firstNo))
    (below : WholeValues sect' key' (phaseAt sect' key' written lastNo) (written.drop lastNo))
    (outside : ∀ text, phaseAt sect' key' written firstNo ≠ .joining text)
    (meet : Aligned key' (written.drop lastNo) (phaseAt sect' key' written lastNo)
      (readLine sect' key' (phaseAt sect' key' written firstNo) (keyLine key value))) :
    endOfFile key' (readLines sect' key' .seekingSection
        (reread iniFormat (written.take firstNo) ++
          keyLine key value :: reread iniFormat (written.drop lastNo))) =
      endOfFile key' (readLines sect' key' .seekingSection written) := by
  have start := aligned_outside (reread_aligned (.same .seekingSection)
    (fun line inside => fit line (List.mem_of_mem_take inside)) above) outside
  have rest := reread_aligned meet (fun line inside => fit line (List.mem_of_mem_drop inside)) below
  have parts : readLines sect' key' .seekingSection written =
      readLines sect' key' (phaseAt sect' key' written lastNo) (written.drop lastNo) := by
    rw [phaseAt, ← read_lines_append, List.take_append_drop]
  rw [read_lines_append, read_lines_cons, start, parts]
  exact (aligned_end rest).symm

theorem other_section_same {written : List Text} {headerNo firstNo lastNo : Nat}
    (distinct : sect' ≠ sect) (legal : LegalEntry sect key value)
    (fit : ∀ line ∈ written, line.length ≤ maxCfgBuf)
    (header : HeaderAt sect key written headerNo)
    (safe : RewriteFrameSafe written sect key headerNo firstNo lastNo)
    (behind : headerNo ≤ firstNo) (ordered : firstNo ≤ lastNo) :
    endOfFile key' (readLines sect' key' .seekingSection
        (reread iniFormat (written.take firstNo) ++
          keyLine key value :: reread iniFormat (written.drop lastNo))) =
      endOfFile key' (readLines sect' key' .seekingSection written) := by
  have other : (sect', key') ≠ (sect, key) := fun same => distinct (Prod.ext_iff.mp same).1
  have positive := header.positive
  have within := header.within
  obtain ⟨line, _, step⟩ : ∃ line ∈ written, ∀ sect key,
      phaseAt sect key written (headerNo - 1 + 1) =
        readLine sect key (phaseAt sect key written (headerNo - 1)) line :=
    phase_at_step (by omega)
  rw [Nat.sub_add_cancel positive] at step
  have entered := header.entered
  rw [step, header.before] at entered
  have elsewhere : Elsewhere (phaseAt sect' key' written headerNo) := by
    rw [step]
    exact header_passed distinct entered (safe.header_seen sect' key' other)
  -- nothing from the header to the last replaced line moves this reader
  have stays : ∀ count, headerNo ≤ count → count ≤ lastNo →
      phaseAt sect' key' written count = phaseAt sect' key' written headerNo := by
    intro count after upto
    obtain ⟨more, rfl⟩ := Nat.exists_eq_add_of_le after
    rw [phaseAt, List.take_add, read_lines_append, ← phaseAt]
    apply elsewhere_passes_lines elsewhere
    intro between inside
    apply safe.no_header_between
    rw [List.drop_take]
    have shorter : (written.drop headerNo).take more <+:
        (written.drop headerNo).take (lastNo - headerNo) :=
      List.take_prefix_take_left (by omega)
    exact shorter.subset inside
  have first := stays firstNo behind ordered
  have last := stays lastNo (behind.trans ordered) le_rfl
  apply rewritten_reads_same fit (safe.whole_above sect' key' other)
    (safe.whole_below sect' key' other)
  · rw [first]
    exact elsewhere.2
  · rw [first, last, elsewhere_passes elsewhere (key_line_inner legal)]
    exact .same _

theorem other_key_at (distinct : key' ≠ key) {written : List Text} {count : Nat}
    (entered : phaseAt sect key written count = .seekingKey) :
    phaseAt sect key' written count = .seekingKey ∨
      ∃ other, phaseAt sect key' written count = .found other := by
  have unfound : ∀ value, readLines sect key .seekingSection (written.take count) ≠
      .found value := by
    rw [← phaseAt, entered]
    simp
  have beside := read_lines_other_key distinct unfound
  rw [← phaseAt, ← phaseAt, entered] at beside
  exact beside

theorem other_key_passes (distinct : key' ≠ key) (legal : LegalEntry sect key value)
    {phase : Phase} (inside : phase = .seekingKey ∨ ∃ other, phase = .found other) :
    readLine sect key' phase (keyLine key value) = phase := by
  rcases inside with rfl | ⟨other, rfl⟩
  · rw [read_line_seeking_key, seek_key_key_line legal, if_neg distinct.symm]
  · rfl

theorem inserted_key_same {written : List Text} {headerNo : Nat} (distinct : key' ≠ key)
    (legal : LegalEntry sect key value) (fit : ∀ line ∈ written, line.length ≤ maxCfgBuf)
    (header : HeaderAt sect key written headerNo)
    (safe : RewriteFrameSafe written sect key headerNo headerNo headerNo) :
    endOfFile key' (readLines sect key' .seekingSection
        (reread iniFormat (written.take headerNo) ++
          keyLine key value :: reread iniFormat (written.drop headerNo))) =
      endOfFile key' (readLines sect key' .seekingSection written) := by
  have other : (sect, key') ≠ (sect, key) := fun same => distinct (Prod.ext_iff.mp same).2
  have inside := other_key_at distinct header.entered
  apply rewritten_reads_same fit (safe.whole_above sect key' other)
    (safe.whole_below sect key' other)
  · rcases inside with seeking | ⟨found, done⟩
    · simp [seeking]
    · simp [done]
  · rw [other_key_passes distinct legal inside]
    exact .same _

theorem phase_at_joining_fits {written : List Text} {count : Nat} {text : Text}
    (fit : ∀ line ∈ written, line.length ≤ maxCfgBuf) (positive : 0 < count)
    (within : count ≤ written.length) (joined : phaseAt sect key written count = .joining text) :
    text.length ≤ maxCfgBuf := by
  have inside : count - 1 < written.length := by omega
  obtain ⟨line, member, step⟩ := phase_at_step inside
  rw [Nat.sub_add_cancel positive] at step
  exact joining_fits (fit line member) ((step sect key).symm.trans joined)

theorem replaced_key_same {written : List Text} {headerNo keyNo count : Nat} {old : Text}
    (distinct : key' ≠ key) (legal : LegalEntry sect key value)
    (fit : ∀ line ∈ written, line.length ≤ maxCfgBuf)
    (own : KeyAt sect key written headerNo keyNo count)
    (read : OwnRead sect key written (keyNo - 1 + count) old)
    (safe : RewriteFrameSafe written sect key headerNo (keyNo - 1) (keyNo - 1 + count)) :
    endOfFile key' (readLines sect key' .seekingSection
        (reread iniFormat (written.take (keyNo - 1)) ++
          keyLine key value :: reread iniFormat (written.drop (keyNo - 1 + count)))) =
      endOfFile key' (readLines sect key' .seekingSection written) := by
  have other : (sect, key') ≠ (sect, key) := fun same => distinct (Prod.ext_iff.mp same).2
  have inside := other_key_at distinct own.before
  apply rewritten_reads_same fit (safe.whole_above sect key' other)
    (safe.whole_below sect key' other)
  · rcases inside with seeking | ⟨found, done⟩
    · simp [seeking]
    · simp [done]
  · rw [other_key_passes distinct legal inside]
    rcases inside with seeking | ⟨found, done⟩
    · rcases own_lines_passed distinct own read seeking with on | ⟨last, text, joined, closed⟩
      · rw [on, seeking]
        exact .same _
      · have positive := own.positive
        have short := phase_at_joining_fits fit (by omega) own.within joined
        have nothing : written.drop (keyNo - 1 + count) = [] :=
          List.drop_eq_nil_of_le last.ge
        rw [joined, seeking, ← closed, nothing]
        exact .closedEarly text short (by simp)
    · rw [done, phase_at_found done (by omega)]
      exact .same _

end Frame

theorem lines_appended_closed {sect key value : Text} (legal : LegalEntry sect key value)
    {content : Text} (closed : (scan iniFormat none content).2 = none) :
    fileLines (content ++ writeLines '\n' [headerLine sect, keyLine key value]) =
      fileLines content ++ [headerLine sect, keyLine key value] := by
  have alone : glue iniFormat (openTail content) (headerLine sect) = [headerLine sect] := by
    rw [openTail, closed]
    simp only [glue, Option.getD_none, List.nil_append]
    exact if_pos legal.header_fits
  rw [lines_appended legal, alone, file_lines_eq, closed]
  simp

theorem appended_reads_same {sect key value sect' key' : Text}
    (legal : LegalEntry sect key value) {content : Text}
    (safe : AppendFrameSafe content sect key) (other : (sect', key') ≠ (sect, key))
    (text : Text) :
    lookup (content ++ writeLines '\n' [headerLine sect, keyLine key value]) sect' key' =
        .found text ↔
      lookup content sect' key' = .found text := by
  have ⟨closed, quiet⟩ := safe
  have outside := quiet sect' key' other
  rw [lookup, lookup, lines_appended_closed legal closed, read_lines_append]
  cases phase : readLines sect' key' .seekingSection (fileLines content) with
  | seekingSection =>
      by_cases same : sect = sect'
      · have distinct : ¬ key = key' := fun equal => other (by rw [same, equal])
        simp [seek_section_header, same, seek_key_key_line legal, distinct, endOfFile]
      · simp [seek_section_header, same, seek_section_key_line legal, endOfFile]
  | seekingKey => simp [seek_key_header, endOfFile]
  | joining text => exact absurd phase (outside text)
  | found value => simp
  | failed ret => simp

theorem drop_blanks_append (text sect : Text) :
    (text ++ headerLine sect).dropWhile isBlank =
      text.dropWhile isBlank ++ headerLine sect := by
  have opening : isBlank sectionPrefix = false := by decide
  rw [List.dropWhile_append]
  split
  · rename_i blank
    rw [List.isEmpty_iff.mp blank]
    simp [headerLine, opening]
  · rfl

/-- A value goes on with what is joined to its line. -/
theorem match_key_longer {key text value : Text} (sect : Text)
    (found : matchKey key text = .found value) :
    matchKey key (text ++ headerLine sect) = .found (value ++ headerLine sect) := by
  simp only [matchKey, splitKeyValue, drop_blanks_append] at found ⊢
  cases solid : text.dropWhile isBlank with
  | nil => simp [solid] at found
  | cons first rest =>
      rw [solid] at found
      by_cases equals : first = '='
      · simp [equals] at found
      · cases split : rest.dropWhile (· != '=') with
        | nil => simp [equals, split] at found
        | cons mark later =>
            have name : (rest ++ headerLine sect).takeWhile (· != '=') =
                rest.takeWhile (· != '=') := by
              rw [List.takeWhile_append, if_neg]
              intro whole
              have kept := congrArg List.length
                (List.takeWhile_append_dropWhile (p := (· != '=')) (l := rest))
              rw [split, List.length_append, List.length_cons] at kept
              omega
            have value_part : (rest ++ headerLine sect).dropWhile (· != '=') =
                mark :: (later ++ headerLine sect) := by
              rw [List.dropWhile_append, split]
              rfl
            simp only [if_neg equals, split] at found
            simp only [List.cons_append, if_neg equals, name, value_part, drop_blanks_append]
            split_ifs at found ⊢ with same
            rw [Phase.found.inj found]

/-- A line end that is missing costs the last line, unless it is the new one. -/
theorem append_loses_open_line {sect key value line : Text} (legal : LegalEntry sect key value)
    {content : Text} (open_line : (scan iniFormat none content).2 = some line)
    (unlike : line ≠ keyLine key value) :
    ¬ (fileLines content).Sublist
      (fileLines (content ++ writeLines '\n' [headerLine sect, keyLine key value])) := by
  have short : line.length < maxCfgBuf := by
    have held := (scan_lines (open_none : OpenLine iniFormat none) content).2
    rw [open_line] at held
    exact held.2
  have header_short := legal.header_fits
  have nonempty : 0 < (headerLine sect).length := by
    rw [header_line_length]
    omega
  intro kept
  rw [lines_appended legal, file_lines_eq, open_line, List.append_assoc,
    List.append_sublist_append_left, openTail, open_line] at kept
  have inside := List.singleton_sublist.mp kept
  have limit : iniFormat.limit = maxCfgBuf := rfl
  simp only [Option.getD_some, glue, limit, List.mem_append, List.mem_singleton] at inside
  rcases inside with glued | new
  · split_ifs at glued with fits
    · have lengths := congrArg List.length (List.mem_singleton.mp glued)
      rw [List.length_append] at lengths
      omega
    · rw [List.length_append] at fits
      rcases List.mem_cons.mp glued with full | rest
      · have lengths := congrArg List.length full
        rw [List.length_take, List.length_append] at lengths
        omega
      · have lengths := congrArg List.length (List.mem_singleton.mp rest)
        rw [List.length_drop, List.length_append] at lengths
        omega
  · exact unlike new

/-- A value that the end of the file would have closed is lost to the new header. -/
theorem append_changes_open_value {sect key value sect' key' text old : Text}
    (legal : LegalEntry sect key value) {content : Text}
    (closed : (scan iniFormat none content).2 = none)
    (joining : readLines sect' key' .seekingSection (fileLines content) = .joining text)
    (found : matchKey key' text = .found old) :
    lookup content sect' key' = .found old ∧
      lookup (content ++ writeLines '\n' [headerLine sect, keyLine key value]) sect' key' ≠
        .found old := by
  have longer := match_key_longer sect found
  have stored : strtrimr (headerLine sect) = headerLine sect := by
    simp [strtrimr, headerLine, sectionPrefix]
  have ended : (headerLine sect).getLast? ≠ some '\\' := by
    rw [header_line_last]
    decide
  constructor
  · rw [lookup, joining, end_of_file_joining, found]
    rfl
  · rw [lookup, lines_appended_closed legal closed, read_lines_append, joining,
      read_lines_cons, read_line_joining]
    simp only [joinLine, stored, if_neg ended, longer]
    split_ifs
    · simp [endOfFile]
    · simp [endOfFile, headerLine]

theorem lines_fit (content : Text) : ∀ line ∈ fileLines content, line.length ≤ maxCfgBuf :=
  fun line inside => is_line_length (file_lines_are_lines content line inside)

/-- No other key of a safe file reads differently after the write. -/
theorem set_keeps_other_keys {sect key value : Text} (legal : LegalEntry sect key value)
    {file : Option Text} {text : Text} (writes : SetkeyWrites sect key value file text)
    (safe : FrameSafe file sect key) {sect' key' : Text} (other : (sect', key') ≠ (sect, key))
    (found : Text) :
    lookup text sect' key' = .found found ↔
      mozartIniGetkey true file sect' key' = (cfgOk, some found) := by
  cases writes with
  | created =>
      have absent : mozartIniGetkey true none sect' key' ≠ (cfgOk, some found) := by
        simp [mozartIniGetkey, mozartIniGetkeyLocked]
      rw [lookup, lines_created legal]
      by_cases same : sect = sect'
      · have distinct : ¬ key = key' := fun equal => other (by rw [same, equal])
        simp [seek_section_header, same, seek_key_key_line legal, distinct, endOfFile, absent]
      · simp [seek_section_header, same, seek_section_key_line legal, endOfFile, absent]
  | appended content missing =>
      simp only [FrameSafe, missing, if_true] at safe
      rw [getkey_ok_iff]
      exact appended_reads_same legal safe other found
  | inserted content missing =>
      have unlike : ¬ cfgKeyNotFound = cfgSectionNotFound := by decide
      have header := header_at_of_key_missing missing
      simp only [FrameSafe, missing, if_neg unlike] at safe
      rw [getkey_ok_iff, lookup, lookup, lines_inserted legal]
      by_cases same : sect' = sect
      · subst same
        have distinct : key' ≠ key := fun equal => other (by rw [equal])
        exact Iff.of_eq (congrArg (· = Phase.found found)
          (inserted_key_same distinct legal (lines_fit content) header safe))
      · exact Iff.of_eq (congrArg (· = Phase.found found)
          (other_section_same same legal (lines_fit content) header safe le_rfl le_rfl))
  | replaced content old present =>
      obtain ⟨header, own, read⟩ := key_at_of_found present
      have after_header := own.after_header
      simp only [FrameSafe, present] at safe
      rw [getkey_ok_iff, lookup, lookup, lines_replaced legal]
      by_cases same : sect' = sect
      · subst same
        have distinct : key' ≠ key := fun equal => other (by rw [equal])
        exact Iff.of_eq (congrArg (· = Phase.found found)
          (replaced_key_same distinct legal (lines_fit content) own read safe))
      · exact Iff.of_eq (congrArg (· = Phase.found found)
          (other_section_same same legal (lines_fit content) header safe (by omega) (by omega)))

theorem set_keeps_other_lines {sect key value : Text} (legal : LegalEntry sect key value)
    {file : Option Text} {text : Text} (writes : SetkeyWrites sect key value file text)
    (safe : FrameSafe file sect key) : (otherLines file sect key).Sublist (fileLines text) := by
  cases writes with
  | created => exact List.nil_sublist _
  | appended content missing =>
      simp only [FrameSafe, missing, if_true] at safe
      rw [lines_appended_closed legal safe.1]
      simp only [otherLines, missing]
      exact List.sublist_append_left _ _
  | inserted content missing =>
      rw [lines_inserted legal]
      simp only [otherLines, missing]
      have parts : fileLines content = toHeader content sect key ++ behindHeader content sect key :=
        (List.take_append_drop _ _).symm
      rw [parts]
      exact (sublist_reread _).append ((sublist_reread _).cons _)
  | replaced content old present =>
      rw [lines_replaced legal]
      simp only [otherLines, present]
      exact (sublist_reread _).append ((sublist_reread _).cons _)

/-- On a safe file a successful write changes no other key and loses no other line. -/
theorem set_keeps_the_rest {sect key value : Text} (legal : LegalEntry sect key value)
    (disk : DiskIO) (file : Option Text)
    (ok : (mozartIniSetkey disk file sect key value).1 = cfgOk)
    (safe : FrameSafe file sect key) :
    (∀ sect' key' found, (sect', key') ≠ (sect, key) →
      (mozartIniGetkey true (mozartIniSetkey disk file sect key value).2 sect' key' =
          (cfgOk, some found) ↔
        mozartIniGetkey true file sect' key' = (cfgOk, some found))) ∧
    (otherLines file sect key).Sublist
      (fileLines ((mozartIniSetkey disk file sect key value).2.getD [])) := by
  obtain ⟨text, after, writes⟩ := setkey_writes ok
  rw [after]
  constructor
  · intro sect' key' found other
    rw [getkey_ok_iff]
    exact set_keeps_other_keys legal writes safe other found
  · exact set_keeps_other_lines legal writes safe

theorem legal_old_entry : LegalEntry ['a'] ['x'] ['1'] := by
  constructor <;> simp [AllPlain, iniFormat, charKind, isBlank, iniComments, sectionPrefix,
    headerLine, keyLine, maxCfgBuf]

def smallFile : Text := writeLines '\n' [headerLine ['a'], keyLine ['x'] ['1']]

theorem small_file_safe : FrameSafe (some smallFile) ['b'] ['k'] := by
  have missing : lookup smallFile ['b'] ['k'] = .failed cfgSectionNotFound := by decide
  simp only [FrameSafe, missing, if_true]
  refine ⟨by decide, ?_⟩
  intro sect' key' _ text
  rw [smallFile, lines_created legal_old_entry, read_lines_cons, read_line_seeking,
    seek_section_header]
  split_ifs
  · rw [read_lines_cons, read_line_seeking_key, seek_key_key_line legal_old_entry]
    split_ifs <;> simp
  · simp [seek_section_key_line legal_old_entry]

theorem set_keeps_a_small_file :
    mozartIniGetkey true (mozartIniSetkey soundDisk (some smallFile) ['b'] ['k'] ['v']).2
      ['a'] ['x'] = (cfgOk, some ['1']) :=
  ((set_keeps_the_rest legal_small_entry soundDisk (some smallFile) (by decide)
    small_file_safe).1 ['a'] ['x'] ['1'] (by decide)).mpr (by decide)

/-- Without a line end behind the last line, the new header ends up in its value. -/
theorem set_changes_the_last_value :
    ¬ ∀ (disk : DiskIO) (file : Option Text) (sect key value : Text),
      LegalEntry sect key value → (mozartIniSetkey disk file sect key value).1 = cfgOk →
        (∀ sect' key' found, (sect', key') ≠ (sect, key) →
          (mozartIniGetkey true (mozartIniSetkey disk file sect key value).2 sect' key' =
              (cfgOk, some found) ↔
            mozartIniGetkey true file sect' key' = (cfgOk, some found))) ∧
        (otherLines file sect key).Sublist
          (fileLines ((mozartIniSetkey disk file sect key value).2.getD [])) := by
  intro always
  have kept := (always soundDisk (some ['[', 'a', ']', '\n', 'x', '=', '1']) ['b'] ['k'] ['v']
    legal_small_entry (by decide)).1 ['a'] ['x'] ['1'] (by decide)
  exact absurd (kept.mpr (by decide)) (by decide)

end Gk7102.Ini
