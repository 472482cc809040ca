import Gk7102.IniEntry

/-!
# Reading a key back after setting it

A line put behind the section's header reads back always. A new section reads
back when it starts on a line of its own. A key that is set in its old place
reads back when the values above it are still whole after the rewriting.
-/

namespace Gk7102.Ini

open Gk7102.LineReader

set_option autoImplicit false

/-- The open line and the header are cut where the buffer is full. The pieces
may, by coincidence, be a header of this section and a line that hides no key. -/
def CutReadsBack (content sect key value : Text) : Prop :=
  let whole := openTail content ++ headerLine sect
  maxCfgBuf < whole.length ∧ seekSection sect (whole.take maxCfgBuf) = .seekingKey ∧
    (seekKey key (whole.drop maxCfgBuf) = .seekingKey ∨
      seekKey key (whole.drop maxCfgBuf) = .found value)

/-- Only blanks stand before the new header, and the line is not cut. -/
def AppendReadsBack (content sect key value : Text) : Prop :=
  strtrimr (openTail content) = [] ∧
      (openTail content ++ headerLine sect).length ≤ maxCfgBuf ∨
    CutReadsBack content sect key value

/-- The new line was taken for the rest of a value. Unless that gives the value
by chance, a later line may hold it. -/
def JoinReadsBack (content sect key value : Text) : Phase → Prop
  | .found other => other = value
  | .seekingKey =>
      endOfFile key (readLines sect key .seekingKey
        (reread iniFormat (belowKey content sect key))) = .found value
  | _ => False

/-- Where the reader has come to behind the rewritten lines above the key. -/
def PhaseReadsBack (content sect key value : Text) : Phase → Prop
  | .seekingKey => True
  | .found other => other = value
  | .joining text => JoinReadsBack content sect key value (joinLine key text (keyLine key value))
  | _ => False

def ReplaceReadsBack (content sect key value : Text) : Prop :=
  PhaseReadsBack content sect key value
    (readLines sect key .seekingSection (reread iniFormat (aboveKey content sect key)))

def ReadsBack (file : Option Text) (sect key value : Text) : Prop :=
  match file with
  | none => True
  | some content =>
      match lookup content sect key with
      | .found _ => ReplaceReadsBack content sect key value
      | .failed ret => ret = cfgSectionNotFound → AppendReadsBack content sect key value
      | _ => True

section Appended

variable {sect key value : Text}

theorem seek_section_entered {line : Text} (entered : seekSection sect line = .seekingKey) :
    (strtriml (strtrimr line)).head? = some sectionPrefix ∧
      (strtriml (strtrimr line)).tail.dropLast = sect := by
  simp only [seekSection] at entered
  split_ifs at entered with skipped format header
  exact header

theorem strtrimr_last {line : Text} {c : Char} (last : line.getLast? = some c)
    (solid : c ≠ ' ') : (strtrimr line).getLast? = some c := by
  obtain ⟨front, rfl⟩ : ∃ front, line = front ++ [c] := List.getLast?_eq_some_iff.mp last
  rw [strtrimr, List.dropWhile_append]
  split
  · simp [solid]
  · exact List.getLast?_concat

theorem glued_last (held sect : Text) :
    (held ++ headerLine sect).getLast? = some sectionSuffix := by
  rw [List.getLast?_append, header_line_last]
  rfl

/-- A header behind text is longer than the section's own. -/
theorem glued_header_missed {held : Text} (has_text : strtrimr held ≠ []) :
    seekSection sect (held ++ headerLine sect) ≠ .seekingKey := by
  intro entered
  have trimmed : strtriml (strtrimr (held ++ headerLine sect)) =
      strtrimr held ++ headerLine sect := by
    rw [← strtrimr_append_text has_text]
    apply strtrim_end
    rw [strtrimr_last (glued_last held sect) (by decide)]
    decide
  have name := (seek_section_entered entered).2
  have lengths := congrArg List.length name
  rw [trimmed] at lengths
  simp only [List.length_dropLast, List.length_tail, List.length_append,
    header_line_length] at lengths
  exact has_text (List.eq_nil_of_length_eq_zero (by omega))

theorem blank_header_entered {held : Text} (blank : strtrimr held = []) :
    seekSection sect (held ++ headerLine sect) = .seekingKey := by
  have whole : strtrimr (held ++ headerLine sect) = strtrimr (headerLine sect) :=
    strtrimr_append_blank blank
  have alone := seek_section_header sect sect
  simp only [seekSection, if_true] at alone ⊢
  rw [whole]
  exact alone

theorem cut_piece_last {held : Text} (cut : maxCfgBuf < (held ++ headerLine sect).length) :
    ((held ++ headerLine sect).drop maxCfgBuf).getLast? = some sectionSuffix := by
  rw [List.getLast?_drop, if_neg (by omega), glued_last]

/-- What is cut off is too short to be the section's header. -/
theorem cut_piece_missed {held : Text} (short : held.length < maxCfgBuf)
    (cut : maxCfgBuf < (held ++ headerLine sect).length) :
    seekSection sect ((held ++ headerLine sect).drop maxCfgBuf) ≠ .seekingKey := by
  intro entered
  have ⟨first, name⟩ := seek_section_entered entered
  have last := strtrimr_last (cut_piece_last cut) (by decide)
  have trimmed : strtriml (strtrimr ((held ++ headerLine sect).drop maxCfgBuf)) =
      strtrimr ((held ++ headerLine sect).drop maxCfgBuf) := strtrim_end (by rw [last]; decide)
  rw [trimmed] at first name
  have left := strtrimr_length ((held ++ headerLine sect).drop maxCfgBuf)
  have lengths := congrArg List.length name
  simp only [List.length_drop, List.length_dropLast, List.length_tail, List.length_append,
    header_line_length] at left lengths
  -- the section has no name, and one character is left of its header
  cases rest : strtrimr ((held ++ headerLine sect).drop maxCfgBuf) with
  | nil => simp [rest] at first
  | cons c more =>
      have alone : more = [] := by
        simp only [rest, List.length_cons] at left lengths
        exact List.eq_nil_of_length_eq_zero (by omega)
      rw [rest, alone] at first last
      simp only [List.head?_cons, List.getLast?_singleton, Option.some.injEq] at first last
      rw [first] at last
      exact absurd last (by decide)

theorem cut_piece_not_joined {held : Text} (cut : maxCfgBuf < (held ++ headerLine sect).length)
    (text : Text) :
    seekKey key ((held ++ headerLine sect).drop maxCfgBuf) ≠ .joining text := by
  intro joined
  have last := strtrimr_last (cut_piece_last cut) (by decide)
  have trimmed : strtriml (strtrimr ((held ++ headerLine sect).drop maxCfgBuf)) =
      strtrimr ((held ++ headerLine sect).drop maxCfgBuf) := strtrim_end (by rw [last]; decide)
  simp only [seekKey, trimmed, last] at joined
  split_ifs at joined with skipped header continued
  · exact absurd continued (by decide)
  · exact match_key_outside _ _ _ joined

theorem key_line_after {phase : Phase} (legal : LegalEntry sect key value)
    (outside : ∀ text, phase ≠ .joining text) :
    endOfFile key (readLine sect key phase (keyLine key value)) = .found value ↔
      phase = .seekingKey ∨ phase = .found value := by
  cases phase with
  | seekingSection => simp [readLine, seek_section_key_line legal, endOfFile]
  | seekingKey => simp [readLine, seek_key_key_line legal, endOfFile]
  | joining text => exact absurd rfl (outside text)
  | found other => simp [readLine, endOfFile]
  | failed ret => simp [readLine, endOfFile]

theorem glue_fits {held : Text} (fits : (held ++ headerLine sect).length ≤ maxCfgBuf) :
    readLines sect key .seekingSection (glue iniFormat held (headerLine sect)) =
      seekSection sect (held ++ headerLine sect) := by
  have limit : iniFormat.limit = maxCfgBuf := rfl
  simp only [glue, limit]
  split
  · rfl
  · have full : (held ++ headerLine sect).length = maxCfgBuf := by omega
    rw [← full, List.take_length, List.drop_length, read_lines_cons, read_lines_cons,
      read_lines_nil]
    exact read_blank rfl (seek_section_outside sect _)

theorem glue_cut {held : Text} (cut : maxCfgBuf < (held ++ headerLine sect).length) :
    glue iniFormat held (headerLine sect) =
      [(held ++ headerLine sect).take maxCfgBuf, (held ++ headerLine sect).drop maxCfgBuf] := by
  have limit : iniFormat.limit = maxCfgBuf := rfl
  simp only [glue, limit]
  exact if_neg (by omega)

theorem append_uncut_iff (legal : LegalEntry sect key value) {content : Text}
    (fits : (openTail content ++ headerLine sect).length ≤ maxCfgBuf) :
    endOfFile key (readLine sect key
        (readLines sect key .seekingSection (glue iniFormat (openTail content) (headerLine sect)))
        (keyLine key value)) = .found value ↔
      AppendReadsBack content sect key value := by
  have uncut : ¬ CutReadsBack content sect key value := fun cut => absurd cut.1 (by omega)
  rw [glue_fits fits, key_line_after legal (seek_section_outside sect _)]
  simp only [AppendReadsBack, uncut, or_false, fits, and_true]
  by_cases blank : strtrimr (openTail content) = []
  · simp [blank_header_entered blank, blank]
  · have missed : seekSection sect (openTail content ++ headerLine sect) ≠ .seekingKey :=
      glued_header_missed blank
    rcases seek_section_cases sect (openTail content ++ headerLine sect) with
      again | entered | failed
    · simp [again, blank]
    · exact absurd entered missed
    · simp [failed, blank]

theorem append_cut_iff (legal : LegalEntry sect key value) {content : Text}
    (short : (openTail content).length < maxCfgBuf)
    (cut : maxCfgBuf < (openTail content ++ headerLine sect).length) :
    endOfFile key (readLine sect key
        (readLines sect key .seekingSection (glue iniFormat (openTail content) (headerLine sect)))
        (keyLine key value)) = .found value ↔
      AppendReadsBack content sect key value := by
  have unfit : ¬ (strtrimr (openTail content) = [] ∧
      (openTail content ++ headerLine sect).length ≤ maxCfgBuf) := fun both =>
    absurd both.2 (by omega)
  simp only [AppendReadsBack, unfit, false_or, CutReadsBack, cut, true_and, glue_cut cut,
    read_lines_cons, read_lines_nil, read_line_seeking]
  rcases seek_section_cases sect ((openTail content ++ headerLine sect).take maxCfgBuf) with
    again | entered | failed
  · have missed := cut_piece_missed short cut
    rw [again, read_line_seeking, key_line_after legal (seek_section_outside sect _)]
    rcases seek_section_cases sect ((openTail content ++ headerLine sect).drop maxCfgBuf) with
      more | entered | failed
    · simp [more]
    · exact absurd entered missed
    · simp [failed]
  · rw [entered, read_line_seeking_key, key_line_after legal (cut_piece_not_joined cut)]
    simp
  · rw [failed]
    simp [endOfFile]

theorem append_reads_back_iff (legal : LegalEntry sect key value) {content : Text}
    (missing : lookup content sect key = .failed cfgSectionNotFound) :
    lookup (content ++ writeLines '\n' [headerLine sect, keyLine key value]) sect key =
        .found value ↔
      AppendReadsBack content sect key value := by
  have seeking := section_missing_phase missing
  rw [file_lines_eq, read_lines_append] at seeking
  have above := read_lines_seeking_section seeking
  have short : (openTail content).length < maxCfgBuf :=
    (scan_lines (open_none : OpenLine iniFormat none) content).2.2
  rw [lookup, lines_appended legal, read_lines_append, read_lines_append, above,
    read_lines_cons, read_lines_nil]
  by_cases fits : (openTail content ++ headerLine sect).length ≤ maxCfgBuf
  · exact append_uncut_iff legal fits
  · exact append_cut_iff legal short (by omega)

end Appended

section Rewritten

variable {sect key value : Text}

theorem inserted_reads_back (legal : LegalEntry sect key value) {content : Text}
    (missing : lookup content sect key = .failed cfgKeyNotFound) :
    lookup (fileCopy (writeLines '\n' (toHeader content sect key) ++
        writeLines '\n' [keyLine key value] ++
        writeLines '\n' (behindHeader content sect key))) sect key = .found value := by
  have entered := reread_entered (header_at_of_key_missing missing)
  rw [lookup, lines_inserted legal, read_lines_append, toHeader, entered, read_lines_cons,
    read_line_seeking_key, seek_key_key_line legal, if_pos rfl, read_lines_found]
  rfl

theorem reread_above_entered {written : List Text} {headerNo count : Nat}
    (header : HeaderAt sect key written headerNo) (later : headerNo ≤ count) :
    readLines sect key .seekingSection (reread iniFormat (written.take count)) ≠
      .seekingSection := by
  intro seeking
  obtain ⟨more, rfl⟩ := Nat.exists_eq_add_of_le later
  rw [List.take_add, reread_append, read_lines_append, reread_entered header] at seeking
  exact absurd (read_lines_seeking_section seeking) (by simp)

theorem join_key_line_not_joined (legal : LegalEntry sect key value) (text other : Text) :
    joinLine key text (keyLine key value) ≠ .joining other := by
  obtain ⟨c, rest, line, solid, _, _⟩ := key_line_head legal
  have blank : c ≠ ' ' := by
    intro same
    rw [same] at solid
    exact absurd solid (by decide)
  have stored : strtrimr (keyLine key value) = keyLine key value := by
    rw [line]
    simp [strtrimr, blank]
  intro joined
  simp only [joinLine, stored] at joined
  rw [if_neg (key_line_last legal).2] at joined
  split_ifs at joined
  exact match_key_outside _ _ _ joined

theorem replaced_reads_back_iff (legal : LegalEntry sect key value) {content old : Text}
    (found : lookup content sect key = .found old) :
    lookup (fileCopy (writeLines '\n' (aboveKey content sect key) ++
        writeLines '\n' [keyLine key value] ++
        writeLines '\n' (belowKey content sect key))) sect key = .found value ↔
      ReplaceReadsBack content sect key value := by
  have ⟨header, own, _⟩ := key_at_of_found found
  have entered := reread_above_entered header (Nat.le_sub_one_of_lt own.after_header)
  change readLines sect key .seekingSection (reread iniFormat (aboveKey content sect key)) ≠ _
    at entered
  rw [lookup, lines_replaced legal, read_lines_append, read_lines_cons, ReplaceReadsBack]
  cases phase : readLines sect key .seekingSection
      (reread iniFormat (aboveKey content sect key)) with
  | seekingSection => exact absurd phase entered
  | seekingKey =>
      rw [read_line_seeking_key, seek_key_key_line legal, if_pos rfl, read_lines_found]
      exact ⟨fun _ => trivial, fun _ => rfl⟩
  | joining text =>
      rw [read_line_joining, PhaseReadsBack]
      cases joined : joinLine key text (keyLine key value) with
      | seekingSection => exact absurd joined (join_line_not_section key text _)
      | seekingKey => exact Iff.rfl
      | joining other => exact absurd joined (join_key_line_not_joined legal text other)
      | found other => simp [endOfFile, JoinReadsBack]
      | failed ret => simp [endOfFile, JoinReadsBack]
  | found other => simp [endOfFile, PhaseReadsBack]
  | failed ret => simp [endOfFile, PhaseReadsBack]

theorem replaced_reads_back_of_whole_values {content old : Text}
    (found : lookup content sect key = .found old)
    (whole : WholeValues sect key .seekingSection (aboveKey content sect key)) :
    ReplaceReadsBack content sect key value := by
  have ⟨_, own, _⟩ := key_at_of_found found
  have before : readLines sect key .seekingSection (aboveKey content sect key) = .seekingKey :=
    own.before
  have fit : ∀ line ∈ aboveKey content sect key, line.length ≤ maxCfgBuf := fun line inside =>
    is_line_length (taken_are_lines content _ line inside)
  have aligned := reread_aligned (.same .seekingSection) fit whole
  rw [before] at aligned
  rw [ReplaceReadsBack, aligned_outside aligned (by simp)]
  exact trivial

end Rewritten

/-- After a successful write the key reads back as the value exactly when the
new section starts on its own line, or the key's old place is still where the
reader comes to it. -/
theorem set_then_get_iff {sect key value : Text} (legal : LegalEntry sect key value)
    (disk : DiskIO) (file : Option Text)
    (ok : (mozartIniSetkey disk file sect key value).1 = cfgOk) :
    mozartIniGetkey true (mozartIniSetkey disk file sect key value).2 sect key =
        (cfgOk, some value) ↔
      ReadsBack file sect key value := by
  obtain ⟨text, after, writes⟩ := setkey_writes ok
  rw [after, getkey_ok_iff]
  cases writes with
  | created =>
      have read : lookup (writeLines '\n' [headerLine sect, keyLine key value]) sect key =
          .found value := by
        rw [lookup, lines_created legal, read_lines_cons, read_line_seeking,
          seek_section_header, if_pos rfl, read_lines_cons, read_line_seeking_key,
          seek_key_key_line legal, if_pos rfl]
        rfl
      exact ⟨fun _ => trivial, fun _ => read⟩
  | appended content missing =>
      simp only [ReadsBack, missing, true_implies]
      exact append_reads_back_iff legal missing
  | inserted content missing =>
      have other : ¬ cfgKeyNotFound = cfgSectionNotFound := by decide
      simp only [ReadsBack, missing, other, false_implies, iff_true]
      exact inserted_reads_back legal missing
  | replaced content old found =>
      simp only [ReadsBack, found]
      exact replaced_reads_back_iff legal found

theorem legal_small_entry : LegalEntry ['b'] ['k'] ['v'] := by
  constructor <;> simp [AllPlain, iniFormat, charKind, isBlank, iniComments, sectionPrefix,
    headerLine, keyLine, maxCfgBuf]

def soundDisk : DiskIO := ⟨true, .works, .works⟩

/-- A comment, another section, and a continued value above the key. -/
def continuedFile : Text :=
  ['#', 'c', '\n', '[', 'a', ']', '\n', 'k', '=', '1', '\n', '[', 'b', ']', '\n',
    'y', '=', '2', '\\', '\n', '3', '\n', 'k', '=', 'o', '\n']

theorem continued_file_reads_back : ReadsBack (some continuedFile) ['b'] ['k'] ['v'] := by
  have found : lookup continuedFile ['b'] ['k'] = .found ['o'] := by decide +kernel
  simp only [ReadsBack, found]
  have phase : readLines ['b'] ['k'] .seekingSection
      (reread iniFormat (aboveKey continuedFile ['b'] ['k'])) = .seekingKey := by decide +kernel
  rw [ReplaceReadsBack, phase]
  exact trivial

theorem set_then_get_new_and_old_key :
    mozartIniGetkey true (mozartIniSetkey soundDisk none ['b'] ['k'] ['v']).2 ['b'] ['k'] =
        (cfgOk, some ['v']) ∧
      mozartIniGetkey true (mozartIniSetkey soundDisk (some continuedFile) ['b'] ['k'] ['v']).2
        ['b'] ['k'] = (cfgOk, some ['v']) := by
  constructor
  · exact (set_then_get_iff legal_small_entry soundDisk none (by decide)).mpr trivial
  · apply (set_then_get_iff legal_small_entry soundDisk (some continuedFile) _).mpr
    · exact continued_file_reads_back
    · decide +kernel

/-- Without a line end behind the last line, the new header becomes a part of it. -/
theorem set_then_get_loses_the_section :
    ¬ ∀ (disk : DiskIO) (file : Option Text) (sect key value : Text),
      LegalEntry sect key value → (mozartIniSetkey disk file sect key value).1 = cfgOk →
        mozartIniGetkey true (mozartIniSetkey disk file sect key value).2 sect key =
          (cfgOk, some value) := by
  intro always
  have read := always soundDisk (some ['[', 'a', ']', '\n', 'x', '=', '1']) ['b'] ['k'] ['v']
    legal_small_entry (by decide)
  exact absurd read (by decide)

end Gk7102.Ini
