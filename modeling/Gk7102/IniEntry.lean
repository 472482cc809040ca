import Gk7102.IniReader

/-!
# What `mozart_ini_setkey` writes

An entry that may be written, how its two lines are read, and the lines of the
file after a successful write on each of its paths: a new section behind the old
text, a line behind the header, or a line in the place of the key's own lines.
-/

namespace Gk7102.Ini

open Gk7102.LineReader

set_option autoImplicit false

/-- Names and a value that survive being written on lines of their own. -/
structure LegalEntry (sect key value : Text) : Prop where
  sect_plain : AllPlain iniFormat sect
  key_plain : AllPlain iniFormat key
  value_plain : AllPlain iniFormat value
  key_nonempty : key ≠ []
  key_no_equals : '=' ∉ key
  key_no_mark : ∀ c ∈ key.head?, c ≠ sectionPrefix ∧ c ∉ iniComments
  key_no_blank_first : ∀ c ∈ key.head?, isBlank c = false
  key_no_blank_last : ∀ c ∈ key.getLast?, isBlank c = false
  value_no_blank_first : ∀ c ∈ value.head?, isBlank c = false
  value_no_blank_last : ∀ c ∈ value.getLast?, isBlank c = false
  value_no_continuation : value.getLast? ≠ some '\\'
  header_fits : (headerLine sect).length < maxCfgBuf
  line_fits : (keyLine key value).length < maxCfgBuf

section Trimming

theorem strtrim_solid {buf : Text} (first : buf.head? ≠ some ' ')
    (last : buf.getLast? ≠ some ' ') : strtriml (strtrimr buf) = buf := by
  have left : strtrimr buf = buf := by
    cases buf with
    | nil => rfl
    | cons c rest =>
        have solid : c ≠ ' ' := fun blank => first (by rw [blank]; rfl)
        simp [strtrimr, solid]
  rw [left, strtriml, List.rdropWhile_eq_self_iff]
  intro some_text
  rw [List.getLast?_eq_getLast_of_ne_nil some_text] at last
  simpa using last

/-- Text that ends without a blank loses only what is stripped on the left. -/
theorem strtrim_end {buf : Text} (last : (strtrimr buf).getLast? ≠ some ' ') :
    strtriml (strtrimr buf) = strtrimr buf := by
  rw [strtriml, List.rdropWhile_eq_self_iff]
  intro some_text
  rw [List.getLast?_eq_getLast_of_ne_nil some_text] at last
  simpa using last

theorem strtrimr_append_text {buf text : Text} (some_text : strtrimr buf ≠ []) :
    strtrimr (buf ++ text) = strtrimr buf ++ text := by
  induction buf with
  | nil => exact absurd rfl some_text
  | cons c buf ih =>
      by_cases blank : c = ' '
      · subst blank
        exact ih some_text
      · simp [strtrimr, blank]

theorem strtrimr_append_blank {buf text : Text} (blank : strtrimr buf = []) :
    strtrimr (buf ++ text) = strtrimr text := by
  induction buf with
  | nil => rfl
  | cons c buf ih =>
      by_cases here : c = ' '
      · subst here
        exact ih blank
      · simp [strtrimr, here] at blank

end Trimming

section Entry

variable {sect key value : Text}

theorem key_line_plain (legal : LegalEntry sect key value) :
    AllPlain iniFormat (keyLine key value) := by
  have equals : AllPlain iniFormat ['='] := all_plain_singleton (by decide)
  exact all_plain_append.mpr ⟨legal.key_plain, all_plain_append.mpr ⟨equals, legal.value_plain⟩⟩

theorem header_line_plain (legal : LegalEntry sect key value) :
    AllPlain iniFormat (headerLine sect) := by
  have opening : AllPlain iniFormat [sectionPrefix] := all_plain_singleton (by decide)
  have closing : AllPlain iniFormat [sectionSuffix] := all_plain_singleton (by decide)
  exact all_plain_append.mpr ⟨all_plain_append.mpr ⟨opening, legal.sect_plain⟩, closing⟩

theorem header_line_length (sect : Text) : (headerLine sect).length = sect.length + 2 := by
  simp [headerLine]

theorem header_line_last (sect : Text) : (headerLine sect).getLast? = some sectionSuffix :=
  List.getLast?_concat

theorem strtrim_header (sect : Text) :
    strtriml (strtrimr (headerLine sect)) = headerLine sect := by
  apply strtrim_solid
  · simp [headerLine, sectionPrefix]
  · rw [header_line_last]
    decide

theorem seek_section_header (other sect : Text) :
    seekSection other (headerLine sect) =
      if sect = other then .seekingKey else .seekingSection := by
  have name : (headerLine sect).tail.dropLast = sect := by simp [headerLine]
  have first : (headerLine sect).head? = some sectionPrefix := rfl
  have marked : isSkipped (headerLine sect) = false := rfl
  simp [seekSection, strtrim_header, marked, first, header_line_last, name]

theorem seek_key_header (other sect : Text) :
    seekKey other (headerLine sect) = .failed cfgKeyNotFound := by
  have first : (headerLine sect).head? = some sectionPrefix := rfl
  have marked : isSkipped (headerLine sect) = false := rfl
  simp [seekKey, strtrim_header, marked, first]

theorem key_line_last (legal : LegalEntry sect key value) :
    (keyLine key value).getLast? ≠ some ' ' ∧ (keyLine key value).getLast? ≠ some '\\' := by
  cases value with
  | nil => simp [keyLine]
  | cons c rest =>
      have same : (keyLine key (c :: rest)).getLast? = (c :: rest).getLast? := by
        simp [keyLine, List.getLast?_append, List.getLast?_cons]
      rw [same]
      constructor
      · intro blank
        exact absurd (legal.value_no_blank_last ' ' blank) (by decide)
      · exact legal.value_no_continuation

theorem split_key_line (legal : LegalEntry sect key value) :
    splitKeyValue (keyLine key value) = .ok (key, value) := by
  cases name : key with
  | nil => exact absurd name legal.key_nonempty
  | cons first rest =>
      have solid : isBlank first = false := legal.key_no_blank_first first (by simp [name])
      have no_equals := legal.key_no_equals
      rw [name, List.mem_cons, not_or] at no_equals
      have ⟨here, later⟩ := no_equals
      have stored : ∀ c ∈ rest, (c != '=') = true := by
        intro c inside
        simp only [bne_iff_ne]
        intro same
        exact later (same ▸ inside)
      have begins : value.dropWhile isBlank = value := by
        cases text : value with
        | nil => rfl
        | cons c others =>
            have printed := legal.value_no_blank_first c (by simp [text])
            simp [printed]
      simp only [splitKeyValue, keyLine, List.cons_append, List.dropWhile_cons, solid,
        Bool.false_eq_true, if_false]
      rw [if_neg (Ne.symm here), List.dropWhile_append_of_pos stored,
        List.takeWhile_append_of_pos stored]
      simp [begins]

theorem strtrim_key (legal : LegalEntry sect key value) : strtriml (strtrimr key) = key := by
  apply strtrim_solid
  · intro blank
    exact absurd (legal.key_no_blank_first ' ' blank) (by decide)
  · intro blank
    exact absurd (legal.key_no_blank_last ' ' blank) (by decide)

theorem match_key_line (legal : LegalEntry sect key value) (other : Text) :
    matchKey other (keyLine key value) = if key = other then .found value else .seekingKey := by
  simp only [matchKey, split_key_line legal, strtrim_key legal]

theorem key_line_head (legal : LegalEntry sect key value) :
    ∃ c rest, keyLine key value = c :: rest ∧ isBlank c = false ∧ c ≠ sectionPrefix ∧
      c ∉ iniComments := by
  cases name : key with
  | nil => exact absurd name legal.key_nonempty
  | cons c rest =>
      have inside : c ∈ key.head? := by simp [name]
      have ⟨no_header, no_comment⟩ := legal.key_no_mark c inside
      exact ⟨c, rest ++ '=' :: value, rfl, legal.key_no_blank_first c inside, no_header,
        no_comment⟩

theorem strtrim_key_line (legal : LegalEntry sect key value) :
    strtriml (strtrimr (keyLine key value)) = keyLine key value := by
  obtain ⟨c, rest, line, solid, no_header, no_comment⟩ := key_line_head legal
  apply strtrim_solid
  · rw [line]
    intro blank
    rw [Option.some.inj blank] at solid
    exact absurd solid (by decide)
  · exact (key_line_last legal).1

theorem seek_key_key_line (legal : LegalEntry sect key value) (other : Text) :
    seekKey other (keyLine key value) = if key = other then .found value else .seekingKey := by
  obtain ⟨c, rest, line, solid, no_header, no_comment⟩ := key_line_head legal
  have last := (key_line_last legal).2
  have printed : isSkipped (keyLine key value) = false := by
    rw [line, isSkipped]
    simpa using no_comment
  have inner : (keyLine key value).head? ≠ some sectionPrefix := by
    rw [line]
    exact fun same => no_header (Option.some.inj same)
  simp only [seekKey, strtrim_key_line legal, printed, Bool.false_eq_true, if_false]
  rw [if_neg inner, if_neg last, match_key_line legal]

theorem seek_section_key_line (legal : LegalEntry sect key value) (other : Text) :
    seekSection other (keyLine key value) = .seekingSection := by
  obtain ⟨c, rest, line, solid, no_header, no_comment⟩ := key_line_head legal
  have inner : (keyLine key value).head? ≠ some sectionPrefix := by
    rw [line]
    exact fun same => no_header (Option.some.inj same)
  simp [seekSection, strtrim_key_line legal, inner]

end Entry

/-! ## The outcome of reading a file -/

def lookup (content sect key : Text) : Phase :=
  endOfFile key (readLines sect key .seekingSection (fileLines content))

section Outcome

variable {sect key : Text}

/-- The ways in which a reader that has its section can fail. -/
def ReadFailure (ret : Int) : Prop :=
  ret = cfgKeyNotFound ∨ ret = cfgErrFileFormat ∨ ret = cfgErrExceedBufSize

theorem match_key_failure {text : Text} {ret : Int} (failed : matchKey key text = .failed ret) :
    ReadFailure ret := by
  rcases match_key_cases key text with again | ⟨value, found⟩ | format
  · rw [again] at failed
    exact Phase.noConfusion failed
  · rw [found] at failed
    exact Phase.noConfusion failed
  · rw [format] at failed
    exact Or.inr (Or.inl (Phase.failed.inj failed).symm)

theorem read_line_failure {phase : Phase} (line : Text)
    (earlier : ∀ ret, phase = .failed ret → ReadFailure ret) :
    ∀ ret, readLine sect key phase line = .failed ret → ReadFailure ret := by
  intro ret failed
  cases phase with
  | seekingSection =>
      rcases seek_section_cases sect line with again | entered | format
      · simp [readLine, again] at failed
      · simp [readLine, entered] at failed
      · simp only [readLine, format] at failed
        exact Or.inr (Or.inl (Phase.failed.inj failed).symm)
  | seekingKey =>
      simp only [readLine, seekKey] at failed
      split_ifs at failed
      · exact Or.inl (Phase.failed.inj failed).symm
      · exact match_key_failure failed
  | joining text =>
      simp only [readLine, joinLine] at failed
      split_ifs at failed
      · exact Or.inr (Or.inr (Phase.failed.inj failed).symm)
      · exact Or.inr (Or.inr (Phase.failed.inj failed).symm)
      · exact match_key_failure failed
  | found value => exact Phase.noConfusion failed
  | failed before => exact earlier ret failed

theorem read_lines_failure {phase : Phase} (written : List Text)
    (earlier : ∀ ret, phase = .failed ret → ReadFailure ret) :
    ∀ ret, readLines sect key phase written = .failed ret → ReadFailure ret := by
  induction written generalizing phase with
  | nil => exact earlier
  | cons line written ih => exact ih (read_line_failure line earlier)

theorem lookup_cases (content sect key : Text) :
    (∃ value, lookup content sect key = .found value) ∨
      lookup content sect key = .failed cfgSectionNotFound ∧
        readLines sect key .seekingSection (fileLines content) = .seekingSection ∨
      ∃ ret, lookup content sect key = .failed ret ∧ ReadFailure ret := by
  have failure : ∀ ret, readLines sect key .seekingSection (fileLines content) = .failed ret →
      ReadFailure ret := read_lines_failure (fileLines content) (by simp)
  simp only [lookup]
  cases phase : readLines sect key .seekingSection (fileLines content) with
  | seekingSection => exact Or.inr (Or.inl ⟨rfl, rfl⟩)
  | seekingKey => exact Or.inr (Or.inr ⟨_, rfl, Or.inl rfl⟩)
  | joining text =>
      rw [end_of_file_joining]
      rcases match_key_cases key text with again | ⟨value, found⟩ | format
      · exact Or.inr (Or.inr ⟨_, by rw [again]; rfl, Or.inl rfl⟩)
      · exact Or.inl ⟨value, by rw [found]; rfl⟩
      · exact Or.inr (Or.inr ⟨_, by rw [format]; rfl, Or.inr (Or.inl rfl)⟩)
  | found value => exact Or.inl ⟨value, rfl⟩
  | failed ret => exact Or.inr (Or.inr ⟨ret, rfl, failure ret phase⟩)

theorem section_missing_phase {content : Text}
    (missing : lookup content sect key = .failed cfgSectionNotFound) :
    readLines sect key .seekingSection (fileLines content) = .seekingSection := by
  rcases lookup_cases content sect key with ⟨value, found⟩ | ⟨_, seeking⟩ | ⟨ret, failed, why⟩
  · rw [found] at missing
    exact Phase.noConfusion missing
  · exact seeking
  · rw [failed] at missing
    rw [Phase.failed.inj missing] at why
    rcases why with wrong | wrong | wrong <;> exact absurd wrong (by decide)

theorem getkey_eq_lookup (content sect key : Text) :
    mozartIniGetkey true (some content) sect key = (lookup content sect key).result := by
  simp only [mozartIniGetkey, mozartIniGetkeyLocked, if_true, read_all_phase, lookup]

theorem lookup_result_found (content value : Text) :
    (lookup content sect key).result = (cfgOk, some value) ↔
      lookup content sect key = .found value := by
  rcases lookup_cases content sect key with ⟨other, found⟩ | ⟨failed, _⟩ | ⟨ret, failed, _⟩
  · simp [found, Phase.result]
  · simp [failed, Phase.result]
  · simp [failed, Phase.result]

theorem getkey_ok_iff (content value : Text) :
    mozartIniGetkey true (some content) sect key = (cfgOk, some value) ↔
      lookup content sect key = .found value := by
  rw [getkey_eq_lookup, lookup_result_found]

end Outcome

/-! ## The file after a write -/

def toHeader (content sect key : Text) : List Text :=
  (fileLines content).take (readAll sect key (fileLines content)).sectionLineNo

def behindHeader (content sect key : Text) : List Text :=
  (fileLines content).drop (readAll sect key (fileLines content)).sectionLineNo

def aboveKey (content sect key : Text) : List Text :=
  (fileLines content).take ((readAll sect key (fileLines content)).keyLineNo - 1)

def belowKey (content sect key : Text) : List Text :=
  (fileLines content).drop ((readAll sect key (fileLines content)).keyLineNo - 1 +
    (readAll sect key (fileLines content)).keyLines)

/-- What a successful write makes of the file, by its path. -/
inductive SetkeyWrites (sect key value : Text) : Option Text → Text → Prop where
  | created :
      SetkeyWrites sect key value none
        (writeLines '\n' [headerLine sect, keyLine key value])
  | appended (content : Text) (missing : lookup content sect key = .failed cfgSectionNotFound) :
      SetkeyWrites sect key value (some content)
        (content ++ writeLines '\n' [headerLine sect, keyLine key value])
  | inserted (content : Text) (missing : lookup content sect key = .failed cfgKeyNotFound) :
      SetkeyWrites sect key value (some content)
        (fileCopy (writeLines '\n' (toHeader content sect key) ++
          writeLines '\n' [keyLine key value] ++
          writeLines '\n' (behindHeader content sect key)))
  | replaced (content old : Text) (found : lookup content sect key = .found old) :
      SetkeyWrites sect key value (some content)
        (fileCopy (writeLines '\n' (aboveKey content sect key) ++
          writeLines '\n' [keyLine key value] ++
          writeLines '\n' (belowKey content sect key)))

section Write

variable {sect key value : Text}

theorem getkey_locked_eq (content sect key : Text) :
    mozartIniGetkeyLocked (some content) sect key =
      ((lookup content sect key).result, readAll sect key (fileLines content)) := by
  simp only [mozartIniGetkeyLocked, read_all_phase, lookup]

/-- A write through the temporary file succeeds only when it was copied back. -/
theorem setkey_rewrites {append : AppendIO} {rewrite : RewriteIO} {content : Text}
    (later : (lookup content sect key).result.1 = cfgKeyNotFound ∨
      (lookup content sect key).result.1 = cfgOk)
    (ok : (mozartIniSetkey ⟨true, append, rewrite⟩ (some content) sect key value).1 = cfgOk) :
    ∃ temporary, rewritten content (lookup content sect key).result.1
        (readAll sect key (fileLines content)) key value = some temporary ∧
      (mozartIniSetkey ⟨true, append, rewrite⟩ (some content) sect key value).2 =
        some (fileCopy temporary) := by
  have goes_on : ¬ ((lookup content sect key).result.1 ≤ cfgErr ∧
      (lookup content sect key).result.1 ≠ cfgErrOpenFile) := by
    rcases later with missing | found
    · simp [missing, cfgKeyNotFound, cfgErr]
    · simp [found, cfgOk, cfgErr]
  have has_section : ¬ ((lookup content sect key).result.1 = cfgErrOpenFile ∨
      (lookup content sect key).result.1 = cfgSectionNotFound) := by
    rcases later with missing | found
    · simp [missing, cfgKeyNotFound, cfgErrOpenFile, cfgSectionNotFound]
    · simp [found, cfgOk, cfgErrOpenFile, cfgSectionNotFound]
  simp only [mozartIniSetkey, getkey_locked_eq, if_true, if_neg goes_on, if_neg has_section,
    Option.getD_some] at ok ⊢
  cases rewrite with
  | noTemporary => simp [cfgErrCreateFile, cfgOk] at ok
  | cannotReopen => simp [cfgErrOpenFile, cfgOk] at ok
  | writeFails => simp [cfgErrWriteFile, cfgOk] at ok
  | copyFails left => simp [cfgErrCreateFile, cfgOk] at ok
  | works =>
      cases made : rewritten content (lookup content sect key).result.1
          (readAll sect key (fileLines content)) key value with
      | none =>
          simp [made, cfgErrReadFile, cfgOk] at ok
      | some temporary => exact ⟨temporary, rfl, rfl⟩

theorem setkey_writes {disk : DiskIO} {file : Option Text}
    (ok : (mozartIniSetkey disk file sect key value).1 = cfgOk) :
    ∃ text, (mozartIniSetkey disk file sect key value).2 = some text ∧
      SetkeyWrites sect key value file text := by
  obtain ⟨taken, append, rewrite⟩ := disk
  cases taken with
  | false => exact absurd ok (by simp [mozartIniSetkey, cfgOk])
  | true =>
      cases file with
      | none =>
          cases append with
          | works =>
              refine ⟨_, ?_, .created⟩
              simp [mozartIniSetkey, mozartIniGetkeyLocked, cfgErr, cfgErrOpenFile]
          | cannotOpen => exact absurd ok (by simp [mozartIniSetkey, mozartIniGetkeyLocked,
              cfgErr, cfgErrOpenFile, cfgErrCreateFile, cfgOk])
          | writeFails left => exact absurd ok (by simp [mozartIniSetkey, mozartIniGetkeyLocked,
              cfgErr, cfgErrOpenFile, cfgErrWriteFile, cfgOk])
      | some content =>
          rcases lookup_cases content sect key with ⟨old, found⟩ | ⟨missing, _⟩ | ⟨ret, failed, why⟩
          · have ret : (lookup content sect key).result.1 = cfgOk := by rw [found]; rfl
            obtain ⟨temporary, made, written⟩ := setkey_rewrites (Or.inr ret) ok
            rw [written]
            refine ⟨_, rfl, ?_⟩
            simp only [rewritten, ret] at made
            split_ifs at made
            · exact absurd ‹cfgOk = cfgKeyNotFound› (by decide)
            · rw [← Option.some.inj made]
              exact .replaced content old found
          · cases append with
            | works =>
                refine ⟨_, ?_, .appended content missing⟩
                simp [mozartIniSetkey, getkey_locked_eq, missing, Phase.result, cfgErr,
                  cfgSectionNotFound]
            | cannotOpen => exact absurd ok (by simp [mozartIniSetkey, getkey_locked_eq, missing,
                Phase.result, cfgErr, cfgSectionNotFound, cfgErrCreateFile, cfgOk])
            | writeFails left => exact absurd ok (by simp [mozartIniSetkey, getkey_locked_eq,
                missing, Phase.result, cfgErr, cfgSectionNotFound, cfgErrWriteFile, cfgOk])
          · rcases why with missing | refused | refused
            · have ret : (lookup content sect key).result.1 = cfgKeyNotFound := by
                rw [failed]
                exact missing
              obtain ⟨temporary, made, written⟩ := setkey_rewrites (Or.inl ret) ok
              rw [written]
              refine ⟨_, rfl, ?_⟩
              simp only [rewritten, ret, if_true, Nat.add_zero] at made
              split_ifs at made
              rw [← Option.some.inj made]
              exact .inserted content (by rw [failed, missing])
            · exact absurd ok (by simp [mozartIniSetkey, getkey_locked_eq, failed, refused,
                Phase.result, cfgErr, cfgErrOpenFile, cfgErrFileFormat, cfgOk])
            · exact absurd ok (by simp [mozartIniSetkey, getkey_locked_eq, failed, refused,
                Phase.result, cfgErr, cfgErrOpenFile, cfgErrExceedBufSize, cfgOk])

/-! ## The lines of that file -/

def closedLines (content : Text) : List Text := (scan iniFormat none content).1

def openTail (content : Text) : Text := (scan iniFormat none content).2.getD []

theorem file_lines_eq (content : Text) :
    fileLines content = closedLines content ++ (scan iniFormat none content).2.toList :=
  lines_eq_scan iniFormat content

theorem key_line_is_line (legal : LegalEntry sect key value) :
    IsLine iniFormat (keyLine key value) :=
  .stored _ (key_line_plain legal) legal.line_fits.le

theorem key_line_respaced (legal : LegalEntry sect key value) :
    respace iniFormat (keyLine key value) = [keyLine key value] := by
  simp [respace, self_closing_of_plain (key_line_plain legal) legal.line_fits]

theorem scan_entry (legal : LegalEntry sect key value) {current : Option Text}
    (held : OpenLine iniFormat current) :
    scan iniFormat current (writeLines '\n' [headerLine sect, keyLine key value]) =
      (glue iniFormat (current.getD []) (headerLine sect) ++ [keyLine key value], none) := by
  have split : writeLines '\n' [headerLine sect, keyLine key value] =
      (headerLine sect ++ ['\n']) ++ (keyLine key value ++ ['\n']) := by
    simp [writeLines]
  rw [split, scan_append, scan_glue held (header_line_plain legal) legal.header_fits
    (by simp [headerLine]) (by decide), scan_written (key_line_is_line legal) (by decide),
    key_line_respaced legal]

theorem lines_created (legal : LegalEntry sect key value) :
    fileLines (writeLines '\n' [headerLine sect, keyLine key value]) =
      [headerLine sect, keyLine key value] := by
  have alone : glue iniFormat [] (headerLine sect) = [headerLine sect] := by
    simp only [glue, List.nil_append]
    exact if_pos legal.header_fits
  rw [file_lines_eq, closedLines, scan_entry legal open_none]
  simp [alone]

theorem lines_appended (legal : LegalEntry sect key value) (content : Text) :
    fileLines (content ++ writeLines '\n' [headerLine sect, keyLine key value]) =
      closedLines content ++ glue iniFormat (openTail content) (headerLine sect) ++
        [keyLine key value] := by
  have held := (scan_lines (open_none : OpenLine iniFormat none) content).2
  rw [file_lines_eq, closedLines, scan_append, scan_entry legal held]
  simp [closedLines, openTail]

/-- No line holds a NUL, so copying a file of written lines copies all of it. -/
theorem file_copy_lines {written : List Text} (areLines : ∀ line ∈ written, IsLine iniFormat line) :
    fileCopy (writeLines '\n' written) = writeLines '\n' written := by
  have no_nul : ∀ line, IsLine iniFormat line → '\x00' ∉ line := by
    intro line isLine inside
    cases isLine with
    | stored line plain fits => exact absurd (plain _ inside) (by decide)
    | closed body c plain closes fits =>
        rcases List.mem_append.mp inside with early | late
        · exact absurd (plain _ early) (by decide)
        · rw [← List.mem_singleton.mp late] at closes
          exact absurd closes (by decide)
  have stores : ∀ c, fgetsFormat.kind c = .plain ∨ fgetsFormat.kind c = .closes := by
    intro c
    simp only [fgetsFormat]
    split <;> simp
  have clean : '\x00' ∉ writeLines '\n' written := by
    intro inside
    obtain ⟨line, member, within⟩ := List.mem_flatMap.mp inside
    rcases List.mem_append.mp within with early | late
    · exact no_nul line (areLines line member) early
    · exact absurd (List.mem_singleton.mp late) (by decide)
  have whole : ∀ piece ∈ lines fgetsFormat (writeLines '\n' written),
      piece.takeWhile (· != '\x00') = piece := by
    intro piece member
    rw [List.takeWhile_eq_self_iff]
    intro c inside
    simp only [bne_iff_ne]
    intro nul
    apply clean
    rw [← lines_flatten stores (writeLines '\n' written), ← nul]
    exact List.mem_flatten.mpr ⟨piece, member, inside⟩
  have pieces : fileCopy (writeLines '\n' written) =
      (lines fgetsFormat (writeLines '\n' written)).flatMap id :=
    List.flatMap_congr whole
  rw [pieces, List.flatMap_id, lines_flatten stores]

theorem lines_rewritten (legal : LegalEntry sect key value) {before after : List Text}
    (early : ∀ line ∈ before, IsLine iniFormat line)
    (late : ∀ line ∈ after, IsLine iniFormat line) :
    fileLines (fileCopy (writeLines '\n' before ++ writeLines '\n' [keyLine key value] ++
        writeLines '\n' after)) =
      reread iniFormat before ++ keyLine key value :: reread iniFormat after := by
  have areLines : ∀ line ∈ before ++ [keyLine key value] ++ after, IsLine iniFormat line := by
    intro line inside
    simp only [List.mem_append, List.mem_singleton] at inside
    rcases inside with (first | own) | last
    · exact early line first
    · rw [own]
      exact key_line_is_line legal
    · exact late line last
  rw [← write_lines_append, ← write_lines_append, file_copy_lines areLines, file_lines_eq,
    closedLines, scan_write_lines (by decide) areLines]
  simp [key_line_respaced legal]

theorem file_lines_are_lines (content : Text) :
    ∀ line ∈ fileLines content, IsLine iniFormat line := lines_are_lines content

theorem taken_are_lines (content : Text) (count : Nat) :
    ∀ line ∈ (fileLines content).take count, IsLine iniFormat line := fun line inside =>
  file_lines_are_lines content line (List.mem_of_mem_take inside)

theorem dropped_are_lines (content : Text) (count : Nat) :
    ∀ line ∈ (fileLines content).drop count, IsLine iniFormat line := fun line inside =>
  file_lines_are_lines content line (List.mem_of_mem_drop inside)

theorem lines_inserted (legal : LegalEntry sect key value) (content : Text) :
    fileLines (fileCopy (writeLines '\n' (toHeader content sect key) ++
        writeLines '\n' [keyLine key value] ++
        writeLines '\n' (behindHeader content sect key))) =
      reread iniFormat (toHeader content sect key) ++
        keyLine key value :: reread iniFormat (behindHeader content sect key) :=
  lines_rewritten legal (taken_are_lines content _) (dropped_are_lines content _)

theorem lines_replaced (legal : LegalEntry sect key value) (content : Text) :
    fileLines (fileCopy (writeLines '\n' (aboveKey content sect key) ++
        writeLines '\n' [keyLine key value] ++
        writeLines '\n' (belowKey content sect key))) =
      reread iniFormat (aboveKey content sect key) ++
        keyLine key value :: reread iniFormat (belowKey content sect key) :=
  lines_rewritten legal (taken_are_lines content _) (dropped_are_lines content _)

end Write

end Gk7102.Ini
