import Gk7102.IniFrame

/-!
# Setting a key twice

What a key is set to last should be all that is left of it in the file. The lines
of the key are replaced in their place, and every other line is written back, once
more for each call: a line that was closed without an end gains an empty line.
-/

namespace Gk7102.Ini

open Gk7102.LineReader

set_option autoImplicit false

/-- The file behind a call on a disk where everything works. -/
def fileAfter (file : Option Text) (sect key value : Text) : Option Text :=
  (mozartIniSetkey soundDisk file sect key value).2

/-- The value set last is the only one that shows, and setting it again shows nothing. -/
def LastWriteWins (file : Option Text) (sect key first last : Text) : Prop :=
  fileAfter (fileAfter file sect key first) sect key last = fileAfter file sect key last ∧
    fileAfter (fileAfter file sect key last) sect key last = fileAfter file sect key last

def keptLines (content sect key : Text) : List Text :=
  aboveKey content sect key ++ belowKey content sect key

/-- Every line that is kept ends with its line end: none fills the buffer, and none is
closed by a form feed or by 0x1A. -/
def KeptLinesEnd (content sect key : Text) : Prop :=
  ∀ line ∈ keptLines content sect key, selfClosing iniFormat line = false

def rewrittenLines (content sect key value : Text) : List Text :=
  reread iniFormat (aboveKey content sect key) ++
    keyLine key value :: reread iniFormat (belowKey content sect key)

/-- The rewritten file cannot be read: a line of it is malformed or too long. -/
def RewrittenRefused (content sect key value : Text) : Prop :=
  ∃ ret, endOfFile key
      (readLines sect key .seekingSection (rewrittenLines content sect key value)) = .failed ret ∧
    ret ≠ cfgKeyNotFound

/-! ## The file after one call -/

section After

variable {sect key value : Text}

theorem file_line_no_newline {line : Text} (isLine : IsLine iniFormat line) : '\n' ∉ line := by
  intro inside
  cases isLine with
  | stored line plain fits => exact absurd (plain _ inside) (by decide)
  | closed body c plain closes fits =>
      rcases List.mem_append.mp inside with early | late
      · exact absurd (plain _ early) (by decide)
      · rw [← List.mem_singleton.mp late] at closes
        exact absurd closes (by decide)

def writtenLines (before : List Text) (key value : Text) (after : List Text) : List Text :=
  before ++ keyLine key value :: after

theorem written_are_lines (legal : LegalEntry sect key value) {before after : List Text}
    (early : ∀ line ∈ before, IsLine iniFormat line)
    (late : ∀ line ∈ after, IsLine iniFormat line) :
    ∀ line ∈ writtenLines before key value after, IsLine iniFormat line := by
  intro line inside
  rcases List.mem_append.mp inside with first | later
  · exact early line first
  · rcases List.mem_cons.mp later with own | last
    · rw [own]
      exact key_line_is_line legal
    · exact late line last

theorem written_lines_unique {last : Text} (legal : LegalEntry sect key value)
    (legalLast : LegalEntry sect key last) {before after front rest : List Text}
    (early : ∀ line ∈ before, IsLine iniFormat line)
    (late : ∀ line ∈ after, IsLine iniFormat line)
    (earlyLast : ∀ line ∈ front, IsLine iniFormat line)
    (lateLast : ∀ line ∈ rest, IsLine iniFormat line)
    (same : writeLines '\n' (writtenLines before key value after) =
      writeLines '\n' (writtenLines front key last rest)) :
    writtenLines before key value after = writtenLines front key last rest := by
  apply write_lines_injective _ _ same
  · intro line inside
    exact file_line_no_newline (written_are_lines legal early late line inside)
  · intro line inside
    exact file_line_no_newline (written_are_lines legalLast earlyLast lateLast line inside)

theorem copied_whole (legal : LegalEntry sect key value) {before after : List Text}
    (early : ∀ line ∈ before, IsLine iniFormat line)
    (late : ∀ line ∈ after, IsLine iniFormat line) :
    fileCopy (writeLines '\n' before ++ writeLines '\n' [keyLine key value] ++
        writeLines '\n' after) =
      writeLines '\n' (writtenLines before key value after) := by
  rw [← write_lines_append, ← write_lines_append, List.append_assoc, List.singleton_append]
  exact file_copy_lines (written_are_lines legal early late)

theorem sound_rewrite_ok {content : Text} {ret : Int}
    (code : (lookup content sect key).result.1 = ret)
    (rewrites : ret = cfgKeyNotFound ∨ ret = cfgOk)
    (room : (rewritten content ret (readAll sect key (fileLines content)) key value).isSome) :
    (mozartIniSetkey soundDisk (some content) sect key value).1 = cfgOk := by
  obtain ⟨temporary, made⟩ := Option.isSome_iff_exists.mp room
  have goes_on : ¬ (ret ≤ cfgErr ∧ ret ≠ cfgErrOpenFile) := by
    rcases rewrites with rfl | rfl <;> decide
  have has_section : ¬ (ret = cfgErrOpenFile ∨ ret = cfgSectionNotFound) := by
    rcases rewrites with rfl | rfl <;> decide
  simp only [mozartIniSetkey, soundDisk, getkey_locked_eq, code, if_true, if_neg goes_on,
    if_neg has_section, Option.getD_some, made]

theorem after_replaced (legal : LegalEntry sect key value) {content old : Text}
    (found : lookup content sect key = .found old) :
    fileAfter (some content) sect key value =
      some (writeLines '\n'
        (writtenLines (aboveKey content sect key) key value (belowKey content sect key))) := by
  have ⟨_, own, _⟩ := key_at_of_found found
  have within := own.within
  have ok : (mozartIniSetkey soundDisk (some content) sect key value).1 = cfgOk := by
    apply sound_rewrite_ok (by rw [found]; rfl) (.inr rfl)
    have present : ¬ cfgOk = cfgKeyNotFound := by decide
    simp only [rewritten, if_neg present]
    rw [if_neg (by omega)]
    rfl
  obtain ⟨text, after, writes⟩ := setkey_writes ok
  rw [fileAfter, after]
  cases writes with
  | appended content missing =>
      rw [found] at missing
      cases missing
  | inserted content missing =>
      rw [found] at missing
      cases missing
  | replaced content other again =>
      exact congrArg some
        (copied_whole legal (taken_are_lines content _) (dropped_are_lines content _))

theorem after_inserted (legal : LegalEntry sect key value) {content : Text}
    (missing : lookup content sect key = .failed cfgKeyNotFound) :
    fileAfter (some content) sect key value =
      some (writeLines '\n'
        (writtenLines (toHeader content sect key) key value (behindHeader content sect key))) := by
  have within := (header_at_of_key_missing missing).within
  have ok : (mozartIniSetkey soundDisk (some content) sect key value).1 = cfgOk := by
    apply sound_rewrite_ok (by rw [missing]; rfl) (.inl rfl)
    simp only [rewritten, if_true, Nat.add_zero]
    rw [if_neg (by omega)]
    rfl
  obtain ⟨text, after, writes⟩ := setkey_writes ok
  rw [fileAfter, after]
  cases writes with
  | appended content gone =>
      rw [missing] at gone
      cases gone
  | inserted content again =>
      exact congrArg some
        (copied_whole legal (taken_are_lines content _) (dropped_are_lines content _))
  | replaced content old found =>
      rw [missing] at found
      cases found

theorem after_refused {content : Text} {ret : Int}
    (failed : lookup content sect key = .failed ret)
    (refused : ret = cfgErrFileFormat ∨ ret = cfgErrExceedBufSize) :
    fileAfter (some content) sect key value = some content := by
  rw [fileAfter, soundDisk]
  rcases refused with rfl | rfl
  · simp [mozartIniSetkey, getkey_locked_eq, failed, Phase.result, cfgErr, cfgErrOpenFile,
      cfgErrFileFormat]
  · simp [mozartIniSetkey, getkey_locked_eq, failed, Phase.result, cfgErr, cfgErrOpenFile,
      cfgErrExceedBufSize]

end After

/-! ## Reading the rewritten file -/

section Rewritten

variable {sect key value : Text} {content old : Text}

theorem rewritten_file_lines (legal : LegalEntry sect key value) :
    fileLines (writeLines '\n'
        (writtenLines (aboveKey content sect key) key value (belowKey content sect key))) =
      rewrittenLines content sect key value := by
  have copied := @copied_whole sect key value legal (aboveKey content sect key)
    (belowKey content sect key) (taken_are_lines content _) (dropped_are_lines content _)
  rw [← copied, lines_replaced legal content, rewrittenLines]

def ownLines (content sect key : Text) : List Text :=
  ((fileLines content).drop ((readAll sect key (fileLines content)).keyLineNo - 1)).take
    (readAll sect key (fileLines content)).keyLines

theorem own_lines_perm (content sect key : Text) :
    (fileLines content).Perm (ownLines content sect key ++ keptLines content sect key) := by
  have whole : fileLines content = aboveKey content sect key ++
      (ownLines content sect key ++ belowKey content sect key) := by
    rw [aboveKey, belowKey, ownLines, ← List.drop_drop, List.take_append_drop,
      List.take_append_drop]
  conv_lhs => rw [whole]
  exact List.perm_append_comm_assoc _ _ _

theorem own_lines_length (found : lookup content sect key = .found old) :
    (ownLines content sect key).length = (readAll sect key (fileLines content)).keyLines := by
  have ⟨_, own, _⟩ := key_at_of_found found
  have within := own.within
  rw [ownLines, List.length_take, List.length_drop]
  omega

/-- A key line neither starts with an empty line nor goes on behind a whole key line. -/
theorem own_lines_of_few {written : List Text} {headerNo keyNo count : Nat}
    (legal : LegalEntry sect key value) (own : KeyAt sect key written headerNo keyNo count)
    (few : ∀ line ∈ (written.drop (keyNo - 1)).take count, line = keyLine key value ∨ line = []) :
    count = 1 := by
  have within := own.within
  have some := own.positive
  have inside : keyNo - 1 < written.length := by omega
  have member : written[keyNo - 1] ∈ (written.drop (keyNo - 1)).take count := by
    rw [List.drop_eq_getElem_cons inside]
    obtain ⟨more, rfl⟩ : ∃ more, count = more + 1 := ⟨count - 1, by omega⟩
    rw [List.take_succ_cons]
    exact List.mem_cons_self
  have next := @phase_at_succ sect key written (keyNo - 1) inside
  rw [own.before] at next
  by_contra several
  obtain ⟨text, joined⟩ := own.joined 1 (by omega) (by omega)
  rcases few _ member with line | blank
  · rw [line, read_line_seeking_key, seek_key_key_line legal, if_pos rfl, joined] at next
    cases next
  · rw [blank, read_blank rfl (by simp), joined] at next
    cases next

/-- Rewritten lines are the old ones in some order, and an empty one for each that did
not end. -/
theorem rewritten_lines_perm (content sect key value : Text) :
    (rewrittenLines content sect key value).Perm
      (keyLine key value ::
          List.replicate ((keptLines content sect key).countP (selfClosing iniFormat ·)) [] ++
        keptLines content sect key) := by
  have front : (rewrittenLines content sect key value).Perm
      (keyLine key value :: reread iniFormat (keptLines content sect key)) := by
    rw [keptLines, reread_append]
    exact List.perm_middle
  apply front.trans
  rw [List.cons_append]
  exact ((reread_perm _).trans List.perm_append_comm).cons _

theorem kept_lines_end_of_found (legal : LegalEntry sect key value) {last : Text}
    (legalLast : LegalEntry sect key last)
    (found : lookup (writeLines '\n'
      (writtenLines (aboveKey content sect key) key value (belowKey content sect key))) sect key =
        .found old)
    (same : fileAfter (some (writeLines '\n' (writtenLines (aboveKey content sect key) key value
        (belowKey content sect key)))) sect key last =
      some (writeLines '\n'
        (writtenLines (aboveKey content sect key) key last (belowKey content sect key)))) :
    KeptLinesEnd content sect key := by
  rw [after_replaced legalLast found, Option.some.injEq] at same
  have lines := @rewritten_file_lines sect key value content legal
  generalize writeLines '\n' (writtenLines (aboveKey content sect key) key value
    (belowKey content sect key)) = middle at found same lines
  have written : aboveKey middle sect key ++ keyLine key last :: belowKey middle sect key =
      aboveKey content sect key ++ keyLine key last :: belowKey content sect key :=
    written_lines_unique legalLast legalLast (taken_are_lines middle _)
      (dropped_are_lines middle _) (taken_are_lines content _) (dropped_are_lines content _) same
  -- leaving out the line of the last value, the lines kept are the same twice
  have kept : (keptLines middle sect key).Perm (keptLines content sect key) := by
    apply (List.perm_cons (keyLine key last)).mp
    apply List.perm_middle.symm.trans
    rw [written]
    exact List.perm_middle
  have ⟨_, own, _⟩ := key_at_of_found found
  have ordered := rewritten_lines_perm content sect key value
  rw [← lines] at ordered
  have split := own_lines_perm middle sect key
  have ownOnly := (List.perm_append_right_iff _).mp
    ((kept.symm.append_left _).trans (split.symm.trans ordered))
  have few : (readAll sect key (fileLines middle)).keyLines = 1 := by
    apply own_lines_of_few legal own
    intro line inside
    rcases List.mem_cons.mp (ownOnly.mem_iff.mp inside) with here | blank
    · exact .inl here
    · exact .inr (List.eq_of_mem_replicate blank)
  have counted := ownOnly.length_eq
  rw [own_lines_length found, List.length_cons, List.length_replicate, few] at counted
  intro line member
  have none := List.countP_eq_zero.mp (show
    (keptLines content sect key).countP (selfClosing iniFormat ·) = 0 by omega) line member
  exact Bool.eq_false_iff.mpr none

theorem read_all_found {reader : Reader} (found : reader.phase = .found value)
    (rest : List Text) : rest.foldl (Reader.read sect key) reader = reader := by
  induction rest with
  | nil => rfl
  | cons line rest induction =>
      have same : Reader.read sect key reader line = reader := by
        simp only [Reader.read, found]
      rw [List.foldl_cons, same, induction]

/-- A key line behind lines that leave the reader in the section is where the reader's
numbers point. -/
theorem numbers_of_key_line (legal : LegalEntry sect key value) {before : List Text}
    (reached : readLines sect key .seekingSection before = .seekingKey) (after : List Text) :
    (readAll sect key (writtenLines before key value after)).keyLineNo = before.length + 1 ∧
      (readAll sect key (writtenLines before key value after)).keyLines = 1 := by
  have law := @read_all_located sect key before
  have phase : (readAll sect key before).phase = .seekingKey := by
    rw [read_all_phase, reached]
  have located := law.located
  rw [phase] at located
  have own : readLine sect key .seekingKey (keyLine key value) = .found value := by
    rw [read_line_seeking_key, seek_key_key_line legal, if_pos rfl]
  have here : (Reader.read sect key (readAll sect key before) (keyLine key value)).phase =
      .found value := by
    simp only [Reader.read, phase, own]
  have last : readAll sect key (writtenLines before key value after) =
      Reader.read sect key (readAll sect key before) (keyLine key value) := by
    rw [readAll, writtenLines, List.foldl_append, List.foldl_cons]
    exact read_all_found here after
  rw [last]
  simp only [Reader.read, phase, located.1, and_self]

theorem second_call_replaces (legal : LegalEntry sect key value) {last : Text}
    (legalLast : LegalEntry sect key last) (found : lookup content sect key = .found old)
    (ends : KeptLinesEnd content sect key) :
    fileAfter (some (writeLines '\n' (writtenLines (aboveKey content sect key) key value
        (belowKey content sect key)))) sect key last =
      some (writeLines '\n'
        (writtenLines (aboveKey content sect key) key last (belowKey content sect key))) := by
  have ⟨_, own, _⟩ := key_at_of_found found
  have reached : readLines sect key .seekingSection (aboveKey content sect key) = .seekingKey :=
    own.before
  have lines := @rewritten_file_lines sect key value content legal
  have above : reread iniFormat (aboveKey content sect key) = aboveKey content sect key :=
    reread_of_whole fun line inside => ends line (List.mem_append_left _ inside)
  have below : reread iniFormat (belowKey content sect key) = belowKey content sect key :=
    reread_of_whole fun line inside => ends line (List.mem_append_right _ inside)
  rw [rewrittenLines, above, below, ← writtenLines] at lines
  generalize aboveKey content sect key = before at *
  generalize belowKey content sect key = after at *
  have numbers := numbers_of_key_line legal reached after
  generalize writeLines '\n' (writtenLines before key value after) = middle at lines ⊢
  have again : lookup middle sect key = .found value := by
    rw [lookup, lines, writtenLines, read_lines_append, reached, read_lines_cons,
      read_line_seeking_key, seek_key_key_line legal, if_pos rfl, read_lines_found]
    rfl
  have front : aboveKey middle sect key = before := by
    rw [aboveKey, lines, numbers.1, writtenLines, Nat.add_sub_cancel]
    exact List.take_left' rfl
  have rest : belowKey middle sect key = after := by
    rw [belowKey, lines, numbers.1, numbers.2, Nat.add_sub_cancel, writtenLines,
      ← List.drop_drop, List.drop_left' rfl]
    rfl
  rw [after_replaced legalLast again, front, rest]

/-- A key that is not found again is written a second time. -/
theorem second_call_not_inserting (legal : LegalEntry sect key value) {last : Text}
    (legalLast : LegalEntry sect key last)
    (missing : lookup (writeLines '\n'
      (writtenLines (aboveKey content sect key) key value (belowKey content sect key))) sect key =
        .failed cfgKeyNotFound) :
    fileAfter (some (writeLines '\n' (writtenLines (aboveKey content sect key) key value
        (belowKey content sect key)))) sect key last ≠
      some (writeLines '\n'
        (writtenLines (aboveKey content sect key) key last (belowKey content sect key))) := by
  intro same
  rw [after_inserted legalLast missing, Option.some.injEq] at same
  have lines := @rewritten_file_lines sect key value content legal
  generalize writeLines '\n' (writtenLines (aboveKey content sect key) key value
    (belowKey content sect key)) = middle at missing same lines
  have written : toHeader middle sect key ++ keyLine key last :: behindHeader middle sect key =
      aboveKey content sect key ++ keyLine key last :: belowKey content sect key :=
    written_lines_unique legalLast legalLast (taken_are_lines middle _)
      (dropped_are_lines middle _) (taken_are_lines content _) (dropped_are_lines content _) same
  have counted := congrArg List.length written
  have ordered := (rewritten_lines_perm content sect key value).length_eq
  rw [← lines] at ordered
  have parts : (toHeader middle sect key ++ behindHeader middle sect key).length =
      (fileLines middle).length := by
    rw [toHeader, behindHeader, List.take_append_drop]
  simp only [keptLines, List.length_append, List.length_cons,
    List.length_replicate] at counted ordered parts
  omega

/-- A file that cannot be read is left alone, with the first value in it. -/
theorem second_call_refused_iff (legal : LegalEntry sect key value) {last : Text}
    (legalLast : LegalEntry sect key last) {ret : Int}
    (failed : lookup (writeLines '\n'
      (writtenLines (aboveKey content sect key) key value (belowKey content sect key))) sect key =
        .failed ret) (refused : ret = cfgErrFileFormat ∨ ret = cfgErrExceedBufSize) :
    fileAfter (some (writeLines '\n' (writtenLines (aboveKey content sect key) key value
        (belowKey content sect key)))) sect key last =
      some (writeLines '\n'
        (writtenLines (aboveKey content sect key) key last (belowKey content sect key))) ↔
      value = last := by
  rw [after_refused failed refused, Option.some.injEq]
  constructor
  · intro same
    have written := written_lines_unique legal legalLast (taken_are_lines content _)
      (dropped_are_lines content _) (taken_are_lines content _) (dropped_are_lines content _) same
    have lines := (List.cons.inj (List.append_cancel_left written)).1
    exact (List.cons.inj (List.append_cancel_left lines)).2
  · rintro rfl
    rfl

theorem rewritten_has_section (found : lookup content sect key = .found old) :
    readLines sect key .seekingSection (rewrittenLines content sect key value) ≠
      .seekingSection := by
  have ⟨header, own, _⟩ := key_at_of_found found
  have entered := reread_above_entered header (Nat.le_sub_one_of_lt own.after_header)
  intro seeking
  rw [rewrittenLines, read_lines_append] at seeking
  exact entered (read_lines_seeking_section seeking)

/-- What a second call finds: the key, a section without it, or a file it refuses. -/
theorem second_lookup_cases (found : lookup content sect key = .found old) {middle : Text}
    (lines : fileLines middle = rewrittenLines content sect key value) :
    (∃ again, lookup middle sect key = .found again) ∨
      lookup middle sect key = .failed cfgKeyNotFound ∨
      ∃ ret, lookup middle sect key = .failed ret ∧
        (ret = cfgErrFileFormat ∨ ret = cfgErrExceedBufSize) := by
  rcases lookup_cases middle sect key with again | ⟨_, seeking⟩ | ⟨ret, failed, why⟩
  · exact .inl again
  · rw [lines] at seeking
    exact absurd seeking (rewritten_has_section found)
  · rcases why with rfl | refused
    · exact .inr (.inl failed)
    · exact .inr (.inr ⟨ret, failed, refused⟩)

/-- The second of two calls decides alone exactly when every line kept ends with its line
end; setting one value twice also shows nothing when the second call is refused. -/
theorem second_call_decides_iff {last : Text} (legal : LegalEntry sect key value)
    (legalLast : LegalEntry sect key last) (found : lookup content sect key = .found old) :
    fileAfter (fileAfter (some content) sect key value) sect key last =
        fileAfter (some content) sect key last ↔
      KeptLinesEnd content sect key ∨
        (value = last ∧ RewrittenRefused content sect key value) := by
  rw [after_replaced legal found, after_replaced legalLast found]
  by_cases ends : KeptLinesEnd content sect key
  · exact iff_of_true (second_call_replaces legal legalLast found ends) (.inl ends)
  · have lines := @rewritten_file_lines sect key value content legal
    have looked : lookup (writeLines '\n' (writtenLines (aboveKey content sect key) key value
        (belowKey content sect key))) sect key = endOfFile key (readLines sect key .seekingSection
          (rewrittenLines content sect key value)) := by
      rw [lookup, lines]
    rcases second_lookup_cases found lines with ⟨again, foundAgain⟩ | missing |
      ⟨ret, failed, refused⟩
    · apply iff_of_false
      · exact fun same => ends (kept_lines_end_of_found legal legalLast foundAgain same)
      · rintro (all | ⟨_, ret, failed, _⟩)
        · exact ends all
        · rw [← looked, foundAgain] at failed
          cases failed
    · apply iff_of_false (second_call_not_inserting legal legalLast missing)
      rintro (all | ⟨_, ret, failed, other⟩)
      · exact ends all
      · rw [← looked, missing] at failed
        exact other (Phase.failed.inj failed).symm
    · rw [second_call_refused_iff legal legalLast failed refused]
      have unreadable : RewrittenRefused content sect key value := by
        refine ⟨ret, looked.symm.trans failed, ?_⟩
        rcases refused with rfl | rfl <;> decide
      simp only [ends, unreadable, false_or, and_true]

end Rewritten

/-- Of two legal values for a key that is there the last one wins exactly when every other
line of the file ends with its line end, or when both are one value and the rewritten file
cannot be read. -/
theorem last_write_wins_iff {content sect key first last : Text}
    (legalFirst : LegalEntry sect key first) (legalLast : LegalEntry sect key last)
    (present : (mozartIniGetkey true (some content) sect key).1 = cfgOk) :
    LastWriteWins (some content) sect key first last ↔
      KeptLinesEnd content sect key ∨
        (first = last ∧ RewrittenRefused content sect key last) := by
  have ⟨old, found⟩ : ∃ old, lookup content sect key = .found old := by
    rw [getkey_eq_lookup] at present
    rcases lookup_cases content sect key with some | ⟨missing, _⟩ | ⟨ret, failed, why⟩
    · exact some
    · rw [missing] at present
      exact absurd (show cfgSectionNotFound = cfgOk from present) (by decide)
    · rw [failed] at present
      rw [show ret = cfgOk from present] at why
      rcases why with wrong | wrong | wrong <;> exact absurd wrong (by decide)
  rw [LastWriteWins, second_call_decides_iff legalFirst legalLast found,
    second_call_decides_iff legalLast legalLast found]
  constructor
  · rintro ⟨ends | ⟨same, refused⟩, _⟩
    · exact .inl ends
    · exact .inr ⟨same, same ▸ refused⟩
  · rintro (ends | ⟨same, refused⟩)
    · exact ⟨.inl ends, .inl ends⟩
    · exact ⟨.inr ⟨same, same ▸ refused⟩, .inr ⟨rfl, refused⟩⟩

theorem legal_other_entry : LegalEntry ['a'] ['x'] ['2'] := by
  constructor <;> simp [AllPlain, iniFormat, charKind, isBlank, iniComments, sectionPrefix,
    headerLine, keyLine, maxCfgBuf]

theorem last_write_wins_in_a_small_file :
    LastWriteWins (some smallFile) ['a'] ['x'] ['1'] ['2'] :=
  (last_write_wins_iff legal_old_entry legal_other_entry (by decide)).mpr
    (.inl (by unfold KeptLinesEnd; decide))

/-- A comment closed by a form feed gains an empty line with each call. -/
theorem earlier_write_shows :
    ¬ ∀ (content sect key first last : Text), LegalEntry sect key first →
      LegalEntry sect key last → (mozartIniGetkey true (some content) sect key).1 = cfgOk →
        LastWriteWins (some content) sect key first last := by
  intro always
  have wins := always (['[', 'a', ']', '\n', ';', '\x0c'] ++ writeLines '\n' [keyLine ['x'] ['1']])
    ['a'] ['x'] ['1'] ['2'] legal_old_entry legal_other_entry (by decide)
  exact absurd wins.1 (by decide)

end Gk7102.Ini
