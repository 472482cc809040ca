import Gk7102.Ini

/-!
# What the ini reader makes of a list of lines

Over a list of lines the reader is a fold of `readLine`. It leaves a section for
good, so the line numbers it reports point at lines where its phase is known.
Reading the lines that rewritten lines read back as keeps its phase, as long as
no line that closes by itself is continued by a line with text.
-/

namespace Gk7102.Ini

open Gk7102.LineReader

set_option autoImplicit false

def readLines (sect key : Text) (phase : Phase) (written : List Text) : Phase :=
  written.foldl (readLine sect key) phase

section Reading

variable {sect key : Text}

@[simp] theorem read_lines_nil (phase : Phase) : readLines sect key phase [] = phase := rfl

@[simp] theorem read_lines_cons (phase : Phase) (line : Text) (rest : List Text) :
    readLines sect key phase (line :: rest) =
      readLines sect key (readLine sect key phase line) rest := rfl

@[simp] theorem read_lines_append (phase : Phase) (before after : List Text) :
    readLines sect key phase (before ++ after) =
      readLines sect key (readLines sect key phase before) after := by
  simp only [readLines, List.foldl_append]

@[simp] theorem read_line_seeking (line : Text) :
    readLine sect key .seekingSection line = seekSection sect line := rfl

@[simp] theorem read_line_seeking_key (line : Text) :
    readLine sect key .seekingKey line = seekKey key line := rfl

@[simp] theorem read_line_joining (text line : Text) :
    readLine sect key (.joining text) line = joinLine key text line := rfl

@[simp] theorem read_line_found (value line : Text) :
    readLine sect key (.found value) line = .found value := rfl

@[simp] theorem read_line_failed (ret : Int) (line : Text) :
    readLine sect key (.failed ret) line = .failed ret := rfl

@[simp] theorem read_lines_found (value : Text) (written : List Text) :
    readLines sect key (.found value) written = .found value := by
  induction written with
  | nil => rfl
  | cons line written ih => exact ih

@[simp] theorem read_lines_failed (ret : Int) (written : List Text) :
    readLines sect key (.failed ret) written = .failed ret := by
  induction written with
  | nil => rfl
  | cons line written ih => exact ih

theorem match_key_cases (key text : Text) :
    matchKey key text = .seekingKey ∨ (∃ value, matchKey key text = .found value) ∨
      matchKey key text = .failed cfgErrFileFormat := by
  simp only [matchKey]
  split
  · exact Or.inr (Or.inr rfl)
  · split
    · exact Or.inr (Or.inl ⟨_, rfl⟩)
    · exact Or.inl rfl

theorem seek_section_cases (sect line : Text) :
    seekSection sect line = .seekingSection ∨ seekSection sect line = .seekingKey ∨
      seekSection sect line = .failed cfgErrFileFormat := by
  simp only [seekSection]
  split_ifs <;> simp

theorem seek_section_outside (sect line text : Text) : seekSection sect line ≠ .joining text := by
  rcases seek_section_cases sect line with again | entered | failed
  · simp [again]
  · simp [entered]
  · simp [failed]

theorem seek_key_not_section (key line : Text) : seekKey key line ≠ .seekingSection := by
  have matched := match_key_cases key (strtriml (strtrimr line))
  simp only [seekKey]
  split_ifs
  · simp
  · simp
  · simp
  · rcases matched with again | ⟨value, found⟩ | failed
    · simp [again]
    · simp [found]
    · simp [failed]

theorem join_line_not_section (key text line : Text) :
    joinLine key text line ≠ .seekingSection := by
  have matched := match_key_cases key (text ++ strtrimr line)
  simp only [joinLine]
  split_ifs
  · simp
  · simp
  · simp
  · rcases matched with again | ⟨value, found⟩ | failed
    · simp [again]
    · simp [found]
    · simp [failed]

theorem read_line_seeking_section {phase : Phase} {line : Text}
    (seeking : readLine sect key phase line = .seekingSection) : phase = .seekingSection := by
  cases phase with
  | seekingSection => rfl
  | seekingKey => exact absurd seeking (seek_key_not_section key line)
  | joining text => exact absurd seeking (join_line_not_section key text line)
  | found value => exact Phase.noConfusion seeking
  | failed ret => exact Phase.noConfusion seeking

theorem read_lines_seeking_section {phase : Phase} {written : List Text}
    (seeking : readLines sect key phase written = .seekingSection) : phase = .seekingSection := by
  induction written generalizing phase with
  | nil => exact seeking
  | cons line written ih => exact read_line_seeking_section (ih seeking)

/-! ## Where the line numbers point -/

def phaseAt (sect key : Text) (written : List Text) (count : Nat) : Phase :=
  readLines sect key .seekingSection (written.take count)

theorem phase_at_length (written : List Text) :
    phaseAt sect key written written.length = readLines sect key .seekingSection written := by
  rw [phaseAt, List.take_length]

theorem phase_at_append {written : List Text} {count : Nat} (within : count ≤ written.length)
    (more : List Text) :
    phaseAt sect key (written ++ more) count = phaseAt sect key written count := by
  rw [phaseAt, List.take_append_of_le_length within, phaseAt]

theorem phase_at_succ {written : List Text} {count : Nat} (inside : count < written.length) :
    phaseAt sect key written (count + 1) =
      readLine sect key (phaseAt sect key written count) written[count] := by
  rw [phaseAt, ← List.take_append_getElem inside, read_lines_append, read_lines_cons,
    read_lines_nil, phaseAt]

theorem phase_at_step {written : List Text} {count : Nat} (inside : count < written.length) :
    ∃ line ∈ written, ∀ sect key, phaseAt sect key written (count + 1) =
      readLine sect key (phaseAt sect key written count) line :=
  ⟨written[count], List.getElem_mem inside, fun _ _ => phase_at_succ inside⟩

/-- The line with number `headerNo` is the first one that enters the section. -/
structure HeaderAt (sect key : Text) (written : List Text) (headerNo : Nat) : Prop where
  positive : 0 < headerNo
  within : headerNo ≤ written.length
  before : phaseAt sect key written (headerNo - 1) = .seekingSection
  entered : phaseAt sect key written headerNo = .seekingKey

/-- A key line starts at the line `keyNo`, and `count` lines of it are read. -/
structure KeyAt (sect key : Text) (written : List Text) (headerNo keyNo count : Nat) : Prop where
  after_header : headerNo < keyNo
  within : keyNo - 1 + count ≤ written.length
  positive : 0 < count
  before : phaseAt sect key written (keyNo - 1) = .seekingKey
  joined : ∀ part, 0 < part → part < count →
    ∃ text, phaseAt sect key written (keyNo - 1 + part) = .joining text

theorem header_at_append {written : List Text} {headerNo : Nat}
    (header : HeaderAt sect key written headerNo) (more : List Text) :
    HeaderAt sect key (written ++ more) headerNo := by
  have within := header.within
  constructor
  · exact header.positive
  · rw [List.length_append]
    omega
  · rw [phase_at_append (by omega)]
    exact header.before
  · rw [phase_at_append within]
    exact header.entered

theorem key_at_append {written : List Text} {headerNo keyNo count : Nat}
    (own : KeyAt sect key written headerNo keyNo count) (more : List Text) :
    KeyAt sect key (written ++ more) headerNo keyNo count := by
  have within := own.within
  constructor
  · exact own.after_header
  · rw [List.length_append]
    omega
  · exact own.positive
  · rw [phase_at_append (by omega)]
    exact own.before
  · intro part some_part inside
    rw [phase_at_append (by omega)]
    exact own.joined part some_part inside

/-- What the counters say once these lines are read. -/
def Located (sect key : Text) (written : List Text) (reader : Reader) : Phase → Prop
  | .seekingSection => reader.lineNo = written.length
  | .seekingKey =>
      reader.lineNo = written.length ∧ HeaderAt sect key written reader.sectionLineNo
  | .joining _ =>
      reader.lineNo = written.length ∧ HeaderAt sect key written reader.sectionLineNo ∧
        KeyAt sect key written reader.sectionLineNo reader.keyLineNo reader.keyLines ∧
        reader.keyLineNo - 1 + reader.keyLines = written.length
  | .found value =>
      HeaderAt sect key written reader.sectionLineNo ∧
        KeyAt sect key written reader.sectionLineNo reader.keyLineNo reader.keyLines ∧
        phaseAt sect key written (reader.keyLineNo - 1 + reader.keyLines) = .found value
  | .failed ret => ret = cfgKeyNotFound → HeaderAt sect key written reader.sectionLineNo

structure ReaderLaw (sect key : Text) (written : List Text) (reader : Reader) : Prop where
  phase : reader.phase = phaseAt sect key written written.length
  located : Located sect key written reader reader.phase

theorem start_located : ReaderLaw sect key [] Reader.start := ⟨rfl, rfl⟩

theorem phase_at_more (written : List Text) (line : Text) :
    phaseAt sect key (written ++ [line]) (written ++ [line]).length =
      readLine sect key (phaseAt sect key written written.length) line := by
  rw [phase_at_length, read_lines_append, phase_at_length]
  rfl

theorem read_keeps_phase {written : List Text} {reader : Reader}
    (law : ReaderLaw sect key written reader) (line : Text) :
    (Reader.read sect key reader line).phase =
      phaseAt sect key (written ++ [line]) (written ++ [line]).length := by
  rw [phase_at_more, ← law.phase]
  cases phase : reader.phase <;> simp [Reader.read, phase]

theorem read_seeking_section {written : List Text} {reader : Reader}
    (law : ReaderLaw sect key written reader) (line : Text)
    (phase : reader.phase = .seekingSection) :
    Located sect key (written ++ [line]) (Reader.read sect key reader line)
      (seekSection sect line) := by
  have located := law.located
  have here := law.phase
  rw [phase] at located here
  have counted : reader.lineNo = written.length := located
  rcases seek_section_cases sect line with again | entered | failed
  · simp [again, Located, Reader.read, phase, counted]
  · have header : HeaderAt sect key (written ++ [line]) (written.length + 1) := by
      constructor
      · omega
      · simp
      · rw [Nat.add_sub_cancel, phase_at_append le_rfl]
        exact here.symm
      · have next : phaseAt sect key (written ++ [line]) (written ++ [line]).length =
            readLine sect key .seekingSection line := by rw [phase_at_more, ← here]
        simpa using next.trans entered
    simpa [entered, Located, Reader.read, phase, counted] using header
  · rw [failed]
    intro other
    exact absurd other (by decide)

theorem read_key_line {written : List Text} {line : Text} {reader : Reader} {next : Phase}
    (counted : reader.lineNo = (written ++ [line]).length)
    (header : HeaderAt sect key written reader.sectionLineNo)
    (own : KeyAt sect key (written ++ [line]) reader.sectionLineNo reader.keyLineNo reader.keyLines)
    (reached : reader.keyLineNo - 1 + reader.keyLines = (written ++ [line]).length)
    (here : phaseAt sect key (written ++ [line]) (written ++ [line]).length = next)
    (left : next ≠ .seekingSection) : Located sect key (written ++ [line]) reader next := by
  have header' := header_at_append header [line]
  cases next with
  | seekingSection => exact absurd rfl left
  | seekingKey => exact ⟨counted, header'⟩
  | joining text => exact ⟨counted, header', own, reached⟩
  | found value => exact ⟨header', own, by rw [reached, here]⟩
  | failed ret => exact fun _ => header'

theorem read_seeking_key {written : List Text} {reader : Reader}
    (law : ReaderLaw sect key written reader) (line : Text)
    (phase : reader.phase = .seekingKey) :
    Located sect key (written ++ [line]) (Reader.read sect key reader line)
      (seekKey key line) := by
  have located := law.located
  have here := law.phase
  rw [phase] at located here
  have ⟨counted, header⟩ : reader.lineNo = written.length ∧
    HeaderAt sect key written reader.sectionLineNo := located
  have within := header.within
  apply read_key_line
  · simp [Reader.read, phase, counted]
  · simpa [Reader.read, phase] using header
  · simp only [Reader.read, phase, counted]
    constructor
    · omega
    · simp
    · omega
    · rw [Nat.add_sub_cancel, phase_at_append le_rfl]
      exact here.symm
    · intro part some_part inside
      omega
  · simp [Reader.read, phase, counted]
  · rw [phase_at_more, ← here]
    rfl
  · exact seek_key_not_section key line

theorem read_joining {written : List Text} {reader : Reader} {text : Text}
    (law : ReaderLaw sect key written reader) (line : Text)
    (phase : reader.phase = .joining text) :
    Located sect key (written ++ [line]) (Reader.read sect key reader line)
      (joinLine key text line) := by
  have located := law.located
  have here := law.phase
  rw [phase] at located here
  have ⟨counted, header, own, reached⟩ : reader.lineNo = written.length ∧
    HeaderAt sect key written reader.sectionLineNo ∧
    KeyAt sect key written reader.sectionLineNo reader.keyLineNo reader.keyLines ∧
    reader.keyLineNo - 1 + reader.keyLines = written.length := located
  have own' := key_at_append own [line]
  apply read_key_line
  · simp [Reader.read, phase, counted]
  · simpa [Reader.read, phase] using header
  · simp only [Reader.read, phase]
    constructor
    · exact own'.after_header
    · rw [List.length_append, List.length_singleton]
      omega
    · omega
    · exact own'.before
    · intro part some_part inside
      by_cases last : part = reader.keyLines
      · rw [last, reached, phase_at_append le_rfl]
        exact ⟨text, here.symm⟩
      · exact own'.joined part some_part (by omega)
  · simp only [Reader.read, phase, List.length_append, List.length_singleton]
    omega
  · rw [phase_at_more, ← here]
    rfl
  · exact join_line_not_section key text line

theorem read_located {written : List Text} {reader : Reader}
    (law : ReaderLaw sect key written reader) (line : Text) :
    ReaderLaw sect key (written ++ [line]) (Reader.read sect key reader line) := by
  have next := read_keeps_phase law line
  refine ⟨next, ?_⟩
  rw [next, phase_at_more, ← law.phase]
  have located := law.located
  cases phase : reader.phase with
  | seekingSection => exact read_seeking_section law line phase
  | seekingKey => exact read_seeking_key law line phase
  | joining text => exact read_joining law line phase
  | found value =>
      rw [phase] at located
      have ⟨header, own, here⟩ := located
      simp only [read_line_found, Reader.read, phase]
      refine ⟨header_at_append header [line], key_at_append own [line], ?_⟩
      rw [phase_at_append own.within]
      exact here
  | failed ret =>
      rw [phase] at located
      simp only [read_line_failed, Reader.read, phase]
      intro missing
      exact header_at_append (located missing) [line]

theorem read_all_located (written : List Text) :
    ReaderLaw sect key written (readAll sect key written) := by
  induction written using List.reverseRecOn with
  | nil => exact start_located
  | append_singleton written line ih =>
      have step : readAll sect key (written ++ [line]) =
          Reader.read sect key (readAll sect key written) line := by
        simp [readAll, List.foldl_append]
      rw [step]
      exact read_located ih line

theorem read_all_phase (written : List Text) :
    (readAll sect key written).phase = readLines sect key .seekingSection written := by
  rw [(read_all_located written).phase, phase_at_length]

theorem end_of_file_joining (key text : Text) :
    endOfFile key (.joining text) = endOfFile key (matchKey key text) := by
  rcases match_key_cases key text with again | ⟨value, found⟩ | failed
  · simp [endOfFile, again]
  · simp [endOfFile, found]
  · simp [endOfFile, failed]

theorem header_at_of_key_missing {written : List Text}
    (missing : endOfFile key (readLines sect key .seekingSection written) =
      .failed cfgKeyNotFound) :
    HeaderAt sect key written (readAll sect key written).sectionLineNo := by
  have law : ReaderLaw sect key written (readAll sect key written) := read_all_located written
  have located := law.located
  rw [law.phase, phase_at_length] at located
  cases phase : readLines sect key .seekingSection written with
  | seekingSection =>
      rw [phase] at missing
      exact absurd missing (by simp [endOfFile, cfgSectionNotFound, cfgKeyNotFound])
  | seekingKey =>
      rw [phase] at located
      exact located.2
  | joining text =>
      rw [phase] at located
      exact located.2.1
  | found value =>
      rw [phase] at missing
      exact Phase.noConfusion missing
  | failed ret =>
      rw [phase] at located missing
      exact located (Phase.failed.inj missing)

/-- Up to its last line a key is found, or the file ends while it is joined. -/
def OwnRead (sect key : Text) (written : List Text) (lastNo : Nat) (value : Text) : Prop :=
  phaseAt sect key written lastNo = .found value ∨
    lastNo = written.length ∧
      ∃ text, phaseAt sect key written lastNo = .joining text ∧ matchKey key text = .found value

theorem key_at_of_found {written : List Text} {value : Text}
    (found : endOfFile key (readLines sect key .seekingSection written) = .found value) :
    HeaderAt sect key written (readAll sect key written).sectionLineNo ∧
      KeyAt sect key written (readAll sect key written).sectionLineNo
        (readAll sect key written).keyLineNo (readAll sect key written).keyLines ∧
      OwnRead sect key written
        ((readAll sect key written).keyLineNo - 1 + (readAll sect key written).keyLines) value := by
  have law : ReaderLaw sect key written (readAll sect key written) := read_all_located written
  have located := law.located
  rw [law.phase, phase_at_length] at located
  cases phase : readLines sect key .seekingSection written with
  | seekingSection =>
      rw [phase] at found
      exact Phase.noConfusion found
  | seekingKey =>
      rw [phase] at found
      exact Phase.noConfusion found
  | joining text =>
      rw [phase] at located found
      have ⟨_, header, own, reached⟩ := located
      have here : matchKey key text = .found value := by
        rcases match_key_cases key text with again | ⟨other, same⟩ | failed
        · simp [endOfFile, again] at found
        · simpa [endOfFile, same] using found
        · simp [endOfFile, failed] at found
      refine ⟨header, own, Or.inr ⟨reached, text, ?_, here⟩⟩
      rw [reached, phase_at_length, phase]
  | found other =>
      rw [phase] at located found
      have ⟨header, own, here⟩ := located
      exact ⟨header, own, Or.inl (here.trans found)⟩
  | failed ret =>
      rw [phase] at found
      exact Phase.noConfusion found

/-! ## Reading rewritten lines -/

theorem read_blank {line : Text} (blank : strtrimr line = []) {phase : Phase}
    (outside : ∀ text, phase ≠ .joining text) : readLine sect key phase line = phase := by
  have trimmed : strtriml (strtrimr line) = [] := by rw [blank]; rfl
  cases phase with
  | seekingSection => simp [readLine, seekSection, trimmed, isSkipped]
  | seekingKey => simp [readLine, seekKey, trimmed, isSkipped]
  | joining text => exact absurd rfl (outside text)
  | found value => rfl
  | failed ret => rfl

theorem join_blank {line text : Text} (blank : strtrimr line = [])
    (fits : text.length ≤ maxCfgBuf) : joinLine key text line = matchKey key text := by
  have short : ¬ maxCfgBuf < text.length := Nat.not_lt.mpr fits
  simp [joinLine, blank, short]

theorem match_key_outside (key text other : Text) : matchKey key text ≠ .joining other := by
  rcases match_key_cases key text with again | ⟨value, found⟩ | failed
  · simp [again]
  · simp [found]
  · simp [failed]

theorem strtrimr_length (line : Text) : (strtrimr line).length ≤ line.length :=
  (List.dropWhile_suffix _).length_le

theorem strtriml_length (line : Text) : (strtriml line).length ≤ line.length :=
  (List.rdropWhile_prefix _ _).length_le

theorem joining_fits {phase : Phase} {line text : Text} (fits : line.length ≤ maxCfgBuf)
    (joined : readLine sect key phase line = .joining text) : text.length ≤ maxCfgBuf := by
  cases phase with
  | seekingSection =>
      rcases seek_section_cases sect line with again | entered | failed
      · simp [readLine, again] at joined
      · simp [readLine, entered] at joined
      · simp [readLine, failed] at joined
  | seekingKey =>
      have right := strtriml_length (strtrimr line)
      have left := strtrimr_length line
      simp only [readLine, seekKey] at joined
      split_ifs at joined
      · rw [← Phase.joining.inj joined, List.length_dropLast]
        omega
      · exact absurd joined (match_key_outside _ _ _)
  | joining earlier =>
      simp only [readLine, joinLine] at joined
      split_ifs at joined with continued exceeds
      · rw [← Phase.joining.inj joined, List.length_append]
        omega
      · exact absurd joined (match_key_outside _ _ _)
  | found value => exact Phase.noConfusion joined
  | failed ret => exact Phase.noConfusion joined

/-- No value goes on, past a line that closes by itself, with a line of text. -/
def WholeValues (sect key : Text) : Phase → List Text → Prop
  | _, [] => True
  | phase, line :: rest =>
      (selfClosing iniFormat line → (∃ text, readLine sect key phase line = .joining text) →
          ∀ next ∈ rest.head?, strtrimr next = []) ∧
        WholeValues sect key (readLine sect key phase line) rest

/-- The phases over lines and over what they are rewritten to. They differ only
where a value was closed before the blank line, or the end, that follows it. -/
inductive Aligned (key : Text) (following : List Text) : Phase → Phase → Prop where
  | same (phase : Phase) : Aligned key following phase phase
  | closedEarly (text : Text) (fits : text.length ≤ maxCfgBuf)
      (blankNext : ∀ next ∈ following.head?, strtrimr next = []) :
      Aligned key following (.joining text) (matchKey key text)

theorem aligned_step {line : Text} {following : List Text} {phase other : Phase}
    (aligned : Aligned key (line :: following) phase other) (fits : line.length ≤ maxCfgBuf)
    (whole : WholeValues sect key phase (line :: following)) :
    Aligned key following (readLine sect key phase line)
      (readLines sect key other (respace iniFormat line)) := by
  cases aligned with
  | same phase =>
      simp only [respace]
      split
      · rename_i closing
        simp only [read_lines_cons, read_lines_nil]
        by_cases joins : ∃ text, readLine sect key phase line = .joining text
        · obtain ⟨text, joined⟩ := joins
          have short := joining_fits fits joined
          have early : readLine sect key (.joining text) [] = matchKey key text := by
            rw [readLine, join_blank rfl short]
          rw [joined, early]
          exact .closedEarly text short (whole.1 closing ⟨text, joined⟩)
        · rw [read_blank rfl (fun text joined => joins ⟨text, joined⟩)]
          exact .same _
      · exact .same _
  | closedEarly text short blankNext =>
      have blank : strtrimr line = [] := blankNext line (by simp)
      have closed : readLine sect key (.joining text) line = matchKey key text :=
        join_blank blank short
      have stays : readLines sect key (matchKey key text) (respace iniFormat line) =
          matchKey key text := by
        have outside := match_key_outside key text
        simp only [respace]
        split
        · rw [read_lines_cons, read_lines_cons, read_blank blank outside,
            read_blank rfl outside, read_lines_nil]
        · rw [read_lines_cons, read_blank blank outside, read_lines_nil]
      rw [closed, stays]
      exact .same _

theorem reread_aligned {written : List Text} {phase other : Phase}
    (aligned : Aligned key written phase other)
    (fit : ∀ line ∈ written, line.length ≤ maxCfgBuf)
    (whole : WholeValues sect key phase written) :
    Aligned key [] (readLines sect key phase written)
      (readLines sect key other (reread iniFormat written)) := by
  induction written generalizing phase other with
  | nil => exact aligned
  | cons line written ih =>
      rw [reread_cons, read_lines_append, read_lines_cons]
      apply ih
      · exact aligned_step aligned (fit line (by simp)) whole
      · exact fun other inside => fit other (List.mem_cons_of_mem line inside)
      · exact whole.2

theorem aligned_end {phase other : Phase} (aligned : Aligned key [] phase other) :
    endOfFile key phase = endOfFile key other := by
  cases aligned with
  | same phase => rfl
  | closedEarly text fits blankNext => exact end_of_file_joining key text

theorem aligned_outside {following : List Text} {phase other : Phase}
    (aligned : Aligned key following phase other) (outside : ∀ text, phase ≠ .joining text) :
    other = phase := by
  cases aligned with
  | same phase => rfl
  | closedEarly text fits blankNext => exact absurd rfl (outside text)

/-- Nothing is joined before the section is entered. -/
theorem reread_seeking_section {written : List Text}
    (seeking : readLines sect key .seekingSection written = .seekingSection) :
    readLines sect key .seekingSection (reread iniFormat written) = .seekingSection := by
  induction written with
  | nil => rfl
  | cons line written ih =>
      have here : readLine sect key .seekingSection line = .seekingSection :=
        read_lines_seeking_section seeking
      have later : readLines sect key .seekingSection written = .seekingSection := by
        rw [read_lines_cons, here] at seeking
        exact seeking
      have first : readLines sect key .seekingSection (respace iniFormat line) =
          .seekingSection := by
        have blank : readLine sect key .seekingSection [] = .seekingSection :=
          read_blank rfl (by simp)
        simp only [respace]
        split
        · rw [read_lines_cons, here, read_lines_cons, blank, read_lines_nil]
        · rw [read_lines_cons, here, read_lines_nil]
      rw [reread_cons, read_lines_append, first, ih later]

theorem reread_header {line : Text}
    (entered : readLine sect key .seekingSection line = .seekingKey) :
    readLines sect key .seekingSection (respace iniFormat line) = .seekingKey := by
  have blank : readLine sect key .seekingKey [] = .seekingKey := read_blank rfl (by simp)
  simp only [respace]
  split
  · rw [read_lines_cons, entered, read_lines_cons, blank, read_lines_nil]
  · rw [read_lines_cons, entered, read_lines_nil]

theorem header_split {written : List Text} {headerNo : Nat}
    (header : HeaderAt sect key written headerNo) :
    ∃ above line, written.take headerNo = above ++ [line] ∧
      readLines sect key .seekingSection above = .seekingSection ∧
      readLine sect key .seekingSection line = .seekingKey := by
  have positive := header.positive
  have within := header.within
  have inside : headerNo - 1 < written.length := by omega
  have parts : written.take headerNo = written.take (headerNo - 1) ++ [written[headerNo - 1]] := by
    rw [List.take_append_getElem inside]
    congr 1
    omega
  have before := header.before
  have entered := header.entered
  rw [phaseAt] at before
  rw [phaseAt, parts, read_lines_append, before] at entered
  exact ⟨_, _, parts, before, entered⟩

theorem reread_entered {written : List Text} {headerNo : Nat}
    (header : HeaderAt sect key written headerNo) :
    readLines sect key .seekingSection (reread iniFormat (written.take headerNo)) =
      .seekingKey := by
  obtain ⟨above, line, parts, seeking, entered⟩ := header_split header
  rw [parts, reread_append, read_lines_append, reread_seeking_section seeking, reread_cons,
    reread_nil, List.append_nil, reread_header entered]

end Reading

end Gk7102.Ini
