import Gk7102.IniEntry

/-!
# Enumerating sections and keys

`mozart_ini_getkeys` and `mozart_ini_getsections1` are copies of the reader behind
`mozart_ini_getkey` that go on where it stops: past a key, to the end of its section,
and past a section, to the end of the file. A simulation for each shows that they find
what it finds. The arrays of the caller are large enough, and allocations succeed.
-/

namespace Gk7102.IniEnumeration

open Ini LineReader

set_option autoImplicit false

/-! ## The keys of a section -/

inductive KeysPhase where
  | seekingSection
  | listing (keys : List Text)
  | joining (keys : List Text) (text : Text)
  /-- Another section begins. -/
  | ended (keys : List Text)
  | failed (ret : Int)
deriving DecidableEq, Repr

def seekSectionOfKeys (sect line : Text) : KeysPhase :=
  let buf := strtriml (strtrimr line)
  if isSkipped buf then .seekingSection
  else if 2 < buf.length ∧ buf.head? = some sectionPrefix ∧ buf.getLast? ≠ some sectionSuffix then
    .failed cfgErrFileFormat
  else if buf.head? = some sectionPrefix ∧ buf.tail.dropLast = sect then .listing []
  else .seekingSection

def addKey (keys : List Text) (text : Text) : KeysPhase :=
  match splitKeyValue text with
  | .error _ => .failed cfgErrFileFormat
  | .ok (name, _) => .listing (keys ++ [strtriml (strtrimr name)])

def listKey (keys : List Text) (line : Text) : KeysPhase :=
  let buf := strtriml (strtrimr line)
  if isSkipped buf then .listing keys
  else if buf.head? = some sectionPrefix then .ended keys
  else if buf.getLast? = some '\\' then .joining keys buf.dropLast
  else addKey keys buf

def joinKeyLine (keys : List Text) (text line : Text) : KeysPhase :=
  let buf := strtrimr line
  if buf.getLast? = some '\\' then
    if maxCfgBuf < text.length + buf.dropLast.length then .failed cfgErrExceedBufSize
    else .joining keys (text ++ buf.dropLast)
  else if maxCfgBuf < text.length + buf.length then .failed cfgErrExceedBufSize
  else addKey keys (text ++ buf)

def readKeyLine (sect : Text) : KeysPhase → Text → KeysPhase
  | .seekingSection, line => seekSectionOfKeys sect line
  | .listing keys, line => listKey keys line
  | .joining keys text, line => joinKeyLine keys text line
  | .ended keys, _ => .ended keys
  | .failed ret, _ => .failed ret

def endOfKeys : KeysPhase → Except Int (List Text)
  | .seekingSection => .error cfgSectionNotFound
  | .listing keys => .ok keys
  | .joining keys text =>
      match addKey keys text with
      | .listing keys => .ok keys
      | .failed ret => .error ret
      | _ => .error cfgErrReadFile
  | .ended keys => .ok keys
  | .failed ret => .error ret

/-- `.ok keys` stands for the return value `keys.length`, with the names in the array. -/
def mozartIniGetkeys (file : Option Text) (sect : Text) : Except Int (List Text) :=
  match file with
  | none => .error cfgErrOpenFile
  | some content => endOfKeys ((fileLines content).foldl (readKeyLine sect) .seekingSection)

/-! ## The sections of a file -/

/-- The names so far; `none` after a malformed header. -/
def readSectionLine : Option (List Text) → Text → Option (List Text)
  | none, _ => none
  | some sections, line =>
      let buf := strtriml (strtrimr line)
      if isSkipped buf then some sections
      else if 2 < buf.length ∧ buf.head? = some sectionPrefix ∧
          buf.getLast? ≠ some sectionSuffix then none
      else if buf.head? = some sectionPrefix then some (sections ++ [buf.tail.dropLast])
      else some sections

/-- NULL is `none`, for a file without sections too. -/
def mozartIniGetsections1 (file : Option Text) : Option (List Text) :=
  match file with
  | none => none
  | some content =>
      match (fileLines content).foldl readSectionLine (some []) with
      | none => none
      | some [] => none
      | some sections => some sections

/-! ## The keys listed are the keys found -/

/-- The reader of one key beside the reader of all. Once the one has its key the other has
it too and never loses it. -/
def KeysAgree (key : Text) : Phase → KeysPhase → Prop
  | .seekingSection, .seekingSection => True
  | .seekingKey, .listing keys => key ∉ keys
  | .joining text, .joining keys other => key ∉ keys ∧ text = other
  | .found _, .listing keys => key ∈ keys
  | .found _, .joining keys _ => key ∈ keys
  | .found _, .ended keys => key ∈ keys
  | .failed ret, .ended keys => key ∉ keys ∧ ret = cfgKeyNotFound
  | .found _, .failed _ => True
  | .failed _, .failed _ => True
  | _, _ => False

section Keys

variable {sect key : Text}

theorem keys_agree_seek_section (line : Text) :
    KeysAgree key (seekSection sect line) (seekSectionOfKeys sect line) := by
  simp only [seekSection, seekSectionOfKeys]
  split_ifs <;> simp [KeysAgree]

theorem keys_agree_add {keys : List Text} (new : key ∉ keys) (text : Text) :
    KeysAgree key (matchKey key text) (addKey keys text) := by
  rw [matchKey, addKey]
  cases splitKeyValue text with
  | error code => exact trivial
  | ok pair =>
      obtain ⟨name, value⟩ := pair
      by_cases same : strtriml (strtrimr name) = key
      · simp [same, KeysAgree]
      · simp only [if_neg same, KeysAgree, List.mem_append, List.mem_singleton, not_or]
        exact ⟨new, fun other => same other.symm⟩

theorem keys_agree_list {keys : List Text} (new : key ∉ keys) (line : Text) :
    KeysAgree key (seekKey key line) (listKey keys line) := by
  simp only [seekKey, listKey]
  split_ifs
  · exact new
  · exact ⟨new, rfl⟩
  · exact ⟨new, rfl⟩
  · exact keys_agree_add new _

theorem keys_agree_join {keys : List Text} (new : key ∉ keys) (text line : Text) :
    KeysAgree key (joinLine key text line) (joinKeyLine keys text line) := by
  simp only [joinLine, joinKeyLine]
  split_ifs
  · exact trivial
  · exact ⟨new, rfl⟩
  · exact trivial
  · exact keys_agree_add new _

theorem keys_agree_found_add (value : Text) {keys : List Text} (there : key ∈ keys) (text : Text) :
    KeysAgree key (.found value) (addKey keys text) := by
  rw [addKey]
  cases splitKeyValue text with
  | error code => exact trivial
  | ok pair => exact List.mem_append_left _ there

theorem keys_agree_found (value : Text) {phase : KeysPhase}
    (agree : KeysAgree key (.found value) phase) (line : Text) :
    KeysAgree key (.found value) (readKeyLine sect phase line) := by
  cases phase with
  | seekingSection => exact agree.elim
  | listing keys =>
      simp only [readKeyLine, listKey]
      split_ifs
      · exact agree
      · exact agree
      · exact agree
      · exact keys_agree_found_add value agree _
  | joining keys text =>
      simp only [readKeyLine, joinKeyLine]
      split_ifs
      · exact trivial
      · exact agree
      · exact trivial
      · exact keys_agree_found_add value agree _
  | ended keys => exact agree
  | failed ret => exact trivial

theorem keys_agree_step {phase : Phase} {other : KeysPhase} (agree : KeysAgree key phase other)
    (line : Text) : KeysAgree key (readLine sect key phase line) (readKeyLine sect other line) := by
  cases phase with
  | found value => exact keys_agree_found value agree line
  | seekingSection =>
      cases other with
      | seekingSection => exact keys_agree_seek_section line
      | _ => exact agree.elim
  | seekingKey =>
      cases other with
      | listing keys => exact keys_agree_list agree line
      | _ => exact agree.elim
  | joining text =>
      cases other with
      | joining keys joined =>
          obtain ⟨new, rfl⟩ := agree
          exact keys_agree_join new text line
      | _ => exact agree.elim
  | failed ret =>
      cases other with
      | ended keys => exact agree
      | failed code => exact trivial
      | _ => exact agree.elim

theorem keys_agree_run {phase : Phase} {other : KeysPhase} (agree : KeysAgree key phase other)
    (written : List Text) :
    KeysAgree key (readLines sect key phase written) (written.foldl (readKeyLine sect) other) := by
  induction written generalizing phase other with
  | nil => exact agree
  | cons line written induction => exact induction (keys_agree_step agree line)

theorem end_of_keys_joining {keys listed : List Text} {text : Text}
    (ended : endOfKeys (.joining keys text) = .ok listed) : addKey keys text = .listing listed := by
  rw [endOfKeys] at ended
  cases added : addKey keys text with
  | listing found =>
      simp only [added, Except.ok.injEq] at ended
      rw [ended]
  | seekingSection => simp [added] at ended
  | joining found rest => simp [added] at ended
  | ended found => simp [added] at ended
  | failed ret => simp [added] at ended

theorem keys_agree_listed {phase : Phase} {keys : List Text}
    (agree : KeysAgree key phase (.listing keys)) :
    (endOfFile key phase).result.1 = cfgOk ↔ key ∈ keys := by
  cases phase with
  | seekingKey =>
      exact iff_of_false (by simp [endOfFile, Phase.result, cfgKeyNotFound, cfgOk]) agree
  | found value => exact iff_of_true rfl agree
  | seekingSection => exact agree.elim
  | joining text => exact agree.elim
  | failed ret => exact agree.elim

theorem keys_agree_end {phase : Phase} {other : KeysPhase} (agree : KeysAgree key phase other)
    {keys : List Text} (ended : endOfKeys other = .ok keys) :
    (endOfFile key phase).result.1 = cfgOk ↔ key ∈ keys := by
  cases other with
  | seekingSection => cases ended
  | failed code => cases ended
  | listing listed =>
      cases ended
      exact keys_agree_listed agree
  | joining listed joined =>
      have added := end_of_keys_joining ended
      cases phase with
      | joining text =>
          obtain ⟨new, rfl⟩ := agree
          have whole := keys_agree_add new text
          rw [added] at whole
          rw [end_of_file_joining]
          exact keys_agree_listed whole
      | found value =>
          have whole := keys_agree_found_add value agree joined
          rw [added] at whole
          exact iff_of_true rfl whole
      | _ => exact agree.elim
  | ended listed =>
      cases ended
      cases phase with
      | found value => exact iff_of_true rfl agree
      | failed ret =>
          obtain ⟨new, rfl⟩ := agree
          exact iff_of_false (by simp [endOfFile, Phase.result, cfgKeyNotFound, cfgOk]) new
      | _ => exact agree.elim

theorem getkeys_lists_found {content : Text} {keys : List Text}
    (listed : mozartIniGetkeys (some content) sect = .ok keys) :
    (mozartIniGetkey true (some content) sect key).1 = cfgOk ↔ key ∈ keys := by
  rw [getkey_eq_lookup, lookup]
  have start : KeysAgree key .seekingSection .seekingSection := trivial
  exact keys_agree_end (keys_agree_run start (fileLines content)) listed

end Keys

/-! ## The sections listed are the sections found -/

/-- The reader that seeks a section beside the one that collects all. -/
def SectionsAgree (sect : Text) : Phase → Option (List Text) → Prop
  | .seekingSection, some sections => sect ∉ sections
  | .seekingSection, none => False
  | _, some sections => sect ∈ sections
  | _, none => True

section Sections

variable {sect key : Text}

theorem sections_agree_left {phase : Phase} (left : phase ≠ .seekingSection)
    {sections : List Text} : SectionsAgree sect phase (some sections) ↔ sect ∈ sections := by
  cases phase with
  | seekingSection => exact absurd rfl left
  | _ => exact Iff.rfl

theorem section_line_grows (sections : List Text) (line : Text) :
    readSectionLine (some sections) line = none ∨
      ∃ more, readSectionLine (some sections) line = some (sections ++ more) := by
  simp only [readSectionLine]
  split_ifs
  · exact .inr ⟨[], by simp⟩
  · exact .inl rfl
  · exact .inr ⟨_, rfl⟩
  · exact .inr ⟨[], by simp⟩

theorem sections_agree_step {phase : Phase} {sections : Option (List Text)}
    (agree : SectionsAgree sect phase sections) (line : Text) :
    SectionsAgree sect (readLine sect key phase line) (readSectionLine sections line) := by
  by_cases seeking : phase = .seekingSection
  · subst seeking
    cases sections with
    | none => exact agree.elim
    | some sections =>
        have unlisted : sect ∉ sections := agree
        simp only [read_line_seeking, seekSection, readSectionLine]
        by_cases skipped : isSkipped (strtriml (strtrimr line)) = true
        · rw [if_pos skipped, if_pos skipped]
          exact unlisted
        rw [if_neg skipped, if_neg skipped]
        split
        · exact trivial
        · by_cases header : (strtriml (strtrimr line)).head? = some sectionPrefix
          · rw [if_pos header]
            by_cases same : (strtriml (strtrimr line)).tail.dropLast = sect
            · rw [if_pos ⟨header, same⟩]
              exact List.mem_append_right _ (List.mem_singleton.mpr same.symm)
            · rw [if_neg fun both => same both.2]
              simp only [SectionsAgree, List.mem_append, List.mem_singleton, not_or]
              exact ⟨unlisted, fun other => same other.symm⟩
          · rw [if_neg fun both => header both.1, if_neg header]
            exact unlisted
  · have left : readLine sect key phase line ≠ .seekingSection :=
      mt read_line_seeking_section seeking
    cases sections with
    | none =>
        rw [readSectionLine]
        cases next : readLine sect key phase line with
        | seekingSection => exact absurd next left
        | _ => exact trivial
    | some sections =>
        have there := (sections_agree_left seeking).mp agree
        rcases section_line_grows sections line with given_up | ⟨more, grown⟩
        · rw [given_up]
          cases next : readLine sect key phase line with
          | seekingSection => exact absurd next left
          | _ => exact trivial
        · rw [grown, sections_agree_left left]
          exact List.mem_append_left _ there

theorem sections_agree_run {phase : Phase} {sections : Option (List Text)}
    (agree : SectionsAgree sect phase sections) (written : List Text) :
    SectionsAgree sect (readLines sect key phase written)
      (written.foldl readSectionLine sections) := by
  induction written generalizing phase sections with
  | nil => exact agree
  | cons line written induction => exact induction (sections_agree_step agree line)

theorem section_missing_iff (content sect key : Text) :
    (mozartIniGetkey true (some content) sect key).1 = cfgSectionNotFound ↔
      readLines sect key .seekingSection (fileLines content) = .seekingSection := by
  rw [getkey_eq_lookup]
  constructor
  · intro missing
    apply @section_missing_phase sect key
    rcases lookup_cases content sect key with ⟨value, found⟩ | ⟨gone, _⟩ | ⟨ret, failed, _⟩
    · rw [found] at missing
      exact absurd (show cfgOk = cfgSectionNotFound from missing) (by decide)
    · exact gone
    · rw [failed] at missing
      rw [failed, show ret = cfgSectionNotFound from missing]
  · intro seeking
    rw [lookup, seeking]
    rfl

/-- The list holds exactly the sections that are not reported missing. -/
theorem getsections_lists_found {content : Text} {sections : List Text}
    (listed : mozartIniGetsections1 (some content) = some sections) :
    sect ∈ sections ↔ (mozartIniGetkey true (some content) sect key).1 ≠ cfgSectionNotFound := by
  have start : SectionsAgree sect .seekingSection (some []) := List.not_mem_nil
  have agree := @sections_agree_run sect key _ _ start (fileLines content)
  have collected : (fileLines content).foldl readSectionLine (some []) = some sections := by
    rw [mozartIniGetsections1] at listed
    split at listed
    · cases listed
    · cases listed
    · rename_i found same
      rw [same]
      exact listed
  rw [collected] at agree
  rw [Ne, section_missing_iff]
  by_cases seeking : readLines sect key .seekingSection (fileLines content) = .seekingSection
  · rw [seeking] at agree
    exact iff_of_false agree (not_not_intro seeking)
  · exact iff_of_true ((sections_agree_left seeking).mp agree) seeking

end Sections

/-- Whatever the two calls list agrees with what `mozart_ini_getkey` finds. -/
theorem enumeration_agrees_with_lookup (file : Option Text) (sect : Text) :
    (∀ keys, mozartIniGetkeys file sect = .ok keys →
      ∀ key, (mozartIniGetkey true file sect key).1 = cfgOk ↔ key ∈ keys) ∧
    (∀ sections, mozartIniGetsections1 file = some sections →
      ∀ key, sect ∈ sections ↔ (mozartIniGetkey true file sect key).1 ≠ cfgSectionNotFound) := by
  cases file with
  | none =>
      constructor
      · intro keys listed
        cases listed
      · intro sections listed
        cases listed
  | some content =>
      constructor
      · intro keys listed key
        exact getkeys_lists_found listed
      · intro sections listed key
        exact getsections_lists_found listed

/-- A line that continues a key is a header to whoever seeks a section. -/
example : mozartIniGetsections1 (some ['[', 'a', ']', '\n', 'k', '=', '\\', '\n', '[', 'b', ']']) =
    some [['a'], ['b']] := by decide

end Gk7102.IniEnumeration
