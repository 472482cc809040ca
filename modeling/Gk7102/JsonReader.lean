import Mathlib.Data.List.Chain

/-!
# Reading a JSON text

A text is cut into tokens, and the tokens are read by a machine that keeps the open
arrays and objects on a stack. A string keeps its pieces as they are written until the
whole text is read; what it stands for is then a list of UTF-16 units. A number keeps its
digits.
-/

namespace Gk7102.JsonReader

set_option autoImplicit false

universe u v

/-- A character of a string that stands for itself, or one that is escaped. -/
inductive Piece where
  | plain (char : Char)
  | escaped (unit : Nat)
deriving DecidableEq, Repr

abbrev Literal : Type := List Piece

/-- A string as the units it is compared by. -/
abbrev Units : Type := List Nat

inductive Mark where
  | openArray
  | closeArray
  | openObject
  | closeObject
  | comma
  | colon
deriving DecidableEq, Repr

inductive Token (Text : Type u) where
  | mark (mark : Mark)
  | word (chars : List Char)
  | text (text : Text)
deriving DecidableEq, Repr

inductive Value (Text : Type u) where
  | null
  | boolean (value : Bool)
  | number (digits : List Char)
  | text (text : Text)
  | array (elements : List (Value Text))
  | object (members : List (Text × Value Text))

/-! ## Words -/

inductive NumberPart where
  | start
  | sign
  | zero
  | whole
  | point
  | fraction
  | exponent
  | exponentSign
  | exponentDigits
deriving DecidableEq, Repr

def numberStep : NumberPart → Char → Option NumberPart
  | .start, char | .sign, char =>
      if char = '0' then some .zero
      else if char.isDigit then some .whole
      else none
  | .zero, char => afterWhole char
  | .whole, char => if char.isDigit then some .whole else afterWhole char
  | .point, char => if char.isDigit then some .fraction else none
  | .fraction, char =>
      if char.isDigit then some .fraction
      else if char = 'e' ∨ char = 'E' then some .exponent
      else none
  | .exponent, char =>
      if char = '+' ∨ char = '-' then some .exponentSign
      else if char.isDigit then some .exponentDigits
      else none
  | .exponentSign, char | .exponentDigits, char =>
      if char.isDigit then some .exponentDigits else none
where
  afterWhole (char : Char) : Option NumberPart :=
    if char = '.' then some .point
    else if char = 'e' ∨ char = 'E' then some .exponent
    else none

def NumberPart.complete (part : NumberPart) : Bool :=
  part ∈ [.zero, .whole, .fraction, .exponentDigits]

def isNumber (chars : List Char) : Bool :=
  match chars with
  | '-' :: rest => (rest.foldlM numberStep .sign).any NumberPart.complete
  | _ => (chars.foldlM numberStep .start).any NumberPart.complete

def wordValue {Text : Type u} (chars : List Char) : Option (Value Text) :=
  if chars = ['n', 'u', 'l', 'l'] then some .null
  else if chars = ['t', 'r', 'u', 'e'] then some (.boolean true)
  else if chars = ['f', 'a', 'l', 's', 'e'] then some (.boolean false)
  else if isNumber chars then some (.number chars)
  else none

/-! ## Tokens -/

def isBlank (char : Char) : Bool := char ∈ [' ', '\t', '\n', '\r']

def markOf : Char → Option Mark
  | '[' => some .openArray
  | ']' => some .closeArray
  | '\x7b' => some .openObject
  | '\x7d' => some .closeObject
  | ',' => some .comma
  | ':' => some .colon
  | _ => none

/-- What a backslash and the character behind it stand for. -/
def escapes : List (Char × Nat) :=
  [('"', 0x22), ('\\', 0x5c), ('/', 0x2f), ('b', 8), ('f', 12), ('n', 10), ('r', 13), ('t', 9)]

def hexValue (char : Char) : Option Nat :=
  if char.isDigit then some (char.toNat - '0'.toNat)
  else if 'a' ≤ char ∧ char ≤ 'f' then some (char.toNat - 'a'.toNat + 10)
  else if 'A' ≤ char ∧ char ≤ 'F' then some (char.toNat - 'A'.toNat + 10)
  else none

/-- Where the text is cut off: between two tokens, in a word, in a string, behind a
backslash, or among the digits of an escape. -/
inductive Lexeme where
  | between
  | word (read : List Char)
  | literal (read : Literal)
  | escape (read : Literal)
  | digits (read : Literal) (value count : Nat)
deriving DecidableEq, Repr

/-- A character that belongs to no string and to no word before it. -/
def startStep (char : Char) : List (Token Literal) × Lexeme :=
  if isBlank char then ([], .between)
  else if char = '"' then ([], .literal [])
  else
    match markOf char with
    | some mark => ([.mark mark], .between)
    | none => ([], .word [char])

def isWordChar (char : Char) : Bool :=
  !isBlank char && char ≠ '"' && (markOf char).isNone

def lexStep : Lexeme → Char → Option (List (Token Literal) × Lexeme)
  | .between, char => some (startStep char)
  | .word read, char =>
      if isWordChar char then some ([], .word (read ++ [char]))
      else some (.word read :: (startStep char).1, (startStep char).2)
  | .literal read, char =>
      if char = '"' then some ([.text read], .between)
      else if char = '\\' then some ([], .escape read)
      else if char.toNat < 32 then none
      else some ([], .literal (read ++ [.plain char]))
  | .escape read, char =>
      if char = 'u' then some ([], .digits read 0 4)
      else (escapes.lookup char).map fun unit => ([], .literal (read ++ [.escaped unit]))
  | .digits read value count, char =>
      (hexValue char).map fun digit =>
        if count ≤ 1 then ([], .literal (read ++ [.escaped (16 * value + digit)]))
        else ([], .digits read (16 * value + digit) (count - 1))

def lex : Lexeme → List Char → Option (List (Token Literal))
  | .between, [] => some []
  | .word read, [] => some [.word read]
  | _, [] => none
  | lexeme, char :: rest => do
      let (tokens, next) ← lexStep lexeme char
      let later ← lex next rest
      some (tokens ++ later)

/-! ## Values -/

/-- An array or an object that waits for the value it is open for. -/
inductive Frame (Text : Type u) where
  | element (before : List (Value Text))
  | member (before : List (Text × Value Text)) (key : Text)

/-- What may come next: a value, behind `[` also its end, behind a brace a key or the
end, behind a comma a key, behind a key the colon, behind a value what closes it. -/
inductive State (Text : Type u) where
  | value (frames : List (Frame Text))
  | firstElement (frames : List (Frame Text))
  | firstKey (frames : List (Frame Text))
  | key (frames : List (Frame Text)) (members : List (Text × Value Text))
  | colon (frames : List (Frame Text)) (members : List (Text × Value Text)) (key : Text)
  | behind (frames : List (Frame Text)) (value : Value Text)

section Machine

variable {Text : Type u}

def startValue (frames : List (Frame Text)) : Token Text → Option (State Text)
  | .text text => some (.behind frames (.text text))
  | .word chars => (wordValue chars).map (.behind frames)
  | .mark .openArray => some (.firstElement frames)
  | .mark .openObject => some (.firstKey frames)
  | .mark _ => none

def step : State Text → Token Text → Option (State Text)
  | .value frames, token => startValue frames token
  | .firstElement frames, token =>
      match token with
      | .mark .closeArray => some (.behind frames (.array []))
      | _ => startValue (.element [] :: frames) token
  | .firstKey frames, token =>
      match token with
      | .mark .closeObject => some (.behind frames (.object []))
      | .text key => some (.colon frames [] key)
      | _ => none
  | .key frames members, token =>
      match token with
      | .text key => some (.colon frames members key)
      | _ => none
  | .colon frames members key, token =>
      match token with
      | .mark .colon => some (.value (.member members key :: frames))
      | _ => none
  | .behind (.element before :: frames) value, token =>
      match token with
      | .mark .comma => some (.value (.element (before ++ [value]) :: frames))
      | .mark .closeArray => some (.behind frames (.array (before ++ [value])))
      | _ => none
  | .behind (.member before key :: frames) value, token =>
      match token with
      | .mark .comma => some (.key frames (before ++ [(key, value)]))
      | .mark .closeObject => some (.behind frames (.object (before ++ [(key, value)])))
      | _ => none
  | .behind [] _, _ => none

def run (state : State Text) (tokens : List (Token Text)) : Option (State Text) :=
  tokens.foldlM step state

def State.whole : State Text → Option (Value Text)
  | .behind [] content => some content
  | _ => none

def readTokens (tokens : List (Token Text)) : Option (Value Text) :=
  (run (.value []) tokens).bind State.whole

end Machine

/-! ## Another spelling of the strings -/

section Maps

variable {Text : Type u} {Other : Type v} (spell : Text → Other)

def Token.map : Token Text → Token Other
  | .mark sign => .mark sign
  | .word chars => .word chars
  | .text content => .text (spell content)

mutual

def Value.map : Value Text → Value Other
  | .null => .null
  | .boolean truth => .boolean truth
  | .number digits => .number digits
  | .text content => .text (spell content)
  | .array elements => .array (mapElements elements)
  | .object members => .object (mapMembers members)

def mapElements : List (Value Text) → List (Value Other)
  | [] => []
  | value :: rest => value.map :: mapElements rest

def mapMembers : List (Text × Value Text) → List (Other × Value Other)
  | [] => []
  | (key, value) :: rest => (spell key, value.map) :: mapMembers rest

end

def Frame.map : Frame Text → Frame Other
  | .element before => .element (mapElements spell before)
  | .member before name => .member (mapMembers spell before) (spell name)

def State.map : State Text → State Other
  | .value frames => .value (frames.map (Frame.map spell))
  | .firstElement frames => .firstElement (frames.map (Frame.map spell))
  | .firstKey frames => .firstKey (frames.map (Frame.map spell))
  | .key frames members => .key (frames.map (Frame.map spell)) (mapMembers spell members)
  | .colon frames members name =>
      .colon (frames.map (Frame.map spell)) (mapMembers spell members) (spell name)
  | .behind frames content => .behind (frames.map (Frame.map spell)) (content.map spell)

@[simp] theorem map_elements_append (front back : List (Value Text)) :
    mapElements spell (front ++ back) = mapElements spell front ++ mapElements spell back := by
  induction front with
  | nil => rfl
  | cons value rest ih => simp [mapElements, ih]

@[simp] theorem map_members_append (front back : List (Text × Value Text)) :
    mapMembers spell (front ++ back) = mapMembers spell front ++ mapMembers spell back := by
  induction front with
  | nil => rfl
  | cons member rest ih => simp [mapMembers, ih]

mutual

theorem value_map_map {Third : Type u} (first : Text → Third) (second : Third → Other) :
    ∀ value : Value Text,
      (value.map first).map second = value.map fun text => second (first text)
  | .null => rfl
  | .boolean _ => rfl
  | .number _ => rfl
  | .text _ => rfl
  | .array elements => by simp [Value.map, map_elements_map first second elements]
  | .object members => by simp [Value.map, map_members_map first second members]

theorem map_elements_map {Third : Type u} (first : Text → Third) (second : Third → Other) :
    ∀ elements : List (Value Text),
      mapElements second (mapElements first elements) =
        mapElements (fun text => second (first text)) elements
  | [] => rfl
  | value :: rest => by
      simp [mapElements, value_map_map first second value, map_elements_map first second rest]

theorem map_members_map {Third : Type u} (first : Text → Third) (second : Third → Other) :
    ∀ members : List (Text × Value Text),
      mapMembers second (mapMembers first members) =
        mapMembers (fun text => second (first text)) members
  | [] => rfl
  | (key, value) :: rest => by
      simp [mapMembers, value_map_map first second value, map_members_map first second rest]

end

theorem word_value_map (chars : List Char) :
    wordValue chars = (wordValue chars : Option (Value Text)).map (Value.map spell) := by
  unfold wordValue
  split_ifs <;> rfl

theorem start_value_map (frames : List (Frame Text)) (token : Token Text) :
    startValue (frames.map (Frame.map spell)) (token.map spell) =
      (startValue frames token).map (State.map spell) := by
  cases token with
  | text text => rfl
  | mark mark => cases mark <;> rfl
  | word chars =>
      rw [Token.map, startValue, word_value_map spell chars, startValue, Option.map_map,
        Option.map_map]
      rfl

/-- The machine does not look into the strings. -/
theorem step_map (state : State Text) (token : Token Text) :
    step (state.map spell) (token.map spell) = (step state token).map (State.map spell) := by
  cases state with
  | value frames => exact start_value_map spell frames token
  | firstElement frames =>
      have started := start_value_map spell (.element [] :: frames) token
      cases token with
      | mark mark => cases mark <;> rfl
      | word chars => exact started
      | text text => rfl
  | firstKey frames => cases token with
      | mark mark => cases mark <;> rfl
      | word chars => rfl
      | text text => rfl
  | key frames members => cases token <;> rfl
  | colon frames members key => cases token with
      | mark mark => cases mark <;> rfl
      | word chars => rfl
      | text text => rfl
  | behind frames value =>
      cases frames with
      | nil => rfl
      | cons frame rest =>
          cases frame <;> cases token with
          | word chars => rfl
          | text text => rfl
          | mark mark =>
              cases mark <;>
                simp [State.map, Frame.map, Token.map, step, mapElements, mapMembers, Value.map]

theorem run_map (state : State Text) (tokens : List (Token Text)) :
    run (state.map spell) (tokens.map (Token.map spell)) =
      (run state tokens).map (State.map spell) := by
  induction tokens generalizing state with
  | nil => rfl
  | cons token rest ih =>
      have stepped := step_map spell state token
      unfold run at *
      rw [List.map_cons, List.foldlM_cons, List.foldlM_cons, stepped]
      cases step state token with
      | none => rfl
      | some next => exact ih next

theorem read_tokens_map (tokens : List (Token Text)) :
    readTokens (tokens.map (Token.map spell)) = (readTokens tokens).map (Value.map spell) := by
  have started := run_map spell (.value []) tokens
  unfold readTokens
  rw [show (State.value [] : State Other) = (State.value []).map spell from rfl, started]
  cases run (State.value []) tokens with
  | none => rfl
  | some state => cases state with
      | behind frames value => cases frames <;> rfl
      | value | firstElement | firstKey | key | colon => rfl

end Maps

/-! ## The strings of a value -/

section Texts

variable {Text : Type u} {Other : Type v}

mutual

def Value.texts : Value Text → List Text
  | .null => []
  | .boolean _ => []
  | .number _ => []
  | .text content => [content]
  | .array elements => elementTexts elements
  | .object members => memberTexts members

def elementTexts : List (Value Text) → List Text
  | [] => []
  | value :: rest => value.texts ++ elementTexts rest

def memberTexts : List (Text × Value Text) → List Text
  | [] => []
  | (key, value) :: rest => key :: (value.texts ++ memberTexts rest)

end

def Token.texts : Token Text → List Text
  | .text content => [content]
  | _ => []

def Frame.texts : Frame Text → List Text
  | .element before => elementTexts before
  | .member before name => name :: memberTexts before

def State.texts : State Text → List Text
  | .value frames => frames.flatMap Frame.texts
  | .firstElement frames => frames.flatMap Frame.texts
  | .firstKey frames => frames.flatMap Frame.texts
  | .key frames members => memberTexts members ++ frames.flatMap Frame.texts
  | .colon frames members name => name :: memberTexts members ++ frames.flatMap Frame.texts
  | .behind frames content => content.texts ++ frames.flatMap Frame.texts

@[simp] theorem element_texts_append (front back : List (Value Text)) :
    elementTexts (front ++ back) = elementTexts front ++ elementTexts back := by
  induction front with
  | nil => rfl
  | cons value rest ih => simp [elementTexts, ih]

@[simp] theorem member_texts_append (front back : List (Text × Value Text)) :
    memberTexts (front ++ back) = memberTexts front ++ memberTexts back := by
  induction front with
  | nil => rfl
  | cons member rest ih => simp [memberTexts, ih]

mutual

/-- Two spellings of a value are the same exactly when they spell each of its strings alike. -/
theorem map_eq_map_iff (first second : Text → Other) : ∀ value : Value Text,
    value.map first = value.map second ↔ ∀ text ∈ value.texts, first text = second text
  | .null => by simp [Value.map, Value.texts]
  | .boolean _ => by simp [Value.map, Value.texts]
  | .number _ => by simp [Value.map, Value.texts]
  | .text _ => by simp [Value.map, Value.texts]
  | .array elements => by
      simpa [Value.map, Value.texts] using map_elements_eq_iff first second elements
  | .object members => by
      simpa [Value.map, Value.texts] using map_members_eq_iff first second members

theorem map_elements_eq_iff (first second : Text → Other) : ∀ elements : List (Value Text),
    mapElements first elements = mapElements second elements ↔
      ∀ text ∈ elementTexts elements, first text = second text
  | [] => by simp [mapElements, elementTexts]
  | value :: rest => by
      rw [mapElements, mapElements, List.cons.injEq, map_eq_map_iff first second value,
        map_elements_eq_iff first second rest]
      simp only [elementTexts, List.forall_mem_append]

theorem map_members_eq_iff (first second : Text → Other) :
    ∀ members : List (Text × Value Text),
      mapMembers first members = mapMembers second members ↔
        ∀ text ∈ memberTexts members, first text = second text
  | [] => by simp [mapMembers, memberTexts]
  | (key, value) :: rest => by
      rw [mapMembers, mapMembers, List.cons.injEq, Prod.mk.injEq,
        map_eq_map_iff first second value, map_members_eq_iff first second rest]
      simp only [memberTexts, List.forall_mem_cons, List.forall_mem_append, and_assoc]

end

theorem word_value_texts {chars : List Char} {value : Value Text}
    (known : wordValue chars = some value) : value.texts = [] := by
  unfold wordValue at known
  split_ifs at known <;> obtain rfl := Option.some.inj known <;> rfl

variable {state next : State Text} {token : Token Text}

theorem start_value_texts {frames : List (Frame Text)}
    (started : startValue frames token = some next) (text : Text) :
    text ∈ next.texts ↔ text ∈ token.texts ∨ text ∈ frames.flatMap Frame.texts := by
  cases token with
  | text content =>
      obtain rfl := Option.some.inj started
      simp [State.texts, Value.texts, Token.texts]
  | word chars =>
      obtain ⟨value, known, rfl⟩ := Option.map_eq_some_iff.mp started
      simp [State.texts, Token.texts, word_value_texts known]
  | mark mark =>
      cases mark with
      | openArray | openObject =>
          obtain rfl := Option.some.inj started
          simp [State.texts, Token.texts]
      | closeArray | closeObject | comma | colon => cases started

theorem step_texts (stepped : step state token = some next) (text : Text) :
    text ∈ next.texts ↔ text ∈ token.texts ∨ text ∈ state.texts := by
  cases state with
  | value frames => exact start_value_texts stepped text
  | firstElement frames =>
      simp only [step] at stepped
      split at stepped
      · obtain rfl := Option.some.inj stepped
        simp [State.texts, Value.texts, Token.texts, elementTexts]
      · simpa [Frame.texts, elementTexts, State.texts] using start_value_texts stepped text
  | firstKey frames =>
      simp only [step] at stepped
      split at stepped
      · obtain rfl := Option.some.inj stepped
        simp [State.texts, Value.texts, Token.texts, memberTexts]
      · obtain rfl := Option.some.inj stepped
        simp [State.texts, Token.texts, memberTexts]
      · cases stepped
  | key frames members =>
      simp only [step] at stepped
      split at stepped
      · obtain rfl := Option.some.inj stepped
        simp [State.texts, Token.texts]
      · cases stepped
  | colon frames members key =>
      simp only [step] at stepped
      split at stepped
      · obtain rfl := Option.some.inj stepped
        simp [State.texts, Token.texts, Frame.texts]
      · cases stepped
  | behind frames value =>
      cases frames with
      | nil => cases stepped
      | cons frame rest =>
          cases frame with
          | element before =>
              simp only [step] at stepped
              split at stepped
              · obtain rfl := Option.some.inj stepped
                simp [State.texts, Token.texts, Frame.texts, elementTexts, or_left_comm]
              · obtain rfl := Option.some.inj stepped
                simp [State.texts, Token.texts, Frame.texts, elementTexts, Value.texts,
                  or_left_comm]
              · cases stepped
          | member before key =>
              simp only [step] at stepped
              split at stepped
              · obtain rfl := Option.some.inj stepped
                simp [State.texts, Token.texts, Frame.texts, memberTexts, or_left_comm]
              · obtain rfl := Option.some.inj stepped
                simp [State.texts, Token.texts, Frame.texts, memberTexts, Value.texts,
                  or_left_comm]
              · cases stepped

theorem run_texts {tokens : List (Token Text)} (ran : run state tokens = some next)
    (text : Text) :
    text ∈ next.texts ↔ text ∈ tokens.flatMap Token.texts ∨ text ∈ state.texts := by
  induction tokens generalizing state with
  | nil =>
      obtain rfl := Option.some.inj ran
      simp
  | cons token rest ih =>
      obtain ⟨middle, stepped, later⟩ := Option.bind_eq_some_iff.mp ran
      rw [ih later, step_texts stepped]
      simp only [List.flatMap_cons, List.mem_append]
      grind

theorem read_tokens_texts {tokens : List (Token Text)} {value : Value Text}
    (read : readTokens tokens = some value) (text : Text) :
    text ∈ value.texts ↔ .text text ∈ tokens := by
  obtain ⟨state, ran, whole⟩ := Option.bind_eq_some_iff.mp read
  have texts := run_texts ran text
  have last : state = .behind [] value := by
    unfold State.whole at whole
    split at whole
    · rw [Option.some.inj whole]
    · cases whole
  rw [last] at texts
  simp only [State.texts, List.flatMap_nil, List.append_nil, List.not_mem_nil, or_false,
    List.mem_flatMap] at texts
  rw [texts]
  constructor
  · rintro ⟨token, inside, held⟩
    cases token with
    | text content =>
        obtain rfl := List.mem_singleton.mp held
        exact inside
    | mark | word => cases held
  · exact fun inside => ⟨_, inside, List.mem_singleton_self _⟩

end Texts

/-! ## Words stand apart -/

section Words

variable {Text : Type u}

def Token.isWord : Token Text → Bool
  | .word _ => true
  | _ => false

def WordsApart (tokens : List (Token Text)) : Prop :=
  tokens.IsChain fun first second => first.isWord = true → second.isWord = false

theorem words_apart_back {front back : List (Token Text)} (apart : WordsApart (front ++ back)) :
    WordsApart back :=
  (List.isChain_append.mp apart).2.1

theorem words_apart_map {Other : Type v} (spell : Text → Other) {tokens : List (Token Text)}
    (apart : WordsApart tokens) : WordsApart (tokens.map (Token.map spell)) := by
  have same : ∀ token : Token Text, (token.map spell).isWord = token.isWord := by
    intro token
    cases token <;> rfl
  apply (List.isChain_map _).mpr
  apply apart.imp
  intro first second
  rw [same, same]
  exact id

theorem word_leads_behind {state next : State Text} {token : Token Text}
    (stepped : step state token = some next) (word : token.isWord = true) :
    ∃ frames value, next = .behind frames value := by
  have started : ∀ frames : List (Frame Text), startValue frames token = some next →
      ∃ frames value, next = .behind frames value := by
    intro frames started
    cases token with
    | word chars =>
        obtain ⟨value, -, rfl⟩ := Option.map_eq_some_iff.mp started
        exact ⟨frames, value, rfl⟩
    | mark | text => cases word
  cases token with
  | mark | text => cases word
  | word chars =>
      cases state with
      | value frames => exact started frames stepped
      | firstElement frames => exact started _ stepped
      | firstKey | key | colon => cases stepped
      | behind frames value =>
          cases frames with
          | nil => cases stepped
          | cons frame rest => cases frame <;> cases stepped

theorem no_word_behind {frames : List (Frame Text)} {value : Value Text} {next : State Text}
    {token : Token Text} (stepped : step (.behind frames value) token = some next) :
    token.isWord = false := by
  cases token with
  | mark | text => rfl
  | word chars =>
      cases frames with
      | nil => cases stepped
      | cons frame rest => cases frame <;> cases stepped

theorem run_words_apart {tokens : List (Token Text)} {state next : State Text}
    (ran : run state tokens = some next) : WordsApart tokens := by
  induction tokens generalizing state with
  | nil => exact List.IsChain.nil
  | cons token rest ih =>
      obtain ⟨middle, stepped, later⟩ := Option.bind_eq_some_iff.mp ran
      cases rest with
      | nil => exact List.IsChain.singleton _
      | cons second rest =>
          apply List.isChain_cons_cons.mpr
          refine ⟨fun word => ?_, ih later⟩
          obtain ⟨frames, value, rfl⟩ := word_leads_behind stepped word
          obtain ⟨following, again, -⟩ := Option.bind_eq_some_iff.mp later
          exact no_word_behind again

theorem read_words_apart {tokens : List (Token Text)} {value : Value Text}
    (read : readTokens tokens = some value) : WordsApart tokens := by
  obtain ⟨state, ran, -⟩ := Option.bind_eq_some_iff.mp read
  exact run_words_apart ran

end Words

/-! ## A text without its blanks -/

def withoutBlanks (literal : Literal) : Literal := literal.filter (· ≠ .plain ' ')

def Lexeme.withoutBlanks : Lexeme → Lexeme
  | .literal read => .literal (JsonReader.withoutBlanks read)
  | .escape read => .escape (JsonReader.withoutBlanks read)
  | .digits read shifted count => .digits (JsonReader.withoutBlanks read) shifted count
  | lexeme => lexeme

section Blanks

theorem start_step_word {char : Char} (word : isWordChar char = true) :
    startStep char = ([], .word [char]) := by
  simp only [isWordChar, Bool.and_eq_true, Bool.not_eq_true', decide_eq_true_eq,
    Option.isNone_iff_eq_none] at word
  obtain ⟨⟨blank, quote⟩, mark⟩ := word
  simp [startStep, blank, quote, mark]

theorem start_step_without_blanks (char : Char) :
    (startStep char).1.map (Token.map withoutBlanks) = (startStep char).1 ∧
      (startStep char).2.withoutBlanks = (startStep char).2 := by
  unfold startStep
  split_ifs
  · exact ⟨rfl, rfl⟩
  · exact ⟨rfl, rfl⟩
  · cases markOf char <;> exact ⟨rfl, rfl⟩

theorem plain_without_blanks {char : Char} (solid : char ≠ ' ') (read : Literal) :
    withoutBlanks (read ++ [.plain char]) = withoutBlanks read ++ [.plain char] := by
  simp [withoutBlanks, solid]

theorem escaped_without_blanks (read : Literal) (unit : Nat) :
    withoutBlanks (read ++ [.escaped unit]) = withoutBlanks read ++ [.escaped unit] := by
  simp [withoutBlanks]

theorem lex_step_without_blanks (lexeme : Lexeme) {char : Char} (solid : char ≠ ' ') :
    lexStep lexeme.withoutBlanks char = (lexStep lexeme char).map fun stepped =>
      (stepped.1.map (Token.map withoutBlanks), stepped.2.withoutBlanks) := by
  obtain ⟨emitted, following⟩ := start_step_without_blanks char
  cases lexeme with
  | between =>
      change some (startStep char) = some (_, _)
      rw [emitted, following]
  | word read =>
      change lexStep (.word read) char = _
      simp only [lexStep]
      split_ifs
      · rfl
      · simp [emitted, following, Token.map]
  | literal read =>
      simp only [Lexeme.withoutBlanks, lexStep]
      split_ifs
      · rfl
      · rfl
      · rfl
      · simp [plain_without_blanks solid]
  | escape read =>
      simp only [Lexeme.withoutBlanks, lexStep]
      split_ifs
      · rfl
      · cases escapes.lookup char with
        | none => rfl
        | some unit => simp [escaped_without_blanks]
  | digits read value count =>
      simp only [Lexeme.withoutBlanks, lexStep]
      cases hexValue char with
      | none => rfl
      | some digit =>
          simp only [Option.map_some]
          split_ifs
          · simp [escaped_without_blanks]
          · rfl

theorem lex_cons_eq_some {lexeme : Lexeme} {char : Char} {rest : List Char}
    {tokens : List (Token Literal)} :
    lex lexeme (char :: rest) = some tokens ↔
      ∃ first next later, lexStep lexeme char = some (first, next) ∧
        lex next rest = some later ∧ tokens = first ++ later := by
  have unfolded : lex lexeme (char :: rest) =
      (lexStep lexeme char).bind fun stepped =>
        (lex stepped.2 rest).bind fun later => some (stepped.1 ++ later) := by
    cases lexeme <;> rfl
  rw [unfolded]
  simp only [Option.bind_eq_some_iff, Prod.exists, Option.some.injEq]
  grind

theorem lex_word_starts {read : List Char} {rest : List Char} {tokens : List (Token Literal)}
    (cut : lex (.word read) rest = some tokens) :
    ∃ word later, tokens = .word word :: later := by
  induction rest generalizing read with
  | nil =>
      obtain rfl := Option.some.inj cut
      exact ⟨read, [], rfl⟩
  | cons char rest ih =>
      obtain ⟨first, next, later, stepped, lexed, rfl⟩ := lex_cons_eq_some.mp cut
      simp only [lexStep] at stepped
      split_ifs at stepped with word
      · obtain ⟨rfl, rfl⟩ := Prod.mk.inj (Option.some.inj stepped)
        exact ih lexed
      · obtain ⟨rfl, rfl⟩ := Prod.mk.inj (Option.some.inj stepped)
        exact ⟨read, _, rfl⟩

/-- A word that nothing separates from the text behind it ends all the same, if no word
follows. -/
theorem lex_word_of_apart {read : List Char} {rest : List Char} {tokens : List (Token Literal)}
    (cut : lex .between rest = some tokens) (apart : WordsApart (.word read :: tokens)) :
    lex (.word read) rest = some (.word read :: tokens) := by
  cases rest with
  | nil =>
      obtain rfl := Option.some.inj cut
      rfl
  | cons char rest =>
      obtain ⟨first, next, later, stepped, lexed, rfl⟩ := lex_cons_eq_some.mp cut
      have same := Option.some.inj stepped
      apply lex_cons_eq_some.mpr
      by_cases word : isWordChar char = true
      · rw [start_step_word word] at same
        obtain ⟨rfl, rfl⟩ := Prod.mk.inj same
        obtain ⟨second, after, rfl⟩ := lex_word_starts lexed
        have follows := (List.isChain_cons_cons.mp apart).1 rfl
        cases follows
      · refine ⟨.word read :: first, next, later, ?_, lexed, rfl⟩
        simp [lexStep, word, same]

/-- Without its blanks a text has the same tokens, but for the blanks in its strings. -/
theorem lex_without_blanks {lexeme : Lexeme} {rest : List Char} {tokens : List (Token Literal)}
    (cut : lex lexeme rest = some tokens) (apart : WordsApart tokens) :
    lex lexeme.withoutBlanks (rest.filter (· ≠ ' ')) =
      some (tokens.map (Token.map withoutBlanks)) := by
  induction rest generalizing lexeme tokens with
  | nil =>
      cases lexeme with
      | between | word =>
          obtain rfl := Option.some.inj cut
          rfl
      | literal | escape | digits => cases cut
  | cons char rest ih =>
      obtain ⟨first, next, later, stepped, lexed, rfl⟩ := lex_cons_eq_some.mp cut
      have back := ih lexed (words_apart_back apart)
      by_cases blank : char = ' '
      · subst blank
        rw [List.filter_cons_of_neg (by simp)]
        cases lexeme with
        | between =>
            obtain ⟨rfl, rfl⟩ := Prod.mk.inj (Option.some.inj stepped)
            exact back
        | word read =>
            obtain ⟨rfl, rfl⟩ := Prod.mk.inj (Option.some.inj stepped)
            exact lex_word_of_apart back (words_apart_map withoutBlanks apart)
        | literal read =>
            obtain ⟨rfl, rfl⟩ := Prod.mk.inj (Option.some.inj stepped)
            simpa [Lexeme.withoutBlanks, withoutBlanks] using back
        | escape read => cases stepped
        | digits read value count => cases stepped
      · rw [List.filter_cons_of_pos (by simpa using blank)]
        apply lex_cons_eq_some.mpr
        refine ⟨_, _, _, ?_, back, List.map_append⟩
        rw [lex_step_without_blanks lexeme blank, stepped]
        rfl

end Blanks

/-! ## Whole texts -/

def readWritten (text : List Char) : Option (Value Literal) :=
  (lex .between text).bind readTokens

def Piece.units : Piece → Units
  | .plain char =>
      if char.toNat < 0x10000 then [char.toNat]
      else [0xd800 + (char.toNat - 0x10000) / 0x400, 0xdc00 + (char.toNat - 0x10000) % 0x400]
  | .escaped unit => [unit]

def unitsOf (literal : Literal) : Units := literal.flatMap Piece.units

def read (text : List Char) : Option (Value Units) := (readWritten text).map (Value.map unitsOf)

/-- The strings of a text, keys among them, as they are written. -/
def literals (text : List Char) : List Literal :=
  ((lex .between text).getD []).flatMap Token.texts

section Whole

variable {text : List Char} {value : Value Literal}

theorem read_written_without_blanks (written : readWritten text = some value) :
    readWritten (text.filter (· ≠ ' ')) = some (value.map withoutBlanks) := by
  obtain ⟨tokens, cut, readAll⟩ := Option.bind_eq_some_iff.mp written
  have apart := read_words_apart readAll
  have again : lex .between (text.filter (· ≠ ' ')) =
      some (tokens.map (Token.map withoutBlanks)) := lex_without_blanks cut apart
  rw [readWritten, again, Option.bind_some, read_tokens_map, readAll]
  rfl

theorem mem_texts_iff_literals (written : readWritten text = some value) (literal : Literal) :
    literal ∈ value.texts ↔ literal ∈ literals text := by
  obtain ⟨tokens, cut, readAll⟩ := Option.bind_eq_some_iff.mp written
  rw [read_tokens_texts readAll, literals, cut, Option.getD_some, List.mem_flatMap]
  constructor
  · exact fun inside => ⟨_, inside, List.mem_singleton_self _⟩
  · rintro ⟨token, inside, held⟩
    cases token with
    | text content =>
        obtain rfl := List.mem_singleton.mp held
        exact inside
    | mark | word => cases held

theorem units_without_blanks_length (literal : Literal) :
    (unitsOf (withoutBlanks literal)).length + literal.count (.plain ' ') =
      (unitsOf literal).length := by
  induction literal with
  | nil => rfl
  | cons piece rest ih =>
      simp only [unitsOf, withoutBlanks] at *
      by_cases blank : piece = .plain ' '
      · subst blank
        rw [List.filter_cons_of_neg (by simp), List.count_cons_self, List.flatMap_cons,
          List.length_append, ← ih]
        simp [Piece.units]
        omega
      · rw [List.filter_cons_of_pos (by simpa using blank), List.count_cons_of_ne blank,
          List.flatMap_cons, List.flatMap_cons, List.length_append, List.length_append, ← ih]
        omega

theorem units_without_blanks_iff (literal : Literal) :
    unitsOf (withoutBlanks literal) = unitsOf literal ↔ .plain ' ' ∉ literal := by
  constructor
  · intro same
    have length := units_without_blanks_length literal
    rw [same] at length
    exact List.count_eq_zero.mp (by omega)
  · intro free
    have kept : withoutBlanks literal = literal := by
      apply List.filter_eq_self.mpr
      intro piece inside
      simpa using ne_of_mem_of_not_mem inside free
    rw [kept]

/-- The blanks of a text can be left out without a change of its value exactly when none of
them stands in a string. -/
theorem read_without_blanks_iff (readable : (read text).isSome) :
    read (text.filter (· ≠ ' ')) = read text ↔
      ∀ literal ∈ literals text, .plain ' ' ∉ literal := by
  obtain ⟨_, same⟩ := Option.isSome_iff_exists.mp readable
  obtain ⟨value, written, rfl⟩ := Option.map_eq_some_iff.mp same
  rw [read, read, read_written_without_blanks written, written, Option.map_some, Option.map_some,
    Option.some.injEq, value_map_map, map_eq_map_iff]
  simp only [mem_texts_iff_literals written, units_without_blanks_iff]

/-- A blank between two words parts them. -/
example : (read ['[', '1', ' ', '2', ']']).isNone ∧ (read ['[', '1', '2', ']']).isSome := by
  decide

end Whole

end Gk7102.JsonReader
