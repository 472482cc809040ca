import Gk7102.JsonC

/-!
# How json-c prints a value

What the replies rest on is one documented fact: json-c escapes the double quote,
the backslash, the slash and the control characters of a text and nothing else,
so an apostrophe is printed as itself. `spacedText` is its spaced printing, which
`json_object_get_string` uses.
-/

namespace Gk7102.JsonC

set_option autoImplicit false

mutual

/-- The keys and texts within a value. -/
def JsonObject.texts : JsonObject → List String
  | .null => []
  | .boolean _ => []
  | .double text => [text]
  | .int _ => []
  | .object members => memberTexts members
  | .array elements => elementTexts elements
  | .string text => [text]

def memberTexts : List (String × JsonObject) → List String
  | [] => []
  | (key, value) :: rest => key :: (value.texts ++ memberTexts rest)

def elementTexts : List JsonObject → List String
  | [] => []
  | value :: rest => value.texts ++ elementTexts rest

end

def HoldApostrophe (texts : List String) : Prop := ∃ text ∈ texts, '\'' ∈ text.toList

def KeepsApostrophes (library : JsonLibrary) : Prop :=
  ∀ object : JsonObject,
    '\'' ∈ (library.toJsonString object).toList ↔ HoldApostrophe object.texts

def hexDigits : List Char := "0123456789abcdef".toList

def hexDigit (value : Nat) : Char := hexDigits.getD value '0'

def jsonEscapeChar (char : Char) : List Char :=
  if char = '\x08' then "\\b".toList
  else if char = '\n' then "\\n".toList
  else if char = '\r' then "\\r".toList
  else if char = '\t' then "\\t".toList
  else if char = '\x0c' then "\\f".toList
  else if char = '"' then "\\\"".toList
  else if char = '\\' then "\\\\".toList
  else if char = '/' then "\\/".toList
  else if char.toNat < 32 then
    "\\u00".toList ++ [hexDigit (char.toNat / 16), hexDigit (char.toNat % 16)]
  else [char]

def jsonEscapeStr (text : String) : List Char := text.toList.flatMap jsonEscapeChar

def quoted (text : String) : List Char := '"' :: (jsonEscapeStr text ++ ['"'])

mutual

def spacedText : JsonObject → List Char
  | .null => "null".toList
  | .boolean value => (if value then "true" else "false").toList
  | .double text => text.toList
  | .int value => (toString value).toList
  | .object members => '\x7b' :: (spacedMembers members ++ " \x7d".toList)
  | .array elements => '[' :: (spacedElements elements ++ " ]".toList)
  | .string text => quoted text

def spacedMembers : List (String × JsonObject) → List Char
  | [] => []
  | (key, value) :: rest =>
      ' ' :: (quoted key ++ ": ".toList ++ spacedText value ++
        (if rest.isEmpty then [] else [',']) ++ spacedMembers rest)

def spacedElements : List JsonObject → List Char
  | [] => []
  | value :: rest =>
      ' ' :: (spacedText value ++ (if rest.isEmpty then [] else [',']) ++ spacedElements rest)

end

def spacedLibrary : JsonLibrary :=
  { plainLibrary with toJsonString := fun object => String.ofList (spacedText object) }

section Apostrophes

@[simp] theorem hold_apostrophe_nil : ¬ HoldApostrophe [] := by
  rintro ⟨text, inside, -⟩
  cases inside

@[simp] theorem hold_apostrophe_cons (text : String) (texts : List String) :
    HoldApostrophe (text :: texts) ↔ '\'' ∈ text.toList ∨ HoldApostrophe texts := by
  simp [HoldApostrophe]

@[simp] theorem hold_apostrophe_append (first second : List String) :
    HoldApostrophe (first ++ second) ↔ HoldApostrophe first ∨ HoldApostrophe second := by
  simp only [HoldApostrophe, List.mem_append, or_and_right, exists_or]

theorem member_texts_append (first second : List (String × JsonObject)) :
    memberTexts (first ++ second) = memberTexts first ++ memberTexts second := by
  induction first with
  | nil => rfl
  | cons member rest ih =>
      rw [List.cons_append, memberTexts, memberTexts, ih, List.cons_append, List.append_assoc]

theorem hex_digit_apostrophe (value : Nat) : '\'' ≠ hexDigit value := by
  rw [hexDigit, List.getD_eq_getElem?_getD]
  cases found : hexDigits[value]? with
  | none => decide
  | some digit =>
      intro same
      have inside : '\'' ∈ hexDigits := same ▸ List.mem_of_getElem? found
      exact absurd inside (by decide)

theorem json_escape_char_apostrophe (char : Char) :
    '\'' ∈ jsonEscapeChar char ↔ char = '\'' := by
  by_cases same : char = '\''
  · subst same
    decide
  · unfold jsonEscapeChar
    split_ifs
    all_goals simp [same, Ne.symm same, hex_digit_apostrophe]

theorem json_escape_str_apostrophe (text : String) :
    '\'' ∈ jsonEscapeStr text ↔ '\'' ∈ text.toList := by
  simp only [jsonEscapeStr, List.mem_flatMap, json_escape_char_apostrophe, exists_eq_right]

@[simp] theorem quoted_apostrophe (text : String) :
    '\'' ∈ quoted text ↔ '\'' ∈ text.toList := by
  simp [quoted, json_escape_str_apostrophe]

theorem nat_repr_apostrophe (value : Nat) : '\'' ∉ value.repr.toList := by
  intro inside
  rw [Nat.toList_repr] at inside
  have digit := Nat.isDigit_of_mem_toDigits (by decide) (by decide) inside
  exact absurd digit (by decide)

theorem int_text_apostrophe (value : Int) : '\'' ∉ (toString value).toList := by
  rw [Int.toString_eq_repr, Int.repr_eq_if]
  split
  · exact nat_repr_apostrophe _
  · rw [String.toList_append, List.mem_append]
    intro inside
    cases inside with
    | inl sign => exact absurd sign (by decide)
    | inr digit => exact nat_repr_apostrophe _ digit

mutual

theorem spaced_text_apostrophe : (object : JsonObject) →
    ('\'' ∈ spacedText object ↔ HoldApostrophe object.texts)
  | .null => by simp [spacedText, JsonObject.texts]
  | .boolean value => by cases value <;> simp [spacedText, JsonObject.texts]
  | .double text => by simp [spacedText, JsonObject.texts]
  | .int value => by
      rw [spacedText, JsonObject.texts]
      exact iff_of_false (int_text_apostrophe value) hold_apostrophe_nil
  | .object members => by
      have inner := spaced_members_apostrophe members
      simp [spacedText, JsonObject.texts, inner]
  | .array elements => by
      have inner := spaced_elements_apostrophe elements
      simp [spacedText, JsonObject.texts, inner]
  | .string text => by simp [spacedText, JsonObject.texts]

theorem spaced_members_apostrophe : (members : List (String × JsonObject)) →
    ('\'' ∈ spacedMembers members ↔ HoldApostrophe (memberTexts members))
  | [] => by simp [spacedMembers, memberTexts]
  | (key, value) :: rest => by
      have first := spaced_text_apostrophe value
      have others := spaced_members_apostrophe rest
      simp [spacedMembers, memberTexts, first, others]

theorem spaced_elements_apostrophe : (elements : List JsonObject) →
    ('\'' ∈ spacedElements elements ↔ HoldApostrophe (elementTexts elements))
  | [] => by simp [spacedElements, elementTexts]
  | value :: rest => by
      have first := spaced_text_apostrophe value
      have others := spaced_elements_apostrophe rest
      simp [spacedElements, elementTexts, first, others]

end

theorem spaced_keeps_apostrophes : KeepsApostrophes spacedLibrary := by
  intro object
  rw [spacedLibrary, String.toList_ofList]
  exact spaced_text_apostrophe object

end Apostrophes

end Gk7102.JsonC
