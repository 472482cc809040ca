import Mathlib.Data.List.Basic

/-!
# The json-c values the program reads

An interface to version 0.12 of the library. A `json_object` pointer is a value
of `JsonObject`, and NULL, which is also how the library represents the JSON
null, is its `null`. A string carries its text up to the first NUL character,
which is all the C code that reads it can see. How a value that is not a string
is printed and how texts and doubles become integers or truth values is left to
the library.
-/

namespace Gk7102.JsonC

set_option autoImplicit false

inductive JsonObject where
  | null
  | boolean (value : Bool)
  | double (text : String)
  | int (value : Int)
  | object (members : List (String × JsonObject))
  | array (elements : List JsonObject)
  | string (text : String)

structure JsonLibrary where
  toJsonString : JsonObject → String
  parseInt64 : String → Option Int
  doubleToInt : String → Int
  toBoolean : JsonObject → Bool

def JsonObject.isNull : JsonObject → Bool
  | .null => true
  | _ => false

/-- The member under the key, NULL included; `none` when the call returns false. -/
def jsonObjectObjectGetEx (object : JsonObject) (key : String) : Option JsonObject :=
  match object with
  | .object members => members.lookup key
  | _ => none

def jsonObjectGetString (library : JsonLibrary) : JsonObject → Option String
  | .null => none
  | .string text => some text
  | other => some (library.toJsonString other)

def clampInt32 (value : Int) : Int :=
  max (-2147483648) (min value 2147483647)

def jsonObjectGetInt (library : JsonLibrary) : JsonObject → Int
  | .boolean value => if value then 1 else 0
  | .int value => clampInt32 value
  | .double text => library.doubleToInt text
  | .string text =>
      match library.parseInt64 text with
      | none => 0
      | some value => clampInt32 value
  | _ => 0

def jsonObjectGetBoolean (library : JsonLibrary) : JsonObject → Bool
  | .null => false
  | .boolean value => value
  | .int value => value != 0
  | .object _ => false
  | .array _ => false
  | other => library.toBoolean other

/-- An index past the end yields NULL; anything but an array is followed as one. -/
def jsonObjectArrayGetIdx (object : JsonObject) (idx : Nat) : Option JsonObject :=
  match object with
  | .array elements => some (elements.getD idx .null)
  | _ => none

/-- Enough for values that are texts and integers already. -/
def plainLibrary : JsonLibrary where
  toJsonString := fun _ => ""
  parseInt64 := fun _ => none
  doubleToInt := fun _ => 0
  toBoolean := fun _ => false

end Gk7102.JsonC
