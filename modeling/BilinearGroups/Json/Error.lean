import BilinearGroups.Text

/-!
# Why a JSON text is refused

A text may break the grammar, or follow it and not describe a value of the wanted kind. The first
kind of refusal carries no more detail; the second says what was found and what was expected.
-/

namespace BilinearGroups.Json

/-- What stands where something else is expected. -/
inductive Shape where
  /-- The word for nothing. -/
  | null
  /-- A truth value. -/
  | boolean (b : Bool)
  /-- An integer that fits a word. -/
  | integer (n : Int)
  /-- Any other number, as it is shown. -/
  | double (shown : String)
  /-- A text. -/
  | text (s : String)
  /-- A list. -/
  | sequence
  /-- A list of named values. -/
  | map
deriving DecidableEq, Repr

/-- The wording of what stands somewhere. -/
def Shape.message : Shape → String
  | null => "null"
  | boolean b => "boolean `" ++ (if b then "true" else "false") ++ "`"
  | integer n => "integer `" ++ toString n ++ "`"
  | double shown => "floating point `" ++ shown ++ "`"
  | text s => "string " ++ Text.quote s
  | sequence => "sequence"
  | map => "map"

/-- Why a text that follows the grammar is refused. -/
inductive Fault where
  /-- A value has the wrong shape. -/
  | invalidType (found : Shape) (expected : String)
  /-- A number has the right shape and is out of range. -/
  | invalidValue (found : Shape) (expected : String)
  /-- A list has too few entries. -/
  | invalidLength (length : Nat) (expected : String)
  /-- A name is not one of those expected. -/
  | unknownVariant (name : String) (expected : List String)
  /-- A named value is missing. -/
  | missingField (name : String)
  /-- A named value is given twice. -/
  | duplicateField (name : String)
  /-- The value is refused for a reason of its own. -/
  | refused (reason : String)
deriving DecidableEq, Repr

/-- The wording of a list of alternatives. -/
def alternatives : List String → String
  | [name] => "`" ++ name ++ "`"
  | names => "one of " ++ ", ".intercalate (names.map fun name ↦ "`" ++ name ++ "`")

/-- The wording of a fault. -/
def Fault.message : Fault → String
  | invalidType found expected => "invalid type: " ++ found.message ++ ", expected " ++ expected
  | invalidValue found expected => "invalid value: " ++ found.message ++ ", expected " ++ expected
  | invalidLength length expected =>
    "invalid length " ++ toString length ++ ", expected " ++ expected
  | unknownVariant name expected =>
    "unknown variant `" ++ name ++ "`, expected " ++ alternatives expected
  | missingField name => "missing field `" ++ name ++ "`"
  | duplicateField name => "duplicate field `" ++ name ++ "`"
  | refused reason => reason

/-- Why a text is refused. -/
inductive Error where
  /-- The text breaks the grammar, or ends too early, or goes on too long. -/
  | malformed
  /-- The text does not describe a value of the wanted kind. -/
  | data (fault : Fault)
deriving DecidableEq, Repr

end BilinearGroups.Json
