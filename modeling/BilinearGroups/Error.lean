import BilinearGroups.Group

/-!
# Errors

An error says what went wrong, and its wording is computed from that in one place. Two layers report
errors: a backend, about single encodings and lists of points, and the library above it, about
elements, contexts and parameters.
-/

namespace BilinearGroups

/-! ## Errors of a backend -/

/-- What a backend refuses. -/
inductive BackendError where
  /-- A scalar encoding has the wrong number of bytes. -/
  | scalarLength
  /-- A scalar encoding is not below the group order. -/
  | scalarValue
  /-- A point encoding has the wrong number of bytes. -/
  | pointLength (group : Group) (compressed : Bool)
  /-- A point encoding is not that of a point of the group. -/
  | pointValue (group : Group) (compressed : Bool)
  /-- A target group encoding has the wrong number of bytes. -/
  | targetLength
  /-- A target group encoding is not that of an element of the group. -/
  | targetValue
  /-- The two lists of a product of pairings differ in length. -/
  | pairingLengths
  /-- A domain separation tag is not a text. -/
  | tagNotText
deriving DecidableEq, Repr

/-- The classes that errors of a backend are reported in. -/
inductive BackendError.Class where
  /-- An encoding was refused. -/
  | serialization
  /-- Operands do not fit each other. -/
  | math
  /-- Anything else. -/
  | other
deriving DecidableEq, Repr

namespace BackendError

/-- The class of an error. -/
def classOf : BackendError → Class
  | pairingLengths => .math
  | tagNotText => .other
  | _ => .serialization

/-- The word that tells point encodings apart. -/
private def form (compressed : Bool) : String := if compressed then "compressed " else ""

/-- The cause of an error. -/
def cause : BackendError → String
  | scalarLength => "invalid scalar length"
  | scalarValue => "invalid scalar bytes"
  | pointLength group compressed => "invalid " ++ form compressed ++ group.name ++ " length"
  | pointValue group compressed => "invalid " ++ form compressed ++ group.name ++ " point"
  | targetLength => "invalid GT length"
  | targetValue => "invalid GT bytes"
  | pairingLengths => "pairing length mismatch"
  | tagNotText => "dst is not utf-8"

/-- The wording of an error. -/
def message (e : BackendError) : String :=
  match e.classOf with
  | .serialization => "serialization failure: " ++ e.cause
  | .math => "math error: " ++ e.cause
  | .other => e.cause

end BackendError

/-! ## Errors of parameters -/

/-- Why a description of a context is refused. -/
inductive ParameterError where
  /-- The curve is not known; the name is the one that was looked up. -/
  | unknownCurve (name : String)
  /-- The hash domain has no characters. -/
  | emptyDomain
  /-- The hash domain has a character that is not printable ASCII. -/
  | domainNotPrintable
  /-- A domain separation tag has too many bytes. -/
  | tagTooLong (group : Group) (length : Nat)
  /-- A line has a key and no value. -/
  | missingValue (line : Nat)
  /-- A line names the curve once more. -/
  | duplicateCurve (line : Nat)
  /-- A line gives the hash domain once more. -/
  | duplicateDomain (line : Nat)
  /-- A line has a key that is not known. -/
  | unknownKey (line : Nat) (key : String)
  /-- No line names the curve. -/
  | missingCurve
deriving DecidableEq, Repr

/-- The largest number of bytes of a domain separation tag. -/
def maxTagLength : Nat := 255

namespace ParameterError

/-- The wording of an error. -/
def message : ParameterError → String
  | unknownCurve name => "unknown curve `" ++ name ++ "`"
  | emptyDomain => "hash domain is empty"
  | domainNotPrintable => "hash domain must be printable ASCII without whitespace"
  | tagTooLong group length =>
    group.name ++ " domain separation tag is " ++ toString length ++ " bytes, limit is "
      ++ toString maxTagLength
  | missingValue line => "line " ++ toString line ++ ": missing value"
  | duplicateCurve line => "line " ++ toString line ++ ": duplicate curve"
  | duplicateDomain line => "line " ++ toString line ++ ": duplicate hash_domain"
  | unknownKey line key => "line " ++ toString line ++ ": unknown key `" ++ key ++ "`"
  | missingCurve => "missing `curve` entry"

end ParameterError

/-! ## Errors of the library -/

/-- Why two operands cannot be combined. -/
inductive Mismatch where
  /-- One group is called for and another is found. -/
  | group (expected found : Group)
  /-- The operands belong to different contexts. -/
  | context
deriving DecidableEq, Repr

/-- An operation that some groups do not have. -/
inductive Operation where
  /-- Setting an element to an integer. -/
  | integerAssignment
  /-- Setting an element to the generator. -/
  | generator
  /-- Writing or reading a compressed form. -/
  | compressedEncoding
deriving DecidableEq, Repr

/-- The wording of an operation. -/
def Operation.name : Operation → String
  | integerAssignment => "integer assignment"
  | generator => "generator"
  | compressedEncoding => "compressed encoding"

/-- Why a call on contexts, elements or pairings fails. -/
inductive Error where
  /-- The description of a context is refused. -/
  | invalidParameters (reason : ParameterError)
  /-- Operands cannot be combined. -/
  | mismatch (reason : Mismatch)
  /-- The element has no inverse. -/
  | notInvertible
  /-- An encoding has the wrong number of bytes. -/
  | wrongLength (group : Group) (expected got : Nat)
  /-- An encoding is refused by the backend. -/
  | invalidEncoding (group : Group) (reason : BackendError)
  /-- The group does not have the operation. -/
  | unsupported (operation : Operation) (group : Group)
  /-- The two lists of a product of pairings differ in length. -/
  | lengthMismatch (left right : Nat)
  /-- A product of pairings has no terms. -/
  | emptyProduct
  /-- An operation of the backend fails. -/
  | backend (reason : BackendError)
  /-- The supply of random words ran out. -/
  | exhausted
deriving DecidableEq, Repr

namespace Mismatch

/-- The wording of a mismatch. -/
def message : Mismatch → String
  | group expected found => "expected " ++ expected.name ++ ", found " ++ found.name
  | context => "operands belong to different pairing contexts"

end Mismatch

namespace Error

/-- The error for an operand of the wrong group. -/
def wrongGroup (expected found : Group) : Error := mismatch (.group expected found)

/-- The error for an operand of a different context. -/
def wrongContext : Error := mismatch .context

/-- The wording of an error. -/
def message : Error → String
  | invalidParameters reason => "invalid parameters: " ++ reason.message
  | mismatch reason => "group mismatch: " ++ reason.message
  | notInvertible => "element is not invertible"
  | wrongLength group expected got =>
    "decode error: " ++ group.name ++ " encoding must be " ++ toString expected ++ " bytes, got "
      ++ toString got
  | invalidEncoding group reason =>
    "decode error: invalid " ++ group.name ++ " encoding: " ++ reason.message
  | unsupported operation group => operation.name ++ " is not supported for " ++ group.name
  | lengthMismatch left right =>
    "length mismatch: " ++ toString left ++ " G1 terms, " ++ toString right ++ " G2 terms"
  | emptyProduct => "product pairing needs at least one term"
  | backend reason => "backend error: " ++ reason.message
  | exhausted => "the supply of random words is exhausted"

end Error

end BilinearGroups
