import BilinearGroups.Bytes
import BilinearGroups.Error
import BilinearGroups.Parameters

/-!
# Questions to a session

A question names contexts and elements, and its answer is a value that mentions no backend. Answers
of sessions over different backends can therefore be compared.
-/

namespace BilinearGroups.Session

/-- A question. The names are of contexts and of elements. -/
inductive Query where
  /-- What the context is. -/
  | context (name : String)
  /-- Whether the names are of one context. -/
  | sameContext (left right : String)
  /-- Whether the element belongs to the context. -/
  | belongs (operand context : String)
  /-- How the elements compare. -/
  | compare (left right : String)
  /-- What the element shows of itself. -/
  | inspect (operand : String)
  /-- The JSON text of the element. -/
  | json (operand : String)
deriving DecidableEq, Repr

/-- What a context is. -/
structure ContextInfo where
  /-- The name of the backend. -/
  backend : String
  /-- The parameters. -/
  parameters : Parameters
  /-- The source groups are one group. -/
  symmetric : Bool
  /-- The orders of the groups. -/
  orders : PerGroup Bytes
  /-- The numbers of bytes of canonical encodings. -/
  byteLengths : PerGroup Nat
  /-- The numbers of bytes of compressed encodings. -/
  compressedByteLengths : PerGroup (Except Error Nat)

/-- How two elements compare. -/
structure Comparison where
  /-- The comparison of the values, or why they cannot be compared. -/
  compareEqual : Except Error Bool
  /-- The elements are equal. -/
  equal : Bool
  /-- The order of the elements, if they have one. -/
  order? : Option Ordering
  /-- The first element is smaller. -/
  less : Bool
  /-- The first element is larger or equal. -/
  greaterOrEqual : Bool

/-- What an element shows of itself. -/
structure Inspection where
  /-- The element is the neutral element of the sum. -/
  isZero : Bool
  /-- The element is the neutral element of the product. -/
  isOne : Bool
  /-- The number of bytes of the canonical encoding. -/
  byteLength : Nat
  /-- The number of bytes of the compressed encoding. -/
  compressedByteLength : Except Error Nat
  /-- The compressed encoding. -/
  compressed : Except Error Bytes
  /-- The diagnostic text. -/
  debugText : String

/-- The answer to a question. -/
inductive Answer where
  /-- To a question about a context. -/
  | context (info : ContextInfo)
  /-- To a question that is true or false. -/
  | truth (b : Bool)
  /-- To a comparison. -/
  | comparison (comparison : Comparison)
  /-- To a question about an element. -/
  | inspection (inspection : Inspection)
  /-- To a question for a text. -/
  | text (text : String)

end BilinearGroups.Session
