import BilinearGroups.Element.Arithmetic

/-!
# Calls of a session

A session holds contexts and elements under names. A call names what it works on and says what is to
happen. There are calls that put something under a name, calls that change the element under a name,
and calls that concern contexts alone.

Calls do not depend on a backend, so one list of calls can be run over several.
-/

namespace BilinearGroups.Session

/-- What a new context is built from. -/
inductive Description where
  /-- The parameters where nothing is chosen. -/
  | standard
  /-- A hash domain for the standard curve. -/
  | domain (hashDomain : String)
  /-- The JSON form of parameters. -/
  | json (source : String)
  /-- The text form of parameters. -/
  | text (source : String)
deriving DecidableEq, Repr

/-- How a new element comes about. The names are of a context and of operands. -/
inductive Creation where
  /-- The neutral element of a group. -/
  | fresh (context : String) (group : Group)
  /-- The neutral element of the group of an operand. -/
  | freshLike (operand : String)
  /-- A copy of an operand. -/
  | copy (operand : String)
  /-- The element with a canonical encoding. -/
  | ofBytes (context : String) (group : Group) (bytes : Bytes)
  /-- The element with a compressed encoding. -/
  | ofCompressedBytes (context : String) (group : Group) (bytes : Bytes)
  /-- The element that a JSON text describes, of one accepted group or of any. -/
  | ofJson (context : String) (accepted? : Option Group) (text : String)
  /-- The pairing of two operands. -/
  | pairing (context left right : String)
  /-- The product of the pairings of corresponding operands. -/
  | pairingProduct (context : String) (lefts rights : List String)
deriving DecidableEq, Repr

/-- How an element changes. The names are of operands. -/
inductive Change where
  /-- To the neutral element of the sum. -/
  | zero
  /-- To the neutral element of the product. -/
  | one
  /-- To the class of an integer. -/
  | integer (n : Int64)
  /-- To the value of an operand. -/
  | value (operand : String)
  /-- To the generator. -/
  | generator
  /-- To a value drawn from a supply of random words. -/
  | random (supply : Words)
  /-- To the hash of a message. -/
  | hash (message : Bytes)
  /-- To the value with a canonical encoding. -/
  | bytes (encoding : Bytes)
  /-- To the value with a compressed encoding. -/
  | compressedBytes (encoding : Bytes)
  /-- To the result of an operation on two operands. -/
  | combine (op : BinaryOp) (left right : String)
  /-- To the multiple of an operand by an integer. -/
  | mulInteger (operand : String) (n : Int64)
  /-- To the multiple of an operand by a scalar. -/
  | mulScalar (operand scalar : String)
  /-- To the power of an operand with a scalar as exponent. -/
  | powScalar (operand scalar : String)
  /-- To the inverse of an operand. -/
  | invert (operand : String)
  /-- To the negative of an operand. -/
  | neg (operand : String)
  /-- To the square of an operand. -/
  | square (operand : String)
  /-- To the double of an operand. -/
  | double (operand : String)
  /-- By an operation with an operand. -/
  | combineWith (op : BinaryOp) (operand : String)
  /-- By raising it to a scalar. -/
  | powScalarWith (scalar : String)
  /-- By inverting it. -/
  | inverted
deriving DecidableEq, Repr

/-- A call. -/
inductive Call where
  /-- Puts a new context under a name. -/
  | createContext (name : String) (description : Description)
  /-- Puts a context that has a name under one more name. -/
  | shareContext (name source : String)
  /-- Removes the context under a name. -/
  | dropContext (name : String)
  /-- Puts a new element under a name. -/
  | create (name : String) (creation : Creation)
  /-- Changes the element under a name. -/
  | change (name : String) (change : Change)
deriving DecidableEq, Repr

end BilinearGroups.Session
