import BilinearGroups.Bytes
import BilinearGroups.Json.Token

/-!
# Reading values from JSON

A reader takes the value at the start of a text and leaves what follows, or says why it refuses. The
values of the library need four readers: for a text, for a list of bytes, for a name out of a fixed
list, and for a record of two named values.

A name may be written as a string, or as the name of a single value that is null. A record may be
written with names in any order, where unknown names are skipped and no name occurs twice, or as a
list of its values in order.
-/

namespace BilinearGroups.Json

/-- A reader of values. -/
abbrev Reader (α : Type) := List Char → Except Error (α × List Char)

/-- A result, or the refusal of a text that breaks the grammar. -/
def orMalformed {α : Type} : Option α → Except Error α
  | some a => .ok a
  | none => .error .malformed

/-- The refusal of the value at the start of a text. -/
def refuse {α : Type} (expected : String) (cs : List Char) : Except Error α :=
  match shape? cs with
  | some found => .error (.data (.invalidType found expected))
  | none => .error .malformed

/-- The refusal for a fault. -/
def fail {α : Type} (fault : Fault) : Except Error α := .error (.data fault)

/-- The text after a given character, which may follow blanks. -/
def expectChar (c : Char) (cs : List Char) : Except Error (List Char) :=
  match skipBlanks cs with
  | d :: cs => if c = d then .ok cs else .error .malformed
  | [] => .error .malformed

/-! ## Texts, bytes and names -/

/-- Reads a text. -/
def readString (expected : String) : Reader String := fun cs ↦
  match skipBlanks cs with
  | '"' :: cs => orMalformed (string? cs)
  | cs => refuse expected cs

/-- Reads null. -/
def readNull : Reader Unit := fun cs ↦
  match skipBlanks cs with
  | 'n' :: cs => (orMalformed (word? ['u', 'l', 'l'] cs)).map fun rest ↦ ((), rest)
  | cs => refuse "unit" cs

/-- Reads a byte. -/
def readByte : Reader UInt8 := fun cs ↦
  match skipBlanks cs with
  | [] => .error .malformed
  | c :: cs =>
    if c = '-' ∨ c.isDigit then do
      let (number, rest) ← orMalformed (Number.read? (c :: cs))
      match ← orMalformed number.value? with
      | .integer n =>
        if 0 ≤ n ∧ n < 256 then return (UInt8.ofNat n.toNat, rest)
        else fail (.invalidValue (.integer n) "u8")
      | .double x => fail (.invalidType (.double (doubleText x)) "u8")
    else refuse "u8" (c :: cs)

/-- Reads the elements of a list of bytes that follow its start or an element, at most `fuel` of
them. -/
def readBytesAfter : (fuel : Nat) → (first : Bool) → Reader Bytes
  | 0, _, _ => .error .malformed
  | fuel + 1, first, cs =>
    match skipBlanks cs with
    | ']' :: cs => .ok ([], cs)
    | cs => do
      let cs ← if first then pure cs else expectChar ',' cs
      if (skipBlanks cs).head? = some ']' then .error .malformed
      else
        let (b, cs) ← readByte cs
        let (bs, cs) ← readBytesAfter fuel false cs
        return (b :: bs, cs)

/-- Reads a list of bytes. -/
def readBytes : Reader Bytes := fun cs ↦
  match skipBlanks cs with
  | '[' :: cs => readBytesAfter (cs.length + 1) true cs
  | cs => refuse "a sequence" cs

/-- A name, if it is one of those listed. -/
def checkName (names : List String) (name : String) : Except Error Unit :=
  if name ∈ names then .ok () else fail (.unknownVariant name names)

/-- Reads a name out of a list. -/
def readName (names : List String) : Reader String := fun cs ↦
  match skipBlanks cs with
  | '"' :: cs => do
    let (name, cs) ← orMalformed (string? cs)
    checkName names name
    return (name, cs)
  | '{' :: cs => do
    let cs ← expectChar '"' cs
    let (name, cs) ← orMalformed (string? cs)
    checkName names name
    let cs ← expectChar ':' cs
    let ((), cs) ← readNull cs
    let cs ← expectChar '}' cs
    return (name, cs)
  | _ => .error .malformed

/-! ## Records of two values -/

/-- A record of two named values, of which the second may have a default. -/
structure Record (α β : Type) where
  /-- What the record is called in a refusal. -/
  title : String
  /-- The name of the first value. -/
  firstName : String
  /-- The reader of the first value. -/
  readFirst : Reader α
  /-- The name of the second value. -/
  secondName : String
  /-- The reader of the second value. -/
  readSecond : Reader β
  /-- The second value where none is given. -/
  default? : Option β

namespace Record

variable {α β : Type} (R : Record α β)

/-- The values that have been read so far. -/
abbrev Draft (α β : Type) := Option α × Option β

/-- Reads a member whose opening quote has been read into a draft. A repeated name is refused before
its value is looked at. -/
def readMember (draft : Draft α β) (cs : List Char) : Except Error (Draft α β × List Char) := do
  let (name, cs) ← orMalformed (string? cs)
  if name = R.firstName then
    if draft.1.isSome then fail (.duplicateField name)
    else
      let (a, cs) ← R.readFirst (← expectChar ':' cs)
      return ((some a, draft.2), cs)
  else if name = R.secondName then
    if draft.2.isSome then fail (.duplicateField name)
    else
      let (b, cs) ← R.readSecond (← expectChar ':' cs)
      return ((draft.1, some b), cs)
  else
    let cs ← orMalformed (skip? (← expectChar ':' cs))
    return (draft, cs)

/-- Reads the members that follow the start of the record or a member, at most `fuel` of them. -/
def readMembers : (fuel : Nat) → (first : Bool) → Draft α β → Reader (Draft α β)
  | 0, _, _, _ => .error .malformed
  | fuel + 1, first, draft, cs =>
    match skipBlanks cs with
    | '}' :: cs => .ok (draft, cs)
    | cs => do
      let cs ← if first then pure cs else expectChar ',' cs
      let cs ← expectChar '"' cs
      let (draft, cs) ← R.readMember draft cs
      readMembers fuel false draft cs

/-- The values of a complete draft. -/
def complete : Draft α β → Except Error (α × β)
  | (none, _) => fail (.missingField R.firstName)
  | (some a, some b) => .ok (a, b)
  | (some a, none) =>
    match R.default? with
    | some b => .ok (a, b)
    | none => fail (.missingField R.secondName)

/-- The refusal of a list with too few values. -/
def tooShort {γ : Type} (length : Nat) : Except Error γ :=
  fail (.invalidLength length (R.title ++ " with 2 elements"))

/-- Reads the second value of a list, and the end of the list. -/
def readListRest (a : α) : Reader (α × β) := fun cs ↦
  match skipBlanks cs with
  | ']' :: cs =>
    match R.default? with
    | some b => .ok ((a, b), cs)
    | none => R.tooShort 1
  | cs => do
    let cs ← expectChar ',' cs
    if (skipBlanks cs).head? = some ']' then .error .malformed
    else
      let (b, cs) ← R.readSecond cs
      let cs ← expectChar ']' cs
      return ((a, b), cs)

/-- Reads the values as a list. -/
def readList : Reader (α × β) := fun cs ↦
  match skipBlanks cs with
  | ']' :: _ => R.tooShort 0
  | cs => do
    let (a, cs) ← R.readFirst cs
    R.readListRest a cs

/-- Reads a record. -/
def read : Reader (α × β) := fun cs ↦
  match skipBlanks cs with
  | '{' :: cs => do
    let (draft, cs) ← R.readMembers (cs.length + 1) true (none, none) cs
    return (← R.complete draft, cs)
  | '[' :: cs => R.readList cs
  | cs => refuse R.title cs

end Record

/-! ## Whole texts -/

/-- Reads a text that holds one value and nothing after it but blanks. -/
def readWhole {α : Type} (reader : Reader α) (text : String) : Except Error α := do
  let (a, rest) ← reader text.toList
  if (skipBlanks rest).isEmpty then return a else .error .malformed

end BilinearGroups.Json
