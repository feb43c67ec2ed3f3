import BilinearGroups.Error
import BilinearGroups.Json.Reader
import BilinearGroups.Text

/-!
# Parameters of a context

A context is described by its curve and by a hash domain, a text that an application chooses.
Hashing into a group happens under a domain separation tag made from the hash domain, the curve and
the group, so equal messages hashed in different domains or into different groups are unrelated.

Parameters can hold any text as hash domain; `validate` says whether a context can be built from
them.
-/

namespace BilinearGroups

/-- The curves that contexts are defined over. -/
inductive CurveName where
  /-- The curve BLS12-381. -/
  | bls12381
deriving DecidableEq, Repr

namespace CurveName

/-- The written name of a curve. -/
def name : CurveName → String
  | bls12381 => "bls12-381"

/-- The name of a curve inside a domain separation tag. -/
def tag : CurveName → String
  | bls12381 => "BLS12381"

/-- The tag of a curve in diagnostic output. -/
def debugName : CurveName → String
  | bls12381 => "Bls12_381"

/-- The spelling under which a curve is looked up: lower case, with hyphens for underscores. -/
def spelling (s : String) : String := s.map fun c ↦ if c = '_' then '-' else c.toLower

/-- The curve that a text names. -/
def parse (s : String) : Except ParameterError CurveName :=
  let name := spelling s
  if name = "bls12-381" ∨ name = "bls12381" then .ok bls12381 else .error (.unknownCurve name)

end CurveName

/-- The hash domain where none is chosen. -/
def defaultHashDomain : String := "PAIRING-ARITH-V01"

/-- The description of a context. -/
structure Parameters where
  /-- The curve. -/
  curve : CurveName
  /-- The hash domain. -/
  hashDomain : String
deriving DecidableEq, Repr

namespace Parameters

/-- The parameters of a curve with the default hash domain. -/
def ofCurve (curve : CurveName) : Parameters := ⟨curve, defaultHashDomain⟩

/-- The parameters where nothing is chosen. -/
def default : Parameters := ofCurve .bls12381

/-- The same parameters with another hash domain. -/
def withHashDomain (p : Parameters) (domain : String) : Parameters :=
  { p with hashDomain := domain }

/-- The hash suite of a group, which closes its domain separation tag. -/
def suite : Group → String
  | .g1 => "G1_XMD:SHA-256_SSWU_RO_"
  | .g2 => "G2_XMD:SHA-256_SSWU_RO_"
  | .gt => "GT_BLAKE3_"
  | .zr => "Zr_BLAKE3_"

/-- The domain separation tag for hashing into a group. -/
def tag (p : Parameters) (g : Group) : String :=
  p.hashDomain ++ "_" ++ p.curve.tag ++ suite g

/-- The character is printable ASCII and not a space. -/
def isGraphic (c : Char) : Bool := 0x21 ≤ c.toNat && c.toNat ≤ 0x7e

/-- The first group of a list whose tag is too long. -/
def checkTags (p : Parameters) : List Group → Except ParameterError Unit
  | [] => .ok ()
  | g :: gs =>
    let length := (p.tag g).utf8ByteSize
    if maxTagLength < length then .error (.tagTooLong g length) else checkTags p gs

/-- Parameters are valid if the hash domain has characters, all of them graphic, and every tag is
short enough. -/
def validate (p : Parameters) : Except ParameterError Unit :=
  if p.hashDomain = "" then .error .emptyDomain
  else if !p.hashDomain.toList.all isGraphic then .error .domainNotPrintable
  else p.checkTags Group.all

/-! ## The text form

A description is a list of lines, each a key and a value with blanks between them. Blank lines and
lines that start with `#` say nothing. The curve is named exactly once, under the key `curve` or
`type`; the hash domain is given at most once, under the key `hash_domain`. Of several offending
lines the first is reported, with its number among all lines.
-/

/-- What the lines of a description have said so far. -/
structure Draft where
  /-- The curve. -/
  curve? : Option CurveName
  /-- The hash domain. -/
  hashDomain? : Option String
deriving DecidableEq

namespace Draft

/-- Nothing has been said. -/
def empty : Draft := ⟨none, none⟩

/-- Takes up the value of a key from line number `n`. -/
def readEntry (d : Draft) (n : Nat) (key value : String) : Except ParameterError Draft :=
  if key = "curve" ∨ key = "type" then do
    let curve ← CurveName.parse value
    if d.curve?.isSome then .error (.duplicateCurve n) else .ok { d with curve? := some curve }
  else if key = "hash_domain" then
    if d.hashDomain?.isSome then .error (.duplicateDomain n)
    else .ok { d with hashDomain? := some value }
  else .error (.unknownKey n key)

/-- Takes up line number `n`. -/
def readLine (d : Draft) (n : Nat) (raw : List Char) : Except ParameterError Draft :=
  let line := Text.trim raw
  if line.isEmpty ∨ line.head? = some '#' then .ok d
  else
    let key := line.takeWhile (!Text.isBlank ·)
    match line.dropWhile (!Text.isBlank ·) with
    | [] => .error (.missingValue n)
    | value => d.readEntry n (String.ofList key) (String.ofList (Text.trim value))

/-- Takes up lines, of which the first has number `n`. -/
def readLines (d : Draft) (n : Nat) : List (List Char) → Except ParameterError Draft
  | [] => .ok d
  | line :: lines => do readLines (← d.readLine n line) (n + 1) lines

/-- The parameters that a description has said. -/
def parameters (d : Draft) : Except ParameterError Parameters :=
  match d.curve? with
  | none => .error .missingCurve
  | some curve => .ok ⟨curve, d.hashDomain?.getD defaultHashDomain⟩

end Draft

/-- The valid parameters that a text describes. -/
def parse (text : String) : Except ParameterError Parameters := do
  let draft ← Draft.empty.readLines 1 (Text.lines text.toList)
  let p ← draft.parameters
  p.validate
  return p

end Parameters

/-! ## The JSON form

Parameters are written as a record of the curve and the hash domain. Reading does not validate them,
and the hash domain may be left out.
-/

/-- Reads the written name of a curve. -/
def CurveName.readJson : Json.Reader CurveName := fun cs ↦ do
  let (_, cs) ← Json.readName [CurveName.bls12381.name] cs
  return (.bls12381, cs)

namespace Parameters

/-- The record of the two parameters. -/
def record : Json.Record CurveName String where
  title := "struct PairingParameters"
  firstName := "curve"
  readFirst := CurveName.readJson
  secondName := "hash_domain"
  readSecond := Json.readString "a string"
  default? := some defaultHashDomain

/-- The parameters that a JSON text describes. -/
def ofJson (text : String) : Except Json.Error Parameters := do
  let (curve, hashDomain) ← Json.readWhole record.read text
  return ⟨curve, hashDomain⟩

/-- The JSON text of parameters. -/
def toJson (p : Parameters) : String :=
  Json.printRecord record.firstName (Json.printString p.curve.name)
    record.secondName (Json.printString p.hashDomain)

end Parameters

namespace Group

/-- Reads the written name of a group. -/
def readJson : Json.Reader Group := fun cs ↦ do
  let (name, cs) ← Json.readName (all.map Group.name) cs
  let group ← Json.orMalformed (ofName? name)
  return (group, cs)

/-- The group that a JSON text names. -/
def ofJson (text : String) : Except Json.Error Group := Json.readWhole readJson text

/-- The JSON text of a group. -/
def toJson (g : Group) : String := String.ofList (Json.printString g.name)

end Group

end BilinearGroups
