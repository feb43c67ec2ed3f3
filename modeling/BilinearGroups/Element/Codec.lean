import BilinearGroups.Element
import BilinearGroups.Json.Reader

/-!
# Encodings of elements

The canonical encoding of an element is the full encoding of a point, and the encoding of the
backend for target group elements and scalars. Points have a compressed encoding besides. Reading
checks the length before it asks the backend.

The JSON form of an element is a record of its group and its canonical encoding. The context is not
written: reading takes the context that the element is to belong to, and may be limited to one
group.
-/

namespace BilinearGroups

namespace Value

variable {B : Backend}

/-- The canonical encoding of a value. -/
def toBytes : Value B → Bytes
  | g1 p => B.g1.toUncompressed p
  | g2 q => B.g2.toUncompressed q
  | gt t => B.target.toBytes t
  | zr s => B.scalars.toBytes s

/-- The value of a group with a canonical encoding. -/
def ofBytes (bs : Bytes) : Group → Except BackendError (Value B)
  | .g1 => (B.g1.ofUncompressed bs).map g1
  | .g2 => (B.g2.ofUncompressed bs).map g2
  | .gt => (B.target.ofBytes bs).map gt
  | .zr => (B.scalars.ofBytes bs).map zr

/-- The compressed encoding of a value. -/
def toCompressed : Value B → Except Error Bytes
  | g1 p => .ok (B.g1.toCompressed p)
  | g2 q => .ok (B.g2.toCompressed q)
  | v => .error (.unsupported .compressedEncoding v.group)

end Value

namespace Element

variable {B : Backend}

/-- The canonical encoding of an element. -/
def toBytes (e : Element B) : Bytes := e.value.toBytes

/-- The number of bytes of a canonical encoding. -/
def byteLength (e : Element B) : Nat := e.context.byteLength e.group

/-- The number of bytes of a compressed encoding. -/
def compressedByteLength (e : Element B) : Except Error Nat :=
  e.context.compressedByteLength e.group

/-- The compressed encoding of an element. -/
def toCompressedBytes (e : Element B) : Except Error Bytes := e.value.toCompressed

/-- The encoding has the length that is called for. -/
def checkLength (g : Group) (expected : Nat) (bs : Bytes) : Except Error Unit :=
  if bs.length ≠ expected then .error (.wrongLength g expected bs.length) else .ok ()

/-- What the backend reads, or the refusal of an encoding for a group. -/
def decoded {α : Type} (g : Group) : Except BackendError α → Except Error α
  | .ok a => .ok a
  | .error reason => .error (.invalidEncoding g reason)

/-- The element takes the value with a canonical encoding. -/
def setFromBytes (bs : Bytes) : Update B Unit := do
  let e ← get
  checkLength e.group e.byteLength bs
  assign (← decoded e.group (Value.ofBytes bs e.group))

/-- The element takes the value with a compressed encoding. -/
def setFromCompressedBytes (bs : Bytes) : Update B Unit := do
  let e ← get
  checkLength e.group (← e.compressedByteLength) bs
  match e.group with
  | .g1 => assign (.g1 (← decoded .g1 (B.g1.ofCompressed bs)))
  | .g2 => assign (.g2 (← decoded .g2 (B.g2.ofCompressed bs)))
  -- No other group gets this far, as it has no compressed length.
  | g => throw (.unsupported .compressedEncoding g)

/-- The element of a group with a canonical encoding. -/
def ofBytes (c : Context B) (g : Group) (bs : Bytes) : Except Error (Element B) :=
  (setFromBytes bs).result (fresh c g)

/-- The element of a group with a compressed encoding. -/
def ofCompressedBytes (c : Context B) (g : Group) (bs : Bytes) : Except Error (Element B) :=
  (setFromCompressedBytes bs).result (fresh c g)

/-- The diagnostic text of an element. -/
def debugText (e : Element B) : String :=
  "Element \x7b group: " ++ e.group.debugName ++ ", bytes: \"" ++ Bytes.toHex e.toBytes ++ "\" \x7d"

/-! ## The JSON form -/

/-- The record of a group and an encoding. -/
def record : Json.Record Group Bytes where
  title := "struct ElementHelper"
  firstName := "group"
  readFirst := Group.readJson
  secondName := "bytes"
  readSecond := Json.readBytes
  default? := none

/-- The JSON text of an element. -/
def toJson (e : Element B) : String :=
  Json.printRecord record.firstName (Json.printString e.group.name)
    record.secondName (Json.printBytes e.toBytes)

/-- The element of a context that a group and an encoding describe, where only one group may be
accepted. -/
def ofRecord (c : Context B) (accepted? : Option Group) (g : Group) (bs : Bytes) :
    Except Error (Element B) :=
  match accepted? with
  | some accepted => if g ≠ accepted then .error (.wrongGroup accepted g) else ofBytes c g bs
  | none => ofBytes c g bs

/-- Reads an element of a context at the start of a text. -/
def readJson (c : Context B) (accepted? : Option Group) : Json.Reader (Element B) := fun cs ↦ do
  let ((g, bs), rest) ← record.read cs
  match ofRecord c accepted? g bs with
  | .ok e => return (e, rest)
  | .error reason => Json.fail (.refused reason.message)

end Element

end BilinearGroups
