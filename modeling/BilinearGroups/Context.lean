import BilinearGroups.Backend
import BilinearGroups.Parameters
import BilinearGroups.Text

/-!
# Contexts

A context is built once from valid parameters, and every element belongs to one. Elements of
different contexts do not mix, not even when the contexts were built from equal parameters: what
counts is the act of creation. A context therefore carries the number of its creation, and whoever
creates contexts gives each a new number.

What hashing and decoding need of the parameters is computed at creation: the domain separation tags
and the order of the groups.
-/

namespace BilinearGroups

/-- A context over a backend. -/
structure Context (B : Backend) where
  /-- The number of the creation of the context. -/
  creation : Nat
  /-- The parameters the context was built from. -/
  parameters : Parameters
  /-- The order of the groups, big-endian. -/
  order : Bytes
  /-- The domain separation tags. -/
  tags : PerGroup String

namespace Context

variable {B : Backend}

/-- Builds the context with a given number from parameters, if they are valid. -/
def create (B : Backend) (creation : Nat) (p : Parameters) : Except Error (Context B) :=
  match p.validate with
  | .error reason => .error (.invalidParameters reason)
  | .ok () => .ok ⟨creation, p, B.scalars.orderBytes, PerGroup.ofFunction p.tag⟩

/-- Builds the context with a given number from the text form of parameters. -/
def ofDescription (B : Backend) (creation : Nat) (text : String) : Except Error (Context B) :=
  match Parameters.parse text with
  | .error reason => .error (.invalidParameters reason)
  | .ok p => create B creation p

/-- The first context, with the parameters where nothing is chosen. -/
def standard (B : Backend) : Context B :=
  ⟨0, .default, B.scalars.orderBytes, PerGroup.ofFunction Parameters.default.tag⟩

theorem create_default (B : Backend) : create B 0 .default = .ok (standard B) := by
  have hvalid : Parameters.default.validate = .ok () := rfl
  rw [create, hvalid]
  rfl

/-- The two contexts come from one creation. -/
def sameAs (c d : Context B) : Bool := c.creation == d.creation

/-- The domain separation tag for hashing into a group. -/
def tag (c : Context B) (g : Group) : String := c.tags.get g

/-- The order of a group, big-endian. All four groups have the same order. -/
def groupOrder (c : Context B) (_ : Group) : Bytes := c.order

/-- The number of bytes of a canonical encoding. -/
def byteLength (_ : Context B) : Group → Nat
  | .g1 => B.g1.uncompressedLength
  | .g2 => B.g2.uncompressedLength
  | .gt => B.target.byteLength
  | .zr => B.scalars.byteLength

/-- The number of bytes of a compressed encoding. -/
def compressedByteLength (_ : Context B) : Group → Except Error Nat
  | .g1 => .ok B.g1.compressedLength
  | .g2 => .ok B.g2.compressedLength
  | g => .error (.unsupported .compressedEncoding g)

/-- The diagnostic text of a context. -/
def debugText (c : Context B) : String :=
  "PairingContext \x7b backend: " ++ Text.quote B.name
    ++ ", curve: " ++ c.parameters.curve.debugName
    ++ ", hash_domain: " ++ Text.quote c.parameters.hashDomain
    ++ ", symmetric: " ++ (if B.isSymmetric then "true" else "false") ++ " \x7d"

end Context

end BilinearGroups
