import BilinearGroups.Bytes
import BilinearGroups.Context

/-!
# Elements

An element is a value of one of the four groups together with its context. Its group is the one the
value belongs to, so the two cannot disagree.

Operations are programs on one element in place (`Update`). They check first that every operand has
the group and the context of the element, the context before the group, and they assign the value
last.
-/

namespace BilinearGroups

/-- A value of one of the four groups. -/
inductive Value (B : Backend) where
  /-- A point of the first source group. -/
  | g1 (p : B.G1)
  /-- A point of the second source group. -/
  | g2 (q : B.G2)
  /-- An element of the target group. -/
  | gt (t : B.Target)
  /-- A scalar. -/
  | zr (s : B.Scalar)

namespace Value

variable {B : Backend}

instance : DecidableEq (Value B)
  | g1 p, g1 q => decidable_of_iff (p = q) (by simp)
  | g2 p, g2 q => decidable_of_iff (p = q) (by simp)
  | gt p, gt q => decidable_of_iff (p = q) (by simp)
  | zr p, zr q => decidable_of_iff (p = q) (by simp)
  | g1 _, g2 _ | g1 _, gt _ | g1 _, zr _ => isFalse nofun
  | g2 _, g1 _ | g2 _, gt _ | g2 _, zr _ => isFalse nofun
  | gt _, g1 _ | gt _, g2 _ | gt _, zr _ => isFalse nofun
  | zr _, g1 _ | zr _, g2 _ | zr _, gt _ => isFalse nofun

/-- The group of a value. -/
def group : Value B → Group
  | g1 _ => .g1
  | g2 _ => .g2
  | gt _ => .gt
  | zr _ => .zr

/-- The neutral element of a group, which is zero for the scalars. -/
def identity : Group → Value B
  | .g1 => g1 B.g1.identity
  | .g2 => g2 B.g2.identity
  | .gt => gt B.target.identity
  | .zr => zr B.scalars.zero

/-- The neutral element of the product, which outside the scalars is the same as that of the sum. -/
def one : Group → Value B
  | .zr => zr B.scalars.one
  | g => identity g

/-- The value is the neutral element of its group. -/
def isIdentity : Value B → Bool
  | g1 p => B.g1.isIdentity p
  | g2 q => B.g2.isIdentity q
  | gt t => B.target.isIdentity t
  | zr s => B.scalars.isZero s

/-- The value is the neutral element of the product. -/
def isOne : Value B → Bool
  | zr s => s = B.scalars.one
  | v => v.isIdentity

/-- The standard generator of a group. -/
def generator : Group → Except Error (Value B)
  | .g1 => .ok (g1 B.g1.generator)
  | .g2 => .ok (g2 B.g2.generator)
  | .gt => .ok (gt B.target.generator)
  | .zr => .error (.unsupported .generator .zr)

/-- A value drawn from a group. -/
def random : Group → Draw (Value B)
  | .g1 => Draw.map g1 B.g1.random
  | .g2 => Draw.map g2 B.g2.random
  | .gt => Draw.map gt B.target.random
  | .zr => Draw.map zr B.scalars.random

/-- The hash of a message in a group, under a domain separation tag. In the target group it is the
generator raised to the hash of the message as a scalar. -/
def hash (message tag : Bytes) : Group → Except BackendError (Value B)
  | .g1 => (B.g1.hash message tag).map g1
  | .g2 => (B.g2.hash message tag).map g2
  | .gt => .ok (gt (B.target.scale (B.scalars.hash message tag) B.target.generator))
  | .zr => .ok (zr (B.scalars.hash message tag))

end Value

/-- A value of one of the groups of a context. -/
structure Element (B : Backend) where
  /-- The context. -/
  context : Context B
  /-- The value. -/
  value : Value B

namespace Element

variable {B : Backend}

/-- The group of an element. -/
def group (e : Element B) : Group := e.value.group

/-- The neutral element of a group of a context. -/
def fresh (c : Context B) (g : Group) : Element B := ⟨c, Value.identity g⟩

/-- The neutral element of the group of an element. -/
def freshLike (e : Element B) : Element B := fresh e.context e.group

/-- The same element with another value. -/
def withValue (e : Element B) (v : Value B) : Element B := { e with value := v }

/-! ## Compatibility -/

/-- The other element has the context and the group of this one. -/
def checkCompatible (e other : Element B) : Except Error Unit :=
  if !e.context.sameAs other.context then .error .wrongContext
  else if e.group ≠ other.group then .error (.wrongGroup e.group other.group)
  else .ok ()

/-! ## Operations in place -/

/-- An operation on an element in place. It fails or not, and either way it leaves an element
behind: what it assigned before a failure stays assigned. -/
abbrev Update (B : Backend) := EStateM Error (Element B)

namespace Update

/-- A computation that may fail and does not touch the element. -/
instance : MonadLift (Except Error) (Update B) where
  monadLift
    | .ok a => pure a
    | .error reason => throw reason

/-- What an operation makes of an element, unless it fails. -/
def result (u : Update B Unit) (e : Element B) : Except Error (Element B) :=
  match u.run e with
  | .ok () e => .ok e
  | .error reason _ => .error reason

end Update

/-- The element takes a value. -/
def assign (v : Value B) : Update B Unit := modify (·.withValue v)

/-! ## Setting the value -/

/-- The element becomes the neutral element of the sum. -/
def setZero : Update B Unit := do assign (Value.identity (← get).group)

/-- The element becomes the neutral element of the product. -/
def setOne : Update B Unit := do assign (Value.one (← get).group)

/-- The element takes the class of an integer, if it is a scalar. -/
def setInteger (n : Int64) : Update B Unit := do
  match (← get).group with
  | .zr => assign (.zr (B.scalars.ofInt64 n))
  | g => throw (.unsupported .integerAssignment g)

/-- The element takes the value of another element. -/
def set (other : Element B) : Update B Unit := do
  (← get).checkCompatible other
  assign other.value

/-- The element becomes the standard generator. -/
def setGenerator : Update B Unit := do assign (← Value.generator (← get).group)

/-- The element takes a value drawn from a supply of random words, of which the rest is the
result. -/
def setRandom (ws : Words) : Update B Words := do
  match Value.random (← get).group ws with
  | some (v, rest) => do
    assign v
    return rest
  | none => throw .exhausted

/-- The element takes the hash of a message, under the domain separation tag of the context for the
group. -/
def setFromHash (message : Bytes) : Update B Unit := do
  let e ← get
  match Value.hash message (Bytes.ofText (e.context.tag e.group)) e.group with
  | .ok v => assign v
  | .error reason => throw (.backend reason)

/-! ## Comparison -/

/-- The element is the neutral element of the sum. -/
def isZero (e : Element B) : Bool := e.value.isIdentity

/-- The element is the neutral element of the product. -/
def isOne (e : Element B) : Bool := e.value.isOne

/-- The elements have one context, one group and one value. -/
def equal (a b : Element B) : Bool := a.context.sameAs b.context && a.value = b.value

/-- The values agree, for elements that can be compared. -/
def compareEqual (a b : Element B) : Except Error Bool := do
  a.checkCompatible b
  return a.value = b.value

/-- The lexicographic order of byte strings. -/
def compareBytes : Bytes → Bytes → Ordering
  | [], [] => .eq
  | [], _ :: _ => .lt
  | _ :: _, [] => .gt
  | a :: as, b :: bs => (compare a b).then (compareBytes as bs)

/-- Scalars of one context are ordered by their encodings, which is the order of their integer
values. Other elements are equal or not in any order. -/
def partialCompare (a b : Element B) : Option Ordering :=
  if !a.context.sameAs b.context then none
  else
    match a.value, b.value with
    | .zr s, .zr t => some (compareBytes (B.scalars.toBytes s) (B.scalars.toBytes t))
    | v, w => if v = w then some .eq else none

/-- The first element is smaller. -/
def less (a b : Element B) : Bool := a.partialCompare b = some .lt

/-- The first element is larger, or the elements are equal. -/
def greaterOrEqual (a b : Element B) : Bool :=
  a.partialCompare b = some .gt || a.partialCompare b = some .eq

end Element

end BilinearGroups
