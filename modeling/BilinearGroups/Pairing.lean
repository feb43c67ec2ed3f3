import BilinearGroups.Element

/-!
# Pairings of elements

A context pairs an element of the first source group with one of the second. Where the source groups
are one group, either operand may come from either. A product of pairings is computed at once, and
it is refused for the same operands as the single pairings, the first of them deciding.
-/

namespace BilinearGroups.Context

variable {B : Backend}

/-- An element as the left operand of a pairing. -/
def leftPoint : Value B → Except Error B.G1
  | .g1 p => .ok p
  | .g2 q =>
    match B.identification with
    | some i => .ok (i.toG1 q)
    | none => .error (.wrongGroup .g1 .g2)
  | v => .error (.wrongGroup .g1 v.group)

/-- An element as the right operand of a pairing. -/
def rightPoint : Value B → Except Error B.G2
  | .g2 q => .ok q
  | .g1 p =>
    match B.identification with
    | some i => .ok (i.toG2 p)
    | none => .error (.wrongGroup .g2 .g1)
  | v => .error (.wrongGroup .g2 v.group)

/-- The points of two operands of a pairing. -/
def sourcePoints (c : Context B) (a b : Element B) : Except Error (B.G1 × B.G2) := do
  if !c.sameAs a.context || !c.sameAs b.context then .error .wrongContext
  else
    let p ← leftPoint a.value
    let q ← rightPoint b.value
    return (p, q)

/-- The pairing of two elements. -/
def pair (c : Context B) (a b : Element B) : Except Error (Element B) := do
  let (p, q) ← c.sourcePoints a b
  return ⟨c, .gt (B.pairing p q)⟩

/-- The points of the operands of a product of pairings. -/
def allSourcePoints (c : Context B) : List (Element B) → List (Element B) →
    Except Error (List (B.G1 × B.G2))
  | a :: as, b :: bs => do
    let point ← c.sourcePoints a b
    let points ← c.allSourcePoints as bs
    return point :: points
  | _, _ => .ok []

/-- The product of the pairings of corresponding elements. -/
def pairingProduct (c : Context B) (as bs : List (Element B)) : Except Error (Element B) := do
  if as.length ≠ bs.length then .error (.lengthMismatch as.length bs.length)
  else if as.isEmpty then .error .emptyProduct
  else
    let points ← c.allSourcePoints as bs
    match B.pairingProduct (points.map Prod.fst) (points.map Prod.snd) with
    | .ok t => return ⟨c, .gt t⟩
    | .error reason => .error (.backend reason)

end BilinearGroups.Context
