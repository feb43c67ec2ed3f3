import BilinearGroups.Element

/-!
# Arithmetic on elements

Every group answers to the vocabulary of sums and to that of products. Only the scalars tell them
apart; elsewhere a product is a sum, a quotient a difference and a power a multiple.

Inverses and quotients are refused for the neutral element of every group, as they are for zero
among the scalars. Negatives and differences are not.
-/

namespace BilinearGroups

/-- An operation on two values of one group. -/
inductive BinaryOp where
  /-- The sum. -/
  | add
  /-- The difference. -/
  | sub
  /-- The product. -/
  | mul
  /-- The quotient. -/
  | div
deriving DecidableEq, Repr

/-- The operation combines with the inverse of its second operand. -/
def BinaryOp.invertsSecond : BinaryOp → Bool
  | add | mul => false
  | sub | div => true

namespace Value

variable {B : Backend}

/-- The inverse of a scalar, or the refusal of zero. -/
def scalarInverse (s : B.Scalar) : Except Error B.Scalar :=
  match B.scalars.inv? s with
  | some t => .ok t
  | none => .error .notInvertible

/-- The operation on two scalars. -/
def combineScalars (op : BinaryOp) (a b : B.Scalar) : Except Error B.Scalar :=
  match op with
  | .add => .ok (B.scalars.add a b)
  | .sub => .ok (B.scalars.sub a b)
  | .mul => .ok (B.scalars.mul a b)
  | .div => (scalarInverse b).map (B.scalars.mul a)

/-- The operation on two values. -/
def combine (op : BinaryOp) (v w : Value B) : Except Error (Value B) :=
  -- A divisor is looked at before the groups are.
  if op = .div ∧ w.isIdentity then .error .notInvertible
  else
    match v, w with
    | g1 p, g1 q => .ok (g1 (if op.invertsSecond then B.g1.sub p q else B.g1.add p q))
    | g2 p, g2 q => .ok (g2 (if op.invertsSecond then B.g2.sub p q else B.g2.add p q))
    | gt s, gt t =>
      .ok (gt (B.target.combine s (if op.invertsSecond then B.target.invert t else t)))
    | zr s, zr t => (combineScalars op s t).map zr
    | v, w => .error (.wrongGroup v.group w.group)

/-- The inverse: of the field for scalars, of the group elsewhere. -/
def inverse (v : Value B) : Except Error (Value B) :=
  if v.isIdentity then .error .notInvertible
  else
    match v with
    | g1 p => .ok (g1 (B.g1.neg p))
    | g2 q => .ok (g2 (B.g2.neg q))
    | gt t => .ok (gt (B.target.invert t))
    | zr s => (scalarInverse s).map zr

/-- The negative. -/
def negative : Value B → Value B
  | g1 p => g1 (B.g1.neg p)
  | g2 q => g2 (B.g2.neg q)
  | gt t => gt (B.target.invert t)
  | zr s => zr (B.scalars.neg s)

/-- The multiple by a scalar. -/
def multiple (k : B.Scalar) : Value B → Value B
  | g1 p => g1 (B.g1.scale k p)
  | g2 q => g2 (B.g2.scale k q)
  | gt t => gt (B.target.scale k t)
  | zr s => zr (B.scalars.mul s k)

/-- The power with a scalar as exponent, which outside the scalars is the multiple. -/
def power (k : B.Scalar) : Value B → Value B
  | zr s => zr (B.scalars.pow s (B.scalars.limbs k))
  | v => v.multiple k

end Value

namespace Element

variable {B : Backend}

/-- The scalar that an operand holds. -/
def scalarOperand (e z : Element B) : Except Error B.Scalar :=
  if !e.context.sameAs z.context then .error .wrongContext
  else
    match z.value with
    | .zr k => .ok k
    | v => .error (.wrongGroup .zr v.group)

/-! ## Results of operands -/

/-- The element takes the result of an operation on two operands. -/
def combine (op : BinaryOp) (a b : Element B) : Update B Unit := do
  let e ← get
  e.checkCompatible a
  e.checkCompatible b
  assign (← a.value.combine op b.value)

/-- The element takes the multiple of an operand by an integer. -/
def mulInteger (a : Element B) (n : Int64) : Update B Unit := do
  (← get).checkCompatible a
  assign (a.value.multiple (B.scalars.ofInt64 n))

/-- The element takes the multiple of an operand by a scalar. -/
def mulScalar (a z : Element B) : Update B Unit := do
  let e ← get
  e.checkCompatible a
  let k ← e.scalarOperand z
  assign (a.value.multiple k)

/-- The element takes the power of an operand with a scalar as exponent. -/
def powScalar (a z : Element B) : Update B Unit := do
  let e ← get
  e.checkCompatible a
  let k ← e.scalarOperand z
  assign (a.value.power k)

/-- The element takes the inverse of an operand. -/
def invert (a : Element B) : Update B Unit := do
  (← get).checkCompatible a
  assign (← a.value.inverse)

/-- The element takes the negative of an operand. -/
def neg (a : Element B) : Update B Unit := do
  (← get).checkCompatible a
  assign a.value.negative

/-- The element takes the square of an operand. -/
def square (a : Element B) : Update B Unit := combine .mul a a

/-- The element takes the double of an operand. -/
def double (a : Element B) : Update B Unit := combine .add a a

/-! ## Results of the element itself -/

/-- The element is combined with an operand. -/
def combineWith (op : BinaryOp) (b : Element B) : Update B Unit := do
  let e ← get
  e.checkCompatible b
  assign (← e.value.combine op b.value)

/-- The element is raised to a scalar. -/
def powScalarWith (z : Element B) : Update B Unit := do
  let e ← get
  let k ← e.scalarOperand z
  assign (e.value.power k)

/-- The element is inverted. -/
def inverted : Update B Unit := do assign (← (← get).value.inverse)

end Element

end BilinearGroups
