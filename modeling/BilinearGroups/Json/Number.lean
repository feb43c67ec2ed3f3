import BilinearGroups.Decimal.Shortest

/-!
# Numbers in JSON

A number is read as its parts by the grammar, and its value is computed from the parts. Integers
have their value exactly as long as they fit a 64-bit word, signed if negative; every other number
becomes a double. The digits that fit a word are collected first, the rest only scales, and the
scaling is done by one multiplication or division by a power of ten.
-/

namespace BilinearGroups.Json

/-- The parts of a number. -/
structure Number where
  /-- A minus sign leads. -/
  negative : Bool
  /-- The digits before the point. -/
  whole : List Nat
  /-- The digits after the point. -/
  fraction : List Nat
  /-- The point or an exponent occurs. -/
  isDecimal : Bool
  /-- The exponent has a minus sign. -/
  exponentNegative : Bool
  /-- The digits of the exponent. -/
  exponent : List Nat
deriving DecidableEq, Repr

/-- The value of a number. -/
inductive NumberValue where
  /-- An integer that fits a word. -/
  | integer (n : Int)
  /-- A double. -/
  | double (x : Float)

namespace Number

/-! ## The grammar -/

/-- The value of a decimal digit. -/
def digitValue (c : Char) : Nat := c.toNat - 48

/-- The digits at the start of a text and what follows. -/
def digits (cs : List Char) : List Nat × List Char :=
  ((cs.takeWhile Char.isDigit).map digitValue, cs.dropWhile Char.isDigit)

/-- The exponent at the start of a text: its sign and digits, and what follows. -/
def exponentPart? : List Char → Option (Bool × List Nat × List Char)
  | c :: cs =>
    if c = 'e' ∨ c = 'E' then
      let (negative, cs) := match cs with
        | '+' :: cs => (false, cs)
        | '-' :: cs => (true, cs)
        | cs => (false, cs)
      match digits cs with
      | ([], _) => none
      | (ds, rest) => some (negative, ds, rest)
    else some (false, [], c :: cs)
  | [] => some (false, [], [])

/-- The number at the start of a text, without its sign, and what follows. A whole part starts with
zero only if it is zero. -/
def readUnsigned? (negative : Bool) (cs : List Char) : Option (Number × List Char) :=
  match digits cs with
  | ([], _) => none
  | (0 :: _ :: _, _) => none
  | (whole, '.' :: rest) =>
    match digits rest with
    | ([], _) => none
    | (fraction, rest) => do
      let (negativeExponent, exponent, rest) ← exponentPart? rest
      return (⟨negative, whole, fraction, true, negativeExponent, exponent⟩, rest)
  | (whole, rest) => do
    let (negativeExponent, exponent, rest) ← exponentPart? rest
    return (⟨negative, whole, [], exponent != [], negativeExponent, exponent⟩, rest)

/-- The number at the start of a text, and what follows. -/
def read? : List Char → Option (Number × List Char)
  | '-' :: cs => readUnsigned? true cs
  | cs => readUnsigned? false cs

/-! ## The value -/

/-- Appends digits to an integer as long as it fits a word, and counts the digits that were appended
and those that were left. -/
def collect : (n appended : Nat) → List Nat → Nat × Nat × Nat
  | n, appended, [] => (n, appended, 0)
  | n, appended, d :: ds =>
    if 10 * n + d < UInt64.size then collect (10 * n + d) (appended + 1) ds
    else (n, appended, ds.length + 1)

/-- The double `10 ^ n`. -/
def powerOfTen (n : Nat) : Float := OfScientific.ofScientific 1 false n

/-- Scales a double down by `10 ^ n`, in steps of the largest power of ten that is a double. -/
def scaleDown : (fuel : Nat) → (x : Float) → (n : Nat) → Float
  | 0, x, _ => x
  | fuel + 1, x, n =>
    if n ≤ 308 then x / powerOfTen n
    else if x == 0 then x
    else scaleDown fuel (x / powerOfTen 308) (n - 308)

/-- The double `n * 10 ^ e`, unless it is too large. -/
def scale? (n : Nat) (e : Int) : Option Float :=
  let x := (UInt64.ofNat n).toFloat
  if 0 ≤ e then
    if e ≤ 308 then
      let y := x * powerOfTen e.toNat
      if y.isInf then none else some y
    else if x == 0 then some x
    else none
  else some (scaleDown 1100000 x (-e).toNat)

/-- The bound of the exponents that are read as written. -/
def exponentBound : Nat := 1 <<< 31

/-- The magnitude of a number as a double, unless it is too large. -/
def magnitude? (x : Number) : Option Float :=
  let (n, _, left) := collect 0 0 x.whole
  let (n, appended, _) := collect n 0 x.fraction
  let exponent := x.exponent.foldl (fun e d ↦ 10 * e + d) 0
  let start : Int := (left : Int) - appended
  if exponent < exponentBound then
    scale? n (if x.exponentNegative then start - exponent else start + exponent)
  else if n = 0 ∨ x.exponentNegative then some 0
  else none

/-- The value of a number, unless it is too large for a double. A negative zero is a double, as no
integer has its sign. -/
def value? (x : Number) : Option NumberValue :=
  let (n, _, left) := collect 0 0 x.whole
  let fits := if x.negative then 0 < n ∧ n ≤ UInt64.size / 2 else True
  if !x.isDecimal ∧ left = 0 ∧ fits then
    some (.integer (if x.negative then -n else n))
  else
    x.magnitude?.map fun y ↦ .double (if x.negative then -y else y)

end Number

/-! ## The text of a double -/

/-- The digits of a decimal with the point after the first `before` of them, for a number of at
least one digit before the point. -/
def placePoint (ds : List Char) (before : Nat) : List Char :=
  if ds.length ≤ before then ds ++ List.replicate (before - ds.length) '0' ++ ['.', '0']
  else ds.take before ++ '.' :: ds.drop before

/-- An exponent with its sign, which is written in either case. -/
def exponentText (n : Int) : List Char :=
  (if n < 0 then '-' else '+') :: Nat.toDigits 10 n.natAbs

/-- The text of a double. Numbers from `10 ^ -5` up to below `10 ^ 16` are written with a point and
at least one digit on either side of it, all others with a signed exponent and no more digits than
needed. -/
def doubleText (x : Float) : String :=
  let sign := if x.toBits >>> 63 == 1 then "-" else ""
  if x == 0 then sign ++ "0.0"
  else
    let d := Decimal.ofBits x.toBits
    let ds := Nat.toDigits 10 d.digits
    let lead : Int := d.exponent + ds.length - 1
    let body :=
      if 0 ≤ lead ∧ lead ≤ 15 then placePoint ds (lead.toNat + 1)
      else if -5 ≤ lead ∧ lead < 0 then
        '0' :: '.' :: List.replicate ((-lead).toNat - 1) '0' ++ ds
      else
        let mantissa := match ds with
          | [] => []
          | [d] => [d]
          | d :: rest => d :: '.' :: rest
        mantissa ++ 'e' :: exponentText lead
    sign ++ String.ofList body

end BilinearGroups.Json
