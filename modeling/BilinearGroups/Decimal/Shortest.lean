/-!
# The shortest decimal that reads back

A binary floating-point number stands for the interval of reals that round to it. Of the decimals in
that interval, the one with the fewest digits is chosen, and of those the nearest to the number.
With a given number of digits only the two neighbours of the number on the decimal grid need to be
tried: if any point of the grid lies in the interval, one of them does.

All comparisons are made between natural numbers.
-/

namespace BilinearGroups

/-- The number `digits * 10 ^ exponent`. -/
structure Decimal where
  /-- The significant digits as an integer. -/
  digits : Nat
  /-- The power of ten of the last digit. -/
  exponent : Int
deriving DecidableEq, Repr

namespace Decimal

/-- The power of ten with an exponent, or one for a negative exponent. -/
def tenTo (k : Int) : Nat := Nat.pow 10 k.toNat

/-- The positive number `mid / den`, and the interval from `low / den` to `high / den` of the reals
that round to it. -/
structure Interval where
  (low mid high den : Nat)
  /-- The ends belong to the interval. -/
  closed : Bool

/-- The interval of the binary number `m * 2 ^ q`. The spacing below a power of two that is not the
smallest is half the spacing above. -/
def Interval.ofBinary (m : Nat) (q : Int) (halfBelow : Bool) : Interval :=
  let up := 1 <<< (q - 2).toNat
  ⟨(4 * m - if halfBelow then 1 else 2) * up, 4 * m * up, (4 * m + 2) * up, 1 <<< (2 - q).toNat,
    m % 2 == 0⟩

/-- The exponent of the leading digit of `a / b`, moving by at most `fuel` places from `e`. -/
def leadingExponent : (fuel : Nat) → (a b : Nat) → (e : Int) → Int
  | 0, _, _, e => e
  | fuel + 1, a, b, e =>
    if 10 * b ≤ a then leadingExponent fuel a (10 * b) (e + 1)
    else if a < b then leadingExponent fuel (10 * a) b (e - 1)
    else e

/-- The point `d * 10 ^ k` lies in the interval. -/
def Interval.contains (i : Interval) (d : Nat) (k : Int) : Bool :=
  let x := d * tenTo k * i.den
  let s := tenTo (-k)
  if i.closed then i.low * s ≤ x && x ≤ i.high * s else i.low * s < x && x < i.high * s

/-- The neighbour of the number on the grid of multiples of `10 ^ k` that lies in the interval, and
the nearer one if both do; a tie goes to the even one. -/
def Interval.onGrid? (i : Interval) (k : Int) : Option Nat :=
  let num := i.mid * tenTo (-k)
  let den := i.den * tenTo k
  let below := num / den
  let above := below + 1
  match i.contains below k, i.contains above k with
  | true, true =>
    let rest := 2 * (num % den)
    if rest < den || (rest == den && below % 2 == 0) then some below else some above
  | true, false => some below
  | false, true => some above
  | false, false => none

/-- The first hit among the grids with `n`, `n + 1`, … digits, trying `fuel` of them. -/
def firstHit (i : Interval) (e : Int) : (fuel n : Nat) → Decimal
  | 0, _ => ⟨i.mid / i.den, 0⟩
  | fuel + 1, n =>
    let k := e - (n - 1 : Nat)
    match i.onGrid? k with
    | some d => ⟨d, k⟩
    | none => firstHit i e fuel (n + 1)

/-- Moves zeros at the end of the digits into the exponent, at most `fuel` of them. -/
def dropZeros : (fuel : Nat) → Decimal → Decimal
  | 0, d => d
  | fuel + 1, d =>
    if d.digits ≠ 0 ∧ d.digits % 10 = 0 then dropZeros fuel ⟨d.digits / 10, d.exponent + 1⟩ else d

/-- The shortest decimal in the interval of a number. -/
def shortest (i : Interval) : Decimal :=
  dropZeros 20 (firstHit i (leadingExponent 400 i.mid i.den 0) 17 1)

/-- The shortest decimal of the positive double with the given bits. -/
def ofBits (bits : UInt64) : Decimal :=
  let n := bits.toNat % (1 <<< 63)
  let fraction : Nat := n % (1 <<< 52)
  let field : Nat := n >>> 52
  if field = 0 then shortest (Interval.ofBinary fraction (-1074) false)
  else
    let halfBelow := fraction == 0 && field != 1
    shortest (Interval.ofBinary ((1 <<< 52) + fraction) (field - 1075) halfBelow)

end Decimal

end BilinearGroups
