/-!
# Repeated combination, and residues

The fields of the library are built from residues modulo a prime, and its powers and multiples from
one loop over binary digits.
-/

namespace BilinearGroups

/-! ## Repeated combination by binary digits

Powers in a field and multiples of a point are the same computation: an operation applied to `n`
copies of one argument, found by running over the binary digits of `n` from the most significant
one, doubling at each digit and adding the argument where the digit is one. It is defined once, for
any operation and any digit list, so that its law (the result is the `n`-fold combination whenever
the operation is a monoid) is proved once.
-/

/-- The binary digits of `n`, most significant first and without a leading zero. The first argument
of the recursion bounds the number of digits, and `n` itself is such a bound. -/
def binaryDigits (n : Nat) : List Bool := go n n []
where
  /-- Puts the digits of the second argument in front of the digits already found. -/
  go : Nat → Nat → List Bool → List Bool
    | 0, _, ds => ds
    | fuel + 1, n, ds => if n = 0 then ds else go fuel (n / 2) (n.testBit 0 :: ds)

/-- The combination of `a` with itself that the digits count, starting from `e`. -/
@[specialize] def combineDigits {α : Type} (op : α → α → α) (e a : α) (ds : List Bool) : α :=
  ds.foldl (fun acc d ↦ if d then op (op acc acc) a else op acc acc) e

/-- The combination of `n` copies of `a`, and `e` for no copies. -/
@[specialize] def combineTimes {α : Type} (op : α → α → α) (e a : α) (n : Nat) : α :=
  combineDigits op e a (binaryDigits n)

/-- The product of `n` copies of `a`. -/
@[specialize] def power {α : Type} [Mul α] [One α] (a : α) (n : Nat) : α :=
  combineTimes (· * ·) 1 a n

/-! ## Residues

A residue class modulo `m` is held as its least representative, so equality of values is equality of
classes and an encoding of the representative is canonical. Sums and differences are corrected by
one addition or subtraction of `m`; products are reduced by division.

Inverses come from Euclid's algorithm. It runs on natural numbers: the cofactors of the remainders
alternate in sign, so the algorithm keeps their absolute values and one sign.
-/

/-- A residue class modulo `m`, as its least representative. -/
structure Residue (m : Nat) where
  /-- The representative. -/
  val : Nat
  /-- The representative is the least one. -/
  isLt : val < m
deriving DecidableEq

/-- A number is a modulus if it is positive. -/
class Modulus (m : Nat) : Prop where
  /-- The number is positive. -/
  pos : 0 < m

namespace Residue

variable {m : Nat} [Modulus m]

/-- The class of an integer. -/
def ofNat (m : Nat) [Modulus m] (n : Nat) : Residue m := ⟨n % m, Nat.mod_lt _ Modulus.pos⟩

/-- The class whose least representative is `n`, for an `n` that is one. -/
def ofNat? (m n : Nat) : Option (Residue m) :=
  if h : n < m then some ⟨n, h⟩ else none

instance : Zero (Residue m) := ⟨⟨0, Modulus.pos⟩⟩

instance : One (Residue m) := ⟨ofNat m 1⟩

instance : Inhabited (Residue m) := ⟨0⟩

/-- The sum of two classes. -/
protected def add (a b : Residue m) : Residue m :=
  if h : a.val + b.val < m then ⟨a.val + b.val, h⟩
  else ⟨a.val + b.val - m, by have := a.isLt; have := b.isLt; omega⟩

instance : Add (Residue m) := ⟨Residue.add⟩

/-- The difference of two classes. -/
protected def sub (a b : Residue m) : Residue m :=
  if h : b.val ≤ a.val then ⟨a.val - b.val, by have := a.isLt; omega⟩
  else ⟨a.val + m - b.val, by have := a.isLt; have := b.isLt; omega⟩

instance : Sub (Residue m) := ⟨Residue.sub⟩

/-- The additive inverse of a class. -/
protected def neg (a : Residue m) : Residue m :=
  if h : a.val = 0 then ⟨0, Modulus.pos⟩
  else ⟨m - a.val, by have := a.isLt; omega⟩

instance : Neg (Residue m) := ⟨Residue.neg⟩

/-- The product of two classes. -/
protected def mul (a b : Residue m) : Residue m :=
  ⟨a.val * b.val % m, Nat.mod_lt _ Modulus.pos⟩

instance : Mul (Residue m) := ⟨Residue.mul⟩

/-! ## Inverses -/

/-- Euclid's algorithm on consecutive remainders `r₀`, `r₁` of a division chain that starts at `m`
and `a`. The cofactors `t₀`, `t₁` satisfy `r₀ ≡ ± t₀ a` and `r₁ ≡ ∓ t₁ a` modulo `m`, and `plus`
says that the sign of `t₁` is `+`. The answer is the cofactor of the last nonzero remainder with its
sign; the first argument bounds the number of divisions. -/
def cofactor : (fuel r₀ r₁ t₀ t₁ : Nat) → (plus : Bool) → Nat × Bool
  | 0, _, _, t₀, _, plus => (t₀, !plus)
  | fuel + 1, r₀, r₁, t₀, t₁, plus =>
    if r₁ = 0 then (t₀, !plus)
    else cofactor fuel r₁ (r₀ % r₁) t₁ (t₀ + r₀ / r₁ * t₁) (!plus)

/-- The class `b` with `a * b = 1`, for a representative without a common factor with `m`; the class
of zero is sent to itself. -/
protected def inv (a : Residue m) : Residue m :=
  match cofactor m m a.val 0 1 true with
  | (t, true) => ofNat m t
  | (t, false) => ofNat m (m - t)

instance : Inv (Residue m) := ⟨Residue.inv⟩

/-! ## Square roots -/

/-- A square root of `a`, for a prime `m` that leaves remainder 3 by 4: the only candidates are
`± a ^ ((m + 1) / 4)`, so it is enough to square one of them. -/
def sqrt? (a : Residue m) : Option (Residue m) :=
  let s := power a ((m + 1) / 4)
  if s * s = a then some s else none

end Residue

end BilinearGroups
