import BilinearGroups.Bytes
import BilinearGroups.Algebra

/-!
# Drawing from a supply of random words

Randomness is a finite list of 64-bit words. A draw takes words from its front and leaves the rest,
or fails when there are too few. Whatever is drawn is thus determined by the words it took, and how
many those were can be read off the rest.

Values in a range are drawn by rejection: a block of words is read as an integer, and blocks are
drawn until one is in the range. A loop of rejections needs no bound of its own, because each turn
shortens the supply.
-/

namespace BilinearGroups

/-- A supply of random words. -/
abbrev Words := List UInt64

/-- A computation that takes words from a supply. -/
abbrev Draw (α : Type) := Words → Option (α × Words)

namespace Words

/-- The first `n` words and the rest. -/
def split? : (n : Nat) → Draw Words
  | 0, ws => some ([], ws)
  | _ + 1, [] => none
  | n + 1, w :: ws => (split? n ws).map fun (front, rest) ↦ (w :: front, rest)

/-- The integer with the given 64-bit digits, least significant first. -/
def toNat : Words → Nat
  | [] => 0
  | w :: ws => w.toNat + UInt64.size * toNat ws

/-- The bytes of words, each least significant byte first. -/
def toBytes (ws : Words) : Bytes := ws.flatMap fun w ↦ Bytes.ofNatLE 8 w.toNat

/-- The next `n` words of the SplitMix generator with the given state. -/
def splitMix : (n : Nat) → (state : UInt64) → Words
  | 0, _ => []
  | n + 1, state =>
    let state := state + 0x9E3779B97F4A7C15
    let z := (state ^^^ (state >>> 30)) * 0xBF58476D1CE4E5B9
    let z := (z ^^^ (z >>> 27)) * 0x94D049BB133111EB
    (z ^^^ (z >>> 31)) :: splitMix n state

/-- How many words of a generator a supply holds. A draw takes a few dozen words on average, so that
many are never used up in practice. -/
def generated : Nat := 4096

/-- The supply of given words, followed by words of the SplitMix generator with the given state. -/
def seeded (words : Words) (state : UInt64) : Words := words ++ splitMix generated state

end Words

namespace Draw

variable {α β : Type}

/-- Draws, and transforms what was drawn. -/
def map (f : α → β) (d : Draw α) : Draw β := fun ws ↦ (d ws).map fun (a, rest) ↦ (f a, rest)

theorem map_eq_some_iff {f : α → β} {d : Draw α} {ws rest : Words} {b : β} :
    map f d ws = some (b, rest) ↔ ∃ a, d ws = some (a, rest) ∧ f a = b := by
  rw [map, Option.map_eq_some_iff]
  constructor
  · rintro ⟨⟨a, _⟩, hdraw, heq⟩
    cases heq
    exact ⟨a, hdraw, rfl⟩
  · rintro ⟨a, hdraw, rfl⟩
    exact ⟨(a, rest), hdraw, rfl⟩

/-- Draws one value and then, depending on it, another. -/
def andThen (d : Draw α) (f : α → Draw β) : Draw β := fun ws ↦
  (d ws).bind fun (a, rest) ↦ f a rest

/-- The values of `n` draws in order. -/
def replicate (d : Draw α) : (n : Nat) → Draw (List α)
  | 0 => fun ws ↦ some ([], ws)
  | n + 1 => andThen d fun a ↦ map (a :: ·) (replicate d n)

/-- Draws until a value is accepted, at most `n` times. -/
def untilAcceptedWithin (d : Draw (Option α)) : (n : Nat) → Draw α
  | 0, _ => none
  | n + 1, ws =>
    match d ws with
    | none => none
    | some (some a, rest) => some (a, rest)
    | some (none, rest) => untilAcceptedWithin d n rest

/-- Draws until a value is accepted. A draw that takes at least one word cannot be repeated more
often than there are words. -/
def untilAccepted (d : Draw (Option α)) : Draw α := fun ws ↦ untilAcceptedWithin d ws.length ws

/-! ## Integers and bytes -/

/-- An integer of `bits` bits from a block of `count` words, least significant word first; the bits
above are dropped. -/
def bits (count bits : Nat) : Draw Nat :=
  map (fun ws ↦ ws.toNat % (1 <<< bits)) (Words.split? count)

/-- An integer below `bound`, by rejection among integers of `bits` bits. -/
def below (count bits bound : Nat) : Draw Nat :=
  untilAccepted (map (fun n ↦ if n < bound then some n else none) (Draw.bits count bits))

/-- `n` bytes from the fewest words that hold them. -/
def bytes (n : Nat) : Draw Bytes :=
  map (fun ws ↦ ws.toBytes.take n) (Words.split? ((n + 7) / 8))

/-! ## Residues -/

/-- A residue whose representative is drawn by rejection. -/
def residue (m : Nat) [Modulus m] (count bits : Nat) : Draw (Residue m) :=
  map (Residue.ofNat m) (below count bits m)

/-- A residue whose multiple by `2 ^ (64 count)` is drawn by rejection. As multiplication by a unit
permutes the residues, this is again a uniform draw. -/
def scaledResidue (m : Nat) [Modulus m] (count bits : Nat) : Draw (Residue m) :=
  map (· * (Residue.ofNat m (1 <<< (64 * count)))⁻¹) (residue m count bits)

end Draw

end BilinearGroups
