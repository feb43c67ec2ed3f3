import BilinearGroups.Pairing
import BilinearGroups.Proofs.Element.Update

/-!
# The operands of a pairing

Which operands a pairing accepts depends on their contexts and groups alone. On either side it
accepts one source group, and over a symmetric backend both. What it refuses it refuses for a reason
that names the group expected; a foreign context is noticed before any group.
-/

namespace BilinearGroups.Context

variable {B : Backend} {c : Context B} {a b : Element B}

/-- The group is accepted on the left of a pairing. -/
def AcceptsLeft (B : Backend) (g : Group) : Prop := g = .g1 ∨ B.isSymmetric = true ∧ g = .g2

/-- The group is accepted on the right of a pairing. -/
def AcceptsRight (B : Backend) (g : Group) : Prop := g = .g2 ∨ B.isSymmetric = true ∧ g = .g1

theorem leftPoint_g2 {i : SourceIdentification B.G1 B.G2} (hi : B.identification = some i)
    (q : B.G2) : leftPoint (.g2 q) = .ok (i.toG1 q) := by
  simp only [leftPoint, hi]

theorem rightPoint_g1 {i : SourceIdentification B.G1 B.G2} (hi : B.identification = some i)
    (p : B.G1) : rightPoint (.g1 p) = .ok (i.toG2 p) := by
  simp only [rightPoint, hi]

theorem leftPoint_cases (v : Value B) :
    (AcceptsLeft B v.group ∧ ∃ p, leftPoint v = .ok p) ∨
      ¬AcceptsLeft B v.group ∧ leftPoint v = .error (.wrongGroup .g1 v.group) := by
  cases v with
  | g1 p => exact .inl ⟨.inl rfl, p, rfl⟩
  | g2 q =>
    unfold AcceptsLeft Backend.isSymmetric leftPoint
    cases B.identification with
    | none => exact .inr ⟨by simp [Value.group], rfl⟩
    | some i => exact .inl ⟨.inr ⟨rfl, rfl⟩, i.toG1 q, rfl⟩
  | gt t => exact .inr ⟨by simp [AcceptsLeft, Value.group], rfl⟩
  | zr s => exact .inr ⟨by simp [AcceptsLeft, Value.group], rfl⟩

theorem rightPoint_cases (v : Value B) :
    (AcceptsRight B v.group ∧ ∃ q, rightPoint v = .ok q) ∨
      ¬AcceptsRight B v.group ∧ rightPoint v = .error (.wrongGroup .g2 v.group) := by
  cases v with
  | g1 p =>
    unfold AcceptsRight Backend.isSymmetric rightPoint
    cases B.identification with
    | none => exact .inr ⟨by simp [Value.group], rfl⟩
    | some i => exact .inl ⟨.inr ⟨rfl, rfl⟩, i.toG2 p, rfl⟩
  | g2 q => exact .inl ⟨.inl rfl, q, rfl⟩
  | gt t => exact .inr ⟨by simp [AcceptsRight, Value.group], rfl⟩
  | zr s => exact .inr ⟨by simp [AcceptsRight, Value.group], rfl⟩

/-- The operands are accepted, or refused for the first of three reasons. -/
theorem sourcePoints_cases (c : Context B) (a b : Element B) :
    (c.sameAs a.context = true ∧ c.sameAs b.context = true ∧ AcceptsLeft B a.group ∧
        AcceptsRight B b.group ∧ ∃ p q, leftPoint a.value = .ok p ∧ rightPoint b.value = .ok q ∧
          c.sourcePoints a b = .ok (p, q)) ∨
      (¬(c.sameAs a.context = true ∧ c.sameAs b.context = true) ∧
        c.sourcePoints a b = .error .wrongContext) ∨
      (c.sameAs a.context = true ∧ c.sameAs b.context = true ∧ ¬AcceptsLeft B a.group ∧
        c.sourcePoints a b = .error (.wrongGroup .g1 a.group)) ∨
      (c.sameAs a.context = true ∧ c.sameAs b.context = true ∧ AcceptsLeft B a.group ∧
        ¬AcceptsRight B b.group ∧ c.sourcePoints a b = .error (.wrongGroup .g2 b.group)) := by
  unfold sourcePoints
  by_cases hcontext : c.sameAs a.context = true ∧ c.sameAs b.context = true
  · obtain ⟨ha, hb⟩ := hcontext
    rw [ha, hb, if_neg (by decide)]
    obtain ⟨hleft, p, hp⟩ | ⟨hleft, hp⟩ := leftPoint_cases a.value
    · obtain ⟨hright, q, hq⟩ | ⟨hright, hq⟩ := rightPoint_cases b.value
      · exact .inl ⟨rfl, rfl, hleft, hright, p, q, hp, hq, by rw [hp, hq]; rfl⟩
      · exact .inr (.inr (.inr ⟨rfl, rfl, hleft, hright, by rw [hp, hq]; rfl⟩))
    · exact .inr (.inr (.inl ⟨rfl, rfl, hleft, by rw [hp]; rfl⟩))
  · have hforeign : (!c.sameAs a.context || !c.sameAs b.context) = true := by
      rwa [← Bool.not_and, Bool.not_eq_true', Bool.and_eq_false_iff, ← Bool.not_eq_true,
        ← Bool.not_eq_true, ← not_and_or]
    rw [if_pos hforeign]
    exact .inr (.inl ⟨hcontext, rfl⟩)

/-- What the backend has to say about points is no reason to refuse operands. -/
theorem sourcePoints_ne_backend (c : Context B) (a b : Element B) (reason : BackendError) :
    c.sourcePoints a b ≠ .error (.backend reason) := by
  obtain ⟨-, -, -, -, p, q, -, -, h⟩ | ⟨-, h⟩ | ⟨-, -, -, h⟩ | ⟨-, -, -, -, h⟩ :=
    c.sourcePoints_cases a b <;>
  · rw [h]
    exact nofun

theorem pair_eq (c : Context B) (a b : Element B) :
    c.pair a b = (c.sourcePoints a b).map fun point ↦ ⟨c, .gt (B.pairing point.1 point.2)⟩ := by
  rw [pair]
  cases c.sourcePoints a b <;> rfl

/-- A pairing is refused as its operands are. -/
theorem pair_eq_error_iff {reason : Error} :
    c.pair a b = .error reason ↔ c.sourcePoints a b = .error reason := by
  rw [pair_eq]
  cases c.sourcePoints a b <;> simp [Except.map]

theorem exists_pair_iff :
    (∃ e, c.pair a b = .ok e) ↔ ∃ point, c.sourcePoints a b = .ok point := by
  rw [pair_eq]
  cases c.sourcePoints a b <;> simp [Except.map]

/-- A pairing is accepted for operands of its context and of source groups that go together, and
otherwise refused for the first reason there is. -/
theorem pair_acceptance (c : Context B) (a b : Element B) :
    ((∃ e, c.pair a b = .ok e) ↔ (c.sameAs a.context = true ∧ c.sameAs b.context = true) ∧
      AcceptsLeft B a.group ∧ AcceptsRight B b.group) ∧
    (¬(c.sameAs a.context = true ∧ c.sameAs b.context = true) →
      c.pair a b = .error .wrongContext) ∧
    (c.sameAs a.context = true ∧ c.sameAs b.context = true → ¬AcceptsLeft B a.group →
      c.pair a b = .error (.wrongGroup .g1 a.group)) ∧
    (c.sameAs a.context = true ∧ c.sameAs b.context = true → AcceptsLeft B a.group →
      ¬AcceptsRight B b.group → c.pair a b = .error (.wrongGroup .g2 b.group)) := by
  simp only [exists_pair_iff, pair_eq_error_iff]
  obtain ⟨ha, hb, hleft, hright, p, q, -, -, h⟩ | ⟨hforeign, h⟩ | ⟨ha, hb, hleft, h⟩ |
    ⟨ha, hb, hleft, hright, h⟩ := c.sourcePoints_cases a b
  · simp [h, ha, hb, hleft, hright]
  · simp [h, hforeign]
  · simp [h, ha, hb, hleft]
  · simp [h, ha, hb, hleft, hright]

end BilinearGroups.Context
