import BilinearGroups.Proofs.Backend.Instances

/-!
# Sampling by rejection

A supply of words is read in blocks of four. A block is accepted if its integer, without the top
bit, is below the group order, and a draw by rejection gives that integer for the first block that
is accepted. Nothing else of the supply has an influence on it, and what is left of the supply
begins after that block.

Every integer below the group order comes from two blocks, which differ in the top bit.
-/

namespace BilinearGroups

open Bls12

/-! ## Blocks -/

namespace Limbs

/-- The block with the other top bit. -/
def flipTop (b : Limbs) : Limbs := { b with l3 := b.l3 + 0x8000000000000000 }

/-- The integer without the top bit. -/
def low (b : Limbs) : ℕ := b.toNat % 2 ^ 255

/-- The integer without the top bit is below the group order. -/
def Accepted (b : Limbs) : Prop := b.low < groupOrder

instance (b : Limbs) : Decidable b.Accepted := inferInstanceAs (Decidable (_ < _))

theorem toNat_lt (b : Limbs) : b.toNat < 2 ^ 256 := by
  have h0 := b.l0.toNat_lt
  have h1 := b.l1.toNat_lt
  have h2 := b.l2.toNat_lt
  have h3 := b.l3.toNat_lt
  rw [toNat_eq_sum]
  omega

theorem toNat_injective : Function.Injective toNat := by
  rintro ⟨a0, a1, a2, a3⟩ ⟨b0, b1, b2, b3⟩ h
  simp only [toNat_eq_sum] at h
  rw [mk.injEq, ← UInt64.toNat_inj, ← UInt64.toNat_inj, ← UInt64.toNat_inj, ← UInt64.toNat_inj]
  have := a0.toNat_lt
  have := a1.toNat_lt
  have := a2.toNat_lt
  have := b0.toNat_lt
  have := b1.toNat_lt
  have := b2.toNat_lt
  omega

/-- The top bit has the weight `2 ^ 255`. -/
theorem toNat_flipTop (b : Limbs) : b.flipTop.toNat = (b.toNat + 2 ^ 255) % 2 ^ 256 := by
  have htop : (b.l3 + 0x8000000000000000).toNat = (b.l3.toNat + 2 ^ 63) % 2 ^ 64 :=
    UInt64.toNat_add _ _
  have := b.l0.toNat_lt
  have := b.l1.toNat_lt
  have := b.l2.toNat_lt
  simp only [toNat_eq_sum, flipTop, htop]
  omega

/-- Two blocks differ at most in the top bit if their integers do. -/
theorem low_eq_low_iff {b c : Limbs} : c.low = b.low ↔ c = b ∨ c = b.flipTop := by
  have hb := b.toNat_lt
  have hc := c.toNat_lt
  rw [← toNat_injective.eq_iff, ← toNat_injective.eq_iff (b := b.flipTop), toNat_flipTop, low, low]
  omega

theorem flipTop_ne (b : Limbs) : b.flipTop ≠ b := by
  have hb := b.toNat_lt
  rw [← toNat_injective.ne_iff, toNat_flipTop]
  omega

theorem low_ofNat {n : ℕ} (h : n < 2 ^ 255) : (ofNat n).low = n := by
  rw [low, toNat_ofNat (by omega), Nat.mod_eq_of_lt h]

end Limbs

namespace Words

/-- The blocks of four words, without the words after the last one. -/
def blocks : Words → List Limbs
  | w0 :: w1 :: w2 :: w3 :: ws => ⟨w0, w1, w2, w3⟩ :: blocks ws
  | _ => []

/-- The supply begins with blocks that are rejected and one that is accepted. -/
structure FirstAccepted (ws : Words) (rejected : List Limbs) (first : Limbs) (rest : Words) :
    Prop where
  split : ws = (rejected ++ [first]).flatMap Limbs.toList ++ rest
  rejects : ∀ b ∈ rejected, ¬b.Accepted
  accepts : first.Accepted

variable {ws rest : Words} {rejected : List Limbs} {first : Limbs}

@[simp] theorem blocks_toList_append (b : Limbs) (ws : Words) :
    blocks (b.toList ++ ws) = b :: ws.blocks := rfl

/-- A supply begins with a block, or four words cannot be taken from it. -/
theorem blocks_cases (ws : Words) : ws.blocks = [] ∧ split? 4 ws = none ∨
    ∃ (b : Limbs) (ws' : Words), ws = b.toList ++ ws' := by
  rcases ws with _ | ⟨w0, _ | ⟨w1, _ | ⟨w2, _ | ⟨w3, ws⟩⟩⟩⟩
  · exact .inl ⟨rfl, rfl⟩
  · exact .inl ⟨rfl, rfl⟩
  · exact .inl ⟨rfl, rfl⟩
  · exact .inl ⟨rfl, rfl⟩
  · exact .inr ⟨⟨w0, w1, w2, w3⟩, ws, rfl⟩

theorem length_flatMap_toList (bs : List Limbs) :
    (bs.flatMap Limbs.toList).length = 4 * bs.length := by
  induction bs with
  | nil => rfl
  | cons b bs ih =>
    rw [List.flatMap_cons, List.length_append, ih, List.length_cons, Nat.mul_succ, Nat.add_comm]
    rfl

namespace FirstAccepted

/-- A block that is accepted is the first one. -/
theorem head {b : Limbs} (hb : b.Accepted) (ws : Words) :
    FirstAccepted (b.toList ++ ws) [] b ws where
  split := rfl
  rejects := List.forall_mem_nil _
  accepts := hb

/-- A block that is rejected goes before the others. -/
theorem cons {b : Limbs} (hb : ¬b.Accepted) (h : ws.FirstAccepted rejected first rest) :
    FirstAccepted (b.toList ++ ws) (b :: rejected) first rest where
  split := by rw [h.split, List.cons_append, List.flatMap_cons, List.append_assoc]
  rejects := List.forall_mem_cons.mpr ⟨hb, h.rejects⟩
  accepts := h.accepts

/-- The supply holds four words for each of these blocks. -/
theorem length_eq (h : ws.FirstAccepted rejected first rest) :
    ws.length = 4 * (rejected.length + 1) + rest.length := by
  rw [h.split, List.length_append, length_flatMap_toList, List.length_append,
    List.length_singleton]

end FirstAccepted

/-- A supply with a block that is accepted has a first one. -/
theorem exists_firstAccepted (ws : Words) : (∃ b ∈ ws.blocks, b.Accepted) →
    ∃ rejected first rest, ws.FirstAccepted rejected first rest := by
  fun_induction blocks ws with
  | case1 w0 w1 w2 w3 ws ih =>
    intro h
    let b : Limbs := ⟨w0, w1, w2, w3⟩
    by_cases hb : b.Accepted
    · exact ⟨[], b, ws, .head hb ws⟩
    · obtain ⟨rejected, first, rest, hws⟩ := ih (by simpa [b, hb] using h)
      exact ⟨b :: rejected, first, rest, hws.cons hb⟩
  | case2 => exact fun ⟨_, hb, _⟩ ↦ nomatch hb

end Words

/-! ## Draws -/

namespace Draw

theorem bits_toList_append (b : Limbs) (ws : Words) :
    bits 4 255 (b.toList ++ ws) = some (b.low, ws) := by
  have hnat : Words.toNat b.toList = b.toNat := by
    simp [Words.toNat, Limbs.toList, Limbs.toNat]
  show some (Words.toNat b.toList % (1 <<< 255), ws) = _
  rw [hnat]
  rfl

theorem bits_eq_none {ws : Words} (h : Words.split? 4 ws = none) : bits 4 255 ws = none := by
  rw [bits, map, h]
  rfl

/-- The draw gives a value that depends on the first block that is accepted and on nothing else, and
leaves the words after it; it fails if no block is accepted. -/
structure FromBlock {α : Type} (d : Draw α) (f : ℕ → α) : Prop where
  accepted {ws rest : Words} {rejected : List Limbs} {first : Limbs} :
    ws.FirstAccepted rejected first rest → d ws = some (f first.low, rest)
  exhausted {ws : Words} : (∀ b ∈ ws.blocks, ¬b.Accepted) → d ws = none

variable {α β : Type} {d : Draw α} {f : ℕ → α}

theorem FromBlock.map (h : d.FromBlock f) (g : α → β) {f' : ℕ → β} (hf : ∀ n, g (f n) = f' n) :
    (d.map g).FromBlock f' where
  accepted hws := map_eq_some_iff.mpr ⟨_, h.accepted hws, hf _⟩
  exhausted hws := by
    rw [Draw.map, h.exhausted hws]
    rfl

/-! ## Integers below the group order -/

/-- One turn of the loop that draws an integer below the group order. -/
private def turn : Draw (Option ℕ) :=
  map (fun n ↦ if n < groupOrder then some n else none) (bits 4 255)

private theorem turn_toList_append (b : Limbs) (ws : Words) :
    turn (b.toList ++ ws) = some (if b.Accepted then some b.low else none, ws) := by
  rw [turn, map, bits_toList_append]
  rfl

/-- A loop with more turns than blocks are rejected ends with the first block that is accepted. -/
private theorem untilAcceptedWithin_eq {ws rest : Words} {rejected : List Limbs} {first : Limbs}
    (h : ws.FirstAccepted rejected first rest) {n : ℕ} (hn : rejected.length < n) :
    untilAcceptedWithin turn n ws = some (first.low, rest) := by
  obtain ⟨rfl, hrejects, haccepts⟩ := h
  induction rejected generalizing n with
  | nil =>
    obtain ⟨n, rfl⟩ := Nat.exists_eq_add_one.mpr hn
    show untilAcceptedWithin turn (n + 1) (first.toList ++ rest) = _
    rw [untilAcceptedWithin, turn_toList_append, if_pos haccepts]
  | cons b rejected ih =>
    obtain ⟨n, rfl⟩ := Nat.exists_eq_add_one.mpr (Nat.zero_lt_of_lt hn)
    obtain ⟨hb, hrejects⟩ := List.forall_mem_cons.mp hrejects
    rw [List.cons_append, List.flatMap_cons, List.append_assoc, untilAcceptedWithin,
      turn_toList_append, if_neg hb]
    exact ih (Nat.lt_of_succ_lt_succ hn) hrejects

/-- A loop runs out of words if no block is accepted. -/
private theorem untilAcceptedWithin_eq_none {ws : Words} (h : ∀ b ∈ ws.blocks, ¬b.Accepted)
    (n : ℕ) : untilAcceptedWithin turn n ws = none := by
  induction n generalizing ws with
  | zero => rfl
  | succ n ih =>
    obtain ⟨-, hsplit⟩ | ⟨b, ws, rfl⟩ := ws.blocks_cases
    · rw [untilAcceptedWithin, turn, map, bits_eq_none hsplit]
      rfl
    · obtain ⟨hb, hws⟩ := List.forall_mem_cons.mp h
      rw [untilAcceptedWithin, turn_toList_append, if_neg hb]
      exact ih hws

theorem below_fromBlock : (below 4 255 groupOrder).FromBlock id where
  accepted h := by
    have hfuel := h.length_eq
    exact untilAcceptedWithin_eq h (by omega)
  exhausted h := untilAcceptedWithin_eq_none h _

end Draw

/-! ## Scalars -/

namespace Bls12

theorem drawScalar_fromBlock : drawScalar.FromBlock fun n ↦ (n : Fr) :=
  Draw.below_fromBlock.map (Residue.ofNat groupOrder) fun _ ↦ rfl

/-- The scalar with integer one when scalars are drawn as their multiples by `2 ^ 256`. -/
def scaledOne : Fr := (Residue.ofNat groupOrder (2 ^ 256))⁻¹

theorem drawScaledScalar_fromBlock : drawScaledScalar.FromBlock fun n ↦ (n : Fr) * scaledOne :=
  drawScalar_fromBlock.map (· * scaledOne) fun _ ↦ rfl

end Bls12

end BilinearGroups
