import BilinearGroups.Proofs.Backend.Closed
import BilinearGroups.Proofs.Session.Step

/-!
# Sessions only hold members

Whatever is called, in whatever order, and whether it fails or not: the elements that a session
holds afterwards belong to their groups, and each is read back from its encoding. In particular the
short form of a target group element, which only members have, exists whenever it is asked for.

Over the exponent model there is nothing to assume. Over the backend with short target encodings the
hashes, the draws and the pairings are assumed to give members; `Torus.Maps.guarded` shows how any
maps are made to.
-/

namespace BilinearGroups

open Bls12 Session

/-! ## Maps that are made to give members -/

namespace Torus.Maps

/-- The maps with the neutral element in place of whatever is not a member. -/
def guarded (M : Torus.Maps) : Torus.Maps where
  hashG1 message tag := guardPoint G1.curve (M.hashG1 message tag)
  hashG2 message tag := guardPoint G2.curve (M.hashG2 message tag)
  drawG1 := Draw.map (guardPoint G1.curve) M.drawG1
  drawG2 := Draw.map (guardPoint G2.curve) M.drawG2
  drawTarget := Draw.map guardTarget M.drawTarget
  pairing P Q := guardTarget (M.pairing P Q)
  pairingProduct Ps Qs := guardTarget (M.pairingProduct Ps Qs)
where
  /-- The point, if it is a member. -/
  guardPoint {F : Type} [DecidableEq F] [Zero F] [Add F] [Sub F] [Neg F] [Mul F] [Inv F]
      (C : SourceCurve F) (P : Point F) : Point F :=
    if C.Member P then P else .infinity
  /-- The target group element, if it is a member. -/
  guardTarget (f : Fp12) : Fp12 := if TargetMember f then f else 1

theorem guardPoint_member {F : Type} [DecidableEq F] [Zero F] [Add F] [Sub F] [Neg F] [Mul F]
    [Inv F] (C : SourceCurve F) (P : Point F) : C.Member (guarded.guardPoint C P) := by
  unfold guarded.guardPoint
  split_ifs with h
  · exact h
  · exact SourceCurve.member_infinity

theorem guardTarget_member (f : Fp12) : TargetMember (guarded.guardTarget f) := by
  unfold guarded.guardTarget
  split_ifs with h
  · exact h
  · exact .one

theorem guarded_returnsMembers (M : Torus.Maps) : M.guarded.ReturnsMembers where
  hashG1 _ _ := guardPoint_member _ _
  hashG2 _ _ := guardPoint_member _ _
  drawG1 h := by
    obtain ⟨P, -, rfl⟩ := Draw.map_eq_some_iff.mp h
    exact guardPoint_member _ P
  drawG2 h := by
    obtain ⟨Q, -, rfl⟩ := Draw.map_eq_some_iff.mp h
    exact guardPoint_member _ Q
  drawTarget h := by
    obtain ⟨f, -, rfl⟩ := Draw.map_eq_some_iff.mp h
    exact guardTarget_member f
  pairing _ _ := by
    dsimp only [guarded]
    exact guardTarget_member _
  pairingProduct _ _ := by
    dsimp only [guarded]
    exact guardTarget_member _

end Torus.Maps

/-! ## Closure -/

/-- After any calls from an empty session, every element belongs to its group and is read back from
its encoding. -/
theorem held_element_member :
    (∀ M : Torus.Maps, M.ReturnsMembers →
      ∀ (calls : List Call) (name : String) (e : Element (torusBackendOver M)),
        ((Session.empty (torusBackendOver M)).run calls).elements.get? name = some e →
          (torusMembership M).Holds e.value ∧
            (∀ f, e.value = .gt f → TargetEncoding.toShort? f = some e.toBytes) ∧
            Element.ofBytes e.context e.group e.toBytes = .ok e) ∧
    (∀ (calls : List Call) (name : String) (e : Element exponentModel),
      ((Session.empty exponentModel).run calls).elements.get? name = some e →
        exponentMembership.Holds e.value ∧
          Element.ofBytes e.context e.group e.toBytes = .ok e) := by
  constructor
  · intro M hM calls name e he
    have hmember : (torusMembership M).Holds e.value :=
      holds_of_held_run (torusMembership_closed hM) calls e.value ⟨name, e, he, rfl⟩
    refine ⟨hmember, ?_, Element.ofBytes_toBytes (torusMembership_readsBack M) hmember⟩
    intro f hf
    rw [Element.toBytes, hf]
    rw [hf] at hmember
    exact TargetEncoding.toShort?_eq_some hmember
  · intro calls name e he
    have hmember : exponentMembership.Holds e.value :=
      holds_of_held_run exponentMembership_closed calls e.value ⟨name, e, he, rfl⟩
    exact ⟨hmember, Element.ofBytes_toBytes exponentMembership_readsBack hmember⟩

/-- A context, the generators of the source groups, a failing change of one, and the pairing. -/
def pairingCalls : List Call :=
  [.createContext "c" .standard, .create "P" (.fresh "c" .g1), .change "P" .generator,
    .create "Q" (.fresh "c" .g2), .change "Q" .generator, .change "Q" (.integer 3),
    .create "T" (.pairing "c" "P" "Q")]

theorem held_element_member_pairing :
    (∃ e, ((Session.empty (torusBackendOver Torus.maps.guarded)).run pairingCalls).elements.get? "T"
          = some e ∧ (torusMembership Torus.maps.guarded).Holds e.value ∧
        Element.ofBytes e.context e.group e.toBytes = .ok e) ∧
      ∃ e, ((Session.empty exponentModel).run pairingCalls).elements.get? "T" = some e ∧
        e.value = .gt (1 : Fr) ∧ Element.ofBytes e.context e.group e.toBytes = .ok e := by
  constructor
  · have hmember := held_element_member.1 _ (Torus.Maps.guarded_returnsMembers Torus.maps)
      pairingCalls "T" _ rfl
    exact ⟨_, rfl, hmember.1, hmember.2.2⟩
  · have hmember := held_element_member.2 pairingCalls "T" _ rfl
    exact ⟨_, rfl, rfl, hmember.2⟩

end BilinearGroups
