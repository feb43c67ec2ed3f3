import BilinearGroups.Proofs.Pairing.Correspondence
import BilinearGroups.Proofs.Session.Matching

/-!
# The exponent model simulates every lawful backend

Requests that use algebra alone cannot tell lawful backends apart. Values with the same exponents
are a matching of two such backends, and algebra stays within its scope. So sessions over both that
are given the same requests match all the way: the same requests fail for the same reasons, and
questions whose answers are not encodings have the same answers. In particular everything that can
be asked of a backend in this way is found out by computing with exponents.

The requests leave out what is not algebra: random values, hashes and encodings. And they keep the
second source group from the left of a pairing and the first from the right, because only a
symmetric backend accepts them there.
-/

namespace BilinearGroups

open Bls12

/-- The contexts come from the same creation. -/
structure Context.Corresponds {B B' : Backend} (c : Context B) (c' : Context B') : Prop where
  creation : c.creation = c'.creation
  parameters : c.parameters = c'.parameters
  order : c.order = c'.order
  tags : c.tags = c'.tags

theorem Matching.Contexts.corresponds {B B' : Backend} {c : Context B} {c' : Context B'}
    (h : Contexts (RelEmbedding.refl _) c c') : c.Corresponds c' :=
  ⟨h.creation.symm, h.parameters, h.order, h.tags⟩

namespace Session

/-! ## Algebraic requests -/

/-- The creation does not read an encoding. -/
def Creation.isAlgebraic : Creation → Bool
  | fresh .. | freshLike .. | copy .. | pairing .. | pairingProduct .. => true
  | ofBytes .. | ofCompressedBytes .. | ofJson .. => false

/-- The change does not draw, hash or read an encoding. -/
def Change.isAlgebraic : Change → Bool
  | random .. | hash .. | bytes .. | compressedBytes .. => false
  | zero | one | integer .. | value .. | generator | combine .. | mulInteger .. | mulScalar ..
  | powScalar .. | invert .. | neg .. | square .. | double .. | combineWith .. | powScalarWith ..
  | inverted => true

/-- The call uses algebra alone. -/
def Call.isAlgebraic : Call → Bool
  | .create _ c => c.isAlgebraic
  | .change _ c => c.isAlgebraic
  | .createContext .. | .shareContext .. | .dropContext .. => true

/-- The request uses algebra alone. -/
def Request.isAlgebraic : Request → Bool
  | .call c => c.isAlgebraic
  | .query _ => true

section

variable {B : Backend}

/-- The group of the element under a name. -/
def groupOf? (s : Session B) (name : String) : Option Group :=
  (s.elements.get? name).map Element.group

/-- The operands of a pairing are not from the second source group on the left, nor from the first
on the right. -/
def Creation.isOriented (s : Session B) : Creation → Bool
  | pairing _ left right => s.groupOf? left ≠ some .g2 && s.groupOf? right ≠ some .g1
  | pairingProduct _ lefts rights =>
    lefts.all (s.groupOf? · ≠ some .g2) && rights.all (s.groupOf? · ≠ some .g1)
  | fresh .. | freshLike .. | copy .. | ofBytes .. | ofCompressedBytes .. | ofJson .. => true

/-- A pairing that the call makes has its operands on the right sides. -/
def Call.isOriented (s : Session B) : Call → Bool
  | .create _ c => c.isOriented s
  | .change .. | .createContext .. | .shareContext .. | .dropContext .. => true

/-- A pairing that is asked for has its operands on the right sides. -/
def Request.isOriented (s : Session B) : Request → Bool
  | .call c => c.isOriented s
  | .query _ => true

/-- All pairings that are asked for have their operands on the right sides. -/
def orients (s : Session B) : List Request → Bool
  | [] => true
  | request :: requests =>
    request.isOriented s && (s.respond request).1.orients requests

/-- The session after requests in order. -/
def after (s : Session B) : List Request → Session B
  | [] => s
  | request :: requests => (s.respond request).1.after requests

end

/-- What a report says apart from encodings and diagnostic texts. -/
inductive Outcome where
  /-- The request failed. -/
  | failed (failure : Failure)
  /-- The request succeeded. -/
  | done
  /-- A context was removed, if there was one. -/
  | dropped (existed : Bool)
  /-- An element was made or changed, or its change failed. -/
  | element (group : Group) (failure? : Option Failure)
  /-- The answer to a question that is true or false. -/
  | truth (b : Bool)
  /-- How two elements compare. -/
  | comparison (comparison : Comparison)
  /-- Whether an element is neutral for the sum, and for the product. -/
  | neutral (isZero isOne : Bool)

/-- What the report says apart from encodings and diagnostic texts. -/
def Report.outcome : Report → Outcome
  | failed failure => .failed failure
  | context _ => .done
  | dropped existed => .dropped existed
  | element group _ failure? => .element group failure?
  | answer (.truth b) => .truth b
  | answer (.comparison c) => .comparison c
  | answer (.inspection i) => .neutral i.isZero i.isOne
  | answer (.context _) | answer (.text _) => .done

variable {B B' : Backend} {M : B.Membership} {M' : B'.Membership} {s : Session B} {s' : Session B'}

/-! ## Requests within the scope of exponents -/

theorem groupOf?_of_element {name : String} {e : Element B} (h : s.element name = .ok e) :
    s.groupOf? name = some e.group := by
  rw [groupOf?, element_eq_ok_iff.mp h, Option.map_some]

theorem group_ne_of_elementsOf {g : Group} {names : List String} {es : List (Element B)}
    (hnames : ∀ name ∈ names, s.groupOf? name ≠ some g) (h : s.elementsOf names = .ok es) :
    ∀ e ∈ es, e.group ≠ g := by
  intro e he
  obtain ⟨name, hname, helement⟩ := exists_element_of_elementsOf h e he
  have hgroup := hnames name hname
  rwa [groupOf?_of_element helement, ne_eq, Option.some.injEq] at hgroup

/-- Algebra with pairings of operands that are on the right sides is computed on exponents. -/
theorem within_exponents (hB : B.Lawful M) (hB' : B'.Lawful M') {request : Request}
    (halgebraic : request.isAlgebraic = true) (horiented : request.isOriented s = true) :
    s.Within (exponentMatching hB hB').toScope request := by
  cases request with
  | query => trivial
  | call call =>
    cases call with
    | createContext | shareContext | dropContext => trivial
    | change name change =>
      intro e _
      cases change with
      | random | hash | bytes | compressedBytes => cases halgebraic
      | _ => trivial
    | create name creation =>
      cases creation with
      | ofBytes | ofCompressedBytes | ofJson => cases halgebraic
      | fresh | freshLike | copy => trivial
      | pairing context left right =>
        simp only [Request.isOriented, Call.isOriented, Creation.isOriented, Bool.and_eq_true,
          decide_eq_true_eq] at horiented
        constructor
        · intro a ha hg
          exact horiented.1 (by rw [groupOf?_of_element ha, hg])
        · intro b hb hg
          exact horiented.2 (by rw [groupOf?_of_element hb, hg])
      | pairingProduct context lefts rights =>
        simp only [Request.isOriented, Call.isOriented, Creation.isOriented, Bool.and_eq_true,
          List.all_eq_true, decide_eq_true_eq] at horiented
        exact ⟨fun _ ↦ group_ne_of_elementsOf horiented.1,
          fun _ ↦ group_ne_of_elementsOf horiented.2⟩

section Matching

variable {X : Matching B B'} {ρ : ℕ ↪o ℕ}

theorem groupOf?_eq (h : X.Sessions ρ (fun _ ↦ True) s s') : s.groupOf? = s'.groupOf? := by
  funext name
  rw [groupOf?, groupOf?]
  obtain ⟨hs, hs'⟩ | ⟨e, e', hs, hs', he⟩ := eq_none_or_eq_some (@h.elements name trivial)
  · rw [hs, hs']
    rfl
  · rw [hs, hs', Option.map_some, Option.map_some, he.group_eq]

/-- Sessions that match agree on the sides of the operands. -/
theorem isOriented_eq (h : X.Sessions ρ (fun _ ↦ True) s s') (request : Request) :
    request.isOriented s = request.isOriented s' := by
  cases request with
  | query => rfl
  | call call =>
    cases call with
    | createContext | shareContext | dropContext | change => rfl
    | create name creation =>
      have hgroups := groupOf?_eq h
      cases creation with
      | pairing | pairingProduct =>
        simp only [Request.isOriented, Call.isOriented, Creation.isOriented, hgroups]
      | _ => rfl

end Matching

/-! ## Runs -/

section

variable {hB : B.Lawful M} {hB' : B'.Lawful M'} {ρ : ℕ ↪o ℕ}

/-- Reports on elements with the same exponents have the same outcome. -/
theorem outcome_eq {report report' : Report}
    (h : (exponentMatching hB hB').Reports ρ report report') :
    report.outcome = report'.outcome := by
  cases h with
  | failed | dropped | truth | comparison => rfl
  | context | info | text => dsimp only [Report.outcome]
  | element failure? he => exact congrArg (Outcome.element · failure?) he.group_eq
  | inspection he =>
    have hvalue : Value.Corresponds _ _ := he.value
    exact congrArg₂ Outcome.neutral (hvalue.isIdentity hB.toGroupLaws hB'.toGroupLaws)
      (hvalue.isOne hB.toGroupLaws hB'.toGroupLaws)

/-- All outcomes are the same over both backends, and the sessions match in the end. -/
theorem matches_run (h : (exponentMatching hB hB').Sessions ρ (fun _ ↦ True) s s')
    {requests : List Request} (halgebraic : ∀ request ∈ requests, request.isAlgebraic = true)
    (horiented : s'.orients requests = true) :
    (s.reports requests).map Report.outcome = (s'.reports requests).map Report.outcome ∧
      (exponentMatching hB hB').Sessions ρ (fun _ ↦ True) (s.after requests)
        (s'.after requests) := by
  induction requests generalizing s s' with
  | nil => exact ⟨rfl, h⟩
  | cons request requests ih =>
    rw [List.forall_mem_cons] at halgebraic
    rw [orients, Bool.and_eq_true, ← isOriented_eq h] at horiented
    have hwithin := within_exponents hB hB' halgebraic.1 horiented.1
    obtain ⟨hreport, hnext⟩ := h.respond (fun _ _ ↦ trivial) hwithin
    obtain ⟨houtcomes, hlast⟩ := ih hnext halgebraic.2 horiented.2
    exact ⟨List.cons_eq_cons.mpr ⟨outcome_eq hreport, houtcomes⟩, hlast⟩

end

/-- The exponent of a value of the exponent model is the value itself. -/
theorem hasExponent_exponent {v : Value exponentModel} {g : Group} {x : Fr}
    (h : v.HasExponent g x) : x = ExponentModel.exponent v := by
  cases h with
  | g1 | g2 | gt => exact (ExponentModel.element_addition x).symm
  | zr h => exact h.symm.trans (plainScalars_residue _)

/-- The exponent model simulates every lawful backend. Given the same algebraic requests, whatever
they are, both fail at the same ones for the same reasons and give the same answers. In the end the
same names have elements, of the same contexts and the same groups; and what the model holds under a
name is the exponent of what the backend holds there. -/
theorem exponentModel_simulates (B : Backend) (M : B.Membership) (hB : B.Lawful M)
    (requests : List Request) (halgebraic : ∀ request ∈ requests, request.isAlgebraic = true)
    (horiented : (empty exponentModel).orients requests = true) :
    ((empty B).reports requests).map Report.outcome
        = ((empty exponentModel).reports requests).map Report.outcome ∧
      ∀ name, Option.Rel (fun e e' ↦ e.context.Corresponds e'.context ∧
          e.value.HasExponent e'.group (ExponentModel.exponent e'.value))
        (((empty B).after requests).elements.get? name)
        (((empty exponentModel).after requests).elements.get? name) := by
  obtain ⟨houtcomes, hlast⟩ := matches_run (.empty (exponentMatching hB exponentModel_lawful) _)
    halgebraic horiented
  refine ⟨houtcomes, fun name ↦ ?_⟩
  obtain ⟨hs, hs'⟩ | ⟨e, e', hs, hs', he⟩ := eq_none_or_eq_some (hlast.elements trivial)
  · rw [hs, hs']
    exact .none
  · obtain ⟨g, x, hx, hx'⟩ := he.value
    obtain rfl : e'.group = g := hx'.group_eq
    rw [hasExponent_exponent hx'] at hx
    rw [hs, hs']
    exact .some ⟨he.context.corresponds, hx⟩

/-- The points with exponents two and three, their pairing, and what is asked about it. -/
def pairingRequests : List Request :=
  [.call (.createContext "c" .standard), .call (.create "P" (.fresh "c" .g1)),
    .call (.change "P" .generator), .call (.change "P" (.double "P")),
    .call (.create "Q" (.fresh "c" .g2)), .call (.change "Q" .inverted),
    .call (.change "Q" .generator), .call (.change "Q" (.mulInteger "Q" 3)),
    .call (.create "T" (.pairing "c" "P" "Q")), .query (.compare "T" "P"), .query (.inspect "T")]

theorem exponentModel_simulates_pairing :
    ((empty asymmetricModel).reports pairingRequests).map Report.outcome
        = ((empty exponentModel).reports pairingRequests).map Report.outcome ∧
      ∃ e e', ((empty asymmetricModel).after pairingRequests).elements.get? "T" = some e ∧
        ((empty exponentModel).after pairingRequests).elements.get? "T" = some e' ∧
        e'.value = .gt (6 : Fr) ∧ e.value.HasExponent .gt 6 := by
  obtain ⟨houtcomes, hlast⟩ := exponentModel_simulates asymmetricModel asymmetricMembership
    asymmetricModel_lawful pairingRequests (by decide) (by decide +kernel)
  have hmodel : (((empty exponentModel).after pairingRequests).elements.get? "T").map Element.value
      = some (.gt (6 : Fr)) := by decide +kernel
  refine ⟨houtcomes, ?_⟩
  obtain ⟨hs, hs'⟩ | ⟨e, e', hs, hs', -, hexponent⟩ := eq_none_or_eq_some (hlast "T")
  · rw [hs'] at hmodel
    cases hmodel
  · rw [hs', Option.map_some, Option.some.injEq] at hmodel
    rw [Element.group, hmodel] at hexponent
    exact ⟨e, e', hs, hs', hmodel, hexponent⟩

end Session

end BilinearGroups
