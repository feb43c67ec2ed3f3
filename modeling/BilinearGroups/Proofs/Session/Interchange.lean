import BilinearGroups.Proofs.Backend.Interchange
import BilinearGroups.Proofs.Session.Closure
import BilinearGroups.Proofs.Session.Matching

/-!
# Runs over the curve backends

As long as no value is drawn, nothing is decoded for the target group, and full forms of points are
those of members or have a wrong length, a run gives the same reports over both curve backends,
failures included. What remains different is the names of the backends and the encodings of target
group elements; which of these are neutral or equal is the same again.

The condition is on the requests in order, as the group that a change decodes for is that of the
element it changes. Each request keeps up that the sessions hold the same members.
-/

namespace BilinearGroups

open Bls12 Session

namespace Session

/-- Only some encodings are read on a request, and values are only drawn if they may be. -/
def ReadsOnly {B : Backend} (reads : Group → Bytes → Prop) (draws : Prop) (s : Session B)
    (request : Request) : Prop :=
  s.Within { Reads := reads, Decompresses := True, Draws := draws, Hashes := True,
             Left := fun _ ↦ True, Right := fun _ ↦ True } request

/-- Only some encodings are read on requests in order, and values are only drawn if they may be. -/
def RunReadsOnly {B : Backend} (reads : Group → Bytes → Prop) (draws : Prop) (s : Session B) :
    List Request → Prop
  | [] => True
  | request :: requests =>
    s.ReadsOnly reads draws request ∧ (s.respond request).1.RunReadsOnly reads draws requests

/-- The reports are the same up to the names of backends and the encodings of target group
elements. -/
inductive Report.SameUpToTarget : Report → Report → Prop
  /-- The reports are the same. -/
  | same (report : Report) : SameUpToTarget report report
  /-- The contexts are the same, but are named after their backends. -/
  | context {B B' : Backend} {c : Context B} {c' : Context B'} : c.parameters = c'.parameters →
    B.isSymmetric = B'.isSymmetric → SameUpToTarget (.context c.debugText) (.context c'.debugText)
  /-- The contexts are the same, except for the backend and the length of target group
  encodings. -/
  | info (info : ContextInfo) (backend : String) (byteLength : ℕ) :
    SameUpToTarget (.answer (.context info)) (.answer (.context
      { info with backend, byteLengths := { info.byteLengths with gt := byteLength } }))
  /-- The elements belong to the target group. -/
  | target (bs bs' : Bytes) (failure? : Option Failure) :
    SameUpToTarget (.element .gt bs failure?) (.element .gt bs' failure?)
  /-- The elements belong to the target group, and show the same except for what depends on the
  encoding. -/
  | inspection (inspection : Inspection) (byteLength : ℕ) (debugText : String) :
    inspection.compressed = .error (.unsupported .compressedEncoding .gt) →
    SameUpToTarget (.answer (.inspection inspection))
      (.answer (.inspection { inspection with byteLength, debugText }))
  /-- The texts are those of target group elements. -/
  | text {B B' : Backend} {e : Element B} {e' : Element B'} : e.group = .gt → e'.group = .gt →
    SameUpToTarget (.answer (.text e.toJson)) (.answer (.text e'.toJson))

end Session

namespace SameMember

variable {M : Torus.Maps} {p p' : CurveParts} {hM : M.ReturnsMembers} {hp : p.Sound}
  {hp' : p'.Sound} {ρ : ℕ ↪o ℕ}

/-- Reports on the same members are the same up to the target group. -/
theorem sameUpToTarget {report report' : Session.Report}
    (h : (curveMatching hM hp hp').Reports ρ report report') :
    report.SameUpToTarget report' := by
  cases h with
  | failed | dropped | truth | comparison => exact .same _
  | context hc => exact .context hc.parameters rfl
  | @info c c' hc =>
    have horder : c'.groupOrder = c.groupOrder := funext fun _ ↦ hc.order.symm
    have hinfo : c'.info = { c.info with
        backend := p'.name
        byteLengths := { c.info.byteLengths with gt := p'.targetLength } } := by
      unfold Context.info
      rw [horder, hc.parameters]
      rfl
    rw [hinfo]
    exact .info _ _ _
  -- Members are written and compared by the same functions over both backends, except in the
  -- target group.
  | @element e e' failure? he =>
    obtain ⟨c, v⟩ := e
    obtain ⟨c', v'⟩ := e'
    have hvalue : SameMember v v' := he.value
    cases hvalue with
    | g1 | g2 | zr => exact .same _
    | gt => exact .target _ _ _
  | @inspection e e' he =>
    obtain ⟨c, v⟩ := e
    obtain ⟨c', v'⟩ := e'
    have hvalue : SameMember v v' := he.value
    cases hvalue with
    | g1 | g2 | zr => exact .same _
    | gt => exact .inspection _ _ _ rfl
  | @text e e' he =>
    obtain ⟨c, v⟩ := e
    obtain ⟨c', v'⟩ := e'
    have hvalue : SameMember v v' := he.value
    cases hvalue with
    | g1 | g2 | zr => exact .same _
    | gt => exact .text rfl rfl

end SameMember

namespace Session

variable {M : Torus.Maps} {p p' : CurveParts} {ρ : ℕ ↪o ℕ}

/-- Sessions that hold the same members give the same reports, up to the target group. -/
theorem reports_sameUpToTarget (hM : M.ReturnsMembers) (hp : p.Sound) (hp' : p'.Sound)
    {s : Session (curveBackend M p)} {s' : Session (curveBackend M p')} {requests : List Request}
    (hreads : s.RunReadsOnly ReadAlike False requests)
    (h : (curveMatching hM hp hp').Sessions ρ (fun _ ↦ True) s s') :
    List.Forall₂ Report.SameUpToTarget (s.reports requests) (s'.reports requests) := by
  induction requests generalizing s s' with
  | nil => exact .nil
  | cons request requests ih =>
    obtain ⟨hreport, hnext⟩ := h.respond (fun _ _ ↦ trivial) hreads.1
    exact .cons (SameMember.sameUpToTarget hreport) (ih hreads.2 hnext)

/-- From empty sessions, requests that draw nothing, decode nothing for the target group, and
decode for the source groups only what has a wrong length or is the full form of a member, have the
same reports over both curve backends, up to the names of the backends and the encodings of target
group elements. The hashes and the pairing are those of both, and give members. -/
theorem curve_backends_interchangeable :
    (∀ M : Torus.Maps, M.ReturnsMembers → ∀ requests : List Request,
      (empty (torusBackendOver M)).RunReadsOnly ReadAlike False requests →
        List.Forall₂ Report.SameUpToTarget ((empty (torusBackendOver M)).reports requests)
          ((empty (coefficientBackendOver M)).reports requests)) ∧
    torusBackendOver Torus.maps = torusBackend ∧
    coefficientBackendOver Torus.maps = coefficientBackend := by
  refine ⟨fun M hM requests ↦ ?_, rfl, coefficientBackend_eq.symm⟩
  rw [torusBackendOver_eq]
  intro hreads
  exact reports_sameUpToTarget hM (torusParts_sound M) coefficientParts_sound hreads
    (.empty _ _)

/-- An encoding of a wrong length for a point and one for a scalar, the full form of a member, a
hash, and the pairing of the two points, which is compared with itself. -/
def decodingRequests : List Request :=
  [.call (.createContext "c" .standard), .call (.create "W" (.ofBytes "c" .g2 [1])),
    .call (.create "k" (.fresh "c" .zr)), .call (.change "k" (.bytes [1, 2])),
    .call (.create "P" (.ofBytes "c" .g1 (G1.curve.toUncompressed G1.generator))),
    .call (.create "Q" (.fresh "c" .g2)), .call (.change "Q" (.hash [7])),
    .call (.create "T" (.pairing "c" "P" "Q")), .query (.compare "T" "T"),
    .query (.inspect "T"), .query (.json "P")]

theorem curve_backends_interchangeable_decoding :
    Torus.maps.guarded.ReturnsMembers ∧
    (empty (torusBackendOver Torus.maps.guarded)).RunReadsOnly ReadAlike False decodingRequests ∧
    ((empty (coefficientBackendOver Torus.maps.guarded)).reports decodingRequests)[1]? =
      some (.failed (.refused (.wrongLength .g2 192 1))) ∧
    List.Forall₂ Report.SameUpToTarget
      ((empty (torusBackendOver Torus.maps.guarded)).reports decodingRequests)
      ((empty (coefficientBackendOver Torus.maps.guarded)).reports decodingRequests) := by
  have hmaps := Torus.Maps.guarded_returnsMembers Torus.maps
  have hreads : (empty (torusBackendOver Torus.maps.guarded)).RunReadsOnly ReadAlike False
      decodingRequests := by
    refine ⟨trivial, .inl (by decide), trivial, fun e he ↦ ?_, .inr ⟨_, G1.member_generator, rfl⟩,
      trivial, fun _ _ ↦ trivial, ⟨fun _ _ ↦ trivial, fun _ _ ↦ trivial⟩, trivial, trivial, trivial,
      trivial⟩
    cases he
    trivial
  exact ⟨hmaps, hreads, rfl, curve_backends_interchangeable.1 _ hmaps _ hreads⟩

end Session

end BilinearGroups
