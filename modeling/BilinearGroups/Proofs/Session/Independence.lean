import BilinearGroups.Proofs.Session.Matching

/-!
# Independent requests

Several users may share a session. If nobody changes what is under a name that another one uses,
then each of them is answered as if he were alone, in whatever order the requests come in: not only
are the answers those of his own requests, it does not even show how many contexts the others have
created. A context can be told from others by the number of its creation, which depends on all users
together; but only whether two numbers are equal is ever looked at, and this stays the same when the
numbers are renumbered in order.

So a session that others use as well matches the one of a single user at the places that he uses,
up to renumbering. His own requests keep this up, and so do the requests of the others, which leave
his places alone; when they create a context, the contexts that he creates later move up by one.
-/

namespace BilinearGroups

namespace Session

variable {B : Backend} {s s' : Session B} {call : Call} {name : String}

/-! ## The place of a call -/

/-- The place that a request may change. -/
def Request.changes? : Request → Option Place
  | .call c => some c.place
  | .query _ => none

theorem Call.context?_ne (h : call.place ≠ .context name) : call.context? ≠ some name := by
  cases call with
  | createContext | shareContext | dropContext =>
    exact fun heq ↦ h (congrArg Place.context (Option.some.inj heq))
  | create | change => exact nofun

theorem Call.element?_ne (h : call.place ≠ .element name) : call.element? ≠ some name := by
  cases call with
  | createContext | shareContext | dropContext => exact nofun
  | create | change => exact fun heq ↦ h (congrArg Place.element (Option.some.inj heq))

/-- A call creates at most one context. -/
theorem Performed.created_eq (h : s.Performed call s') :
    s'.created = s.created ∨ s'.created = s.created + 1 := by
  cases h with
  | createContext => exact .inr rfl
  | shareContext | dropContext | create | change => exact .inl rfl

/-- A question leaves the session as it is. -/
theorem respond_query (s : Session B) (query : Query) : (s.respond (.query query)).1 = s := by
  rw [respond]
  cases s.ask query <;> rfl

theorem respond_call (s : Session B) (call : Call) :
    (s.respond (.call call)).1 = (s.step call).1 := rfl

/-- A request takes a session that calls lead to to another one. -/
theorem exists_run_eq_respond (calls : List Call) (request : Request) :
    ∃ next, (((empty B).run calls).respond request).1 = (empty B).run next := by
  cases request with
  | call call => exact ⟨calls ++ [call], by rw [respond_call, run_concat]⟩
  | query query => exact ⟨calls, respond_query _ query⟩

end Session

open Session

/-! ## A backend matches itself -/

namespace Matching

variable {B : Backend} {ρ : ℕ ↪o ℕ}

/-- Every value matches itself. -/
def self (B : Backend) : Matching B B where
  Values := Eq
  Reads _ _ := True
  Decompresses := True
  Draws := True
  Hashes := True
  Left _ := True
  Right _ := True
  group_eq h := congrArg Value.group h
  eq_iff hv hw := by rw [hv, hw]
  orderBytes := rfl
  scalarBytes h := congrArg B.scalars.toBytes (Value.zr.inj h)
  identity _ := rfl
  one _ := rfl
  integer _ := rfl
  generator _ := .refl Eq.refl _
  random _ g supply := by
    cases Value.random g supply with
    | none => exact .none
    | some drawn => exact .some rfl
  hash _ _ _ _ := .refl Eq.refl _
  combine op _ _ _ _ _ hv hw := by
    rw [hv, hw]
    exact .refl Eq.refl _
  inverse hv := by
    rw [hv]
    exact .refl Eq.refl _
  negative hv := congrArg Value.negative hv
  multiple hk hv := by rw [Value.zr.inj hk, hv]
  power hk hv := by rw [Value.zr.inj hk, hv]
  read _ _ _ := .refl Eq.refl _
  readCompressed _ := @fun _ _ _ _ ↦ .refl Eq.refl _
  compressedByteLength _ _ _ _ := rfl
  leftPoint {v _} _ hv := by
    rw [hv]
    exact .refl (R := fun p p' ↦ Value.g1 p = Value.g1 p') (fun _ ↦ rfl) _
  rightPoint {v _} _ hv := by
    rw [hv]
    exact .refl (R := fun q q' ↦ Value.g2 q = Value.g2 q') (fun _ ↦ rfl) _
  pairing hp hq := by rw [Value.g1.inj hp, Value.g2.inj hq]
  pairingProduct {points points'} h := by
    have hpoints : points = points' := by
      refine List.forall₂_eq_eq_eq ▸ h.imp fun pq pq' ⟨hp, hq⟩ ↦ ?_
      exact Prod.ext (Value.g1.inj hp) (Value.g2.inj hq)
    rw [hpoints]
    exact .refl (R := fun t t' ↦ Value.gt t = Value.gt t') (fun _ ↦ rfl) _

theorem self_within (s : Session B) (request : Request) :
    s.Within (self B).toScope request := by
  cases request with
  | query => trivial
  | call call =>
    cases call with
    | createContext | shareContext | dropContext => trivial
    | create name creation =>
      cases creation with
      | ofJson => exact fun _ _ _ _ _ ↦ trivial
      | pairing => exact ⟨fun _ _ ↦ trivial, fun _ _ ↦ trivial⟩
      | pairingProduct => exact ⟨fun _ _ _ _ ↦ trivial, fun _ _ _ _ ↦ trivial⟩
      | fresh | freshLike | copy | ofBytes | ofCompressedBytes => trivial
    | change name change =>
      intro e _
      cases change <;> trivial

/-- Reports on elements that are the same but for the numbers of their contexts are the same. -/
theorem Reports.eq {report report' : Report} (h : (self B).Reports ρ report report') :
    report = report' := by
  have hcontext {c c' : Context B} (hc : Contexts ρ c c') :
      c.debugText = c'.debugText ∧ c.info = c'.info := by
    have horder : c.groupOrder = c'.groupOrder := funext fun _ ↦ hc.order
    constructor
    · unfold Context.debugText
      rw [hc.parameters]
    · unfold Context.info
      rw [hc.parameters, horder]
      rfl
  have hvalue {e e' : Element B} (he : (self B).Elements ρ e e') : e.value = e'.value := he.value
  cases h with
  | failed | dropped | truth | comparison => rfl
  | context hc => rw [(hcontext hc).1]
  | info hc => rw [(hcontext hc).2]
  | element failure? he =>
    rw [Element.group, Element.group, Element.toBytes, Element.toBytes, hvalue he]
  | @inspection e e' he =>
    obtain ⟨c, v⟩ := e
    obtain ⟨c', v'⟩ := e'
    obtain rfl : v = v' := he.value
    rfl
  | @text e e' he =>
    obtain ⟨c, v⟩ := e
    obtain ⟨c', v'⟩ := e'
    obtain rfl : v = v' := he.value
    rfl

/-! ## Requests of others -/

variable {X : Matching B B} {P : Place → Prop} {s s' : Session B}

/-- The numbers from `k` on move up by one. -/
def shifted (ρ : ℕ ↪o ℕ) (k : ℕ) : ℕ ↪o ℕ :=
  .ofStrictMono (fun n ↦ if n < k then ρ n else ρ n + 1) <| by
    intro m n hmn
    have hlt : ρ m < ρ n := ρ.strictMono hmn
    dsimp only
    split_ifs <;> omega

theorem shifted_of_lt {k n : ℕ} (h : n < k) : shifted ρ k n = ρ n := if_pos h

theorem shifted_add (ρ : ℕ ↪o ℕ) (k n : ℕ) : shifted ρ k (k + n) = ρ (k + n) + 1 :=
  if_neg (Nat.not_lt.mpr (Nat.le_add_right k n))

theorem Contexts.shifted {c c' : Context B} (hc : Contexts ρ c c') {k : ℕ} (h : c.creation < k) :
    Contexts (shifted ρ k) c c' :=
  ⟨hc.creation.trans (shifted_of_lt h).symm, hc.parameters, hc.order, hc.tags⟩

/-- Contexts that are created elsewhere only change the numbers of those to come. -/
theorem Sessions.shifted (h : X.Sessions ρ P s s')
    (hnumbers : ∀ place n, s.numbers place = some n → n < s.created) {s'' : Session B}
    (hcreated : s''.created = s'.created + 1)
    (hcontexts : ∀ name, P (.context name) → s''.contexts.get? name = s'.contexts.get? name)
    (helements : ∀ name, P (.element name) → s''.elements.get? name = s'.elements.get? name) :
    X.Sessions (shifted ρ s.created) P s s'' := by
  refine ⟨fun n ↦ ?_, @fun name hP ↦ ?_, @fun name hP ↦ ?_⟩
  · rw [shifted_add, h.created, hcreated]
    omega
  · rw [hcontexts name hP]
    obtain ⟨hs, hs'⟩ | ⟨c, c', hs, hs', hc⟩ := eq_none_or_eq_some (h.contexts hP)
    · rw [hs, hs']
      exact .none
    · rw [hs, hs']
      exact .some (hc.shifted (hnumbers (.context name) _ (congrArg (Option.map _) hs)))
  · rw [helements name hP]
    obtain ⟨hs, hs'⟩ | ⟨e, e', hs, hs', he⟩ := eq_none_or_eq_some (h.elements hP)
    · rw [hs, hs']
      exact .none
    · have hnumber : s.numbers (.element name) = some e.context.creation := by
        rw [numbers, handle?, hs]
        rfl
      rw [hs, hs']
      exact .some ⟨he.context.shifted (hnumbers _ _ hnumber), he.value⟩

/-- A request leaves alone what it does not change. -/
theorem Sessions.skip (h : X.Sessions ρ P s s')
    (hnumbers : ∀ place n, s.numbers place = some n → n < s.created) {request : Request}
    (hchanges : ∀ place, request.changes? = some place → ¬ P place) :
    ∃ ρ', X.Sessions ρ' P s (s'.respond request).1 := by
  cases request with
  | query query =>
    rw [respond_query]
    exact ⟨ρ, h⟩
  | call call =>
    rw [respond_call]
    have hplace : ∀ place, P place → call.place ≠ place := fun place hP heq ↦
      hchanges _ rfl (heq ▸ hP)
    obtain ⟨failure, hstep⟩ | ⟨s'', hstep, hperformed⟩ := s'.step_cases call
    · rw [hstep]
      exact ⟨ρ, h⟩
    · rw [hstep]
      have hcontexts : ∀ name, P (.context name) →
          s''.contexts.get? name = s'.contexts.get? name := fun name hP ↦
        hperformed.get?_contexts (call.context?_ne (hplace _ hP))
      have helements : ∀ name, P (.element name) →
          s''.elements.get? name = s'.elements.get? name := fun name hP ↦
        hperformed.get?_elements (call.element?_ne (hplace _ hP))
      obtain hcreated | hcreated := hperformed.created_eq
      · refine ⟨ρ, fun n ↦ ?_, @fun name hP ↦ ?_, @fun name hP ↦ ?_⟩
        · rw [hcreated]
          exact h.created n
        · rw [hcontexts name hP]
          exact h.contexts hP
        · rw [helements name hP]
          exact h.elements hP
      · exact ⟨_, h.shifted hnumbers hcreated hcontexts helements⟩

end Matching

namespace Session

variable {B : Backend} {s : Session B} {α : Type} [DecidableEq α]

/-! ## Requests of several users -/

/-- The requests of one user. -/
def requestsOf (user : α) (requests : List (α × Request)) : List Request :=
  (requests.filter (·.1 = user)).map Prod.snd

/-- The reports on the requests of one user, when those of all users are made in order. -/
def reportsTo (user : α) (s : Session B) (requests : List (α × Request)) : List Report :=
  ((requests.zip (s.reports (requests.map Prod.snd))).filter (·.1.1 = user)).map Prod.snd

/-- No request changes what a request of another user uses. -/
def Independent (requests : List (α × Request)) : Prop :=
  ∀ x ∈ requests, ∀ y ∈ requests, x.1 ≠ y.1 → ∀ place ∈ x.2.changes?, place ∉ y.2.uses

theorem reports_cons (s : Session B) (request : Request) (requests : List Request) :
    s.reports (request :: requests) =
      (s.respond request).2 :: (s.respond request).1.reports requests := rfl

theorem requestsOf_cons (user other : α) (request : Request) (requests : List (α × Request)) :
    requestsOf user ((other, request) :: requests) =
      if other = user then request :: requestsOf user requests else requestsOf user requests := by
  rw [requestsOf, List.filter_cons]
  by_cases h : other = user
  · rw [if_pos (decide_eq_true h), if_pos h]
    rfl
  · rw [if_neg (by simpa using h), if_neg h]
    rfl

theorem reportsTo_cons (user : α) (s : Session B) (other : α) (request : Request)
    (requests : List (α × Request)) : s.reportsTo user ((other, request) :: requests) =
      if other = user then
        (s.respond request).2 :: (s.respond request).1.reportsTo user requests
      else (s.respond request).1.reportsTo user requests := by
  rw [reportsTo, List.map_cons, reports_cons, List.zip_cons_cons, List.filter_cons]
  by_cases h : other = user
  · rw [if_pos (decide_eq_true h), if_pos h]
    rfl
  · rw [if_neg (by simpa using h), if_neg h]
    rfl

/-- A session that others use answers a user like one that only he uses, if they match at the places
that he uses. -/
theorem reportsTo_eq (user : α) {P : Place → Prop} {requests : List (α × Request)}
    (hown : ∀ x ∈ requests, x.1 = user → ∀ place ∈ x.2.uses, P place)
    (hothers : ∀ x ∈ requests, x.1 ≠ user → ∀ place, x.2.changes? = some place → ¬ P place)
    {calls : List Call} {s' : Session B} {ρ : ℕ ↪o ℕ}
    (h : (Matching.self B).Sessions ρ P ((empty B).run calls) s') :
    s'.reportsTo user requests = ((empty B).run calls).reports (requestsOf user requests) := by
  -- What is kept is that the sessions match, under a renumbering that the others may change. The
  -- session of the single user is always one that calls lead to, so its numbers stay bounded.
  induction requests generalizing calls s' ρ with
  | nil => rfl
  | cons x requests ih =>
    obtain ⟨other, request⟩ := x
    rw [List.forall_mem_cons] at hown hothers
    rw [reportsTo_cons, requestsOf_cons]
    by_cases hother : other = user
    · obtain ⟨hreport, hnext⟩ := h.respond (hown.1 hother) (Matching.self_within _ request)
      obtain ⟨next, hrun⟩ := exists_run_eq_respond calls request
      rw [hrun] at hnext
      rw [if_pos hother, if_pos hother, reports_cons, hreport.eq, hrun, ih hown.2 hothers.2 hnext]
    · obtain ⟨ρ', hnext⟩ := h.skip (numbers_lt_run calls) (hothers.1 hother)
      rw [if_neg hother, if_neg hother, ih hown.2 hothers.2 hnext]

/-- Every session matches itself. -/
theorem matches_self (P : Place → Prop) (s : Session B) :
    (Matching.self B).Sessions (RelEmbedding.refl _) P s s := by
  refine ⟨fun _ ↦ rfl, @fun name _ ↦ ?_, @fun name _ ↦ ?_⟩
  · cases s.contexts.get? name with
    | none => exact .none
    | some c => exact .some ⟨rfl, rfl, rfl, rfl⟩
  · cases s.elements.get? name with
    | none => exact .none
    | some e => exact .some ⟨⟨rfl, rfl, rfl, rfl⟩, rfl⟩

/-- Over every backend, and after any calls: when requests of several users come in, in any order,
and none changes a place that another user uses, then each user gets the reports that he gets when
he makes his requests alone. -/
theorem reports_independent (B : Backend) (calls : List Call) (requests : List (α × Request))
    (hrequests : Independent requests) (user : α) :
    ((empty B).run calls).reportsTo user requests =
      ((empty B).run calls).reports (requestsOf user requests) := by
  refine reportsTo_eq user (P := fun place ↦ ∃ x ∈ requests, x.1 = user ∧ place ∈ x.2.uses) ?_ ?_
    (matches_self _ _)
  · intro x hx huser place hplace
    exact ⟨x, hx, huser, hplace⟩
  · rintro x hx huser place hchanges ⟨y, hy, rfl, hplace⟩
    exact hrequests x hx y hy huser place hchanges hplace

/-- Two users clone one context. The second one creates a context before the first one does. -/
def mixedRequests : List (Bool × Request) :=
  [(true, .call (.shareContext "a" "c")), (false, .call (.createContext "d" .standard)),
    (false, .call (.shareContext "e" "c")), (true, .call (.createContext "b" .standard)),
    (false, .call (.dropContext "d")), (true, .call (.create "P" (.fresh "a" .g1))),
    (false, .call (.create "Q" (.fresh "e" .g1))), (false, .call (.change "Q" .generator)),
    (true, .call (.change "P" .generator)), (true, .query (.sameContext "a" "b")),
    (true, .query (.belongs "P" "b")), (true, .query (.sameContext "a" "c"))]

theorem reports_independent_mixed :
    ((start exponentModel).reportsTo true mixedRequests).drop 4 =
        [.answer (.truth false), .answer (.truth false), .answer (.truth true)] ∧
      (start exponentModel).reportsTo false mixedRequests =
        (start exponentModel).reports (requestsOf false mixedRequests) := by
  have hindependent : Independent mixedRequests := by
    unfold Independent
    decide
  have hreports := reports_independent exponentModel [.createContext standardName .standard]
    mixedRequests hindependent
  refine ⟨?_, hreports false⟩
  rw [start, hreports true]
  rfl

end Session

end BilinearGroups
