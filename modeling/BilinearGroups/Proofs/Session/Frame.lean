import BilinearGroups.Backend.ExponentModel
import BilinearGroups.Proofs.Session.Step

/-!
# What calls leave alone

A call that fails changes nothing, over any backend: no element, no context, and not the count of
contexts. So the failing calls of a run can be left out.

A change that succeeds replaces the value of one element. The context and the group of that element
stay, as the new value always belongs to the group of its receiver; all other elements and all
contexts stay altogether. An element therefore keeps its context and its group for as long as its
name is not given to a new one.
-/

namespace BilinearGroups.Session

variable {B : Backend} {s s' : Session B} {call : Call} {name : String} {e : Element B}

/-! ## Failures -/

/-- A call that fails leaves the session as it was. -/
theorem step_eq_of_failure {failure : Failure} (h : (s.step call).2 = some failure) :
    (s.step call).1 = s := by
  obtain ⟨_, hstep⟩ | ⟨s', hstep, -⟩ := s.step_cases call
  · rw [hstep]
  · rw [hstep] at h
    cases h

/-- The calls that succeed when all are performed in order. -/
def succeeding (s : Session B) : List Call → List Call
  | [] => []
  | call :: calls =>
    match (s.step call).2 with
    | none => call :: (s.step call).1.succeeding calls
    | some _ => (s.step call).1.succeeding calls

theorem run_succeeding (s : Session B) (calls : List Call) :
    s.run (s.succeeding calls) = s.run calls := by
  induction calls generalizing s with
  | nil => rfl
  | cons call calls ih =>
    rw [succeeding, run_cons]
    split
    · rw [run_cons, ih]
    · next failure hfailure =>
      rw [step_eq_of_failure hfailure, ih]

/-! ## Effects -/

/-- The name of the element that a call is about. -/
def Call.element? : Call → Option String
  | .create name _ | .change name _ => some name
  | .createContext _ _ | .shareContext _ _ | .dropContext _ => none

/-- The name of the context that a call is about. -/
def Call.context? : Call → Option String
  | .createContext name _ | .shareContext name _ | .dropContext name => some name
  | .create _ _ | .change _ _ => none

/-- A call that is not about an element leaves it as it is. -/
theorem Performed.get?_elements (h : s.Performed call s') (hname : call.element? ≠ some name) :
    s'.elements.get? name = s.elements.get? name := by
  have hne : ∀ {other}, call.element? = some other → name ≠ other := by
    rintro _ hother rfl
    exact hname hother
  cases h with
  | createContext | shareContext | dropContext => rfl
  | create => exact Table.get?_insert_of_ne _ _ (hne rfl)
  | change => rw [withChanged, Table.get?_replace, if_neg (hne rfl)]

/-- A call that is not about a context leaves it as it is. -/
theorem Performed.get?_contexts (h : s.Performed call s') (hname : call.context? ≠ some name) :
    s'.contexts.get? name = s.contexts.get? name := by
  have hne : ∀ {other}, call.context? = some other → name ≠ other := by
    rintro _ hother rfl
    exact hname hother
  cases h with
  | createContext | shareContext => exact Table.get?_insert_of_ne _ _ (hne rfl)
  | dropContext => rw [Table.get?_erase, if_neg (hne rfl)]
  | create | change => rfl

/-- A call that puts no new element under a name leaves the one that is there its context and its
group. -/
theorem Performed.get?_elements_eq_some (h : s.Performed call s')
    (hname : ∀ creation, call ≠ .create name creation) (he : s.elements.get? name = some e) :
    ∃ v, s'.elements.get? name = some (e.withValue v) ∧ v.group = e.group := by
  -- Only a change of this very element calls for a look at what operations do.
  by_cases habout : call.element? = some name
  · cases h with
    | createContext | shareContext | dropContext => cases habout
    | @create other creation => exact absurd (congrArg (Call.create · creation)
        (Option.some.inj habout)) (hname creation)
    | @change other change u o v ho hupdate hrun =>
      obtain rfl : other = name := Option.some.inj habout
      obtain rfl : e = o := Option.some.inj (he.symm.trans (element_eq_ok_iff.mp ho))
      refine ⟨v, ?_, (Change.derived_of_run hupdate ho hrun).group_eq⟩
      rw [withChanged, Table.get?_replace, if_pos rfl, he, Option.map_some]
  · exact ⟨e.value, (h.get?_elements habout).trans he, rfl⟩

/-- A change of an element leaves the contexts and their count as they are. -/
theorem Performed.contexts_of_change {change : Change}
    (h : s.Performed (.change name change) s') :
    s'.contexts = s.contexts ∧ s'.created = s.created := by
  cases h with
  | change => exact ⟨rfl, rfl⟩

/-! ## Runs -/

/-- An element keeps its context and its group through every run that does not give its name to a
new one. -/
theorem run_get?_elements_eq_some {calls : List Call} (he : s.elements.get? name = some e)
    (hname : ∀ creation, .create name creation ∉ calls) :
    ∃ v, (s.run calls).elements.get? name = some (e.withValue v) ∧ v.group = e.group := by
  refine run_invariant
    (I := fun s ↦ ∃ v, s.elements.get? name = some (e.withValue v) ∧ v.group = e.group)
    ⟨e.value, he, rfl⟩ ?_
  rintro call hcall s s' ⟨v, hv, hgroup⟩ hperformed
  obtain ⟨w, hw, hw'⟩ := hperformed.get?_elements_eq_some
    (fun creation heq ↦ hname creation (heq ▸ hcall)) hv
  exact ⟨w, hw, hw'.trans hgroup⟩

/-- An element that no call of a run is about stays as it is. -/
theorem run_get?_elements {calls : List Call} (h : ∀ call ∈ calls, call.element? ≠ some name) :
    (s.run calls).elements.get? name = s.elements.get? name := by
  refine run_invariant (I := fun t ↦ t.elements.get? name = s.elements.get? name) rfl ?_
  intro call hcall t t' ht hperformed
  exact (hperformed.get?_elements (h call hcall)).trans ht

/-- A context that no call of a run is about stays as it is. -/
theorem run_get?_contexts {calls : List Call} (h : ∀ call ∈ calls, call.context? ≠ some name) :
    (s.run calls).contexts.get? name = s.contexts.get? name := by
  refine run_invariant (I := fun t ↦ t.contexts.get? name = s.contexts.get? name) rfl ?_
  intro call hcall t t' ht hperformed
  exact (hperformed.get?_contexts (h call hcall)).trans ht

/-- Over every backend and from every session: an element keeps its context and its group through
every run, in which only its value changes; a call is felt by the element or the context it is about
and by no other, and a change by one element alone; and a call that fails leaves the session as it
was, so that a run comes to the same without it. -/
theorem run_frame (B : Backend) (s : Session B) (calls : List Call) :
    (∀ name e, s.elements.get? name = some e → (∀ creation, .create name creation ∉ calls) →
      ∃ v, (s.run calls).elements.get? name = some (e.withValue v) ∧ v.group = e.group) ∧
    (∀ name, (∀ call ∈ calls, call.element? ≠ some name) →
      (s.run calls).elements.get? name = s.elements.get? name) ∧
    (∀ name, (∀ call ∈ calls, call.context? ≠ some name) →
      (s.run calls).contexts.get? name = s.contexts.get? name) ∧
    (∀ name change, let next := (s.step (.change name change)).1
      next.contexts = s.contexts ∧ next.created = s.created ∧
        ∀ other, other ≠ name → next.elements.get? other = s.elements.get? other) ∧
    (∀ call failure, (s.step call).2 = some failure → (s.step call).1 = s) ∧
    s.run (s.succeeding calls) = s.run calls := by
  refine ⟨fun _ _ ↦ run_get?_elements_eq_some, fun _ ↦ run_get?_elements,
    fun _ ↦ run_get?_contexts, ?_, fun _ _ ↦ step_eq_of_failure, run_succeeding s calls⟩
  intro name change
  obtain ⟨failure, hstep⟩ | ⟨s', hstep, hperformed⟩ := s.step_cases (.change name change)
  · rw [hstep]
    exact ⟨rfl, rfl, fun _ _ ↦ rfl⟩
  · rw [hstep]
    obtain ⟨hcontexts, hcreated⟩ := hperformed.contexts_of_change
    refine ⟨hcontexts, hcreated, fun other hother ↦ hperformed.get?_elements ?_⟩
    intro hname
    exact hother (Option.some.inj hname).symm

/-- A context and two elements of the first source group. -/
def twoPoints : Session exponentModel := (empty _).run
  [.createContext "c" .standard, .create "P" (.fresh "c" .g1), .create "Q" (.fresh "c" .g1)]

/-- A point cannot take an integer, so the second call fails. -/
def generatorCalls : List Call :=
  [.change "P" .generator, .change "P" (.integer 3), .create "R" (.copy "P")]

theorem run_frame_generator :
    (∃ v, (twoPoints.run generatorCalls).elements.get? "P"
        = some ((Element.fresh (.standard _) .g1).withValue v) ∧ v.group = .g1) ∧
      (twoPoints.run generatorCalls).elements.get? "Q" = twoPoints.elements.get? "Q" ∧
      (twoPoints.run generatorCalls).contexts.get? "c" = twoPoints.contexts.get? "c" ∧
      (twoPoints.step (.change "P" .generator)).1.elements.get? "Q"
        = twoPoints.elements.get? "Q" ∧
      (twoPoints.step (.change "P" (.integer 3))).1 = twoPoints ∧
      twoPoints.run [.change "P" .generator, .create "R" (.copy "P")]
        = twoPoints.run generatorCalls := by
  obtain ⟨hkeeps, helement, hcontext, hchange, hfailure, hrun⟩ :=
    run_frame exponentModel twoPoints generatorCalls
  refine ⟨hkeeps "P" _ rfl ?_, helement "Q" (by decide), hcontext "c" (by decide),
    (hchange "P" .generator).2.2 "Q" (by decide),
    hfailure _ (.refused (.unsupported .integerAssignment .g1)) rfl, hrun⟩
  simp [generatorCalls]

end BilinearGroups.Session
