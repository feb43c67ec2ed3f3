import BilinearGroups.Proofs.Element.Result
import BilinearGroups.Proofs.Session.Step

/-!
# The effect of a call

A call that fails leaves the session as it was, so performing a call is a computation of the next
session that may fail. Sessions over different backends are compared in this form, where a call is
one expression instead of a program on a state.
-/

namespace BilinearGroups.Session

variable {B : Backend}

/-- The session that a call leads to, unless it fails. -/
def effect (s : Session B) : Call → Except Failure (Session B)
  | .createContext name description => do
    let c ← description.build B s.created
    return { s with created := s.created + 1, contexts := s.contexts.insert name c }
  | .shareContext name source => return s.withContext name (← s.context source)
  | .dropContext name => return { s with contexts := s.contexts.erase name }
  | .create name creation => return s.withElement name (← creation.produce s)
  | .change name change => do
    let u ← change.update s
    let e ← s.element name
    return s.withChanged name (← accept (u.result e))

/-- An operation on the element under a name fails and leaves the session as it is, or puts its
result there. -/
theorem updateElement_run_eq {u : Element.Update B Unit} {R : Element B → Value B → Prop}
    (hu : u.Replaces R) {s : Session B} {name : String} {e : Element B}
    (he : s.element name = .ok e) : (updateElement name u).run s =
      match u.result e with
      | .ok next => .ok () (s.withChanged name next)
      | .error reason => .error (.refused reason) s := by
  have hrun := hu.run_eq e
  cases hresult : u.result e with
  | error reason =>
    rw [hresult] at hrun
    rw [updateElement_run_error he hrun, withChanged_self he]
  | ok next =>
    rw [hresult] at hrun
    rw [updateElement_run_ok he hrun]

/-- A call that only puts something into the session does so, or fails and leaves it. -/
theorem step_eq_of_set {α : Type} {s : Session B} {call : Call} (x : Except Failure α)
    (put : α → Session B)
    (hcall : (perform call).run s = (do set (put (← x)) : Program B Unit).run s) : s.step call =
      match (do return put (← x)) with
      | .ok next => (next, none)
      | .error failure => (s, some failure) := by
  rw [step, hcall, run_lift]
  cases x <;> rfl

theorem step_eq_effect (s : Session B) (call : Call) : s.step call =
    match s.effect call with
    | .ok next => (next, none)
    | .error failure => (s, some failure) := by
  cases call with
  | createContext name description =>
    exact step_eq_of_set (description.build B s.created)
      (fun c ↦ { s with created := s.created + 1, contexts := s.contexts.insert name c }) rfl
  | shareContext name source => exact step_eq_of_set (s.context source) (s.withContext name) rfl
  | dropContext name => rfl
  | create name creation => exact step_eq_of_set (creation.produce s) (s.withElement name) rfl
  | change name change =>
    have hcall : (perform (.change name change)).run s =
        (do updateElement name (← change.update s) : Program B Unit).run s := rfl
    rw [step, hcall, run_lift, effect]
    cases hupdate : change.update s with
    | error failure => rfl
    | ok u =>
      dsimp only
      cases he : s.element name with
      | error failure =>
        rw [updateElement, EStateM.run_bind, EStateM.run_get]
        dsimp only
        rw [run_lift, he]
        rfl
      | ok e =>
        rw [updateElement_run_eq (Change.update_replaces hupdate) he]
        show _ = match (do return s.withChanged name (← accept (u.result e))) with
          | .ok next => (next, none)
          | .error failure => (s, some failure)
        cases u.result e <;> rfl

end BilinearGroups.Session
