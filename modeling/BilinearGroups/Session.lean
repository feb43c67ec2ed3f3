import BilinearGroups.Element.Codec
import BilinearGroups.Pairing
import BilinearGroups.Session.Call
import BilinearGroups.Table

/-!
# Sessions

A session is the contexts and the elements that a user holds, each under a name, and the number of
the contexts created so far. A call looks up everything it names before it does anything, and a
change works on the element in place. Elements keep their context, so they outlive the name of it.

Operands are values and not places, so an operand may be the very element that is changed.
-/

namespace BilinearGroups

/-- What a user holds. -/
structure Session (B : Backend) where
  /-- How many contexts have been created. -/
  created : Nat
  /-- The contexts. -/
  contexts : Table (Context B)
  /-- The elements. -/
  elements : Table (Element B)

namespace Session

variable {B : Backend}

/-- Why a call fails. -/
inductive Failure where
  /-- There is no context under a name. -/
  | noContext (name : String)
  /-- There is no element under a name. -/
  | noElement (name : String)
  /-- The library refuses. -/
  | refused (reason : Error)
  /-- A JSON text is refused. -/
  | unreadable (reason : Json.Error)
deriving DecidableEq, Repr

/-- A result of the library. -/
def accept {α : Type} (result : Except Error α) : Except Failure α := result.mapError .refused

/-- A result of reading JSON. -/
def readable {α : Type} (result : Except Json.Error α) : Except Failure α :=
  result.mapError .unreadable

/-! ## Looking up -/

/-- The context under a name. -/
def context (s : Session B) (name : String) : Except Failure (Context B) :=
  match s.contexts.get? name with
  | some c => .ok c
  | none => .error (.noContext name)

/-- The element under a name. -/
def element (s : Session B) (name : String) : Except Failure (Element B) :=
  match s.elements.get? name with
  | some e => .ok e
  | none => .error (.noElement name)

/-- The elements under names, of which the first that is missing is reported. -/
def elementsOf (s : Session B) : List String → Except Failure (List (Element B))
  | [] => .ok []
  | name :: names => do
    let e ← s.element name
    let es ← s.elementsOf names
    return e :: es

/-! ## What a call produces -/

/-- Builds the context of a description, with a given number. -/
def Description.build (B : Backend) (number : Nat) : Description → Except Failure (Context B)
  | standard => accept (Context.create B number .default)
  | domain hashDomain =>
    accept (Context.create B number (Parameters.default.withHashDomain hashDomain))
  | json source => do
    let p ← readable (Parameters.ofJson source)
    accept (Context.create B number p)
  | text source => accept (Context.ofDescription B number source)

/-- The element that a creation gives. -/
def Creation.produce (s : Session B) : Creation → Except Failure (Element B)
  | fresh context group => return Element.fresh (← s.context context) group
  | freshLike operand => return (← s.element operand).freshLike
  | copy operand => s.element operand
  | ofBytes context group bytes => do
    accept (Element.ofBytes (← s.context context) group bytes)
  | ofCompressedBytes context group bytes => do
    accept (Element.ofCompressedBytes (← s.context context) group bytes)
  | ofJson context accepted? text => do
    let c ← s.context context
    let (e, _) ← readable (Element.readJson c accepted? text.toList)
    return e
  | pairing context left right => do
    let c ← s.context context
    let a ← s.element left
    let b ← s.element right
    accept (c.pair a b)
  | pairingProduct context lefts rights => do
    let c ← s.context context
    let as ← s.elementsOf lefts
    let bs ← s.elementsOf rights
    accept (c.pairingProduct as bs)

/-- The operation in place that a change asks for, after its operands are looked up. -/
def Change.update (s : Session B) : Change → Except Failure (Element.Update B Unit)
  | zero => return Element.setZero
  | one => return Element.setOne
  | integer n => return Element.setInteger n
  | value operand => return Element.set (← s.element operand)
  | generator => return Element.setGenerator
  | random supply => return discard (Element.setRandom supply)
  | hash message => return Element.setFromHash message
  | bytes encoding => return Element.setFromBytes encoding
  | compressedBytes encoding => return Element.setFromCompressedBytes encoding
  | combine op left right => return Element.combine op (← s.element left) (← s.element right)
  | mulInteger operand n => return Element.mulInteger (← s.element operand) n
  | mulScalar operand scalar => return Element.mulScalar (← s.element operand) (← s.element scalar)
  | powScalar operand scalar => return Element.powScalar (← s.element operand) (← s.element scalar)
  | invert operand => return Element.invert (← s.element operand)
  | neg operand => return Element.neg (← s.element operand)
  | square operand => return Element.square (← s.element operand)
  | double operand => return Element.double (← s.element operand)
  | combineWith op operand => return Element.combineWith op (← s.element operand)
  | powScalarWith scalar => return Element.powScalarWith (← s.element scalar)
  | inverted => return Element.inverted

/-! ## Performing calls -/

/-- What is done to a session in place. What happened before a failure stays. -/
abbrev Program (B : Backend) := EStateM Failure (Session B)

/-- A computation that may fail and does not touch the session. -/
instance : MonadLift (Except Failure) (Program B) where
  monadLift
    | .ok a => pure a
    | .error failure => throw failure

/-- The session with a context under a name. -/
def withContext (s : Session B) (name : String) (c : Context B) : Session B :=
  { s with contexts := s.contexts.insert name c }

/-- The session with an element under a name. -/
def withElement (s : Session B) (name : String) (e : Element B) : Session B :=
  { s with elements := s.elements.insert name e }

/-- The session with what became of the element under a name. -/
def withChanged (s : Session B) (name : String) (e : Element B) : Session B :=
  { s with elements := s.elements.replace name e }

/-- Performs an operation on the element under a name. The session keeps what the operation leaves,
also where it fails. -/
def updateElement (name : String) (u : Element.Update B Unit) : Program B Unit := do
  let s ← get
  match u.run (← s.element name) with
  | .ok () e => set (s.withChanged name e)
  | .error reason e => do
    set (s.withChanged name e)
    throw (.refused reason)

/-- Performs a call. -/
def perform : Call → Program B Unit
  | .createContext name description => do
    let s ← get
    let c ← description.build B s.created
    set { s with created := s.created + 1, contexts := s.contexts.insert name c }
  | .shareContext name source => do
    let s ← get
    set (s.withContext name (← s.context source))
  | .dropContext name => modify fun s ↦ { s with contexts := s.contexts.erase name }
  | .create name creation => do
    let s ← get
    set (s.withElement name (← creation.produce s))
  | .change name change => do updateElement name (← change.update (← get))

/-- The session after a call, and the failure if it failed. -/
def step (s : Session B) (call : Call) : Session B × Option Failure :=
  match (perform call).run s with
  | .ok () next => (next, none)
  | .error failure next => (next, some failure)

/-- The session after calls in order, whether they fail or not. -/
def run (s : Session B) (calls : List Call) : Session B :=
  calls.foldl (fun s call ↦ (s.step call).1) s

/-- The session that holds nothing. -/
def empty (B : Backend) : Session B := ⟨0, .empty, .empty⟩

/-- The name of the context that a session starts with. -/
def standardName : String := "c"

/-- The session at its start, which holds one context with the parameters where nothing is
chosen. -/
def start (B : Backend) : Session B := (empty B).run [.createContext standardName .standard]

end Session

end BilinearGroups
