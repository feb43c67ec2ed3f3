import BilinearGroups.Session
import BilinearGroups.Session.Query

/-!
# What a session reports

A session answers every request with a report. A question is answered and leaves the session as it
is. A call is performed, and the report shows what it left under its name: for a change this is the
element after the call, also where the call failed.
-/

namespace BilinearGroups

/-- What a context is. -/
def Context.info {B : Backend} (c : Context B) : Session.ContextInfo where
  backend := B.name
  parameters := c.parameters
  symmetric := B.isSymmetric
  orders := PerGroup.ofFunction c.groupOrder
  byteLengths := PerGroup.ofFunction c.byteLength
  compressedByteLengths := PerGroup.ofFunction c.compressedByteLength

namespace Element

variable {B : Backend}

/-- How an element compares with another. -/
def comparison (a b : Element B) : Session.Comparison where
  compareEqual := a.compareEqual b
  equal := a.equal b
  order? := a.partialCompare b
  less := a.less b
  greaterOrEqual := a.greaterOrEqual b

/-- What an element shows of itself. -/
def inspection (e : Element B) : Session.Inspection where
  isZero := e.isZero
  isOne := e.isOne
  byteLength := e.byteLength
  compressedByteLength := e.compressedByteLength
  compressed := e.toCompressedBytes
  debugText := e.debugText

end Element

namespace Session

variable {B : Backend}

/-- The answer to a question. -/
def ask (s : Session B) : Query → Except Failure Answer
  | .context name => return .context (← s.context name).info
  | .sameContext left right => do
    let c ← s.context left
    let d ← s.context right
    return .truth (c.sameAs d)
  | .belongs operand context => do
    let c ← s.context context
    let e ← s.element operand
    return .truth (e.context.sameAs c)
  | .compare left right => do
    let a ← s.element left
    let b ← s.element right
    return .comparison (a.comparison b)
  | .inspect operand => return .inspection (← s.element operand).inspection
  | .json operand => return .text (← s.element operand).toJson

/-- What a session is asked to do. -/
inductive Request where
  /-- To perform a call. -/
  | call (call : Call)
  /-- To answer a question. -/
  | query (query : Query)
deriving DecidableEq, Repr

/-- What a session reports. -/
inductive Report where
  /-- The request failed, and there is nothing to show. -/
  | failed (failure : Failure)
  /-- The diagnostic text of a context that was put under a name. -/
  | context (debugText : String)
  /-- A context was removed, if there was one. -/
  | dropped (existed : Bool)
  /-- The group and the canonical encoding of an element, and the failure if its change failed. -/
  | element (group : Group) (bytes : Bytes) (failure? : Option Failure)
  /-- The answer to a question. -/
  | answer (answer : Answer)

/-- The failure is that of a name with nothing under it. -/
def Failure.isMissingName : Failure → Bool
  | noContext _ | noElement _ => true
  | refused _ | unreadable _ => false

/-- The report on the context under a name. -/
def reportContext (s : Session B) (name : String) : Report :=
  match s.context name with
  | .ok c => .context c.debugText
  | .error failure => .failed failure

/-- The report on the element under a name, with the failure of a change. -/
def reportElement (s : Session B) (name : String) (failure? : Option Failure) : Report :=
  match s.element name with
  | .ok e => .element e.group e.toBytes failure?
  | .error failure => .failed failure

/-- The report on a call that led from a session to the next one. -/
def reportCall (s next : Session B) : Call → Option Failure → Report
  | .createContext name _, none | .shareContext name _, none => next.reportContext name
  | .dropContext name, none => .dropped (s.contexts.contains name)
  | .create name _, none => next.reportElement name none
  | .change name _, none => next.reportElement name none
  | .change name _, some failure =>
    if failure.isMissingName then .failed failure else next.reportElement name (some failure)
  | _, some failure => .failed failure

/-- The session after a request, and the report on it. -/
def respond (s : Session B) : Request → Session B × Report
  | .call call =>
    let (next, failure?) := s.step call
    (next, s.reportCall next call failure?)
  | .query query =>
    match s.ask query with
    | .ok answer => (s, .answer answer)
    | .error failure => (s, .failed failure)

/-- The reports on requests in order. -/
def reports (s : Session B) : List Request → List Report
  | [] => []
  | request :: requests =>
    let (next, report) := s.respond request
    report :: next.reports requests

end Session

end BilinearGroups
