import Appraisal.Event
import Appraisal.Session
import Appraisal.Store
/-!
# Questionnaires

A questionnaire runs over one catalog. One item is current at a time and only it takes answers. Every item
keeps its session for the whole run, and the store follows the sessions' verdicts: after each accepted answer
the current item's record is written, replaced or withdrawn (`Questionnaire.sync`).
-/

namespace Appraisal

/-- What an accepted event leads to. -/
structure Transition where
  item : Nat
  standing : Standing
  prompt : Prompt
  completion : Option Completion
deriving DecidableEq, Repr

structure Questionnaire where
  catalog : Catalog
  sessions : List Session
  store : Store
  current : Nat
deriving Repr

/-- The answer to an event: its result, the questionnaire it leaves behind, and what there is to tell. -/
structure Reply where
  result : Except SessionError Transition
  next : Questionnaire
  notices : List Notice

namespace Questionnaire

def new (catalog : Catalog) : Questionnaire :=
  ⟨catalog, (List.range catalog.items.length).map Session.new, .empty, 0⟩

def session? (q : Questionnaire) (index : Nat) : Option Session :=
  q.sessions[index]?

def item (q : Questionnaire) (index : Nat) : Except SessionError Item :=
  match q.catalog.items[index]? with
  | some i => .ok i
  | none => .error (.unknownItem index q.catalog.items.length)

def session (q : Questionnaire) (index : Nat) : Except SessionError Session :=
  match q.sessions[index]? with
  | some s => .ok s
  | none => .error (.unknownItem index q.sessions.length)

/-! ## Results -/

/-- The row of an item: its record, or what has been entered so far. -/
def row (q : Questionnaire) (index : Nat) (item : Item) (session : Session) : Row :=
  match q.store.get? index with
  | some r => r.row
  | none => ⟨index, item.id, item.title, .pending, session.trail.main, session.trail.full⟩

/-- One row per item, in catalog order. -/
def results (q : Questionnaire) : List Row :=
  (q.catalog.items.zip q.sessions).zipIdx.map fun x => q.row x.2 x.1.1 x.1.2

/-- Every item has a record, and there is an item. -/
def isComplete (q : Questionnaire) : Bool :=
  !q.sessions.isEmpty && q.store.size = q.sessions.length

def completion (q : Questionnaire) : Option Completion :=
  if q.isComplete then some ⟨q.results, Summary.of q.results⟩ else none

/-! ## Prompts -/

def prompt (q : Questionnaire) : Except SessionError Prompt := do
  let item ← q.item q.current
  let session ← q.session q.current
  return session.prompt item

def transition (q : Questionnaire) (index : Nat) : Except SessionError Transition := do
  let item ← q.item index
  let session ← q.session index
  return ⟨index, session.standing, session.prompt item, q.completion⟩

/-! ## Answers -/

/-- The record of an item whose session has a verdict. -/
def recordOf (index : Nat) (item : Item) (s : Session) : Option Record :=
  match s.verdict?, s.trail.main with
  | some v, some a => some ⟨index, item.id, item.title, v, a, s.trail.full⟩
  | _, _ => none

/-- The notice of a record in place of another; the same verdict again is not told. -/
def recordNotice (r : Record) (displaced : Option Record) : List Notice :=
  if displaced.map Record.verdict = some r.verdict then [] else [.verdictRecorded r.index r.id r.verdict]

def completeNotice (q : Questionnaire) : List Notice :=
  if q.isComplete then [.complete q.store.size] else []

/-- Brings the record of an item in line with its session. -/
def sync (q : Questionnaire) (index : Nat) : Questionnaire × List Notice :=
  match q.sessions[index]?, q.catalog.items[index]? with
  | some s, some item =>
    match recordOf index item s with
    | some r =>
      let change := q.store.record r
      let next := { q with store := change.store }
      (next, recordNotice r change.displaced ++ next.completeNotice)
    | none =>
      let change := q.store.retract index
      ({ q with store := change.store },
        if change.displaced.isSome then [.verdictRetracted index item.id] else [])
  | _, _ => (q, [])

/-- What `apply` makes of the session of `item`, if that is the current item. -/
def onCurrent (q : Questionnaire) (item : Nat)
    (apply : Session → Item → Except SessionError SessionStep) : Except SessionError SessionStep :=
  match q.catalog.items[item]?, q.sessions[item]? with
  | some i, some s => if item = q.current then apply s i else .error (.notCurrent item q.current)
  | _, _ => .error (.unknownItem item q.sessions.length)

def rejected (q : Questionnaire) (item : Nat) (event : String) (e : SessionError) : Reply :=
  ⟨.error e, q, [.eventRejected item event e]⟩

def answered (q : Questionnaire) (item : Nat) (event : String)
    (apply : Session → Item → Except SessionError SessionStep) : Reply :=
  match q.onCurrent item apply with
  | .error e => q.rejected item event e
  | .ok step =>
    let (next, notices) := { q with sessions := q.sessions.set item step.session }.sync item
    ⟨next.transition item, next, step.notices ++ notices⟩

/-! ## Moving about -/

/-- The current item may be visited, and every item with a record. -/
def canNavigate (q : Questionnaire) (target : Nat) : Bool :=
  target < q.sessions.length && (target = q.current || q.store.contains target)

def navigate (q : Questionnaire) (target : Nat) : Reply :=
  match q.item target with
  | .error e => ⟨.error e, q, []⟩
  | .ok _ =>
    if q.canNavigate target then
      let next := { q with current := target }
      ⟨next.transition target, next, if target = q.current then [] else [.navigated q.current target]⟩
    else
      let e := SessionError.unreachable target q.current
      ⟨.error e, q, [.navigationRejected e]⟩

/-- Goes from a decided item to the one after it. -/
def advance (q : Questionnaire) : Reply :=
  match q.session q.current with
  | .error e => ⟨.error e, q, []⟩
  | .ok s =>
    if s.verdict?.isNone then ⟨.error (.notResolved q.current), q, []⟩
    else if q.sessions.length ≤ q.current + 1 then ⟨.error (.endOfCatalog q.current), q, []⟩
    else
      let next := { q with current := q.current + 1 }
      ⟨next.transition next.current, next, [.advanced q.current next.current]⟩

/-! ## Events -/

def apply (q : Questionnaire) : Event → Reply
  | .main item a => q.answered item "main" (fun s i => s.answerMain i a)
  | .sub item depth index a => q.answered item "sub" (fun s i => s.answerSub i depth index a)
  | .toggle item index included => q.answered item "toggle" (fun s _ => s.toggle index included)
  | .navigate target => q.navigate target
  | .advance => q.advance

end Questionnaire

end Appraisal
