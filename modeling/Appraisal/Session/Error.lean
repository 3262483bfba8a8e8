import Appraisal.Evaluation
/-!
# Rejected events

Why a session or a questionnaire refuses an event. A refused event changes nothing.
-/

namespace Appraisal

inductive SessionError where
  | unknownItem (item count : Nat)
  | notCurrent (item current : Nat)
  | mainAnswerMissing (item : Nat)
  | noActiveLayer (item : Nat)
  | outOfSequence (item subIndex cursor : Nat)
  | inactiveLayer (item depth active : Nat)
  | subIndexOutOfRange (item subIndex count : Nat)
  | notSelecting (item : Nat)
  | notACandidate (item subIndex : Nat)
  | unreachable (target current : Nat)
  | notResolved (item : Nat)
  | endOfCatalog (item : Nat)
  | evaluation (cause : EvaluationError)
deriving DecidableEq, Repr

namespace SessionError

def message : SessionError → String
  | unknownItem i n => s!"item {i} does not exist (catalog has {n} items)"
  | notCurrent i c => s!"item {i} is not the active item (current is {c})"
  | mainAnswerMissing i => s!"item {i} has no main answer yet"
  | noActiveLayer i => s!"item {i} has no active layer"
  | outOfSequence i s c => s!"item {i}: sub-question {s} answered out of sequence (next is {c})"
  | inactiveLayer i d a => s!"item {i}: layer {d} is not the active layer (active is {a})"
  | subIndexOutOfRange i s n => s!"item {i}: sub-question {s} does not exist in a layer of {n}"
  | notSelecting i => s!"item {i} is not awaiting disambiguation"
  | notACandidate i s => s!"item {i}: sub-question {s} is not a disambiguation choice"
  | unreachable t c =>
    s!"item {t} is not reachable from item {c}: only the current item and answered items can be visited"
  | notResolved i => s!"item {i} has no verdict yet"
  | endOfCatalog i => s!"item {i} is the last item"
  | evaluation e => "evaluation failed: " ++ e.message

/-- Every error but a failed evaluation is an event sent at the wrong time or to the wrong place. -/
def isSequenceViolation : SessionError → Bool
  | evaluation _ => false
  | _ => true

end SessionError

end Appraisal
