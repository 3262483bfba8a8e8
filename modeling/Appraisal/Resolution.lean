import Appraisal.Evaluation
/-!
# Walking a chain of layers

`resolve` looks at one layer with the answers given so far. `settle` follows the chain until a layer waits
for an answer or has a finding.
-/

namespace Appraisal

/-- What one layer makes of its answers. -/
inductive Resolution where
  /-- The layer is incomplete; `index` is its next question. -/
  | awaiting (index : Nat)
  | found (finding : Finding)
  /-- Go on with `next`, which starts without answers. -/
  | advance (next : Layer)
deriving DecidableEq, Repr

namespace Layer

/-- An advance past the end of the chain is a failure. -/
def resolve (l : Layer) (answers : List Answer) : Except EvaluationError Resolution :=
  if l.questions.length < answers.length then
    .error (.tooManyAnswers answers.length l.questions.length)
  else if answers.length < l.questions.length then
    .ok (.awaiting answers.length)
  else
    match evaluate l.condition l.fallback? answers l.questions, l.next? with
    | .error e, _ => .error e
    | .ok (.found f), _ => .ok (.found f)
    | .ok .advance, some next => .ok (.advance next)
    | .ok .advance, none => .ok (.found (.decided .fail))

end Layer

/-- Where a walk down a chain comes to rest. -/
inductive Settled where
  | awaiting (depth index : Nat)
  | found (depth : Nat) (finding : Finding)
deriving DecidableEq, Repr

def Settled.depth : Settled → Nat
  | awaiting d _ => d
  | found d _ => d

namespace Layer

/-- Walks on from `l`, which stands at `depth` in its chain. -/
def settle (l : Layer) (depth : Nat) (answers : List Answer) : Except EvaluationError Settled :=
  match l.resolve answers with
  | .error e => .error e
  | .ok (.awaiting index) => .ok (.awaiting depth index)
  | .ok (.found f) => .ok (.found depth f)
  | .ok (.advance _) =>
    match l with
    | last _ _ => .ok (.found depth (.decided .fail))
    | chained _ _ _ next => next.settle (depth + 1) []

end Layer

end Appraisal
