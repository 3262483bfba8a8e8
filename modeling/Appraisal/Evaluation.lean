import Appraisal.Catalog
/-!
# Evaluating a condition

`evaluate` judges the answers of one complete layer. The layer's own condition is tried first and the chain
condition only when it fails, so a layer that passes never leads on.
-/

namespace Appraisal

/-- The numbers of yes and no answers. -/
structure Tally where
  yes : Nat
  no : Nat
deriving DecidableEq, Repr

namespace Tally

def of (answers : List Answer) : Tally :=
  ⟨answers.count .yes, answers.count .no⟩

def total (t : Tally) : Nat :=
  t.yes + t.no

end Tally

def CountTest.holds (t : Tally) : CountTest → Bool
  | .allYes => t.yes = t.total
  | .allNo => t.no = t.total
  | .anyYes => 0 < t.yes
  | .anyNo => 0 < t.no
  | .maxYes => t.no ≤ t.yes
  | .maxNo => t.yes ≤ t.no
  | .yesToOneOrLess => t.yes ≤ 1
  | .yesToTwoOrMore => 2 ≤ t.yes

/-- The count that a condition tests, if it tests one. -/
def Condition.countTest (t : Tally) : Condition → Option Bool
  | .count test => some (test.holds t)
  | .direct _ => none
  | .byExample => none

/-- The chain condition on the answers that `wrapping` has just judged. `nextLayer` asks for what makes an
`all-yes` layer pass, so as a fallback it never holds. -/
def ChainCondition.test (wrapping : Condition) (t : Tally) : ChainCondition → Bool
  | .nextLayer => wrapping = .count .allYes && CountTest.allYes.holds t
  | .count test => test.holds t

/-- What a complete layer says: a verdict, or that its answers point both ways. -/
inductive Finding where
  | decided (verdict : Verdict)
  | ambiguous
deriving DecidableEq, Repr

def Finding.standing : Finding → Standing
  | decided v => .decided v
  | ambiguous => .ambiguous

/-- What evaluating a layer leads to. -/
inductive Outcome where
  | found (finding : Finding)
  | advance
deriving DecidableEq, Repr

/-- Answers that a condition cannot judge. -/
inductive EvaluationError where
  | emptyAnswers (condition : Condition)
  | contextMismatch (answers questions : Nat)
  | tooManyAnswers (answers questions : Nat)
deriving DecidableEq, Repr

def EvaluationError.message : EvaluationError → String
  | emptyAnswers c => "condition '" ++ c.tag ++ "' needs at least one answer"
  | contextMismatch a q =>
    toString a ++ " answers given for a layer with " ++ toString q ++ " questions"
  | tooManyAnswers a q =>
    toString a ++ " answers exceed the layer's " ++ toString q ++ " questions"

/-- The example tags of the questions answered yes. -/
def yesExamples (answers : List Answer) (questions : List SubQuestion) : List Verdict :=
  ((questions.zip answers).filter (·.2 = .yes)).map (·.1.favours)

/-- The verdict on which all yes answers agree; without any, or when they differ, none. -/
def findingByExample (answers : List Answer) (questions : List SubQuestion) : Except EvaluationError Finding :=
  if answers.length = questions.length then
    let tags := yesExamples answers questions
    match tags.contains .pass, tags.contains .fail with
    | true, false => .ok (.decided .pass)
    | false, true => .ok (.decided .fail)
    | _, _ => .ok .ambiguous
  else .error (.contextMismatch answers.length questions.length)

/-- The outcome of a counting condition that falls back on `chain`. -/
def countOutcome (test : CountTest) (chain : Option ChainCondition) (t : Tally) : Outcome :=
  if test.holds t then .found (.decided .pass)
  else if chain.any (·.test (.count test) t) then .advance
  else .found (.decided .fail)

/-- Only `yes-to-only-pass-fail` reads the questions, which then must match the answers one to one. -/
def evaluate (condition : Condition) (chain : Option ChainCondition) (answers : List Answer)
    (questions : List SubQuestion) : Except EvaluationError Outcome :=
  match condition with
  | .direct v => .ok (.found (.decided v))
  | .byExample =>
    if answers.isEmpty then .error (.emptyAnswers condition)
    else (findingByExample answers questions).map .found
  | .count test =>
    if answers.isEmpty then .error (.emptyAnswers condition)
    else .ok (countOutcome test chain (Tally.of answers))

end Appraisal
