/-!
# Answers and verdicts

The two words a question is answered with, the two verdicts an item can end with, and where an item
stands before it has one.
-/

namespace Appraisal

/-- An answer to the main question of an item or to one of its sub-questions. -/
inductive Answer where
  | yes
  | no
deriving DecidableEq, Repr, Inhabited

namespace Answer

def word : Answer → String
  | yes => "yes"
  | no => "no"

def ofWord? : String → Option Answer
  | "yes" => some yes
  | "no" => some no
  | _ => none

theorem ofWord?_word (a : Answer) : ofWord? a.word = some a := by
  cases a <;> rfl

end Answer

/-- A final verdict. The example tag of a sub-question is a verdict too: the one that a yes speaks for. -/
inductive Verdict where
  | pass
  | fail
deriving DecidableEq, Repr, Inhabited

namespace Verdict

def word : Verdict → String
  | pass => "pass"
  | fail => "fail"

def ofWord? : String → Option Verdict
  | "pass" => some pass
  | "fail" => some fail
  | _ => none

theorem ofWord?_word (v : Verdict) : ofWord? v.word = some v := by
  cases v <;> rfl

end Verdict

/-- Where an item stands: decided, waiting for answers, or waiting for a selection. -/
inductive Standing where
  | decided (verdict : Verdict)
  | pending
  | ambiguous
deriving DecidableEq, Repr, Inhabited

namespace Standing

def word : Standing → String
  | decided v => v.word
  | pending => "pending"
  | ambiguous => "ambiguous"

def ofWord? : String → Option Standing
  | "pass" => some (decided .pass)
  | "fail" => some (decided .fail)
  | "pending" => some pending
  | "ambiguous" => some ambiguous
  | _ => none

theorem ofWord?_word (s : Standing) : ofWord? s.word = some s := by
  rcases s with v | _ | _
  · cases v <;> rfl
  · rfl
  · rfl

/-- The verdict that may be recorded, if there is one. -/
def verdict? : Standing → Option Verdict
  | decided v => some v
  | pending => none
  | ambiguous => none

end Standing

end Appraisal
