import Appraisal.Answer
/-!
# Prompts

What to ask next about an item.
-/

namespace Appraisal

/-- A question offered in a selection, as it is shown. -/
structure Choice where
  subIndex : Nat
  title : String
  favours : Verdict
  picked : Bool
deriving DecidableEq, Repr

inductive Prompt where
  | mainQuestion (title : String) (description yesHint noHint : Option String)
  /-- Question `subIndex` of the `count` questions of the layer at `depth`. -/
  | subQuestion (depth subIndex count : Nat) (title : String)
  /-- `running` is the standing of the choices picked so far. -/
  | selection (choices : List Choice) (running : Standing)
  | done (verdict : Verdict)
deriving DecidableEq, Repr

end Appraisal
