import Appraisal.Answer
/-!
# Events

What a user does to a questionnaire.
-/

namespace Appraisal

inductive Event where
  | main (item : Nat) (answer : Answer)
  /-- Answers question `index` of the layer at `depth`. -/
  | sub (item depth index : Nat) (answer : Answer)
  | toggle (item index : Nat) (included : Bool)
  | navigate (target : Nat)
  | advance
deriving DecidableEq, Repr

namespace Event

def text : Event → String
  | main i a => s!"main item={i} answer=" ++ a.word
  | sub i d k a => s!"sub item={i} depth={d} index={k} answer=" ++ a.word
  | toggle i k b => s!"toggle item={i} index={k} included=" ++ (if b then "true" else "false")
  | navigate t => s!"navigate target={t}"
  | advance => "advance"

end Event

end Appraisal
