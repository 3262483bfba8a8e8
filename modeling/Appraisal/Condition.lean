import Appraisal.Answer
import Appraisal.Text.EditDistance
/-!
# Conditions

The closed lists of tags that a layer may be judged by (`Condition`) and that may lead on to the next
layer (`ChainCondition`). Eight of the tags count answers (`CountTest`) and stand in both lists.
-/

namespace Appraisal

/-- A test of the numbers of yes and no answers. -/
inductive CountTest where
  | allYes
  | allNo
  | anyYes
  | anyNo
  | maxYes
  | maxNo
  | yesToOneOrLess
  | yesToTwoOrMore
deriving DecidableEq, Repr, Inhabited

namespace CountTest

def all : List CountTest :=
  [allYes, allNo, anyYes, anyNo, maxYes, maxNo, yesToOneOrLess, yesToTwoOrMore]

def tag : CountTest → String
  | allYes => "all-yes"
  | allNo => "all-no"
  | anyYes => "any-yes"
  | anyNo => "any-no"
  | maxYes => "max-yes"
  | maxNo => "max-no"
  | yesToOneOrLess => "yes-to-one-or-less"
  | yesToTwoOrMore => "yes-to-two-or-more"

end CountTest

/-- What decides a layer: nothing but the condition itself, a count, or the tags of the yes answers. -/
inductive Condition where
  | direct (verdict : Verdict)
  | count (test : CountTest)
  | byExample
deriving DecidableEq, Repr, Inhabited

/-- What leads on to the next layer when a layer's own condition fails. -/
inductive ChainCondition where
  | nextLayer
  | count (test : CountTest)
deriving DecidableEq, Repr, Inhabited

/-- A tag outside the closed list it was looked up in, with the listed tag most like it. -/
structure UnknownTag where
  tag : String
  suggestion : Option String
deriving DecidableEq, Repr

namespace UnknownTag

def message (e : UnknownTag) : String :=
  "unknown condition '" ++ e.tag ++ "'" ++
    match e.suggestion with
    | some s => ". Did you mean '" ++ s ++ "'?"
    | none => ""

/-- A listed tag is suggested from a likeness of seven in ten. -/
def among (known : List String) (tag : String) : UnknownTag :=
  ⟨tag, Text.closest 70 tag known⟩

end UnknownTag

namespace Condition

def all : List Condition :=
  [direct .pass, direct .fail] ++ CountTest.all.map count ++ [byExample]

def tag : Condition → String
  | direct .pass => "pass-direct"
  | direct .fail => "fail-direct"
  | count t => t.tag
  | byExample => "yes-to-only-pass-fail"

/-- Direct conditions ignore the answers. -/
def isDirect : Condition → Bool
  | direct _ => true
  | count _ => false
  | byExample => false

def parse (tag : String) : Except UnknownTag Condition :=
  match all.find? (·.tag == tag) with
  | some c => .ok c
  | none => .error (.among (all.map Condition.tag) tag)

end Condition

namespace ChainCondition

def all : List ChainCondition :=
  nextLayer :: CountTest.all.map count

def tag : ChainCondition → String
  | nextLayer => "next-layer"
  | count t => t.tag

/-- The condition with the same tag, if the chain condition counts. -/
def condition? : ChainCondition → Option Condition
  | nextLayer => none
  | count t => some (.count t)

def parse (tag : String) : Except UnknownTag ChainCondition :=
  match all.find? (·.tag == tag) with
  | some c => .ok c
  | none => .error (.among (all.map ChainCondition.tag) tag)

end ChainCondition

end Appraisal
