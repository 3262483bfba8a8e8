import Appraisal.Evaluation
/-!
# Selections

When the yes answers of a layer point both ways, the questions behind them are offered again and the ones
that really apply are picked. The standing is that of the picked ones alone:

| picked                | standing  |
|-----------------------|-----------|
| nothing               | pending   |
| passes only           | pass      |
| more fails than passes| fail      |
| otherwise             | ambiguous |
-/

namespace Appraisal

/-- A question offered in a selection, and whether it is picked. -/
structure Candidate where
  subIndex : Nat
  favours : Verdict
  picked : Bool
deriving DecidableEq, Repr

/-- The standing of a selection of `passes` and `fails`. -/
def selectionStanding (passes fails : Nat) : Standing :=
  if fails = 0 then
    if passes = 0 then .pending else .decided .pass
  else if passes < fails then .decided .fail
  else .ambiguous

/-- A question that a selection does not offer. -/
structure NotACandidate where
  subIndex : Nat
deriving DecidableEq, Repr

def NotACandidate.message (e : NotACandidate) : String :=
  s!"sub-question {e.subIndex} is not a disambiguation choice"

/-- Candidates stand in the order of their questions. -/
structure Selection where
  candidates : List Candidate
deriving DecidableEq, Repr

namespace Selection

/-- Every question, with its index and not picked. -/
def offers (questions : List SubQuestion) : List Candidate :=
  questions.zipIdx.map fun q => ⟨q.2, q.1.favours, false⟩

/-- Offers the questions answered yes, or all of them when none was. -/
def start (questions : List SubQuestion) (answers : List Answer) : Selection :=
  let yes := (((offers questions).zip answers).filter (·.2 = .yes)).map (·.1)
  ⟨if yes.isEmpty then offers questions else yes⟩

def offered (s : Selection) (subIndex : Nat) : Bool :=
  s.candidates.any (·.subIndex = subIndex)

/-- Picks or drops one candidate. -/
def set (s : Selection) (subIndex : Nat) (picked : Bool) : Selection :=
  ⟨s.candidates.map fun c => if c.subIndex = subIndex then { c with picked := picked } else c⟩

/-- Picks or drops one candidate, which has to be offered. -/
def toggle (s : Selection) (subIndex : Nat) (picked : Bool) : Except NotACandidate Selection :=
  if s.offered subIndex then .ok (s.set subIndex picked) else .error ⟨subIndex⟩

/-- The indices of the picked candidates, in order. -/
def picked (s : Selection) : List Nat :=
  (s.candidates.filter (·.picked)).map (·.subIndex)

def isPicked (s : Selection) (subIndex : Nat) : Bool :=
  s.picked.contains subIndex

/-- How many picked candidates speak for `v`. -/
def count (s : Selection) (v : Verdict) : Nat :=
  s.candidates.countP fun c => c.picked && c.favours = v

def standing (s : Selection) : Standing :=
  selectionStanding (s.count .pass) (s.count .fail)

end Selection

end Appraisal
