/-!
# Edit distance and the closest known word

`levenshtein` counts single-character insertions, deletions and substitutions, one row of the usual
table per character of the first word. `closest` picks, among known words, the one to suggest for a
word that is not known.
-/

namespace Appraisal.Text

/-- The distances from `c :: a` to every suffix of `b`, longest suffix first, given those from `a`. -/
def distanceRow (c : Char) : List Char → List Nat → List Nat
  | [], above => [above.headD 0 + 1]
  | d :: b, above =>
    let rest := distanceRow c b above.tail
    let diagonal := above.tail.headD 0
    if c = d then diagonal :: rest
    else (1 + min (above.headD 0) (min (rest.headD 0) diagonal)) :: rest

/-- The distances from the empty word to every suffix of `b`, longest suffix first. -/
def emptyRow : List Char → List Nat
  | [] => [0]
  | d :: b => (d :: b).length :: emptyRow b

def distances (b : List Char) : List Char → List Nat
  | [] => emptyRow b
  | c :: a => distanceRow c b (distances b a)

def levenshtein (a b : List Char) : Nat :=
  (distances b a).headD 0

/-- How alike two words are: `1 - distance / length`, where `length` is that of the longer word. -/
structure Likeness where
  distance : Nat
  length : Nat
deriving DecidableEq, Repr

namespace Likeness

/-- Two empty words are as alike as can be, so the length counts as at least one. -/
def between (a b : String) : Likeness :=
  ⟨levenshtein a.toList b.toList, max 1 (max a.toList.length b.toList.length)⟩

def atLeast (percent : Nat) (l : Likeness) : Bool :=
  100 * l.distance ≤ (100 - percent) * l.length

def closer (l r : Likeness) : Bool :=
  l.distance * r.length < r.distance * l.length

end Likeness

/-- The better of the best word so far and the next one; the earlier word keeps a tie. -/
def closerWord (percent : Nat) (word : String) (best : Option (String × Likeness)) (known : String) :
    Option (String × Likeness) :=
  let l := Likeness.between word known
  if l.atLeast percent && best.all (fun b => l.closer b.2) then some (known, l) else best

/-- The known word most like `word`, the earliest of several, if any is alike enough. -/
def closest (percent : Nat) (word : String) (known : List String) : Option String :=
  (known.foldl (closerWord percent word) none).map (·.1)

end Appraisal.Text
