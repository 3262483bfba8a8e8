/-!
# Menus

What a dialogue offers, and what is picked from it.
-/

namespace Appraisal

/-- The positions picked from a menu, counted from zero. -/
abbrev Pick := List Nat

inductive Menu where
  /-- One of the items is to be picked. -/
  | single (prompt : String) (items : List String)
  /-- Any of the items are to be picked; `defaults` says which ones are at the start. -/
  | multiple (prompt : String) (items : List String) (defaults : List Bool)
deriving DecidableEq, Repr

namespace Menu

def items : Menu → List String
  | single _ is => is
  | multiple _ is _ => is

/-- Whether a pick is one that the menu allows. -/
def accepts (m : Menu) (pick : Pick) : Bool :=
  pick.all (· < m.items.length) &&
    match m with
    | single _ _ => pick.length = 1
    | multiple _ _ _ => true

/-- The prompt and the items with their numbers, those to start with marked by a star. -/
def lines : Menu → List String
  | single prompt is => prompt :: is.zipIdx.map fun (item, i) => s!"  {i + 1}) {item}"
  | multiple prompt is defaults =>
    prompt :: (is.zip defaults).zipIdx.map fun ((item, marked), i) =>
      (if marked then "* " else "  ") ++ s!"{i + 1}) {item}"

/-- What an empty line picks: the first item, or what is marked. -/
def defaultPick : Menu → Pick
  | single _ _ => [0]
  | multiple _ _ defaults => (defaults.zipIdx.filter (·.1)).map (·.2)

/-- The position that a number stands for. -/
def position? (word : String) : Option Nat :=
  match word.toNat? with
  | some (i + 1) => some i
  | _ => none

/-- The pick that a line of numbers stands for, if the menu allows it. -/
def readPick? (m : Menu) (line : String) : Option Pick :=
  let words := ((line.split fun c => c = ' ' || c = ',' || c = '\n').toList.map (·.copy)).filter (!·.isEmpty)
  let pick := if words.isEmpty then some m.defaultPick else words.mapM position?
  pick.filter m.accepts

end Menu

/-- Puts a position in its place among ascending ones, once. -/
def insertPosition (i : Nat) : List Nat → List Nat
  | [] => [i]
  | j :: js => if i < j then i :: j :: js else if i = j then j :: js else j :: insertPosition i js

/-- The position picked from a menu of which one item is to be picked. -/
def Pick.first (pick : Pick) : Nat :=
  pick.headD 0

/-- The positions of a pick in ascending order, each of them once. -/
def Pick.ascending (pick : Pick) : List Nat :=
  pick.foldr insertPosition []

end Appraisal
