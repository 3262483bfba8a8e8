import Appraisal.Condition
/-!
# Catalogs

A catalog lists items. Each item asks a main question, and each answer to it opens a branch: a chain of
layers of sub-questions. Nothing here is checked; `Appraisal.Definition` says which catalogs are well formed.
-/

namespace Appraisal

structure SubQuestion where
  title : String
  /-- The verdict that a yes speaks for. -/
  favours : Verdict
deriving DecidableEq, Repr

/-- A chain of layers, seen from its first one. A layer holds questions and the condition that judges their
answers; every layer but the last also says when to fall back on the next one. -/
inductive Layer where
  | last (questions : List SubQuestion) (condition : Condition)
  | chained (questions : List SubQuestion) (condition : Condition) (fallback : ChainCondition) (next : Layer)
deriving DecidableEq, Repr, Inhabited

namespace Layer

def questions : Layer → List SubQuestion
  | last qs _ => qs
  | chained qs _ _ _ => qs

def condition : Layer → Condition
  | last _ c => c
  | chained _ c _ _ => c

def fallback? : Layer → Option ChainCondition
  | last _ _ => none
  | chained _ _ f _ => some f

def next? : Layer → Option Layer
  | last _ _ => none
  | chained _ _ _ next => some next

/-- A layer without questions needs no answers. -/
def isTerminal (l : Layer) : Bool :=
  l.questions.isEmpty

/-- The layer `depth` steps down the chain. -/
def descend : Layer → Nat → Option Layer
  | l, 0 => some l
  | last _ _, _ + 1 => none
  | chained _ _ _ next, depth + 1 => next.descend depth

/-- The number of layers in the chain. -/
def chainLength : Layer → Nat
  | last _ _ => 1
  | chained _ _ _ next => next.chainLength + 1

end Layer

structure Item where
  id : String
  title : String
  description : Option String
  yesHint : Option String
  noHint : Option String
  onYes : Layer
  onNo : Layer
deriving DecidableEq, Repr

namespace Item

def branch (item : Item) : Answer → Layer
  | .yes => item.onYes
  | .no => item.onNo

def hint (item : Item) : Answer → Option String
  | .yes => item.yesHint
  | .no => item.noHint

end Item

/-- The items of a catalog stand in the order in which they are asked. -/
structure Catalog where
  name : String
  version : String
  description : Option String
  items : List Item
deriving DecidableEq, Repr

namespace Catalog

/-- The number of layers in all branches of all items. -/
def layerCount (c : Catalog) : Nat :=
  c.items.foldr (fun i n => i.onYes.chainLength + i.onNo.chainLength + n) 0

end Catalog

end Appraisal
