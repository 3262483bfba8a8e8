import Appraisal.Node
import Appraisal.Yaml.Cursor
/-!
# YAML trees

A data tree as a text spells it: anchors put nodes into numbered slots, and an alias (`Tree.reference`) stands
for the node in a slot. `Tree.toNode` follows the aliases. A slot may be taken several times and the last node
keeps it, also for the aliases before it, so following them need not end: collections nest at most `maxDepth`
deep, and the number of aliases that are followed is bounded by the size of the text.
-/

namespace Appraisal.Yaml

inductive Tree where
  | leaf (node : Node)
  | reference (slot : Nat)
  | list (items : List Tree)
  | map (entries : List (Tree × Tree))
  | tagged (tag : String) (tree : Tree)
  | anchored (slot : Nat) (tree : Tree)

namespace Tree

/-! ## Size and slots -/

mutual

/-- The number of leaves, aliases and ends of collections. -/
def size : Tree → Nat
  | leaf _ => 1
  | reference _ => 1
  | list xs => sizeOfItems xs + 2
  | map es => sizeOfEntries es + 2
  | tagged _ t => t.size
  | anchored _ t => t.size

def sizeOfItems : List Tree → Nat
  | [] => 0
  | x :: xs => x.size + sizeOfItems xs

def sizeOfEntries : List (Tree × Tree) → Nat
  | [] => 0
  | (k, v) :: es => k.size + v.size + sizeOfEntries es

end

mutual

/-- The nodes with an anchor and their slots, in the order of the text. -/
def holders : Tree → List (Nat × Tree)
  | leaf _ => []
  | reference _ => []
  | list xs => holdersOfItems xs
  | map es => holdersOfEntries es
  | tagged _ t => t.holders
  | anchored slot t => (slot, t) :: t.holders

def holdersOfItems : List Tree → List (Nat × Tree)
  | [] => []
  | x :: xs => x.holders ++ holdersOfItems xs

def holdersOfEntries : List (Tree × Tree) → List (Nat × Tree)
  | [] => []
  | (k, v) :: es => k.holders ++ (v.holders ++ holdersOfEntries es)

end

/-! ## Following aliases -/

/-- The state is the number of aliases that may still be followed. -/
abbrev Expansion := StateT Nat (Except Fault)

/-- The node that a tree stands for, from the nodes in the slots. -/
def follow (slots : List (Nat × Tree)) : Tree → Expansion Tree
  | reference slot => do
    let left ← get
    if left = 0 then throw .tooManyAliases
    set (left - 1)
    match slots.lookup slot with
    | some t => return t
    | none => throw .unknownAlias
  | t => return t

/-- Expands a tree that is no alias, the elements of a collection by `element`. -/
def expandWith (depth : Nat) (element : Tree → Expansion Node) : Tree → Expansion Node
  | leaf n => return n
  | reference _ => throw .unknownAlias
  | list xs => do
    if depth = 0 then throw .tooDeep
    return .list (← xs.mapM element)
  | map es => do
    if depth = 0 then throw .tooDeep
    return .map (← es.mapM fun e => do return (← element e.1, ← element e.2))
  | tagged tag t => do return .tagged tag (← expandWith depth element t)
  | anchored _ t => expandWith depth element t

/-- Expands a tree in which collections nest at most `depth` deep, those behind aliases included. -/
def expand (slots : List (Nat × Tree)) : Nat → Tree → Expansion Node
  | 0, t => do expandWith 0 (fun _ => throw .tooDeep) (← follow slots t)
  | depth + 1, t => do expandWith (depth + 1) (expand slots depth) (← follow slots t)

/-- Collections may nest 128 deep. -/
def maxDepth : Nat := 128

/-- How often an alias may be followed, for each part of the text. -/
def aliasesPerPart : Nat := 100

/-- The data tree that a tree stands for. -/
def toNode (t : Tree) : Except Fault Node :=
  (expand t.holders.reverse maxDepth t).run' (aliasesPerPart * t.size)

end Tree

end Appraisal.Yaml
