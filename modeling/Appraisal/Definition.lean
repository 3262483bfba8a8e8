import Appraisal.Catalog
import Appraisal.Text.Blank
/-!
# Catalog definitions

A definition is a catalog as it is written down, with tags as plain text. `CatalogDefinition.compile` checks it
in document order and yields the catalog, or the first thing that is wrong and where.
-/

namespace Appraisal

/-- A branch as it is written down: the condition's tag, and perhaps the tag that leads to the next layer
(`chainTag`) and that layer. Either may be given without the other until the definition is checked. -/
inductive LayerDefinition where
  | last (questions : List SubQuestion) (conditionTag : String) (chainTag : Option String)
  | followed (questions : List SubQuestion) (conditionTag : String) (chainTag : Option String)
      (next : LayerDefinition)
deriving DecidableEq, Repr

namespace LayerDefinition

def questions : LayerDefinition → List SubQuestion
  | last qs _ _ => qs
  | followed qs _ _ _ => qs

def conditionTag : LayerDefinition → String
  | last _ c _ => c
  | followed _ c _ _ => c

def chainTag : LayerDefinition → Option String
  | last _ _ t => t
  | followed _ _ t _ => t

def next? : LayerDefinition → Option LayerDefinition
  | last _ _ _ => none
  | followed _ _ _ next => some next

/-- The layer with the given parts. -/
def make (questions : List SubQuestion) (conditionTag : String) (chainTag : Option String) :
    Option LayerDefinition → LayerDefinition
  | none => last questions conditionTag chainTag
  | some next => followed questions conditionTag chainTag next

end LayerDefinition

structure ItemDefinition where
  id : String
  title : String
  description : Option String
  yesHint : Option String
  noHint : Option String
  onYes : LayerDefinition
  onNo : LayerDefinition
deriving DecidableEq, Repr

structure CatalogDefinition where
  name : String
  version : String
  description : Option String
  items : List ItemDefinition
deriving DecidableEq, Repr

/-! ## What can be wrong -/

/-- A layer of a definition: `depth` steps down the given branch of the item. -/
structure LayerPath where
  item : String
  branch : Answer
  depth : Nat
deriving DecidableEq, Repr

namespace LayerPath

def text (path : LayerPath) : String :=
  "item '" ++ path.item ++ "' on_" ++ path.branch.word ++ " layer " ++ toString path.depth

def next (path : LayerPath) : LayerPath :=
  { path with depth := path.depth + 1 }

end LayerPath

/-- What is wrong with a layer by itself. -/
inductive LayerFault where
  | emptyQuestionTitle (index : Nat)
  | unknownCondition (tag : UnknownTag)
  | chainOnlyCondition (tag : String)
  | terminalNotDirect (condition : Condition)
  | layerWithoutChain
  | unknownChainCondition (tag : UnknownTag)
  | chainWithoutLayer (condition : ChainCondition)
deriving DecidableEq, Repr

namespace LayerFault

def message : LayerFault → String
  | emptyQuestionTitle i => "question " ++ toString i ++ " has an empty title"
  | unknownCondition t => t.message
  | chainOnlyCondition t => "'" ++ t ++ "' is only valid as a next_layer_condition"
  | terminalNotDirect c =>
    "layer has no questions, so pass_condition must be pass-direct or fail-direct (got '" ++ c.tag ++ "')"
  | layerWithoutChain => "next_layer is set without a next_layer_condition"
  | unknownChainCondition t => "unsupported next_layer_condition '" ++ t.tag ++ "': " ++ t.message
  | chainWithoutLayer c => "next_layer_condition '" ++ c.tag ++ "' has no next_layer"

end LayerFault

inductive DefinitionError where
  | invalidCatalogName (name : String)
  | emptyCatalog (catalog : String)
  | emptyItemId (catalog : String)
  | duplicateItemId (catalog id : String)
  | emptyTitle (id : String)
  | layer (path : LayerPath) (fault : LayerFault)
deriving DecidableEq, Repr

namespace DefinitionError

def message : DefinitionError → String
  | invalidCatalogName n =>
    "Invalid catalog name '" ++ n ++ "': must be lowercase alphanumeric with hyphens"
  | emptyCatalog c => "Catalog '" ++ c ++ "' has no items"
  | emptyItemId c => "Catalog '" ++ c ++ "' has an item with an empty id"
  | duplicateItemId c id => "Catalog '" ++ c ++ "' has duplicate item id '" ++ id ++ "'"
  | emptyTitle id => "Item '" ++ id ++ "' has an empty title"
  | layer p f => p.text ++ ": " ++ f.message

end DefinitionError

/-! ## Checking -/

def isNameChar (c : Char) : Bool :=
  ('a' ≤ c && c ≤ 'z') || ('0' ≤ c && c ≤ '9') || c = '-'

/-- Lowercase letters, digits and hyphens, with no hyphen at either end. -/
def isValidCatalogName (name : String) : Bool :=
  let cs := name.toList
  !cs.isEmpty && cs.all isNameChar && cs.head? ≠ some '-' && cs.getLast? ≠ some '-'

def checkTitles (questions : List SubQuestion) : Except LayerFault Unit :=
  match questions.findIdx? (fun q => Text.isBlank q.title) with
  | some i => .error (.emptyQuestionTitle i)
  | none => .ok ()

/-- A layer without questions has nothing to count. -/
def checkCondition (tag : String) (questions : List SubQuestion) : Except LayerFault Condition :=
  match Condition.parse tag with
  | .error e =>
    if tag = ChainCondition.nextLayer.tag then .error (.chainOnlyCondition tag)
    else .error (.unknownCondition e)
  | .ok c =>
    if questions.isEmpty && !c.isDirect then .error (.terminalNotDirect c) else .ok c

def checkFallback (tag : String) : Except LayerFault ChainCondition :=
  (ChainCondition.parse tag).mapError .unknownChainCondition

/-- The checks of a layer that do not concern its chain. -/
def checkLayer (questions : List SubQuestion) (conditionTag : String) : Except LayerFault Condition := do
  checkTitles questions
  checkCondition conditionTag questions

/-- The chain condition of a layer that has a next one. -/
def checkChain : Option String → Except LayerFault ChainCondition
  | none => .error .layerWithoutChain
  | some tag => checkFallback tag

/-- A layer without a next one must not name a chain condition. -/
def checkNoChain : Option String → Except LayerFault Unit
  | none => .ok ()
  | some tag => do
    let c ← checkFallback tag
    .error (.chainWithoutLayer c)

namespace LayerDefinition

def compile (path : LayerPath) : LayerDefinition → Except DefinitionError Layer
  | last qs c tag => do
    let condition ← (checkLayer qs c).mapError (.layer path)
    (checkNoChain tag).mapError (.layer path)
    return .last qs condition
  | followed qs c tag next => do
    let condition ← (checkLayer qs c).mapError (.layer path)
    let fallback ← (checkChain tag).mapError (.layer path)
    return .chained qs condition fallback (← next.compile path.next)

end LayerDefinition

namespace ItemDefinition

def compile (i : ItemDefinition) : Except DefinitionError Item := do
  if Text.isBlank i.title then throw (.emptyTitle i.id)
  let onYes ← i.onYes.compile ⟨i.id, .yes, 0⟩
  let onNo ← i.onNo.compile ⟨i.id, .no, 0⟩
  return ⟨i.id, i.title, i.description, i.yesHint, i.noHint, onYes, onNo⟩

end ItemDefinition

namespace CatalogDefinition

/-- Compiles items in order; `seen` holds the ids of the earlier ones. -/
def compileItems (catalog : String) (seen : List String) :
    List ItemDefinition → Except DefinitionError (List Item)
  | [] => .ok []
  | i :: rest => do
    if Text.isBlank i.id then throw (.emptyItemId catalog)
    if seen.contains i.id then throw (.duplicateItemId catalog i.id)
    let item ← i.compile
    return item :: (← compileItems catalog (i.id :: seen) rest)

def compile (d : CatalogDefinition) : Except DefinitionError Catalog := do
  if !isValidCatalogName d.name then throw (.invalidCatalogName d.name)
  if d.items.isEmpty then throw (.emptyCatalog d.name)
  return ⟨d.name, d.version, d.description, ← compileItems d.name [] d.items⟩

end CatalogDefinition

end Appraisal
