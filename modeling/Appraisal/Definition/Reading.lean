import Appraisal.Definition
import Appraisal.Node
/-!
# Reading definitions

A definition from a data tree.
-/

namespace Appraisal

def SubQuestion.read : Reading SubQuestion := fun n => do
  let fields ← n.readRecord ["title", "example"]
  return {
    title := ← fields.required "title" Node.readText
    favours := ← fields.required "example" (Node.readChoice Verdict.ofWord?) }

namespace LayerDefinition

/-- Reads a layer whose next layer is read by `next`. -/
def readWith (next : Reading LayerDefinition) : Reading LayerDefinition := fun n => do
  let fields ← n.readRecord ["questions", "pass_condition", "next_layer_condition", "next_layer"]
  return make
    (← fields.withDefault "questions" [] (Node.readList SubQuestion.read))
    (← fields.required "pass_condition" Node.readText)
    (← fields.withDefault "next_layer_condition" none (Node.readOption Node.readText))
    (← fields.withDefault "next_layer" none (Node.readOption next))

/-- Reads a chain of at most `depth` layers. -/
def readChain : Nat → Reading LayerDefinition
  | 0 => fun _ => .error (.expected "a shorter chain")
  | depth + 1 => readWith (readChain depth)

/-- Each layer encloses the next, so a chain is no longer than its tree is high. -/
def read : Reading LayerDefinition := fun n =>
  readChain (n.height + 1) n

end LayerDefinition

def ItemDefinition.read : Reading ItemDefinition := fun n => do
  let fields ← n.readRecord ["id", "title", "description", "yes_hint", "no_hint", "on_yes", "on_no"]
  let optional := fun name => fields.withDefault name none (Node.readOption Node.readText)
  return {
    id := ← fields.required "id" Node.readText
    title := ← fields.required "title" Node.readText
    description := ← optional "description"
    yesHint := ← optional "yes_hint"
    noHint := ← optional "no_hint"
    onYes := ← fields.required "on_yes" LayerDefinition.read
    onNo := ← fields.required "on_no" LayerDefinition.read }

def CatalogDefinition.read : Reading CatalogDefinition := fun n => do
  let fields ← n.readRecord ["name", "version", "description", "items"]
  return {
    name := ← fields.required "name" Node.readText
    version := ← fields.required "version" Node.readText
    description := ← fields.withDefault "description" none (Node.readOption Node.readText)
    items := ← fields.required "items" (Node.readList ItemDefinition.read) }

end Appraisal
