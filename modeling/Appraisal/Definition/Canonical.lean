import Appraisal.Definition
import Appraisal.Digest.Sha256
import Appraisal.Json
/-!
# The canonical form of a definition

A definition as a JSON value that names every member, in alphabetical order. Its compact text identifies the
definition however it was written down, and the digest is the hash of that text.
-/

namespace Appraisal

def SubQuestion.canonical (q : SubQuestion) : Json :=
  .obj [("example", .str q.favours.word), ("title", .str q.title)]

namespace LayerDefinition

/-- The members of a layer whose next layer is written as `next`. -/
def canonicalWith (next : Json) (questions : List SubQuestion) (conditionTag : String)
    (chainTag : Option String) : Json :=
  .obj [
    ("next_layer", next),
    ("next_layer_condition", .ofStr? chainTag),
    ("pass_condition", .str conditionTag),
    ("questions", .arr (questions.map SubQuestion.canonical))]

def canonical : LayerDefinition → Json
  | last qs c tag => canonicalWith .null qs c tag
  | followed qs c tag next => canonicalWith next.canonical qs c tag

end LayerDefinition

def ItemDefinition.canonical (i : ItemDefinition) : Json :=
  .obj [
    ("description", .ofStr? i.description),
    ("id", .str i.id),
    ("no_hint", .ofStr? i.noHint),
    ("on_no", i.onNo.canonical),
    ("on_yes", i.onYes.canonical),
    ("title", .str i.title),
    ("yes_hint", .ofStr? i.yesHint)]

namespace CatalogDefinition

def canonical (d : CatalogDefinition) : Json :=
  .obj [
    ("description", .ofStr? d.description),
    ("items", .arr (d.items.map ItemDefinition.canonical)),
    ("name", .str d.name),
    ("version", .str d.version)]

/-- The text that the digest is taken of. -/
def canonicalText (d : CatalogDefinition) : String :=
  d.canonical.compact

def digest (d : CatalogDefinition) : String :=
  "sha256:" ++ Sha256.hex d.canonicalText

end CatalogDefinition

end Appraisal
