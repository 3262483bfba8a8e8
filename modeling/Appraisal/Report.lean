import Appraisal.Json
import Appraisal.Library
import Appraisal.Questionnaire
/-!
# Reports

What is known about a questionnaire at one moment, and its JSON form.
-/

namespace Appraisal

inductive ReportFormat where
  | text
  | json
  | csv
deriving DecidableEq, Repr, Inhabited

namespace ReportFormat

def word : ReportFormat → String
  | text => "text"
  | json => "json"
  | csv => "csv"

def ofWord? : String → Option ReportFormat
  | "text" => some text
  | "json" => some json
  | "csv" => some csv
  | _ => none

theorem ofWord?_word (f : ReportFormat) : ofWord? f.word = some f := by
  cases f <;> rfl

end ReportFormat

structure Report where
  catalog : String
  catalogVersion : String
  catalogDigest : String
  /-- The time of the report, in UTC, as RFC 3339 writes it. -/
  generatedAt : String
  complete : Bool
  rows : List Row
  summary : Summary
deriving DecidableEq, Repr

/-- The report on a questionnaire over the catalog `l`. -/
def Report.of (l : LoadedCatalog) (q : Questionnaire) (generatedAt : String) : Report :=
  ⟨l.catalog.name, l.catalog.version, l.digest, generatedAt, q.isComplete, q.results, Summary.of q.results⟩

/-- The answers of a layer with commas between them. -/
def layerText (answers : List Answer) : String :=
  ",".intercalate (answers.map Answer.word)

/-- One group of answers for each layer visited. -/
def trailText (trail : List (List Answer)) : String :=
  " | ".intercalate (trail.map layerText)

/-! ## JSON -/

def Answer.toJson (a : Answer) : Json :=
  .str a.word

def trailJson (trail : List (List Answer)) : Json :=
  .arr (trail.map fun layer => .arr (layer.map Answer.toJson))

def Row.toJson (r : Row) : Json :=
  .obj [
    ("index", .nat r.index),
    ("id", .str r.id),
    ("title", .str r.title),
    ("verdict", .str r.standing.word),
    ("main_answer", .ofOption Answer.toJson r.main),
    ("trail", trailJson r.trail)]

def Summary.toJson (s : Summary) : Json :=
  .obj [("total", .nat s.total), ("passed", .nat s.passed), ("failed", .nat s.failed), ("pending", .nat s.pending)]

def Report.toJson (r : Report) : Json :=
  .obj [
    ("catalog", .str r.catalog),
    ("catalog_version", .str r.catalogVersion),
    ("catalog_digest", .str r.catalogDigest),
    ("generated_at", .str r.generatedAt),
    ("complete", .bool r.complete),
    ("results", .arr (r.rows.map Row.toJson)),
    ("summary", r.summary.toJson)]

end Appraisal
