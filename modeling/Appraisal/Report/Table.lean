import Appraisal.Report
import Appraisal.Text.Pad
/-!
# Reports as tables

A line for each row under the catalog's name, and the summary. `outline` shows a catalog itself: the layers of
every branch, each chain indented below the layer that it falls back from.
-/

namespace Appraisal.Table

def mark : Standing → String
  | .decided .pass => "✅"
  | .decided .fail => "❌"
  | .pending | .ambiguous => "⏳"

/-- What stands where there is nothing to show. -/
def blank : String := "—"

def orBlank (s : String) : String :=
  if s.isEmpty then blank else s

def rowLine (r : Row) : String :=
  mark r.standing ++ " " ++ Text.padLeft 2 (toString (r.index + 1)) ++ ". " ++ Text.padRight 20 r.id ++ " " ++
    Text.padRight 4 ((r.main.map Answer.word).getD blank) ++ " " ++
    Text.padRight 24 (orBlank (trailText r.trail)) ++ " " ++ r.standing.word.toUpper ++ "\n"

def summaryLine (s : Summary) : String :=
  s!"Summary: {s.passed} passed, {s.failed} failed, {s.pending} pending (total {s.total})"

def render (r : Report) : String :=
  "Catalog: " ++ r.catalog ++ " v" ++ r.catalogVersion ++ " (" ++ r.catalogDigest ++ ")\n\n" ++
    String.join (r.rows.map rowLine) ++ "\n" ++ summaryLine r.summary ++ "\n"

/-! ## Outlines -/

def indentation (level : Nat) : String :=
  String.ofList (List.replicate (2 * level) ' ')

def questionLines (level : Nat) (questions : List SubQuestion) : String :=
  String.join (questions.zipIdx.map fun (q, i) =>
    indentation (level + 1) ++ toString (i + 1) ++ ". (" ++ q.favours.word ++ ") " ++ q.title ++ "\n")

/-- A layer, from the middle of the line that names it. -/
def layerLines (level : Nat) : Layer → String
  | .last qs c => c.tag ++ "\n" ++ questionLines level qs
  | .chained qs c fallback next =>
    c.tag ++ "\n" ++ questionLines level qs ++ indentation (level + 1) ++ "else if " ++ fallback.tag ++ " -> " ++
      layerLines (level + 1) next

def branchLines (item : Item) (a : Answer) : String :=
  "      on_" ++ a.word ++ ": " ++ layerLines 3 (item.branch a)

def itemLines (index : Nat) (item : Item) : String :=
  Text.padLeft 2 (toString (index + 1)) ++ ". [" ++ item.id ++ "] " ++ item.title ++ "\n" ++
    branchLines item .yes ++ branchLines item .no

def outline (c : Catalog) : String :=
  c.name ++ " v" ++ c.version ++ "\n" ++ String.join (c.items.zipIdx.map fun (item, i) => itemLines i item)

end Appraisal.Table
