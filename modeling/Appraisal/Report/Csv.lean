import Appraisal.Report
/-!
# Reports as comma-separated values

One record for the names of the fields and one for each row, every record ended by a line feed. A field is put
in quotes if it holds a comma, a quote or a line end; a quote inside is written twice.
-/

namespace Appraisal.Csv

def isSpecial (c : Char) : Bool :=
  c = ',' || c = '"' || c = '\n' || c = '\r'

def quoteChar (c : Char) : List Char :=
  if c = '"' then ['"', '"'] else [c]

def field (s : String) : String :=
  if s.toList.any isSpecial then String.ofList ('"' :: s.toList.flatMap quoteChar ++ ['"']) else s

def header : String :=
  "index,id,title,main_answer,trail,verdict"

def rowFields (r : Row) : List String :=
  [toString r.index, r.id, r.title, (r.main.map Answer.word).getD "", trailText r.trail, r.standing.word]

def record (fields : List String) : String :=
  ",".intercalate (fields.map field) ++ "\n"

def render (rows : List Row) : String :=
  header ++ "\n" ++ String.join (rows.map fun r => record (rowFields r))

end Appraisal.Csv
