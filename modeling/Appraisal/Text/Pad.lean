/-!
# Columns of a table

Padding counts characters. A text that is already wide enough stays as it is.
-/

namespace Appraisal.Text

def padLeft (width : Nat) (s : String) : String :=
  String.ofList (List.replicate (width - s.length) ' ') ++ s

def padRight (width : Nat) (s : String) : String :=
  s ++ String.ofList (List.replicate (width - s.length) ' ')

end Appraisal.Text
