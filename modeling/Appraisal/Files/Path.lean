/-!
# Paths

Paths are text with slashes between their parts. Joining and cutting keep the parts as they are written: nothing
is resolved.
-/

namespace Appraisal.Path

def isAbsolute (path : String) : Bool :=
  path.toList.head? = some '/'

/-- The texts between slashes; `done` is the part at hand, backwards. -/
def partsFrom (done : List Char) : List Char → List (List Char)
  | [] => [done.reverse]
  | c :: rest => if c = '/' then done.reverse :: partsFrom [] rest else partsFrom (c :: done) rest

/-- The parts of a path, empty ones among them. -/
def parts (path : String) : List String :=
  (partsFrom [] path.toList).map String.ofList

/-- Whether a part stays where it is. -/
def isStill (part : String) : Bool :=
  part.isEmpty || part = "."

/-- Drops the parts at the end that stay where they are, but never the first part. The parts come last first. -/
def trimParts : List String → List String
  | p :: q :: rest => if isStill p then trimParts (q :: rest) else p :: q :: rest
  | ps => ps

/-- The path without its last part; nothing, if there is no other. -/
def directory (path : String) : String :=
  match trimParts (trimParts (parts path).reverse).tail with
  | [""] => "/"
  | ps => "/".intercalate ps.reverse

/-- A path as seen from the directory `base`. -/
def join (base path : String) : String :=
  if isAbsolute path || base.isEmpty then path
  else if base.toList.getLast? = some '/' then base ++ path
  else base ++ "/" ++ path

end Appraisal.Path
