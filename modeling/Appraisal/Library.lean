import Appraisal.Definition.Canonical
import Appraisal.Definition.Reading
import Appraisal.Files
import Appraisal.Library.HomeSafety
import Appraisal.Notice
import Appraisal.Yaml.Document
/-!
# Finding a catalog

A catalog is asked for by reference: the path of a file, or the name of a built-in catalog. `builtin:` in front
of a name says that no file is meant.
-/

namespace Appraisal

/-- Where a catalog comes from. -/
inductive CatalogSource where
  | builtin (name : String)
  | file (path : String)
  | inline
deriving DecidableEq, Repr

def CatalogSource.text : CatalogSource → String
  | builtin n => "builtin:" ++ n
  | file p => "file:" ++ p
  | inline => "inline"

/-- A checked catalog and what is known about it. -/
structure LoadedCatalog where
  catalog : Catalog
  digest : String
  source : CatalogSource
deriving DecidableEq, Repr

def LoadedCatalog.notice (l : LoadedCatalog) : Notice :=
  .catalogLoaded l.catalog.name l.catalog.items.length l.source.text l.digest

/-- Why there is no catalog. -/
inductive CatalogError where
  | notFound (name : String)
  | unreadable (path : String) (cause : FileError)
  | malformed (cause : Yaml.Unreadable)
  | definition (cause : DefinitionError)
deriving DecidableEq, Repr

namespace Library

def builtins : List (String × CatalogDefinition) :=
  [("home-safety", homeSafety)]

/-- What to try in place of an unknown name: a built-in name that is half alike, or any of them. -/
def suggestion (name : String) : String :=
  let known := builtins.map (·.1)
  match Text.closest 50 name known with
  | some n => "Did you mean '" ++ n ++ "'?"
  | none => "Available built-in catalogs: " ++ ", ".intercalate known

end Library

def CatalogError.message : CatalogError → String
  | notFound n => "Catalog '" ++ n ++ "' not found. " ++ Library.suggestion n
  | unreadable p e => "Failed to read catalog file '" ++ p ++ "': " ++ e.message
  | malformed e => "Failed to parse catalog YAML: " ++ e.message
  | definition e => "Catalog definition error: " ++ e.message

namespace LoadedCatalog

def ofDefinition (source : CatalogSource) (d : CatalogDefinition) : Except CatalogError LoadedCatalog :=
  match d.compile with
  | .error e => .error (.definition e)
  | .ok c => .ok ⟨c, d.digest, source⟩

def ofText (source : CatalogSource) (text : String) : Except CatalogError LoadedCatalog :=
  match Yaml.read CatalogDefinition.read text with
  | .error e => .error (.malformed e)
  | .ok d => ofDefinition source d

end LoadedCatalog

namespace Library

def loadBuiltin (name : String) : Except CatalogError LoadedCatalog :=
  match builtins.lookup name with
  | some d => LoadedCatalog.ofDefinition (.builtin name) d
  | none => .error (.notFound name)

def loadFile [Monad m] [Files m] (path : String) : m (Except CatalogError LoadedCatalog) := do
  match ← Files.read path with
  | .error e => return .error (.unreadable path e)
  | .ok text => return LoadedCatalog.ofText (.file path) text

/-- The name behind `builtin:`. -/
def builtinName? (reference : String) : Option String :=
  let mark := "builtin:".toList
  if mark.isPrefixOf reference.toList then some (String.ofList (reference.toList.drop mark.length)) else none

/-- A file that is there comes before a built-in catalog of that name. -/
def load [Monad m] [Files m] (reference : String) : m (Except CatalogError LoadedCatalog) := do
  match builtinName? reference with
  | some name => return loadBuiltin name
  | none => if ← Files.present reference then loadFile reference else return loadBuiltin reference

end Library

end Appraisal
