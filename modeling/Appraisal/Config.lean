import Appraisal.Files.Path
import Appraisal.Library
import Appraisal.Report
/-!
# Configuration files

A configuration names a catalog and says where the report goes. Its relative paths start from the directory of
the configuration file.
-/

namespace Appraisal

structure Output where
  format : ReportFormat
  path : Option String
deriving DecidableEq, Repr

structure Config where
  version : Nat
  catalog : String
  output : Output
deriving DecidableEq, Repr

inductive ConfigError where
  | unreadable (path : String) (cause : FileError)
  | malformed (cause : Yaml.Unreadable)
  | unsupportedVersion (found : Nat)
  | noCatalog
  | unwritable (cause : FileError)
deriving DecidableEq, Repr

namespace Config

/-- The only version of configurations there is. -/
def supportedVersion : Nat := 1

def defaultCatalog : String :=
  (CatalogSource.builtin "home-safety").text

def default : Config :=
  ⟨supportedVersion, defaultCatalog, ⟨.text, none⟩⟩

end Config

def ConfigError.message (e : ConfigError) : String :=
  "config error: " ++
    match e with
    | unreadable p e => "failed to read config " ++ p ++ ": " ++ e.message
    | malformed e => "failed to parse YAML: " ++ e.message
    | unsupportedVersion v =>
      "unsupported config version " ++ toString v ++ " (supported: " ++ toString Config.supportedVersion ++ ")"
    | noCatalog => "config names no catalog"
    | unwritable e => "failed to write sample config: " ++ e.message

def Output.read : Reading Output := fun n => do
  let fields ← n.readFields ["format", "path"]
  return {
    format := ← fields.withDefault "format" .text (Node.readChoice ReportFormat.ofWord?)
    path := ← fields.withDefault "path" none (Node.readOption Node.readText) }

namespace Config

def read : Reading Config := fun n => do
  let fields ← n.readFields ["version", "catalog", "output"]
  return {
    version := ← fields.required "version" (Node.readNat (Nat.pow 2 32))
    catalog := ← fields.withDefault "catalog" defaultCatalog Node.readText
    output := ← fields.withDefault "output" ⟨.text, none⟩ Output.read }

def parse (text : String) : Except ConfigError Config :=
  match Yaml.read read text with
  | .error e => .error (.malformed e)
  | .ok c =>
    if c.version ≠ supportedVersion then .error (.unsupportedVersion c.version)
    else if Text.isBlank c.catalog then .error .noCatalog
    else .ok c

/-- The catalog as seen from `base`, if a file is there; a built-in catalog stands nowhere. -/
def catalogFrom [Monad m] [Files m] (base catalog : String) : m String := do
  if (Library.builtinName? catalog).isSome || Path.isAbsolute catalog then return catalog
  let candidate := Path.join base catalog
  return if ← Files.present candidate then candidate else catalog

def outputFrom (base : String) (o : Output) : Output :=
  { o with path := o.path.map (Path.join base) }

def load [Monad m] [Files m] (path : String) : m (Except ConfigError Config) := do
  match ← Files.read path with
  | .error e => return .error (.unreadable path e)
  | .ok text =>
    match parse text with
    | .error e => return .error e
    | .ok c =>
      let base := Path.directory path
      let catalog ← catalogFrom base c.catalog
      return .ok { c with catalog := catalog, output := outputFrom base c.output }

/-- A configuration to start from. -/
def sample : String :=
  "version: 1\ncatalog: builtin:home-safety\noutput:\n  format: text\n"

def writeSample [Monad m] [Files m] (path : String) : m (Except ConfigError Unit) := do
  return (← Files.write path sample).mapError .unwritable

end Config

end Appraisal
