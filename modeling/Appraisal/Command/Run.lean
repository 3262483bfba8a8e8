import Appraisal.Command
import Appraisal.Dialogue
import Appraisal.Report.Render
/-!
# Running commands

What each command writes and how it ends, over whatever files there are. The interactive command takes its picks
from a list; with a user in front of it, the same dialogue is played pick by pick.
-/

namespace Appraisal

/-- How a command ends, as the caller of the program sees it. -/
inductive ExitCode where
  /-- Every item passed, or there is nothing to judge. -/
  | ok
  /-- An item failed or has no verdict. -/
  | failed
  /-- Something that the command needs could not be loaded. -/
  | misconfigured
  /-- The script holds an event that was rejected. -/
  | rejected
deriving DecidableEq, Repr

def ExitCode.toNat : ExitCode → Nat
  | ok => 0
  | failed => 1
  | misconfigured => 2
  | rejected => 3

inductive Exit where
  | code (c : ExitCode)
  /-- The command could not do its work. -/
  | fatal (text : String)
deriving DecidableEq, Repr

/-- The status that the program ends with. A command that could not do its work shares that of one that could not load
what it needs. -/
def Exit.toNat : Exit → Nat
  | code c => c.toNat
  | fatal _ => ExitCode.misconfigured.toNat

/-- What a command wrote to the two outputs, the menus it showed, and how it ended. -/
structure Conclusion where
  out : String
  err : String
  shown : List Shown
  exit : Exit
deriving DecidableEq, Repr

namespace Conclusion

def printed (out : String) : Conclusion :=
  ⟨out, "", [], .code .ok⟩

/-- The end of a command that could not load what it needs. -/
def misconfigured (message : String) : Conclusion :=
  ⟨"", "error: " ++ message ++ "\n", [], .code .misconfigured⟩

/-- What was written and shown before a conclusion. -/
def after (err : String) (shown : List Shown) (c : Conclusion) : Conclusion :=
  { c with err := err ++ c.err, shown := shown ++ c.shown }

end Conclusion

/-- The error that a dialogue ends with, unless the user left it. -/
def Ending.fatal? : Ending → Option String
  | .left => none
  | .failed e => some e.message
  | .noMorePicks => some "no more picks"
  | .badPick => some "bad pick"

namespace Command

/-! ## Catalogs -/

def validText (l : LoadedCatalog) : String :=
  let c := l.catalog
  "✅ " ++ c.name ++ " v" ++ c.version ++ s!" is valid: {c.items.length} items, {c.layerCount} layers\n" ++
    "   source: " ++ l.source.text ++ "\n   digest: " ++ l.digest ++ "\n"

def validJson (l : LoadedCatalog) : Json :=
  .obj [
    ("catalog", .str l.catalog.name),
    ("digest", .str l.digest),
    ("items", .nat l.catalog.items.length),
    ("layers", .nat l.catalog.layerCount),
    ("source", .str l.source.text),
    ("valid", .bool true),
    ("version", .str l.catalog.version)]

def invalidJson (reference : String) (e : CatalogError) : Json :=
  .obj [("catalog", .str reference), ("error", .str e.message), ("valid", .bool false)]

def validConclusion (reference : String) (format : ValidateFormat) :
    Except CatalogError LoadedCatalog → Conclusion
  | .ok l =>
    match format with
    | .text => .printed (validText l)
    | .json => .printed ((validJson l).pretty ++ "\n")
  | .error e =>
    match format with
    | .text => .misconfigured e.message
    | .json => ⟨(invalidJson reference e).pretty ++ "\n", "", [], .code .misconfigured⟩

def outlineConclusion : Except CatalogError LoadedCatalog → Conclusion
  | .ok l => .printed (Table.outline l.catalog)
  | .error e => .misconfigured e.message

/-! ## Settings -/

/-- The configuration with the options of the command line put over it. -/
def overlay (o : SessionOptions) (c : Config) : Config :=
  { c with
    catalog := o.catalog.getD c.catalog
    output := ⟨o.format.getD c.output.format, o.output.or c.output.path⟩ }

variable {m : Type → Type} [Monad m] [Files m]

/-- The configuration file that is asked for, or the usual one if it is there. -/
def configFile (o : SessionOptions) : m (Option String) := do
  match o.config with
  | some p => return some p
  | none => return if ← Files.present defaultConfigFile then some defaultConfigFile else none

def settings (o : SessionOptions) : m (Except ConfigError Config) := do
  match ← configFile o with
  | none => return .ok (overlay o .default)
  | some p => return (← Config.load p).map (overlay o)

/-- What a session needs before it starts; in its place, what is wrong. -/
def prepare (o : SessionOptions) : m (Except String (Config × LoadedCatalog)) := do
  match ← settings o with
  | .error e => return .error e.message
  | .ok c =>
    match ← Library.load c.catalog with
    | .error e => return .error e.message
    | .ok l => return .ok (c, l)

/-! ## Reports -/

/-- Whether a finished questionnaire passed. -/
def verdictCode (r : Report) : ExitCode :=
  if r.complete && r.summary.allPassed then .ok else .failed

/-- Writes a report to where it should go and ends with `code`. -/
def deliver (r : Report) (output : Output) (code : ExitCode) : m Conclusion := do
  match output.path with
  | none => return ⟨r.render output.format, "", [], .code code⟩
  | some p =>
    match ← Files.write p (r.render output.format) with
    | .ok _ => return ⟨"", "Report written to " ++ p ++ "\n", [], .code code⟩
    | .error e => return ⟨"", "", [], .fatal ("failed to write report to " ++ p ++ ": " ++ e.message)⟩

/-- The report on a session, made at `now`. -/
def conclude (now : String) (c : Config) (l : LoadedCatalog) (q : Questionnaire) : m Conclusion :=
  let r := Report.of l q now
  deliver r c.output (verdictCode r)

/-! ## Sessions -/

def concludeReplay (now : String) (c : Config) (l : LoadedCatalog) (replay : Replay) : m Conclusion := do
  let r := Report.of l replay.questionnaire now
  match replay.result with
  | .ok _ => deliver r c.output (verdictCode r)
  | .error e => return (← deliver r c.output .rejected).after ("error: " ++ e.message ++ "\n") []

def replayScript (now script : String) (o : SessionOptions) : m Conclusion := do
  match ← prepare o with
  | .error e => return .misconfigured e
  | .ok (c, l) =>
    match ← Script.load script with
    | .error e => return .misconfigured e.message
    | .ok s => concludeReplay now c l ((Questionnaire.new l.catalog).replay s.events)

def greeting (l : LoadedCatalog) : String :=
  l.catalog.name ++ " v" ++ l.catalog.version ++ s!": {l.catalog.items.length} items"

def linesText (lines : List String) : String :=
  String.join (lines.map (· ++ "\n"))

/-- The end of a play whose lines have been told. -/
def endPlay (now : String) (c : Config) (l : LoadedCatalog) (p : Play) : m Conclusion :=
  match p.ending.fatal? with
  | none => conclude now c l p.dialogue.questionnaire
  | some text => pure ⟨"", "", [], .fatal text⟩

def concludePlay (now : String) (c : Config) (l : LoadedCatalog) (p : Play) : m Conclusion := do
  return (← endPlay now c l p).after (linesText (greeting l :: p.told)) p.shown

def playSession (now : String) (picks : List Pick) (o : SessionOptions) : m Conclusion := do
  match ← prepare o with
  | .error e => return .misconfigured e
  | .ok (c, l) => concludePlay now c l ((Dialogue.start (.new l.catalog)).play picks)

/-- Writes a configuration to start from; one that is there is kept unless it may be overwritten. -/
def initConfig (path : String) (force : Bool) : m Conclusion := do
  if (← Files.present path) && !force then
    return ⟨"", path ++ " already exists (use --force to overwrite)\n", [], .code .misconfigured⟩
  match ← Config.writeSample path with
  | .error e => return ⟨"", "", [], .fatal e.message⟩
  | .ok _ => return ⟨"", "Created " ++ path ++ "\n", [], .code .ok⟩

/-! ## Commands -/

/-- Runs a command at the time `now`, with the picks for the menus it may show. -/
def perform (now : String) (picks : List Pick) : Command → m Conclusion
  | .validate catalog format => do return validConclusion catalog format (← Library.load catalog)
  | .outline catalog => do return outlineConclusion (← Library.load catalog)
  | .replay script o => replayScript now script o
  | .run o => playSession now picks o
  | .init path force => initConfig path force
  | .version => return .printed (versionText ++ "\n")

end Command

end Appraisal
