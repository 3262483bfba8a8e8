import Appraisal.Command.Options
import Appraisal.Config
/-!
# Commands

What the program can be told to do, and how arguments tell it. The catalog may also come from the environment,
where an option on the command line comes first.
-/

namespace Appraisal

inductive ValidateFormat where
  | text
  | json
deriving DecidableEq, Repr

namespace ValidateFormat

def word : ValidateFormat → String
  | text => "text"
  | json => "json"

def ofWord? : String → Option ValidateFormat
  | "text" => some text
  | "json" => some json
  | _ => none

end ValidateFormat

/-- What the command line says in place of a configuration. -/
structure SessionOptions where
  config : Option String
  catalog : Option String
  format : Option ReportFormat
  output : Option String
deriving DecidableEq, Repr

inductive Command where
  | validate (catalog : String) (format : ValidateFormat)
  | outline (catalog : String)
  | replay (script : String) (options : SessionOptions)
  | run (options : SessionOptions)
  | init (config : String) (force : Bool)
  | version
deriving DecidableEq, Repr

/-- The commands, without what goes with them. -/
inductive CommandName where
  | validate
  | outline
  | replay
  | run
  | init
  | version
  | help
deriving DecidableEq, Repr

namespace CommandName

def ofWord? : String → Option CommandName
  | "validate" => some validate
  | "show" => some outline
  | "replay" => some replay
  | "run" => some run
  | "init" => some init
  | "version" => some version
  | "help" => some help
  | _ => none

def sessionSpecs : List OptionSpec :=
  [⟨"config", some .path⟩, ⟨"catalog", some .text⟩, ⟨"format", some (.word ["text", "json", "csv"])⟩,
    ⟨"output", some .path⟩]

def specs : CommandName → List OptionSpec
  | validate => [⟨"catalog", some .text⟩, ⟨"format", some (.word ["text", "json"])⟩]
  | outline => [⟨"catalog", some .text⟩]
  | replay => ⟨"script", some .path⟩ :: sessionSpecs
  | run => sessionSpecs
  | init => [⟨"config", some .path⟩, ⟨"force", none⟩]
  | version | help => []

end CommandName

namespace Command

def defaultConfigFile : String := "gauge.yaml"

def catalogOption (found : Options) (environment : Option String) : Option String :=
  (found.lookup "catalog").or environment

def sessionOptions (found : Options) (environment : Option String) : SessionOptions where
  config := found.lookup "config"
  catalog := catalogOption found environment
  format := (found.lookup "format").bind ReportFormat.ofWord?
  output := found.lookup "output"

/-- The command of a given name with the options found. -/
def ofOptions (found : Options) (environment : Option String) : CommandName → Except Refusal Command
  | .validate =>
    .ok (validate ((catalogOption found environment).getD Config.defaultCatalog)
      (((found.lookup "format").bind ValidateFormat.ofWord?).getD .text))
  | .outline => .ok (outline ((catalogOption found environment).getD Config.defaultCatalog))
  | .replay =>
    match found.lookup "script" with
    | some script => .ok (replay script (sessionOptions found environment))
    | none => .error .missingArgument
  | .run => .ok (run (sessionOptions found environment))
  | .init => .ok (init ((found.lookup "config").getD defaultConfigFile) (found.lookup "force").isSome)
  | .version => .ok version
  | .help => .error .help

/-- What the words behind `help` ask for: nothing, or help on one command. -/
def helpOn : List String → Refusal
  | [] => .help
  | [word] => if (CommandName.ofWord? word).isSome then .help else .unknownCommand
  | _ => .unknownCommand

/-- The answer to arguments that start with something else than a command. -/
def refusalOf (arg : String) (rest : List String) : Refusal :=
  match Argument.of arg with
  | .terminator =>
    match rest with
    | [] => .helpInPlaceOfCommand
    | word :: _ => if (CommandName.ofWord? word).isSome then .unknownArgument else .unknownCommand
  | .long "help" none | .short 'h' => .help
  | .long "version" none | .short 'V' => .version
  | .long "help" (some _) | .long "version" (some _) => .needlessValue
  | .long _ _ | .short _ => .unknownArgument
  | .word _ => .unknownCommand

def parse (environment : Option String) : List String → Except Refusal Command
  | [] => .error .helpInPlaceOfCommand
  | arg :: rest =>
    match CommandName.ofWord? arg with
    | none => .error (refusalOf arg rest)
    | some .help => .error (helpOn rest)
    | some name => do ofOptions (← Options.read name.specs rest) environment name

def versionText : String := "0.4.0"

def usage : String :=
  "Branching yes/no questionnaires with deterministic pass/fail verdicts\n\n" ++
    "Usage: gauge <COMMAND> [OPTIONS]\n\nCommands:\n" ++
    "  validate  Load and validate a catalog [--catalog REF] [--format text|json]\n" ++
    "  show      Print a catalog's item, branch and layer tree [--catalog REF]\n" ++
    "  replay    Replay a recorded answer script and report the verdicts --script FILE\n" ++
    "  run       Answer a catalog interactively\n" ++
    "  init      Write a starter gauge.yaml [--config FILE] [--force]\n" ++
    "  version   Print the version\n\n" ++
    "Options of replay and run:\n" ++
    "  [--config FILE] [--catalog REF] [--format text|json|csv] [--output FILE]\n"

end Command

namespace Refusal

def message : Refusal → String
  | help | helpInPlaceOfCommand => Command.usage
  | version => "gauge " ++ Command.versionText ++ "\n"
  | unknownCommand => "error: unrecognized subcommand\n"
  | unknownArgument => "error: unexpected argument\n"
  | missingArgument => "error: a required option is missing\n"
  | invalidValue => "error: invalid value for an option\n"
  | repeatedOption => "error: an option is given more than once\n"
  | needlessValue => "error: unexpected value for an option\n"

/-- Whether the arguments ask for information and hold no mistake. -/
def isWish : Refusal → Bool
  | help | version => true
  | _ => false

end Refusal

end Appraisal
