/-!
# Options on a command line

Options with two dashes in front of their name, some with a value: `--name=value`, or the value as the next
argument. An option is settled only when the next one starts or the arguments end; an argument that is no part of
an option is refused on the spot, whatever is still unsettled.
-/

namespace Appraisal

/-- Why arguments do not make a command: a mistake, or a wish for information. -/
inductive Refusal where
  | help
  | version
  | helpInPlaceOfCommand
  | unknownCommand
  | unknownArgument
  | missingArgument
  | invalidValue
  | repeatedOption
  | needlessValue
deriving DecidableEq, Repr

/-- What a value may be. -/
inductive ValueKind where
  | text
  | path
  | word (allowed : List String)
deriving DecidableEq, Repr

def ValueKind.accepts (value : String) : ValueKind → Bool
  | text => true
  | path => !value.isEmpty
  | word allowed => allowed.contains value

/-- An option; a switch has no value. -/
structure OptionSpec where
  name : String
  value : Option ValueKind
deriving DecidableEq, Repr

/-- The options found, with their values; that of a switch is empty. -/
abbrev Options := List (String × String)

/-- The option that is not settled yet. -/
inductive Unsettled where
  | nothing
  | waiting (spec : OptionSpec)
  | given (spec : OptionSpec) (value : String)
deriving DecidableEq, Repr

namespace Options

/-- An option may be given once. -/
def add (found : Options) (spec : OptionSpec) (value : String) : Except Refusal Options :=
  if (found.lookup spec.name).isSome then .error .repeatedOption
  else if spec.value.all (·.accepts value) then .ok (found ++ [(spec.name, value)])
  else .error .invalidValue

def settle (found : Options) : Unsettled → Except Refusal Options
  | .nothing => .ok found
  | .waiting _ => .error .invalidValue
  | .given spec value => found.add spec value

end Options

/-- What an argument looks like. -/
inductive Argument where
  | terminator
  | long (name : String) (value : Option String)
  | short (first : Char)
  | word (text : String)
deriving DecidableEq, Repr

/-- A name and, behind an equals sign, a value. -/
def splitValue (cs : List Char) : String × Option String :=
  let name := String.ofList (cs.takeWhile (· ≠ '='))
  match cs.dropWhile (· ≠ '=') with
  | [] => (name, none)
  | _ :: value => (name, some (String.ofList value))

def Argument.of (arg : String) : Argument :=
  match arg.toList with
  | ['-', '-'] => terminator
  | '-' :: '-' :: cs => long (splitValue cs).1 (splitValue cs).2
  | '-' :: c :: _ => short c
  | _ => word arg

namespace Options

/-- Reads the arguments behind options `found` and one that is not settled. -/
def readFrom (specs : List OptionSpec) (found : Options) (unsettled : Unsettled) :
    List String → Except Refusal Options
  | [] => found.settle unsettled
  | arg :: rest =>
    match Argument.of arg with
    | .terminator => if rest.isEmpty then found.settle unsettled else .error .unknownArgument
    | .short first => do
      if first ≠ 'h' then throw .unknownArgument
      let _ ← found.settle unsettled
      throw .help
    | .word text =>
      match unsettled with
      | .waiting spec => readFrom specs found (.given spec text) rest
      | _ => .error .unknownArgument
    | .long name value =>
      if name = "help" then
        if value.isSome then .error .needlessValue
        else do
          let _ ← found.settle unsettled
          throw .help
      else
        match specs.find? (·.name = name), value with
        | none, _ => .error .unknownArgument
        | some ⟨_, none⟩, some _ => .error .needlessValue
        | some ⟨name, none⟩, none => do
          readFrom specs (← (← found.settle unsettled).add ⟨name, none⟩ "") .nothing rest
        | some spec, some v => do
          readFrom specs (← (← found.settle unsettled).add spec v) .nothing rest
        | some spec, none => do
          readFrom specs (← found.settle unsettled) (.waiting spec) rest

def read (specs : List OptionSpec) (args : List String) : Except Refusal Options :=
  readFrom specs [] .nothing args

end Options

end Appraisal
