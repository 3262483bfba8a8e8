import Appraisal.Event
import Appraisal.Files
import Appraisal.Yaml.Document
/-!
# Answer scripts

A script is a list of recorded events. Its data tree has one map of one entry for each event, the entry named
for the kind of event; `advance`, which has nothing to tell, is only that word.
-/

namespace Appraisal

structure Script where
  version : Nat
  events : List Event
deriving DecidableEq, Repr

namespace Event

/-! ## Reading -/

/-- Items, questions, layers and targets are counted with 64 bits. -/
def readIndex : Reading Nat :=
  Node.readNat (Nat.pow 2 64)

def readAnswer : Reading Answer := fun n =>
  match n.bareVariant?.bind Answer.ofWord? with
  | some a => .ok a
  | none => .error (.expected "yes or no")

def readMain : Reading Event := fun n => do
  let fields ← n.readFields ["item", "answer"]
  return main (← fields.required "item" readIndex) (← fields.required "answer" readAnswer)

/-- A sub-question without a depth belongs to the first layer. -/
def readSub : Reading Event := fun n => do
  let fields ← n.readFields ["item", "depth", "index", "answer"]
  return sub (← fields.required "item" readIndex) (← fields.withDefault "depth" 0 readIndex)
    (← fields.required "index" readIndex) (← fields.required "answer" readAnswer)

def readToggle : Reading Event := fun n => do
  let fields ← n.readFields ["item", "index", "included"]
  return toggle (← fields.required "item" readIndex) (← fields.required "index" readIndex)
    (← fields.required "included" Node.readBool)

def readNavigate : Reading Event := fun n => do
  let fields ← n.readFields ["target"]
  return navigate (← fields.required "target" readIndex)

/-- The event of a given kind, from what comes with it. -/
def readKind (kind : String) (payload : Option Node) : Except Misread Event :=
  match kind, payload with
  | "main", some n => readMain n
  | "sub", some n => readSub n
  | "toggle", some n => readToggle n
  | "navigate", some n => readNavigate n
  | "advance", none => .ok advance
  | "advance", some .null => .ok advance
  | _, _ => .error (.expected "an event")

def read : Reading Event := fun n =>
  match n.variant? with
  | some (kind, payload) => readKind kind payload
  | none => .error (.expected "an event")

/-! ## Writing -/

def toJson : Event → Json
  | main i a => .obj [("main", .obj [("item", .nat i), ("answer", .str a.word)])]
  | sub i d k a =>
    .obj [("sub", .obj [("item", .nat i), ("depth", .nat d), ("index", .nat k), ("answer", .str a.word)])]
  | toggle i k b => .obj [("toggle", .obj [("item", .nat i), ("index", .nat k), ("included", .bool b)])]
  | navigate t => .obj [("navigate", .obj [("target", .nat t)])]
  | advance => .str "advance"

end Event

namespace Script

/-- The only version of scripts there is. -/
def supportedVersion : Nat := 1

def read : Reading Script := fun n => do
  let fields ← n.readFields ["version", "events"]
  return {
    version := ← fields.required "version" (Node.readNat (Nat.pow 2 32))
    events := ← fields.withDefault "events" [] (Node.readList Event.read) }

def toJson (s : Script) : Json :=
  .obj [("version", .nat s.version), ("events", .arr (s.events.map Event.toJson))]

end Script

/-! ## Loading -/

/-- Why there is no script to replay. -/
inductive ScriptError where
  | unreadable (path : String) (cause : FileError)
  | malformed (cause : Yaml.Unreadable)
  | unsupportedVersion (found : Nat)
deriving DecidableEq, Repr

def ScriptError.message : ScriptError → String
  | unreadable p e => "failed to read script " ++ p ++ ": " ++ e.message
  | malformed e => "failed to parse script: " ++ e.message
  | unsupportedVersion v =>
    "unsupported script version " ++ toString v ++ " (supported: " ++ toString Script.supportedVersion ++ ")"

namespace Script

def parse (text : String) : Except ScriptError Script :=
  match Yaml.read read text with
  | .error e => .error (.malformed e)
  | .ok s => if s.version = supportedVersion then .ok s else .error (.unsupportedVersion s.version)

def load [Monad m] [Files m] (path : String) : m (Except ScriptError Script) := do
  match ← Files.read path with
  | .error e => return .error (.unreadable path e)
  | .ok text => return parse text

end Script

end Appraisal
