import Appraisal.Yaml.Token
import Appraisal.Yaml.Tree
/-!
# YAML documents

The tree that a list of tokens spells, and `Yaml.parse`, which reads the one document of a text as a data tree.
Plain scalars become plain leaves, and all others texts. An alias stands for a copy of a node.
-/

namespace Appraisal.Yaml

/-- The tag handles that need no directive. -/
def standardHandles : List (String × Option String) :=
  [("!", some "!"), ("!!", some "tag:yaml.org,2002:")]

/-- The tokens ahead, the slots of the anchors so far, each name with its last one, and the tag handles of the
directives. -/
structure Progress where
  tokens : List Token
  anchors : List (String × Nat)
  handles : List (String × Option String)

abbrev Parser := StateT Progress (Except Fault)

namespace Parser

def peek : Parser (Option Token) := do
  return (← get).tokens.head?

def drop : Parser Unit :=
  modify fun p => { p with tokens := p.tokens.tail }

def nextIs (ts : List Token) : Parser Bool := do
  return (← peek).any ts.contains

/-- Takes the next token if it is `t`. -/
def take? (t : Token) : Parser Bool := do
  if ← nextIs [t] then drop; return true else return false

def remaining : Parser Nat := do
  return (← get).tokens.length

/-- A node that is left out. -/
def omitted : Tree :=
  .leaf (.plain "")

/-- A node, unless one of `ts` stands in its place. -/
def unlessNext (ts : List Token) (element : Parser Tree) : Parser Tree := do
  if ← nextIs ts then return omitted else element

/-! ## Properties -/

/-- The slot of an anchor is the number of names before it. So a name that is given again takes another slot,
which the next new name takes as well. -/
def slot (anchor : String) : Parser Nat := do
  let anchors := (← get).anchors
  modify fun p => { p with anchors := (anchor, anchors.length) :: anchors.filter (·.1 ≠ anchor) }
  return anchors.length

def named (anchor : String) : Parser Tree := do
  match (← get).anchors.lookup anchor with
  | some slot => return .reference slot
  | none => throw .unknownAlias

/-- The whole tag. Bytes that are no text make it the empty one, which means nothing. -/
def resolveTag (handle : String) (suffix : Option String) : Parser String := do
  if handle.isEmpty then return suffix.getD ""
  match ((← get).handles ++ standardHandles).lookup handle with
  | some stem => return (do return (← stem) ++ (← suffix) : Option String).getD ""
  | none => throw .unknownTagHandle

def anchor? : Parser (Option String) := do
  match ← peek with
  | some (.anchor n) => drop; return some n
  | _ => return none

def tag? : Parser (Option String) := do
  match ← peek with
  | some (.tag handle suffix) => drop; return some (← resolveTag handle suffix)
  | _ => return none

/-- The anchor and the tag before a node, in either order. -/
def properties : Parser (Option String × Option String) := do
  match ← anchor? with
  | some a => return (some a, ← tag?)
  | none =>
    let t ← tag?
    return (← anchor?, t)

/-- Reads a node that has the given properties. -/
def withProperties (anchor tag : Option String) (content : Parser Tree) : Parser Tree := do
  let slot ← anchor.mapM slot
  let t ← content
  let t := (tag.map fun name => Tree.tagged name t).getD t
  return (slot.map fun n => Tree.anchored n t).getD t

/-! ## Collections -/

def blockItems (element : Parser Tree) : Nat → Parser (List Tree)
  | 0 => throw .expectedEntry
  | fuel + 1 => do
    if ← take? .blockEntry then
      let x ← unlessNext [.blockEntry, .blockEnd] element
      return x :: (← blockItems element fuel)
    else if ← take? .blockEnd then return []
    else throw .expectedEntry

/-- The items of a block sequence that stands at the column of its key. -/
def indentlessItems (element : Parser Tree) : Nat → Parser (List Tree)
  | 0 => throw .expectedEntry
  | fuel + 1 => do
    if ← take? .blockEntry then
      let x ← unlessNext [.blockEntry, .key, .value, .blockEnd] element
      return x :: (← indentlessItems element fuel)
    else return []

def blockValue (element : Parser Tree) : Parser Tree := do
  if ← take? .value then unlessNext [.key, .value, .blockEnd] element else return omitted

def blockEntries (element : Parser Tree) : Nat → Parser (List (Tree × Tree))
  | 0 => throw .expectedKey
  | fuel + 1 => do
    if ← take? .key then
      let k ← unlessNext [.key, .value, .blockEnd] element
      let v ← blockValue element
      return (k, v) :: (← blockEntries element fuel)
    else if ← take? .blockEnd then return []
    else throw .expectedKey

/-- The value of an entry inside brackets that `close` closes. -/
def flowValue (close : Token) (element : Parser Tree) : Parser Tree := do
  if ← take? .value then unlessNext [.flowEntry, close] element else return omitted

/-- An entry behind the indicator of a key. -/
def flowPair (close : Token) (element : Parser Tree) : Parser (Tree × Tree) := do
  let k ← unlessNext [.value, .flowEntry, close] element
  return (k, ← flowValue close element)

/-- The comma between two entries. -/
def separator (first : Bool) : Parser Unit := do
  if first then return
  if ← take? .flowEntry then return
  throw .expectedSeparator

/-- A key inside brackets of a sequence makes an item of one entry. -/
def flowItem (element : Parser Tree) : Parser Tree := do
  if ← take? .key then return .map [← flowPair .flowSequenceEnd element] else element

def flowItems (element : Parser Tree) : Nat → Bool → Parser (List Tree)
  | 0, _ => throw .expectedSeparator
  | fuel + 1, first => do
    if ← take? .flowSequenceEnd then return []
    separator first
    if ← take? .flowSequenceEnd then return []
    let x ← flowItem element
    return x :: (← flowItems element fuel false)

/-- An entry inside braces; without the indicator of a key it has no value. -/
def flowMapEntry (element : Parser Tree) : Parser (Tree × Tree) := do
  if ← take? .key then flowPair .flowMappingEnd element else return (← element, omitted)

def flowEntries (element : Parser Tree) : Nat → Bool → Parser (List (Tree × Tree))
  | 0, _ => throw .expectedSeparator
  | fuel + 1, first => do
    if ← take? .flowMappingEnd then return []
    separator first
    if ← take? .flowMappingEnd then return []
    let e ← flowMapEntry element
    return e :: (← flowEntries element fuel false)

/-! ## Nodes -/

/-- Where a node stands: inside brackets, in a block, or after a key in a block. -/
inductive Place where
  | flow
  | block
  | afterKey
deriving DecidableEq

/-- The collection that the next token opens, its elements read by `element`. -/
def collection? (element : Place → Parser Tree) (place : Place) (t : Token) : Option (Parser Tree) :=
  let block := place ≠ .flow
  match t with
  | .blockEntry =>
    if place = .afterKey then
      some do return .list (← indentlessItems (element .block) (← remaining))
    else none
  | .flowSequence => some do drop; return .list (← flowItems (element .flow) (← remaining) true)
  | .flowMapping => some do drop; return .map (← flowEntries (element .flow) (← remaining) true)
  | .blockSequence =>
    if block then some do drop; return .list (← blockItems (element .block) (← remaining)) else none
  | .blockMapping =>
    if block then some do drop; return .map (← blockEntries (element .afterKey) (← remaining)) else none
  | _ => none

/-- The leaf of a scalar. -/
def scalar (style : Style) (text : String) : Node :=
  match style with
  | .plain => .plain text
  | .literal => .literal text
  | .quoted => .text text
  | .folded => .text text

/-- The content of a node. Collections nest at most `depth` deep. -/
def content (depth : Nat) (element : Place → Parser Tree) (place : Place) (hasProperties : Bool) :
    Parser Tree := do
  match ← peek with
  | some (.scalar style s) => drop; return .leaf (scalar style s)
  | some t =>
    match collection? element place t with
    | some c => if depth = 0 then throw .tooDeep else c
    | none => if hasProperties then return omitted else throw .expectedNode
  | none => if hasProperties then return omitted else throw .expectedNode

def nodeWith (depth : Nat) (element : Place → Parser Tree) (place : Place) : Parser Tree := do
  match ← peek with
  | some (.reference n) => drop; named n
  | _ =>
    let (anchor, tag) ← properties
    withProperties anchor tag (content depth element place (anchor.isSome || tag.isSome))

def node : Nat → Place → Parser Tree
  | 0 => nodeWith 0 fun _ => throw .tooDeep
  | depth + 1 => nodeWith (depth + 1) (node depth)

/-! ## Documents -/

/-- Takes the directives before a document and says whether there were any. There is at most one version, and
each handle is defined once. -/
def directives : Nat → Bool → Parser Bool
  | 0, _ => return false
  | fuel + 1, versioned => do
    match ← peek with
    | some (.versionDirective major minor) =>
      if versioned || major ≠ 1 || !(minor = 1 || minor = 2) then throw .invalidDirective
      drop
      discard (directives fuel true)
      return true
    | some (.tagDirective handle stem) =>
      if (← get).handles.any (·.1 = handle) then throw .invalidDirective
      drop
      modify fun p => { p with handles := (handle, stem) :: p.handles }
      discard (directives fuel versioned)
      return true
    | _ => return false

def skipEnds : Nat → Parser Unit
  | 0 => return
  | fuel + 1 => do
    if ← take? .documentEnd then skipEnds fuel

/-- The only document. -/
def document : Parser Tree := do
  if (← peek).isNone then throw .noDocument
  let explicit ← directives (← remaining) false
  let marked ← take? .documentStart
  if explicit && !marked then throw .expectedNode
  let empty := (← peek).isNone || (← nextIs [.documentStart, .documentEnd])
  let n ← if marked && empty then pure omitted else node Tree.maxDepth .block
  skipEnds (← remaining)
  if (← peek).isSome then throw .severalDocuments
  return n

end Parser

def parse (text : String) : Except Fault Node := do
  let tokens ← Token.scan text
  (← Parser.document.run' ⟨tokens, [], []⟩).toNode

/-- Why a text does not give a value. -/
inductive Unreadable where
  | fault (f : Fault)
  | misread (m : Misread)
deriving DecidableEq, Repr

def Unreadable.message : Unreadable → String
  | fault f => f.message
  | misread m => m.message

/-- Reads a value from the one document of a text. -/
def read (reading : Reading α) (text : String) : Except Unreadable α :=
  match parse text with
  | .error f => .error (.fault f)
  | .ok n => (reading n).mapError .misread

end Appraisal.Yaml
