import Appraisal.Json
/-!
# Data trees

The tree that a definition, a script or a configuration is read from. A leaf of JSON has a type of its own. A
plain leaf of YAML has none: it is read as whatever is wanted, so that `1` is a number or a text. A literal leaf
is a text that a tag can make a number or a truth value. Records are read strictly: a field that is unknown or
given twice is an error (`Misread`).
-/

namespace Appraisal

inductive Node where
  /-- Text that may stand for a value of any type. -/
  | plain (text : String)
  /-- Text that may stand for a value of the type that its tag names. -/
  | literal (text : String)
  | text (s : String)
  | null
  | bool (b : Bool)
  | nat (n : Nat)
  /-- Any other number. -/
  | number
  | list (items : List Node)
  /-- A list that may also stand for a record, its fields in order. -/
  | array (items : List Node)
  | map (entries : List (Node × Node))
  | tagged (tag : String) (node : Node)
deriving Repr, Inhabited

/-- Why a node cannot be read as what is wanted. -/
inductive Misread where
  | expected (what : String)
  | missing (field : String)
  | unknown (field : String)
  | repeated (field : String)
deriving DecidableEq, Repr

def Misread.message : Misread → String
  | expected w => "expected " ++ w
  | missing f => "missing field '" ++ f ++ "'"
  | unknown f => "unknown field '" ++ f ++ "'"
  | repeated f => "duplicate field '" ++ f ++ "'"

abbrev Reading (α : Type) := Node → Except Misread α

/-! ## Plain scalars -/

/-- The plain texts that mean nothing; so does the empty one. -/
def nullWords : List String :=
  ["null", "Null", "NULL", "~"]

def isNullText (s : String) : Bool :=
  s.isEmpty || nullWords.contains s

def boolOfText? (s : String) : Option Bool :=
  if ["true", "True", "TRUE"].contains s then some true
  else if ["false", "False", "FALSE"].contains s then some false
  else none

/-- The value of a digit, letters counting from ten. -/
def digitValue? (c : Char) : Option Nat :=
  if '0' ≤ c ∧ c ≤ '9' then some (c.toNat - '0'.toNat)
  else if 'a' ≤ c ∧ c ≤ 'z' then some (c.toNat - 'a'.toNat + 10)
  else if 'A' ≤ c ∧ c ≤ 'Z' then some (c.toNat - 'A'.toNat + 10)
  else none

def digitsValue? (base : Nat) (digits : List Char) : Option Nat :=
  if digits.isEmpty then none
  else digits.foldlM (fun n c => (digitValue? c).bind fun d => if d < base then some (n * base + d) else none) 0

/-- A number without a sign: decimal without leading zeros, or with the mark of another base. -/
def unsignedOfDigits? : List Char → Option Nat
  | '0' :: 'x' :: digits => digitsValue? 16 digits
  | '0' :: 'o' :: digits => digitsValue? 8 digits
  | '0' :: 'b' :: digits => digitsValue? 2 digits
  | ['0'] => some 0
  | '0' :: _ => none
  | digits => digitsValue? 10 digits

/-- A number may have one plus sign. -/
def unsignedOfText? (s : String) : Option Nat :=
  match s.toList with
  | '+' :: rest => unsignedOfDigits? rest
  | cs => unsignedOfDigits? cs

/-! ## Tags -/

namespace Tag

/-- The tag of nothing. -/
def null : String := "tag:yaml.org,2002:null"

def bool : String := "tag:yaml.org,2002:bool"

def int : String := "tag:yaml.org,2002:int"

def float : String := "tag:yaml.org,2002:float"

/-- The tags of leaves that are no words. -/
def ofValues : List String := [null, bool, int, float]

/-- The name in a local tag such as `!name`. A mark without a name is its own name. -/
def localName? (tag : String) : Option String :=
  match tag.toList with
  | ['!'] => some "!"
  | '!' :: name => some (String.ofList name)
  | _ => none

end Tag

/-! ## Reading leaves -/

namespace Node

def readText : Reading String
  | plain s => .ok s
  | literal s => .ok s
  | text s => .ok s
  | tagged _ n => n.readText
  | _ => .error (.expected "a text")

def boolOfText (s : String) : Except Misread Bool :=
  match boolOfText? s with
  | some b => .ok b
  | none => .error (.expected "true or false")

def readBool : Reading Bool
  | bool b => .ok b
  | plain s => boolOfText s
  | tagged tag (literal s) =>
    if tag = Tag.bool then boolOfText s else .error (.expected "true or false")
  | tagged _ n => n.readBool
  | _ => .error (.expected "true or false")

def boundedNat (bound n : Nat) : Except Misread Nat :=
  if n < bound then .ok n else .error (.expected "a smaller number")

def natOfText (bound : Nat) (s : String) : Except Misread Nat :=
  match unsignedOfText? s with
  | some n => boundedNat bound n
  | none => .error (.expected "a whole number")

/-- A whole number below `bound`. -/
def readNat (bound : Nat) : Reading Nat
  | nat n => boundedNat bound n
  | plain s => natOfText bound s
  | tagged tag (literal s) =>
    if tag = Tag.int then natOfText bound s else .error (.expected "a whole number")
  | tagged _ n => n.readNat bound
  | _ => .error (.expected "a whole number")

/-- Nothing, or what `read` makes of the node. -/
def readOption (read : Reading α) : Reading (Option α)
  | null => .ok none
  | plain s => if isNullText s then .ok none else (read (plain s)).map some
  | tagged tag (plain s) =>
    if tag = Tag.null then
      if nullWords.contains s then .ok none else .error (.expected "null")
    else (read (plain s)).map some
  | n => (read n).map some

/-- An empty plain scalar stands for the empty list. -/
def items? : Node → Option (List Node)
  | list xs => some xs
  | array xs => some xs
  | plain s => if s.isEmpty then some [] else none
  | tagged _ n => n.items?
  | _ => none

def readList (read : Reading α) : Reading (List α) := fun n =>
  match n.items? with
  | some xs => xs.mapM read
  | none => .error (.expected "a list")

/-! ## Reading choices -/

/-- Whether a node says nothing. -/
def isNull : Node → Bool
  | null => true
  | plain s => isNullText s
  | _ => false

/-- The name of a choice: a text, a local tag on nothing, or the key of nothing in a typed map. -/
def choice? : Node → Option String
  | plain s => some s
  | literal s => some s
  | text s => some s
  | map [(text k, null)] => some k
  | tagged tag n =>
    match Tag.localName? tag with
    | some name => if n.isNull then some name else none
    | none => n.choice?
  | _ => none

def readChoice (ofWord? : String → Option α) : Reading α := fun n =>
  match n.choice?.bind ofWord? with
  | some a => .ok a
  | none => .error (.expected "one of the known words")

/-- The name of an alternative and what comes with it: a text alone, or a map of one entry. A local tag names no
alternative, and a leaf with the tag of a value is no word. -/
def variant? : Node → Option (String × Option Node)
  | plain s => some (s, none)
  | literal s => some (s, none)
  | text s => some (s, none)
  | map [(k, v)] => k.readText.toOption.map fun name => (name, some v)
  | tagged tag (map es) => if (Tag.localName? tag).isSome then none else (map es).variant?
  | tagged tag n => if (Tag.localName? tag).isSome || Tag.ofValues.contains tag then none else n.variant?
  | _ => none

/-- The name of an alternative that nothing comes with, or only the nothing of a typed tree. -/
def bareVariant? (n : Node) : Option String :=
  match n.variant? with
  | some (name, none) => some name
  | some (name, some null) => some name
  | _ => none

end Node

/-! ## Reading records -/

/-- The fields of a record, as they were given. -/
abbrev Fields := List (String × Node)

namespace Fields

/-- Every field is known and given once. -/
def check (known : List String) : Fields → Except Misread Unit
  | [] => .ok ()
  | (name, _) :: rest =>
    if !known.contains name then .error (.unknown name)
    else if rest.any (·.1 = name) then .error (.repeated name)
    else check known rest

def get? (fields : Fields) (name : String) : Option Node :=
  fields.lookup name

def required (fields : Fields) (name : String) (read : Reading α) : Except Misread α :=
  match fields.get? name with
  | some n => read n
  | none => .error (.missing name)

def withDefault (fields : Fields) (name : String) (default : α) (read : Reading α) : Except Misread α :=
  match fields.get? name with
  | some n => read n
  | none => .ok default

end Fields

namespace Node

def entryFields (entries : List (Node × Node)) : Except Misread Fields :=
  entries.mapM fun e => (e.1.readText).map fun k => (k, e.2)

def checkedFields (known : List String) (fields : Fields) : Except Misread Fields := do
  Fields.check known fields
  return fields

/-- The fields of a map. An empty plain scalar stands for the empty record. -/
def readFields (known : List String) : Reading Fields
  | map entries => do checkedFields known (← entryFields entries)
  | plain s => if s.isEmpty then .ok [] else .error (.expected "a record")
  | tagged _ n => n.readFields known
  | _ => .error (.expected "a record")

/-- The fields of a record, which may also be written as an array. -/
def readRecord (known : List String) : Reading Fields
  | array xs =>
    if known.length < xs.length then .error (.expected "fewer fields") else .ok (known.zip xs)
  | n => n.readFields known

/-! ## Height -/

mutual

/-- The number of collections that enclose the deepest leaf. -/
def height : Node → Nat
  | list xs => heightOfItems xs + 1
  | array xs => heightOfItems xs + 1
  | map es => heightOfEntries es + 1
  | tagged _ n => n.height
  | _ => 0

def heightOfItems : List Node → Nat
  | [] => 0
  | x :: xs => max x.height (heightOfItems xs)

def heightOfEntries : List (Node × Node) → Nat
  | [] => 0
  | (_, v) :: es => max v.height (heightOfEntries es)

end

/-! ## Trees of typed values -/

mutual

def ofJson : Json → Node
  | .null => null
  | .bool b => bool b
  | .nat n => nat n
  | .str s => text s
  | .arr xs => array (ofJsonItems xs)
  | .obj ms => map (ofJsonMembers ms)

def ofJsonItems : List Json → List Node
  | [] => []
  | x :: xs => ofJson x :: ofJsonItems xs

def ofJsonMembers : List (String × Json) → List (Node × Node)
  | [] => []
  | (k, v) :: ms => (text k, ofJson v) :: ofJsonMembers ms

end

end Node

end Appraisal
