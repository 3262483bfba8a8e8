/-!
# JSON text

JSON values with whole numbers, and their two written forms: `compact` without any space, and `pretty` with
two spaces of indentation per level. Control characters, quotes and backslashes are escaped and all else is
written as it is.
-/

namespace Appraisal

/-- The members of an object are written in the order in which they stand. -/
inductive Json where
  | null
  | bool (b : Bool)
  | nat (n : Nat)
  | str (s : String)
  | arr (items : List Json)
  | obj (members : List (String × Json))
deriving Repr, Inhabited

namespace Json

def ofOption (f : α → Json) : Option α → Json
  | none => null
  | some a => f a

def ofStr? : Option String → Json :=
  ofOption str

def hexDigit (n : Nat) : Char :=
  Char.ofNat (if n < 10 then 48 + n else 87 + n)

def escapeChar (c : Char) : List Char :=
  if c = '"' then ['\\', '"']
  else if c = '\\' then ['\\', '\\']
  else if c = '\n' then ['\\', 'n']
  else if c = '\r' then ['\\', 'r']
  else if c = '\t' then ['\\', 't']
  else if c.toNat = 0x08 then ['\\', 'b']
  else if c.toNat = 0x0C then ['\\', 'f']
  else if c.toNat < 0x20 then ['\\', 'u', '0', '0', hexDigit (c.toNat / 16), hexDigit (c.toNat % 16)]
  else [c]

def quoted (s : String) : List Char :=
  '"' :: s.toList.flatMap escapeChar ++ ['"']

def boolText (b : Bool) : List Char :=
  (if b then "true" else "false").toList

def natText (n : Nat) : List Char :=
  (toString n).toList

/-! ## Compact form -/

mutual

def compactChars : Json → List Char
  | null => "null".toList
  | bool b => boolText b
  | nat n => natText n
  | str s => quoted s
  | arr [] => ['[', ']']
  | arr (x :: xs) => '[' :: compactChars x ++ compactItems xs
  | obj [] => ['\x7b', '\x7d']
  | obj ((k, v) :: ms) => '\x7b' :: quoted k ++ ':' :: compactChars v ++ compactMembers ms

/-- The items after the first one, and the closing bracket. -/
def compactItems : List Json → List Char
  | [] => [']']
  | x :: xs => ',' :: compactChars x ++ compactItems xs

/-- The members after the first one, and the closing brace. -/
def compactMembers : List (String × Json) → List Char
  | [] => ['\x7d']
  | (k, v) :: ms => ',' :: quoted k ++ ':' :: compactChars v ++ compactMembers ms

end

def compact (j : Json) : String :=
  String.ofList j.compactChars

/-! ## Pretty form -/

def newline (level : Nat) : List Char :=
  '\n' :: List.replicate (2 * level) ' '

mutual

def prettyChars (level : Nat) : Json → List Char
  | null => "null".toList
  | bool b => boolText b
  | nat n => natText n
  | str s => quoted s
  | arr [] => ['[', ']']
  | arr (x :: xs) => '[' :: newline (level + 1) ++ prettyChars (level + 1) x ++ prettyItems level xs
  | obj [] => ['\x7b', '\x7d']
  | obj ((k, v) :: ms) =>
    '\x7b' :: newline (level + 1) ++ quoted k ++ ':' :: ' ' :: prettyChars (level + 1) v ++
      prettyMembers level ms

def prettyItems (level : Nat) : List Json → List Char
  | [] => newline level ++ [']']
  | x :: xs => ',' :: newline (level + 1) ++ prettyChars (level + 1) x ++ prettyItems level xs

def prettyMembers (level : Nat) : List (String × Json) → List Char
  | [] => newline level ++ ['\x7d']
  | (k, v) :: ms =>
    ',' :: newline (level + 1) ++ quoted k ++ ':' :: ' ' :: prettyChars (level + 1) v ++
      prettyMembers level ms

end

def pretty (j : Json) : String :=
  String.ofList (j.prettyChars 0)

end Json

end Appraisal
