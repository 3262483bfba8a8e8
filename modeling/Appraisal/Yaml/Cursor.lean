/-!
# A place in a YAML text

The characters that are left, counted, with the line and column of the first of them, and the faults that stop a
text from being read.
-/

namespace Appraisal.Yaml

/-- Why a text is not a YAML document. -/
inductive Fault where
  | controlCharacter
  | tabIndentation
  | colonInFlow
  | documentMarkInQuotes
  | unclosedQuotes
  | unknownEscape
  | invalidEscape
  | invalidBlockHeader
  | invalidDirective
  | invalidAnchor
  | invalidTag
  | unknownTagHandle
  | invalidCharacter
  | keyWithoutColon
  | keyNotAllowed
  | valueNotAllowed
  | entryNotAllowed
  | expectedNode
  | expectedKey
  | expectedEntry
  | expectedSeparator
  | unknownAlias
  | tooManyAliases
  | tooDeep
  | noDocument
  | severalDocuments
deriving DecidableEq, Repr

def Fault.message : Fault → String
  | controlCharacter => "control characters are not allowed"
  | tabIndentation => "a tab stands where indentation is expected"
  | colonInFlow => "unexpected ':'"
  | documentMarkInQuotes => "unexpected document mark in a quoted scalar"
  | unclosedQuotes => "unexpected end of a quoted scalar"
  | unknownEscape => "unknown escape character"
  | invalidEscape => "an escape names no character"
  | invalidBlockHeader => "invalid header of a block scalar"
  | invalidDirective => "invalid directive"
  | invalidAnchor => "invalid anchor or alias"
  | invalidTag => "invalid tag"
  | unknownTagHandle => "undefined tag handle"
  | invalidCharacter => "a character that cannot start any token"
  | keyWithoutColon => "a colon is missing behind a key"
  | keyNotAllowed => "mapping keys are not allowed here"
  | valueNotAllowed => "mapping values are not allowed here"
  | entryNotAllowed => "block sequence entries are not allowed here"
  | expectedNode => "a node is missing"
  | expectedKey => "a key is missing"
  | expectedEntry => "an entry is missing"
  | expectedSeparator => "a comma or a closing bracket is missing"
  | unknownAlias => "unknown anchor"
  | tooManyAliases => "aliases are followed too often"
  | tooDeep => "collections are nested too deeply"
  | noDocument => "there is no document"
  | severalDocuments => "there is more than one document"

/-- The characters that a document may contain. -/
def isPrintable (c : Char) : Bool :=
  let n := c.toNat
  n = 0x09 || n = 0x0A || n = 0x0D || (0x20 ≤ n && n ≤ 0x7E) || n = 0x85 || (0xA0 ≤ n && n ≤ 0xD7FF) ||
    (0xE000 ≤ n && n ≤ 0xFFFD) || 0x10000 ≤ n

def isBreak (c : Char) : Bool :=
  c = '\n' || c = '\r' || c.toNat = 0x85 || c.toNat = 0x2028 || c.toNat = 0x2029

/-- The mark that may stand at the start of a line. -/
def byteOrderMark : Char :=
  Char.ofNat 0xFEFF

def isSpace (c : Char) : Bool :=
  c = ' ' || c = '\t'

/-- Nothing, a space or a line break. -/
def isGap : Option Char → Bool
  | none => true
  | some c => isSpace c || isBreak c

structure Cursor where
  rest : List Char
  /-- The number of characters that are left. -/
  left : Nat
  index : Nat
  line : Nat
  column : Nat
  left_eq : left = rest.length := by simp

namespace Cursor

/-- The start of a text. -/
def start (text : List Char) : Cursor where
  rest := text
  left := text.length
  index := 0
  line := 0
  column := 0

def peek (c : Cursor) (ahead : Nat) : Option Char :=
  c.rest[ahead]?

/-- Skips `n` characters of the line. -/
def skip (c : Cursor) (n : Nat) : Cursor :=
  ⟨c.rest.drop n, c.left - n, c.index + n, c.line, c.column + n, by simp [c.left_eq]⟩

/-- Skips a line break of `n` characters. -/
def skipBreak (c : Cursor) (n : Nat) : Cursor :=
  ⟨c.rest.drop n, c.left - n, c.index + n, c.line + 1, 0, by simp [c.left_eq]⟩

/-- Skips the mark that may start a line. It takes up a column. -/
def skipMark (c : Cursor) : Cursor :=
  if c.column = 0 && c.peek 0 = some byteOrderMark then c.skip 1 else c

/-- The line break at the cursor, as it is kept in a scalar, and the next line. -/
def break? (c : Cursor) : Option (Char × Cursor) :=
  match c.rest with
  | '\r' :: '\n' :: _ => some ('\n', c.skipBreak 2)
  | b :: _ =>
    if isBreak b then
      some (if b.toNat = 0x2028 ∨ b.toNat = 0x2029 then b else '\n', c.skipBreak 1)
    else none
  | [] => none

/-- Whether a line starts with three dashes or three dots. -/
def atDocumentMark (c : Cursor) : Bool :=
  c.column = 0 && isGap (c.peek 3) &&
    (c.rest.take 3 = ['-', '-', '-'] || c.rest.take 3 = ['.', '.', '.'])

/-- Skips to the end of the line. -/
def skipLine (c : Cursor) : Cursor :=
  c.skip (c.rest.takeWhile fun x => !isBreak x).length

end Cursor

end Appraisal.Yaml
