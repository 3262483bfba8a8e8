import Appraisal.Yaml.Scalar
/-!
# YAML tokens

A text as a list of tokens in which indentation is explicit: block collections are opened and closed by tokens
of their own. A mapping key is recognised only at the colon behind it, so the lexer remembers where a key may
have started (`KeySpot`) and puts the key's token there afterwards.
-/

namespace Appraisal.Yaml

/-- The part of a tag behind its handle is nothing if its bytes are no text. -/
inductive Token where
  | versionDirective (major minor : Nat)
  | tagDirective (handle : String) (stem : Option String)
  | documentStart
  | documentEnd
  | blockSequence
  | blockMapping
  | blockEnd
  | flowSequence
  | flowSequenceEnd
  | flowMapping
  | flowMappingEnd
  | blockEntry
  | flowEntry
  | key
  | value
  | reference (name : String)
  | anchor (name : String)
  | tag (handle : String) (suffix : Option String)
  | scalar (style : Style) (text : String)
deriving DecidableEq, Repr

/-- A place where a key may have started: how many tokens stand before it, and where in the text it is. At the
column of the block collection that is open nothing else than a key can start (`required`). -/
structure KeySpot where
  count : Nat
  index : Nat
  line : Nat
  column : Nat
  required : Bool

structure Lexer where
  cursor : Cursor
  /-- The tokens so far, the last one first. -/
  tokens : List Token
  count : Nat
  /-- The columns of the open block collections, the innermost first. -/
  indents : List Nat
  /-- One entry per open bracket and one for the text around them, the innermost first. -/
  spots : List (Option KeySpot)
  keyAllowed : Bool

namespace Lexer

def start (text : List Char) : Lexer :=
  ⟨.start text, [], 0, [], [none], true⟩

/-- Whether the cursor stands inside brackets. -/
def inFlow (s : Lexer) : Bool :=
  1 < s.spots.length

/-- The first column that belongs to the content of the innermost block collection. -/
def floor (s : Lexer) : Nat :=
  match s.indents with
  | [] => 0
  | i :: _ => i + 1

def emit (s : Lexer) (t : Token) : Lexer :=
  { s with tokens := t :: s.tokens, count := s.count + 1 }

/-- Emits a token of `n` characters. -/
def emitSkip (s : Lexer) (t : Token) (n : Nat) : Lexer :=
  { s.emit t with cursor := s.cursor.skip n }

/-- Puts a token behind the first `count` ones. -/
def insert (s : Lexer) (count : Nat) (t : Token) : Lexer :=
  let behind := s.count - count
  { s with tokens := s.tokens.take behind ++ t :: s.tokens.drop behind, count := s.count + 1 }

/-! ## Indentation -/

def closeBlocks (column : Nat) : List Nat → List Nat × Nat
  | [] => ([], 0)
  | i :: is =>
    if column < i then
      let (rest, n) := closeBlocks column is
      (rest, n + 1)
    else (i :: is, 0)

/-- Closes the block collections that start behind `column`. -/
def closeTo (s : Lexer) (column : Nat) : Lexer :=
  if s.inFlow then s
  else
    let (indents, n) := closeBlocks column s.indents
    { s with
      indents := indents
      tokens := List.replicate n .blockEnd ++ s.tokens
      count := s.count + n }

def closeAll (s : Lexer) : Lexer :=
  if s.inFlow then s
  else
    { s with
      indents := []
      tokens := List.replicate s.indents.length .blockEnd ++ s.tokens
      count := s.count + s.indents.length }

/-- Opens a block collection at `column` if none is open there, its token behind the first `count` ones. -/
def openBlock (s : Lexer) (column count : Nat) (t : Token) : Lexer :=
  if s.inFlow || column < s.floor then s
  else { s.insert count t with indents := column :: s.indents }

/-! ## Keys -/

def putSpot (s : Lexer) (spot : Option KeySpot) : Lexer :=
  { s with spots := spot :: s.spots.tail }

/-- Gives up the key that may have started. -/
def forgetKey (s : Lexer) : Except Fault Lexer :=
  if s.spots.head?.join.any (·.required) then .error .keyWithoutColon else .ok (s.putSpot none)

/-- Remembers the cursor as a place where a key may start. -/
def rememberKey (s : Lexer) : Except Fault Lexer :=
  if s.keyAllowed then
    let c := s.cursor
    let required := !s.inFlow && s.indents.head? = some c.column
    s.forgetKey.map (·.putSpot (some ⟨s.count, c.index, c.line, c.column, required⟩))
  else .ok s

def allowKey (s : Lexer) (allowed : Bool) : Lexer :=
  { s with keyAllowed := allowed }

/-- The key that ends at the cursor: on the line it started on, within 1024 characters. -/
def keySpot? (s : Lexer) : Option KeySpot :=
  match s.spots.head?.join with
  | some k => if k.line = s.cursor.line ∧ s.cursor.index ≤ k.index + 1024 then some k else none
  | none => none

/-! ## Blanks -/

def skipBlanksLoop : Nat → Lexer → Lexer
  | 0, s => s
  | fuel + 1, s =>
    let tabs := s.inFlow || !s.keyAllowed
    let c := s.cursor.skipMark
    let c := c.skip (c.rest.takeWhile fun x => x = ' ' || (tabs && x = '\t')).length
    let c := if c.peek 0 = some '#' then c.skipLine else c
    match c.break? with
    | none => { s with cursor := c }
    | some (_, next) =>
      skipBlanksLoop fuel { s with cursor := next, keyAllowed := s.keyAllowed || !s.inFlow }

/-- Skips blanks, comments and line breaks. Outside brackets a key may start on a new line. -/
def skipBlanks (s : Lexer) : Lexer :=
  skipBlanksLoop (s.cursor.left + 1) s

/-! ## Tags and anchors -/

def isNameChar (c : Char) : Bool :=
  c.isAlphanum || c = '_' || c = '-'

/-- The characters of a tag. -/
def isTagChar (c : Char) : Bool :=
  isNameChar c || ";/?:@&=+$.!~*'()%,[]".toList.contains c

/-- A tag without the characters that separate things inside brackets. -/
def isShortTagChar (c : Char) : Bool :=
  isTagChar c && !isFlowIndicator c

/-- How many more bytes a character has that starts with `byte`. -/
def moreBytes? (byte : Nat) : Option Nat :=
  if byte < 0x80 then some 0
  else if byte < 0xC0 then none
  else if byte < 0xE0 then some 1
  else if byte < 0xF0 then some 2
  else if byte < 0xF8 then some 3
  else none

/-- The bytes of a part of a tag; `%` and two hexadecimal digits stand for one. The bytes of a character stand
together, and of the last character `more` are to come. -/
def tagBytes (more : Nat) : List Char → Option (List UInt8)
  | [] => if more = 0 then some [] else none
  | '%' :: a :: b :: rest => do
    let byte := 16 * (← hexValue? a) + (← hexValue? b)
    let more ←
      if more = 0 then moreBytes? byte
      else if 0x80 ≤ byte ∧ byte < 0xC0 then some (more - 1)
      else none
    return UInt8.ofNat byte :: (← tagBytes more rest)
  | '%' :: _ => none
  | c :: rest => if more = 0 then (tagBytes 0 rest).map (UInt8.ofNat c.toNat :: ·) else none

/-- The text of a part of a tag, which a null byte ends, or nothing if the bytes are no text. -/
def tagText (cs : List Char) : Except Fault (Option String) :=
  match tagBytes 0 cs with
  | some bytes => .ok (String.fromUTF8? ⟨(bytes.takeWhile (· ≠ 0)).toArray⟩)
  | none => .error .invalidTag

/-- The parts of a tag at the cursor, and its length. -/
def tagParts (c : Cursor) : Except Fault (String × Option String × Nat) :=
  match c.rest with
  | '!' :: '<' :: rest =>
    let uri := rest.takeWhile isTagChar
    if uri.isEmpty || rest[uri.length]? ≠ some '>' then .error .invalidTag
    else (tagText uri).map fun t => ("", t, uri.length + 3)
  | '!' :: rest =>
    let name := rest.takeWhile isNameChar
    if rest[name.length]? = some '!' then
      let suffix := (rest.drop (name.length + 1)).takeWhile isShortTagChar
      if suffix.isEmpty then .error .invalidTag
      else (tagText suffix).map fun t =>
        (String.ofList ('!' :: name ++ ['!']), t, name.length + suffix.length + 2)
    else
      let suffix := rest.takeWhile isShortTagChar
      (tagText suffix).map fun t =>
        if t = some "" then ("", some "!", suffix.length + 1) else ("!", t, suffix.length + 1)
  | _ => .error .invalidTag

def scanTag (s : Lexer) : Except Fault Lexer := do
  let (handle, suffix, n) ← tagParts s.cursor
  let behind := s.cursor.peek n
  if isGap behind || (s.inFlow && behind = some ',') then
    return ((← s.rememberKey).emitSkip (.tag handle suffix) n).allowKey false
  else .error .invalidTag

/-- An anchor or an alias: a name and then something that cannot belong to it. -/
def scanName (s : Lexer) (token : String → Token) : Except Fault Lexer :=
  let name := (s.cursor.rest.drop 1).takeWhile isNameChar
  let behind := s.cursor.peek (name.length + 1)
  if name.isEmpty || !(isGap behind || behind.any "?:,]\x7d%@`".toList.contains) then .error .invalidAnchor
  else do return ((← s.rememberKey).emitSkip (token (String.ofList name)) (name.length + 1)).allowKey false

/-! ## Directives -/

/-- A number of at most nine digits, and what follows it. -/
def versionNumber? (cs : List Char) : Option (Nat × List Char) :=
  let digits := cs.takeWhile Char.isDigit
  if digits.isEmpty || 9 < digits.length then none
  else some (digits.foldl (fun n d => 10 * n + (d.toNat - '0'.toNat)) 0, cs.drop digits.length)

def versionDirective? (cs : List Char) : Option (Token × List Char) := do
  let (major, rest) ← versionNumber? cs
  if rest.head? ≠ some '.' then none
  let (minor, rest) ← versionNumber? (rest.drop 1)
  return (.versionDirective major minor, rest)

/-- A handle, which is one exclamation mark or ends in a second one, and the tag that it stands for. -/
def tagDirective? (cs : List Char) : Option (Token × List Char) :=
  match cs with
  | '!' :: rest =>
    let name := rest.takeWhile isNameChar
    let closed := rest[name.length]? = some '!'
    let handle := if closed then '!' :: name ++ ['!'] else ['!']
    let behind := cs.drop handle.length
    let stem := (behind.dropWhile isSpace).takeWhile isTagChar
    let rest := (behind.dropWhile isSpace).drop stem.length
    if !behind.head?.any isSpace || stem.isEmpty || !isGap rest.head? then none
    else (tagText stem).toOption.map fun t => (.tagDirective (String.ofList handle) t, rest)
  | _ => none

/-- The directive in a line: a name and, after blanks, what it directs. Only a comment may follow. -/
def directive? (line : List Char) : Option Token := do
  let name := line.takeWhile isNameChar
  let behind := line.drop name.length
  if !isGap behind.head? then none
  let words := behind.dropWhile isSpace
  let (token, rest) ←
    if name = "YAML".toList then versionDirective? words
    else if name = "TAG".toList then tagDirective? words
    else none
  match rest.dropWhile isSpace with
  | [] => some token
  | c :: _ => if c = '#' then some token else none

/-- A directive takes the whole line, also its break. -/
def scanDirective (s : Lexer) : Except Fault Lexer := do
  let line := (s.cursor.rest.drop 1).takeWhile fun x => !isBreak x
  let behind := s.cursor.skip (line.length + 1)
  let next := (behind.break?.map (·.2)).getD behind
  match directive? line with
  | some t => return { (← s.closeAll.forgetKey).allowKey false |>.emit t with cursor := next }
  | none => throw .invalidDirective

/-! ## Collections, keys and scalars -/

def openFlow (s : Lexer) (t : Token) : Except Fault Lexer := do
  let s ← s.rememberKey
  return ({ s with spots := none :: s.spots }.allowKey true).emitSkip t 1

def closeFlow (s : Lexer) (t : Token) : Except Fault Lexer := do
  let s ← s.forgetKey
  return ({ s with spots := if s.inFlow then s.spots.tail else s.spots }.allowKey false).emitSkip t 1

def scanSeparator (s : Lexer) : Except Fault Lexer := do
  return ((← s.forgetKey).allowKey true).emitSkip .flowEntry 1

def scanEntry (s : Lexer) : Except Fault Lexer :=
  if !s.inFlow && !s.keyAllowed then .error .entryNotAllowed
  else do
    let s ← (s.openBlock s.cursor.column s.count .blockSequence).forgetKey
    return (s.allowKey true).emitSkip .blockEntry 1

def scanKey (s : Lexer) : Except Fault Lexer :=
  if !s.inFlow && !s.keyAllowed then .error .keyNotAllowed
  else do
    let s ← (s.openBlock s.cursor.column s.count .blockMapping).forgetKey
    return (s.allowKey (!s.inFlow)).emitSkip .key 1

/-- A colon makes a key of what stands before it on the line. -/
def scanValue (s : Lexer) : Except Fault Lexer :=
  match s.keySpot? with
  | some k =>
    let s := (s.insert k.count .key).openBlock k.column k.count .blockMapping
    .ok (((s.putSpot none).allowKey false).emitSkip .value 1)
  | none =>
    if !s.inFlow && !s.keyAllowed then .error .valueNotAllowed
    else do
      let s ← (s.openBlock s.cursor.column s.count .blockMapping).forgetKey
      return (s.allowKey (!s.inFlow)).emitSkip .value 1

def emitScanned (s : Lexer) (style : Style) (scanned : Scanned) : Lexer :=
  { s.emit (.scalar style (String.ofList scanned.text)) with
    cursor := scanned.next
    keyAllowed := scanned.crossesLine }

def scanQuotes (s : Lexer) (quote : Char) : Except Fault Lexer := do
  return (← s.rememberKey).emitScanned .quoted (← scanQuoted quote s.cursor)

def scanBlockScalar (s : Lexer) (literal : Bool) : Except Fault Lexer := do
  let style := if literal then .literal else .folded
  return (← s.forgetKey).emitScanned style (← scanBlock literal s.floor s.cursor)

def scanPlainScalar (s : Lexer) : Except Fault Lexer := do
  return (← s.rememberKey).emitScanned .plain (← scanPlain s.inFlow s.floor s.cursor)

/-- Whether a plain scalar may start with `c`, followed by `next`. -/
def startsPlain (flow : Bool) (c : Char) (next : Option Char) : Bool :=
  if c = '-' then !next.any isSpace
  else if c = '?' || c = ':' then !flow && !isGap next
  else !("-?:,[]\x7b\x7d#&*!|>'\"%@`".toList.contains c) && !isGap (some c)

def scanDocumentMark (s : Lexer) (t : Token) : Except Fault Lexer := do
  return ((← s.closeAll.forgetKey).allowKey false).emitSkip t 3

/-! ## The next token -/

/-- The token at the cursor, which stands on the character `x`. -/
def scanToken (s : Lexer) (x : Char) : Except Fault Lexer :=
  let flow := s.inFlow
  let next := s.cursor.peek 1
  if s.cursor.column = 0 && x = '%' then s.scanDirective
  else if s.cursor.atDocumentMark then
    s.scanDocumentMark (if x = '-' then .documentStart else .documentEnd)
  else if x = '[' then s.openFlow .flowSequence
  else if x = '\x7b' then s.openFlow .flowMapping
  else if x = ']' then s.closeFlow .flowSequenceEnd
  else if x = '\x7d' then s.closeFlow .flowMappingEnd
  else if x = ',' then s.scanSeparator
  else if x = '-' && isGap next then s.scanEntry
  else if x = '?' && (flow || isGap next) then s.scanKey
  else if x = ':' && (flow || isGap next) then s.scanValue
  else if x = '*' then s.scanName .reference
  else if x = '&' then s.scanName .anchor
  else if x = '!' then s.scanTag
  else if x = '|' && !flow then s.scanBlockScalar true
  else if x = '>' && !flow then s.scanBlockScalar false
  else if x = '\'' || x = '"' then s.scanQuotes x
  else if startsPlain flow x next then s.scanPlainScalar
  else .error .invalidCharacter

def loop : Nat → Lexer → Except Fault Lexer
  | 0, s => s.closeAll.forgetKey
  | fuel + 1, s =>
    let s := s.skipBlanks
    match s.cursor.peek 0 with
    | none => s.closeAll.forgetKey
    | some x => do loop fuel (← (s.closeTo s.cursor.column).scanToken x)

end Lexer

/-- Every token takes at least one character. -/
def Token.scan (text : String) : Except Fault (List Token) :=
  let s := Lexer.start text.toList
  if s.cursor.rest.all isPrintable then
    (Lexer.loop (s.cursor.left + 1) s).map (·.tokens.reverse)
  else .error .controlCharacter

end Appraisal.Yaml
