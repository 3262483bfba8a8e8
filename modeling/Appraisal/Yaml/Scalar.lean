import Appraisal.Yaml.Cursor
/-!
# YAML scalars

The text of a plain, quoted or block scalar, and the place behind it. Lines of a scalar are folded: one line
break between two words reads as a space, and of several the first is dropped.
-/

namespace Appraisal.Yaml

/-- How a scalar is written. -/
inductive Style where
  | plain
  | quoted
  | literal
  | folded
deriving DecidableEq, Repr

/-- What stands between two words of a scalar. -/
inductive Gap where
  | blanks (text : List Char)
  /-- The first line break, unless it is escaped, and the others. -/
  | lines (first : Option Char) (others : List Char)

namespace Gap

def text : Gap → List Char
  | blanks t => t
  | lines none others => others
  | lines (some c) others =>
    if c = '\n' then (if others.isEmpty then [' '] else others) else c :: others

def crossesLine : Gap → Bool
  | blanks _ => false
  | lines _ _ => true

def addSpace (c : Char) : Gap → Gap
  | blanks t => blanks (t ++ [c])
  | lines f o => lines f o

def addBreak (c : Char) : Gap → Gap
  | blanks _ => lines (some c) []
  | lines f o => lines f (o ++ [c])

end Gap

def gapLoop (floor : Nat) : Nat → Cursor → Gap → Except Fault (Gap × Cursor)
  | 0, c, gap => .ok (gap, c)
  | fuel + 1, c, gap =>
    match c.break?, c.peek 0 with
    | some (b, next), _ => gapLoop floor fuel next (gap.addBreak b)
    | none, some x =>
      if !isSpace x then .ok (gap, c)
      else if gap.crossesLine && x = '\t' && c.column < floor then .error .tabIndentation
      else gapLoop floor fuel (c.skip 1) (gap.addSpace x)
    | none, none => .ok (gap, c)

/-- Goes on to the next word. No tab may stand before column `floor` of a line. -/
def skipGap (floor : Nat) (c : Cursor) (gap : Gap) : Except Fault (Gap × Cursor) :=
  gapLoop floor (c.left + 1) c gap

/-! ## Plain scalars -/

def isFlowIndicator (c : Char) : Bool :=
  c = ',' || c = '[' || c = ']' || c = '\x7b' || c = '\x7d'

/-- The word at the start of a text and what follows it. A colon ends a word if a gap follows it, and inside
brackets so do the characters that have a meaning there. -/
def takeWord (flow : Bool) : List Char → Except Fault (List Char × List Char)
  | [] => .ok ([], [])
  | x :: rest =>
    if isGap (some x) || (x = ':' && isGap rest.head?) || (flow && isFlowIndicator x) then .ok ([], x :: rest)
    else if flow && x = ':' && rest.head?.any (fun y => isFlowIndicator y || y = '?') then .error .colonInFlow
    else (takeWord flow rest).map fun r => (x :: r.1, r.2)

/-- A scalar, the place behind it, and whether it ends on a later line than its last word. -/
structure Scanned where
  text : List Char
  next : Cursor
  crossesLine : Bool

def plainLoop (flow : Bool) (indent : Nat) : Nat → Cursor → Gap → Except Fault Scanned
  | 0, c, gap => .ok ⟨[], c, gap.crossesLine⟩
  | fuel + 1, c, gap =>
    if c.atDocumentMark || c.peek 0 = some '#' then .ok ⟨[], c, gap.crossesLine⟩
    else do
      let (word, _) ← takeWord flow c.rest
      if word.isEmpty then return ⟨[], c, gap.crossesLine⟩
      let (following, next) ← skipGap indent (c.skip word.length) (.blanks [])
      let scanned ←
        if !flow && next.column < indent then .ok ⟨[], next, following.crossesLine⟩
        else plainLoop flow indent fuel next following
      return { scanned with text := gap.text ++ word ++ scanned.text }

/-- Outside brackets, the lines of a plain scalar stand at column `indent` or behind it. -/
def scanPlain (flow : Bool) (indent : Nat) (c : Cursor) : Except Fault Scanned :=
  plainLoop flow indent (c.left + 1) c (.blanks [])

/-! ## Quoted scalars -/

def hexValue? (c : Char) : Option Nat :=
  if '0' ≤ c ∧ c ≤ '9' then some (c.toNat - '0'.toNat)
  else if 'a' ≤ c ∧ c ≤ 'f' then some (c.toNat - 'a'.toNat + 10)
  else if 'A' ≤ c ∧ c ≤ 'F' then some (c.toNat - 'A'.toNat + 10)
  else none

/-- The character with the code that `count` hexadecimal digits give. -/
def escapedCode (count : Nat) (digits : List Char) : Except Fault (Char × Nat) :=
  match (digits.take count).mapM hexValue? with
  | some values =>
    let code := values.foldl (fun n d => 16 * n + d) 0
    if values.length = count ∧ code.isValidChar then .ok (Char.ofNat code, count + 1)
    else .error .invalidEscape
  | none => .error .invalidEscape

/-- The character that stands for the escape behind a backslash, and the length of the escape. -/
def escaped : List Char → Except Fault (Char × Nat)
  | '0' :: _ => .ok (Char.ofNat 0, 1)
  | 'a' :: _ => .ok (Char.ofNat 0x07, 1)
  | 'b' :: _ => .ok (Char.ofNat 0x08, 1)
  | 't' :: _ => .ok ('\t', 1)
  | '\t' :: _ => .ok ('\t', 1)
  | 'n' :: _ => .ok ('\n', 1)
  | 'v' :: _ => .ok (Char.ofNat 0x0B, 1)
  | 'f' :: _ => .ok (Char.ofNat 0x0C, 1)
  | 'r' :: _ => .ok ('\r', 1)
  | 'e' :: _ => .ok (Char.ofNat 0x1B, 1)
  | ' ' :: _ => .ok (' ', 1)
  | '"' :: _ => .ok ('"', 1)
  | '/' :: _ => .ok ('/', 1)
  | '\\' :: _ => .ok ('\\', 1)
  | 'N' :: _ => .ok (Char.ofNat 0x85, 1)
  | '_' :: _ => .ok (Char.ofNat 0xA0, 1)
  | 'L' :: _ => .ok (Char.ofNat 0x2028, 1)
  | 'P' :: _ => .ok (Char.ofNat 0x2029, 1)
  | 'x' :: rest => escapedCode 2 rest
  | 'u' :: rest => escapedCode 4 rest
  | 'U' :: rest => escapedCode 8 rest
  | _ => .error .unknownEscape

/-- What ends a word inside quotes. -/
inductive WordEnd where
  | quote
  | gap
  | escapedBreak
deriving DecidableEq

structure QuotedWord where
  text : List Char
  next : Cursor
  finish : WordEnd

def quotedWordLoop (quote : Char) : Nat → Cursor → Except Fault QuotedWord
  | 0, c => .ok ⟨[], c, .gap⟩
  | fuel + 1, c =>
    match c.rest with
    | [] => .ok ⟨[], c, .gap⟩
    | x :: rest =>
      let goOn := fun (y : Char) (n : Nat) =>
        (quotedWordLoop quote fuel (c.skip n)).map fun w => { w with text := y :: w.text }
      if isSpace x || isBreak x then .ok ⟨[], c, .gap⟩
      else if x = quote then
        if quote = '\'' && rest.head? = some quote then goOn x 2 else .ok ⟨[], c, .quote⟩
      else if quote = '"' && x = '\\' then
        match (c.skip 1).break? with
        | some (_, next) => .ok ⟨[], next, .escapedBreak⟩
        | none => do
          let (y, n) ← escaped rest
          goOn y (n + 1)
      else goOn x 1

def quotedWord (quote : Char) (c : Cursor) : Except Fault QuotedWord :=
  quotedWordLoop quote (c.left + 1) c

def quotedLoop (quote : Char) : Nat → Cursor → Except Fault Scanned
  | 0, _ => .error .unclosedQuotes
  | fuel + 1, c =>
    if c.atDocumentMark then .error .documentMarkInQuotes
    else if c.rest.isEmpty then .error .unclosedQuotes
    else do
      let word ← quotedWord quote c
      if word.finish = .quote || word.next.peek 0 = some quote then
        return ⟨word.text, word.next.skip 1, false⟩
      let (gap, next) ← skipGap 0 word.next (if word.finish = .gap then .blanks [] else .lines none [])
      let scanned ← quotedLoop quote fuel next
      return { scanned with text := word.text ++ gap.text ++ scanned.text }

/-- The scalar between the quote at the cursor and the next one that is not escaped. -/
def scanQuoted (quote : Char) (c : Cursor) : Except Fault Scanned :=
  quotedLoop quote (c.left + 1) (c.skip 1)

/-! ## Block scalars -/

/-- What becomes of the line breaks at the end of a block scalar. -/
inductive Chomp where
  | strip
  | clip
  | keep
deriving DecidableEq

structure BlockHeader where
  chomp : Chomp
  /-- The indentation relative to the parent, or zero if the first line sets it. -/
  increment : Nat
  next : Cursor

def chomp? : Option Char → Option Chomp
  | some '+' => some .keep
  | some '-' => some .strip
  | _ => none

def digit? : Option Char → Option Nat
  | some d => if d.isDigit then some (d.toNat - '0'.toNat) else none
  | none => none

/-- The indicators of a block scalar, in either order. -/
def blockIndicators (c : Cursor) : BlockHeader :=
  match chomp? (c.peek 0), digit? (c.peek 0) with
  | some chomp, _ =>
    match digit? (c.peek 1) with
    | some d => ⟨chomp, d, c.skip 2⟩
    | none => ⟨chomp, 0, c.skip 1⟩
  | none, some d =>
    match chomp? (c.peek 1) with
    | some chomp => ⟨chomp, d, c.skip 2⟩
    | none => ⟨.clip, d, c.skip 1⟩
  | none, none => ⟨.clip, 0, c⟩

/-- Reads the line that a block scalar starts with; an indentation of zero cannot be asked for. -/
def scanHeader (c : Cursor) : Except Fault BlockHeader :=
  let h := blockIndicators c
  let asked := digit? (c.peek 0) = some 0 || ((chomp? (c.peek 0)).isSome && digit? (c.peek 1) = some 0)
  let behind := h.next.skip (h.next.rest.takeWhile isSpace).length
  let finish := if behind.peek 0 = some '#' then behind.skipLine else behind
  if asked then .error .invalidBlockHeader
  else
    match finish.break?, finish.peek 0 with
    | some (_, next), _ => .ok { h with next := next }
    | none, none => .ok { h with next := finish }
    | none, some _ => .error .invalidBlockHeader

/-- The empty lines ahead, the place behind them, and the widest indentation seen. -/
structure EmptyLines where
  breaks : List Char
  next : Cursor
  widest : Nat

def emptyLinesLoop (indent : Nat) : Nat → Cursor → Except Fault EmptyLines
  | 0, c => .ok ⟨[], c, 0⟩
  | fuel + 1, c =>
    let spaces := (c.rest.takeWhile (· = ' ')).length
    let c := c.skip (if indent = 0 then spaces else min spaces (indent - c.column))
    if (indent = 0 || c.column < indent) && c.peek 0 = some '\t' then .error .tabIndentation
    else
      match c.break? with
      | none => .ok ⟨[], c, c.column⟩
      | some (b, next) =>
        (emptyLinesLoop indent fuel next).map fun e =>
          { e with breaks := b :: e.breaks, widest := max c.column e.widest }

/-- Skips the indentation and the empty lines ahead. An `indent` of zero is not known yet. -/
def emptyLines (indent : Nat) (c : Cursor) : Except Fault EmptyLines :=
  emptyLinesLoop indent (c.left + 1) c

/-- The text of a block scalar, the last line break and the empty lines behind it. -/
structure BlockText where
  text : List Char
  lastBreak : List Char
  breaks : List Char
  next : Cursor

/-- What joins a line to the one before it. -/
def lineJoint (literal : Bool) (lastBreak breaks : List Char) (indented : Bool) : List Char :=
  if !literal && lastBreak = ['\n'] && !indented then
    if breaks.isEmpty then [' '] else breaks
  else lastBreak ++ breaks

def blockLoop (literal : Bool) (indent : Nat) :
    Nat → Cursor → List Char → List Char → Bool → Except Fault BlockText
  | 0, c, lastBreak, breaks, _ => .ok ⟨[], lastBreak, breaks, c⟩
  | fuel + 1, c, lastBreak, breaks, indented =>
    if c.column ≠ indent || c.rest.isEmpty then .ok ⟨[], lastBreak, breaks, c⟩
    else do
      let now := (c.peek 0).any isSpace
      let line := c.rest.takeWhile fun x => !isBreak x
      let behind := c.skip line.length
      let (lastBreak', next) := match behind.break? with
        | some (b, next) => ([b], next)
        | none => ([], behind)
      let empty ← emptyLines indent next
      let block ← blockLoop literal indent fuel empty.next lastBreak' empty.breaks now
      return { block with text := lineJoint literal lastBreak breaks (indented || now) ++ line ++ block.text }

/-- The scalar behind the indicator at the cursor. `floor` is one more than the column of the parent. -/
def scanBlock (literal : Bool) (floor : Nat) (c : Cursor) : Except Fault Scanned := do
  let header ← scanHeader (c.skip 1)
  let asked := if header.increment = 0 then 0 else floor - 1 + header.increment
  let empty ← emptyLines asked header.next
  let indent := if asked = 0 then max (max empty.widest floor) 1 else asked
  let block ← blockLoop literal indent (c.left + 1) empty.next [] empty.breaks false
  let tail := match header.chomp with
    | .strip => []
    | .clip => block.lastBreak
    | .keep => block.lastBreak ++ block.breaks
  return ⟨block.text ++ tail, block.next, true⟩

end Appraisal.Yaml
