import Conveyor.Yaml.ScalarText
import Conveyor.Yaml.Token

/-! From text to tokens. The bounds of block collections come from indentation, and a key without an
indicator is known only when its colon is met: until then its place in the tokens is remembered. -/

namespace Conveyor.Yaml

structure KeyPlace where
  tokenIndex : Nat
  required : Bool
  index : Nat
  line : Nat
  column : Nat
  deriving Repr

/-- The state of reading tokens. The tokens are kept with the latest first. -/
structure Lexer where
  cursor : Cursor
  tokens : List Token := []
  indent : Int := -1
  outerIndents : List Int := []
  flowLevel : Nat := 0
  keyAllowed : Bool := true
  keyPlaces : Table Nat KeyPlace := []

namespace Lexer

def inFlow (x : Lexer) : Bool := x.flowLevel != 0

def emit (x : Lexer) (t : Token) : Lexer := { x with tokens := t :: x.tokens }

def emitAt (x : Lexer) (index : Nat) (t : Token) : Lexer :=
  let later := x.tokens.length - index
  { x with tokens := x.tokens.take later ++ t :: x.tokens.drop later }

def skip (x : Lexer) (n : Nat) : Lexer := { x with cursor := x.cursor.advanceBy n }

/-- Spaces, comments and line breaks before the next token; after a line break a key may come. -/
def skipBlanks : Nat → Lexer → Lexer
  | 0, x => x
  | fuel + 1, x =>
    let c := x.cursor.skipSpaces
    let c := if c.peek = some '#' then c.skipLine else c
    match c.lineBreak with
    | ([], c) => { x with cursor := c }
    | (_, c) =>
      skipBlanks fuel { x with cursor := c, keyAllowed := x.keyAllowed || !x.inFlow }

/-- Whether a key that began there can no longer end here: a key without an indicator stays on one
line and has at most 1024 characters. -/
def KeyPlace.isStale (k : KeyPlace) (c : Cursor) : Bool :=
  k.line != c.line || c.index - k.index > 1024

def dropStale? (x : Lexer) : Option Lexer :=
  let stale := fun (k : KeyPlace) => KeyPlace.isStale k x.cursor
  if x.keyPlaces.any fun (_, k) => stale k && k.required then none
  else some { x with keyPlaces := x.keyPlaces.filter fun (_, k) => !stale k }

def dropKey? (x : Lexer) : Option Lexer :=
  match x.keyPlaces.get? x.flowLevel with
  | some place =>
    if place.required then none else some { x with keyPlaces := x.keyPlaces.erase x.flowLevel }
  | none => some x

def markKey? (x : Lexer) : Option Lexer :=
  if x.keyAllowed then do
    let x ← x.dropKey?
    let c := x.cursor
    let place : KeyPlace :=
      { tokenIndex := x.tokens.length, required := !x.inFlow && x.indent == (c.column : Int),
        index := c.index, line := c.line, column := c.column }
    return { x with keyPlaces := x.keyPlaces.insert x.flowLevel place }
  else some x

def closeBlocks (x : Lexer) (column : Int) : Lexer :=
  if x.inFlow then x else
  let rec close (indent : Int) (outer : List Int) (tokens : List Token) : Lexer :=
    match outer with
    | next :: rest =>
      if indent > column then close next rest (.blockEnd :: tokens)
      else { x with indent, outerIndents := outer, tokens }
    | [] => { x with indent, outerIndents := [], tokens }
  close x.indent x.outerIndents x.tokens

/-- Begins a block collection, if the column is deeper than those that are open. -/
def openBlock (x : Lexer) (column : Nat) (index : Nat) (t : Token) : Lexer :=
  if x.indent < (column : Int) then
    { x with indent := column, outerIndents := x.indent :: x.outerIndents }.emitAt index t
  else x

def finish? (x : Lexer) : Option Lexer := (x.closeBlocks (-1)).dropKey?

def documentMark? (x : Lexer) (t : Token) : Option Lexer := do
  let x ← (x.closeBlocks (-1)).dropKey?
  return ({ x with keyAllowed := false }.skip 3).emit t

def flowStart? (x : Lexer) (t : Token) : Option Lexer := do
  let x ← x.markKey?
  return ({ x with flowLevel := x.flowLevel + 1, keyAllowed := true }.skip 1).emit t

def flowEnd? (x : Lexer) (t : Token) : Option Lexer := do
  let x ← x.dropKey?
  guard x.inFlow
  return ({ x with flowLevel := x.flowLevel - 1, keyAllowed := false }.skip 1).emit t

def flowEntry? (x : Lexer) : Option Lexer := do
  let x ← { x with keyAllowed := true }.dropKey?
  return (x.skip 1).emit .flowEntry

def blockEntry? (x : Lexer) : Option Lexer := do
  guard (x.inFlow || x.keyAllowed)
  let x := if x.inFlow then x
    else x.openBlock x.cursor.column x.tokens.length .blockSequenceStart
  let x ← { x with keyAllowed := true }.dropKey?
  return (x.skip 1).emit .blockEntry

def explicitKey? (x : Lexer) : Option Lexer := do
  guard (x.inFlow || x.keyAllowed)
  let x := if x.inFlow then x
    else x.openBlock x.cursor.column x.tokens.length .blockMappingStart
  let x ← { x with keyAllowed := !x.inFlow }.dropKey?
  return (x.skip 1).emit .key

/-- The colon of a value. The key before it, if there is a place for one, begins there. -/
def value? (x : Lexer) : Option Lexer :=
  match x.keyPlaces.get? x.flowLevel with
  | some place =>
    let x := { x with keyPlaces := x.keyPlaces.erase x.flowLevel, keyAllowed := false }
    let x := x.emitAt place.tokenIndex .key
    let x := if x.inFlow then x
      else x.openBlock place.column place.tokenIndex .blockMappingStart
    some ((x.skip 1).emit .value)
  | none => do
    guard (x.inFlow || x.keyAllowed)
    let x := if x.inFlow then x
      else x.openBlock x.cursor.column x.tokens.length .blockMappingStart
    let x ← { x with keyAllowed := !x.inFlow }.dropKey?
    return (x.skip 1).emit .value

def isNameChar (c : Char) : Bool := c.isAlphanum || c == '-' || c == '_'

def nodeName? (c : Cursor) : Option Reading := do
  let (name, c) := c.advance.takeWhile isNameChar
  guard !name.isEmpty
  guard (endsWord c.peek || c.peek.any ("?:,]\x7d%@\x60".toList.contains ·))
  return (name, c)

def node? (x : Lexer) (token : String → Token) : Option Lexer := do
  let x ← x.markKey?
  let (name, c) ← nodeName? x.cursor
  return { x with keyAllowed := false, cursor := c }.emit (token (String.ofList name))

def isTagChar (c : Char) : Bool :=
  c.isAlphanum || "-;/?:@&=+$,_.!~*\x27()[]%".toList.contains c

def unescapeTag? : Nat → List Char → Option Blob
  | 0, _ => none
  | _ + 1, [] => some []
  | fuel + 1, '%' :: rest => do
    let (high, low) ← match rest with
      | a :: b :: _ => (do return (← Blob.hexValue? a, ← Blob.hexValue? b))
      | _ => none
    return (UInt8.ofNat (16 * high + low)) :: (← unescapeTag? fuel (rest.drop 2))
  | fuel + 1, c :: rest => do
    return Blob.ofText c.toString ++ (← unescapeTag? fuel rest)

def tagText? (c : Cursor) : Option (String × Cursor) := do
  let (raw, c) := c.takeWhile isTagChar
  guard !raw.isEmpty
  let text ← Blob.toText? (← unescapeTag? (raw.length + 1) raw)
  return (text, c)

/-- A handle: exclamation marks with a name between them, or a single one before a space. -/
def tagHandle? (c : Cursor) : Option (String × Cursor) := do
  guard (c.peek = some '!')
  if c.peekAt 1 = some ' ' then return ("!", c.advance)
  let (name, c) := c.advance.takeWhile isNameChar
  guard (c.peek = some '!')
  return ("!" ++ String.ofList name ++ "!", c.advance)

def tagToken? (c : Cursor) : Option (Token × Cursor) :=
  match c.peekAt 1 with
  | some '<' => do
    let (suffix, c) ← tagText? (c.advanceBy 2)
    guard (c.peek = some '>')
    return (.tag none suffix, c.advance)
  | following =>
    if endsWord following then some (.tag none "!", c.advance)
    else
      let word := (c.advance.takeWhile fun ch => !endsField (some ch)).1
      if word.contains '!' then do
        let (handle, c) ← tagHandle? c
        let (suffix, c) ← tagText? c
        return (.tag (some handle) suffix, c)
      else do
        let (suffix, c) ← tagText? c.advance
        return (.tag (some "!") suffix, c)

def tag? (x : Lexer) : Option Lexer := do
  let x ← x.markKey?
  let (token, c) ← tagToken? x.cursor
  guard (endsField c.peek)
  return { x with keyAllowed := false, cursor := c }.emit token

def digits? (c : Cursor) : Option (Nat × Cursor) := do
  let (digits, c) := c.takeWhile fun ch => '0' ≤ ch && ch ≤ '9'
  guard !digits.isEmpty
  return (digits.foldl (fun n d => 10 * n + (d.toNat - '0'.toNat)) 0, c)

def directiveBody? (name : String) (c : Cursor) : Option (Directive × Cursor) :=
  if name = "YAML" then do
    let (major, c) ← digits? c.skipSpaces
    guard (c.peek = some '.')
    let (_, c) ← digits? c.advance
    guard (endsField c.peek)
    return (.version major, c)
  else if name = "TAG" then do
    let (handle, c) ← tagHandle? c.skipSpaces
    guard (c.peek = some ' ')
    let (base, c) ← tagText? c.skipSpaces
    guard (endsField c.peek)
    return (.tagHandle handle base, c)
  else some (.other, c.skipLine)

def directive? (x : Lexer) : Option Lexer := do
  let x ← (x.closeBlocks (-1)).dropKey?
  let (name, c) := x.cursor.advance.takeWhile isNameChar
  guard !name.isEmpty
  guard (endsField c.peek)
  let (directive, c) ← directiveBody? (String.ofList name) c
  let c ← c.blankLine?
  return { x with keyAllowed := false, cursor := c }.emit (.directive directive)

def block? (x : Lexer) (fold : Bool) : Option Lexer := do
  let x ← { x with keyAllowed := true }.dropKey?
  let (text, c) ← blockScalar? fold x.indent x.cursor
  return { x with cursor := c }.emit (.scalar (String.ofList text) false)

/-- The first token that is not settled, because a key may turn out to begin there. -/
def firstOpen (x : Lexer) : Nat :=
  let places := x.keyPlaces.filter fun (_, k) => !KeyPlace.isStale k x.cursor
  (places.map (·.2.tokenIndex)).foldl min x.tokens.length

/-- A scalar in quotes. One that names a character that does not exist ends the text, and so do the
tokens before it that were not settled when it was met. -/
def quoted? (x : Lexer) (quote : Char) (firstOpen : Nat) : Option Lexer := do
  let x ← x.markKey?
  match quotedScalar quote x.cursor with
  | .ok (text, c) =>
    return { x with keyAllowed := false, cursor := c }.emit (.scalar (String.ofList text) false)
  | .error .malformed => none
  | .error fault =>
    let c := { x.cursor with rest := [] }
    return { x with keyPlaces := [], cursor := c }.emitAt firstOpen (.unreadable fault)

def plain? (x : Lexer) : Option Lexer := do
  let x ← x.markKey?
  let (text, c, broke) := plainScalar x.inFlow (x.indent + 1) x.cursor
  return { x with keyAllowed := broke, cursor := c }.emit (.scalar (String.ofList text) true)

def startsPlain (inFlow : Bool) (c : Char) (next : Option Char) : Bool :=
  !(endsWord (some c) || "-?:,[]\x7b\x7d#&*!|>\x27\"%@\x60".toList.contains c) ||
    (!endsWord next && (c == '-' || (!inFlow && (c == '?' || c == ':'))))

/-- Reads one token, with those that follow from the indentation. At the end of the text nothing is
left to read. -/
def step? (x : Lexer) : Option Lexer := do
  let firstOpen := x.firstOpen
  let x ← (skipBlanks (x.cursor.rest.length + 1) x).dropStale?
  let x := x.closeBlocks x.cursor.column
  let c := x.cursor
  let next := c.peekAt 1
  match c.peek with
  | none => x.finish?
  | some ch =>
    let atLineStart := c.column == 0
    if ch = '%' ∧ atLineStart then x.directive?
    else if atLineStart ∧ c.atMarker '-' then x.documentMark? .documentStart
    else if atLineStart ∧ c.atMarker '.' then x.documentMark? .documentEnd
    else if ch = '[' then x.flowStart? .flowSequenceStart
    else if ch = '\x7b' then x.flowStart? .flowMappingStart
    else if ch = ']' then x.flowEnd? .flowSequenceEnd
    else if ch = '\x7d' then x.flowEnd? .flowMappingEnd
    else if ch = ',' then x.flowEntry?
    else if ch = '-' ∧ endsWord next then x.blockEntry?
    else if ch = '?' ∧ (x.inFlow ∨ endsWord next) then x.explicitKey?
    else if ch = ':' ∧ (x.inFlow ∨ endsWord next) then x.value?
    else if ch = '*' then x.node? .alias
    else if ch = '&' then x.node? .anchor
    else if ch = '!' then x.tag?
    else if ch = '|' ∧ !x.inFlow then x.block? false
    else if ch = '>' ∧ !x.inFlow then x.block? true
    else if ch = '\x27' ∨ ch = '"' then x.quoted? ch firstOpen
    else if startsPlain x.inFlow ch next then x.plain?
    else none

def run? : Nat → Lexer → Option Lexer
  | 0, x => some x
  | fuel + 1, x =>
    if x.cursor.rest.isEmpty then x.step? else do
    let x ← x.step?
    run? fuel x

end Lexer

/-- The tokens of a text; none if it is malformed. A byte order mark at the start is skipped. -/
def tokens? (text : String) : Option (List Token) := do
  let chars := text.toList
  guard (chars.all isAllowed)
  let cursor : Cursor := { rest := chars }
  let cursor := if cursor.peek = some byteOrderMark then cursor.advance else cursor
  let x ← Lexer.run? (chars.length + 1) { cursor }
  return x.tokens.reverse

end Conveyor.Yaml
