/-! A place in a text that is being read: what is still to come, and where the place is. -/

namespace Conveyor.Yaml

def isBreak (c : Char) : Bool :=
  c == '\n' || c == '\r' || c == '\x85' || c == '\u2028' || c == '\u2029'

def endsLine : Option Char → Bool
  | none => true
  | some c => isBreak c

def endsField : Option Char → Bool
  | none => true
  | some c => c == ' ' || isBreak c

def endsWord : Option Char → Bool
  | none => true
  | some c => c == ' ' || c == '\t' || isBreak c

def isAllowed (c : Char) : Bool :=
  let n := c.toNat
  n == 0x09 || n == 0x0a || n == 0x0d || (0x20 ≤ n && n ≤ 0x7e) || n == 0x85 ||
    (0xa0 ≤ n && n ≤ 0xd7ff) || (0xe000 ≤ n && n ≤ 0xfffd) || 0x10000 ≤ n

def byteOrderMark : Char := '\ufeff'

structure Cursor where
  rest : List Char
  index : Nat := 0
  line : Nat := 0
  column : Nat := 0
  deriving Repr

namespace Cursor

def peek (c : Cursor) : Option Char := c.rest.head?

def peekAt (c : Cursor) (n : Nat) : Option Char := c.rest[n]?

def advance (c : Cursor) : Cursor :=
  match c.rest with
  | [] => c
  | ch :: rest =>
    if isBreak ch && !(ch == '\r' && rest.head? == some '\n') then
      { rest, index := c.index + 1, line := c.line + 1, column := 0 }
    else
      { rest, index := c.index + 1, line := c.line,
        column := if ch = byteOrderMark then c.column else c.column + 1 }

def advanceBy (c : Cursor) : Nat → Cursor
  | 0 => c
  | n + 1 => c.advance.advanceBy n

def takeWhile (c : Cursor) (test : Char → Bool) : List Char × Cursor :=
  let taken := c.rest.takeWhile test
  (taken, c.advanceBy taken.length)

def skipWhile (c : Cursor) (test : Char → Bool) : Cursor := (c.takeWhile test).2

def skipSpaces (c : Cursor) : Cursor := c.skipWhile (· == ' ')

def skipIndent (c : Cursor) (column : Nat) : Cursor :=
  c.advanceBy (min (column - c.column) (c.rest.takeWhile (· == ' ')).length)

def skipLine (c : Cursor) : Cursor := c.skipWhile fun ch => !isBreak ch

/-- Reads a line break, if there is one. Every break but the two separators counts as a line feed. -/
def lineBreak (c : Cursor) : List Char × Cursor :=
  match c.rest with
  | '\r' :: '\n' :: _ => (['\n'], c.advanceBy 2)
  | ch :: _ =>
    if ch = '\u2028' || ch = '\u2029' then ([ch], c.advance)
    else if isBreak ch then (['\n'], c.advance)
    else ([], c)
  | [] => ([], c)

/-- Whether a marker of three characters stands here, with the end of a word behind it. -/
def atMarker (c : Cursor) (mark : Char) : Bool :=
  c.rest.take 3 == [mark, mark, mark] && endsWord (c.peekAt 3)

def atDocumentMark (c : Cursor) : Bool := c.atMarker '-' || c.atMarker '.'

def blankLine? (c : Cursor) : Option Cursor :=
  let c := c.skipSpaces
  let c := if c.peek = some '#' then c.skipLine else c
  if endsLine c.peek then some c.lineBreak.2 else none

end Cursor
end Conveyor.Yaml
