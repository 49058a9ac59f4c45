import Conveyor.Yaml.Cursor
import Conveyor.Yaml.Fault

/-! The texts of scalars: plain, in quotes, and in blocks. Line breaks inside a scalar are folded: a
single one becomes a space, and of several the first is dropped. -/

namespace Conveyor.Yaml

abbrev Reading := List Char × Cursor

/-! ### Plain scalars -/

def plainRun (inFlow : Bool) : List Char → List Char
  | [] => []
  | c :: rest =>
    if endsWord (some c) then []
    else if c = ':' ∧ (endsWord rest.head? ∨ (inFlow ∧ rest.head?.any (",[]\x7b\x7d".toList.contains ·)))
    then []
    else if inFlow ∧ ",?[]\x7b\x7d".toList.contains c then []
    else c :: plainRun inFlow rest

/-- The breaks and spaces after the first break inside a plain scalar; nothing if a mark between
documents comes. -/
def plainBreaks : Nat → Cursor → Option (List Char) × Cursor
  | 0, c => (some [], c)
  | fuel + 1, c =>
    if c.atDocumentMark then (none, c)
    else
      let c := c.skipSpaces
      match c.lineBreak with
      | ([], c) => (some [], c)
      | (break_, c) =>
        let (more, c) := plainBreaks fuel c
        (more.map (break_ ++ ·), c)

def folded (first more : List Char) : List Char :=
  (if first ≠ ['\n'] then first else if more.isEmpty then [' '] else []) ++ more

/-- The blanks inside a plain scalar, the place after them, and whether they hold a break. -/
def plainBlanks (c : Cursor) : List Char × Cursor × Bool :=
  let (spaces, c) := c.takeWhile (· == ' ')
  match c.lineBreak with
  | ([], c) => (spaces, c, false)
  | (first, c) =>
    match plainBreaks (c.rest.length + 1) c with
    | (none, c) => ([], c, true)
    | (some more, c) => (folded first more, c, true)

def plainBody (inFlow : Bool) (indent : Int) :
    Nat → (blanks : List Char) → Cursor → List Char × Cursor × Bool
  | 0, _, c => ([], c, false)
  | fuel + 1, blanks, c =>
    let run := plainRun inFlow c.rest
    if c.peek = some '#' ∨ run.isEmpty then ([], c, false)
    else
      let (next, c, broke) := plainBlanks (c.advanceBy run.length)
      let done := next.isEmpty ∨ c.peek = some '#' ∨ (!inFlow ∧ (c.column : Int) < indent)
      if done then (blanks ++ run, c, broke)
      else
        let following := plainRun inFlow c.rest
        if following.isEmpty then (blanks ++ run, c, broke)
        else
          let (more, c, broke) := plainBody inFlow indent fuel next c
          (blanks ++ run ++ more, c, broke)

def plainScalar (inFlow : Bool) (indent : Int) (c : Cursor) : List Char × Cursor × Bool :=
  plainBody inFlow indent (c.rest.length + 1) [] c

/-! ### Quoted scalars -/

def escaped? : Char → Option Char
  | '0' => some '\x00'
  | 'a' => some '\x07'
  | 'b' => some '\x08'
  | 't' => some '\t'
  | '\t' => some '\t'
  | 'n' => some '\n'
  | 'v' => some '\x0b'
  | 'f' => some '\x0c'
  | 'r' => some '\r'
  | 'e' => some '\x1b'
  | ' ' => some ' '
  | '"' => some '"'
  | '\\' => some '\\'
  | '/' => some '/'
  | 'N' => some '\x85'
  | '_' => some '\xa0'
  | 'L' => some '\u2028'
  | 'P' => some '\u2029'
  | _ => none

def escapeWidth? : Char → Option Nat
  | 'x' => some 2
  | 'u' => some 4
  | 'U' => some 8
  | _ => none

def codePoint (width : Nat) (cs : List Char) : Except Fault Char :=
  match (cs.take width).mapM Blob.hexValue? with
  | none => .error .malformed
  | some digits =>
    let n := Number.digitsTo 16 digits
    if digits.length ≠ width then .error .malformed
    else if 0x10ffff < n then .error (.codePoint n)
    else if n.isValidChar then .ok (Char.ofNat n)
    else .error .malformed

/-- Breaks and blanks inside a quoted scalar. A mark between documents may not come there. -/
def quotedBreaks : Nat → Cursor → Except Fault Reading
  | 0, c => .ok ([], c)
  | fuel + 1, c =>
    if c.atDocumentMark then .error .malformed
    else
      let c := c.skipWhile fun ch => ch == ' ' || ch == '\t'
      match c.lineBreak with
      | ([], c) => .ok ([], c)
      | (break_, c) => do
        let (more, c) ← quotedBreaks fuel c
        return (break_ ++ more, c)

def quotedBody (quote : Char) : Nat → Cursor → Except Fault Reading
  | 0, _ => .error .malformed
  | fuel + 1, c =>
    match c.rest with
    | [] => .error .malformed
    | ch :: rest =>
      if ch = quote then
        if quote = '\x27' ∧ rest.head? = some quote then do
          let (more, c) ← quotedBody quote fuel (c.advanceBy 2)
          return (quote :: more, c)
        else .ok ([], c.advance)
      else if ch = '\\' ∧ quote = '"' then
        match rest with
        | [] => .error .malformed
        | code :: digits =>
          match escaped? code, escapeWidth? code with
          | some plain, _ => do
            let (more, c) ← quotedBody quote fuel (c.advanceBy 2)
            return (plain :: more, c)
          | none, some width => do
            let plain ← codePoint width digits
            let (more, c) ← quotedBody quote fuel (c.advanceBy (2 + width))
            return (plain :: more, c)
          | none, none =>
            if isBreak code then do
              let (breaks, c) ← quotedBreaks (rest.length + 1) c.advance.lineBreak.2
              let (more, c) ← quotedBody quote fuel c
              return (breaks ++ more, c)
            else .error .malformed
      else if ch = ' ' ∨ ch = '\t' ∨ isBreak ch then
        let (blanks, after) := c.takeWhile fun ch => ch == ' ' || ch == '\t'
        match after.lineBreak with
        | ([], after) => do
          let (more, c) ← quotedBody quote fuel after
          return (blanks ++ more, c)
        | (first, after) => do
          let (breaks, after) ← quotedBreaks (rest.length + 1) after
          let (more, c) ← quotedBody quote fuel after
          return (folded first breaks ++ more, c)
      else do
        let (more, c) ← quotedBody quote fuel c.advance
        return (ch :: more, c)

def quotedScalar (quote : Char) (c : Cursor) : Except Fault Reading :=
  quotedBody quote (c.rest.length + 1) c.advance

/-! ### Block scalars -/

inductive Chomping where
  | clip
  | strip
  | keep
  deriving DecidableEq, Repr

def Chomping.ofSign? : Option Char → Option Chomping
  | some '+' => some .keep
  | some '-' => some .strip
  | _ => none

def increment? (c : Option Char) : Option Nat :=
  match c with
  | some d => if '0' ≤ d ∧ d ≤ '9' then some (d.toNat - '0'.toNat) else none
  | none => none

def blockHeader? (c : Cursor) : Option (Chomping × Option Nat × Cursor) := do
  let (chomping, c) :=
    match Chomping.ofSign? c.peek with
    | some chomping => (some chomping, c.advance)
    | none => (none, c)
  let (increment, c) :=
    match increment? c.peek with
    | some n => (some n, c.advance)
    | none => (none, c)
  guard (increment ≠ some 0)
  let (chomping, c) :=
    match chomping, increment, Chomping.ofSign? c.peek with
    | none, some _, some late => (some late, c.advance)
    | chomping, _, _ => (chomping, c)
  guard (endsField c.peek)
  return (chomping.getD .clip, increment, c)

/-- The empty lines at the start of a block scalar without a given indentation, and the greatest
number of spaces before them or before the first text. -/
def blockLead : Nat → Nat → Cursor → List Char × Nat × Cursor
  | 0, deepest, c => ([], deepest, c)
  | fuel + 1, deepest, c =>
    let c := c.skipSpaces
    let deepest := max deepest c.column
    match c.lineBreak with
    | ([], c) => ([], deepest, c)
    | (break_, c) =>
      let (more, deepest, c) := blockLead fuel deepest c
      (break_ ++ more, deepest, c)

/-- The empty lines inside a block scalar, and the indentation of the line after them. -/
def blockBreaks (indent : Nat) : Nat → Cursor → Reading
  | 0, c => ([], c)
  | fuel + 1, c =>
    let c := c.skipIndent indent
    match c.lineBreak with
    | ([], c) => ([], c)
    | (break_, c) =>
      let (more, c) := blockBreaks indent fuel c
      (break_ ++ more, c)

def startsBlank (c : Cursor) : Bool := c.peek == some ' ' || c.peek == some '\t'

def blockLines (fold : Bool) (chomping : Chomping) (indent : Nat) :
    Nat → (breaks : List Char) → Cursor → Reading
  | 0, _, c => ([], c)
  | fuel + 1, breaks, c =>
    let flush := !startsBlank c
    let (line, c) := c.takeWhile fun ch => !isBreak ch
    let (first, c) := c.lineBreak
    let (after, c) := blockBreaks indent (c.rest.length + 1) c
    if c.column = indent ∧ c.peek.isSome then
      let joint :=
        if fold ∧ first = ['\n'] ∧ flush ∧ !startsBlank c then
          if after.isEmpty then [' '] else []
        else first
      let (more, c) := blockLines fold chomping indent fuel after c
      (breaks ++ line ++ joint ++ more, c)
    else
      let tail :=
        match chomping with
        | .strip => []
        | .clip => first
        | .keep => first ++ after
      (breaks ++ line ++ tail, c)

/-- A block scalar, from its indicator on, inside a collection of some indentation. -/
def blockScalar? (fold : Bool) (parent : Int) (c : Cursor) : Option Reading := do
  let (chomping, increment, c) ← blockHeader? c.advance
  let c ← c.blankLine?
  let least := (parent + 1).toNat.max 1
  let fuel := c.rest.length + 1
  let (breaks, indent, c) :=
    match increment with
    | none =>
      let (breaks, deepest, c) := blockLead fuel 0 c
      (breaks, max least deepest, c)
    | some n =>
      let indent := least + n - 1
      let (breaks, c) := blockBreaks indent fuel c
      (breaks, indent, c)
  if c.column = indent ∧ c.peek.isSome then
    return blockLines fold chomping indent fuel breaks c
  else
    return (if chomping = .keep then breaks else [], c)

end Conveyor.Yaml
