import Conveyor.Json.Basic
import Conveyor.Number.Text

/-! Reading JSON text. Of several fields with one name, the last value counts at the place of the
first. The depth of nesting is bounded by the length of the text, which the reader uses as fuel. -/

namespace Conveyor.Json

def skipBlanks (cs : List Char) : List Char :=
  cs.dropWhile fun c => c = ' ' || c = '\n' || c = '\r' || c = '\t'

def hexUnit? : List Char → Option (Nat × List Char)
  | a :: b :: c :: d :: rest => do
    let w ← Blob.hexValue? a
    let x ← Blob.hexValue? b
    let y ← Blob.hexValue? c
    let z ← Blob.hexValue? d
    return (((w * 16 + x) * 16 + y) * 16 + z, rest)
  | _ => none

/-- The character of an escape without the backslash, and the rest. Two units that form a pair give
one character. -/
def unescape? : List Char → Option (Char × List Char)
  | 'n' :: rest => some ('\n', rest)
  | 'r' :: rest => some ('\r', rest)
  | 't' :: rest => some ('\t', rest)
  | 'b' :: rest => some ('\x08', rest)
  | 'f' :: rest => some ('\x0c', rest)
  | '"' :: rest => some ('"', rest)
  | '\\' :: rest => some ('\\', rest)
  | '/' :: rest => some ('/', rest)
  | 'u' :: rest => do
    let (high, rest) ← hexUnit? rest
    if 0xd800 ≤ high ∧ high < 0xdc00 then
      match rest with
      | '\\' :: 'u' :: more =>
        let (low, rest) ← hexUnit? more
        if 0xdc00 ≤ low ∧ low < 0xe000 then
          return (Char.ofNat (0x10000 + (high - 0xd800) * 0x400 + (low - 0xdc00)), rest)
        else none
      | _ => none
    else return (Char.ofNat high, rest)
  | _ => none

def textBody? : Nat → List Char → Option (List Char × List Char)
  | 0, _ => none
  | _, [] => none
  | _ + 1, '"' :: rest => some ([], rest)
  | fuel + 1, '\\' :: rest => do
    let (c, rest) ← unescape? rest
    let (cs, rest) ← textBody? fuel rest
    return (c :: cs, rest)
  | fuel + 1, c :: rest => do
    let (cs, rest) ← textBody? fuel rest
    return (c :: cs, rest)

def isNumberChar (c : Char) : Bool :=
  c.isDigit || c = '-' || c = '+' || c = '.' || c = 'e' || c = 'E'

def number? (cs : List Char) : Option (Json × List Char) :=
  let body := String.ofList (cs.takeWhile isNumberChar)
  let rest := cs.dropWhile isNumberChar
  match Number.readInt? body with
  | some i => some (.int i, rest)
  | none => (Number.readDouble? body).map fun d => (.float d, rest)

mutual
def value? : Nat → List Char → Option (Json × List Char)
  | 0, _ => none
  | fuel + 1, cs =>
    match skipBlanks cs with
    | [] => none
    | 'n' :: 'u' :: 'l' :: 'l' :: rest => some (.null, rest)
    | 't' :: 'r' :: 'u' :: 'e' :: rest => some (.bool true, rest)
    | 'f' :: 'a' :: 'l' :: 's' :: 'e' :: rest => some (.bool false, rest)
    | '"' :: rest => do
      let (body, rest) ← textBody? (rest.length + 1) rest
      return (.str (String.ofList body), rest)
    | '[' :: rest =>
      match skipBlanks rest with
      | ']' :: rest => some (.arr [], rest)
      | rest => do
        let (items, rest) ← items? fuel rest
        return (.arr items, rest)
    | '\x7b' :: rest =>
      match skipBlanks rest with
      | '\x7d' :: rest => some (.obj [], rest)
      | rest => do
        let (fields, rest) ← fields? fuel rest
        return (.obj (Table.ofPairs fields), rest)
    | cs => number? cs

def items? : Nat → List Char → Option (List Json × List Char)
  | 0, _ => none
  | fuel + 1, cs => do
    let (item, rest) ← value? fuel cs
    match skipBlanks rest with
    | ',' :: rest =>
      let (items, rest) ← items? fuel rest
      return (item :: items, rest)
    | ']' :: rest => return ([item], rest)
    | _ => none

def fields? : Nat → List Char → Option (List (String × Json) × List Char)
  | 0, _ => none
  | fuel + 1, cs =>
    match skipBlanks cs with
    | '"' :: rest => do
      let (name, rest) ← textBody? (rest.length + 1) rest
      match skipBlanks rest with
      | ':' :: rest =>
        let (value, rest) ← value? fuel rest
        match skipBlanks rest with
        | ',' :: rest =>
          let (fields, rest) ← fields? fuel rest
          return ((String.ofList name, value) :: fields, rest)
        | '\x7d' :: rest => return ([(String.ofList name, value)], rest)
        | _ => none
      | _ => none
    | _ => none
end

def read? (s : String) : Option Json := do
  let cs := s.toList
  let (value, rest) ← value? (2 * cs.length + 2) cs
  if (skipBlanks rest).isEmpty then return value else none

end Conveyor.Json
