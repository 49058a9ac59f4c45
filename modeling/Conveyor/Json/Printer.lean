import Conveyor.Json.Basic
import Conveyor.Number.Text

/-! JSON text: on one line, or with every item on a line of its own. -/

namespace Conveyor.Json

def unitEscape (n : Nat) : List Char := '\\' :: 'u' :: Text.hexDigits 4 n

def escape (c : Char) : List Char :=
  let n := c.toNat
  if n < 0x10000 then unitEscape n
  else
    let m := n - 0x10000
    unitEscape (0xd800 + m / 0x400) ++ unitEscape (0xdc00 + m % 0x400)

def textChar (ascii : Bool) (c : Char) : List Char :=
  if c = '"' then ['\\', '"']
  else if c = '\\' then ['\\', '\\']
  else if c = '\n' then ['\\', 'n']
  else if c = '\r' then ['\\', 'r']
  else if c = '\t' then ['\\', 't']
  else if c.toNat = 0x08 then ['\\', 'b']
  else if c.toNat = 0x0c then ['\\', 'f']
  else if c.toNat < 0x20 then escape c
  else if ascii ∧ 0x7e < c.toNat then escape c
  else [c]

def textLiteral (ascii : Bool) (s : String) : String :=
  String.ofList ('"' :: s.toList.flatMap (textChar ascii) ++ ['"'])

def floatLiteral : Double → String
  | .nan _ => "NaN"
  | .infinite negative => if negative then "-Infinity" else "Infinity"
  | d => d.text

mutual
def compact (ascii : Bool) : Json → String
  | .null => "null"
  | .bool b => if b then "true" else "false"
  | .int i => toString i
  | .float d => floatLiteral d
  | .str s => textLiteral ascii s
  | .arr items => "[" ++ ",".intercalate (compactItems ascii items) ++ "]"
  | .obj fields => "\x7b" ++ ",".intercalate (compactFields ascii fields) ++ "\x7d"

def compactItems (ascii : Bool) : List Json → List String
  | [] => []
  | item :: items => item.compact ascii :: compactItems ascii items

def compactFields (ascii : Bool) : List (String × Json) → List String
  | [] => []
  | (name, value) :: fields =>
    (textLiteral ascii name ++ ":" ++ value.compact ascii) :: compactFields ascii fields
end

def lineBreak (level : Nat) : String := "\n" ++ String.ofList (List.replicate (2 * level) ' ')

def block (opening closing : String) (level : Nat) (items : List String) : String :=
  if items.isEmpty then opening ++ closing
  else
    opening ++ lineBreak (level + 1) ++
      ("," ++ lineBreak (level + 1)).intercalate items ++ lineBreak level ++ closing

mutual
def pretty (ascii : Bool) (level : Nat) : Json → String
  | .null => "null"
  | .bool b => if b then "true" else "false"
  | .int i => toString i
  | .float d => floatLiteral d
  | .str s => textLiteral ascii s
  | .arr items => block "[" "]" level (prettyItems ascii (level + 1) items)
  | .obj fields => block "\x7b" "\x7d" level (prettyFields ascii (level + 1) fields)

def prettyItems (ascii : Bool) (level : Nat) : List Json → List String
  | [] => []
  | item :: items => item.pretty ascii level :: prettyItems ascii level items

def prettyFields (ascii : Bool) (level : Nat) : List (String × Json) → List String
  | [] => []
  | (name, value) :: fields =>
    (textLiteral ascii name ++ ": " ++ value.pretty ascii level) ::
      prettyFields ascii level fields
end

end Conveyor.Json
