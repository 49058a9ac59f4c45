/-! The kinds of nodes, and the kind of a scalar without a tag. -/

namespace Conveyor.Yaml

inductive Tag where
  | null
  | bool
  | int
  | float
  | str
  | binary
  | timestamp
  | seq
  | map
  | set
  | omap
  | pairs
  | merge
  | value
  | other (uri : String)
  deriving DecidableEq, Repr

def standardBase : String := "tag:yaml.org,2002:"

def Tag.ofUri (uri : String) : Tag :=
  let standard := [("null", Tag.null), ("bool", .bool), ("int", .int), ("float", .float),
    ("str", .str), ("binary", .binary), ("timestamp", .timestamp), ("seq", .seq), ("map", .map),
    ("set", .set), ("omap", .omap), ("pairs", .pairs), ("merge", .merge), ("value", .value)]
  match standard.find? fun (name, _) => standardBase ++ name = uri with
  | some (_, tag) => tag
  | none => .other uri

def isDecimal (c : Char) : Bool := '0' ≤ c && c ≤ '9'
def isDecimalOrBar (c : Char) : Bool := isDecimal c || c == '_'

def unsigned : List Char → List Char
  | '+' :: rest => rest
  | '-' :: rest => rest
  | cs => cs

def isBoolWord (cs : List Char) : Bool :=
  ["yes", "Yes", "YES", "no", "No", "NO", "true", "True", "TRUE", "false", "False", "FALSE",
    "on", "On", "ON", "off", "Off", "OFF"].contains (String.ofList cs)

def isNullWord (cs : List Char) : Bool :=
  ["", "~", "null", "Null", "NULL"].contains (String.ofList cs)

/-- Parts to the base of sixty after the first: a colon and one or two digits, below sixty. -/
def isSexagesimalTail : List Char → Bool
  | ':' :: a :: b :: rest =>
    if isDecimal b then '0' ≤ a && a ≤ '5' && (rest.isEmpty || isSexagesimalTail rest)
    else isDecimal a && isSexagesimalTail (b :: rest)
  | [':', a] => isDecimal a
  | _ => false

def isExponent : List Char → Bool
  | [] => true
  | mark :: sign :: digits =>
    (mark == 'e' || mark == 'E') && (sign == '+' || sign == '-') &&
      !digits.isEmpty && digits.all isDecimal
  | _ => false

def isInfinityWord (cs : List Char) : Bool := [".inf", ".Inf", ".INF"].contains (String.ofList cs)

def isNanWord (cs : List Char) : Bool := [".nan", ".NaN", ".NAN"].contains (String.ofList cs)

/-- Numbers with a point. Without a digit before the point there is no sign. -/
def isFloatText (cs : List Char) : Bool :=
  let body := unsigned cs
  let whole := body.takeWhile isDecimalOrBar
  let startsWithDigit := body.head?.any isDecimal
  let afterWhole := body.dropWhile isDecimalOrBar
  let pointed := match afterWhole with
    | '.' :: more => startsWithDigit && isExponent (more.dropWhile isDecimalOrBar)
    | _ => false
  let bare := match cs with
    | '.' :: d :: more => isDecimal d && isExponent (more.dropWhile isDecimalOrBar)
    | _ => false
  let sexagesimal :=
    startsWithDigit && !whole.isEmpty &&
      (match afterWhole.span (· ≠ '.') with
       | (tail, '.' :: fraction) => isSexagesimalTail tail && fraction.all isDecimalOrBar
       | _ => false)
  pointed || bare || sexagesimal || isInfinityWord body || isNanWord cs

def isIntText (cs : List Char) : Bool :=
  let body := unsigned cs
  match body with
  | ['0'] => true
  | '0' :: 'b' :: digits =>
    !digits.isEmpty && digits.all fun c => c == '0' || c == '1' || c == '_'
  | '0' :: 'x' :: digits =>
    !digits.isEmpty && digits.all fun c =>
      isDecimal c || ('a' ≤ c && c ≤ 'f') || ('A' ≤ c && c ≤ 'F') || c == '_'
  | '0' :: digits => digits.all fun c => ('0' ≤ c && c ≤ '7') || c == '_'
  | c :: rest =>
    isDecimal c &&
      (let tail := rest.dropWhile isDecimalOrBar
       tail.isEmpty || isSexagesimalTail tail)
  | [] => false

structure TimestampText where
  year : List Char
  month : List Char
  day : List Char
  time : Option (List Char × List Char × List Char)
  fraction : List Char
  zone : Option (Char × List Char × List Char)

def oneOrTwo? : List Char → Option (List Char × List Char)
  | a :: b :: rest =>
    if isDecimal a then
      if isDecimal b then some ([a, b], rest) else some ([a], b :: rest)
    else none
  | [a] => if isDecimal a then some ([a], []) else none
  | [] => none

def two? : List Char → Option (List Char × List Char)
  | a :: b :: rest => if isDecimal a && isDecimal b then some ([a, b], rest) else none
  | _ => none

def after? (c : Char) : List Char → Option (List Char)
  | d :: rest => if c = d then some rest else none
  | [] => none

def zone? (cs : List Char) : Option (Option (Char × List Char × List Char)) :=
  match cs.dropWhile fun c => c == ' ' || c == '\t' with
  | [] => if cs.isEmpty then some none else none
  | ['Z'] => some (some ('Z', [], []))
  | sign :: rest =>
    if sign = '+' ∨ sign = '-' then
      match oneOrTwo? rest with
      | some (hour, []) => some (some (sign, hour, []))
      | some (hour, ':' :: minute) =>
        match two? minute with
        | some (minute, []) => some (some (sign, hour, minute))
        | _ => none
      | _ => none
    else none

def timestamp? (cs : List Char) : Option TimestampText := do
  let year := cs.take 4
  guard (year.length = 4 && year.all isDecimal)
  let (month, rest) ← oneOrTwo? (← after? '-' (cs.drop 4))
  let (day, rest) ← oneOrTwo? (← after? '-' rest)
  if rest.isEmpty then return { year, month, day, time := none, fraction := [], zone := none }
  let rest ← match rest with
    | 'T' :: more => some more
    | 't' :: more => some more
    | c :: more =>
      if c = ' ' ∨ c = '\t' then some (more.dropWhile fun c => c == ' ' || c == '\t') else none
    | [] => none
  let (hour, rest) ← oneOrTwo? rest
  let (minute, rest) ← two? (← after? ':' rest)
  let (second, rest) ← two? (← after? ':' rest)
  let (fraction, rest) := match rest with
    | '.' :: more => more.span isDecimal
    | _ => ([], rest)
  let zone ← zone? rest
  return { year, month, day, time := some (hour, minute, second), fraction, zone }

/-- Dates without a time of day have two digits for month and day when they carry no tag. -/
def isTimestampText (cs : List Char) : Bool :=
  match timestamp? cs with
  | some t => t.time.isSome || (t.month.length == 2 && t.day.length == 2)
  | none => false

/-- A text without the line feed at its end, which does not count where the kind is found. A line
feed alone is kept. -/
def withoutFinalBreak (cs : List Char) : List Char :=
  if 1 < cs.length ∧ cs.getLast? = some '\n' then cs.dropLast else cs

def Tag.ofPlain (s : String) : Tag :=
  let cs := withoutFinalBreak s.toList
  if isBoolWord cs then .bool
  else if isFloatText cs then .float
  else if isIntText cs then .int
  else if cs = "<<".toList then .merge
  else if isNullWord cs then .null
  else if isTimestampText cs then .timestamp
  else if cs = "=".toList then .value
  else .str

end Conveyor.Yaml
