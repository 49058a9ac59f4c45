import Conveyor.Number.Text
import Conveyor.Value.Basic

/-! Values as text. The plain text of a scalar is what a template inserts and what names a job;
inside lists and mappings, texts are quoted. -/

namespace Conveyor

def padded (width n : Nat) : String :=
  let digits := Nat.toDigits 10 n
  String.ofList (List.replicate (width - digits.length) '0' ++ digits)

namespace Date

def text (d : Date) : String :=
  padded 4 d.year ++ "-" ++ padded 2 d.month ++ "-" ++ padded 2 d.day

def quoted (d : Date) : String :=
  s!"datetime.date({d.year}, {d.month}, {d.day})"

end Date

namespace Timestamp

def offsetText (minutes : Int) : String :=
  let sign := if minutes < 0 then "-" else "+"
  sign ++ padded 2 (minutes.natAbs / 60) ++ ":" ++ padded 2 (minutes.natAbs % 60)

def text (t : Timestamp) : String :=
  t.date.text ++ " " ++ padded 2 t.hour ++ ":" ++ padded 2 t.minute ++ ":" ++ padded 2 t.second ++
    (if t.microsecond = 0 then "" else "." ++ padded 6 t.microsecond) ++
    (match t.offset with
     | none => ""
     | some minutes => offsetText minutes)

def quotedSpan (minutes : Int) : String :=
  let days := minutes.fdiv 1440
  let seconds := (minutes - days * 1440) * 60
  let parts :=
    (if days = 0 then [] else [s!"days={days}"]) ++
    (if seconds = 0 then [] else [s!"seconds={seconds}"])
  "datetime.timedelta(" ++ ", ".intercalate parts ++ ")"

def quotedOffset (minutes : Int) : String :=
  if minutes = 0 then "datetime.timezone.utc"
  else "datetime.timezone(" ++ quotedSpan minutes ++ ")"

def quoted (t : Timestamp) : String :=
  let core := [t.date.year, t.date.month, t.date.day, t.hour, t.minute]
  let rest :=
    if t.microsecond ≠ 0 then [t.second, t.microsecond]
    else if t.second ≠ 0 then [t.second]
    else []
  let zone :=
    match t.offset with
    | none => []
    | some minutes => ["tzinfo=" ++ quotedOffset minutes]
  "datetime.datetime(" ++ ", ".intercalate ((core ++ rest).map toString ++ zone) ++ ")"

end Timestamp

namespace Value

def boolText (b : Bool) : String := if b then "True" else "False"

def againText (isMap : Bool) : String := if isMap then "\x7b...\x7d" else "[...]"

mutual
def quoted : Value → String
  | .null => "None"
  | .bool b => boolText b
  | .int i => toString i
  | .float d => d.text
  | .str s => Text.quoted s
  | .bytes b => Text.quotedBytes b
  | .date d => d.quoted
  | .timestamp t => t.quoted
  | .list items => "[" ++ ", ".intercalate (quotedItems items) ++ "]"
  | .tuple [item] => "(" ++ item.quoted ++ ",)"
  | .tuple items => "(" ++ ", ".intercalate (quotedItems items) ++ ")"
  | .set [] => "set()"
  | .set items => "\x7b" ++ ", ".intercalate (quotedItems items) ++ "\x7d"
  | .map entries => "\x7b" ++ ", ".intercalate (quotedEntries entries) ++ "\x7d"
  | .knot _ collection => collection.quoted
  | .again _ isMap => againText isMap

def quotedItems : List Value → List String
  | [] => []
  | item :: items => item.quoted :: quotedItems items

def quotedEntries : List (Value × Value) → List String
  | [] => []
  | (k, v) :: entries => (k.quoted ++ ": " ++ v.quoted) :: quotedEntries entries
end

def text : Value → String
  | .str s => s
  | .date d => d.text
  | .timestamp t => t.text
  | v => v.quoted

mutual
def isUnwritable : Value → Bool
  | .int i => (Number.int i).isUnwritable
  | .list items => anyUnwritable items
  | .tuple items => anyUnwritable items
  | .set items => anyUnwritable items
  | .map entries => anyEntryUnwritable entries
  | .knot _ collection => collection.isUnwritable
  | _ => false

def anyUnwritable : List Value → Bool
  | [] => false
  | item :: items => item.isUnwritable || anyUnwritable items

def anyEntryUnwritable : List (Value × Value) → Bool
  | [] => false
  | (k, v) :: entries => k.isUnwritable || v.isUnwritable || anyEntryUnwritable entries
end

def unwritableMessage : String :=
  s!"Exceeds the limit ({Number.digitLimit} digits) for integer string conversion; " ++
    "use sys.set_int_max_str_digits() to increase the limit"

end Value
end Conveyor
