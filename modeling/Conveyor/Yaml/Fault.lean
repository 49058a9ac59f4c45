import Conveyor.Value.Text

/-! Why a text has no value. A scalar may have the form of its kind, or the tag of a kind, without
being one of its values. -/

namespace Conveyor.Yaml

inductive Fault where
  | malformed
  | codePoint (n : Nat)
  | emptyNumber
  | unknownBoolean (word : String)
  | badInteger (base : Nat) (text : String) (fault : Number.WholeFault)
  | badFloat (text : String)
  | floatOverflow
  | badTimestamp
  | timestampInMapping
  | badOffset (minutes : Int)
  | badMonth
  | badDay
  | badYear (year : Nat)
  | badTime (part : String) (limit : Nat)
  deriving DecidableEq, Repr

namespace Fault

def message : Fault → String
  | .malformed => "not valid YAML"
  | .codePoint n =>
    if n < Nat.pow 2 31 then "chr() arg not in range(0x110000)"
    else "Python int too large to convert to C int"
  | .emptyNumber => "string index out of range"
  | .unknownBoolean word => Text.quoted word
  | .badInteger base text fault => fault.message base text
  | .badFloat text => "could not convert string to float: " ++ Text.quoted text
  | .floatOverflow => "int too large to convert to float"
  | .badTimestamp => "\x27NoneType\x27 object has no attribute \x27groupdict\x27"
  | .timestampInMapping => "expected string or bytes-like object, got \x27list\x27"
  | .badOffset minutes =>
    "offset must be a timedelta strictly between -timedelta(hours=24) and timedelta(hours=24), not " ++
      Timestamp.quotedSpan minutes ++ "."
  | .badMonth => "month must be in 1..12"
  | .badDay => "day is out of range for month"
  | .badYear year => s!"year {year} is out of range"
  | .badTime part limit => s!"{part} must be in 0..{limit}"

def kind : Fault → String
  | .codePoint n => if n < Nat.pow 2 31 then "ValueError" else "OverflowError"
  | .emptyNumber => "IndexError"
  | .unknownBoolean _ => "KeyError"
  | .floatOverflow => "OverflowError"
  | .badTimestamp => "AttributeError"
  | .timestampInMapping => "TypeError"
  | _ => "ValueError"

end Fault
end Conveyor.Yaml
