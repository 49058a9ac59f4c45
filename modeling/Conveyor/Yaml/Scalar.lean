import Conveyor.Base64
import Conveyor.Text.Case
import Conveyor.Text.Split
import Conveyor.Yaml.Fault
import Conveyor.Yaml.Tag

/-! The values of scalars. Numbers may be written with underscores, to several bases, and to the base
of sixty with colons between the parts. -/

namespace Conveyor.Yaml

def wholeTo (base : Nat) (cs : List Char) : Except Fault Int :=
  (Number.readWhole base cs).mapError (.badInteger base (String.ofList cs))

def intValue (s : String) : Except Fault Int := do
  let cs := s.toList.filter (· ≠ '_')
  if cs.isEmpty then throw .emptyNumber
  let body := unsigned cs
  let signed := fun (i : Int) => if cs.head? = some '-' then -i else i
  match body with
  | [] => throw .emptyNumber
  | ['0'] => return 0
  | '0' :: 'b' :: digits => return signed (← wholeTo 2 digits)
  | '0' :: 'x' :: digits => return signed (← wholeTo 16 digits)
  | '0' :: _ => return signed (← wholeTo 8 body)
  | _ =>
    if body.contains ':' then
      let parts ← (Text.splitChars ':' body).mapM (wholeTo 10)
      return signed (parts.foldl (fun n d => 60 * n + d) 0)
    else return signed (← wholeTo 10 body)

def decimal (cs : List Char) : Except Fault Double :=
  match Number.readDouble? (String.ofList cs) with
  | some d => .ok d
  | none => .error (.badFloat (String.ofList cs))

/-- The sum of parts to the base sixty, the last of them first, added to the sum so far. The unit of
every part has to be a binary number. -/
def sexagesimal (sum : Double) (unit : Nat) : List Double → Except Fault Double
  | [] => .ok sum
  | part :: parts =>
    match Double.ofInt unit with
    | .infinite _ => .error .floatOverflow
    | size => sexagesimal (sum.add (part.mul size)) (60 * unit) parts

/-- The value of a number with a point. The word for the undefined number always means the same one;
any other text without a value means one of its own, with the given payload. -/
def floatValue (payload : Nat) (s : String) : Except Fault Double := do
  let cs := (Text.lower (String.ofList (s.toList.filter (· ≠ '_')))).toList
  if cs.isEmpty then throw .emptyNumber
  let body := unsigned cs
  let signed := fun (d : Double) =>
    (if cs.head? = some '-' then d.neg else d).withPayload payload
  let word := String.ofList body
  if word = ".inf" then return signed (.infinite false)
  else if word = ".nan" then return .nan 0
  else if body.contains ':' then
    let parts ← (Text.splitChars ':' body).mapM decimal
    return signed (← sexagesimal Double.zero 1 parts.reverse)
  else return signed (← decimal body)

def dateValue (year month day : Nat) : Except Fault Date :=
  if year = 0 then .error (.badYear year)
  else if month = 0 ∨ 12 < month then .error .badMonth
  else if day = 0 ∨ Date.daysIn year month < day then .error .badDay
  else .ok { year, month, day }

def natValue (cs : List Char) : Nat := Number.digitsTo 10 (cs.map fun c => c.toNat - '0'.toNat)

def offsetValue : Option (Char × List Char × List Char) → Except Fault (Option Int)
  | none => .ok none
  | some ('Z', _, _) => .ok (some 0)
  | some (sign, hour, minute) =>
    let size := 60 * natValue hour + natValue minute
    let minutes : Int := if sign = '-' then -size else size
    if 24 * 60 ≤ size then .error (.badOffset minutes) else .ok (some minutes)

def timestampValue (s : String) : Except Fault Value := do
  match timestamp? (withoutFinalBreak s.toList) with
  | none => throw .badTimestamp
  | some t =>
    match t.time with
    | none => return .date (← dateValue (natValue t.year) (natValue t.month) (natValue t.day))
    | some (hour, minute, second) =>
      let offset ← offsetValue t.zone
      let date ← dateValue (natValue t.year) (natValue t.month) (natValue t.day)
      if 23 < natValue hour then throw (.badTime "hour" 23)
      if 59 < natValue minute then throw (.badTime "minute" 59)
      if 59 < natValue second then throw (.badTime "second" 59)
      let fraction := t.fraction.take 6
      let microsecond :=
        natValue (fraction ++ List.replicate (6 - fraction.length) '0')
      return .timestamp
        { date, hour := natValue hour, minute := natValue minute, second := natValue second,
          microsecond, offset }

def boolValue (s : String) : Except Fault Bool :=
  let word := Text.lower s
  if ["yes", "true", "on"].contains word then .ok true
  else if ["no", "false", "off"].contains word then .ok false
  else .error (.unknownBoolean word)

def bytesValue (s : String) : Except Fault Blob :=
  match if s.toList.all (·.toNat < 0x80) then Base64.decode? s else none with
  | some bytes => .ok bytes
  | none => .error .malformed

/-- The value of a scalar of a kind. The payload is that of an undefined number of its own. -/
def scalarValue (payload : Nat) (text : String) : Tag → Except Fault Value
  | .null => .ok .null
  | .bool => return .bool (← boolValue text)
  | .int => return .int (← intValue text)
  | .float => return .float (← floatValue payload text)
  | .str => .ok (.str text)
  | .binary => return .bytes (← bytesValue text)
  | .timestamp => timestampValue text
  | _ => .error .malformed

end Conveyor.Yaml
