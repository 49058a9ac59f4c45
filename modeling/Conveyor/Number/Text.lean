import Conveyor.Number.Shortest
import Conveyor.Text.Blank
import Conveyor.Text.Digit
import Conveyor.Text.Quoted

/-! Numbers as text. Printing gives the fewest digits that read back, positionally for moderate
exponents, or six significant digits where a message wants a rounded figure. Reading takes decimal
digits of any script, single underscores between digits, and white space around the number. -/

namespace Conveyor

structure DigitLayout where
  /-- Leading powers from the first to the second are written without an exponent. -/
  positionalFrom : Int
  positionalTo : Int
  /-- Whether a positional number without fraction ends in a point and a zero. -/
  keepsPoint : Bool

namespace DigitLayout

def exponentText (power : Int) : List Char :=
  let digits := Nat.toDigits 10 power.natAbs
  'e' :: (if power < 0 then '-' else '+') :: List.replicate (2 - digits.length) '0' ++ digits

def render (layout : DigitLayout) (d : Decimal) : List Char :=
  let digits := d.chars
  let power := d.leading
  let count : Int := digits.length
  if power < layout.positionalFrom ∨ layout.positionalTo < power then
    match digits with
    | [] => []
    | [only] => only :: exponentText power
    | first :: rest => first :: '.' :: rest ++ exponentText power
  else if power < 0 then
    '0' :: '.' :: List.replicate (-power - 1).toNat '0' ++ digits
  else if count ≤ power + 1 then
    digits ++ List.replicate (power + 1 - count).toNat '0' ++
      (if layout.keepsPoint then ['.', '0'] else [])
  else
    digits.take (power + 1).toNat ++ '.' :: digits.drop (power + 1).toNat

/-- The layout of values: positional from `0.0001` to below `10 ^ 16`, a fraction always shown. -/
def value : DigitLayout := ⟨-4, 15, true⟩

/-- The layout of rounded figures: positional from `0.0001` to below `10 ^ 6`. -/
def figure : DigitLayout := ⟨-4, 5, false⟩

def write (layout : DigitLayout) (decimal : Nat → Int → Decimal) : Double → String
  | .nan _ => "nan"
  | .infinite negative => if negative then "-inf" else "inf"
  | .finite negative significand exponent =>
    let digits :=
      if significand = 0 then (if layout.keepsPoint then ['0', '.', '0'] else ['0'])
      else layout.render (decimal significand exponent)
    String.ofList (if negative then '-' :: digits else digits)

end DigitLayout

namespace Double

def text (d : Double) : String := DigitLayout.value.write shortest d

def figure (d : Double) : String := DigitLayout.figure.write (significant 6) d

end Double

inductive Number where
  | int (i : Int)
  | float (d : Double)
  deriving DecidableEq, Repr, Inhabited

namespace Number

open Text

def toDouble : Number → Double
  | .int i => .ofInt i
  | .float d => d

def text : Number → String
  | .int i => toString i
  | .float d => d.text

def figure (n : Number) : String := n.toDouble.figure

def sub : Number → Number → Number
  | .int a, .int b => .int (a - b)
  | a, b => .float (a.toDouble.sub b.toDouble)

def isNonPositive : Number → Bool
  | .int i => i ≤ 0
  | .float d => d.le Double.zero

def isZero : Number → Bool
  | .int i => i = 0
  | .float d => d.isZero

/-- Whether a whole number is beyond the range of doubles. -/
def isTooLarge : Number → Bool
  | .int i => (Double.ofInt i).isInfinite
  | .float _ => false

def digitsTo (base : Nat) (digits : List Nat) : Nat := digits.foldl (fun n d => base * n + d) 0

def digitsValue (digits : List Nat) : Nat := digitsTo 10 digits

def digitTo? (base : Nat) (c : Char) : Option Nat :=
  let value? := digitValue? c <|> (if c.isAlpha then Blob.hexValue? c else none)
  value?.filter (· < base)

/-- The digits at the start of a text, single underscores between them allowed, and the rest. -/
def takeDigits (base : Nat) : List Char → List Nat × List Char
  | [] => ([], [])
  | '_' :: c :: rest =>
    match digitTo? base c with
    | some _ =>
      let (digits, rest) := takeDigits base (c :: rest)
      (digits, rest)
    | none => ([], '_' :: c :: rest)
  | c :: rest =>
    match digitTo? base c with
    | some d =>
      let (digits, rest) := takeDigits base rest
      (d :: digits, rest)
    | none => ([], c :: rest)

def readDigits (cs : List Char) : List Nat × List Char :=
  match cs with
  | '_' :: _ => ([], cs)
  | _ => takeDigits 10 cs

def readSign : List Char → Bool × List Char
  | '-' :: rest => (true, rest)
  | '+' :: rest => (false, rest)
  | cs => (false, cs)

def baseMark? : Nat → Option Char
  | 2 => some 'b'
  | 8 => some 'o'
  | 16 => some 'x'
  | _ => none

def afterMark (base : Nat) (cs : List Char) : List Char :=
  match cs with
  | zero :: mark :: rest =>
    if digitValue? zero = some 0 ∧ baseMark? base = some mark.toLower then
      match rest with
      | '_' :: digits => digits
      | digits => digits
    else cs
  | cs => cs

/-- The number of decimal digits that a whole number may have to be written or read. -/
def digitLimit : Nat := 4300

def isUnwritable : Number → Bool
  | .int i => digitLimit < (Nat.toDigits 10 i.natAbs).length
  | .float _ => false

/-- Why a text is no whole number: it has another form, or too many decimal digits. -/
inductive WholeFault where
  | malformed
  | tooLong (digits : Nat)
  deriving DecidableEq, Repr

/-- What is said of a text that is no whole number to a base. Of a long text only the beginning is
quoted. -/
def WholeFault.message (base : Nat) (text : String) : WholeFault → String
  | .malformed =>
    s!"invalid literal for int() with base {base}: " ++
      String.ofList ((Text.quoted text).toList.take 200)
  | .tooLong digits =>
    s!"Exceeds the limit ({digitLimit} digits) for integer string conversion: " ++
      s!"value has {digits} digits; use sys.set_int_max_str_digits() to increase the limit"

/-- A whole number to a base, with a sign and the announcement of the base before it if there are
any, and white space around it. -/
def readWhole (base : Nat) (cs : List Char) : Except WholeFault Int :=
  let (negative, rest) := readSign (trimSpace cs)
  let body := afterMark base rest
  match if body.head? = some '_' then ([], body) else takeDigits base body with
  | (digit :: digits, rest) =>
    if base = 10 ∧ digitLimit < digits.length + 1 then .error (.tooLong (digits.length + 1))
    else if rest.isEmpty then
      let n : Int := digitsTo base (digit :: digits)
      .ok (if negative then -n else n)
    else .error .malformed
  | _ => .error .malformed

def wholeMessage (base : Nat) (text : String) : String :=
  match readWhole base text.toList with
  | .ok _ => ""
  | .error fault => fault.message base text

def readInt? (s : String) : Option Int := (readWhole 10 s.toList).toOption

def readExponent? : List Char → Option Int
  | [] => some 0
  | mark :: rest =>
    if mark = 'e' ∨ mark = 'E' then
      let (negative, rest) := readSign rest
      match readDigits rest with
      | (digit :: digits, []) =>
        let n : Int := digitsValue (digit :: digits)
        some (if negative then -n else n)
      | _ => none
    else none

def readMagnitude? (negative : Bool) (cs : List Char) : Option Double :=
  let (whole, rest) := readDigits cs
  let (fraction, rest) :=
    match rest with
    | '.' :: more => readDigits more
    | _ => ([], rest)
  if whole.isEmpty ∧ fraction.isEmpty then none
  else
    (readExponent? rest).map fun exponent =>
      Double.ofDecimal negative (digitsValue (whole ++ fraction)) (exponent - fraction.length)

/-- A number with white space around it, or one of the words for infinity and `nan` in any case. -/
def readDouble? (s : String) : Option Double :=
  let (negative, rest) := readSign (trimSpace s.toList)
  let word := String.ofList (rest.map Char.toLower)
  if word = "inf" ∨ word = "infinity" then some (.infinite negative)
  else if word = "nan" then some (.nan 0)
  else readMagnitude? negative rest

end Number
end Conveyor
