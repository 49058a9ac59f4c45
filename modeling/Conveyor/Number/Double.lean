/-! Binary64 numbers as exact data. A finite number is a signed significand times a power of two;
every operation computes the exact result over the natural numbers and then rounds it once, to the
nearest representable number and to an even significand between two equally near ones. -/

namespace Conveyor

/-- A binary64 number. A finite one stands for `± significand * 2 ^ exponent`; values built by
`Double.ofRatio` keep the significand below `2 ^ 53`, the exponent from `-1074` to `971`, and the
significand at `2 ^ 52` or more unless the exponent is the least one. An undefined number has a
payload, which tells undefined numbers of different origin apart and has no part in arithmetic. -/
inductive Double where
  | nan (payload : Nat)
  | infinite (negative : Bool)
  | finite (negative : Bool) (significand : Nat) (exponent : Int)
  deriving DecidableEq, Repr, Inhabited

namespace Double

def zero : Double := .finite false 0 (-1074)

def leastExponent : Int := -1074

def greatestExponent : Int := 971

def roundQuotient (numerator denominator : Nat) : Nat :=
  let quotient := numerator / denominator
  let doubled := 2 * (numerator % denominator)
  if denominator < doubled ∨ (doubled = denominator ∧ quotient % 2 = 1) then quotient + 1
  else quotient

/-- `numerator / denominator`, scaled by `2 ^ (-exponent)`, as a fraction of natural numbers. -/
def scaled (numerator denominator : Nat) (exponent : Int) : Nat × Nat :=
  if exponent < 0 then (numerator * Nat.pow 2 (-exponent).toNat, denominator)
  else (numerator, denominator * Nat.pow 2 exponent.toNat)

/-- The exponent at which the fraction has a significand of 53 bits, no smaller than the least. -/
def fittingExponent (numerator denominator : Nat) : Int :=
  let guess : Int := (numerator.log2 : Int) - (denominator.log2 : Int) - 52
  let (n, d) := scaled numerator denominator guess
  max leastExponent (if n / d < Nat.pow 2 52 then guess - 1 else guess)

def ofRatio (negative : Bool) (numerator denominator : Nat) : Double :=
  if numerator = 0 then .finite negative 0 leastExponent
  else
    let exponent := fittingExponent numerator denominator
    let (n, d) := scaled numerator denominator exponent
    let rounded := roundQuotient n d
    let (significand, exponent) :=
      if rounded = Nat.pow 2 53 then (Nat.pow 2 52, exponent + 1) else (rounded, exponent)
    if greatestExponent < exponent then .infinite negative
    else .finite negative significand exponent

def ofScaled (negative : Bool) (magnitude : Nat) (exponent : Int) : Double :=
  if exponent < 0 then ofRatio negative magnitude (Nat.pow 2 (-exponent).toNat)
  else ofRatio negative (magnitude * Nat.pow 2 exponent.toNat) 1

/-- The number nearest to `± digits * 10 ^ exponent`. Exponents that settle the answer whatever the
digits are answered without computing the power. -/
def ofDecimal (negative : Bool) (digits : Nat) (exponent : Int) : Double :=
  if digits = 0 ∨ exponent + ((Nat.toDigits 10 digits).length : Int) < -330 then
    .finite negative 0 leastExponent
  else if 310 < exponent then .infinite negative
  else if exponent < 0 then ofRatio negative digits (Nat.pow 10 (-exponent).toNat)
  else ofRatio negative (digits * Nat.pow 10 exponent.toNat) 1

def ofInt (i : Int) : Double := ofRatio (i < 0) i.natAbs 1

def isInfinite : Double → Bool
  | .infinite _ => true
  | _ => false

def withPayload (d : Double) (payload : Nat) : Double :=
  match d with
  | .nan _ => .nan payload
  | d => d

def neg : Double → Double
  | .nan payload => .nan payload
  | .infinite negative => .infinite (!negative)
  | .finite negative significand exponent => .finite (!negative) significand exponent

/-- The signed significand of a finite number moved to an exponent no larger than its own. -/
def aligned (negative : Bool) (significand : Nat) (exponent target : Int) : Int :=
  let magnitude : Int := (significand * Nat.pow 2 (exponent - target).toNat : Nat)
  if negative then -magnitude else magnitude

/-- Addition, rounded. A sum of zero is negative only when both terms are. -/
def add : Double → Double → Double
  | .nan payload, _ => .nan payload
  | _, .nan payload => .nan payload
  | .infinite a, .infinite b => if a = b then .infinite a else .nan 0
  | .infinite a, .finite .. => .infinite a
  | .finite .., .infinite b => .infinite b
  | .finite a m e, .finite b n f =>
    let low := min e f
    let sum := aligned a m e low + aligned b n f low
    if sum = 0 then .finite (a && b) 0 leastExponent
    else ofScaled (sum < 0) sum.natAbs low

def sub (a b : Double) : Double := add a b.neg

def mul : Double → Double → Double
  | .nan payload, _ => .nan payload
  | _, .nan payload => .nan payload
  | .infinite a, .infinite b => .infinite (a != b)
  | .infinite a, .finite b n _ => if n = 0 then .nan 0 else .infinite (a != b)
  | .finite a m _, .infinite b => if m = 0 then .nan 0 else .infinite (a != b)
  | .finite a m e, .finite b n f => ofScaled (a != b) (m * n) (e + f)

/-- The order of two numbers, or nothing when one of them is `nan`. Both zeros are equal. -/
def compare? : Double → Double → Option Ordering
  | .nan _, _ => none
  | _, .nan _ => none
  | .infinite a, .infinite b => some (if a = b then .eq else if a then .lt else .gt)
  | .infinite a, .finite .. => some (if a then .lt else .gt)
  | .finite .., .infinite b => some (if b then .gt else .lt)
  | .finite a m e, .finite b n f =>
    let low := min e f
    some (compare (aligned a m e low) (aligned b n f low))

def compareInt? : Double → Int → Option Ordering
  | .nan _, _ => none
  | .infinite a, _ => some (if a then .lt else .gt)
  | .finite a m e, i =>
    let low := min e 0
    some (compare (aligned a m e low) (aligned (i < 0) i.natAbs 0 low))

def lt (a b : Double) : Bool := compare? a b == some .lt

def le (a b : Double) : Bool :=
  match compare? a b with
  | some .lt => true
  | some .eq => true
  | _ => false

def same (a b : Double) : Bool := compare? a b == some .eq

/-- Equality of parts of collections: numeric, but undefined numbers of one origin are equal. -/
def alike : Double → Double → Bool
  | .nan payload, .nan other => payload == other
  | a, b => a.same b

def isZero : Double → Bool
  | .finite _ 0 _ => true
  | _ => false

def truncate? : Double → Option Int
  | .finite negative significand exponent =>
    let magnitude : Nat :=
      if exponent < 0 then significand / Nat.pow 2 (-exponent).toNat
      else significand * Nat.pow 2 exponent.toNat
    some (if negative then -(magnitude : Int) else magnitude)
  | _ => none

end Double
end Conveyor
