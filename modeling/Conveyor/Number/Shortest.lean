import Conveyor.Number.Double

/-! Decimal digits of binary64 numbers: the fewest digits that read back to the same number, and a
fixed count of significant digits. Both work on the exact value. -/

namespace Conveyor

structure Decimal where
  digits : Nat
  exponent : Int
  deriving DecidableEq, Repr, Inhabited

namespace Decimal

def chars (d : Decimal) : List Char := Nat.toDigits 10 d.digits

def leading (d : Decimal) : Int := d.exponent + (d.chars.length : Int) - 1

/-- The same decimal without zeros at its end; at most `fuel` of them are dropped. -/
def trim : Nat → Decimal → Decimal
  | 0, d => d
  | fuel + 1, d =>
    if d.digits ≠ 0 ∧ d.digits % 10 = 0 then trim fuel ⟨d.digits / 10, d.exponent + 1⟩ else d

end Decimal

namespace Double

def fraction (significand : Nat) (exponent : Int) : Nat × Nat :=
  if exponent < 0 then (significand, Nat.pow 2 (-exponent).toNat)
  else (significand * Nat.pow 2 exponent.toNat, 1)

def overPowerOfTen (numerator denominator : Nat) (exponent : Int) : Nat × Nat :=
  if exponent < 0 then (numerator * Nat.pow 10 (-exponent).toNat, denominator)
  else (numerator, denominator * Nat.pow 10 exponent.toNat)

def leadingPower (numerator denominator : Nat) : Int :=
  -- The digit counts fix it up to one.
  let guess : Int :=
    ((Nat.toDigits 10 numerator).length : Int) - ((Nat.toDigits 10 denominator).length : Int)
  let (n, d) := overPowerOfTen numerator denominator guess
  if n < d then guess - 1 else guess

/-- The nearer of two neighbouring decimals that reads back to the number; a tie goes to the even
one. -/
def shortestWith (count : Nat) (significand : Nat) (exponent : Int) : Option Decimal :=
  let (numerator, denominator) := fraction significand exponent
  let place := leadingPower numerator denominator - (count : Int) + 1
  let (n, d) := overPowerOfTen numerator denominator place
  let below := n / d
  let readsBack (digits : Nat) : Bool :=
    decide (ofDecimal false digits place = .finite false significand exponent)
  let doubled := 2 * (n % d)
  let nearer := if doubled < d ∨ (doubled = d ∧ below % 2 = 0) then below else below + 1
  if readsBack below ∧ readsBack (below + 1) then some ⟨nearer, place⟩
  else if readsBack below then some ⟨below, place⟩
  else if readsBack (below + 1) then some ⟨below + 1, place⟩
  else none

/-- The fewest digits, from `count` on, that read back; 17 always do. -/
def shortestFrom (significand : Nat) (exponent : Int) (count : Nat) : Nat → Decimal
  | 0 => (shortestWith 17 significand exponent).getD ⟨0, 0⟩
  | fuel + 1 =>
    match shortestWith count significand exponent with
    | some d => d
    | none => shortestFrom significand exponent (count + 1) fuel

def shortest (significand : Nat) (exponent : Int) : Decimal :=
  (shortestFrom significand exponent 1 16).trim 400

/-- The decimal with `count` significant digits nearest to a positive finite number, ties to the
even digit, without zeros at its end. -/
def significant (count : Nat) (significand : Nat) (exponent : Int) : Decimal :=
  let (numerator, denominator) := fraction significand exponent
  let place := leadingPower numerator denominator - (count : Int) + 1
  let (n, d) := overPowerOfTen numerator denominator place
  (Decimal.mk (roundQuotient n d) place).trim 400

end Double
end Conveyor
