import Conveyor.Matrix.Combinations
import Mathlib.Algebra.Order.Field.Rat
import Mathlib.Algebra.GroupWithZero.Basic
import Mathlib.Algebra.Order.Field.Power
import Mathlib.Tactic.Ring

/-! Scalars are equal when they are worth the same. Booleans, integers and binary numbers are worth a rational number,
whatever their kind; an undefined number is worth nothing, not even the same as itself. -/

namespace Conveyor

inductive Worth where
  | null
  | text (s : String)
  | number (q : ℚ)
  | infinite (negative : Bool)

namespace Double

/-- The number that a sign, a significand and an exponent stand for. -/
def rational (negative : Bool) (significand : Nat) (exponent : Int) : ℚ :=
  (if negative then -(significand : ℚ) else significand) * 2 ^ exponent

theorem aligned_rational (negative : Bool) (significand : Nat) {exponent target : Int} (low : target ≤ exponent) :
    (aligned negative significand exponent target : ℚ) * 2 ^ target = rational negative significand exponent := by
  have shift : ((2 ^ (exponent - target).toNat : ℕ) : ℚ) * 2 ^ target = 2 ^ exponent := by
    rw [Nat.cast_pow, Nat.cast_ofNat, ← zpow_natCast, ← zpow_add₀ two_ne_zero, Int.toNat_of_nonneg (by omega)]
    congr 1
    omega
  have magnitude : ((significand * 2 ^ (exponent - target).toNat : ℕ) : ℚ) * 2 ^ target = significand * 2 ^ exponent := by
    rw [Nat.cast_mul, mul_assoc, shift]
  unfold aligned rational
  cases negative with
  | false => exact magnitude
  | true =>
    simp only [if_true, Int.cast_neg, neg_mul]
    exact congrArg Neg.neg magnitude

theorem aligned_eq_iff {a b : Bool} {m n : Nat} {e f low : Int} (left : low ≤ e) (right : low ≤ f) :
    aligned a m e low = aligned b n f low ↔ rational a m e = rational b n f := by
  rw [← aligned_rational a m left, ← aligned_rational b n right]
  constructor
  · intro equal
    rw [equal]
  · intro equal
    exact Int.cast_injective (mul_right_cancel₀ (zpow_ne_zero low two_ne_zero) equal)

theorem rational_int (i : Int) : rational (i < 0) i.natAbs 0 = i := by
  rw [rational, zpow_zero, mul_one, Nat.cast_natAbs]
  by_cases negative : i < 0
  · rw [decide_eq_true negative, if_pos rfl, abs_of_neg negative, Int.cast_neg, neg_neg]
  · rw [decide_eq_false negative, if_neg Bool.false_ne_true, abs_of_nonneg (not_lt.1 negative)]

def worth : Double → Option Worth
  | .nan _ => none
  | .infinite negative => some (.infinite negative)
  | .finite negative significand exponent => some (.number (rational negative significand exponent))

@[simp] theorem worth_ne_null (d : Double) : d.worth ≠ some .null := by cases d <;> simp [worth]

@[simp] theorem worth_ne_text (d : Double) (s : String) : d.worth ≠ some (.text s) := by cases d <;> simp [worth]

theorem same_iff {d e : Double} : d.same e = true ↔ ∃ w, d.worth = some w ∧ e.worth = some w := by
  rw [same, beq_iff_eq]
  cases d with
  | nan payload => simp [compare?, worth]
  | infinite a =>
    cases e with
    | nan payload => simp [compare?, worth]
    | infinite b => cases a <;> cases b <;> simp [compare?, worth]
    | finite b n f => cases a <;> simp [compare?, worth]
  | finite a m e' =>
    cases e with
    | nan payload => simp [compare?, worth]
    | infinite b => cases b <;> simp [compare?, worth]
    | finite b n f =>
      simp only [compare?, worth, Option.some.injEq, Std.LawfulEqCmp.compare_eq_iff_eq, exists_eq_left',
        Worth.number.injEq]
      exact (aligned_eq_iff (min_le_left e' f) (min_le_right e' f)).trans eq_comm

theorem compareInt?_eq_iff {d : Double} {i : Int} : d.compareInt? i = some .eq ↔ d.worth = some (.number i) := by
  cases d with
  | nan payload => simp [compareInt?, worth]
  | infinite a => cases a <;> simp [compareInt?, worth]
  | finite a m e =>
    simp only [compareInt?, worth, Option.some.injEq, Std.LawfulEqCmp.compare_eq_iff_eq, Worth.number.injEq]
    rw [aligned_eq_iff (min_le_left e 0) (min_le_right e 0), rational_int]

end Double

namespace Value

def worth : Value → Option Worth
  | .null => some .null
  | .bool b => some (.number (boolInt b))
  | .int i => some (.number i)
  | .float d => d.worth
  | .str s => some (.text s)
  | _ => none

theorem boolInt_inj {a b : Bool} : boolInt a = boolInt b ↔ a = b := by cases a <;> cases b <;> decide

theorem same_iff {v w : Value} (first : Matrix.isPlain v = true) (second : Matrix.isPlain w = true) :
    v.same w = true ↔ ∃ x, v.worth = some x ∧ w.worth = some x := by
  cases v with
  | null | bool | int | float | str =>
    cases w with
    | null | bool | int | float | str =>
      simp [same, alike, worth, Double.same_iff, Double.compareInt?_eq_iff, boolInt_inj] <;> exact eq_comm
    | bytes | date | timestamp | list | tuple | set | map | knot | again => cases second
  | bytes | date | timestamp | list | tuple | set | map | knot | again => cases first

end Value
end Conveyor
