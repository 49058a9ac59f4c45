/-! Sets of characters, given by the lengths of their runs. -/

namespace Conveyor.Text

/-- Whether a character is in a set: so many characters are not in it, then so many are, and so on. After the last run none
is. -/
def inRuns (runs : List Nat) (c : Char) : Bool := member false runs c.toNat
where
  member : Bool → List Nat → Nat → Bool
    | _, [], _ => false
    | inside, length :: rest, n => if n < length then inside else member (!inside) rest (n - length)

end Conveyor.Text
