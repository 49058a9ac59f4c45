import Conveyor.Value.Text

/-! Names built from matrix values. Separators inside keys and values are escaped, so that different
assignments have different names. -/

namespace Conveyor

abbrev Assignment := List (Value × Value)

namespace Assignment

def escapeChar (c : Char) : List Char := if c = '\\' ∨ c = ',' ∨ c = '=' then ['\\', c] else [c]

def escape (v : Value) : String := String.ofList (v.text.toList.flatMap escapeChar)

def parts (a : Assignment) : List String := a.map fun (k, v) => escape k ++ "=" ++ escape v

def qualifier (a : Assignment) : String := ",".intercalate a.parts

end Assignment
end Conveyor
