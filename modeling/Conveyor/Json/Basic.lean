import Conveyor.Number.Double
import Conveyor.Table

/-! JSON values. The fields of an object keep their order. -/

namespace Conveyor

inductive Json where
  | null
  | bool (b : Bool)
  | int (i : Int)
  | float (d : Double)
  | str (s : String)
  | arr (items : List Json)
  | obj (fields : List (String × Json))
  deriving Repr, Inhabited

namespace Json

def field? : Json → String → Option Json
  | .obj fields, name => Table.get? fields name
  | _, _ => none

mutual
def sortFields : Json → Json
  | .arr items => .arr (sortItems items)
  | .obj fields => .obj ((sortEach fields).mergeSort fun a b => decide (a.1 ≤ b.1))
  | j => j

def sortItems : List Json → List Json
  | [] => []
  | item :: items => item.sortFields :: sortItems items

def sortEach : List (String × Json) → List (String × Json)
  | [] => []
  | (name, value) :: fields => (name, value.sortFields) :: sortEach fields
end

end Json
end Conveyor
