/-! Expressions of the condition language. -/

namespace Conveyor.Condition

inductive Function where
  | startsWith
  | endsWith
  | contains
  | glob
  deriving DecidableEq, Repr

namespace Function

def name : Function → String
  | .startsWith => "startsWith"
  | .endsWith => "endsWith"
  | .contains => "contains"
  | .glob => "glob"

def ofName? (s : String) : Option Function :=
  [startsWith, endsWith, contains, glob].find? (·.name == s)

def arity (_ : Function) : Nat := 2

end Function

inductive Expr where
  | boolean (b : Bool)
  | text (s : String)
  | variable (name : String)
  | not (operand : Expr)
  | and (left right : Expr)
  | or (left right : Expr)
  | equal (left right : Expr)
  | notEqual (left right : Expr)
  | call (function : Function) (left right : Expr)
  deriving DecidableEq, Repr

namespace Expr

def names : Expr → List String
  | .boolean _ => []
  | .text _ => []
  | .variable name => [name]
  | .not operand => operand.names
  | .and left right => left.names ++ right.names
  | .or left right => left.names ++ right.names
  | .equal left right => left.names ++ right.names
  | .notEqual left right => left.names ++ right.names
  | .call _ left right => left.names ++ right.names

end Expr
end Conveyor.Condition
