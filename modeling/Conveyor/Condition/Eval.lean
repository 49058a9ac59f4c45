import Conveyor.Complaint
import Conveyor.Condition.Parser
import Conveyor.Context
import Conveyor.Glob

/-! Evaluating conditions. Both sides of a conjunction or disjunction are tested for truth, and the
right side only where it decides; functions take the text of anything but a boolean. -/

namespace Conveyor.Condition

inductive EvalFault where
  | unknownVariable (name : String)
  | noValue (name : String)
  | booleanArgument (function : Function)
  deriving DecidableEq, Repr

inductive Fault where
  | malformed (fault : SyntaxFault)
  | undefined (fault : EvalFault)
  deriving DecidableEq, Repr

def EvalFault.message : EvalFault → String
  | .unknownVariable name => "unknown variable " ++ Text.quoted name
  | .noValue name => "variable " ++ Text.quoted name ++ " has no value for this event"
  | .booleanArgument function => function.name ++ "() expects strings, got boolean"

def Fault.message : Fault → String
  | .malformed fault => fault.message
  | .undefined fault => fault.message

def located (message expression : String) : String :=
  message ++ " (in " ++ Text.quoted expression ++ ")"

def Failure.text (failure : Failure Fault) : String :=
  located failure.fault.message failure.expression

def resolve (bindings : Fields) (name : String) : Except EvalFault Value :=
  match bindings.get? name with
  | none => .error (.unknownVariable name)
  | some .null => .error (.noValue name)
  | some value => .ok value

def argumentText (function : Function) : Value → Except EvalFault String
  | .bool _ => .error (.booleanArgument function)
  | value => .ok value.text

def Function.holds (function : Function) (subject argument : String) : Bool :=
  match function with
  | .startsWith => Text.startsWith subject.toList argument.toList
  | .endsWith => Text.endsWith subject.toList argument.toList
  | .contains => Text.contains subject.toList argument.toList
  | .glob => globMatches argument subject

def Expr.eval (bindings : Fields) : Expr → Except EvalFault Value
  | .boolean b => .ok (.bool b)
  | .text s => .ok (.str s)
  | .variable name => resolve bindings name
  | .not operand => do
    let value ← operand.eval bindings
    return .bool (!value.truthy)
  | .and left right => do
    let first ← left.eval bindings
    if first.truthy then
      let second ← right.eval bindings
      return .bool second.truthy
    else return .bool false
  | .or left right => do
    let first ← left.eval bindings
    if first.truthy then return .bool true
    else
      let second ← right.eval bindings
      return .bool second.truthy
  | .equal left right => do
    let first ← left.eval bindings
    let second ← right.eval bindings
    return .bool (first.same second)
  | .notEqual left right => do
    let first ← left.eval bindings
    let second ← right.eval bindings
    return .bool (!first.same second)
  | .call function left right => do
    let first ← left.eval bindings
    let second ← right.eval bindings
    let subject ← argumentText function first
    let argument ← argumentText function second
    return .bool (function.holds subject argument)

def evaluate (expression : String) (bindings : Fields) : Except (Failure Fault) Bool :=
  match parse expression with
  | .error failure => .error ⟨failure.expression, .malformed failure.fault⟩
  | .ok tree =>
    match tree.eval bindings with
    | .error fault => .error ⟨expression, .undefined fault⟩
    | .ok value => .ok value.truthy

def Expr.unknownNames (tree : Expr) (known : List String) : List String :=
  Text.sortedSet (tree.names.filter fun name => !known.contains name)

def check (expression : String) (known : List String) (subject : String) :
    Except Complaint Unit :=
  match parse expression with
  | .error failure =>
    .error ⟨"Invalid " ++ subject, [located failure.fault.message failure.expression]⟩
  | .ok tree =>
    match tree.unknownNames known with
    | [] => .ok ()
    | unknown =>
      .error ⟨"Invalid " ++ subject, unknown.map fun name =>
        "unknown variable " ++ Text.quoted name ++ " in " ++ Text.quoted expression⟩

end Conveyor.Condition
