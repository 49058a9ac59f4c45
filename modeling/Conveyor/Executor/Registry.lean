import Conveyor.Executor.Outcome

/-! Executors by name. A step may name its executor with a version and below a path. -/

namespace Conveyor

structure Registry (α : Type) where
  entries : Table String α := []
  fallback : Option α := none
  deriving Repr

def notExecutorMessage (name : String) : String :=
  "Executor " ++ Text.quoted name ++ " must have execute() or be callable"

namespace Registry

variable {α : Type}

def known (r : Registry α) : List String := Text.sorted (r.entries.map (·.1))

/-- The names under which an executor is looked for: as written, without the version, and the last
part of that. -/
def candidates (name : String) : List String :=
  let bare := Text.before '@' name
  [name, bare, Text.afterLast '/' bare]

def find? (r : Registry α) (name : String) : Option (String × α) :=
  (candidates name).findSome? fun candidate => (r.entries.get? candidate).map (candidate, ·)

def lookup? (r : Registry α) (name : String) : Option α :=
  match r.find? name with
  | some (_, executor) => some executor
  | none => r.fallback

def has (r : Registry α) (name : String) : Bool := (r.lookup? name).isSome

def get (r : Registry α) (name : String) : Except StepFault α :=
  match r.lookup? name with
  | some executor => .ok executor
  | none => .error (.unknownExecutor name r.known)

end Registry
end Conveyor
