import Conveyor.Job.Basic
import Conveyor.Matrix.Combinations
import Conveyor.Template

/-! Expanding a stage into jobs: one for every combination, with the templates replaced by the
values of the combination and of the event. -/

namespace Conveyor

def matrixVariable (key : Value) : String := "matrix." ++ key.text

def Template.Scope.of (combination : Mapping) (context : Option Context) : Template.Scope :=
  let event : Fields :=
    match context with
    | some c => c.bindings
    | none => []
  { bindings := event.update (Table.ofPairs (combination.map fun (k, v) => (matrixVariable k, v)))
    strict := context.isSome }

namespace Stage

open Template

def renderStep (scope : Scope) (step : Step) : Except Fault Step := do
  let name ← scope.text step.name
  let params ← scope.fields step.params
  let env ← scope.fields step.env
  return { step with name, params, env }

def renderRef (scope : Scope) (ref : ArtifactRef) : Except Fault ArtifactRef := do
  let name ← scope.text ref.name
  let entries ← scope.entries ref.filter
  return { stage := ref.stage, name, matrix := if ref.filter.isEmpty then none else some entries }

/-- A text that may be absent with its templates replaced; an empty text counts as absent. -/
def renderOptional (scope : Scope) : Option String → Except Fault (Option String)
  | none => .ok none
  | some s => if s = "" then .ok none else do
    let t ← scope.text s
    return some t

def job (s : Stage) (context : Option Context) (index : Nat) (combination : Mapping) :
    Except Fault Job := do
  let scope := Scope.of combination context
  let steps ← s.steps.mapM (renderStep scope)
  let consumes ← s.consumes.mapM (renderRef scope)
  let produces ← s.produces.mapM scope.text
  let env ← scope.fields s.env
  let runsOn ← renderOptional scope s.runsOn
  return { stage := s.name, index, assignment := combination, steps, produces, consumes, env,
           runsOn, timeout := s.timeout }

def expand (s : Stage) (context : Option Context) : Except Rejection (List Job) := do
  let combinations ← s.combinations
  combinations.zipIdx.mapM fun (combination, index) =>
    if combination.keys.any Value.isUnwritable then .error (.unusable .unwritable)
    else (s.job context index combination).mapError Fault.rejection

def templateNames (s : Stage) : List String :=
  let keys :=
    match s.matrix with
    | some m => m.keys
    | none => []
  Context.knownVariables ++ keys.map matrixVariable

end Stage
end Conveyor
