import Conveyor.Job.Name
import Conveyor.Trigger

/-! Pipeline declarations: stages with their steps, dependencies, matrix and artifacts. -/

namespace Conveyor

structure Step where
  uses : String
  name : String := ""
  params : Fields := []
  env : Fields := []
  deriving DecidableEq, Repr, Inhabited

def Step.displayName (s : Step) : String := if s.name = "" then s.uses else s.name

/-- The matrix of a stage: axes whose values are combined, and entries to add and to leave out. -/
structure Matrix where
  axes : Table String (List Value) := []
  included : List Mapping := []
  excluded : List Mapping := []
  deriving DecidableEq, Repr, Inhabited

def Matrix.keys (m : Matrix) : List Value :=
  let axisKeys : Table Value Unit := m.axes.map fun (axis, _) => (.str axis, ())
  (m.included.foldl (fun keys entry => keys.update (entry.map fun (k, _) => (k, ()))) axisKeys).keys

structure ArtifactRef where
  stage : String
  name : String
  matrix : Option Mapping := none
  deriving DecidableEq, Repr, Inhabited

namespace ArtifactRef

def filter (r : ArtifactRef) : Mapping := r.matrix.getD []

def malformed (text : String) : String :=
  "Artifact reference must look like 'stage/name', got " ++ Text.quoted text

def parse? (text : String) : Option ArtifactRef :=
  match Text.cut? '/' text with
  | none => none
  | some (stage, name) =>
    if stage = "" ∨ name = "" then none
    else some { stage := Text.strip stage, name := Text.strip name }

def text (r : ArtifactRef) : String :=
  if r.filter.isEmpty then r.stage ++ "/" ++ r.name
  else r.stage ++ "/" ++ r.name ++ " [" ++ Assignment.qualifier r.filter ++ "]"

end ArtifactRef

structure Stage where
  name : String
  steps : List Step
  needs : List String := []
  matrix : Option Matrix := none
  condition : Option String := none
  failFast : Bool := true
  timeout : Option Number := none
  produces : List String := []
  consumes : List ArtifactRef := []
  env : Fields := []
  runsOn : Option String := none
  title : Option String := none
  deriving DecidableEq, Repr, Inhabited

structure Pipeline where
  name : String
  stages : List Stage
  triggers : List Trigger := []
  env : Fields := []
  deriving DecidableEq, Repr, Inhabited

def Pipeline.stage? (p : Pipeline) (name : String) : Option Stage :=
  p.stages.find? (·.name == name)

end Conveyor
