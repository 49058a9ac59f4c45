import Conveyor.Pipeline.Basic

/-! Jobs: a stage with one assignment of its matrix. -/

namespace Conveyor

structure Producer where
  stage : String
  qualifier : String := ""
  deriving DecidableEq, Repr, Inhabited

def Producer.text (p : Producer) : String :=
  if p.qualifier = "" then p.stage else p.stage ++ "[" ++ p.qualifier ++ "]"

structure Job where
  stage : String
  index : Nat := 0
  assignment : Assignment := []
  steps : List Step := []
  produces : List String := []
  consumes : List ArtifactRef := []
  env : Fields := []
  runsOn : Option String := none
  timeout : Option Number := none
  deriving DecidableEq, Repr, Inhabited

namespace Job

def matrix (j : Job) : Mapping := Table.ofPairs j.assignment

def qualifier (j : Job) : String := Assignment.qualifier j.assignment

def producer (j : Job) : Producer := ⟨j.stage, j.qualifier⟩

def id (j : Job) : String :=
  if j.assignment.isEmpty then j.stage
  else j.stage ++ " (" ++ ", ".intercalate (Assignment.parts j.assignment) ++ ")"

/-- Whether the texts of the values of a filter are those of the job, up to the first that is not. -/
def accepts (j : Job) : Mapping → Except ValueFault Bool
  | [] => .ok true
  | (k, v) :: rest =>
    match j.matrix.get? k with
    | none => .ok false
    | some w => do
      let own ← w.written
      let asked ← v.written
      if own = asked then j.accepts rest else return false

def sameKey (a b : Job) : Bool :=
  a.stage == b.stage && Value.alikePairsInOrder a.assignment b.assignment

end Job
end Conveyor
