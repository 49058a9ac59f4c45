import Conveyor.Executor.Outcome
import Conveyor.Text.Case

/-! What a step sees of the run: its job, the event, the artifacts that the job consumes, and those
that its steps have published so far. Published artifacts stay here until the job has succeeded. -/

namespace Conveyor

structure JobContext where
  job : Job
  run : Context
  inputs : Inputs := []
  staged : Table String Blob := []
  deriving DecidableEq, Repr

namespace JobContext

def builtins (c : JobContext) : Table String String :=
  [ ("MATRIXCI", "true"),
    ("MATRIXCI_EVENT", c.run.event.name),
    ("MATRIXCI_REF", c.run.ref),
    ("MATRIXCI_REF_NAME", c.run.refName),
    ("MATRIXCI_REF_KIND", c.run.kind.name),
    ("MATRIXCI_STAGE", c.job.stage),
    ("MATRIXCI_JOB", c.job.id) ]

def axisVariable (axis : String) : String :=
  "MATRIX_" ++ String.ofList ((Text.upper axis).toList.map fun c => if c = '-' then '_' else c)

def axisVariables (c : JobContext) : Except StepFault (Table String String) :=
  c.job.matrix.mapM fun (k, v) =>
    match k with
    | .str axis => .ok (axisVariable axis, v.text)
    | key => .error (.unnamedAxis key)

def checkWritable (values : List Value) : Except StepFault Unit :=
  if values.any Value.isUnwritable then .error (.ofValue .unwritable) else .ok ()

def texts (fields : Fields) : Except StepFault (Table String String) := do
  checkWritable fields.values
  return fields.map fun (k, v) => (k, v.text)

/-- The variables of processes that are started for a step, or for the job in general. The later
layers win: built-in variables, the assignment, the job's variables, the step's. -/
def environment (c : JobContext) (step : Option Step) : Except StepFault (Table String String) := do
  checkWritable (c.job.assignment.flatMap fun (k, v) => [k, v])
  let axes ← c.axisVariables
  let general ← texts c.job.env
  let own ← texts ((step.map (·.env)).getD [])
  return ((c.builtins.update axes).update general).update own

def publish (c : JobContext) (name : String) (blob : Blob) : Except StepFault JobContext :=
  if !c.job.produces.contains name then .error (.undeclared c.job.id name c.job.produces)
  else if c.staged.has name then .error (.publishedTwice c.job.id name)
  else .ok { c with staged := c.staged.insert name blob }

def fetchAll (c : JobContext) (stage name : String) (filter : Mapping) :
    Except StepFault (Table String Blob) :=
  match c.inputs.select stage name filter with
  | .error f => .error (.ofValue f)
  | .ok [] =>
    .error (.missing { stage, name, matrix := filter
                       reason := "not among the artifacts this job consumes" })
  | .ok found => .ok found

def fetch (c : JobContext) (stage name : String) (filter : Mapping) : Except StepFault Blob := do
  match ← c.fetchAll stage name filter with
  | [(_, blob)] => return blob
  | found => throw (.ambiguous { stage, name, qualifiers := Text.sorted (found.map (·.1)) })

end JobContext
end Conveyor
